import Barqium.Spec.PatchCorrect
import Mathlib.Data.List.Induction

/-!
# Present fields of a PATCH body

Whether a body has a field and whether the handler takes it for provided are two things.
A pointer says both; a field that is not one is taken for absent when it has its zero
value, which a body may state. Such a field changes nothing, and the answer is 200.

## Key results

- `foldlM_reflects`: what the decoder makes of the members of a body, field by field.
- `Resource.handle_decodes`: a body that does not decode is not answered with 200.
- `Merges.run_cases`, `Patches.run_cases`: the row that a PATCH handler leaves.
- `Deployment.patch_overrides_iff`: when every present field has its value in the new row
-/

namespace Barqium.Native.ControlApi

open Program

/-! ## Fields of a body -/

/-- The value of the last member with the name; encoding/json ignores the case. -/
def lastMember (key : String) (members : List (String × Json)) : Option Json :=
  (members.reverse.find? fun m => foldName m.1 = key).map Prod.snd

def Request.field (r : Request) (key : String) : Option Json :=
  match r.body with
  | some (.obj members) => lastMember key members
  | _ => none

namespace Column

/-- The name of the column in a body. -/
def key : Column → String
  | .name => "name"
  | .slug => "slug"
  | .enabled => "enabled"
  | .url => "url"
  | .timeoutMs => "timeout_ms"
  | .method => "method"
  | .pathPrefix => "path_prefix"
  | .host => "host"
  | .upstreamId => "upstream_id"
  | .provider => "provider"
  | .baseUrl => "base_url"
  | .apiKeyEnv => "api_key_env"
  | .model => "model"
  | .maxTokensPerRequest => "max_tokens_per_request"
  | .budgetUsdPerDay => "budget_usd_per_day"
  | .fallbackModel => "fallback_model"
  | .scope => "scope"
  | .algorithm => "algorithm"
  | .rateLimit => "rate_limit"
  | .windowSecs => "window_secs"
  | .burstLimit => "burst_limit"

def nullable : Column → Bool
  | .baseUrl | .apiKeyEnv | .budgetUsdPerDay | .fallbackModel | .burstLimit => true
  | _ => false

/-- The value of the column that a JSON value states; methods are kept in upper case. -/
def denote (ext : Ext) (c : Column) (v : Json) : Option Value :=
  match c with
  | .enabled => (goBool v).map .bool
  | .upstreamId => (goUuid ext v).map .uuid
  | .timeoutMs | .maxTokensPerRequest | .rateLimit | .windowSecs | .burstLimit =>
    (goInt32 v).map .int
  | .method => (goString v).map fun s => .text (ext.toUpper s)
  | _ => (goString v).map .text

/-- The handler takes the value for one that is provided. -/
def Effective (c : Column) (v : Json) : Prop :=
  match c with
  | .enabled | .upstreamId | .baseUrl | .apiKeyEnv | .budgetUsdPerDay | .fallbackModel
  | .burstLimit => v ≠ .null
  | .timeoutMs | .maxTokensPerRequest | .rateLimit | .windowSecs =>
    ∃ n, goInt32 v = some n ∧ 0 < n
  | _ => ∃ s, v = .str s ∧ s ≠ ""

end Column

namespace Resource

/-- The columns that a PATCH body of the resource may have. -/
def columns : Resource → List Column
  | tenant => [.name, .slug, .enabled]
  | upstream => [.name, .url, .timeoutMs, .enabled]
  | route => [.method, .pathPrefix, .host, .upstreamId, .enabled]
  | aiProvider => [.name, .provider, .baseUrl, .apiKeyEnv, .enabled]
  | aiModelPolicy =>
    [.model, .maxTokensPerRequest, .budgetUsdPerDay, .fallbackModel, .enabled]
  | rateLimitPolicy =>
    [.name, .scope, .algorithm, .rateLimit, .windowSecs, .burstLimit, .enabled]

/-- The resources whose columns are stored as they are sent. -/
def plain : List Resource := [tenant, upstream, route, rateLimitPolicy]

/-- Every field that the body has is the new value of its column, and every other column
    has the old value. -/
def Overrides (ext : Ext) (r : Request) (res : Resource) (old new : res.table.Row) : Prop :=
  ∀ c ∈ res.columns,
    match r.field c.key with
    | none => res.table.value new c = res.table.value old c
    | some v => res.table.value new c = c.denote ext v

/-- Every field that the body has is effective, or states the value that the row has. -/
def TakesEffect (ext : Ext) (r : Request) (res : Resource) (old : res.table.Row) : Prop :=
  ∀ c ∈ res.columns, ∀ v, r.field c.key = some v →
    c.Effective v ∨ res.table.value old c = c.denote ext v

end Resource

/-! ## Decoding -/

/-- What the decoder made of a field: its value, nothing if it has no effect, and anything
    for a null in a field that is not a pointer. -/
def Reflects (ext : Ext) (c : Column) (field : Option Json) (provided : Option Value) : Prop :=
  match field with
  | none => provided = none
  | some v =>
    (c.Effective v ∧ provided = c.denote ext v ∧ provided ≠ none) ∨
      (¬ c.Effective v ∧ provided = none) ∨
      (¬ c.Effective v ∧ c.denote ext v = none ∧ c.nullable = false)

/-- A member sets the field of its name, and leaves the others. -/
def SetsField (ext : Ext) (c : Column) (key : String) (v : Json)
    (before after : Option Value) : Prop :=
  (key = c.key → Reflects ext c (some v) after) ∧ (key ≠ c.key → after = before)

section Fields

variable {ext : Ext} {c : Column} {v : Json}

/-- What a member of a body stands for in a column. -/
private theorem reflects_some {provided : Option Value} :
    Reflects ext c (some v) provided ↔
      (c.Effective v ∧ provided = c.denote ext v ∧ provided ≠ none) ∨
        (¬ c.Effective v ∧ provided = none) ∨
        (¬ c.Effective v ∧ c.denote ext v = none ∧ c.nullable = false) :=
  Iff.rfl

/-- The last member with the key counts. -/
private theorem lastMember_append (key : String) (members : List (String × Json))
    (m : String × Json) :
    lastMember key (members ++ [m]) =
      if foldName m.1 = key then some m.2 else lastMember key members := by
  unfold lastMember
  rw [List.reverse_append, List.reverse_singleton, List.singleton_append, List.find?_cons]
  by_cases h : foldName m.1 = key
  · simp [h]
  · simp [h]

/-- What a fold over the members makes of a column is decided by the last one of its name. -/
theorem foldlM_reflects {α : Type} {set : α → String → Json → Option α} {zero req : α}
    {fields : α → Column → Option Value} (hzero : fields zero c = none)
    (hset : ∀ req key v req', set req key v = some req' →
      SetsField ext c key v (fields req c) (fields req' c))
    {members : List (String × Json)}
    (h : members.foldlM (fun a m => set a (foldName m.1) m.2) zero = some req) :
    Reflects ext c (lastMember c.key members) (fields req c) := by
  -- by the last member: it sets the column, or an earlier one has
  induction members using List.reverseRecOn generalizing req with
  | nil =>
    cases h
    exact hzero
  | append_singleton members m ih =>
    rw [List.foldlM_append] at h
    obtain ⟨before, hbefore, h⟩ := Option.bind_eq_some_iff.mp h
    have hm : set before (foldName m.1) m.2 = some req := by simpa using h
    obtain ⟨hown, hother⟩ := hset before _ _ req hm
    rw [lastMember_append]
    split
    · rename_i hkey
      exact hown hkey
    · rename_i hkey
      rw [hother hkey]
      exact ih hbefore

/-- What is decoded reflects the last member with the key. -/
private theorem decode_reflects {α : Type} {set : α → String → Json → Option α} {zero req : α}
    {fields : α → Column → Option Value} {r : Request} (hzero : fields zero c = none)
    (hset : ∀ req key v req', set req key v = some req' →
      SetsField ext c key v (fields req c) (fields req' c))
    (h : decodeBody set zero r = .ok req) : Reflects ext c (r.field c.key) (fields req c) := by
  unfold decodeBody at h
  unfold Request.field
  -- no body, an object, or something else
  split at h
  · -- a null body is an empty one
    rename_i hbody
    cases h
    rw [hbody]
    exact hzero
  · rename_i members hbody
    dsimp only at h
    split at h
    · rename_i decoded hdecoded
      cases h
      rw [hbody]
      exact foldlM_reflects hzero hset hdecoded
    · cases h
  · cases h

/-! ### Kinds of fields -/

/-- A value is null, or it is decoded. -/
private theorem goValue_eq_some {α : Type} {decode : Json → Option α} {current x : α}
    (h : goValue decode current v = some x) :
    v = .null ∨ v ≠ .null ∧ decode v = some x := by
  cases v with
  | null => exact .inl rfl
  | _ => exact .inr ⟨nofun, h⟩

/-- A pointer is null, or points to what is decoded. -/
private theorem goPointer_eq_some {α : Type} {decode : Json → Option α} {x : Option α}
    (h : goPointer decode v = some x) :
    (v = .null ∧ x = none) ∨ v ≠ .null ∧ ∃ y, decode v = some y ∧ x = some y := by
  cases v with
  | null =>
    cases h
    exact .inl ⟨rfl, rfl⟩
  | _ =>
    obtain ⟨y, hy, rfl⟩ := Option.map_eq_some_iff.mp h
    exact .inr ⟨nofun, y, hy, rfl⟩

/-- A text: the empty one is taken for absent. -/
private theorem reflects_text {f : String → Value} {current x : String}
    (heffective : c.Effective v ↔ ∃ s, v = .str s ∧ s ≠ "")
    (hdenote : c.denote ext v = (goString v).map f) (hnullable : c.nullable = false)
    (h : goValue goString current v = some x) :
    Reflects ext c (some v) (if x = "" then none else some (f x)) := by
  rw [reflects_some, heffective, hdenote]
  rcases goValue_eq_some h with rfl | ⟨-, hx⟩
  · exact .inr (.inr ⟨by simp, rfl, hnullable⟩)
  · cases v with
    | str s =>
      cases hx
      -- the empty text stands for absence
      by_cases hx : x = ""
      · exact .inr (.inl ⟨by simp [hx], by simp [hx]⟩)
      · exact .inl ⟨⟨x, rfl, hx⟩, by simp [hx, goString], by simp [hx]⟩
    | _ => cases hx

/-- A number that counts only when it is positive. -/
private theorem reflects_positive {current x : Int32}
    (heffective : c.Effective v ↔ ∃ n, goInt32 v = some n ∧ 0 < n)
    (hdenote : c.denote ext v = (goInt32 v).map .int) (hnullable : c.nullable = false)
    (h : goValue goInt32 current v = some x) :
    Reflects ext c (some v) (providedPositive (some x)) := by
  rw [reflects_some, heffective, hdenote]
  rcases goValue_eq_some h with rfl | ⟨-, hx⟩
  · exact .inr (.inr ⟨by simp [goInt32, goInteger], rfl, hnullable⟩)
  · by_cases hpos : 0 < x
    · exact .inl ⟨⟨x, hx, hpos⟩, by simp [providedPositive, hpos, hx, Option.filter],
        by simp [providedPositive, hpos, Option.filter]⟩
    · exact .inr (.inl ⟨by simp [hx, hpos], by simp [providedPositive, hpos, Option.filter]⟩)

/-- A number counts if it is positive. -/
private theorem reflects_positivePointer {x : Option Int32}
    (heffective : c.Effective v ↔ ∃ n, goInt32 v = some n ∧ 0 < n)
    (hdenote : c.denote ext v = (goInt32 v).map .int)
    (h : goPointer goInt32 v = some x) : Reflects ext c (some v) (providedPositive x) := by
  rcases goPointer_eq_some h with ⟨rfl, rfl⟩ | ⟨hv, n, hn, rfl⟩
  · rw [reflects_some, heffective]
    exact .inr (.inl ⟨by simp [goInt32, goInteger], rfl⟩)
  · rw [reflects_some, heffective, hdenote]
    by_cases hpos : 0 < n
    · exact .inl ⟨⟨n, hn, hpos⟩, by simp [providedPositive, hpos, hn, Option.filter],
        by simp [providedPositive, hpos, Option.filter]⟩
    · exact .inr (.inl ⟨by simp [hn, hpos], by simp [providedPositive, hpos, Option.filter]⟩)

/-- A pointer: only null is taken for absent. -/
private theorem reflects_pointer {α : Type} {decode : Json → Option α} {f : α → Value}
    {x : Option α}
    (heffective : c.Effective v ↔ v ≠ .null) (hdenote : c.denote ext v = (decode v).map f)
    (h : goPointer decode v = some x) : Reflects ext c (some v) (x.map f) := by
  rw [reflects_some, heffective, hdenote]
  rcases goPointer_eq_some h with ⟨rfl, rfl⟩ | ⟨hv, y, hy, rfl⟩
  · exact .inr (.inl ⟨by simp, rfl⟩)
  · exact .inl ⟨hv, by simp [hy], by simp⟩

/-- A member sets its own column. -/
theorem SetsField.own {before after : Option Value} (h : Reflects ext c (some v) after) :
    SetsField ext c c.key v before after :=
  ⟨fun _ => h, fun hne => absurd rfl hne⟩

/-- A member leaves the columns of the others. -/
theorem SetsField.other {key : String} {before after : Option Value} (hkey : key ≠ c.key)
    (h : after = before) : SetsField ext c key v before after :=
  ⟨fun heq => absurd heq hkey, fun _ => h⟩

/-! ### Bodies -/

/-- The members of a tenant. -/
theorem CreateTenantRequest.set_field {req req' : UpdateTenantRequest} {key : String}
    (hc : c ∈ Resource.tenant.columns) (h : CreateTenantRequest.set req key v = some req') :
    SetsField ext c key v (req.provided c) (req'.provided c) := by
  simp only [Resource.columns, List.mem_cons, List.not_mem_nil, or_false] at hc
  unfold CreateTenantRequest.set at h
  split at h
  case h_4 =>
    -- a member that the struct does not know
    cases h
    rcases hc with rfl | rfl | rfl <;> exact .other (by assumption) rfl
  all_goals
    obtain ⟨x, hx, rfl⟩ := Option.map_eq_some_iff.mp h
    rcases hc with rfl | rfl | rfl <;>
      first
      | exact .other (by decide) rfl
      | exact .own (reflects_text Iff.rfl rfl rfl hx)
      | exact .own (reflects_pointer Iff.rfl rfl hx)

/-- The members of an upstream. -/
theorem CreateUpstreamRequest.set_field {req req' : UpdateUpstreamRequest} {key : String}
    (hc : c ∈ Resource.upstream.columns) (h : CreateUpstreamRequest.set req key v = some req') :
    SetsField ext c key v (req.provided c) (req'.provided c) := by
  simp only [Resource.columns, List.mem_cons, List.not_mem_nil, or_false] at hc
  unfold CreateUpstreamRequest.set at h
  split at h
  -- an unknown key sets nothing
  case h_5 =>
    cases h
    rcases hc with rfl | rfl | rfl | rfl <;> exact .other (by assumption) rfl
  all_goals
    obtain ⟨x, hx, rfl⟩ := Option.map_eq_some_iff.mp h
    rcases hc with rfl | rfl | rfl | rfl <;>
      first
      | exact .other (by decide) rfl
      | exact .own (reflects_text Iff.rfl rfl rfl hx)
      | exact .own (reflects_positivePointer Iff.rfl rfl hx)
      | exact .own (reflects_pointer Iff.rfl rfl hx)

/-- The members of a route. -/
theorem UpdateRouteRequest.set_field {req req' : UpdateRouteRequest} {key : String}
    (hc : c ∈ Resource.route.columns) (h : UpdateRouteRequest.set ext req key v = some req') :
    SetsField ext c key v (req.provided ext c) (req'.provided ext c) := by
  simp only [Resource.columns, List.mem_cons, List.not_mem_nil, or_false] at hc
  unfold UpdateRouteRequest.set at h
  split at h
  -- an unknown key sets nothing
  case h_6 =>
    cases h
    rcases hc with rfl | rfl | rfl | rfl | rfl <;> exact .other (by assumption) rfl
  all_goals
    obtain ⟨x, hx, rfl⟩ := Option.map_eq_some_iff.mp h
    rcases hc with rfl | rfl | rfl | rfl | rfl <;>
      first
      | exact .other (by decide) rfl
      | exact .own (reflects_text Iff.rfl rfl rfl hx)
      | exact .own (reflects_text (f := fun s => .text (ext.toUpper s)) Iff.rfl rfl rfl hx)
      | exact .own (reflects_pointer Iff.rfl rfl hx)

/-- The members of a rate limit. -/
theorem RateLimitPolicyRequest.set_field {req req' : RateLimitPolicyRequest} {key : String}
    (hc : c ∈ Resource.rateLimitPolicy.columns)
    (h : RateLimitPolicyRequest.set req key v = some req') :
    SetsField ext c key v (req.provided c) (req'.provided c) := by
  simp only [Resource.columns, List.mem_cons, List.not_mem_nil, or_false] at hc
  unfold RateLimitPolicyRequest.set at h
  split at h
  -- an unknown key sets nothing
  case h_8 =>
    cases h
    rcases hc with rfl | rfl | rfl | rfl | rfl | rfl | rfl <;> exact .other (by assumption) rfl
  all_goals
    obtain ⟨x, hx, rfl⟩ := Option.map_eq_some_iff.mp h
    rcases hc with rfl | rfl | rfl | rfl | rfl | rfl | rfl <;>
      first
      | exact .other (by decide) rfl
      | exact .own (reflects_text Iff.rfl rfl rfl hx)
      | exact .own (reflects_positive Iff.rfl rfl rfl hx)
      | exact .own (reflects_pointer Iff.rfl rfl hx)

end Fields

/-! ## Answers -/

namespace Resource

/-- The body is one that the handler decodes. -/
def Decodes (ext : Ext) (r : Request) : Resource → Prop
  | tenant => ∃ req, decodeBody CreateTenantRequest.set {} r = .ok req
  | upstream => ∃ req, decodeBody CreateUpstreamRequest.set {} r = .ok req
  | route => ∃ req, decodeBody (UpdateRouteRequest.set ext) {} r = .ok req
  | aiProvider => ∃ req, decodeBody CreateAiProviderRequest.set {} r = .ok req
  | aiModelPolicy => ∃ req, decodeBody CreateAiModelPolicyRequest.set {} r = .ok req
  | rateLimitPolicy => ∃ req, decodeBody RateLimitPolicyRequest.set {} r = .ok req

variable {ext : Ext} {r : Request} {res : Resource} {c : Column}

/-- What a patch provides reflects the members of its body. -/
private theorem provided_reflects (hres : res ∈ plain) (hc : c ∈ res.columns)
    (hdecodes : res.Decodes ext r) :
    Reflects ext c (r.field c.key) (res.provided ext r c) := by
  -- each kind of row, by its decoder
  cases res with
  | tenant =>
    obtain ⟨req, hreq⟩ := hdecodes
    simp only [provided, providedBy_of_ok hreq]
    exact decode_reflects (by cases c <;> rfl) (fun _ _ _ _ => CreateTenantRequest.set_field hc)
      hreq
  | upstream =>
    obtain ⟨req, hreq⟩ := hdecodes
    simp only [provided, providedBy_of_ok hreq]
    exact decode_reflects (by cases c <;> rfl) (fun _ _ _ _ => CreateUpstreamRequest.set_field hc)
      hreq
  | route =>
    obtain ⟨req, hreq⟩ := hdecodes
    simp only [provided, providedBy_of_ok hreq]
    exact decode_reflects (by cases c <;> rfl) (fun _ _ _ _ => UpdateRouteRequest.set_field hc) hreq
  | rateLimitPolicy =>
    obtain ⟨req, hreq⟩ := hdecodes
    simp only [provided, providedBy_of_ok hreq]
    exact decode_reflects (by cases c <;> rfl) (fun _ _ _ _ => RateLimitPolicyRequest.set_field hc)
      hreq
  | aiProvider | aiModelPolicy => exact absurd hres (by decide)

end Resource

section Runs

variable {server : Postgres.Server} {t : Table} {ext : Ext} {s s' : Postgres}
  {response : Response}

/-- An update that is answered has built its patch. -/
private theorem updateInTenant_patched {invalid notFound conflict tenantParam idParam : String}
    {patch : UUID → t.Row → Program Query Response (Time → t.Row → t.Row)}
    (h : (updateInTenant t invalid notFound conflict ext tenantParam idParam patch).run
      (Postgres.exec server) s = (.ok response, s')) :
    ∃ tenantId existing s₁ set s₂,
      (patch tenantId existing).run (Postgres.exec server) s₁ = (.ok set, s₂) := by
  obtain ⟨tenantId, _, -, h⟩ := (run_bind_eq_ok _).mp h
  obtain ⟨id, _, -, h⟩ := (run_bind_eq_ok _).mp h
  obtain ⟨existing, s₁, -, h⟩ := (run_bind_eq_ok _).mp h
  obtain ⟨set, s₂, hset, -⟩ := (run_bind_eq_ok _).mp h
  exact ⟨tenantId, existing, s₁, set, s₂, hset⟩

/-- A patch that is answered has patched a row. -/
private theorem updateById_patched {invalid notFound conflict idParam : String}
    {patch : t.Row → Except Response (Time → t.Row → t.Row)}
    (h : (updateById t invalid notFound conflict ext idParam patch).run
      (Postgres.exec server) s = (.ok response, s')) :
    ∃ existing set, patch existing = .ok set := by
  obtain ⟨id, _, -, h⟩ := (run_bind_eq_ok _).mp h
  obtain ⟨existing, _, -, h⟩ := (run_bind_eq_ok _).mp h
  obtain ⟨set, _, hset, -⟩ := (run_bind_eq_ok _).mp h
  exact ⟨existing, set, (Prod.mk.inj hset).1⟩

/-- A body that does not decode is not answered with 200. -/
theorem Resource.handle_decodes {res : Resource} {mode : OidcMode} {call : PatchCall}
    (hres : res ∈ plain)
    (h : (handle ext mode (res.endpoint call) call.request).run (Postgres.exec server) s =
      (.ok response, s')) : res.Decodes ext call.request := by
  -- the middlewares let the request in
  obtain ⟨_, _, -, h⟩ := (run_bind_eq_ok _).mp h
  -- an answer with a row comes from a decoded body
  cases res with
  | tenant =>
    obtain ⟨existing, set, hset⟩ := updateById_patched h
    obtain ⟨req, hreq, -⟩ := Except.bind_eq_ok_iff.mp hset
    exact ⟨req, hreq⟩
  | upstream =>
    obtain ⟨_, _, _, _, _, hset⟩ := updateInTenant_patched h
    obtain ⟨req, hreq, -⟩ := Except.bind_eq_ok_iff.mp (Prod.mk.inj hset).1
    exact ⟨req, hreq⟩
  | route =>
    obtain ⟨_, _, _, _, _, hset⟩ := updateInTenant_patched h
    obtain ⟨req, _, hreq, -⟩ := (run_bind_eq_ok _).mp hset
    exact ⟨req, (Prod.mk.inj hreq).1⟩
  | rateLimitPolicy =>
    obtain ⟨_, _, _, _, _, hset⟩ := updateInTenant_patched h
    obtain ⟨req, hreq, -⟩ := Except.bind_eq_ok_iff.mp (Prod.mk.inj hset).1
    exact ⟨req, hreq⟩
  | aiProvider | aiModelPolicy => exact absurd hres (by decide)

variable {p : t.Row → Bool} {provided : Column → Option Value} {existing : t.Row} {x : Handler}

/-- A handler that has read the row fails, or replaces the row that is there now. -/
theorem Merges.run_cases (h : Merges t p provided existing x) (server : Postgres.Server)
    (s : Postgres) :
    (∃ response s', x.run (Postgres.exec server) s = (.error response, s') ∧ response.Failed) ∨
    ∃ set now old row s', SetsPatch t provided existing set ∧ (s.db.rows t).find? p = some old ∧
      t.coerce server.types (set now old) = .ok row ∧
      s'.db = s.db.setRows t ((s.db.rows t).map fun x => if p x then row else x) ∧
      x.run (Postgres.exec server) s = (.ok ⟨200, .row t row⟩, s') := by
  induction h generalizing s with
  | failed response hfailed => exact .inl ⟨response, s, rfl, hfailed⟩
  | check u p' k hu hk ih =>
    -- the lookup leaves the database as it was
    have hdb := Postgres.exec_selectOne_db server s p'
    have hk := ih (Postgres.exec server (.selectOne u p') s).1
      (Postgres.exec server (.selectOne u p') s).2
    rw [hdb] at hk
    exact hk
  | write set k hset hok herror =>
    rcases Postgres.exec_updateOne_cases server s p set with
      ⟨err, herr, -⟩ | ⟨old, row, hrow, -, hold, hstored, hdb⟩
    · obtain ⟨response, hfailed, hk⟩ := herror err
      refine .inl ⟨response, (Postgres.exec server (.updateOne t p set) s).2, ?_, hfailed⟩
      show (k (Postgres.exec server (.updateOne t p set) s).1).run _ _ = _
      rw [herr, hk]
      rfl
    · refine .inr ⟨set, _, old, row, _, hset, hold, (Db.stored_eq_ok.mp hstored).2.1, hdb, ?_⟩
      show (k (Postgres.exec server (.updateOne t p set) s).1).run _ _ = _
      rw [hrow, hok]
      rfl

/-- A PATCH handler that runs alone fails, or replaces the row by the patched one. -/
theorem Patches.run_cases (h : Patches t p provided x) (server : Postgres.Server) (s : Postgres) :
    (∃ response s', x.run (Postgres.exec server) s = (.error response, s') ∧ response.Failed) ∨
    ∃ set now old row s', SetsPatch t provided old set ∧ (s.db.rows t).find? p = some old ∧
      t.coerce server.types (set now old) = .ok row ∧
      s'.db = s.db.setRows t ((s.db.rows t).map fun x => if p x then row else x) ∧
      x.run (Postgres.exec server) s = (.ok ⟨200, .row t row⟩, s') := by
  -- refused before the read, or a read and then the write
  cases h with
  | failed response hfailed => exact .inl ⟨response, s, rfl, hfailed⟩
  | read k hok herror =>
    obtain ⟨hdb, ⟨err, herr⟩ | ⟨existing, hexisting, hfind⟩⟩ :=
      Postgres.exec_selectOne_cases server s p
    · obtain ⟨response, hfailed, hk⟩ := herror err
      refine .inl ⟨response, (Postgres.exec server (.selectOne t p) s).2, ?_, hfailed⟩
      show (k (Postgres.exec server (.selectOne t p) s).1).run _ _ = _
      rw [herr, hk]
      rfl
    · have hk := (hok existing).run_cases server
        (Postgres.exec server (.selectOne t p) s).2
      rw [hdb, ← hexisting] at hk
      rcases hk with hfailed | ⟨set, now, old, row, s', hset, hold, hcoerce, hdb', hrun⟩
      · exact .inl hfailed
      · -- nothing was written between the two statements
        obtain rfl : existing = old := Option.some.inj (hfind.symm.trans hold)
        exact .inr ⟨set, now, existing, row, s', hset, hfind, hcoerce, hdb', hrun⟩

end Runs

/-! ## Rows -/

namespace Resource

variable {ext : Ext} {r : Request} {res : Resource} {c : Column}

/-- The columns of these tables store values as they are. -/
private theorem coerce_plain {types : ColumnTypes} {row stored : res.table.Row} (hres : res ∈ plain)
    (h : res.table.coerce types row = .ok stored) : stored = row := by
  cases res with
  | tenant | upstream | route =>
    cases h
    rfl
  | rateLimitPolicy =>
    -- the columns with a check constraint
    simp only [table, Table.coerce] at h
    split at h
    · cases h
    · split at h
      · cases h
      · cases h
        rfl
  | aiProvider | aiModelPolicy => exact absurd hres (by decide)

/-- A column that is not nullable has a value in every row. -/
private theorem value_ne_none (hres : res ∈ plain) (hc : c ∈ res.columns)
    (hnullable : c.nullable = false) (row : res.table.Row) : res.table.value row c ≠ none := by
  cases res with
  | aiProvider | aiModelPolicy => exact absurd hres (by decide)
  | _ =>
    cases c <;>
      first
      | exact Option.some_ne_none _
      | exact absurd hnullable (by decide)
      | exact absurd hc (by decide)

/-- A provided field is the new value, and anything else leaves the old one. -/
theorem or_eq_denote_iff {v : Json} {provided old : Option Value}
    (h : Reflects ext c (some v) provided) (hold : c.nullable = false → old ≠ none) :
    provided.or old = c.denote ext v ↔ c.Effective v ∨ old = c.denote ext v := by
  rcases reflects_some.mp h with ⟨heffective, hdenote, hsome⟩ | ⟨hnot, rfl⟩ |
    ⟨hnot, hdenote, hnullable⟩
  · rw [Option.or_of_isSome (Option.isSome_iff_ne_none.mpr hsome)]
    simp only [hdenote, heffective, true_or]
  · simp only [Option.none_or, hnot, false_or]
  · -- a null in a column that has a value, before and after
    obtain ⟨x, rfl⟩ := Option.ne_none_iff_exists'.mp (hold hnullable)
    have hor : provided.or (some x) ≠ none := by simp
    simp only [hdenote, hnot, hor, reduceCtorEq, or_self]

/-- A patch overrides the row exactly if each of its members takes effect. -/
theorem overrides_iff (hres : res ∈ plain) (hdecodes : res.Decodes ext r)
    {old new : res.table.Row}
    (hnew : ∀ c, res.table.value new c = (res.provided ext r c).or (res.table.value old c)) :
    res.Overrides ext r old new ↔ res.TakesEffect ext r old := by
  constructor
  · -- a column whose member is there is set to it
    intro h c hc v hv
    have hreflects := provided_reflects hres hc hdecodes
    have hc' := h c hc
    rw [hv] at hreflects hc'
    refine (or_eq_denote_iff hreflects fun hnullable => value_ne_none hres hc hnullable old).mp ?_
    rw [← hnew]
    exact hc'
  · intro h c hc
    have hreflects := provided_reflects hres hc hdecodes
    -- a column without a member keeps its value
    cases hv : r.field c.key with
    | none =>
      rw [hv] at hreflects
      have hnone : res.provided ext r c = none := hreflects
      show res.table.value new c = res.table.value old c
      rw [hnew, hnone, Option.none_or]
    | some v =>
      rw [hv] at hreflects
      show res.table.value new c = c.denote ext v
      rw [hnew]
      exact (or_eq_denote_iff hreflects fun hnullable =>
        value_ne_none hres hc hnullable old).mpr (h c hc v hv)

end Resource

/-! ## The patched row -/

namespace Deployment

/-- The row after a PATCH answered with 200: every field that the body has overrides its
    column, and the other columns keep their values, exactly when each of these fields is
    effective or states the value that the row has. -/
theorem patch_overrides_iff (api : Deployment) (res : Resource) (hres : res ∈ Resource.plain)
    (id tenantId : UUID) (call : PatchCall) (s : Postgres) (old : res.table.Row)
    (htargets : res.Targets api.ext id tenantId call)
    (hold : (s.db.rows res.table).find? (res.target id tenantId) = some old)
    (hok : (api.serve s (res.endpoint call, call.request)).1.status = 200) :
    (∃ new, ((api.serve s (res.endpoint call, call.request)).2.db.rows res.table).find?
        (res.target id tenantId) = some new ∧
      res.Overrides api.ext call.request old new) ↔
    res.TakesEffect api.ext call.request old := by
  rcases (res.handle_patches api.oidcMode htargets).run_cases api.server s with
    ⟨response, s', hrun, hfailed⟩ | ⟨set, now, old', row, s', hset, hold', hcoerce, hdb, hrun⟩
  · have hserve : api.serve s (res.endpoint call, call.request) = (response, s') := by
      simp only [serve, hrun]
    rw [hserve] at hok
    exact absurd hok hfailed.status_ne
  · have hserve : api.serve s (res.endpoint call, call.request) =
        (⟨200, .row res.table row⟩, s') := by
      simp only [serve, hrun]
    obtain rfl : old = old' := Option.some.inj (hold.symm.trans hold')
    obtain rfl := Resource.coerce_plain hres hcoerce
    obtain ⟨hid, htenant, hvalue⟩ := hset now old
    -- the new row has the ids of the old one, and is found under them
    have hfound : (s'.db.rows res.table).find? (res.target id tenantId) = some (set now old) := by
      rw [hdb, Db.setRows_rows_self]
      refine find?_map_replace ?_ hold
      rw [target_congr res id tenantId _ old hid htenant]
      exact List.find?_some hold
    have hiff := Resource.overrides_iff hres (Resource.handle_decodes hres hrun) hvalue
    rw [hserve, ← hiff]
    constructor
    · rintro ⟨new, hnew, hoverrides⟩
      cases hfound.symm.trans hnew
      exact hoverrides
    · exact fun hoverrides => ⟨set now old, hfound, hoverrides⟩

theorem host_patched :
    ∃ new : Route, ((counting.serve oneRoute (.inTenant "1" (.updateRoute "3"),
        jsonRequest [("host", .str "b.example")])).2.db.rows .routes).find? (rowIn .routes 3 1) =
        some new ∧
      Resource.route.Overrides counting.ext (jsonRequest [("host", .str "b.example")])
        (⟨3, 1, "GET", "/", "a.example", 2, true, 0, 0⟩ : Route) new := by
  refine (patch_overrides_iff counting .route (by decide) 3 1 (hostAndPath false) oneRoute _
    (hostAndPath_targets false) oneRoute_row (by decide)).mpr fun c hc v hv => .inl ?_
  cases c with
  -- the host is the only member of the body
  | host =>
    obtain rfl : Json.str "b.example" = v := Option.some.inj hv
    exact ⟨"b.example", rfl, by decide⟩
  | method | pathPrefix | upstreamId | enabled =>
    have hnone : (none : Option Json) = some v := hv
    cases hnone
  | _ => exact absurd hc (by decide)

/-- A route for any host is created with an empty text, but no PATCH makes it one. -/
theorem empty_host_kept :
    ¬ ∀ (api : Deployment) (res : Resource) (_ : res ∈ Resource.plain) (id tenantId : UUID)
        (call : PatchCall) (s : Postgres) (old : res.table.Row),
      res.Targets api.ext id tenantId call →
      (s.db.rows res.table).find? (res.target id tenantId) = some old →
      (api.serve s (res.endpoint call, call.request)).1.status = 200 →
      ∃ new, ((api.serve s (res.endpoint call, call.request)).2.db.rows res.table).find?
          (res.target id tenantId) = some new ∧
        res.Overrides api.ext call.request old new := by
  intro h
  obtain ⟨new, hnew, hoverrides⟩ := h counting .route (by decide) 3 1
    ⟨"1", "", "3", jsonRequest [("host", .str "")]⟩ oneRoute
    ⟨3, 1, "GET", "/", "a.example", 2, true, 0, 0⟩ ⟨by decide, fun _ => by decide⟩ oneRoute_row
    (by decide)
  -- the host given as empty is not stored
  have hfound : ((counting.serve oneRoute (.inTenant "1" (.updateRoute "3"),
      jsonRequest [("host", .str "")])).2.db.rows .routes).find? (rowIn .routes 3 1) =
      some ⟨3, 1, "GET", "/", "a.example", 2, true, 0, 1⟩ := by
    decide
  cases hfound.symm.trans hnew
  have hhost : Route.value ⟨3, 1, "GET", "/", "a.example", 2, true, 0, 1⟩ .host =
      some (.text "") := hoverrides .host (by decide)
  revert hhost
  decide

end Deployment

end Barqium.Native.ControlApi
