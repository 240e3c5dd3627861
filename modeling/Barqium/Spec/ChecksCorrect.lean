import Barqium.Spec.AdminClientCorrect
import Barqium.Spec.ConcurrentCorrect

/-!
# Checks of the handlers and checks of the schema

The validity of a rate limit policy and of a WASM plugin is described twice: by the
handlers, field by field, and by the `CHECK` constraints of migrations 006 and 007, two of
which relate two columns. A row that passes the first description may fail the second one.

## Key results

- `sentRows_createInTenant`, `sentRows_updateInTenant`: the row that a request sends.
- `CheckedChange.sendsValid_iff`: when the row passes the checks of its table.
-/

namespace Barqium.Native.ControlApi

open Program (attempt)

/-! ## The rows that a request sends -/

/-- A row with its table. -/
abbrev SentRow := (t : Table) × t.Row

/-- The row that a statement sends, for the choices of the server. -/
def Query.sent (server : Postgres.Server) : {β : Type} → Query β → Postgres → List SentRow
  | _, .insertOne t row, s =>
    [⟨t, row (server.env s.executed).newId (server.env s.executed).now⟩]
  | _, .updateOne t p set, s =>
    ((s.db.rows t).find? p).toList.map fun old => ⟨t, set (server.env s.executed).now old⟩
  | _, _, _ => []

/-- The rows that a handler sends to the database, whether they are stored or not. -/
def sentRows (server : Postgres.Server) (x : Handler) (s : Postgres) : List SentRow :=
  x.trace (Postgres.exec server) (Query.sent server) s

section Sent

variable {server : Postgres.Server} {s : Postgres}

/-- A computation without statements sends nothing. -/
private theorem sentRows_bind_attempt {α : Type} (e : Except Response α) (f : α → Handler) :
    sentRows server (attempt e >>= f) s =
      match e with
      | .ok a => sentRows server (f a) s
      | .error _ => [] := by
  unfold sentRows
  rw [Program.trace_bind, Program.run_attempt]
  cases e <;> rfl

/-- The rows that one statement sends, and then those of what follows its result. -/
private theorem sentRows_bind_orFail {β : Type} (q : Query (Except DbError β))
    (onError : DbError → Response) (f : β → Handler) :
    sentRows server (orFail q onError >>= f) s = q.sent server s ++
      match (Postgres.exec server q s).1 with
      | .ok b => sentRows server (f b) (Postgres.exec server q s).2
      | .error _ => [] := by
  have hcall : orFail q onError >>= f = .call q fun result =>
      (match result with
        | .ok b => pure b
        | .error err => throw (onError err)) >>= f := rfl
  rw [hcall]
  -- an error ends the handler, so nothing more is sent
  cases hresult : (Postgres.exec server q s).1 with
  | ok b =>
    simp only [sentRows, Program.trace, hresult]
    rfl
  | error err =>
    simp only [sentRows, Program.trace, hresult]
    rfl

/-- Once the row was built, it is sent. -/
theorem sentRows_createInTenant {t : Table} {conflict : String} {ext : Ext} {tenantParam : String}
    {row : UUID → Except Response (UUID → Time → t.Row)} {tenantId : UUID}
    (htenant : ext.uuidParse tenantParam = some tenantId) :
    sentRows server (createInTenant t conflict ext tenantParam fun id => attempt (row id)) s =
      match row tenantId with
      | .ok row => [⟨t, row (server.env s.executed).newId (server.env s.executed).now⟩]
      | .error _ => [] := by
  have htenant : parseTenantID ext tenantParam = .ok tenantId := parseID_eq_ok.mpr htenant
  unfold createInTenant
  rw [htenant, Program.attempt_ok_bind, sentRows_bind_attempt]
  cases row tenantId with
  | error response => rfl
  | ok row =>
    -- nothing is sent after the insertion
    dsimp only
    rw [sentRows_bind_orFail]
    cases (Postgres.exec server (.insertOne t row) s).1 <;> rfl

/-- The row that an update sends is built from the row that was read. -/
theorem sentRows_updateInTenant {t : Table} {invalid notFound conflict : String} {ext : Ext}
    {tenantParam idParam : String} {patch : UUID → t.Row → Except Response (Time → t.Row → t.Row)}
    {id tenantId : UUID} {existing : t.Row}
    (htenant : ext.uuidParse tenantParam = some tenantId) (hid : ext.uuidParse idParam = some id)
    (hfound : (s.db.rows t).find? (rowIn t id tenantId) = some existing) :
    sentRows server (updateInTenant t invalid notFound conflict ext tenantParam idParam
        fun tenantId existing => attempt (patch tenantId existing)) s =
      match (server.env s.executed).fault, patch tenantId existing with
      | none, .ok set => [⟨t, set (server.env (s.executed + 1)).now existing⟩]
      | _, _ => [] := by
  have htenant : parseTenantID ext tenantParam = .ok tenantId := parseID_eq_ok.mpr htenant
  have hid : parseID ext invalid idParam = .ok id := parseID_eq_ok.mpr hid
  unfold updateInTenant
  rw [htenant, hid, Program.attempt_ok_bind, Program.attempt_ok_bind, sentRows_bind_orFail]
  cases hfault : (server.env s.executed).fault with
  | some text => simp only [Query.sent, Postgres.exec, Postgres.statement, hfault, List.nil_append]
  | none =>
    rw [Postgres.exec_selectOne_ok hfault hfound]
    show sentRows server (attempt (patch tenantId existing) >>= _) _ = _
    rw [sentRows_bind_attempt]
    cases patch tenantId existing with
    | error response => rfl
    | ok set =>
      -- the database is the one that was read from
      dsimp only
      rw [sentRows_bind_orFail]
      simp only [Query.sent, hfound, Option.toList_some, List.map_singleton]
      cases (Postgres.exec server (.updateOne t (rowIn t id tenantId) set) _).1 <;> rfl

end Sent

/-! ## Sending valid rows -/

/-- Every row that the handler sends passes the checks of its table, in each of the states
    and whatever the server decides. -/
def SendsValid (states : Postgres → Prop) (x : Handler) : Prop :=
  ∀ server s, states s → ∀ sent ∈ sentRows server x s, sent.1.failedCheck sent.2 = none

section SendsValid

variable {t : Table} {ext : Ext} {tenantParam idParam : String} {tenantId : UUID}

/-- A creation sends valid rows exactly if the handler makes valid ones. -/
private theorem sendsValid_createInTenant {conflict : String}
    {row : UUID → Except Response (UUID → Time → t.Row)}
    (htenant : ext.uuidParse tenantParam = some tenantId) :
    SendsValid (fun _ => True)
        (createInTenant t conflict ext tenantParam fun id => attempt (row id)) ↔
      ∀ new, row tenantId = .ok new → ∀ id now, t.failedCheck (new id now) = none := by
  constructor
  · intro h new hnew id now
    -- a server that chooses this id and this time
    let server : Postgres.Server := ⟨⟨.ok, .ok⟩, fun _ => ⟨id, now, none⟩⟩
    have hsent := h server ⟨0, Db.empty⟩ trivial
    rw [sentRows_createInTenant htenant, hnew] at hsent
    exact hsent _ (List.mem_singleton.mpr rfl)
  · intro h server s _ sent hsent
    rw [sentRows_createInTenant htenant] at hsent
    cases hnew : row tenantId with
    | error response =>
      rw [hnew] at hsent
      exact absurd hsent List.not_mem_nil
    | ok new =>
      rw [hnew] at hsent
      rw [List.mem_singleton.mp hsent]
      exact h new hnew _ _

/-- A patch of a stored row sends valid rows exactly if the handler makes one of that row. -/
private theorem sendsValid_updateInTenant {invalid notFound conflict : String}
    {patch : UUID → t.Row → Except Response (Time → t.Row → t.Row)} {existing : t.Row}
    (htenant : ext.uuidParse tenantParam = some tenantId)
    (hid : ext.uuidParse idParam = some (t.id existing))
    (hexisting : t.tenant existing = some tenantId) :
    SendsValid (fun s => (s.db.rows t).find? (rowIn t (t.id existing) tenantId) = some existing)
        (updateInTenant t invalid notFound conflict ext tenantParam idParam
          fun tenantId existing => attempt (patch tenantId existing)) ↔
      ∀ set, patch tenantId existing = .ok set →
        ∀ now, t.failedCheck (set now existing) = none := by
  constructor
  · intro h set hset now
    -- a server without faults and a database with this one row send the patched row
    let server : Postgres.Server := ⟨⟨.ok, .ok⟩, fun _ => ⟨0, now, none⟩⟩
    have hfound : ((Db.empty.setRows t [existing]).rows t).find?
        (rowIn t (t.id existing) tenantId) = some existing := by
      rw [Db.setRows_rows_self, List.find?_cons_of_pos (rowIn_eq_true.mpr ⟨rfl, hexisting⟩)]
    have hsent := h server ⟨0, Db.empty.setRows t [existing]⟩ hfound
    rw [sentRows_updateInTenant htenant hid hfound, hset] at hsent
    exact hsent _ (List.mem_singleton.mpr rfl)
  · intro h server s hfound sent hsent
    rw [sentRows_updateInTenant htenant hid hfound] at hsent
    -- a read that fails sends nothing
    cases hfault : (server.env s.executed).fault with
    | some text =>
      rw [hfault] at hsent
      exact absurd hsent List.not_mem_nil
    | none =>
      -- nor does a refused body
      cases hset : patch tenantId existing with
      | error response =>
        rw [hfault, hset] at hsent
        exact absurd hsent List.not_mem_nil
      | ok set =>
        rw [hfault, hset] at hsent
        rw [List.mem_singleton.mp hsent]
        exact h set hset _

end SendsValid

/-! ## Rate limit policies and plugins -/

/-- A request that writes a row of a table with a check over two columns; a PATCH comes with
    the row that it is about. -/
inductive CheckedChange where
  | createRateLimitPolicy
  | updateRateLimitPolicy (existing : RateLimitPolicy)
  | createWasmPlugin
  | updateWasmPlugin (existing : WasmPlugin)

namespace CheckedChange

def handler (ext : Ext) (r : Request) (tenantParam idParam : String) : CheckedChange → Handler
  | createRateLimitPolicy => ControlApi.createRateLimitPolicy ext r tenantParam
  | updateRateLimitPolicy _ => ControlApi.updateRateLimitPolicy ext r tenantParam idParam
  | createWasmPlugin => ControlApi.createWasmPlugin ext r tenantParam
  | updateWasmPlugin _ => ControlApi.updateWasmPlugin ext r tenantParam idParam

/-- The ids in the URL are those of the row that a PATCH is about, which the schema let in. -/
def Addressed (ext : Ext) (tenantParam idParam : String) : CheckedChange → Prop
  | updateRateLimitPolicy existing =>
    ext.uuidParse tenantParam = some existing.tenantId ∧ ext.uuidParse idParam = some existing.id ∧
      Table.failedCheck .rateLimitPolicies existing = none
  | updateWasmPlugin existing =>
    ext.uuidParse tenantParam = some existing.tenantId ∧ ext.uuidParse idParam = some existing.id ∧
      Table.failedCheck .wasmPlugins existing = none
  | _ => ∃ tenantId, ext.uuidParse tenantParam = some tenantId

/-- The row that a PATCH is about is stored. -/
def StoredIn (s : Postgres) : CheckedChange → Prop
  | updateRateLimitPolicy existing =>
    (s.db.rows .rateLimitPolicies).find?
      (rowIn .rateLimitPolicies existing.id existing.tenantId) = some existing
  | updateWasmPlugin existing =>
    (s.db.rows .wasmPlugins).find?
      (rowIn .wasmPlugins existing.id existing.tenantId) = some existing
  | _ => True

/-- A request that the handler accepts keeps the burst limit at or above the rate limit, by
    itself or with the row it patches, and does not place a stored binary elsewhere. -/
def Consistent (r : Request) : CheckedChange → Prop
  | createRateLimitPolicy => ∀ req, decodeBody RateLimitPolicyRequest.set {} r = .ok req →
      validateRateLimitRequest req = .ok () →
      ∀ burst, req.burstLimit = some burst → req.rateLimit ≤ burst
  | updateRateLimitPolicy existing => ∀ req, decodeBody RateLimitPolicyRequest.set {} r = .ok req →
      (req.scope = "" || validScopes.contains req.scope) = true →
      (req.algorithm = "" || validAlgorithms.contains req.algorithm) = true →
      ∀ burst, req.burstLimit.or existing.burstLimit = some burst →
        positiveOr existing.rateLimit (some req.rateLimit) ≤ burst
  | createWasmPlugin => True
  | updateWasmPlugin existing => ∀ req, decodeBody CreateWasmPluginRequest.set {} r = .ok req →
      (req.trigger = "" || validTriggers.contains req.trigger) = true →
      req.storageUrl.isSome → existing.storageUrl.isSome

end CheckedChange

/-! ## The constraints -/

/-- No alternative is taken. -/
private theorem ite_some_eq_none {α : Type} {c : Prop} [Decidable c] {a : α} {x : Option α} :
    (if c then some a else x) = none ↔ ¬ c ∧ x = none := by
  split
  · simp [*]
  · simp [*]

/-- The checks of a rate limit: the burst is no smaller than the rate, and rate and window are
    positive. -/
private theorem rateLimit_failedCheck_eq_none {row : RateLimitPolicy} :
    Table.failedCheck .rateLimitPolicies row = none ↔
      (∀ burst, row.burstLimit = some burst → row.rateLimit ≤ burst) ∧
        0 < row.rateLimit ∧ 0 < row.windowSecs := by
  have hburst : ¬ (row.burstLimit.any (· < row.rateLimit) = true) ↔
      ∀ burst, row.burstLimit = some burst → row.rateLimit ≤ burst := by
    cases row.burstLimit with
    | none => simp
    | some burst => simp
  unfold Table.failedCheck
  rw [ite_some_eq_none, ite_some_eq_none, ite_some_eq_none, hburst, Int32.not_le, Int32.not_le,
    and_iff_left rfl]

/-- The check of a plugin: exactly one of the two sources is set. -/
private theorem wasm_failedCheck_eq_none {row : WasmPlugin} :
    Table.failedCheck .wasmPlugins row = none ↔
      row.storageUrl.isSome ≠ row.wasmBinary.isSome := by
  unfold Table.failedCheck
  rw [ite_some_eq_none, and_iff_left rfl]

/-! ## The requests -/

section Requests

variable {ext : Ext} {r : Request} {tenantParam idParam : String}

/-- The creation of a rate limit. -/
theorem createRateLimitPolicy_sendsValid_iff {tenantId : UUID}
    (htenant : ext.uuidParse tenantParam = some tenantId) :
    SendsValid (fun _ => True) (createRateLimitPolicy ext r tenantParam) ↔
      CheckedChange.createRateLimitPolicy.Consistent r := by
  refine (sendsValid_createInTenant htenant).trans ?_
  constructor
  · intro h req hdecode hvalid
    exact (rateLimit_failedCheck_eq_none.mp (h _ (Except.bind_eq_ok_iff.mpr
      ⟨req, hdecode, Except.bind_eq_ok_iff.mpr ⟨(), hvalid, rfl⟩⟩) 0 0)).1
  · intro h new hnew id now
    obtain ⟨req, hdecode, hnew⟩ := Except.bind_eq_ok_iff.mp hnew
    obtain ⟨_, hvalid, hnew⟩ := Except.bind_eq_ok_iff.mp hnew
    cases hnew
    refine rateLimit_failedCheck_eq_none.mpr ⟨h req hdecode hvalid, ?_⟩
    -- the two numbers are checked by the handler as well
    unfold validateRateLimitRequest at hvalid
    obtain ⟨_, -, hvalid⟩ := Except.bind_eq_ok_iff.mp hvalid
    obtain ⟨_, -, hvalid⟩ := Except.bind_eq_ok_iff.mp hvalid
    obtain ⟨_, -, hvalid⟩ := Except.bind_eq_ok_iff.mp hvalid
    obtain ⟨_, hrate, hwindow⟩ := Except.bind_eq_ok_iff.mp hvalid
    exact ⟨of_decide_eq_true (require_eq_ok.mp hrate), of_decide_eq_true (require_eq_ok.mp hwindow)⟩

/-- The patch of a rate limit. -/
theorem updateRateLimitPolicy_sendsValid_iff {existing : RateLimitPolicy}
    (h : (CheckedChange.updateRateLimitPolicy existing).Addressed ext tenantParam idParam) :
    SendsValid (fun s => (CheckedChange.updateRateLimitPolicy existing).StoredIn s)
        (updateRateLimitPolicy ext r tenantParam idParam) ↔
      (CheckedChange.updateRateLimitPolicy existing).Consistent r := by
  obtain ⟨htenant, hid, hexisting⟩ := h
  refine (sendsValid_updateInTenant htenant hid rfl).trans ?_
  constructor
  · intro h req hdecode hscope halgorithm
    exact (rateLimit_failedCheck_eq_none.mp (h _ (Except.bind_eq_ok_iff.mpr ⟨req, hdecode,
      Except.bind_eq_ok_iff.mpr ⟨(), require_eq_ok.mpr hscope,
        Except.bind_eq_ok_iff.mpr ⟨(), require_eq_ok.mpr halgorithm, rfl⟩⟩⟩) 0)).1
  · intro h set hset now
    obtain ⟨req, hdecode, hset⟩ := Except.bind_eq_ok_iff.mp hset
    obtain ⟨_, hscope, hset⟩ := Except.bind_eq_ok_iff.mp hset
    obtain ⟨_, halgorithm, hset⟩ := Except.bind_eq_ok_iff.mp hset
    cases hset
    obtain ⟨-, hrate, hwindow⟩ := rateLimit_failedCheck_eq_none.mp hexisting
    -- a number that is not positive leaves the stored one
    exact rateLimit_failedCheck_eq_none.mpr
      ⟨h req hdecode (require_eq_ok.mp hscope) (require_eq_ok.mp halgorithm),
        positiveOr_pos hrate _, positiveOr_pos hwindow _⟩

/-- The creation of a plugin. -/
private theorem createWasmPlugin_sendsValid {tenantId : UUID}
    (htenant : ext.uuidParse tenantParam = some tenantId) :
    SendsValid (fun _ => True) (createWasmPlugin ext r tenantParam) := by
  refine (sendsValid_createInTenant htenant).mpr fun new hnew id now => ?_
  obtain ⟨source, hsource, hnew⟩ := Except.bind_eq_ok_iff.mp hnew
  obtain ⟨_, -, hnew⟩ := Except.bind_eq_ok_iff.mp hnew
  obtain ⟨_, -, hnew⟩ := Except.bind_eq_ok_iff.mp hnew
  cases hnew
  -- the one check is that a row has either a URL or the bytes
  rw [wasm_failedCheck_eq_none]
  show source.storageUrl.isSome ≠ source.wasmBytes.isSome
  rcases wasmSource_cases hsource with ⟨-, hurl, form, bytes, -, -, hbytes⟩ | ⟨⟨url, hurl⟩, hbytes⟩
  · simp [hurl, hbytes]
  · simp [hurl, hbytes]

/-- The patch of a plugin. -/
theorem updateWasmPlugin_sendsValid_iff {existing : WasmPlugin}
    (h : (CheckedChange.updateWasmPlugin existing).Addressed ext tenantParam idParam) :
    SendsValid (fun s => (CheckedChange.updateWasmPlugin existing).StoredIn s)
        (updateWasmPlugin ext r tenantParam idParam) ↔
      (CheckedChange.updateWasmPlugin existing).Consistent r := by
  obtain ⟨htenant, hid, hexisting⟩ := h
  have hexisting := wasm_failedCheck_eq_none.mp hexisting
  refine (sendsValid_updateInTenant htenant hid rfl).trans ?_
  -- the binary stays, so the place of storage has to stay set or unset as well
  have hkeeps : ∀ req : CreateWasmPluginRequest,
      (req.storageUrl.or existing.storageUrl).isSome ≠ existing.wasmBinary.isSome ↔
        (req.storageUrl.isSome → existing.storageUrl.isSome) := by
    intro req
    revert hexisting
    cases req.storageUrl <;> cases existing.storageUrl <;> cases existing.wasmBinary <;> simp
  constructor
  · intro h req hdecode htrigger
    exact (hkeeps req).mp (wasm_failedCheck_eq_none.mp (h _ (Except.bind_eq_ok_iff.mpr
      ⟨req, hdecode, Except.bind_eq_ok_iff.mpr ⟨(), require_eq_ok.mpr htrigger, rfl⟩⟩) 0))
  · intro h set hset now
    obtain ⟨req, hdecode, hset⟩ := Except.bind_eq_ok_iff.mp hset
    obtain ⟨_, htrigger, hset⟩ := Except.bind_eq_ok_iff.mp hset
    cases hset
    exact wasm_failedCheck_eq_none.mpr
      ((hkeeps req).mpr (h req hdecode (require_eq_ok.mp htrigger)))

end Requests

namespace CheckedChange

/-- A request sends only rows that pass the checks of their table, exactly when it is
    consistent, by itself and with the row that it patches. -/
theorem sendsValid_iff (ext : Ext) (r : Request) (tenantParam idParam : String)
    (change : CheckedChange) (h : change.Addressed ext tenantParam idParam) :
    SendsValid (fun s => change.StoredIn s) (change.handler ext r tenantParam idParam) ↔
      change.Consistent r := by
  cases change with
  | createRateLimitPolicy =>
    obtain ⟨tenantId, htenant⟩ := h
    exact createRateLimitPolicy_sendsValid_iff htenant
  | updateRateLimitPolicy existing => exact updateRateLimitPolicy_sendsValid_iff h
  | createWasmPlugin =>
    obtain ⟨tenantId, htenant⟩ := h
    exact iff_of_true (createWasmPlugin_sendsValid htenant) trivial
  | updateWasmPlugin existing => exact updateWasmPlugin_sendsValid_iff h

/-- A hundred requests a minute, and bursts of a hundred and fifty. -/
def burstPolicy : RateLimitPolicy :=
  ⟨2, 1, "api", "tenant", "token_bucket", 100, 60, some 150, true, 0, 0⟩

/-- A patch of the rate. -/
def patchRate (rate : Int) : Request :=
  Deployment.jsonRequest [("rate_limit", .num rate.repr)]

/-- A patch of the rate alone is decoded as it was sent. -/
private theorem decode_patchRate {rate : Int} (h : -2147483648 ≤ rate ∧ rate < 2147483648) :
    decodeBody RateLimitPolicyRequest.set {} (patchRate rate) =
      .ok { rateLimit := Int32.ofInt rate } := by
  have hset : RateLimitPolicyRequest.set {} (foldName "rate_limit") (.num rate.repr) =
      some { rateLimit := Int32.ofInt rate } := by
    show (goInt32 (.num rate.repr)).map _ = _
    rw [AdminClient.goInt32_integer, if_pos h]
    rfl
  simp only [decodeBody, patchRate, Deployment.jsonRequest, List.foldlM_cons, hset]
  rfl

/-- A higher rate that stays below the burst limit. -/
theorem sendsValid_below_burst :
    SendsValid (fun s => (updateRateLimitPolicy burstPolicy).StoredIn s)
      (ControlApi.updateRateLimitPolicy Deployment.counting.ext (patchRate 120) "1" "2") := by
  refine (sendsValid_iff Deployment.counting.ext (patchRate 120) "1" "2"
    (updateRateLimitPolicy burstPolicy) ⟨by decide, by decide, by decide⟩).mpr ?_
  intro req hdecode _ _ burst hburst
  cases (decode_patchRate (by decide)).symm.trans hdecode
  cases hburst
  decide

/-- A higher rate than the stored burst limit is sent as it is. -/
theorem rate_patched_over_burst :
    ¬ ∀ (ext : Ext) (r : Request) (tenantParam idParam : String) (change : CheckedChange),
      change.Addressed ext tenantParam idParam →
        SendsValid (fun s => change.StoredIn s) (change.handler ext r tenantParam idParam) := by
  intro h
  have haddressed : (updateRateLimitPolicy burstPolicy).Addressed Deployment.counting.ext "1" "2" :=
    ⟨by decide, by decide, by decide⟩
  have hconsistent := (updateRateLimitPolicy_sendsValid_iff haddressed).mp
    (h Deployment.counting.ext (patchRate 200) "1" "2" (updateRateLimitPolicy burstPolicy)
      haddressed)
  have hburst := hconsistent _ (decode_patchRate (by decide)) (by decide) (by decide) 150 rfl
  revert hburst
  decide

end CheckedChange

end Barqium.Native.ControlApi
