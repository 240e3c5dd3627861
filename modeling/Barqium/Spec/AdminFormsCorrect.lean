import Mathlib.Data.List.Chain
import Barqium.Native.AdminForms
import Barqium.Native.ControlApi.PolicyHandlers

/-!
# What the forms of the admin UI write

The forms check their fields themselves before they send them, and the control API checks them
again. A form and the handler behind it agree when what is written is what the form shows.

## Key results

- `slugify_ends`: a slug that is derived from a name has no hyphen at its ends.
- `slugMatches_iff`: what the pattern of the slug field leaves to the pattern of the API
- `submitted_tenant`: which tenants are written as the form shows them
- `submitted_route`, `submitted_plugin`, `submitted_region`: the same for the other forms
-/

namespace Barqium.Native.AdminUi

open ControlApi
open Program (attempt)

/-! ## Decoding and checking -/

private theorem ok_bind {ε α β : Type} (a : α) (f : α → Except ε β) :
    (Except.ok a >>= f) = f a := rfl

/-- A requirement that is met goes on. -/
private theorem require_bind {β : Type} {cond : Bool} (h : cond = true) (otherwise : Response)
    (f : Unit → Except Response β) : (require cond otherwise >>= f) = f () := by
  rw [require, if_pos h]
  rfl

/-- Go looks up the keys of the bodies as they are. -/
private theorem foldName_bodyKey {key : String} (h : key ∈ ["name", "slug", "enabled", "method",
    "path_prefix", "host", "upstream_id", "version", "trigger", "storage_url", "kafka_brokers",
    "is_primary"]) : foldName key = key := by
  have hall : ∀ key ∈ ["name", "slug", "enabled", "method", "path_prefix", "host", "upstream_id",
      "version", "trigger", "storage_url", "kafka_brokers", "is_primary"],
      foldName key = key := by decide
  exact hall key h

/-! ## Slugs -/

/-- No two hyphens in a row. -/
def SingleHyphens (s : List Char) : Prop := s.IsChain fun a b => a ≠ '-' ∨ b ≠ '-'

/-- A hyphen is no character of a slug. -/
private theorem isSlugChar_ne_hyphen {c : Char} (h : isSlugChar c = true) : c ≠ '-' := by
  rintro rfl
  cases h

/-- A run of other characters is one hyphen, and inside a run there is none at the start. -/
private theorem singleHyphens_hyphenate (inRun : Bool) (s : List Char) :
    SingleHyphens (hyphenate inRun s) ∧
      (inRun = true → (hyphenate inRun s).head? ≠ some '-') := by
  induction s generalizing inRun with
  | nil => exact ⟨.nil, fun _ => by simp [hyphenate]⟩
  | cons c s ih =>
    rw [hyphenate]
    split
    · next hc =>
      have hne := isSlugChar_ne_hyphen hc
      refine ⟨List.isChain_cons.mpr ⟨fun _ _ => .inl hne, (ih false).1⟩, fun _ => ?_⟩
      simpa using hne
    · cases inRun with
      | true => simpa using ih true
      | false =>
        -- the hyphen of a new run, and then the rest of the run
        obtain ⟨hrest, hhead⟩ := ih true
        refine ⟨List.isChain_cons.mpr ⟨fun b hb => .inr ?_, hrest⟩, by simp⟩
        rintro rfl
        exact hhead rfl hb

/-- Where no two hyphens follow each other, one at each end is all there is. -/
private theorem stripHyphens_ends {s : List Char} (h : SingleHyphens s) :
    (stripHyphens s).head? ≠ some '-' ∧ (stripHyphens s).getLast? ≠ some '-' := by
  -- once the first hyphen is gone, a hyphen at the end is dropped and none comes before it
  have hstart : ∀ t : List Char, SingleHyphens t → t.head? ≠ some '-' →
      (if t.getLast? = some '-' then t.dropLast else t).head? ≠ some '-' ∧
        (if t.getLast? = some '-' then t.dropLast else t).getLast? ≠ some '-' := by
    intro t ht hhead
    split
    · next hlast =>
      obtain ⟨t, rfl⟩ := List.getLast?_eq_some_iff.mp hlast
      rw [List.dropLast_concat]
      refine ⟨fun hc => hhead ?_, fun hc => ?_⟩
      · rw [List.head?_append, hc, Option.some_or]
      · have hpair := (List.isChain_append.mp ht).2.2 '-' hc '-' rfl
        simp at hpair
    · next hlast => exact ⟨hhead, hlast⟩
  rw [stripHyphens]
  split
  · next hhead =>
    obtain ⟨t, rfl⟩ := List.head?_eq_some_iff.mp hhead
    rw [List.tail_cons]
    -- no two hyphens in a row, so behind the dropped one there is none
    obtain ⟨hpair, ht⟩ := List.isChain_cons.mp h
    refine hstart t ht fun hc => ?_
    have hpair := hpair '-' hc
    simp at hpair
  · next hhead => exact hstart s h hhead

/-- A slug that is derived from a name has no hyphen at its ends. -/
theorem slugify_ends (text : JsText) (name : String) :
    (slugify text name).toList.head? ≠ some '-' ∧
      (slugify text name).toList.getLast? ≠ some '-' := by
  rw [slugify, String.toList_ofList]
  exact stripHyphens_ends (singleHyphens_hyphenate _ _).1

/-! ### The two patterns -/

/-- A text of the pattern has slug characters and hyphens only. -/
private theorem mem_of_slugPattern {slug : String} (h : TenantForm.slugPattern slug = true)
    {c : Char} (hc : c ∈ slug.toList) : isSlugChar c = true ∨ c = '-' := by
  unfold TenantForm.slugPattern at h
  split at h
  · cases h
  · next d cs hlist =>
    simp only [Bool.and_eq_true, List.all_eq_true, Bool.or_eq_true, decide_eq_true_eq] at h
    rw [hlist] at hc
    rcases List.mem_cons.mp hc with rfl | hc
    · exact .inl h.1
    · exact h.2 c hc

/-- A text of the pattern begins with a slug character. -/
private theorem slugPattern_head {slug : String} (h : TenantForm.slugPattern slug = true) :
    ∃ c cs, slug.toList = c :: cs ∧ isSlugChar c = true := by
  unfold TenantForm.slugPattern at h
  split at h
  · cases h
  · next c cs hlist => exact ⟨c, cs, hlist, (Bool.and_eq_true _ _ ▸ h).1⟩

/-- The pattern of the API asks for a short slug that does not end in a hyphen, too. -/
theorem slugMatches_iff {slug : String} (h : TenantForm.slugPattern slug = true) :
    slugMatches slug = true ↔ slug.length ≤ 63 ∧ slug.toList.getLast? ≠ some '-' := by
  obtain ⟨c, cs, hlist, hc⟩ := slugPattern_head h
  have hall : slug.toList.all (fun c => isSlugChar c || c = '-') = true := by
    simpa using fun c hc => mem_of_slugPattern h hc
  have hlength : slug.length = slug.toList.length := String.length_toList.symm
  -- the pattern of the form allows letters, digits and hyphens, so only a hyphen fails here
  have hlast : slug.toList.getLast?.all isSlugChar = true ↔ slug.toList.getLast? ≠ some '-' := by
    constructor
    · intro hslug heq
      rw [heq] at hslug
      cases hslug
    · intro hne
      rw [hlist, List.getLast?_cons] at hne ⊢
      have hmem := mem_of_slugPattern h (c := cs.getLast?.getD c)
        (by rw [hlist]; exact List.mem_of_getLast? List.getLast?_cons)
      rcases hmem with hmem | hmem
      · exact hmem
      · exact absurd (congrArg some hmem) hne
  -- the check of the API, clause by clause
  have hmatches : slugMatches slug = (1 ≤ slug.toList.length && slug.toList.length ≤ 63 &&
      slug.toList.all (fun c => isSlugChar c || c = '-') &&
      slug.toList.head?.all isSlugChar && slug.toList.getLast?.all isSlugChar) := rfl
  rw [hmatches, hall, hlength, ← hlast]
  simp [hlist, hc]

/-! ## Tenants -/

/-- The slug characters lie between `0` and `z`. -/
private theorem isSlugChar_toNat {c : Char} (h : isSlugChar c = true) :
    0x30 ≤ c.toNat ∧ c.toNat ≤ 0x7A := by
  have hslug : isSlugChar c = (decide (c.val ≥ 'a'.val) && decide (c.val ≤ 'z'.val) ||
      decide (c.val ≥ 48) && decide (c.val ≤ 57)) := rfl
  have hbounds : 97 ≤ c.toNat ∧ c.toNat ≤ 122 ∨ 48 ≤ c.toNat ∧ c.toNat ≤ 57 := by
    simpa [hslug, UInt32.le_iff_toNat_le] using h
  omega

/-- The characters of a slug are neither white space nor longer than a byte. -/
private theorem isJsSpace_of_mem {slug : String} (h : TenantForm.slugPattern slug = true) {c : Char}
    (hc : c ∈ slug.toList) : isJsSpace c = false ∧ c.utf8Size = 1 := by
  rcases mem_of_slugPattern h hc with hslug | rfl
  · obtain ⟨hlo, hhi⟩ := isSlugChar_toNat hslug
    refine ⟨?_, ?_⟩
    · simp [isJsSpace]
      omega
    · -- slug characters are ASCII
      rw [Char.utf8Size_eq_one_iff]
      rw [UInt32.le_iff_toNat_le]
      show c.toNat ≤ 127
      omega
  · exact ⟨rfl, rfl⟩

/-- A text without white space has nothing to trim. -/
private theorem trim_eq_self {s : String} (h : ∀ c ∈ s.toList, isJsSpace c = false) :
    trim s = s := by
  have hdrop : ∀ l : List Char, (∀ c ∈ l, isJsSpace c = false) → l.dropWhile isJsSpace = l := by
    intro l hl
    cases l with
    | nil => rfl
    | cons c l => rw [List.dropWhile_cons_of_neg (by simpa using hl c List.mem_cons_self)]
  rw [trim, hdrop _ h, hdrop _ (fun c hc => h c (List.mem_reverse.mp hc)), List.reverse_reverse,
    String.ofList_toList]

/-- A text of ASCII characters has as many bytes as characters. -/
private theorem utf8ByteSize_eq_length {s : String} (h : ∀ c ∈ s.toList, c.utf8Size = 1) :
    s.utf8ByteSize = s.length := by
  -- the byte size is that of the characters, taken one by one
  have key : ∀ l : List Char, (∀ c ∈ l, c.utf8Size = 1) →
      (String.ofList l).utf8ByteSize = l.length := by
    intro l hl
    induction l with
    | nil => rfl
    | cons c l ih =>
      rw [String.ofList_cons, String.utf8ByteSize_append, String.utf8ByteSize_singleton,
        hl c List.mem_cons_self, ih fun d hd => hl d (List.mem_cons_of_mem c hd),
        List.length_cons]
      omega
  rw [← String.length_toList, ← key s.toList h, String.ofList_toList]

namespace TenantForm

variable {text : JsText} {tenant : Option Tenant} {edits : List TenantEdit}

/-- What the control API finds wrong with a form that was submitted. -/
def complaint (form : TenantForm) : Option String :=
  if 100 < (trim form.name).utf8ByteSize then some "name must not exceed 100 characters"
  else if 63 < form.slug.length then some "slug must not exceed 63 characters"
  else if form.slug.toList.getLast? = some '-' then
    some "slug must be lowercase alphanumeric with hyphens, 2-63 chars"
  else none

/-- A value if there is no complaint, or the answer to the form. -/
def answered {α : Type} (form : TenantForm) (a : α) : Except Response α :=
  form.complaint.elim (.ok a) fun msg => .error (writeError 422 msg)

/-- What the form of a tenant submits has a slug of the pattern and a name. -/
private theorem submit_eq_some {form : TenantForm} {body : TenantBody}
    (h : form.submit = some body) :
    slugPattern form.slug = true ∧ trim form.name ≠ "" ∧
      body = ⟨trim form.name, form.slug, form.enabled⟩ := by
  unfold submit at h
  split at h
  · next hvalid =>
    split at h
    · cases h
    · next hblank =>
      simp only [checkValidity, Bool.and_eq_true] at hvalid
      simp only [Bool.or_eq_true, decide_eq_true_eq, not_or] at hblank
      have htrim := trim_eq_self fun c hc => (isJsSpace_of_mem hvalid.2 hc).1
      cases h
      exact ⟨hvalid.2, hblank.1, by rw [htrim]⟩
  · cases h

/-- The checks of the handlers, for a slug that the browser let through. -/
private theorem checks_eq {α : Type} {form : TenantForm} (hslug : slugPattern form.slug = true)
    (a : α) :
    (do validateNameLength (trim form.name)
        validateSlugLength form.slug
        validateSlug form.slug
        return a) = form.answered a := by
  have hsize := utf8ByteSize_eq_length fun c hc => (isJsSpace_of_mem hslug hc).2
  have hmatches := slugMatches_iff hslug
  simp only [validateNameLength, validateSlugLength, validateSlug, require, answered, complaint,
    hsize]
  -- one case for each check, in the order of the handlers
  by_cases hname : (trim form.name).utf8ByteSize ≤ 100
  · by_cases hlength : form.slug.length ≤ 63
    · by_cases hlast : form.slug.toList.getLast? = some '-'
      · have hfails : slugMatches form.slug = false := by
          rw [← Bool.not_eq_true, hmatches]
          exact fun h => h.2 hlast
        simp [hname, hlength, hlast, hfails, Nat.not_lt.mpr hname, Nat.not_lt.mpr hlength]
        rfl
      · have hholds := hmatches.mpr ⟨hlength, hlast⟩
        simp [hname, hlength, hlast, hholds, Nat.not_lt.mpr hname, Nat.not_lt.mpr hlength]
        rfl
    · simp [hname, hlength, Nat.not_lt.mpr hname, Nat.lt_of_not_le hlength]
      rfl
  · simp [hname, Nat.lt_of_not_le hname]
    rfl

/-- The body of a tenant is decoded as it was sent. -/
private theorem decodeBody_toJson (r : Request) (body : TenantBody) :
    decodeBody CreateTenantRequest.set {} (sent r body.toJson) =
      .ok ⟨body.name, body.slug, some body.enabled⟩ := by
  simp [decodeBody, sent, TenantBody.toJson, foldName_bodyKey, CreateTenantRequest.set, goValue,
    goPointer, goString, goBool]

/-! ### Runs -/

/-- As long as the slug is not edited, it is the slug of the tenant, or it is empty or derived
    from a name. -/
def Untouched (text : JsText) (tenant : Option Tenant) (form : TenantForm) : Prop :=
  (form.slugEdited = true ∧ tenant.map Tenant.slug = some form.slug) ∨
    (form.slugEdited = false ∧ (form.slug = "" ∨ ∃ name, form.slug = slugify text name))

/-- When the form opens, nobody has typed a slug. -/
theorem untouched_initial (text : JsText) (tenant : Option Tenant) :
    Untouched text tenant (initial tenant) := by
  cases tenant with
  | none => exact .inr ⟨rfl, .inl rfl⟩
  | some tenant =>
    by_cases hslug : tenant.slug = ""
    · exact .inr ⟨by simp [initial, hslug], .inl hslug⟩
    · exact .inl ⟨by simp [initial, hslug], rfl⟩

/-- Every edit but that of the slug leaves it so. -/
theorem Untouched.edit {form : TenantForm} (h : Untouched text tenant form) {e : TenantEdit}
    (he : ∀ v, e ≠ .slug v) : Untouched text tenant (form.edit text e) := by
  cases e with
  | slug v => exact absurd rfl (he v)
  | enabled v => exact h
  | name v =>
    rcases h with ⟨hedited, hslug⟩ | ⟨hedited, -⟩
    · refine .inl ⟨hedited, ?_⟩
      simpa [TenantForm.edit, hedited] using hslug
    · refine .inr ⟨hedited, .inr ⟨v, ?_⟩⟩
      simp [TenantForm.edit, hedited]

/-- No sequence of edits without the slug touches it. -/
theorem untouched_run (h : ∀ v, TenantEdit.slug v ∉ edits) :
    Untouched text tenant (run text tenant edits) := by
  unfold run
  have hstart := untouched_initial text tenant
  generalize initial tenant = form at hstart
  induction edits generalizing form with
  | nil => exact hstart
  | cons e edits ih =>
    refine ih (fun v hv => h v (List.mem_cons_of_mem e hv)) _ (hstart.edit fun v hv => ?_)
    exact h v (hv ▸ List.mem_cons_self)

end TenantForm

/-- Whatever is typed into the form of a new or an existing tenant: what is submitted is answered
    422 exactly for a name of more than 100 bytes, a slug of more than 63 characters or one that
    ends in a hyphen, and otherwise written as the form shows it. A slug that nobody typed does
    not end in a hyphen unless that of the existing tenant does. -/
theorem submitted_tenant (text : JsText) (tenant : Option Tenant) (edits : List TenantEdit)
    {body : TenantBody} (h : (TenantForm.run text tenant edits).submit = some body) :
    (∀ r, createTenant (sent r body.toJson) =
      createRow .tenants "slug already exists" ((TenantForm.run text tenant edits).answered
        fun id now => (⟨id, body.name, body.slug, body.enabled, now, now⟩ : ControlApi.Tenant))) ∧
    (∀ ext r id, updateTenant ext (sent r body.toJson) id =
      updateById .tenants "invalid tenant id" "tenant not found" "slug already exists" ext id
        fun _ => (TenantForm.run text tenant edits).answered fun now (row : ControlApi.Tenant) =>
          ({ row with
              name := body.name, slug := body.slug, enabled := body.enabled, updatedAt := now } :
            ControlApi.Tenant)) ∧
    body = ⟨trim (TenantForm.run text tenant edits).name, (TenantForm.run text tenant edits).slug,
      (TenantForm.run text tenant edits).enabled⟩ ∧
    ((∀ v, TenantEdit.slug v ∉ edits) → body.slug.toList.getLast? = some '-' →
      ∃ t, tenant = some t ∧ t.slug = body.slug) := by
  obtain ⟨hslug, hname, rfl⟩ := TenantForm.submit_eq_some h
  obtain ⟨c, cs, hlist, -⟩ := slugPattern_head hslug
  -- the pattern has at least one character, so the slug is provided
  have hne : (TenantForm.run text tenant edits).slug ≠ "" := by
    intro heq
    rw [heq] at hlist
    cases hlist
  refine ⟨fun r => ?_, fun ext r id => ?_, rfl, fun htyped hlast => ?_⟩
  · -- both required fields pass
    unfold createTenant
    rw [TenantForm.decodeBody_toJson, ok_bind, require_bind (by simpa using hname)]
    exact congrArg (createRow .tenants "slug already exists") (TenantForm.checks_eq hslug _)
  · unfold updateTenant
    refine congrArg (updateById .tenants "invalid tenant id" "tenant not found"
      "slug already exists" ext id) (funext fun existing => ?_)
    rw [TenantForm.decodeBody_toJson, ok_bind]
    -- both texts are provided, so both are checked and both are set
    simp only [provided, ne_eq, hname, hne, not_false_eq_true, if_true, if_false]
    exact TenantForm.checks_eq hslug _
  · -- a slug that nobody typed is that of the tenant, or was made from a name
    have huntouched : TenantForm.Untouched text tenant (TenantForm.run text tenant edits) :=
      TenantForm.untouched_run htyped
    rcases huntouched with ⟨-, hsame⟩ | ⟨-, hempty | ⟨name, hderived⟩⟩
    · obtain ⟨t, ht, hslug⟩ := Option.map_eq_some_iff.mp hsame
      exact ⟨t, ht, hslug⟩
    · exact absurd hempty hne
    · have hlast : (slugify text name).toList.getLast? = some '-' := hderived ▸ hlast
      exact absurd hlast (slugify_ends text name).2

def anyRequest : Request := ⟨.missing, fun _ => "", "", none, none⟩

/-- A name that is typed, and the slug that is made of it. -/
theorem submitted_tenant_acme :
    createTenant (sent anyRequest (TenantBody.toJson ⟨"Acme Corp", "acme-corp", true⟩)) =
      createRow .tenants "slug already exists" (.ok fun id now =>
        (⟨id, "Acme Corp", "acme-corp", true, now, now⟩ : ControlApi.Tenant)) :=
  (submitted_tenant ⟨fun s => String.ofList (s.toList.map Char.toLower), id⟩ none
    [.name "Acme Corp"] (by decide)).1 anyRequest

/-! ## Routes -/

section

variable {ext : Ext} {body : RouteBody} {upstream : UUID}

/-- The body of a new route is decoded as it was sent; a host that is left out is empty. -/
private theorem decodeBody_createRoute (hid : ext.uuidParse body.upstreamId = some upstream)
    (r : Request) :
    decodeBody (CreateRouteRequest.set ext) {} (sent r body.toJson) =
      .ok ⟨body.method, body.pathPrefix, body.host.getD "", upstream, some body.enabled⟩ := by
  cases hhost : body.host <;>
    simp [decodeBody, sent, RouteBody.toJson, AdminClient.member, foldName_bodyKey,
      CreateRouteRequest.set, goValue, goPointer, goString, goBool, goUuid, hid, hhost]

/-- The body of a patch of a route is decoded as it was sent. -/
private theorem decodeBody_updateRoute (hid : ext.uuidParse body.upstreamId = some upstream)
    (r : Request) :
    decodeBody (UpdateRouteRequest.set ext) {} (sent r body.toJson) =
      .ok ⟨body.method, body.pathPrefix, body.host.getD "", some upstream, some body.enabled⟩ := by
  cases hhost : body.host <;>
    simp [decodeBody, sent, RouteBody.toJson, AdminClient.member, foldName_bodyKey,
      UpdateRouteRequest.set, goValue, goPointer, goString, goBool, goUuid, hid, hhost]

end

/-- A text that is left out is the empty one. -/
private theorem getD_trimmedOrUndefined (s : String) : (trimmedOrUndefined s).getD "" = trim s := by
  unfold trimmedOrUndefined
  split
  · next h => exact h.symm
  · rfl

namespace RouteForm

/-- The row has what the form shows. -/
def ShownBy (form : RouteForm) (upstreamId : UUID) (row : ControlApi.Route) : Prop :=
  row.method = form.apiMethod ∧ row.pathPrefix = trim form.pathPrefix ∧
    row.host = trim form.host ∧ row.upstreamId = upstreamId ∧ row.enabled = form.enabled

/-- What the form of a route submits has a path prefix. -/
private theorem submit_eq_some {form : RouteForm} {body : RouteBody} (h : form.submit = some body) :
    trim form.pathPrefix ≠ "" ∧
      body = ⟨form.apiMethod, trim form.pathPrefix, trimmedOrUndefined form.host,
        form.upstreamId, form.enabled⟩ := by
  unfold submit at h
  split at h
  · cases hpath : validatePathPrefix form.pathPrefix with
    | some text =>
      rw [hpath] at h
      cases h
    | none =>
      rw [hpath] at h
      cases h
      refine ⟨fun hblank => ?_, rfl⟩
      rw [validatePathPrefix, if_pos hblank] at hpath
      cases hpath
  · cases h

end RouteForm

/-- Whatever is typed into the form of a new or an existing route: a new route is written as the
    form shows it, if its upstream is still one of the tenant. A patch writes what the form shows
    exactly if the form has a host or the route has none: the host of a route cannot be
    cleared. -/
theorem submitted_route (ext : Ext) (text : JsText) (route : Option (Route × String))
    (edits : List RouteEdit) {body : RouteBody}
    (h : (RouteForm.run text route edits).submit = some body) {upstream : UUID}
    (hid : ext.uuidParse body.upstreamId = some upstream) (hne : upstream ≠ 0)
    (hupper : ext.toUpper body.method = body.method) (hmethod : body.method ≠ "") :
    (∀ r tenant, ∃ row : UUID → UUID → Time → ControlApi.Route,
      (∀ tenantId id now,
        (RouteForm.run text route edits).ShownBy upstream (row tenantId id now)) ∧
      createRoute ext (sent r body.toJson) tenant =
        createInTenant .routes
          "route with same method, path_prefix, and host already exists in tenant" ext tenant
          fun tenantId => do
            checkUpstreamInTenant upstream tenantId
            return row tenantId) ∧
    ∀ r tenant id, ∃ patch : ControlApi.Route → Time → ControlApi.Route → ControlApi.Route,
      (∀ existing now row,
        (RouteForm.run text route edits).ShownBy upstream (patch existing now row) ↔
          trim (RouteForm.run text route edits).host ≠ "" ∨ existing.host = "") ∧
      updateRoute ext (sent r body.toJson) tenant id =
        updateInTenant .routes "invalid route id" "route not found"
          "route with same method, path_prefix, and host already exists in tenant" ext tenant id
          fun tenantId existing => do
            checkUpstreamInTenant upstream tenantId
            return patch existing := by
  obtain ⟨hpath, rfl⟩ := RouteForm.submit_eq_some h
  -- only the form at the time of the submission matters
  generalize RouteForm.run text route edits = form at *
  dsimp only at hid hupper hmethod
  refine ⟨fun r tenant => ⟨fun tenantId id now =>
      { id, tenantId, method := form.apiMethod, pathPrefix := trim form.pathPrefix
        host := trim form.host, upstreamId := upstream, enabled := form.enabled
        createdAt := now, updatedAt := now }, fun _ _ _ => ⟨rfl, rfl, rfl, rfl, rfl⟩, ?_⟩,
    fun r tenant id => ⟨fun existing now row =>
      { row with
        method := form.apiMethod, pathPrefix := trim form.pathPrefix
        host := provided (trim form.host) existing.host, upstreamId := upstream
        enabled := form.enabled, updatedAt := now }, fun existing now row => ?_, ?_⟩⟩
  · -- the path and the upstream are required, and both are there
    unfold createRoute
    rw [decodeBody_createRoute hid]
    refine congrArg (createInTenant .routes _ ext tenant) (funext fun tenantId => ?_)
    rw [ok_bind, require_bind (by simpa using hpath), require_bind (by simpa using hne)]
    refine (Program.attempt_ok_bind _ _).trans ?_
    simp only [hupper, provided, hmethod, getD_trimmedOrUndefined, if_false]
    rfl
  · -- all but the host is shown in any case
    have hshown : (form.ShownBy upstream { row with
        method := form.apiMethod, pathPrefix := trim form.pathPrefix
        host := provided (trim form.host) existing.host, upstreamId := upstream
        enabled := form.enabled, updatedAt := now }) ↔
        provided (trim form.host) existing.host = trim form.host := by
      simp [RouteForm.ShownBy]
    rw [hshown, provided]
    by_cases hhost : trim form.host = "" <;> simp [hhost]
  · -- the same checks on a patch, where the given fields replace the stored ones
    unfold updateRoute
    rw [decodeBody_updateRoute hid]
    refine congrArg (updateInTenant .routes _ _ _ ext tenant id)
      (funext fun tenantId => funext fun existing => ?_)
    refine (Program.attempt_ok_bind _ _).trans ?_
    simp only [hupper, provided, hmethod, hpath, getD_trimmedOrUndefined, if_false]
    rfl

/-- The text of the id 2000. -/
def uuidText : String := "00000000-0000-0000-0000-0000000007d0"

/-- The libraries of Go, as far as a route with one upstream needs them. -/
def oneUpstream : Ext where
  uuidParse s := if s = uuidText then some 2000 else none
  toUpper := id
  toLower := id
  parseRequestURI _ := none
  rawMessage _ := ""
  sha256Hex _ := ""

/-- The form of a route with a host, which is cleared. -/
def clearedHost : RouteForm :=
  RouteForm.run ⟨id, id⟩ (some (⟨"GET", "/api", some "a.example", true⟩, uuidText)) [.host ""]

/-- The patch keeps the host. -/
theorem submitted_route_cleared :
    ∃ patch : ControlApi.Route → Time → ControlApi.Route → ControlApi.Route,
      (∀ existing now row, clearedHost.ShownBy 2000 (patch existing now row) ↔
        existing.host = "") ∧
      updateRoute oneUpstream
          (sent anyRequest (RouteBody.toJson ⟨"GET", "/api", none, uuidText, true⟩))
          uuidText uuidText =
        updateInTenant .routes "invalid route id" "route not found"
          "route with same method, path_prefix, and host already exists in tenant" oneUpstream
          uuidText uuidText fun tenantId existing => do
            checkUpstreamInTenant 2000 tenantId
            return patch existing := by
  have hsubmit : clearedHost.submit = some ⟨"GET", "/api", none, uuidText, true⟩ := by decide
  have hid : oneUpstream.uuidParse uuidText = some 2000 := by simp [oneUpstream]
  obtain ⟨patch, hshown, hupdate⟩ := (submitted_route oneUpstream ⟨id, id⟩
    (some (⟨"GET", "/api", some "a.example", true⟩, uuidText)) [.host ""] hsubmit hid
    (by decide) rfl (by decide)).2 anyRequest uuidText uuidText
  refine ⟨patch, fun existing now row => (hshown existing now row).trans ?_, hupdate⟩
  exact or_iff_right fun hhost => hhost (by decide)

/-! ## Plugins and regions -/

/-- The body of a plugin is decoded as it was sent, without a config. -/
private theorem decodeBody_createPlugin (r : Request) (body : PluginBody) :
    decodeBody CreateWasmPluginRequest.set {} (sent r body.toJson) =
      .ok ⟨body.name, body.version, body.trigger.text, body.storageUrl, none,
        some body.enabled⟩ := by
  cases hurl : body.storageUrl <;>
    simp [decodeBody, sent, PluginBody.toJson, AdminClient.member, foldName_bodyKey,
      CreateWasmPluginRequest.set, goValue, goPointer, goString, goBool, hurl]

/-- What the form of a plugin submits has a name and a version. -/
theorem PluginForm.submit_eq_some {form : PluginForm} {body : PluginBody}
    (h : form.submit = some body) :
    trim form.name ≠ "" ∧ trim form.version ≠ "" ∧
      body = ⟨trim form.name, trim form.version, form.trigger,
        trimmedOrUndefined form.storageUrl, form.enabled⟩ := by
  unfold submit at h
  split at h
  · -- the digest is looked at first
    cases hsha : validateSha256 form.sha256 with
    | some text =>
      rw [hsha] at h
      cases h
    | none =>
      simp only [hsha] at h
      split at h
      · cases h
      · next hblank =>
        -- neither name nor version is blank
        simp only [Bool.or_eq_true, decide_eq_true_eq, not_or] at hblank
        cases h
        exact ⟨hblank.1, hblank.2, rfl⟩
  · cases h

/-- The triggers of the form are those of the handler. -/
theorem Trigger.valid (trigger : Trigger) :
    trigger.text ≠ "" ∧ validTriggers.contains trigger.text = true := by
  cases trigger <;> decide

/-- Whatever is typed into the form of a plugin: it is written as the form shows it exactly if
    the form has a place of storage, which is called optional. The digest is never written. -/
theorem submitted_plugin (edits : List PluginEdit) {body : PluginBody}
    (h : (PluginForm.run edits).submit = some body) (ext : Ext) (r : Request) (tenant : String) :
    createWasmPlugin ext (sent r body.toJson) tenant =
      createInTenant .wasmPlugins "plugin with same name and version already exists in tenant" ext
        tenant fun tenantId => attempt
          (if trim (PluginForm.run edits).storageUrl = "" then
            .error (writeError 422
              "provide wasm_binary via multipart/form-data or storage_url via JSON")
          else .ok fun id now =>
            ({ id, tenantId, name := trim (PluginForm.run edits).name
               version := trim (PluginForm.run edits).version
               trigger := (PluginForm.run edits).trigger.text
               sha256 := "storage-backed"
               storageUrl := some (trim (PluginForm.run edits).storageUrl), wasmBinary := none
               config := "\x7b\x7d", enabled := (PluginForm.run edits).enabled
               createdAt := now, updatedAt := now } : ControlApi.WasmPlugin)) := by
  obtain ⟨hname, hversion, rfl⟩ := PluginForm.submit_eq_some h
  generalize PluginForm.run edits = form at *
  -- the form sends JSON, not a multipart body
  have hsource : wasmSource ext (sent r (PluginBody.toJson ⟨trim form.name, trim form.version,
      form.trigger, trimmedOrUndefined form.storageUrl, form.enabled⟩)) =
      wasmSourceOfBody ext (sent r (PluginBody.toJson ⟨trim form.name, trim form.version,
        form.trigger, trimmedOrUndefined form.storageUrl, form.enabled⟩)) :=
    if_neg (show ¬ "multipart/form-data".toList.isPrefixOf "application/json".toList = true by
      decide)
  unfold createWasmPlugin
  refine congrArg (createInTenant .wasmPlugins _ ext tenant)
    (funext fun tenantId => congrArg attempt ?_)
  rw [hsource, wasmSourceOfBody, decodeBody_createPlugin, ok_bind]
  -- without a storage URL there is no source, and the answer is 422
  by_cases hurl : trim form.storageUrl = ""
  · rw [if_pos hurl]
    simp only [trimmedOrUndefined, hurl, if_true, Option.isSome_none]
    rfl
  · -- every trigger the form offers is known to the API
    obtain ⟨htrigger, hvalid⟩ := form.trigger.valid
    rw [if_neg hurl]
    simp only [trimmedOrUndefined, hurl, if_false, Option.isSome_some]
    rw [require_bind rfl]
    refine (require_bind (by simpa using hname) _ _).trans ?_
    simp only [provided, htrigger, hversion, if_false]
    exact require_bind hvalid _ _

/-- A plugin with a digest and without a place of storage is refused. -/
theorem submitted_plugin_digest :
    createWasmPlugin oneUpstream
        (sent anyRequest (PluginBody.toJson ⟨"auth", "1.0.0", .both, none, true⟩)) uuidText =
      createInTenant .wasmPlugins "plugin with same name and version already exists in tenant"
        oneUpstream uuidText fun _ => attempt (.error (writeError 422
          "provide wasm_binary via multipart/form-data or storage_url via JSON")) :=
  submitted_plugin [.name " auth", .trigger .both, .sha256
    "e3b0c44298fc1c149afbf4c8996fb92427ae41e4649b934ca495991b7852b855"]
    (by decide) oneUpstream anyRequest uuidText

/-- The body of a region is decoded as it was sent. -/
private theorem decodeBody_createRegion (r : Request) (body : RegionForm) :
    decodeBody CreateRegionRequest.set {} (sent r body.toJson) =
      .ok ⟨body.name, body.kafkaBrokers, body.isPrimary, none, none⟩ := by
  simp [decodeBody, sent, RegionForm.toJson, foldName_bodyKey, CreateRegionRequest.set, goValue,
    goString, goBool]

/-- A region is always written as the form shows it. -/
theorem submitted_region {form body : RegionForm} (h : form.submit = some body)
    (r : Request) :
    createRegion (sent r body.toJson) =
      createRow .regions "region name already exists" (.ok fun id now =>
        ({ id, name := trim form.name, kafkaBrokers := trim form.kafkaBrokers
           isPrimary := form.isPrimary, mm2GroupId := none, enabled := true
           createdAt := now, updatedAt := now } : Region)) := by
  unfold RegionForm.submit at h
  split at h
  · split at h
    · cases h
    · -- neither name nor brokers are blank
      next hblank =>
      simp only [Bool.or_eq_true, decide_eq_true_eq, not_or] at hblank
      cases h
      unfold createRegion
      refine congrArg (createRow .regions "region name already exists") ?_
      rw [decodeBody_createRegion, ok_bind]
      refine (require_bind (by simpa using hblank.1) _ _).trans ?_
      exact require_bind (by simpa using hblank.2) _ _
  · cases h

end Barqium.Native.AdminUi
