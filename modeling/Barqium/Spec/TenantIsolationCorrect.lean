import Barqium.Spec.HandlersCorrect

/-!
# Isolation of tenants in the control API

A caller that is not an admin writes only what belongs to the tenant of its token: the
guard of an endpoint below a tenant lets it through for its own tenant alone, and such an
endpoint writes rows of the tenant in the URL only. Two things reach further. The patch of
a tenant has no guard, so it may change the row of any tenant; and the deletion of an AI
provider takes along the model policies that reference it.

## Key results

- `Deployment.step_keeps_other_tenants`: what one request leaves alone.
- `patch_changes_other_tenant`: a caller of one tenant changes another one.
-/

namespace Barqium.Native.ControlApi

open Program

/-- Nothing of the tenant is written: its own row and its rows in every table stay. -/
def Isolated (tenantId : UUID) (db db' : Db) : Prop :=
  ∀ t, db'.rowsOf t tenantId = db.rowsOf t tenantId

/-! ## Guards -/

section Guards

variable {r : Request} {token : Token} {tenantClaim : String}

/-- A caller without the role `admin` gets the 403. -/
private theorem requireRole_error (hrole : token.get "role" ≠ some (.str "admin")) :
    requireRole ["admin"] (some token) = .error (httpError "forbidden: insufficient role" 403) := by
  have hstr : ((token.get "role").bind Json.asStr).getD "" ≠ "admin" := by
    cases hget : token.get "role" with
    | none => simp
    | some v =>
      rw [hget] at hrole
      -- a role of another type counts as the empty string
      cases v with
      | str role => simpa [Json.asStr] using hrole
      | _ => simp [Json.asStr]
  simp [requireRole, hstr]

/-- Below a tenant, a caller that is not an admin passes for the tenant of its claim,
    or when the URL names none. -/
private theorem tenantScope_eq_ok {tenantParam : String}
    (hrole : token.get "role" ≠ some (.str "admin"))
    (hclaim : token.get "tenant_id" = some (.str tenantClaim))
    (h : tenantScope ["admin"] tenantParam (some token) = .ok ()) :
    tenantParam = "" ∨ tenantParam = tenantClaim := by
  -- not an admin, so the own tenant was checked
  have hown : tenantScope.ownTenant tenantParam token = .ok () := by
    unfold tenantScope at h
    cases hget : token.get "role" with
    | none => simpa only [hget] using h
    | some v =>
      rw [hget] at hrole
      simp only [hget] at h
      cases v with
      | str role =>
        have hne : role ≠ "admin" := fun heq => hrole (by rw [heq])
        simpa [hne] using h
      | _ => cases h
  by_cases hempty : tenantParam = ""
  · exact .inl hempty
  · right
    by_contra hne
    simp [tenantScope.ownTenant, hempty, hclaim, Json.asStr, Ne.symm hne] at hown

end Guards

/-! ## Rows of other tenants -/

section OtherTenants

variable {ext : Ext} {tenantParam : String} {write : Option Write} {tenantId : UUID}

/-- Below another tenant nothing of the tenant is written, as long as no deletion can
    cascade. -/
theorem Query.Under.spares {β : Type} {q : Query β} (h : q.Under ext tenantParam write)
    (hother : ext.uuidParse tenantParam ≠ some tenantId)
    (htenants : write ≠ some (.delete .tenants))
    (hproviders : write ≠ some (.delete .aiProviders)) :
    q.Spares fun t r => t.tenant r = some tenantId := by
  obtain ⟨parsed, hparse, hwrites, hwithin⟩ := h
  have hne : some parsed ≠ some tenantId := by rwa [← hparse]
  cases q with
  | selectOne t p => trivial
  | selectMany t p le limit offset => trivial
  | insertOne t row =>
    intro id now
    simp only [hwithin id now, hne, decide_false]
  | updateOne t p set =>
    intro r now hr
    obtain ⟨hbefore, hafter⟩ := hwithin r now hr
    simp only [hbefore, hafter, hne, decide_false, and_self]
  | deleteAll t p =>
    -- without a cascade only rows of the `WHERE` clause go
    have ht : t ≠ .tenants := fun heq => htenants (by rw [hwrites, heq])
    have ht' : t ≠ .aiProviders := fun heq => hproviders (by rw [hwrites, heq])
    intro db u r hr
    by_cases hu : u = t
    · subst hu
      rw [db.deleted_self ht ht'] at hr
      simp only [hwithin r hr, hne, decide_false]
    · rw [db.deleted_of_ne ht ht' hu] at hr
      cases hr

/-- Storing a row leaves it with its tenant. -/
theorem coerce_keeps_tenant (types : ColumnTypes) (t : Table) (row r : t.Row)
    (h : t.coerce types row = .ok r) :
    decide (t.tenant r = some tenantId) = decide (t.tenant row = some tenantId) := by
  rw [Table.tenant_coerce h]

/-- A handler below another tenant isolates the tenant, as long as no deletion can
    cascade. -/
theorem isolated_of_under {server : Postgres.Server} {x : Handler}
    (hx : x.Performs (Query.Under ext tenantParam write))
    (hother : ext.uuidParse tenantParam ≠ some tenantId)
    (htenants : write ≠ some (.delete .tenants)) (hproviders : write ≠ some (.delete .aiProviders))
    (s : Postgres) : Isolated tenantId s.db (x.run (Postgres.exec server) s).2.db :=
  run_filter_rows (coerce_keeps_tenant server.types)
    (hx.mono fun _ hq => hq.spares hother htenants hproviders) s

/-- A handler that only reads changes no tenant's rows. -/
theorem isolated_of_reads {server : Postgres.Server} {x : Handler}
    (hx : x.Performs (Query.Writes none)) (s : Postgres) :
    Isolated tenantId s.db (x.run (Postgres.exec server) s).2.db := by
  apply run_filter_rows (coerce_keeps_tenant server.types)
  apply hx.mono
  intro β q hq
  cases q with
  | selectOne t p => trivial
  | selectMany t p le limit offset => trivial
  | insertOne t row | updateOne t p set | deleteAll t p => cases hq

/-- A handler that only updates one table keeps the others. -/
private theorem rows_of_updates {server : Postgres.Server} {x : Handler} {t v : Table}
    (hx : x.Performs (Query.Writes (some (.update t)))) (hv : v ≠ t) (s : Postgres) :
    (x.run (Postgres.exec server) s).2.db.rows v = s.db.rows v := by
  -- an update of one table spares the others
  have hspares : x.Performs (Query.Spares fun u _ => u ≠ t) := by
    apply hx.mono
    intro β q hq
    cases q with
    | selectOne u p => trivial
    | selectMany u p le limit offset => trivial
    | insertOne u row => cases hq
    | updateOne u p set =>
      cases hq
      intro r now _
      simp
    | deleteAll u p => cases hq
  have hrows : ((x.run (Postgres.exec server) s).2.db.rows v).filter (fun _ => v ≠ t) =
      (s.db.rows v).filter fun _ => v ≠ t := run_filter_rows (fun _ _ _ _ => rfl) hspares s v
  simpa [hv] using hrows

/-- The policies that the deletion of an AI provider of the tenant takes along, whichever
    tenant they belong to. -/
def removedWithProvider (ext : Ext) (db : Db) (tenantParam : String) :
    Endpoint → AiModelPolicy → Bool
  | .inTenant _ (.deleteAiProvider id), policy =>
    (db.rows .aiProviders).any fun (provider : AiProvider) =>
      ext.uuidParse tenantParam = some provider.tenantId &&
        ext.uuidParse id = some provider.id && provider.id = policy.providerId
  | _, _ => false

/-- What the deletion of an AI provider leaves alone of another tenant. -/
private theorem deleteAiProvider_keeps {server : Postgres.Server} {id : String}
    (hother : ext.uuidParse tenantParam ≠ some tenantId) (s : Postgres) :
    let db' := ((deleteAiProvider ext tenantParam id).run (Postgres.exec server) s).2.db
    (∀ t, t ≠ .aiModelPolicies → db'.rowsOf t tenantId = s.db.rowsOf t tenantId) ∧
      (let kept (p : AiModelPolicy) :=
        !removedWithProvider ext s.db tenantParam (.inTenant tenantParam (.deleteAiProvider id)) p
      (db'.rowsOf .aiModelPolicies tenantId).filter kept =
        (s.db.rowsOf .aiModelPolicies tenantId).filter kept) := by
  intro db'
  rcases deleteInTenant_effect server .aiProviders "invalid provider id" ext tenantParam id s with
    hsame | ⟨parsed, providerId, hparse, hid, heffect⟩
  · have hsame : db' = s.db := hsame
    rw [hsame]
    exact ⟨fun _ _ => rfl, rfl⟩
  · have hne : some parsed ≠ some tenantId := by rwa [← hparse]
    have hrow : ∀ provider : AiProvider, rowIn .aiProviders providerId parsed provider = true →
        provider.id = providerId ∧ provider.tenantId = parsed := by
      intro provider h
      obtain ⟨hproviderId, htenant⟩ := rowIn_eq_true.mp h
      exact ⟨hproviderId, Option.some.inj htenant⟩
    constructor
    · intro t ht
      apply heffect.filter_deleteAll
      intro r hr
      -- the providers removed are the caller's own
      by_cases hself : t = .aiProviders
      · subst hself
        rw [Db.deleted_aiProviders_self] at hr
        have htenant : (some (AiProvider.tenantId r)) = some parsed := by rw [(hrow r hr).2]
        simp only [Table.tenant, htenant, hne, decide_false]
      · rw [Db.deleted_aiProviders_of_ne _ _ hself ht] at hr
        cases hr
    · intro kept
      unfold Db.rowsOf
      rw [List.filter_filter, List.filter_filter]
      apply heffect.filter_deleteAll (v := .aiModelPolicies)
      intro r hr
      -- a policy goes when its provider does, and then it is not among those compared
      obtain ⟨provider, hmem, hp, hreferences⟩ := (Db.deleted_aiProviders _ _ _).mp hr
      obtain ⟨hproviderId, htenant⟩ := hrow provider hp
      have hremoved : kept r = false := by
        simp only [kept, removedWithProvider, Bool.not_eq_false', List.any_eq_true]
        exact ⟨provider, hmem, by simp [hparse, hid, htenant, hproviderId, ← hreferences]⟩
      simp only [hremoved, Bool.false_and]

/-- Below a URL without a tenant nothing is written at all. -/
private theorem isolated_of_unparsed {server : Postgres.Server} {x : Handler}
    (hx : x.Performs (Query.Under ext tenantParam write))
    (hnone : ext.uuidParse tenantParam = none) (s : Postgres) :
    Isolated tenantId s.db (x.run (Postgres.exec server) s).2.db := by
  apply run_filter_rows (coerce_keeps_tenant server.types)
  apply hx.mono
  rintro β q ⟨parsed, hparse, -⟩
  rw [hnone] at hparse
  cases hparse

end OtherTenants

/-! ## Isolation -/

/-- What a request of a caller of the tenant `tenantClaim` leaves alone of another
    tenant. -/
structure KeepsOther (ext : Ext) (tenantClaim : String) (endpoint : Endpoint) (tenantId : UUID)
    (db db' : Db) : Prop where
  /-- Its upstreams, routes, checkpoints, AI providers, rate limit policies and plugins. -/
  rows : ∀ t, t ≠ .tenants → t ≠ .aiModelPolicies →
    db'.rowsOf t tenantId = db.rowsOf t tenantId
  /-- Its own row, unless the request is the patch of this very tenant. -/
  tenant : (∀ id, endpoint = .updateTenant id → ext.uuidParse id ≠ some tenantId) →
    db'.rowsOf .tenants tenantId = db.rowsOf .tenants tenantId
  /-- Its model policies, but those of a provider of the caller that the request deletes. -/
  policies :
    (db'.rowsOf .aiModelPolicies tenantId).filter
        (fun p => !removedWithProvider ext db tenantClaim endpoint p) =
      (db.rowsOf .aiModelPolicies tenantId).filter
        fun p => !removedWithProvider ext db tenantClaim endpoint p

/-- A change inside the tenant keeps the other tenants' rows. -/
theorem KeepsOther.of_isolated {ext : Ext} {tenantClaim : String} {endpoint : Endpoint}
    {tenantId : UUID} {db db' : Db} (h : Isolated tenantId db db') :
    KeepsOther ext tenantClaim endpoint tenantId db db' where
  rows t _ _ := h t
  tenant _ := h .tenants
  policies := by rw [h .aiModelPolicies]

/-- No endpoint below a tenant deletes tenants, and one deletes providers. -/
theorem TenantEndpoint.write_delete (endpoint : TenantEndpoint) :
    endpoint.write ≠ some (.delete .tenants) ∧
      (endpoint.write = some (.delete .aiProviders) → ∃ id, endpoint = .deleteAiProvider id) := by
  cases endpoint <;> simp [write]

namespace Deployment

variable {api : Deployment} {token : Token} {tenantClaim : String} {tenantId : UUID} {r : Request}

/-- The patch of a tenant changes at most the row in the URL. -/
private theorem updateTenant_keeps {id : String} (s : Postgres) :
    KeepsOther api.ext tenantClaim (.updateTenant id) tenantId s.db
      ((updateTenant api.ext r id).run (Postgres.exec api.server) s).2.db := by
  by_cases hid : api.ext.uuidParse id = some tenantId
  · -- the tenant itself is patched: its row is excepted, its other rows stay
    have hrows : ∀ t, t ≠ .tenants →
        ((updateTenant api.ext r id).run (Postgres.exec api.server) s).2.db.rows t =
          s.db.rows t := fun t ht => rows_of_updates updateById_performs ht s
    constructor
    · intro t ht _
      simp only [Db.rowsOf, hrows t ht]
    · intro hother
      exact absurd hid (hother id rfl)
    · simp only [Db.rowsOf, hrows .aiModelPolicies (by decide)]
  · exact .of_isolated
      (isolated_of_under updateTenant_performs hid (by decide) (by decide) s)

/-- An endpoint below a tenant is reached for the caller's tenant only. -/
private theorem inTenant_keeps {tenantParam : String} {endpoint : TenantEndpoint}
    (hempty : api.ext.uuidParse "" = none)
    (hscope : tenantParam = "" ∨ tenantParam = tenantClaim)
    (hother : api.ext.uuidParse tenantClaim ≠ some tenantId) (s : Postgres) :
    KeepsOther api.ext tenantClaim (.inTenant tenantParam endpoint) tenantId s.db
      ((endpoint.handler api.ext r tenantParam).run (Postgres.exec api.server) s).2.db := by
  have hperforms := endpoint.handler_performs api.ext r tenantParam
  rcases hscope with rfl | rfl
  · -- an empty tenant in the URL passes the guard and fails in the handler
    exact .of_isolated (isolated_of_unparsed hperforms hempty s)
  · by_cases hdelete : endpoint.write = some (.delete .aiProviders)
    · obtain ⟨id, rfl⟩ := endpoint.write_delete.2 hdelete
      -- the cascade of a provider may reach policies of another tenant
      obtain ⟨hrows, hpolicies⟩ := deleteAiProvider_keeps hother s
      exact ⟨fun t _ ht => hrows t ht, fun _ => hrows .tenants (by decide), hpolicies⟩
    · exact .of_isolated
        (isolated_of_under hperforms hother endpoint.write_delete.1 hdelete s)

/-- With OIDC enabled, whatever a caller that is not an admin requests, it keeps the rows
    of the other tenants, but for the row that `PATCH /tenants/{id}` names and for the
    policies that go with a deleted provider. -/
theorem step_keeps_other_tenants (henabled : api.oidcMode = .enabled)
    (hempty : api.ext.uuidParse "" = none) (hauth : r.auth = .token token)
    (hrole : token.get "role" ≠ some (.str "admin"))
    (hclaim : token.get "tenant_id" = some (.str tenantClaim))
    (hother : api.ext.uuidParse tenantClaim ≠ some tenantId) (endpoint : Endpoint)
    (s : Postgres) :
    KeepsOther api.ext tenantClaim endpoint tenantId s.db (api.step s (endpoint, r)).db := by
  cases hpass : middlewares api.oidcMode r endpoint with
  | error response =>
    rw [step_of_rejected hpass]
    exact .of_isolated fun _ => rfl
  | ok _ =>
    rw [step_of_admitted hpass]
    have hguard : endpoint.guard (some token) = .ok () := by
      rw [← hpass, middlewares, henabled, hauth]
      rfl
    cases endpoint with
    | createRegion | listRegions | getRegion id | updateRegion id | deleteRegion id
    | createTenant | deleteTenant id =>
      -- these are for admins only
      simp only [Endpoint.guard, requireRole_error hrole, reduceCtorEq] at hguard
    | listTenants => exact .of_isolated (isolated_of_reads listAll_performs s)
    | getTenant id => exact .of_isolated (isolated_of_reads getById_performs s)
    -- no guard beyond the token
    | updateTenant id => exact updateTenant_keeps s
    | inTenant tenantParam endpoint =>
      exact inTenant_keeps hempty (tenantScope_eq_ok hrole hclaim hguard) hother s

/-! ## Two tenants -/

def acmeId : String := "00000000-0000-0000-0000-000000000001"

def globexId : String := "00000000-0000-0000-0000-000000000002"

/-- A deployment with OIDC enabled, in which the two tenants' ids are the only ids. -/
def guarded : Deployment where
  ext :=
    { uuidParse := fun s => if s = acmeId then some 1 else if s = globexId then some 2 else none
      toUpper := fun s => String.ofList (s.toList.map Char.toUpper)
      toLower := fun s => String.ofList (s.toList.map Char.toLower)
      parseRequestURI := fun _ => none
      rawMessage := fun _ => "null"
      sha256Hex := fun _ => "" }
  oidcMode := .enabled
  server := { types := ⟨.ok, .ok⟩, env := fun n => ⟨7, n, none⟩ }

/-- Both tenants, with an upstream each. -/
def twoTenants : Postgres where
  executed := 10
  db :=
    (Db.empty.setRows .tenants
      ([⟨1, "Acme", "acme", true, 0, 0⟩, ⟨2, "Globex", "globex", true, 0, 0⟩] :
        List Tenant)).setRows .upstreams
      ([⟨1, 1, "api", "https://acme.example", 5000, true, 0, 0⟩,
        ⟨2, 2, "api", "https://globex.example", 5000, true, 0, 0⟩] : List Upstream)

def acmeToken : Token := ⟨[("role", .str "editor"), ("tenant_id", .str acmeId)]⟩

def acmeRequest (body : Json) : Request where
  auth := .token acmeToken
  query := fun _ => ""
  contentType := "application/json"
  body := some body
  form := none

/-- Acme deletes its upstream and nothing of Globex changes. -/
theorem step_keeps_other_tenants_deleteUpstream :
    let db' := (guarded.step twoTenants
      (.inTenant acmeId (.deleteUpstream acmeId), acmeRequest .null)).db
    KeepsOther guarded.ext acmeId (.inTenant acmeId (.deleteUpstream acmeId)) 2 twoTenants.db db' ∧
      db'.rowsOf .upstreams 1 = [] ∧ (db'.rowsOf .upstreams 2).length = 1 :=
  have hrole : acmeToken.get "role" ≠ some (.str "admin") := fun h =>
    absurd (Json.str.inj (Option.some.inj h)) (by decide)
  ⟨step_keeps_other_tenants rfl (by decide) rfl hrole rfl (by decide) _ _, by decide, by decide⟩

/-- A caller of Acme disables Globex. -/
theorem patch_changes_other_tenant :
    let r := acmeRequest (.obj [("enabled", .bool false)])
    guarded.oidcMode = .enabled ∧ r.auth = .token acmeToken ∧
      acmeToken.get "role" = some (.str "editor") ∧
      acmeToken.get "tenant_id" = some (.str acmeId) ∧ guarded.ext.uuidParse acmeId = some 1 ∧
      ¬ Isolated 2 twoTenants.db (guarded.step twoTenants (.updateTenant globexId, r)).db := by
  refine ⟨rfl, rfl, rfl, rfl, by decide, ?_⟩
  intro h
  have hrow := congrArg (List.map Tenant.enabled) (h .tenants)
  revert hrow
  decide

end Deployment

end Barqium.Native.ControlApi
