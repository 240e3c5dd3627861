import Barqium.Spec.TenantHandlersCorrect
import Barqium.Spec.TenantIsolationCorrect

/-!
# What a tenant is answered

The tenants share one database. A request of one of them is answered from the rows of this
tenant, and the requests of the others leave these rows alone, so a tenant cannot tell the
shared service from one of its own, unless a policy is created for a provider of another
tenant.

## Key results

- `isolated_of_elsewhere`: the requests of others leave the rows of a tenant alone.
- `Deployment.apart_run`: between the requests of a run no reference leaves its tenant.
- `Deployment.seen_eq_alone`: what a tenant sees of a shared run.
-/

namespace Barqium.Native.ControlApi

open Program

/-! ## Requests of others -/

/-- The endpoint is one of the tenant. -/
def Endpoint.isBelow (ext : Ext) (tenantId : UUID) : Endpoint → Bool
  | .inTenant tenant _ => ext.uuidParse tenant = some tenantId
  | _ => false

/-- The endpoint is not the tenant's, and does not write the tenant's own row. -/
def Endpoint.Elsewhere (ext : Ext) (tenantId : UUID) : Endpoint → Prop
  | .inTenant tenant _ => ext.uuidParse tenant ≠ some tenantId
  | .updateTenant id | .deleteTenant id => ext.uuidParse id ≠ some tenantId
  | _ => True

section Others

variable {server : Postgres.Server} {bound : Nat} {s : Postgres} {ext : Ext} {r : Request}
  {tenantId : UUID}

/-- A deletion that reaches no row of the tenant leaves the tenant alone. -/
private theorem isolated_of_delete {types : ColumnTypes} {db db' : Db} {t : Table}
    {p : t.Row → Bool} (h : (Query.deleteAll t p).Effect types db db')
    (hkept : ∀ u, ∀ r ∈ db.rows u, u.tenant r = some tenantId → db.deleted t p u r = false) :
    Isolated tenantId db db' := by
  intro u
  rcases h with rfl | rfl
  · rfl
  · show ((db.rows u).filter _).filter _ = (db.rows u).filter _
    rw [List.filter_filter]
    apply List.filter_congr
    intro r hr
    -- only the tenant's own rows are compared, and none of them is deleted
    by_cases htenant : u.tenant r = some tenantId
    · simp [htenant, hkept u r hr htenant]
    · simp [htenant]

/-- The provider of a policy of the tenant is the tenant's. -/
theorem Apart.provider_tenant (h : Apart server bound s) {policy : AiModelPolicy}
    (hpolicy : policy ∈ s.db.rows .aiModelPolicies) {provider : AiProvider}
    (hprovider : provider ∈ s.db.rows .aiProviders) (hid : provider.id = policy.providerId) :
    provider.tenantId = policy.tenantId :=
  Option.some.inj (h.references .aiModelPolicies policy hpolicy
    ⟨"ai_model_policies_provider_id_fkey", .aiProviders, AiModelPolicy.providerId⟩
    (by simp [Table.references]) provider hprovider hid)

/-- The deletion of another tenant. -/
private theorem deleted_tenants_of_ne (h : Apart server bound s) {id : UUID} (hne : id ≠ tenantId)
    {u : Table} {row : u.Row} (hrow : row ∈ s.db.rows u) (htenant : u.tenant row = some tenantId) :
    s.db.deleted .tenants (rowAt .tenants id) u row = false := by
  -- the tenant is not among those that go
  have hids : (((s.db.rows .tenants).filter fun t => rowAt .tenants id t).map Tenant.id).contains
      tenantId = false := by
    rw [← Bool.not_eq_true, List.contains_iff_mem]
    intro hmem
    obtain ⟨tenant, htenant, hid⟩ := List.mem_map.mp hmem
    have hat : Tenant.id tenant = id := of_decide_eq_true (List.mem_filter.mp htenant).2
    exact hne (hat.symm.trans hid)
  -- so no row of it goes by its own columns
  have hdead : ∀ (v : Table) (x : v.Row), v.tenant x = some tenantId →
      ((if hv : v = .tenants then rowAt .tenants id (hv ▸ x) else false) ||
        (v.tenant x).any fun i =>
          (((s.db.rows .tenants).filter fun t => rowAt .tenants id t).map Tenant.id).contains i) =
        false := by
    intro v x hx
    rw [hx, Option.any_some, hids, Bool.or_false]
    split
    · rename_i hv
      subst hv
      exact decide_eq_false fun hid => hne (hid.symm.trans (Option.some.inj hx))
    · rfl
  simp only [Db.deleted, dif_pos]
  rw [Bool.or_eq_false_iff]
  refine ⟨hdead u row htenant, ?_⟩
  cases u with
  | aiModelPolicies =>
    -- the provider of the policy is the tenant's, so it stays as well
    dsimp only
    rw [← Bool.not_eq_true, List.contains_iff_mem]
    intro hmem
    obtain ⟨provider, hprovider, hid⟩ := List.mem_map.mp hmem
    obtain ⟨hprovider, hgone⟩ := List.mem_filter.mp hprovider
    have hptenant : some (AiProvider.tenantId provider) = some tenantId := by
      rw [h.provider_tenant hrow hprovider hid]
      exact htenant
    rw [hdead .aiProviders provider hptenant] at hgone
    cases hgone
  | _ => rfl

/-- The deletion of a provider of another tenant. -/
private theorem deleted_aiProviders_of_other (h : Apart server bound s) {id other : UUID}
    (hne : other ≠ tenantId) {u : Table} {row : u.Row} (hrow : row ∈ s.db.rows u)
    (htenant : u.tenant row = some tenantId) :
    s.db.deleted .aiProviders (rowIn .aiProviders id other) u row = false := by
  rw [← Bool.not_eq_true]
  intro hgone
  -- the provider that goes is another tenant's
  by_cases hself : u = .aiProviders
  · subst hself
    rw [Db.deleted_aiProviders_self] at hgone
    exact hne (Option.some.inj ((rowIn_eq_true.mp hgone).2.symm.trans htenant))
  · by_cases hpolicies : u = .aiModelPolicies
    · subst hpolicies
      -- a policy goes with its provider, which has the tenant of the policy
      obtain ⟨provider, hprovider, hwhere, hid⟩ := (Db.deleted_aiProviders _ _ _).mp hgone
      have hptenant : some provider.tenantId = some other := (rowIn_eq_true.mp hwhere).2
      rw [h.provider_tenant hrow hprovider hid] at hptenant
      exact hne (Option.some.inj (hptenant.symm.trans htenant))
    · rw [Db.deleted_aiProviders_of_ne _ _ hself hpolicies] at hgone
      cases hgone

/-- The deletion of another tenant's provider leaves the tenant alone. -/
private theorem isolated_deleteAiProvider (h : Apart server bound s) {tenantParam idParam : String}
    (hother : ext.uuidParse tenantParam ≠ some tenantId) :
    Isolated tenantId s.db
      ((deleteAiProvider ext tenantParam idParam).run (Postgres.exec server) s).2.db := by
  rcases deleteInTenant_effect server .aiProviders "invalid provider id" ext tenantParam idParam s
    with hsame | ⟨other, id, hparse, -, heffect⟩
  · rw [show ((deleteAiProvider ext tenantParam idParam).run (Postgres.exec server) s).2.db = s.db
      from hsame]
    exact fun _ => rfl
  · have hne : other ≠ tenantId := fun heq => hother (by rw [hparse, heq])
    exact isolated_of_delete heffect fun u row hrow htenant =>
      deleted_aiProviders_of_other h hne hrow htenant

/-- The deletion of another tenant leaves the tenant alone. -/
private theorem isolated_deleteTenant (h : Apart server bound s) {idParam : String}
    (hother : ext.uuidParse idParam ≠ some tenantId) :
    Isolated tenantId s.db ((deleteTenant ext idParam).run (Postgres.exec server) s).2.db := by
  unfold deleteTenant deleteById
  rw [run_bind_attempt]
  cases hid : parseID ext "invalid tenant id" idParam with
  | error response => exact fun _ => rfl
  | ok id =>
    have hne : id ≠ tenantId := fun heq => hother (by rw [parseID_eq_ok.mp hid, heq])
    have heffect := Postgres.exec_effect server (.deleteAll .tenants (rowAt .tenants id)) s
    have hisolated := isolated_of_delete heffect fun u row hrow htenant =>
      deleted_tenants_of_ne h hne hrow htenant
    dsimp only
    rw [run_bind, run_orFail]
    -- what is answered does not matter for the rows
    cases (Postgres.exec server (.deleteAll .tenants (rowAt .tenants id)) s).1 with
    | ok _ => exact hisolated
    | error err => exact hisolated

/-- A new tenant has a new id. -/
private theorem isolated_createRow {conflict : String}
    {row : Except Response (UUID → Time → Tenant)}
    (hkeyed : (createRow .tenants conflict row).Performs Query.Keyed) (h : Apart server bound s)
    (hmem : tenantId ∈ s.db.ids .tenants)
    (hbound : ((createRow .tenants conflict row).run (Postgres.exec server) s).2.executed ≤ bound) :
    Isolated tenantId s.db
      ((createRow .tenants conflict row).run (Postgres.exec server) s).2.db := by
  cases row with
  | error response => exact fun _ => rfl
  | ok row =>
    -- the handler executes the one insertion
    have hstate : ((createRow .tenants conflict (.ok row)).run (Postgres.exec server) s).2 =
        (Postgres.exec server (.insertOne .tenants row) s).2 := by
      unfold createRow
      rw [attempt_ok_bind, run_bind, run_orFail]
      cases (Postgres.exec server (.insertOne .tenants row) s).1 with
      | ok created => rfl
      | error err => rfl
    rw [hstate, Postgres.exec_executed] at hbound
    rw [hstate]
    rcases Postgres.exec_insertOne_cases (t := .tenants) server s row with
      ⟨-, -, hdb⟩ | ⟨new, -, -, hstored, hdb⟩
    · rw [hdb]
      exact fun _ => rfl
    · rw [hdb]
      intro u
      by_cases hu : u = .tenants
      · subst hu
        -- the new tenant has a fresh id
        have hid : Tenant.id new = (server.env s.executed).newId :=
          (Table.id_coerce (Db.stored_eq_ok.mp hstored).2.1).trans (hkeyed.1 _ _)
        have hne : Tenant.id new ≠ tenantId := by
          rintro rfl
          rw [hid] at hmem
          exact h.fresh s.executed le_rfl hbound .tenants hmem
        simp [Db.rowsOf, Table.tenant, hne]
      · simp only [Db.rowsOf, Db.setRows_rows_of_ne _ _ hu]

/-- A region belongs to no tenant. -/
theorem Query.Writes.spares_of_regions {write : Option Write} {β : Type} {q : Query β}
    (hq : q.Writes write) (hwrite : ∀ t, write = some (.insert t) ∨ write = some (.update t) ∨
      write = some (.delete t) → t = .regions) :
    q.Spares fun t row => t.tenant row = some tenantId := by
  -- regions belong to no tenant
  cases q with
  | selectOne t p => trivial
  | selectMany t p le limit offset => trivial
  | insertOne t row =>
    obtain rfl := hwrite t (.inl hq)
    exact fun id now => rfl
  | updateOne t p set =>
    obtain rfl := hwrite t (.inr (.inl hq))
    exact fun row now _ => ⟨rfl, rfl⟩
  | deleteAll t p =>
    obtain rfl := hwrite t (.inr (.inr hq))
    intro db u row hgone
    by_cases hu : u = .regions
    · subst hu
      rfl
    · rw [Db.deleted_of_ne db (by decide) (by decide) hu] at hgone
      cases hgone

/-- The requests of others leave the rows of the tenant alone. -/
theorem isolated_of_elsewhere (endpoint : Endpoint) (helse : endpoint.Elsewhere ext tenantId)
    (h : Apart server bound s) (hmem : tenantId ∈ s.db.ids .tenants)
    (hbound : ((endpoint.handler ext r).run (Postgres.exec server) s).2.executed ≤ bound) :
    Isolated tenantId s.db ((endpoint.handler ext r).run (Postgres.exec server) s).2.db := by
  -- by the kind of endpoint
  cases endpoint with
  | inTenant tenant endpoint =>
    by_cases hdelete : endpoint.write = some (.delete .aiProviders)
    · obtain ⟨id, rfl⟩ := endpoint.write_delete.2 hdelete
      exact isolated_deleteAiProvider h helse
    · exact isolated_of_under (endpoint.handler_performs ext r tenant) helse
        endpoint.write_delete.1 hdelete s
  | createTenant => exact isolated_createRow createTenant_keyed h hmem hbound
  | deleteTenant id => exact isolated_deleteTenant h helse
  | updateTenant id => exact isolated_of_under updateTenant_performs helse (by decide) (by decide) s
  | listTenants => exact isolated_of_reads listAll_performs s
  | getTenant id => exact isolated_of_reads getById_performs s
  | createRegion | listRegions | getRegion id | updateRegion id | deleteRegion id =>
    apply run_filter_rows (coerce_keeps_tenant server.types)
    apply (Endpoint.handler_performs _ ext r).mono
    intro β q hq
    exact hq.spares_of_regions (by simp [Endpoint.write])

end Others

/-! ## Runs -/

namespace Deployment

/-- Requests that are served one after the other are an interleaving. -/
theorem exists_interleave_eq_run (api : Deployment) (calls : List (Endpoint × Request)) :
    ∃ actions, (api.interleave actions).state = api.run calls := by
  induction calls using List.reverseRecOn with
  | nil => exact ⟨[], rfl⟩
  | append_singleton calls call ih =>
    obtain ⟨actions, hactions⟩ := ih
    obtain ⟨endpoint, r⟩ := call
    let serving := api.act (api.interleave actions) (.request endpoint r)
    let i := (api.interleave actions).running.length
    have hi : serving.running[i]? = some (handle api.ext api.oidcMode endpoint r) :=
      List.getElem?_concat_length
    obtain ⟨n, hn⟩ := Pool.exists_steps_run (Postgres.exec api.server) hi
    -- the request arrives, and then all of its statements run
    refine ⟨actions ++ .request endpoint r :: List.replicate n (.statement i), ?_⟩
    have hsteps : ∀ (m : Nat) (p : Serving),
        (List.replicate m (Action.statement i)).foldl api.act p =
          (List.replicate m i).foldl (fun p j => p.step (Postgres.exec api.server) j) p := by
      intro m
      induction m with
      | zero => exact fun p => rfl
      | succ m ih => exact fun p => ih _
    rw [interleave_append, List.foldl_cons, hsteps]
    show ((List.replicate n i).foldl _ serving).state = (calls ++ _).foldl api.step _
    rw [hn, List.foldl_append, List.foldl_cons, List.foldl_nil]
    show _ = api.step (api.run calls) (endpoint, r)
    rw [← hactions, step_eq_run]
    rfl

/-- The ids in use were given out. -/
theorem issued_interleave (api : Deployment) (actions : List Action) :
    ∀ t, ∀ k ∈ (api.interleave actions).state.db.keys t,
      ∃ m < (api.interleave actions).state.executed, (api.server.env m).newId = k.1 := by
  -- every key in the database was given out by some statement
  apply List.foldl_keeps (P := fun s : Serving => ∀ t, ∀ k ∈ s.state.db.keys t,
    ∃ m < s.state.executed, (api.server.env m).newId = k.1)
  · exact fun _ _ hk => nomatch hk
  · intro pre a post _ hpre t k hk
    have hkeyed := performing_interleave api (fun e r => e.handler_keyed api.ext r) pre
    have htenant := performing_interleave api (fun e r => e.handler_keepsTenant api.ext r) pre
    rcases act_cases api (api.interleave pre) a with hstate | ⟨i, β, q, c, -, hi, hstate⟩
    · rw [show (api.act (pre.foldl api.act ⟨⟨0, Db.empty⟩, []⟩) a).state = _ from hstate] at hk ⊢
      exact hpre t k hk
    · rw [show (api.act (pre.foldl api.act ⟨⟨0, Db.empty⟩, []⟩) a).state = _ from hstate] at hk ⊢
      rw [Postgres.exec_executed]
      rcases Postgres.mem_keys_exec (hkeyed.next hi).1 (htenant.next hi).1 hk with hk | hk
      · obtain ⟨m, hm, hid⟩ := hpre t k hk
        exact ⟨m, Nat.lt_succ_of_lt hm, hid⟩
      · exact ⟨_, Nat.lt_succ_self _, hk.symm⟩

/-- The request creates a policy and names a provider of another tenant in its URL. -/
def NamesForeignProvider (api : Deployment) (s : Postgres) : Endpoint × Request → Prop
  | (.inTenant tenant (.createAiModelPolicy provider), _) =>
    ∃ u : AiProvider, u ∈ s.db.rows .aiProviders ∧ api.ext.uuidParse provider = some u.id ∧
      api.ext.uuidParse tenant ≠ some u.tenantId
  | _ => False

/-- A policy for a foreign provider names one. -/
theorem CreatesForeignPolicy.names {api : Deployment} {s : Postgres} {call : Endpoint × Request}
    (h : api.CreatesForeignPolicy s call) : api.NamesForeignProvider s call := by
  obtain ⟨endpoint, r⟩ := call
  cases endpoint with
  | inTenant tenant endpoint =>
    cases endpoint with
    -- no other creation writes a policy
    | createAiModelPolicy provider =>
      obtain ⟨tenantId, providerId, req, -, htenant, hprovider, -, -, ⟨u, hu, hid, hne⟩, -⟩ := h
      refine ⟨u, hu, by rw [hprovider, hid], ?_⟩
      rw [htenant]
      exact fun heq => hne (Option.some.inj heq).symm
    | _ => exact h
  | _ => exact h

variable {api : Deployment} {calls : List (Endpoint × Request)} {bound : Nat}

/-- Between the requests of a run no reference leaves its tenant. -/
theorem apart_run
    (hids : ∀ m n, m < n → n < bound → (api.server.env m).newId ≠ (api.server.env n).newId)
    (hproviders : ∀ pre call post, calls = pre ++ call :: post →
      ¬ api.NamesForeignProvider (api.run pre) call)
    (hbound : (api.run calls).executed ≤ bound) : Apart api.server bound (api.run calls) := by
  obtain ⟨actions, hactions⟩ := exists_interleave_eq_run api calls
  have hpolicies := (policiesInTenant_iff api calls).mpr fun pre call post hsplit hforeign =>
    hproviders pre call post hsplit hforeign.names
  have hsound : Sound api.server bound (api.interleave actions).state :=
    (safe_interleave api actions hids).1
  have hissued := issued_interleave api actions
  have hconsistent := consistent_interleave api actions
  rw [hactions] at hsound hissued hconsistent
  refine ⟨hconsistent, hsound hbound, hpolicies calls (List.prefix_refl _), ?_⟩
  intro n hle hlt t hmem
  obtain ⟨row, hrow, hid⟩ := Db.mem_ids.mp hmem
  -- an id in use was given by an earlier statement
  obtain ⟨m, hm, hissuedId⟩ := hissued t _ (List.mem_map.mpr ⟨row, hrow, rfl⟩)
  exact hids m n (hm.trans_le hle) hlt (hissuedId.trans hid)

/-- Statements are only added. -/
theorem executed_step (api : Deployment) (s : Postgres) (call : Endpoint × Request) :
    s.executed ≤ (api.step s call).executed := by
  obtain ⟨endpoint, r⟩ := call
  rw [step_eq_run]
  apply (handle_performs (endpoint.handler_keyed api.ext r)).run (P := fun t : Postgres =>
    s.executed ≤ t.executed) _ le_rfl
  intro β q t _ ht
  rw [Postgres.exec_executed]
  omega

/-- A run that goes on. -/
theorem run_append (api : Deployment) (pre calls : List (Endpoint × Request)) :
    api.run (pre ++ calls) = calls.foldl api.step (api.run pre) := List.foldl_append ..

/-- A longer run has executed no fewer statements. -/
private theorem executed_run_append (api : Deployment) (pre calls : List (Endpoint × Request)) :
    (api.run pre).executed ≤ (api.run (pre ++ calls)).executed := by
  rw [run_append]
  apply List.foldl_keeps (P := fun s : Postgres => (api.run pre).executed ≤ s.executed) _ _ le_rfl
  intro _ call _ _ hpre
  exact hpre.trans (executed_step api _ call)

/-- The answer of a service that holds the rows of `db` only. The statements of the request
    are counted from the given number on, so that the ids and times are those of the shared
    service. -/
def alone (api : Deployment) (db : Db) (request : Nat × (Endpoint × Request)) : Response × Db :=
  let answered := api.serve ⟨request.1, db⟩ request.2
  (answered.1, answered.2.db)

/-- What a tenant sees of the requests that are served from `s` on: its own, each with the
    number of its first statement, and the answers to them. -/
def seen (api : Deployment) (tenantId : UUID) (s : Postgres) (calls : List (Endpoint × Request)) :
    List ((Nat × (Endpoint × Request)) × Response) :=
  observe api.serve (fun call => call.1.isBelow api.ext tenantId)
    (fun s call => (s.executed, call)) s calls

variable {s : Postgres} {tenantId : UUID}

/-- The request of the tenant, served from its own rows. -/
private theorem serve_view {call : Endpoint × Request}
    (h : (handle api.ext api.oidcMode call.1 call.2).Commutes (Postgres.exec api.server)
      (Postgres.view tenantId) s) :
    api.serve (s.view tenantId) call =
      ((api.serve s call).1, (api.serve s call).2.view tenantId) := by
  unfold serve
  rw [show (handle api.ext api.oidcMode call.1 call.2).run (Postgres.exec api.server)
    (s.view tenantId) = _ from h]
  cases (handle api.ext api.oidcMode call.1 call.2).run (Postgres.exec api.server) s with
  | mk result s' =>
    cases result with
    | ok response => rfl
    | error response => rfl

/-- A request that its guard lets through, and one that it does not. -/
private theorem handle_commutes {endpoint : Endpoint} {r : Request}
    (h : middlewares api.oidcMode r endpoint = .ok () →
      (endpoint.handler api.ext r).Commutes (Postgres.exec api.server) (Postgres.view tenantId) s) :
    (handle api.ext api.oidcMode endpoint r).Commutes (Postgres.exec api.server)
      (Postgres.view tenantId) s :=
  Commutes.bind_attempt fun _ hpass => h hpass

/-- A request of the tenant. -/
private theorem serve_below (hids : ∀ m n, m < n → n < bound →
      (api.server.env m).newId ≠ (api.server.env n).newId) (h : Apart api.server bound s)
    {call : Endpoint × Request} (hbelow : call.1.isBelow api.ext tenantId = true)
    (hprovider : ¬ api.NamesForeignProvider s call) (hbound : (api.step s call).executed ≤ bound) :
    api.serve (s.view tenantId) call =
      ((api.serve s call).1, (api.serve s call).2.view tenantId) := by
  obtain ⟨endpoint, r⟩ := call
  apply serve_view
  apply handle_commutes
  intro hpass
  rw [step_of_admitted hpass] at hbound
  cases endpoint with
  | inTenant tenant endpoint =>
    have hparse : api.ext.uuidParse tenant = some tenantId := of_decide_eq_true hbelow
    refine endpoint.handler_commutes hids hparse ?_ h hbound
    rintro provider rfl u hu hid
    -- a provider named in the path would be that of another tenant
    by_contra hne
    exact hprovider ⟨u, hu, hid, by rw [hparse]; exact fun heq => hne (Option.some.inj heq).symm⟩
  | _ => cases hbelow

/-- A request of others. -/
private theorem view_elsewhere (h : Apart api.server bound s) (hmem : tenantId ∈ s.db.ids .tenants)
    {call : Endpoint × Request} (helse : call.1.Elsewhere api.ext tenantId)
    (hbound : (api.step s call).executed ≤ bound) :
    (api.step s call).db.view tenantId = s.db.view tenantId := by
  obtain ⟨endpoint, r⟩ := call
  -- a request refused by the middlewares does nothing
  have hisolated : Isolated tenantId s.db (api.step s (endpoint, r)).db := by
    cases hpass : middlewares api.oidcMode r endpoint with
    | error response =>
      rw [step_of_rejected hpass]
      exact fun _ => rfl
    | ok _ =>
      rw [step_of_admitted hpass] at hbound ⊢
      exact isolated_of_elsewhere endpoint helse h hmem hbound
  have hrows : ((api.step s (endpoint, r)).db.view tenantId).rows = (s.db.view tenantId).rows := by
    funext t
    exact hisolated t
  -- no handler writes the outbox
  have houtbox : (api.step s (endpoint, r)).db.eventOutbox = s.db.eventOutbox := by
    rw [step_eq_run]
    apply run_keeps_db (I := fun db => db.eventOutbox = s.db.eventOutbox) _
      (handle_performs (endpoint.handler_keyed api.ext r)) s rfl
    intro β q db db' _ heffect hdb
    rw [heffect.eventOutbox_eq, hdb]
  show (⟨((api.step s (endpoint, r)).db.view tenantId).rows, _⟩ : Db) = _
  rw [hrows, houtbox]
  rfl

/-- No endpoint below a tenant writes the tenants themselves. -/
private theorem rows_tenants_of_below (endpoint : TenantEndpoint) (ext : Ext)
    (server : Postgres.Server) (r : Request) (tenant : String) (s : Postgres) :
    ((endpoint.handler ext r tenant).run (Postgres.exec server) s).2.db.rows .tenants =
      s.db.rows .tenants := by
  -- an endpoint below a tenant writes no row of `tenants`
  have hspares : (endpoint.handler ext r tenant).Performs
      (Query.Spares fun t _ => decide (t = .tenants)) := by
    apply (endpoint.handler_performs ext r tenant).mono
    rintro β q ⟨_, -, hwrites, -⟩
    have hne : ∀ t, endpoint.write = some (.insert t) ∨ endpoint.write = some (.update t) ∨
        endpoint.write = some (.delete t) → t ≠ .tenants := by
      cases endpoint <;> simp [TenantEndpoint.write]
    cases q with
    | selectOne t p => trivial
    | selectMany t p le limit offset => trivial
    | insertOne t row => exact fun _ _ => decide_eq_false (hne t (.inl hwrites))
    | updateOne t p set =>
      have ht := decide_eq_false (hne t (.inr (.inl hwrites)))
      exact fun _ _ _ => ⟨ht, ht⟩
    | deleteAll t p =>
      have ht := hne t (.inr (.inr hwrites))
      intro db u row hgone
      apply decide_eq_false
      rintro rfl
      by_cases hproviders : t = .aiProviders
      · subst hproviders
        rw [Db.deleted_aiProviders_of_ne _ _ (by decide) (by decide)] at hgone
        cases hgone
      · rw [Db.deleted_of_ne _ ht hproviders (Ne.symm ht)] at hgone
        cases hgone
  have hrows : (((endpoint.handler ext r tenant).run (Postgres.exec server) s).2.db.rows
      .tenants).filter (fun _ => decide (Table.tenants = .tenants)) =
      (s.db.rows .tenants).filter fun _ => decide (Table.tenants = .tenants) :=
    run_filter_rows (fun _ _ _ _ => rfl) hspares s .tenants
  simpa using hrows

/-- The tenant stays while neither the request of another one nor its own deletes it. -/
theorem mem_ids_tenants_step (h : Apart api.server bound s) (hmem : tenantId ∈ s.db.ids .tenants)
    {call : Endpoint × Request}
    (hcall : call.1.isBelow api.ext tenantId = true ∨ call.1.Elsewhere api.ext tenantId)
    (hbound : (api.step s call).executed ≤ bound) :
    tenantId ∈ (api.step s call).db.ids .tenants := by
  -- a request below the tenant leaves the table of tenants
  rcases hcall with hbelow | helse
  · obtain ⟨endpoint, r⟩ := call
    cases endpoint with
    | inTenant tenant endpoint =>
      cases hpass : middlewares api.oidcMode r (.inTenant tenant endpoint) with
      | error response => rwa [step_of_rejected hpass]
      | ok _ =>
        have hrows := rows_tenants_of_below endpoint api.ext api.server r tenant s
        rw [step_of_admitted hpass]
        show tenantId ∈ List.map _ _
        rw [show ((Endpoint.inTenant tenant endpoint).handler api.ext r) =
          endpoint.handler api.ext r tenant from rfl, hrows]
        exact hmem
    | _ => cases hbelow
  · -- a request elsewhere leaves the tenant's view, where its own row stands
    have hview : tenantId ∈ (s.db.view tenantId).ids .tenants :=
      Db.mem_view_ids (Db.mem_keys_tenants.mpr hmem)
    rw [← view_elsewhere h hmem helse hbound] at hview
    obtain ⟨tenant, htenant, hid⟩ := Db.mem_ids.mp hview
    exact Db.mem_ids.mpr ⟨tenant, (Db.mem_view.mp htenant).1, hid⟩

/-- While no request names a provider of another tenant for a policy, a tenant sees of the
    shared service what it would see of one of its own: the same answers, and in the end the
    same rows. -/
theorem seen_eq_alone (api : Deployment) (pre calls : List (Endpoint × Request)) {tenantId : UUID}
    (hids : ∀ m n, m < n → n < (api.run (pre ++ calls)).executed →
      (api.server.env m).newId ≠ (api.server.env n).newId)
    (hproviders : ∀ before call after, pre ++ calls = before ++ call :: after →
      ¬ api.NamesForeignProvider (api.run before) call)
    (htenant : tenantId ∈ (api.run pre).db.ids .tenants)
    (hcalls : ∀ call ∈ calls, call.1.isBelow api.ext tenantId = true ∨
      call.1.Elsewhere api.ext tenantId) :
    let seen := api.seen tenantId (api.run pre) calls
    seen.map Prod.snd = answers api.alone ((api.run pre).db.view tenantId) (seen.map Prod.fst) ∧
      (api.run (pre ++ calls)).db.view tenantId =
        (seen.map Prod.fst).foldl (fun db request => (api.alone db request).2)
          ((api.run pre).db.view tenantId) := by
  -- what is known where a request of the run is served
  have hpoint : ∀ before call after, calls = before ++ call :: after →
      Apart api.server (api.run (pre ++ calls)).executed (api.run (pre ++ before)) ∧
        (api.step (api.run (pre ++ before)) call).executed ≤ (api.run (pre ++ calls)).executed ∧
        ¬ api.NamesForeignProvider (api.run (pre ++ before)) call := by
    intro before call after hsplit
    have hall : pre ++ calls = (pre ++ before) ++ call :: after := by rw [hsplit, List.append_assoc]
    have hstep : (api.step (api.run (pre ++ before)) call).executed ≤
        (api.run (pre ++ calls)).executed := by
      have hnext : api.step (api.run (pre ++ before)) call =
          api.run ((pre ++ before) ++ [call]) := by
        rw [run_append api (pre ++ before)]
        rfl
      rw [hnext, show pre ++ calls = ((pre ++ before) ++ [call]) ++ after by rw [hall]; simp]
      exact executed_run_append api _ _
    refine ⟨apart_run hids (fun b c a h => hproviders b c (a ++ call :: after) ?_)
      ((executed_step api _ call).trans hstep), hstep, hproviders _ _ _ hall⟩
    rw [hall, h]
    simp
  -- the fold is a longer run
  have hstate : ∀ before, before.foldl (fun s call => (api.serve s call).2) (api.run pre) =
      api.run (pre ++ before) := fun before => (run_append api pre before).symm
  -- the tenant stays there all along
  have hmem : ∀ before after, calls = before ++ after →
      tenantId ∈ (api.run (pre ++ before)).db.ids .tenants := by
    intro before
    induction before using List.reverseRecOn with
    | nil =>
      intro _ _
      rw [List.append_nil]
      exact htenant
    | append_singleton before call ih =>
      intro after hsplit
      have hsplit : calls = before ++ call :: after := by rw [hsplit]; simp
      obtain ⟨hapart, hbound, -⟩ := hpoint before call after hsplit
      rw [← List.append_assoc, run_append api (pre ++ before)]
      exact mem_ids_tenants_step hapart (ih _ hsplit)
        (hcalls call (by rw [hsplit]; simp)) hbound
  refine (observe_eq (f := fun s : Postgres => s.db.view tenantId) calls
    (api.run pre) ?_ ?_).imp_right fun h => ?_
  · intro before call after hsplit hbelow
    obtain ⟨hapart, hbound, hprovider⟩ := hpoint before call after hsplit
    have hserve := serve_below hids hapart hbelow hprovider hbound
    rw [hstate]
    show ((api.serve ((api.run (pre ++ before)).view tenantId) call).1,
      (api.serve ((api.run (pre ++ before)).view tenantId) call).2.db) = _
    rw [hserve]
    rfl
  · intro before call after hsplit hother
    obtain ⟨hapart, hbound, -⟩ := hpoint before call after hsplit
    have helse := (hcalls call (by rw [hsplit]; simp)).resolve_left (by simp [hother])
    rw [hstate]
    exact view_elsewhere hapart (hmem before _ hsplit) helse hbound
  · rw [← hstate]
    exact h

/-- Two tenants, one after the other. -/
def twoTenantsCreated : List (Endpoint × Request) :=
  [(.createTenant, jsonRequest [("name", .str "Acme"), ("slug", .str "acme")]),
    (.createTenant, jsonRequest [("name", .str "Globex"), ("slug", .str "globex")])]

/-- Both tenants create an upstream of one name, and the first one lists its own. -/
def sameNameInBoth : List (Endpoint × Request) :=
  [(.inTenant "2" .createUpstream,
      jsonRequest [("name", .str "api"), ("url", .str "https://globex.example")]),
    (.inTenant "1" .createUpstream,
      jsonRequest [("name", .str "api"), ("url", .str "https://acme.example")]),
    (.inTenant "1" .listUpstreams, jsonRequest [])]

theorem seen_sameNameInBoth :
    let seen := counting.seen 1 (counting.run twoTenantsCreated) sameNameInBoth
    seen.map Prod.snd = answers counting.alone ((counting.run twoTenantsCreated).db.view 1)
        (seen.map Prod.fst) ∧
      seen.map (fun request => request.2.status) = [201, 200] := by
  -- five statements, each with an id of its own
  have hexecuted : (counting.run (twoTenantsCreated ++ sameNameInBoth)).executed = 5 := by decide
  have hids : ∀ n < 5, ∀ m < n, (counting.server.env m).newId ≠ (counting.server.env n).newId := by
    decide
  have hcalls : ∀ call ∈ twoTenantsCreated ++ sameNameInBoth, ∀ s,
      ¬ counting.NamesForeignProvider s call := by
    intro call hcall s
    simp only [twoTenantsCreated, sameNameInBoth, List.cons_append, List.nil_append, List.mem_cons,
      List.not_mem_nil, or_false] at hcall
    rcases hcall with rfl | rfl | rfl | rfl | rfl <;> exact id
  have htenant : (1 : UUID) ∈ (counting.run twoTenantsCreated).db.ids .tenants := by decide
  refine ⟨(seen_eq_alone counting twoTenantsCreated sameNameInBoth ?_ ?_ htenant ?_).1, by decide⟩
  · intro m n hmn hn
    rw [hexecuted] at hn
    exact hids n hn m hmn
  · intro before call after hsplit
    exact hcalls call (by rw [hsplit]; simp) _
  · intro call hcall
    simp only [sameNameInBoth, List.mem_cons, List.not_mem_nil, or_false] at hcall
    rcases hcall with rfl | rfl | rfl
    · exact .inr (by simp only [Endpoint.Elsewhere]; decide)
    · exact .inl (by decide)
    · exact .inl (by decide)

end Deployment

end Barqium.Native.ControlApi
