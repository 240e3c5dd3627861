import Barqium.Spec.ConcurrentCorrect

/-!
# Tenants of model policies and providers

The schema lets a model policy reference any provider, and `createAiModelPolicy` takes
the provider from the URL without looking it up, unlike the handlers of routes. No other
endpoint can make a policy point across tenants.

## Key results

- `Deployment.policiesInTenant_iff`: when every policy references a provider of its tenant
  in every state of a run
-/

namespace Barqium.Native.ControlApi

open Program

namespace Db

/-- Every model policy references a provider of its own tenant. -/
def PoliciesInTenant (db : Db) : Prop :=
  ∀ p : AiModelPolicy, p ∈ db.rows .aiModelPolicies →
    ∃ u : AiProvider, u ∈ db.rows .aiProviders ∧ u.id = p.providerId ∧ u.tenantId = p.tenantId

end Db

/-- The statement stores a policy that references a provider of another tenant. -/
def Query.StoresForeignPolicy (server : Postgres.Server) (s : Postgres) :
    {β : Type} → Query β → Prop
  | _, .insertOne .aiModelPolicies row =>
    (server.env s.executed).fault = none ∧ ∃ p : AiModelPolicy,
      s.db.stored server.types .aiModelPolicies (s.db.rows .aiModelPolicies)
        (row (server.env s.executed).newId (server.env s.executed).now) = .ok p ∧
      ∃ u : AiProvider, u ∈ s.db.rows .aiProviders ∧ u.id = p.providerId ∧ u.tenantId ≠ p.tenantId
  | _, _ => False

/-- A policy keeps its provider. -/
def Query.KeepsProvider : {β : Type} → Query β → Prop
  | _, .updateOne .aiModelPolicies _ set =>
    ∀ now r, AiModelPolicy.providerId (set now r) = AiModelPolicy.providerId r
  | _, _ => True

/-! ## Statements -/

/-- A policy with the provider and the tenant of one from before, while every provider is
    still there. -/
theorem Db.PoliciesInTenant.of_keys {db db' : Db} (h : db.PoliciesInTenant)
    (hkeys : db.keys .aiProviders ⊆ db'.keys .aiProviders) {p : AiModelPolicy}
    (hp : ∃ q : AiModelPolicy, q ∈ db.rows .aiModelPolicies ∧ q.providerId = p.providerId ∧
      q.tenantId = p.tenantId) :
    ∃ u : AiProvider,
      u ∈ db'.rows .aiProviders ∧ u.id = p.providerId ∧ u.tenantId = p.tenantId := by
  obtain ⟨q, hq, hprovider, htenant⟩ := hp
  obtain ⟨u, hu, hid, hutenant⟩ := h q hq
  have hkey : (p.providerId, some p.tenantId) ∈ db.keys .aiProviders :=
    Db.mem_keys.mpr ⟨u, hu, hid.trans hprovider, congrArg some (hutenant.trans htenant)⟩
  obtain ⟨u', hu', hid', htenant'⟩ := Db.mem_keys.mp (hkeys hkey)
  exact ⟨u', hu', hid', Option.some.inj htenant'⟩

/-- The provider a row is for, in the table whose rows have one. -/
def Table.provider : (t : Table) → t.Row → Option UUID
  | .aiModelPolicies, (p : AiModelPolicy) => some p.providerId
  | _, _ => none

/-- Storing a policy keeps its provider. -/
private theorem providerId_coerce {types : ColumnTypes} {row r : AiModelPolicy}
    (h : Table.aiModelPolicies.coerce types row = .ok r) : r.providerId = row.providerId :=
  Option.some.inj (Table.coerce_keeps Table.provider (fun _ _ => rfl) (fun _ _ => rfl) h)

namespace Postgres

variable {server : Server} {s : Postgres}

/-- An insertion that stores no policy for a foreign provider. -/
private theorem policiesInTenant_insertOne {t : Table} {row : UUID → Time → t.Row}
    (hforeign : ¬ (Query.insertOne t row).StoresForeignPolicy server s)
    (h : s.db.PoliciesInTenant) :
    (exec server (.insertOne t row) s).2.db.PoliciesInTenant := by
  intro p hp
  -- a new policy, or a row of another table
  by_cases ht : t = .aiModelPolicies
  · subst ht
    rcases mem_rows_insertOne hp with hp | ⟨hfault, hstored⟩
    · exact h.of_keys (keys_subset_insertOne row .aiProviders) ⟨p, hp, rfl, rfl⟩
    · -- the provider exists, and it is not another tenant's
      have hrefs := (Db.violation_eq_none.mp (Db.stored_eq_ok.mp hstored).2.2).2.2
      obtain ⟨u, hu, hid⟩ := hrefs ⟨"ai_model_policies_provider_id_fkey", .aiProviders,
        AiModelPolicy.providerId⟩ (by simp [Table.references])
      refine ⟨u, ?_, hid, ?_⟩
      · rw [rows_insertOne_of_ne row (by decide)]
        exact hu
      · by_contra hne
        exact hforeign ⟨hfault, p, hstored, u, hu, hid, hne⟩
  · rw [rows_insertOne_of_ne row (Ne.symm ht)] at hp
    exact h.of_keys (keys_subset_insertOne row .aiProviders) ⟨p, hp, rfl, rfl⟩

/-- A policy after an update has the provider and the tenant of one from before. -/
private theorem exists_policy_updateOne {t : Table} {p : t.Row → Bool} {set : Time → t.Row → t.Row}
    (htenant : (Query.updateOne t p set).KeepsTenant)
    (hprovider : (Query.updateOne t p set).KeepsProvider) {policy : AiModelPolicy}
    (hpolicy : policy ∈ (exec server (.updateOne t p set) s).2.db.rows .aiModelPolicies) :
    ∃ q : AiModelPolicy, q ∈ s.db.rows .aiModelPolicies ∧ q.providerId = policy.providerId ∧
      q.tenantId = policy.tenantId := by
  -- an update of a policy keeps its tenant and its provider
  by_cases ht : t = .aiModelPolicies
  · subst ht
    rcases mem_rows_updateOne hpolicy with hpolicy | ⟨old, hmem, hold, hstored⟩
    · exact ⟨policy, hpolicy, rfl, rfl⟩
    · have hcoerce := (Db.stored_eq_ok.mp hstored).2.1
      refine ⟨old, hmem, ?_, ?_⟩
      · rw [providerId_coerce hcoerce]
        exact (hprovider _ old).symm
      · obtain ⟨tenantId, htenant⟩ := htenant
        have hold := htenant old (server.env s.executed).now hold
        have hnew := (Table.tenant_coerce hcoerce).trans hold.2
        exact Option.some.inj (hold.1.trans hnew.symm)
  · rw [rows_updateOne_of_ne p set (Ne.symm ht)] at hpolicy
    exact ⟨policy, hpolicy, rfl, rfl⟩

/-- The deletion of a provider cascades to its policies. -/
private theorem policiesInTenant_deleteAll {t : Table} {p : t.Row → Bool}
    (h : s.db.PoliciesInTenant) :
    (exec server (.deleteAll t p) s).2.db.PoliciesInTenant := by
  rcases exec_effect server (.deleteAll t p) s with hdb | hdb
  · rwa [hdb]
  · rw [hdb]
    intro policy hpolicy
    obtain ⟨hmem, hkept⟩ := List.mem_filter.mp hpolicy
    obtain ⟨u, hu, hid, hutenant⟩ := h policy hmem
    refine ⟨u, List.mem_filter.mpr ⟨hu, ?_⟩, hid, hutenant⟩
    cases hgone : s.db.deleted t p .aiProviders u with
    | false => rfl
    | true =>
      -- then the policy would be gone too
      rw [Db.deleted_policy hu hgone hid] at hkept
      cases hkept

/-- A statement that stores no foreign policy keeps all policies in their tenants. -/
theorem policiesInTenant_exec {β : Type} {q : Query β} (hkeyed : q.Keyed)
    (htenant : q.KeepsTenant) (hprovider : q.KeepsProvider)
    (hforeign : ¬ q.StoresForeignPolicy server s) (h : s.db.PoliciesInTenant) :
    (exec server q s).2.db.PoliciesInTenant := by
  cases q with
  | insertOne t row => exact policiesInTenant_insertOne hforeign h
  | updateOne t p set =>
    intro policy hpolicy
    apply h.of_keys _ (exists_policy_updateOne htenant hprovider hpolicy)
    -- an update leaves the providers and their tenants
    rw [keys_updateOne hkeyed htenant]
    exact fun _ hk => hk
  | selectOne t p => rwa [exec_selectOne_db]
  | selectMany t p le limit offset => rwa [exec_selectMany_db]
  | deleteAll t p => exact policiesInTenant_deleteAll h

/-- The provider of the new policy is the only one with its id. -/
private theorem not_policiesInTenant_exec {β : Type} {q : Query β} (hids : s.db.IdsNodup)
    (h : q.StoresForeignPolicy server s) : ¬ (exec server q s).2.db.PoliciesInTenant := by
  intro hdb
  -- only an insertion stores a foreign policy
  cases q with
  | insertOne t row =>
    cases t with
    | aiModelPolicies =>
      obtain ⟨hfault, p, hstored, u, hu, hid, hne⟩ := h
      rw [exec_insertOne_ok hfault hstored] at hdb
      obtain ⟨u', hu', hid', htenant'⟩ := hdb p (by simp)
      rw [Db.setRows_rows_of_ne _ _ (by decide)] at hu'
      have hkey : (u.id, some u.tenantId) ∈ s.db.keys .aiProviders :=
        List.mem_map.mpr ⟨u, hu, rfl⟩
      have hkey' : (u'.id, some u'.tenantId) ∈ s.db.keys .aiProviders :=
        List.mem_map.mpr ⟨u', hu', rfl⟩
      have htenant := hids.tenant_eq hkey hkey' (hid.trans hid'.symm)
      exact hne ((Option.some.inj htenant).trans htenant')
    | _ => exact h
  | _ => exact h

end Postgres

/-! ## Handlers -/

/-- The row that the creation of a policy inserts. -/
def newPolicy (tenantId providerId : UUID) (req : CreateAiModelPolicyRequest) (id : UUID)
    (now : Time) : AiModelPolicy where
  id := id
  tenantId := tenantId
  providerId := providerId
  model := req.model
  maxTokensPerRequest := positiveOr 4096 req.maxTokensPerRequest
  budgetUsdPerDay := req.budgetUsdPerDay
  fallbackModel := req.fallbackModel
  enabled := req.enabled.getD true
  createdAt := now
  updatedAt := now

/-- A new policy is stored with the provider and the tenant of its request. -/
private theorem stored_newPolicy {types : ColumnTypes} {db : Db} {others : List AiModelPolicy}
    {tenantId providerId id : UUID} {req : CreateAiModelPolicyRequest} {now : Time}
    {p : AiModelPolicy}
    (h : db.stored types .aiModelPolicies others (newPolicy tenantId providerId req id now) =
      .ok p) :
    p.providerId = providerId ∧ p.tenantId = tenantId := by
  have hcoerce := (Db.stored_eq_ok.mp h).2.1
  exact ⟨providerId_coerce hcoerce, Option.some.inj (Table.tenant_coerce hcoerce)⟩

section Create

variable {ext : Ext} {r : Request} {tenant provider : String} {tenantId providerId : UUID}
  {req : CreateAiModelPolicyRequest}

/-- A row that is built from the request alone is created by a single statement. -/
private theorem createInTenant_of_ok {t : Table} {conflict : String}
    {row : UUID → Except Response (UUID → Time → t.Row)} {row' : UUID → Time → t.Row}
    (htenant : ext.uuidParse tenant = some tenantId) (hrow : row tenantId = .ok row') :
    ∃ k, createInTenant t conflict ext tenant (fun tenantId => attempt (row tenantId)) =
        .call (.insertOne t row') k ∧ ∀ b, ∃ result, k b = .done result := by
  have hparse : parseTenantID ext tenant = .ok tenantId := parseID_eq_ok.mpr htenant
  unfold createInTenant
  rw [hparse, attempt_ok_bind]
  dsimp only
  rw [hrow, attempt_ok_bind]
  refine ⟨_, rfl, fun b => ?_⟩
  cases b with
  | ok created => exact ⟨_, rfl⟩
  | error err => exact ⟨_, rfl⟩

/-- A valid request inserts its policy, whoever owns the provider, and answers. -/
theorem createAiModelPolicy_of_valid (htenant : ext.uuidParse tenant = some tenantId)
    (hprovider : ext.uuidParse provider = some providerId)
    (hreq : decodeBody CreateAiModelPolicyRequest.set {} r = .ok req) (hmodel : req.model ≠ "") :
    ∃ k, createAiModelPolicy ext r tenant provider =
        .call (.insertOne .aiModelPolicies (newPolicy tenantId providerId req)) k ∧
      ∀ b, ∃ result, k b = .done result := by
  apply createInTenant_of_ok htenant
  have hparse : parseProviderID ext provider = .ok providerId := parseID_eq_ok.mpr hprovider
  have hrequire : require (req.model ≠ "") (writeError 422 "model is required") = .ok () := by
    simp [require, hmodel]
  simp only [hparse, hreq, bind, Except.bind, hrequire]
  rfl

/-- A request that does not insert a policy is rejected. -/
theorem createAiModelPolicy_cases (ext : Ext) (r : Request) (tenant provider : String) :
    (∃ result, createAiModelPolicy ext r tenant provider = .done result) ∨
      ∃ tenantId providerId req, ext.uuidParse tenant = some tenantId ∧
        ext.uuidParse provider = some providerId ∧
        decodeBody CreateAiModelPolicyRequest.set {} r = .ok req ∧ req.model ≠ "" := by
  unfold createAiModelPolicy createInTenant
  -- the checks in their order
  cases htenant : parseTenantID ext tenant with
  | error response => exact .inl ⟨_, rfl⟩
  | ok tenantId =>
    cases hprovider : parseProviderID ext provider with
    | error response => exact .inl ⟨_, rfl⟩
    | ok providerId =>
      cases hreq : decodeBody CreateAiModelPolicyRequest.set {} r with
      | error response => exact .inl ⟨_, rfl⟩
      | ok req =>
        by_cases hmodel : req.model = ""
        · left
          have hrequire : require (req.model ≠ "") (writeError 422 "model is required") =
              .error (writeError 422 "model is required") := by simp [require, hmodel]
          simp only [bind, Except.bind, hrequire]
          exact ⟨_, rfl⟩
        · exact .inr ⟨tenantId, providerId, req, parseID_eq_ok.mp htenant,
            parseID_eq_ok.mp hprovider, rfl, hmodel⟩

end Create

/-- A patch keeps the provider of a policy. -/
private theorem updateAiModelPolicy_keepsProvider {ext : Ext} {r : Request}
    {tenant policy : String} :
    (updateAiModelPolicy ext r tenant policy).Performs Query.KeepsProvider := by
  apply Performs.bind_attempt
  intro tenantId _
  apply Performs.bind_attempt
  intro id _
  apply Performs.bind (orFail_performs trivial)
  intro existing
  -- the patch sets neither the provider nor the tenant
  refine Performs.bind_returns (Q := fun set => ∀ now r,
    AiModelPolicy.providerId (set now r) = AiModelPolicy.providerId r) ?_ ?_ ?_
  · trivial
  · apply Returns.attempt_bind
    intro req now row
    rfl
  · intro set hset
    apply Performs.bind (orFail_performs hset)
    intro updated
    exact Performs.pure _

/-- A statement that patches no policy does. -/
theorem Query.Writes.keepsProvider {write : Option Write} {β : Type} {q : Query β}
    (h : q.Writes write) (hupdate : write ≠ some (.update .aiModelPolicies)) :
    q.KeepsProvider := by
  cases q with
  | updateOne t p set =>
    cases t with
    | aiModelPolicies => exact absurd h hupdate
    | _ => trivial
  | _ => trivial

/-- Whatever the endpoint, no policy changes its provider. -/
theorem Endpoint.handler_keepsProvider (endpoint : Endpoint) (ext : Ext) (r : Request) :
    (endpoint.handler ext r).Performs Query.KeepsProvider := by
  have hother : ∀ endpoint : Endpoint, endpoint.write ≠ some (.update .aiModelPolicies) →
      (endpoint.handler ext r).Performs Query.KeepsProvider := fun endpoint hupdate =>
    (endpoint.handler_performs ext r).mono fun _ hq => hq.keepsProvider hupdate
  cases endpoint with
  | inTenant tenant endpoint =>
    cases endpoint with
    | updateAiModelPolicy provider policy => exact updateAiModelPolicy_keepsProvider
    | _ => exact hother _ nofun
  | _ => exact hother _ nofun

/-- A statement that creates no policy stores no foreign one. -/
theorem Query.Writes.not_storesForeignPolicy {server : Postgres.Server} {s : Postgres}
    {write : Option Write} {β : Type} {q : Query β} (h : q.Writes write)
    (hinsert : write ≠ some (.insert .aiModelPolicies)) : ¬ q.StoresForeignPolicy server s := by
  intro hforeign
  cases q with
  | insertOne t row =>
    cases t with
    | aiModelPolicies => exact hinsert h
    | _ => exact hforeign
  | _ => exact hforeign

/-! ## Runs -/

namespace Deployment

variable {api : Deployment} {s : Postgres} {endpoint : Endpoint} {r : Request}

/-- The request creates a policy under a provider that belongs to another tenant than the
    one in its URL, and neither a check nor the database rejects it. -/
def CreatesForeignPolicy (api : Deployment) (s : Postgres) : Endpoint × Request → Prop
  | (.inTenant tenant (.createAiModelPolicy provider), r) =>
    ∃ tenantId providerId req,
      middlewares api.oidcMode r (.inTenant tenant (.createAiModelPolicy provider)) = .ok () ∧
      api.ext.uuidParse tenant = some tenantId ∧ api.ext.uuidParse provider = some providerId ∧
      decodeBody CreateAiModelPolicyRequest.set {} r = .ok req ∧ req.model ≠ "" ∧
      (∃ u : AiProvider, u ∈ s.db.rows .aiProviders ∧ u.id = providerId ∧ u.tenantId ≠ tenantId) ∧
      (api.server.env s.executed).fault = none ∧
      ∃ p, s.db.stored api.server.types .aiModelPolicies (s.db.rows .aiModelPolicies)
        (newPolicy tenantId providerId req (api.server.env s.executed).newId
          (api.server.env s.executed).now) = .ok p
  | _ => False

/-- A request runs the middlewares and its handler. -/
theorem step_eq_run : api.step s (endpoint, r) =
    ((handle api.ext api.oidcMode endpoint r).run (Postgres.exec api.server) s).2 := by
  unfold step serve
  split <;> rename_i hrun <;> rw [hrun]

/-- A request that creates no policy. -/
theorem policiesInTenant_step (hwrite : endpoint.write ≠ some (.insert .aiModelPolicies))
    (h : s.db.PoliciesInTenant) : (api.step s (endpoint, r)).db.PoliciesInTenant := by
  rw [step_eq_run]
  have hperforms := (((endpoint.handler_keyed api.ext r).and
    (endpoint.handler_keepsTenant api.ext r)).and (endpoint.handler_keepsProvider api.ext r)).and
    (endpoint.handler_performs api.ext r)
  refine (handle_performs hperforms).run (P := fun s' : Postgres => s'.db.PoliciesInTenant) ?_ h
  rintro β q s' ⟨⟨⟨hkeyed, htenant⟩, hprovider⟩, hwrites⟩ hs'
  exact Postgres.policiesInTenant_exec hkeyed htenant hprovider
    (hwrites.not_storesForeignPolicy hwrite) hs'

/-- A valid request to create a policy runs its insertion and nothing else. -/
private theorem step_createAiModelPolicy {tenant provider : String} {tenantId providerId : UUID}
    {req : CreateAiModelPolicyRequest}
    (hmiddlewares : middlewares api.oidcMode r (.inTenant tenant (.createAiModelPolicy provider)) =
      .ok ())
    (htenant : api.ext.uuidParse tenant = some tenantId)
    (hprovider : api.ext.uuidParse provider = some providerId)
    (hreq : decodeBody CreateAiModelPolicyRequest.set {} r = .ok req) (hmodel : req.model ≠ "") :
    api.step s (.inTenant tenant (.createAiModelPolicy provider), r) =
      (Postgres.exec api.server
        (.insertOne .aiModelPolicies (newPolicy tenantId providerId req)) s).2 := by
  obtain ⟨k, hcall, hk⟩ := createAiModelPolicy_of_valid htenant hprovider hreq hmodel
  rw [step_eq_run]
  unfold handle
  rw [hmiddlewares, attempt_ok_bind]
  show ((createAiModelPolicy api.ext r tenant provider).run (Postgres.exec api.server) s).2 = _
  rw [hcall]
  obtain ⟨result, hresult⟩ := hk (Postgres.exec api.server
    (.insertOne .aiModelPolicies (newPolicy tenantId providerId req)) s).1
  simp only [Program.run, hresult]

/-- The provider is known by its id, so the new policy has no other. -/
theorem CreatesForeignPolicy.not_policiesInTenant {call : Endpoint × Request}
    (h : api.CreatesForeignPolicy s call) (hids : s.db.IdsNodup) :
    ¬ (api.step s call).db.PoliciesInTenant := by
  obtain ⟨endpoint, r⟩ := call
  cases endpoint with
  | inTenant tenant endpoint =>
    cases endpoint with
    | createAiModelPolicy provider =>
      obtain ⟨tenantId, providerId, req, hmiddlewares, htenant, hprovider, hreq, hmodel,
        ⟨u, hu, hid, hne⟩, hfault, p, hstored⟩ := h
      rw [step_createAiModelPolicy hmiddlewares htenant hprovider hreq hmodel]
      -- the stored policy has the ids of the URL
      obtain ⟨hp, hptenant⟩ := stored_newPolicy hstored
      rw [← hp] at hid
      rw [← hptenant] at hne
      exact Postgres.not_policiesInTenant_exec hids ⟨hfault, p, hstored, u, hu, hid, hne⟩
    | _ => exact h.elim
  | _ => exact h.elim

/-- A request to create a policy that is rejected, or whose provider is of its tenant. -/
private theorem policiesInTenant_create {tenant provider : String} (h : s.db.PoliciesInTenant)
    (hforeign :
      ¬ api.CreatesForeignPolicy s (.inTenant tenant (.createAiModelPolicy provider), r)) :
    (api.step s (.inTenant tenant (.createAiModelPolicy provider), r)).db.PoliciesInTenant := by
  -- a refused request executes nothing
  cases hmiddlewares :
      middlewares api.oidcMode r (.inTenant tenant (.createAiModelPolicy provider)) with
  | error response => rwa [step_of_rejected hmiddlewares]
  | ok _ =>
    rcases createAiModelPolicy_cases api.ext r tenant provider with
      ⟨result, hdone⟩ | ⟨tenantId, providerId, req, htenant, hprovider, hreq, hmodel⟩
    · -- no statement is run
      have hhandle :
          handle api.ext api.oidcMode (.inTenant tenant (.createAiModelPolicy provider)) r =
            .done result := by
        unfold handle
        rw [hmiddlewares, attempt_ok_bind]
        exact hdone
      rw [step_eq_run, hhandle]
      exact h
    · rw [step_createAiModelPolicy hmiddlewares htenant hprovider hreq hmodel]
      refine Postgres.policiesInTenant_insertOne ?_ h
      rintro ⟨hfault, p, hstored, u, hu, hid, hne⟩
      obtain ⟨hp, hptenant⟩ := stored_newPolicy hstored
      rw [hp] at hid
      rw [hptenant] at hne
      exact hforeign ⟨tenantId, providerId, req, hmiddlewares, htenant, hprovider, hreq, hmodel,
        ⟨u, hu, hid, hne⟩, hfault, p, hstored⟩

/-- A request keeps the ids distinct. -/
theorem nodup_ids_step (h : s.db.IdsNodup) : (api.step s (endpoint, r)).db.IdsNodup := by
  rw [step_eq_run]
  exact run_keeps_db (fun q db db' hq heffect hdb => heffect.nodup_ids hq hdb)
    (handle_performs (endpoint.handler_keyed api.ext r)) s h

/-- The ids are distinct at every point of a run. -/
theorem nodup_ids_run (api : Deployment) (calls : List (Endpoint × Request)) :
    (api.run calls).db.IdsNodup :=
  List.foldl_keeps (P := fun s : Postgres => s.db.IdsNodup) calls ⟨0, Db.empty⟩
    (fun _ => List.nodup_nil) fun _ _ _ _ hpre => nodup_ids_step hpre

/-- One request keeps the policies within their tenants, unless it creates one for a
    provider of another tenant. -/
theorem policiesInTenant_step_iff (hids : s.db.IdsNodup) (h : s.db.PoliciesInTenant)
    (call : Endpoint × Request) :
    (api.step s call).db.PoliciesInTenant ↔ ¬ api.CreatesForeignPolicy s call := by
  refine ⟨fun hstep hforeign => hforeign.not_policiesInTenant hids hstep, fun hforeign => ?_⟩
  obtain ⟨endpoint, r⟩ := call
  cases endpoint with
  | inTenant tenant endpoint =>
    cases endpoint with
    | createAiModelPolicy provider => exact policiesInTenant_create h hforeign
    | _ => exact policiesInTenant_step nofun h
  | _ => exact policiesInTenant_step nofun h

/-- In every state of a run every policy references a provider of its tenant, exactly when
    no request of the run creates a policy for a provider of another tenant. -/
theorem policiesInTenant_iff (api : Deployment) (calls : List (Endpoint × Request)) :
    (∀ pre, pre <+: calls → (api.run pre).db.PoliciesInTenant) ↔
      ∀ pre call post, calls = pre ++ call :: post →
        ¬ api.CreatesForeignPolicy (api.run pre) call := by
  apply List.foldl_keeps_iff (P := fun s : Postgres => s.db.PoliciesInTenant)
    (G := fun s call => ¬ api.CreatesForeignPolicy s call)
  · exact fun _ hp => nomatch hp
  · intro pre call post _ hpre
    exact policiesInTenant_step_iff (nodup_ids_run api pre) hpre call

/-- A tenant creates a policy for the provider of another one. -/
theorem policy_for_foreign_provider :
    ¬ ∀ (api : Deployment) (calls : List (Endpoint × Request)),
      (api.run calls).db.PoliciesInTenant := by
  intro h
  let calls : List (Endpoint × Request) :=
    [(.createTenant, jsonRequest [("name", .str "Acme"), ("slug", .str "acme")]),
      (.createTenant, jsonRequest [("name", .str "Globex"), ("slug", .str "globex")]),
      (.inTenant "1" .createAiProvider,
        jsonRequest [("name", .str "main"), ("provider", .str "openai")]),
      (.inTenant "2" (.createAiModelPolicy "3"), jsonRequest [("model", .str "gpt-4o")])]
  -- the policy is the second tenant's and the provider the first one's
  have htenants : ((counting.run calls).db.rows .aiModelPolicies).map AiModelPolicy.tenantId = [2] ∧
      ((counting.run calls).db.rows .aiProviders).map AiProvider.tenantId = [1] := by
    decide
  obtain ⟨p, hp⟩ : ∃ p, (counting.run calls).db.rows .aiModelPolicies = [p] :=
    List.length_eq_one_iff.mp (by simpa using congrArg List.length htenants.1)
  obtain ⟨u, hu, -, htenant⟩ := h counting calls p (by rw [hp]; exact List.mem_singleton_self p)
  have hutenant : u.tenantId ∈ [(1 : UUID)] := by
    rw [← htenants.2]
    exact List.mem_map.mpr ⟨u, hu, rfl⟩
  have hptenant : p.tenantId ∈ [(2 : UUID)] := by
    rw [← htenants.1, hp]
    exact List.mem_singleton_self _
  rw [htenant, List.mem_singleton.mp hptenant] at hutenant
  revert hutenant
  decide

end Deployment

end Barqium.Native.ControlApi
