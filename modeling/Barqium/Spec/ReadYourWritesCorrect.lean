import Barqium.Spec.AnswersCorrect
import Barqium.Spec.IntegrityCorrect
import Barqium.Spec.PolicyTenancyCorrect

/-!
# What an answer shows stays readable

A row that a request was answered with stays as it is until a request patches or deletes it,
or deletes what it hangs on: its tenant, the provider of a policy, or the tenant of that
provider. So whatever else is served meanwhile, a read of the row is answered with it.

## Key results

- `Db.key_of_deleted`: why a row goes.
- `Held.exec`: what a statement leaves of a row and of what it hangs on.
- `Deployment.reads_answered_row`: a read after an answer, in every interleaving.
-/

namespace Barqium.Native.ControlApi

open Program

/-! ## What a row hangs on -/

/-- The rows whose deletion removes the row: itself, its tenant, and for a policy its provider
    and the tenant of that. -/
def Db.supports (db : Db) (t : Table) (row : t.Row) : List (Table × UUID) :=
  (t, t.id row) :: (t.tenant row).toList.map (fun id => (.tenants, id)) ++
    (t.provider row).toList.flatMap fun id =>
      (.aiProviders, id) :: ((db.rows .aiProviders).filter fun (p : AiProvider) => p.id = id).map
        fun (p : AiProvider) => (.tenants, p.tenantId)

/-- The request patches the row, or deletes what it hangs on. -/
def Endpoint.Touches (ext : Ext) (db : Db) (t : Table) (row : t.Row) (endpoint : Endpoint) : Prop :=
  ∃ key ∈ db.supports t row, endpoint.Names ext key ∧
    (key = (t, t.id row) ∨ endpoint.write = some (.delete key.1))

/-- The statement does not update the row `own`, and deletes none of `keys`. -/
def Query.Leaves (own : Table × UUID) (keys : List (Table × UUID)) : {β : Type} → Query β → Prop
  | _, .updateOne t p _ => ∀ r, p r = true → (t, t.id r) ≠ own
  | _, .deleteAll t p => ∀ r, p r = true → (t, t.id r) ∉ keys
  | _, _ => True

/-- A row goes because it is deleted or its tenant is, or with the provider it references. -/
theorem Db.key_of_deleted {db : Db} {t : Table} {p : t.Row → Bool} {u : Table} {r : u.Row}
    (h : db.deleted t p u r = true) :
    (∃ x, p x = true ∧
      ((t, t.id x) = (u, u.id r) ∨ u.tenant r = some (t.id x) ∧ t = .tenants)) ∨
      ∃ provider ∈ db.rows .aiProviders, u.provider r = some (Table.id .aiProviders provider) ∧
        db.deleted t p .aiProviders provider = true := by
  -- a row goes because it is hit, or because its tenant is
  have hdead : ∀ (v : Table) (y : v.Row),
      ((if h : v = t then p (h ▸ y) else false) ||
        (v.tenant y).any fun id => (((db.rows .tenants).filter fun (x : Tenant) =>
          if h : Table.tenants = t then p (h ▸ x) else false).map Tenant.id).contains id) = true →
      ∃ x, p x = true ∧
        ((t, t.id x) = (v, v.id y) ∨ v.tenant y = some (t.id x) ∧ t = .tenants) := by
    intro v y hy
    rcases Bool.or_eq_true_iff.mp hy with hdirect | htenant
    · split at hdirect
      · rename_i hv
        subst hv
        exact ⟨y, hdirect, .inl rfl⟩
      · cases hdirect
    · cases hid : v.tenant y with
      | none =>
        rw [hid] at htenant
        cases htenant
      | some id =>
        rw [hid, Option.any_some, List.contains_iff_mem] at htenant
        obtain ⟨x, hx, rfl⟩ := List.mem_map.mp htenant
        have hx := (List.mem_filter.mp hx).2
        split at hx
        · rename_i ht
          subst ht
          exact ⟨x, hx, .inr ⟨rfl, rfl⟩⟩
        · cases hx
  simp only [deleted] at h
  -- a policy also goes with its provider
  rcases Bool.or_eq_true_iff.mp h with hgone | hprovider
  · exact .inl (hdead u r hgone)
  · cases u with
    | aiModelPolicies =>
      right
      dsimp only at hprovider
      rw [List.contains_iff_mem] at hprovider
      obtain ⟨provider, hmem, hid⟩ := List.mem_map.mp hprovider
      obtain ⟨hmem, hgone⟩ := List.mem_filter.mp hmem
      refine ⟨provider, hmem, congrArg some hid.symm, ?_⟩
      simp only [deleted, Bool.or_false]
      exact hgone
    | _ => cases hprovider

/-- The row is stored, and `keys` are those of the rows it hangs on. -/
structure Held (keys : List (Table × UUID)) (t : Table) (row : t.Row) (db : Db) : Prop where
  stored : row ∈ db.rows t
  own : (t, t.id row) ∈ keys
  tenant : ∀ id, t.tenant row = some id → (.tenants, id) ∈ keys
  provider : ∀ id, t.provider row = some id → (.aiProviders, id) ∈ keys ∧
    ∃ tenantId, (id, some tenantId) ∈ db.keys .aiProviders ∧ (Table.tenants, tenantId) ∈ keys

/-- A stored row hangs on rows that are stored. -/
private theorem held_of_stored {types : ColumnTypes} {db : Db} (h : db.Consistent types) {t : Table}
    {row : t.Row} (hrow : row ∈ db.rows t) : Held (db.supports t row) t row db where
  stored := hrow
  own := List.mem_append_left _ (List.mem_cons_self ..)
  tenant id htenant := by
    refine List.mem_append_left _ (List.mem_cons_of_mem _ ?_)
    rw [htenant]
    exact List.mem_singleton.mpr rfl
  provider id hid := by
    -- the reference of the policy is resolved
    cases t with
    | aiModelPolicies =>
      obtain rfl := Option.some.inj hid
      obtain ⟨provider, hprovider, hid⟩ := Db.mem_ids.mp (h.references .aiModelPolicies row hrow
        ⟨"ai_model_policies_provider_id_fkey", .aiProviders, AiModelPolicy.providerId⟩
        (by simp [Table.references]))
      have hprovider : provider ∈ db.rows .aiProviders := hprovider
      have hid : AiProvider.id provider = AiModelPolicy.providerId row := hid
      constructor
      · exact List.mem_append_right _ (List.mem_cons_self ..)
      · refine ⟨AiProvider.tenantId provider, Db.mem_keys.mpr ⟨provider, hprovider, hid, rfl⟩, ?_⟩
        refine List.mem_append_right _ (List.mem_cons_of_mem _ (List.mem_append_left _ ?_))
        exact List.mem_map.mpr
          ⟨provider, List.mem_filter.mpr ⟨hprovider, decide_eq_true hid⟩, rfl⟩
    | _ => cases hid

namespace Held

variable {keys : List (Table × UUID)} {t : Table} {row : t.Row}

/-- The provider that the row references hangs on what the row hangs on. -/
private theorem of_provider {db : Db} (h : Held keys t row db) (hids : db.IdsNodup)
    {provider : AiProvider} (hmem : provider ∈ db.rows .aiProviders)
    (hid : t.provider row = some provider.id) : Held keys .aiProviders provider db := by
  obtain ⟨hown, tenantId, hkey, htenant⟩ := h.provider _ hid
  have hprovider : (provider.id, some provider.tenantId) ∈ db.keys .aiProviders :=
    Db.mem_keys.mpr ⟨provider, hmem, rfl, rfl⟩
  -- there is one provider with the id, so it is the one whose tenant is among the keys
  obtain rfl := Option.some.inj (hids.tenant_eq hprovider hkey rfl)
  refine ⟨hmem, hown, fun id hid => ?_, fun id hid => by cases hid⟩
  rw [← Option.some.inj hid]
  exact htenant

variable {u : Table} {p : u.Row → Bool}

/-- A deletion that spares what the row hangs on does not hit the row. -/
private theorem not_hit {db : Db} (h : Held keys t row db)
    (hp : ∀ x, p x = true → (u, u.id x) ∉ keys) :
    ¬ ∃ x, p x = true ∧
      ((u, u.id x) = (t, t.id row) ∨ t.tenant row = some (u.id x) ∧ u = .tenants) := by
  rintro ⟨x, hx, hkey | ⟨htenant, rfl⟩⟩
  · exact hp x hx (hkey ▸ h.own)
  · exact hp x hx (h.tenant _ htenant)

/-- Of what it hangs on nothing is deleted, so the row is not. -/
private theorem not_deleted {db : Db} (h : Held keys t row db) (hids : db.IdsNodup)
    (hp : ∀ x, p x = true → (u, u.id x) ∉ keys) : db.deleted u p t row = false := by
  rw [← Bool.not_eq_true]
  intro hgone
  rcases Db.key_of_deleted hgone with hhit | ⟨provider, hmem, hid, hgone⟩
  · exact h.not_hit hp hhit
  · -- a provider references no provider in turn
    rcases Db.key_of_deleted hgone with hhit | ⟨_, _, hnone, _⟩
    · exact (h.of_provider hids hmem hid).not_hit hp hhit
    · cases hnone

variable {server : Postgres.Server} {s : Postgres} {β : Type} {q : Query β}

/-- A statement that leaves the row alone leaves it stored. -/
private theorem stored_exec (h : Held keys t row s.db) (hids : s.db.IdsNodup)
    (hq : q.Leaves (t, t.id row) keys) :
    row ∈ (Postgres.exec server q s).2.db.rows t := by
  -- whatever the statement, the row is still there
  cases q with
  | insertOne v new =>
    by_cases hv : t = v
    · subst hv
      rcases Postgres.exec_insertOne_cases server s new with ⟨-, -, hdb⟩ | ⟨r, -, -, -, hdb⟩
      · rw [hdb]
        exact h.stored
      · rw [hdb, Db.setRows_rows_self]
        exact List.mem_append_left _ h.stored
    · rw [Postgres.rows_insertOne_of_ne new hv]
      exact h.stored
  | selectOne v p =>
    rw [Postgres.exec_selectOne_db]
    exact h.stored
  | selectMany v p le limit offset =>
    rw [Postgres.exec_selectMany_db]
    exact h.stored
  | updateOne v p set =>
    by_cases hv : t = v
    · subst hv
      rcases Postgres.exec_updateOne_cases server s p set with
        ⟨-, -, hdb⟩ | ⟨old, r, -, -, -, -, hdb⟩
      · rw [hdb]
        exact h.stored
      · rw [hdb, Db.setRows_rows_self]
        -- the `WHERE` clause does not select the row
        exact List.mem_map.mpr ⟨row, h.stored, if_neg fun hrow => hq row hrow rfl⟩
    · rw [Postgres.rows_updateOne_of_ne p set hv]
      exact h.stored
  | deleteAll v p =>
    rcases Postgres.exec_deleteAll_cases server s p with hdb | hdelete
    · rw [hdb]
      exact h.stored
    · exact (Db.mem_rows_of_delete hdelete).mpr ⟨h.stored, h.not_deleted hids hq⟩

/-- What a statement leaves alone, it leaves with all that it hangs on. -/
theorem exec (h : Held keys t row s.db) (hids : s.db.IdsNodup) (hkeyed : q.Keyed)
    (htenant : q.KeepsTenant) (hq : q.Leaves (t, t.id row) keys) :
    Held keys t row (Postgres.exec server q s).2.db := by
  refine ⟨h.stored_exec hids hq, h.own, h.tenant, fun id hid => ?_⟩
  obtain ⟨hown, tenantId, hkey, htenantId⟩ := h.provider id hid
  refine ⟨hown, tenantId, ?_, htenantId⟩
  -- the provider may be patched, but keeps its id and its tenant
  cases q with
  | insertOne v new => exact Postgres.keys_subset_insertOne new _ hkey
  | selectOne v p => rwa [Postgres.exec_selectOne_db]
  | selectMany v p le limit offset => rwa [Postgres.exec_selectMany_db]
  | updateOne v p set => rwa [Postgres.keys_updateOne hkeyed htenant]
  | deleteAll v p =>
    obtain ⟨provider, hmem, rfl, htenant⟩ := Db.mem_keys.mp hkey
    have hprovider : provider ∈ (Postgres.exec server (.deleteAll v p) s).2.db.rows .aiProviders :=
      (h.of_provider hids hmem hid).stored_exec hids hq
    exact Db.mem_keys.mpr ⟨provider, hprovider, rfl, htenant⟩

end Held

/-- A request that does not touch the row runs statements that leave it alone. -/
theorem Query.NamedBy.leaves {ext : Ext} {db : Db} {t : Table} {row : t.Row} {endpoint : Endpoint}
    {β : Type} {q : Query β} (h : q.NamedBy ext endpoint)
    (htouches : ¬ endpoint.Touches ext db t row) :
    q.Leaves (t, t.id row) (db.supports t row) := by
  cases q with
  | updateOne u p set =>
    intro r hr hown
    have hmem : (u, u.id r) ∈ db.supports t row := by
      rw [hown]
      exact List.mem_append_left _ (List.mem_cons_self ..)
    exact htouches ⟨_, hmem, h r hr, .inl hown⟩
  | deleteAll u p => exact fun r hr hmem => htouches ⟨_, hmem, h.2 r hr, .inr h.1⟩
  | _ => trivial

/-! ## Reads -/

/-- The row below a tenant that a `GET` reads. -/
def TenantEndpoint.read : TenantEndpoint → Option (Table × String)
  | .getUpstream id => some (.upstreams, id)
  | .getRoute id => some (.routes, id)
  | .getAiProvider id => some (.aiProviders, id)
  | .getAiModelPolicy _ id => some (.aiModelPolicies, id)
  | .getRateLimitPolicy id => some (.rateLimitPolicies, id)
  | .getWasmPlugin id => some (.wasmPlugins, id)
  | _ => none

/-- The request is a `GET` of the row, below the tenant of the row if it has one. -/
def Endpoint.Reads (ext : Ext) (t : Table) (row : t.Row) : Endpoint → Prop
  | .getRegion id => t = .regions ∧ ext.uuidParse id = some (t.id row)
  | .getTenant id => t = .tenants ∧ ext.uuidParse id = some (t.id row)
  | .inTenant tenantParam endpoint => ∃ idParam tenantId, endpoint.read = some (t, idParam) ∧
      ext.uuidParse idParam = some (t.id row) ∧ ext.uuidParse tenantParam = some tenantId ∧
      t.tenant row = some tenantId
  | _ => False

/-- What becomes of a read. -/
def readAnswer (t : Table) (notFound : String) : Except DbError t.Row → Except Response Response
  | .ok row => .ok ⟨200, .row t row⟩
  | .error err => .error (notFoundOr notFound err)

/-- The handler reads with one statement, which selects no row with another id. -/
theorem Endpoint.Reads.handler_eq {ext : Ext} {t : Table} {row : t.Row} {endpoint : Endpoint}
    (h : endpoint.Reads ext t row) (r : Request) :
    ∃ (p : t.Row → Bool) (notFound : String),
      endpoint.handler ext r =
        .call (.selectOne t p) (fun result => .done (readAnswer t notFound result)) ∧
      p row = true ∧ ∀ x, p x = true → t.id x = t.id row := by
  -- the one statement of a read, and its answer
  have horFail : ∀ (p : t.Row → Bool) (notFound : String),
      (orFail (.selectOne t p) (notFoundOr notFound) >>= fun row =>
        (pure ⟨200, .row t row⟩ : Handler)) =
      .call (.selectOne t p) (fun result => .done (readAnswer t notFound result)) := by
    intro p notFound
    refine congrArg (Program.call (Query.selectOne t p)) (funext fun result => ?_)
    cases result with
    | ok row => rfl
    | error err => rfl
  -- a row found by its id
  have hbyId : ∀ {invalid notFound idParam : String}, ext.uuidParse idParam = some (t.id row) →
      ∃ (p : t.Row → Bool) (notFound' : String), getById t invalid notFound ext idParam =
        .call (.selectOne t p) (fun result => .done (readAnswer t notFound' result)) ∧
        p row = true ∧ ∀ x, p x = true → t.id x = t.id row := by
    intro invalid notFound idParam hid
    refine ⟨rowAt t (t.id row), notFound, ?_, decide_eq_true rfl, fun x hx => of_decide_eq_true hx⟩
    unfold getById
    rw [parseID_eq_ok.mpr hid, attempt_ok_bind, horFail]
  cases endpoint with
  | getRegion id =>
    obtain ⟨rfl, hid⟩ := h
    exact hbyId hid
  | getTenant id =>
    obtain ⟨rfl, hid⟩ := h
    exact hbyId hid
  | inTenant tenantParam endpoint =>
    obtain ⟨idParam, tenantId, hread, hid, htenantId, htenant⟩ := h
    -- a row found by its id in its tenant
    have hinTenant : ∀ {invalid notFound : String},
        ∃ (p : t.Row → Bool) (notFound' : String),
          getInTenant t invalid notFound ext tenantParam idParam =
            .call (.selectOne t p) (fun result => .done (readAnswer t notFound' result)) ∧
          p row = true ∧ ∀ x, p x = true → t.id x = t.id row := by
      intro invalid notFound
      refine ⟨rowIn t (t.id row) tenantId, notFound, ?_, rowIn_eq_true.mpr ⟨rfl, htenant⟩,
        fun x hx => (rowIn_eq_true.mp hx).1⟩
      unfold getInTenant
      rw [show parseTenantID ext tenantParam = .ok tenantId from parseID_eq_ok.mpr htenantId,
        attempt_ok_bind, parseID_eq_ok.mpr hid, attempt_ok_bind, horFail]
    cases endpoint with
    | getUpstream id | getRoute id | getAiProvider id | getAiModelPolicy providerId id
    | getRateLimitPolicy id | getWasmPlugin id =>
      cases hread
      exact hinTenant
    | _ => cases hread
  | _ => exact absurd h id

/-- A read of a stored row is answered with it, unless the statement fails by itself. -/
private theorem readAnswer_of_stored (server : Postgres.Server) {s : Postgres}
    (hids : s.db.IdsNodup)
    {t : Table} {row : t.Row} (hstored : row ∈ s.db.rows t) {p : t.Row → Bool}
    (hrow : p row = true) (hp : ∀ x, p x = true → t.id x = t.id row) (notFound : String) :
    readAnswer t notFound (Postgres.exec server (.selectOne t p) s).1 = .ok ⟨200, .row t row⟩ ∨
      readAnswer t notFound (Postgres.exec server (.selectOne t p) s).1 =
        .error (writeError 500 "internal error") ∧
      (server.env s.executed).fault.isSome = true := by
  cases hfault : (server.env s.executed).fault with
  | some text =>
    right
    constructor
    · simp only [Postgres.exec, Postgres.statement, hfault, readAnswer, notFoundOr, internalError,
        reduceCtorEq, if_false]
    · rfl
  | none =>
    left
    cases hfind : (s.db.rows t).find? p with
    | none => exact absurd hrow (List.find?_eq_none.mp hfind row hstored)
    | some found =>
      -- the ids in the table are distinct
      have hsame : found = row := List.inj_on_of_nodup_map (hids t)
        (List.mem_of_find?_eq_some hfind) hstored (hp found (List.find?_some hfind))
      rw [Postgres.exec_selectOne_ok hfault hfind, hsame]
      rfl

/-! ## Interleavings -/

namespace Deployment

/-- The requests in the order of their arrival. -/
def arrivals (actions : List Action) : List (Endpoint × Request) :=
  actions.filterMap fun
    | .request endpoint r => some (endpoint, r)
    | .statement _ => none

@[simp] theorem arrivals_append (pre more : List Action) :
    arrivals (pre ++ more) = arrivals pre ++ arrivals more := List.filterMap_append

variable (api : Deployment)

/-- One more action. -/
private theorem interleave_concat (pre : List Action) (a : Action) :
    api.interleave (pre ++ [a]) = api.act (api.interleave pre) a := by
  rw [interleave_append, List.foldl_cons, List.foldl_nil]

/-- Every request that arrived has its handler. -/
private theorem length_running (actions : List Action) :
    (api.interleave actions).running.length = (arrivals actions).length := by
  induction actions using List.reverseRecOn with
  | nil => rfl
  | append_singleton pre a ih =>
    rw [interleave_concat, arrivals_append]
    cases a with
    | request endpoint r =>
      show ((api.interleave pre).running ++ [_]).length = _
      rw [List.length_append, List.length_append, ih]
      rfl
    -- a statement starts nothing
    | statement i =>
      show ((api.interleave pre).step _ i).running.length = _
      rw [Pool.length_step, ih]
      exact (List.append_nil (arrivals pre)).symm ▸ rfl

/-- What holds of each handler, and of what is left of it after a statement. -/
theorem each_interleave {P : Endpoint → Request → Handler → Prop}
    (hstart : ∀ endpoint r, P endpoint r (handle api.ext api.oidcMode endpoint r))
    (hnext : ∀ {β : Type} (q : Query β) k s endpoint r, P endpoint r (.call q k) →
      P endpoint r (k (Postgres.exec api.server q s).1)) (actions : List Action) :
    (api.interleave actions).Each fun j x => ∀ endpoint r,
      (arrivals actions)[j]? = some (endpoint, r) → P endpoint r x := by
  -- action by action: a handler begins, or runs one statement
  induction actions using List.reverseRecOn with
  | nil =>
    intro j x hx
    cases hx
  | append_singleton pre a ih =>
    rw [interleave_concat]
    cases a with
    | request endpoint r =>
      apply Pool.Each.start
      · intro j x hx endpoint' r' hcall
        have hlt : j < (arrivals pre).length := by
          rw [← length_running api pre]
          exact (List.getElem?_eq_some_iff.mp hx).1
        rw [arrivals_append, List.getElem?_append_left hlt] at hcall
        exact ih j x hx endpoint' r' hcall
      · intro endpoint' r' hcall
        rw [length_running, arrivals_append, List.getElem?_append_right le_rfl,
          Nat.sub_self] at hcall
        cases hcall
        exact hstart endpoint r
    | statement i =>
      have hsame : arrivals (pre ++ [.statement i]) = arrivals pre := by
        rw [arrivals_append]
        exact List.append_nil _
      rw [hsame]
      exact ih.step fun q k hi endpoint r hcall =>
        hnext q k _ endpoint r (ih i _ hi endpoint r hcall)

/-- The answer of every request in progress will show stored rows. -/
theorem endsIn_interleave {actions : List Action} {i : Nat} {x : Handler}
    (hx : (api.interleave actions).running[i]? = some x) :
    x.EndsIn (Postgres.exec api.server) Response.Stored := by
  have hlt : i < (arrivals actions).length := by
    rw [← length_running api actions]
    exact (List.getElem?_eq_some_iff.mp hx).1
  refine api.each_interleave (P := fun _ _ x => x.EndsIn (Postgres.exec api.server) Response.Stored)
    (fun endpoint r => ?_) (fun q k s _ _ h => (h s).2) actions i x hx _ _
    (List.getElem?_eq_getElem hlt)
  exact EndsIn.bind_attempt fun _ _ => endpoint.handler_endsIn

/-- A request writes no old row but the one it names, as far as it has come. -/
theorem namedBy_interleave {actions : List Action} {i : Nat} {x : Handler} {endpoint : Endpoint}
    {r : Request} (hcall : (arrivals actions)[i]? = some (endpoint, r))
    (hx : (api.interleave actions).running[i]? = some x) :
    x.Performs (Query.NamedBy api.ext endpoint) :=
  api.each_interleave (P := fun endpoint _ x => x.Performs (Query.NamedBy api.ext endpoint))
    (fun endpoint _ => handle_performs endpoint.handler_namedBy)
    (fun _ _ _ _ _ h => h.2 _) actions i x hx endpoint r hcall

/-! ### From an answer on -/

/-- A statement of request `j` was the one that the environment made fail: the request still had
    it to run, and it was sent as the statement with the number of the fault. -/
def StatementFailed (actions : List Action) (j : Nat) : Prop :=
  ∃ before after : List Action, actions = before ++ .statement j :: after ∧
    (∃ (β : Type) (q : Query β) (k : β → Handler),
      (api.interleave before).running[j]? = some (.call q k)) ∧
    (api.server.env (api.interleave before).state.executed).fault.isSome = true

variable {api} {db : Db} {t : Table} {row : t.Row}

/-- What failed stays failed in every longer run. -/
theorem StatementFailed.append {actions : List Action} {j : Nat}
    (h : api.StatementFailed actions j) (more : List Action) :
    api.StatementFailed (actions ++ more) j := by
  obtain ⟨before, after, rfl, hrun, hfault⟩ := h
  refine ⟨before, after ++ more, ?_, hrun, hfault⟩
  rw [List.append_assoc, List.cons_append]

/-- The requests in progress leave the row alone, and those that came after the first `first`
    and read it are answered with it. -/
structure Readable (api : Deployment) (db : Db) (t : Table) (row : t.Row) (first : Nat)
    (actions : List Action) : Prop where
  performing : (api.interleave actions).Performing
    (Query.Leaves (t, t.id row) (db.supports t row))
  held : Held (db.supports t row) t row (api.interleave actions).state.db
  reads : (api.interleave actions).Each fun j x => ∀ endpoint r, first ≤ j →
    (arrivals actions)[j]? = some (endpoint, r) → endpoint.Reads api.ext t row →
    middlewares api.oidcMode r endpoint = .ok () →
    x = endpoint.handler api.ext r ∨ x = .done (.ok ⟨200, .row t row⟩) ∨
      x = .done (.error (writeError 500 "internal error")) ∧ api.StatementFailed actions j

/-- What is known of the reads in progress stays true of the longer run. -/
theorem Readable.reads_append {first : Nat} {actions : List Action}
    (h : Readable api db t row first actions) (more : List Action) :
    (api.interleave actions).Each fun j x => ∀ endpoint r, first ≤ j →
      (arrivals actions)[j]? = some (endpoint, r) → endpoint.Reads api.ext t row →
      middlewares api.oidcMode r endpoint = .ok () →
      x = endpoint.handler api.ext r ∨ x = .done (.ok ⟨200, .row t row⟩) ∨
        x = .done (.error (writeError 500 "internal error")) ∧
          api.StatementFailed (actions ++ more) j := by
  intro j x hx endpoint r hfirst hcall hreads hok
  rcases h.reads j x hx endpoint r hfirst hcall hreads hok with hstart | hdone | ⟨hdone, hfailed⟩
  · exact .inl hstart
  · exact .inr (.inl hdone)
  · exact .inr (.inr ⟨hdone, hfailed.append more⟩)

/-- One more action keeps the row readable, unless it is a request that touches the row. -/
theorem Readable.act {first : Nat} {actions : List Action}
    (h : Readable api db t row first actions) (a : Action)
    (hleaves : ∀ endpoint r, a = .request endpoint r → ¬ endpoint.Touches api.ext db t row) :
    Readable api db t row first (actions ++ [a]) := by
  -- a request may begin a read, a statement may end one
  cases a with
  | request endpoint r =>
    constructor
    · rw [interleave_concat]
      exact h.performing.start (handle_performs (endpoint.handler_namedBy.mono fun _ hq =>
        hq.leaves (hleaves endpoint r rfl)))
    · rw [interleave_concat]
      exact h.held
    · rw [interleave_concat]
      apply Pool.Each.start
      · intro j x hx endpoint' r' hfirst hcall
        have hlt : j < (arrivals actions).length := by
          rw [← length_running api actions]
          exact (List.getElem?_eq_some_iff.mp hx).1
        rw [arrivals_append, List.getElem?_append_left hlt] at hcall
        exact h.reads_append _ j x hx endpoint' r' hfirst hcall
      · intro endpoint' r' _ hcall _ hok
        rw [length_running, arrivals_append, List.getElem?_append_right le_rfl,
          Nat.sub_self] at hcall
        cases hcall
        left
        unfold handle
        rw [hok, attempt_ok_bind]
  | statement i =>
    -- a statement brings no request
    have hsame : arrivals (actions ++ [.statement i]) = arrivals actions := by
      rw [arrivals_append]
      exact List.append_nil _
    have hids := nodup_ids_interleave api actions
    have hkeyed := performing_interleave api (fun e r => e.handler_keyed api.ext r) actions
    have htenant := performing_interleave api (fun e r => e.handler_keepsTenant api.ext r) actions
    constructor
    · rw [interleave_concat]
      exact h.performing.step i
    · rw [interleave_concat]
      rcases Pool.step_cases (Postgres.exec api.server) (api.interleave actions) i with
        ⟨hstep, -⟩ | ⟨β, q, k, hi, hstep⟩
      · show Held _ t row ((api.interleave actions).step (Postgres.exec api.server) i).state.db
        rw [hstep]
        exact h.held
      · show Held _ t row ((api.interleave actions).step (Postgres.exec api.server) i).state.db
        rw [hstep]
        exact h.held.exec hids
          (hkeyed.next hi).1 (htenant.next hi).1 (h.performing.next hi).1
    · rw [interleave_concat, hsame]
      refine Pool.Each.step (h.reads_append _) fun q k hi endpoint r hfirst hcall hreads hok => ?_
      rcases h.reads i _ hi endpoint r hfirst hcall hreads hok with hstart | hdone | ⟨hdone, -⟩
      · -- the read runs its only statement, while the row is stored
        obtain ⟨p, notFound, hhandler, hrow, hp⟩ := hreads.handler_eq r
        rw [hhandler] at hstart
        cases hstart
        rcases readAnswer_of_stored api.server hids h.held.stored hrow hp notFound with
          hanswer | ⟨hanswer, hfault⟩
        · exact .inr (.inl (congrArg Program.done hanswer))
        · refine .inr (.inr ⟨congrArg Program.done hanswer, actions, [], rfl, ?_, hfault⟩)
          exact ⟨_, _, _, hi⟩
      · cases hdone
      · cases hdone

/-- The row stays readable through every run whose requests leave it alone. -/
theorem Readable.run {first : Nat} {actions : List Action}
    (h : Readable api db t row first actions) (more : List Action)
    (hleaves : ∀ endpoint r, .request endpoint r ∈ more → ¬ endpoint.Touches api.ext db t row) :
    Readable api db t row first (actions ++ more) := by
  induction more using List.reverseRecOn with
  | nil => rwa [List.append_nil]
  | append_singleton more a ih =>
    rw [← List.append_assoc]
    refine (ih fun endpoint r hmem => hleaves endpoint r (List.mem_append_left _ hmem)).act a ?_
    rintro endpoint r rfl
    exact hleaves endpoint r (List.mem_append_right _ (List.mem_singleton.mpr rfl))

/-- A row that an answer shows is stored at that moment. -/
private theorem readable_of_answer {pre : List Action} {i : Nat} {x : Handler} {response : Response}
    (hrunning : (api.interleave pre).running[i]? = some x) (hx : x ≠ .done (.ok response))
    (hanswer : (api.interleave (pre ++ [.statement i])).running[i]? = some (.done (.ok response)))
    (hshows : response.Shows t row)
    (hprogress : ∀ (j : Nat) (endpoint : Endpoint) (r : Request),
      (arrivals pre)[j]? = some (endpoint, r) →
      endpoint.Touches api.ext (api.interleave (pre ++ [.statement i])).state.db t row →
      ∃ result, (api.interleave (pre ++ [.statement i])).running[j]? = some (.done result)) :
    Readable api (api.interleave (pre ++ [.statement i])).state.db t row (arrivals pre).length
      (pre ++ [.statement i]) := by
  -- the answer brings no request
  have hsame : arrivals (pre ++ [.statement i]) = arrivals pre := by
    rw [arrivals_append]
    exact List.append_nil _
  constructor
  · intro y hy
    obtain ⟨j, hj⟩ := List.mem_iff_getElem?.mp hy
    have hlt : j < (arrivals (pre ++ [.statement i])).length := by
      rw [← length_running api]
      exact (List.getElem?_eq_some_iff.mp hj).1
    obtain ⟨⟨endpoint, r⟩, hcall⟩ : ∃ c, (arrivals (pre ++ [.statement i]))[j]? = some c :=
      ⟨_, List.getElem?_eq_getElem hlt⟩
    by_cases htouches : endpoint.Touches api.ext
        (api.interleave (pre ++ [.statement i])).state.db t row
    · -- the request is over, so it runs no statement any more
      obtain ⟨result, hdone⟩ := hprogress j endpoint r (by rw [← hsame, hcall]) htouches
      rw [hj] at hdone
      rw [Option.some.inj hdone]
      trivial
    · exact (api.namedBy_interleave hcall hj).mono fun _ hq => hq.leaves htouches
  · refine held_of_stored (consistent_interleave api (pre ++ [.statement i])) ?_
    rw [interleave_concat] at hanswer ⊢
    exact Pool.state_step_of_done hrunning (api.endsIn_interleave hrunning) hx hanswer t row hshows
  · -- no read has begun after the answer
    intro j y _ endpoint r hfirst hcall
    rw [hsame, List.getElem?_eq_none hfirst] at hcall
    cases hcall

/-- Once an answer has shown a row, the row stays as it is while no request touches it, and
    every read that arrives meanwhile is answered with it, whatever else is served at the same
    time. Only a read whose own statement fails by itself is answered with an error. -/
theorem reads_answered_row (api : Deployment) (pre more : List Action) {i : Nat} {x : Handler}
    {response : Response} {t : Table} {row : t.Row}
    (hrunning : (api.interleave pre).running[i]? = some x) (hx : x ≠ .done (.ok response))
    (hanswer : (api.interleave (pre ++ [.statement i])).running[i]? = some (.done (.ok response)))
    (hshows : response.Shows t row)
    (hprogress : ∀ (j : Nat) (endpoint : Endpoint) (r : Request),
      (arrivals pre)[j]? = some (endpoint, r) →
      endpoint.Touches api.ext (api.interleave (pre ++ [.statement i])).state.db t row →
      ∃ result, (api.interleave (pre ++ [.statement i])).running[j]? = some (.done result))
    (hmore : ∀ endpoint r, .request endpoint r ∈ more →
      ¬ endpoint.Touches api.ext (api.interleave (pre ++ [.statement i])).state.db t row) :
    let actions := pre ++ [.statement i] ++ more
    row ∈ (api.interleave actions).state.db.rows t ∧
      ∀ j endpoint r result, (arrivals pre).length ≤ j →
        (arrivals actions)[j]? = some (endpoint, r) → endpoint.Reads api.ext t row →
        middlewares api.oidcMode r endpoint = .ok () →
        (api.interleave actions).running[j]? = some (.done result) →
        result = .ok ⟨200, .row t row⟩ ∨
          result = .error (writeError 500 "internal error") ∧ api.StatementFailed actions j := by
  intro actions
  -- from the answer on the row is readable
  have hreadable :=
    (readable_of_answer hrunning hx hanswer hshows hprogress).run more hmore
  refine ⟨hreadable.held.stored, fun j endpoint r result hfirst hcall hreads hok hdone => ?_⟩
  rcases hreadable.reads j _ hdone endpoint r hfirst hcall hreads hok with hstart | hok' | hfailed
  · -- a read that has not begun is not done
    obtain ⟨p, notFound, hhandler, -⟩ := hreads.handler_eq r
    rw [hhandler] at hstart
    cases hstart
  · cases hok'
    exact .inl rfl
  · obtain ⟨hdone', hfault⟩ := hfailed
    cases hdone'
    exact .inr ⟨rfl, hfault⟩

/-- A tenant is patched while an upstream of it is created. -/
def upstreamBesidePatch : List Action :=
  [.request .createTenant (jsonRequest [("name", .str "Acme"), ("slug", .str "acme")]),
    .statement 0,
    .request (.inTenant "1" .createUpstream)
      (jsonRequest [("name", .str "api"), ("url", .str "https://example.com")]),
    .request (.updateTenant "1") (jsonRequest [("name", .str "Acme Inc.")]),
    .statement 2]

/-- The created upstream is read between the statements of the patch. -/
theorem reads_answered_row_besidePatch :
    let row : Upstream := ⟨3, 1, "api", "https://example.com", 5000, true, 2, 2⟩
    let read : Action := .request (.inTenant "1" (.getUpstream "3")) (jsonRequest [])
    let actions := upstreamBesidePatch ++ [.statement 1] ++ [read, .statement 2, .statement 3]
    row ∈ (counting.interleave actions).state.db.rows .upstreams ∧
      ∀ result, (counting.interleave actions).running[3]? = some (.done result) →
        result = .ok ⟨200, .row .upstreams row⟩ := by
  intro row read actions
  -- the upstream is answered while a patch of the tenant is in progress
  have hanswer : (counting.interleave (upstreamBesidePatch ++ [.statement 1])).running[1]? =
      some (.done (.ok ⟨201, .row .upstreams row⟩)) := by rfl
  have hanswered := reads_answered_row counting upstreamBesidePatch
    [read, .statement 2, .statement 3] (x := handle counting.ext counting.oidcMode
      (.inTenant "1" .createUpstream)
      (jsonRequest [("name", .str "api"), ("url", .str "https://example.com")])) rfl
    (fun h => by cases h) hanswer (.inl rfl)
    (fun j endpoint r hcall htouches => ?_) (fun endpoint r hmem htouches => ?_)
  · refine ⟨hanswered.1, fun result hdone => ?_⟩
    rcases hanswered.2 3 (.inTenant "1" (.getUpstream "3")) (jsonRequest []) result (by decide) rfl
      ⟨"3", 1, rfl, rfl, rfl, rfl⟩ rfl hdone with hrow | ⟨-, before, -, -, -, hfault⟩
    · exact hrow
    · cases hfault
  · rcases j with _ | _ | _ | j
    · exact ⟨_, rfl⟩
    · exact ⟨_, hanswer⟩
    · -- the patch is in progress, but not of the upstream
      cases hcall
      obtain ⟨key, -, ⟨param, hnamed, -⟩, hown | hdelete⟩ := htouches
      · rw [hown] at hnamed
        cases hnamed
      · cases hdelete
    · cases hcall
  · obtain ⟨key, -, ⟨param, hnamed, -⟩, -⟩ := htouches
    rcases List.mem_cons.mp hmem with hread | hmem
    · rw [(Action.request.inj hread).1] at hnamed
      cases hnamed
    · simp at hmem

end Deployment

end Barqium.Native.ControlApi
