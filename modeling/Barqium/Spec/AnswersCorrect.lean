import Barqium.Spec.TenantHandlersCorrect

/-!
# What a request answers and what it writes

An answer is made of the result of the last statement, so the rows it shows are stored when it
is given. A request writes no old row but the one that its path names.

## Key results

- `Endpoint.handler_endsIn`: an answer shows stored rows.
- `Endpoint.handler_namedBy`: which rows a request writes.
-/

namespace Barqium.Native.ControlApi

open Program

/-! ## Answers show stored rows -/

/-- The answer shows the row, by itself, in a list or with an accepted rollback. -/
def Response.Shows (response : Response) (t : Table) (row : t.Row) : Prop :=
  response.body = .row t row ∨ (∃ rows, response.body = .rows t rows ∧ row ∈ rows) ∨
    ∃ (h : Table.configCheckpoints = t) (status message : String) (checkpoint : ConfigCheckpoint),
      response.body = .rollback status checkpoint message ∧ row = h ▸ checkpoint

/-- Every row that the answer shows is stored. -/
def Response.Stored (response : Response) (s : Postgres) : Prop :=
  ∀ t row, response.Shows t row → row ∈ s.db.rows t

/-- An answer with one stored row. -/
theorem Response.stored_row {t : Table} {row : t.Row} {status : Nat} {s : Postgres}
    (h : row ∈ s.db.rows t) : Response.Stored ⟨status, .row t row⟩ s := by
  rintro u shown (hbody | ⟨rows, hbody, -⟩ | ⟨-, _, _, _, hbody, -⟩)
  · cases hbody
    exact h
  · cases hbody
  · cases hbody

/-- An answer with stored rows. -/
theorem Response.stored_rows {t : Table} {rows : List t.Row} {status : Nat} {s : Postgres}
    (h : ∀ row ∈ rows, row ∈ s.db.rows t) : Response.Stored ⟨status, .rows t rows⟩ s := by
  rintro u shown (hbody | ⟨rows', hbody, hmem⟩ | ⟨-, _, _, _, hbody, -⟩)
  · cases hbody
  · cases hbody
    exact h shown hmem
  · cases hbody

/-- An answer without rows. -/
theorem Response.stored_of_empty {status : Nat} {s : Postgres} :
    Response.Stored ⟨status, .empty⟩ s := by
  rintro u shown (hbody | ⟨_, hbody, -⟩ | ⟨-, _, _, _, hbody, -⟩)
  · cases hbody
  · cases hbody
  · cases hbody

section Answers

variable {server : Postgres.Server} {ext : Ext} {r : Request} {tenantParam idParam : String}
  {t : Table}

/-- A statement, and what is known when it succeeds. -/
private theorem orFail_endsIn {β : Type} {P : β → Postgres → Prop} {q : Query (Except DbError β)}
    {onError : DbError → Response}
    (h : ∀ s b, (Postgres.exec server q s).1 = .ok b → P b (Postgres.exec server q s).2) :
    (orFail q onError).EndsIn (Postgres.exec server) P := by
  intro s
  constructor
  · intro b hb
    -- a statement that fails ends in its error, which is no row
    cases hresult : (Postgres.exec server q s).1 with
    | ok result =>
      rw [hresult] at hb
      cases hb
      exact h s _ hresult
    | error err =>
      rw [hresult] at hb
      cases hb
  · cases (Postgres.exec server q s).1 with
    | ok b => trivial
    | error err => trivial

/-- The last statement of a handler, whose result is the answer. -/
private theorem orFail_endsIn_stored {β : Type} {q : Query (Except DbError β)}
    {onError : DbError → Response} {answer : β → Response}
    (h : ∀ s b, (Postgres.exec server q s).1 = .ok b →
      (answer b).Stored (Postgres.exec server q s).2) :
    (orFail q onError >>= fun b => (pure (answer b) : Handler)).EndsIn (Postgres.exec server)
      Response.Stored := by
  refine (orFail_endsIn h).bind (fun b s response hP hdone => ?_) fun _ => trivial
  cases hdone
  exact hP

/-- A row that was read is stored. -/
private theorem mem_of_selectOne {p : t.Row → Bool} {s : Postgres} {row : t.Row}
    (h : (Postgres.exec server (.selectOne t p) s).1 = .ok row) :
    row ∈ (Postgres.exec server (.selectOne t p) s).2.db.rows t := by
  rw [Postgres.exec_selectOne_db]
  exact List.mem_of_find?_eq_some (Postgres.find?_of_exec_selectOne server s h)

/-- A row that was created is stored then. -/
private theorem mem_of_insertOne {row : UUID → Time → t.Row} {s : Postgres} {created : t.Row}
    (h : (Postgres.exec server (.insertOne t row) s).1 = .ok created) :
    created ∈ (Postgres.exec server (.insertOne t row) s).2.db.rows t := by
  rcases Postgres.exec_insertOne_cases server s row with ⟨err, herr, -⟩ | ⟨new, hnew, -, -, hdb⟩
  · rw [h] at herr
    cases herr
  · rw [h] at hnew
    cases hnew
    rw [hdb, Db.setRows_rows_self]
    exact List.mem_append_right _ (List.mem_singleton.mpr rfl)

/-- A row that was updated is stored then. -/
private theorem mem_of_updateOne {p : t.Row → Bool} {set : Time → t.Row → t.Row} {s : Postgres}
    {updated : t.Row} (h : (Postgres.exec server (.updateOne t p set) s).1 = .ok updated) :
    updated ∈ (Postgres.exec server (.updateOne t p set) s).2.db.rows t := by
  rcases Postgres.exec_updateOne_cases server s p set with
    ⟨err, herr, -⟩ | ⟨old, new, hnew, -, hold, -, hdb⟩
  · rw [h] at herr
    cases herr
  · rw [h] at hnew
    cases hnew
    rw [hdb, Db.setRows_rows_self]
    exact List.mem_map.mpr
      ⟨old, List.mem_of_find?_eq_some hold, if_pos (List.find?_some hold)⟩

/-- Rows that were listed are stored. -/
private theorem mem_of_selectMany {p : t.Row → Bool} {le : t.Row → t.Row → Bool}
    {limit offset : Int32} {s : Postgres} {rows : List t.Row}
    (h : (Postgres.exec server (.selectMany t p le limit offset) s).1 = .ok rows) :
    ∀ row ∈ rows, row ∈ (Postgres.exec server (.selectMany t p le limit offset) s).2.db.rows t := by
  intro row hrow
  rw [Postgres.exec_selectMany_db]
  rcases Postgres.statement_cases server s
    (fun _ db => db.selectPage t p le limit offset) with ⟨err, herr, -⟩ | ⟨found, hfound, -, hpage⟩
  · have h : (s.statement server fun _ db => db.selectPage t p le limit offset).1 = .ok rows := h
    rw [h] at herr
    cases herr
  · have h : (s.statement server fun _ db => db.selectPage t p le limit offset).1 = .ok rows := h
    rw [h] at hfound
    cases hfound
    unfold Db.selectPage at hpage
    split at hpage
    · cases hpage
    · split at hpage
      · cases hpage
      · rw [Except.ok.injEq, Prod.mk.injEq] at hpage
        rw [← hpage.1] at hrow
        -- the page is a part of the sorted rows
        have hsorted := List.mem_of_mem_drop (List.mem_of_mem_take hrow)
        exact (List.mem_filter.mp (List.mem_mergeSort.mp hsorted)).1

/-! ### Shapes of handlers -/

/-- A read in a tenant is answered with a stored row. -/
private theorem getInTenant_endsIn {invalid notFound : String} :
    (getInTenant t invalid notFound ext tenantParam idParam).EndsIn (Postgres.exec server)
      Response.Stored := by
  apply EndsIn.bind_attempt
  intro tenantId _
  apply EndsIn.bind_attempt
  intro id _
  exact orFail_endsIn_stored fun s row hrow => Response.stored_row (mem_of_selectOne hrow)

/-- A list in a tenant is answered with stored rows. -/
private theorem listInTenant_endsIn {le : t.Row → t.Row → Bool} :
    (listInTenant t le ext r tenantParam).EndsIn (Postgres.exec server) Response.Stored := by
  apply EndsIn.bind_attempt
  intro tenantId _
  exact orFail_endsIn_stored fun s rows hrows => Response.stored_rows (mem_of_selectMany hrows)

/-- What goes before an insertion does not matter. -/
private theorem insertion_endsIn {conflict : String}
    {row : Program Query Response (UUID → Time → t.Row)} :
    (row >>= fun row => orFail (.insertOne t row) (conflictOr conflict) >>= fun created =>
      (pure ⟨201, .row t created⟩ : Handler)).EndsIn (Postgres.exec server) Response.Stored :=
  EndsIn.bind_of_call (fun _ _ h => by cases h) fun _ =>
    orFail_endsIn_stored fun s created h => Response.stored_row (mem_of_insertOne h)

/-- An update comes after the existing row was read and the patch was made. -/
private theorem update_endsIn {conflict : String} {existing : Program Query Response t.Row}
    {p : t.Row → Bool} {patch : t.Row → Program Query Response (Time → t.Row → t.Row)} :
    (existing >>= fun row => patch row >>= fun set =>
      orFail (.updateOne t p set) (conflictOr conflict) >>= fun updated =>
        (pure ⟨200, .row t updated⟩ : Handler)).EndsIn (Postgres.exec server)
      Response.Stored := by
  -- neither program ends before the `UPDATE`
  have hcall : ∀ (set : Time → t.Row → t.Row) response,
      (orFail (.updateOne t p set) (conflictOr conflict) >>= fun updated =>
        (pure ⟨200, .row t updated⟩ : Handler)) ≠ .done (.ok response) := by
    intro set response h
    cases h
  apply EndsIn.bind_of_call fun row => bind_ne_done hcall
  intro row
  apply EndsIn.bind_of_call hcall
  intro set
  exact orFail_endsIn_stored fun s updated h => Response.stored_row (mem_of_updateOne h)

/-- A creation in a tenant is answered with the stored row. -/
private theorem createInTenant_endsIn {conflict : String}
    {row : UUID → Program Query Response (UUID → Time → t.Row)} :
    (createInTenant t conflict ext tenantParam row).EndsIn (Postgres.exec server)
      Response.Stored := by
  apply EndsIn.bind_attempt
  intro tenantId _
  exact insertion_endsIn

/-- A patch in a tenant is answered with the stored row. -/
private theorem updateInTenant_endsIn {invalid notFound conflict : String}
    {patch : UUID → t.Row → Program Query Response (Time → t.Row → t.Row)} :
    (updateInTenant t invalid notFound conflict ext tenantParam idParam patch).EndsIn
      (Postgres.exec server) Response.Stored := by
  apply EndsIn.bind_attempt
  intro tenantId _
  apply EndsIn.bind_attempt
  intro id _
  exact update_endsIn

/-- A deletion in a tenant shows no row. -/
private theorem deleteInTenant_endsIn {invalid : String} :
    (deleteInTenant t invalid ext tenantParam idParam).EndsIn (Postgres.exec server)
      Response.Stored := by
  apply EndsIn.bind_attempt
  intro tenantId _
  apply EndsIn.bind_attempt
  intro id _
  exact orFail_endsIn_stored fun _ _ _ => Response.stored_of_empty

/-- A read by id is answered with a stored row. -/
private theorem getById_endsIn {invalid notFound : String} :
    (getById t invalid notFound ext idParam).EndsIn (Postgres.exec server) Response.Stored := by
  apply EndsIn.bind_attempt
  intro id _
  exact orFail_endsIn_stored fun s row hrow => Response.stored_row (mem_of_selectOne hrow)

/-- A list is answered with stored rows. -/
private theorem listAll_endsIn {le : t.Row → t.Row → Bool} :
    (listAll t le r).EndsIn (Postgres.exec server) Response.Stored :=
  orFail_endsIn_stored fun _ _ hrows => Response.stored_rows (mem_of_selectMany hrows)

/-- A creation is answered with the stored row. -/
private theorem createRow_endsIn {conflict : String} {row : Except Response (UUID → Time → t.Row)} :
    (createRow t conflict row).EndsIn (Postgres.exec server) Response.Stored :=
  insertion_endsIn

/-- A patch by id is answered with the stored row. -/
private theorem updateById_endsIn {invalid notFound conflict : String}
    {patch : t.Row → Except Response (Time → t.Row → t.Row)} :
    (updateById t invalid notFound conflict ext idParam patch).EndsIn (Postgres.exec server)
      Response.Stored := by
  apply EndsIn.bind_attempt
  intro id _
  exact update_endsIn

/-- A deletion by id shows no row. -/
private theorem deleteById_endsIn {invalid : String} :
    (deleteById t invalid ext idParam).EndsIn (Postgres.exec server) Response.Stored := by
  apply EndsIn.bind_attempt
  intro id _
  exact orFail_endsIn_stored fun _ _ _ => Response.stored_of_empty

/-- A rollback is answered with a stored checkpoint. -/
private theorem rollbackCheckpoint_endsIn :
    (rollbackCheckpoint ext r tenantParam).EndsIn (Postgres.exec server) Response.Stored := by
  apply EndsIn.bind_attempt
  intro tenantId _
  apply EndsIn.bind_attempt
  intro req _
  refine orFail_endsIn_stored fun s checkpoint hcheckpoint => ?_
  -- the answer shows the checkpoint that the `SELECT` gave
  rintro u shown (hbody | ⟨_, hbody, -⟩ | ⟨rfl, _, _, _, hbody, rfl⟩)
  · cases hbody
  · cases hbody
  · cases hbody
    exact mem_of_selectOne hcheckpoint

/-- A list of policies is answered with stored rows. -/
private theorem listAiModelPolicies_endsIn {provider : String} :
    (listAiModelPolicies ext r tenantParam provider).EndsIn (Postgres.exec server)
      Response.Stored := by
  apply EndsIn.bind_attempt
  intro tenantId _
  apply EndsIn.bind_attempt
  intro providerId _
  exact orFail_endsIn_stored fun s rows hrows => Response.stored_rows (mem_of_selectMany hrows)

/-- A download shows no row. -/
private theorem downloadWasmBinary_endsIn :
    (downloadWasmBinary ext tenantParam idParam).EndsIn (Postgres.exec server)
      Response.Stored := by
  apply EndsIn.bind_attempt
  intro tenantId _
  apply EndsIn.bind_attempt
  intro id _
  refine orFail_endsIn_stored fun s plugin _ => ?_
  -- the binary or its place is sent, not the row
  unfold downloadWasmBinary.wasmDownload
  rintro u shown hshows
  exfalso
  split at hshows
  all_goals
    rcases hshows with hbody | ⟨_, hbody, -⟩ | ⟨-, _, _, _, hbody, -⟩
    all_goals cases hbody

/-- A new route is answered with the stored row. -/
private theorem createRoute_endsIn :
    (createRoute ext r tenantParam).EndsIn (Postgres.exec server) Response.Stored :=
  createInTenant_endsIn

/-- A new region is answered with the stored row. -/
private theorem createRegion_endsIn :
    (createRegion r).EndsIn (Postgres.exec server) Response.Stored := createRow_endsIn

/-- A new tenant is answered with the stored row. -/
private theorem createTenant_endsIn :
    (createTenant r).EndsIn (Postgres.exec server) Response.Stored := createRow_endsIn

/-- An answer of an endpoint below a tenant shows stored rows. -/
theorem TenantEndpoint.handler_endsIn (endpoint : TenantEndpoint) :
    (endpoint.handler ext r tenantParam).EndsIn (Postgres.exec server) Response.Stored := by
  -- one lemma for each shape of handler
  cases endpoint with
  | createUpstream | createCheckpoint | createAiProvider | createAiModelPolicy providerId
  | createRateLimitPolicy | createWasmPlugin => exact createInTenant_endsIn
  | createRoute => exact createRoute_endsIn
  | listUpstreams | listRoutes | listCheckpoints | listAiProviders | listRateLimitPolicies
  | listWasmPlugins => exact listInTenant_endsIn
  | getUpstream id | getRoute id | getAiProvider id | getAiModelPolicy providerId id
  | getRateLimitPolicy id | getWasmPlugin id => exact getInTenant_endsIn
  | updateUpstream id | updateRoute id | updateAiProvider id | updateAiModelPolicy providerId id
  | updateRateLimitPolicy id | updateWasmPlugin id => exact updateInTenant_endsIn
  | deleteUpstream id | deleteRoute id | deleteAiProvider id | deleteAiModelPolicy providerId id
  | deleteRateLimitPolicy id | deleteWasmPlugin id => exact deleteInTenant_endsIn
  | rollbackCheckpoint => exact rollbackCheckpoint_endsIn
  | listAiModelPolicies providerId => exact listAiModelPolicies_endsIn
  | downloadWasmBinary id => exact downloadWasmBinary_endsIn

/-- Every answer shows stored rows. -/
theorem Endpoint.handler_endsIn (endpoint : Endpoint) :
    (endpoint.handler ext r).EndsIn (Postgres.exec server) Response.Stored := by
  cases endpoint with
  | createRegion => exact createRegion_endsIn
  | createTenant => exact createTenant_endsIn
  | listRegions | listTenants => exact listAll_endsIn
  | getRegion id | getTenant id => exact getById_endsIn
  | updateRegion id | updateTenant id => exact updateById_endsIn
  | deleteRegion id | deleteTenant id => exact deleteById_endsIn
  | inTenant tenantId endpoint => exact endpoint.handler_endsIn

end Answers

/-! ## The row a request writes -/

/-- The row below a tenant that a `PATCH` or `DELETE` names: its table, and its id as it
    stands in the path. -/
def TenantEndpoint.named : TenantEndpoint → Option (Table × String)
  | .updateUpstream id | .deleteUpstream id => some (.upstreams, id)
  | .updateRoute id | .deleteRoute id => some (.routes, id)
  | .updateAiProvider id | .deleteAiProvider id => some (.aiProviders, id)
  | .updateAiModelPolicy _ id | .deleteAiModelPolicy _ id => some (.aiModelPolicies, id)
  | .updateRateLimitPolicy id | .deleteRateLimitPolicy id => some (.rateLimitPolicies, id)
  | .updateWasmPlugin id | .deleteWasmPlugin id => some (.wasmPlugins, id)
  | _ => none

/-- The row that a `PATCH` or `DELETE` names. -/
def Endpoint.named : Endpoint → Option (Table × String)
  | .updateRegion id | .deleteRegion id => some (.regions, id)
  | .updateTenant id | .deleteTenant id => some (.tenants, id)
  | .inTenant _ endpoint => endpoint.named
  | _ => none

/-- The request patches or deletes the row with the key, if it is there. -/
def Endpoint.Names (ext : Ext) (endpoint : Endpoint) (key : Table × UUID) : Prop :=
  ∃ param, endpoint.named = some (key.1, param) ∧ ext.uuidParse param = some key.2

/-- The statement writes no old row but the one that the request names. -/
def Query.NamedBy (ext : Ext) (endpoint : Endpoint) : {β : Type} → Query β → Prop
  | _, .updateOne t p _ => ∀ r, p r = true → endpoint.Names ext (t, t.id r)
  | _, .deleteAll t p =>
    endpoint.write = some (.delete t) ∧ ∀ r, p r = true → endpoint.Names ext (t, t.id r)
  | _, _ => True

/-- A request that only reads or inserts writes no old row. -/
theorem Query.Writes.namedBy {ext : Ext} {endpoint : Endpoint} {β : Type} {q : Query β}
    (h : q.Writes endpoint.write) (hupdate : ∀ t, endpoint.write ≠ some (.update t))
    (hdelete : ∀ t, endpoint.write ≠ some (.delete t)) : q.NamedBy ext endpoint := by
  cases q with
  | updateOne t p set => exact absurd h (hupdate t)
  | deleteAll t p => exact absurd h (hdelete t)
  | _ => trivial

section Named

variable {ext : Ext} {r : Request} {tenantParam idParam : String} {t : Table}
  {endpoint : Endpoint}

/-- A row that a request finds in its tenant is the one that it names. -/
private theorem names_of_rowIn (hnamed : endpoint.named = some (t, idParam)) {id tenantId : UUID}
    (hparse : ext.uuidParse idParam = some id) {row : t.Row}
    (hrow : rowIn t id tenantId row = true) : endpoint.Names ext (t, t.id row) :=
  ⟨idParam, hnamed, by rw [hparse, (rowIn_eq_true.mp hrow).1]⟩

/-- A row that a request finds by its id is the one that it names. -/
private theorem names_of_rowAt (hnamed : endpoint.named = some (t, idParam)) {id : UUID}
    (hparse : ext.uuidParse idParam = some id) {row : t.Row} (hrow : rowAt t id row = true) :
    endpoint.Names ext (t, t.id row) :=
  ⟨idParam, hnamed, by rw [hparse, of_decide_eq_true hrow]⟩

/-- A patch in a tenant writes the row that is named. -/
private theorem updateInTenant_namedBy {invalid notFound conflict : String}
    {patch : UUID → t.Row → Program Query Response (Time → t.Row → t.Row)}
    (hnamed : endpoint.named = some (t, idParam))
    (hpatch : ∀ tenantId existing, (patch tenantId existing).Performs
      (Query.NamedBy ext endpoint)) :
    (updateInTenant t invalid notFound conflict ext tenantParam idParam patch).Performs
      (Query.NamedBy ext endpoint) := by
  apply Performs.bind_attempt
  intro tenantId _
  apply Performs.bind_attempt
  intro id hid
  apply Performs.bind (orFail_performs trivial)
  intro existing
  -- the statements of the patch are named by the endpoint by assumption
  apply Performs.bind (hpatch tenantId existing)
  intro set
  apply Performs.bind
    (orFail_performs fun row hrow => names_of_rowIn hnamed (parseID_eq_ok.mp hid) hrow)
  intro updated
  exact Performs.pure _

/-- A deletion in a tenant deletes the row that is named. -/
private theorem deleteInTenant_namedBy {invalid : String}
    (hnamed : endpoint.named = some (t, idParam)) (hwrite : endpoint.write = some (.delete t)) :
    (deleteInTenant t invalid ext tenantParam idParam).Performs
      (Query.NamedBy ext endpoint) := by
  apply Performs.bind_attempt
  intro tenantId _
  apply Performs.bind_attempt
  intro id hid
  apply Performs.bind
    (orFail_performs ⟨hwrite, fun row hrow => names_of_rowIn hnamed (parseID_eq_ok.mp hid) hrow⟩)
  intro _
  exact Performs.pure _

/-- A patch by id writes the row that is named. -/
private theorem updateById_namedBy {invalid notFound conflict : String}
    {patch : t.Row → Except Response (Time → t.Row → t.Row)}
    (hnamed : endpoint.named = some (t, idParam)) :
    (updateById t invalid notFound conflict ext idParam patch).Performs
      (Query.NamedBy ext endpoint) := by
  apply Performs.bind_attempt
  intro id hid
  apply Performs.bind (orFail_performs trivial)
  intro existing
  apply Performs.bind_attempt
  intro set _
  apply Performs.bind
    -- the `UPDATE` is for the id in the path
    (orFail_performs fun row hrow => names_of_rowAt hnamed (parseID_eq_ok.mp hid) hrow)
  intro updated
  exact Performs.pure _

/-- A deletion by id deletes the row that is named. -/
private theorem deleteById_namedBy {invalid : String} (hnamed : endpoint.named = some (t, idParam))
    (hwrite : endpoint.write = some (.delete t)) :
    (deleteById t invalid ext idParam).Performs (Query.NamedBy ext endpoint) := by
  apply Performs.bind_attempt
  intro id hid
  apply Performs.bind
    (orFail_performs ⟨hwrite, fun row hrow => names_of_rowAt hnamed (parseID_eq_ok.mp hid) hrow⟩)
  intro _
  exact Performs.pure _

/-- The patch of a route writes the route that is named. -/
private theorem updateRoute_namedBy (hnamed : endpoint.named = some (.routes, idParam)) :
    (updateRoute ext r tenantParam idParam).Performs (Query.NamedBy ext endpoint) := by
  apply updateInTenant_namedBy hnamed
  intro tenantId existing
  apply Performs.bind_attempt
  intro req _
  -- the check of the new upstream is a count
  apply Performs.bind (checkOptional_performs fun id => ?_)
  · intro _
    exact Performs.pure _
  · apply Performs.bind (orFail_performs trivial)
    intro _
    exact Performs.pure _

/-- A request writes no old row but the one it names, and deletes only as a `DELETE`. -/
theorem Endpoint.handler_namedBy (endpoint : Endpoint) :
    (endpoint.handler ext r).Performs (Query.NamedBy ext endpoint) := by
  -- only patches and deletions name a row, by the id in the URL
  cases endpoint with
  | updateRegion id | updateTenant id => exact updateById_namedBy rfl
  | deleteRegion id | deleteTenant id => exact deleteById_namedBy rfl rfl
  | createRegion | listRegions | getRegion id | createTenant | listTenants | getTenant id =>
    exact (Endpoint.handler_performs _ ext r).mono fun _ hq => hq.namedBy nofun nofun
  | inTenant tenantParam endpoint =>
    cases endpoint with
    | updateUpstream id | updateAiProvider id | updateAiModelPolicy providerId id
    | updateRateLimitPolicy id | updateWasmPlugin id =>
      exact updateInTenant_namedBy rfl fun _ _ => trivial
    | updateRoute id => exact updateRoute_namedBy rfl
    | deleteUpstream id | deleteRoute id | deleteAiProvider id | deleteAiModelPolicy providerId id
    | deleteRateLimitPolicy id | deleteWasmPlugin id => exact deleteInTenant_namedBy rfl rfl
    | createUpstream | createRoute | createCheckpoint | createAiProvider
    | createAiModelPolicy providerId | createRateLimitPolicy | createWasmPlugin | listUpstreams
    | listRoutes | listCheckpoints | listAiProviders | listAiModelPolicies providerId
    | listRateLimitPolicies | listWasmPlugins | getUpstream id | getRoute id | getAiProvider id
    | getAiModelPolicy providerId id | getRateLimitPolicy id | getWasmPlugin id
    | rollbackCheckpoint | downloadWasmBinary id =>
      exact (Endpoint.handler_performs _ ext r).mono fun _ hq => hq.namedBy nofun nofun

end Named

end Barqium.Native.ControlApi
