import Barqium.Native.ControlApi.Router

/-!
# What the statements of the control API do to the database

Every statement either leaves the database as it was or stores one row, changes the
rows its `WHERE` clause selects, or removes rows. The proofs about handlers use this
description and never the execution of a statement.

## Key results

- `Postgres.exec_effect`: the effect of every statement.
- `Postgres.exec_insertOne_cases`, `exec_updateOne_cases`: the same with the result and the
  server's choices.
- `Query.Effect.eventOutbox_eq`: no statement writes the outbox.
- `Query.Effect.filter_rows`, `run_filter_rows`: a statement, and a program, that spares
  a family of rows keeps it.
- `run_keeps_db`: an invariant of the allowed statements is one of the program.
- `Db.deleted_self`, `Db.deleted_aiProviders`: the rows a deletion below the tenants removes.
-/

namespace Barqium.Native.ControlApi

/-- The rows of a tenant in a table. -/
def Db.rowsOf (db : Db) (t : Table) (tenantId : UUID) : List t.Row :=
  (db.rows t).filter fun r => t.tenant r = some tenantId

/-! ## The effect of a statement -/

/-- What the statement may do to the database. -/
def Query.Effect (types : ColumnTypes) (db db' : Db) : {β : Type} → Query β → Prop
  | _, .insertOne t row => db' = db ∨ ∃ id now r,
      db.stored types t (db.rows t) (row id now) = .ok r ∧
        db' = db.setRows t (db.rows t ++ [r])
  | _, .selectOne _ _ => db' = db
  | _, .selectMany _ _ _ _ _ => db' = db
  | _, .updateOne t p set => db' = db ∨ ∃ now old r, (db.rows t).find? p = some old ∧
      db.stored types t ((db.rows t).filter fun x => !p x) (set now old) = .ok r ∧
        db' = db.setRows t ((db.rows t).map fun x => if p x then r else x)
  | _, .deleteAll t p => db' = db ∨
      db' = { db with rows := fun u => (db.rows u).filter fun r => !db.deleted t p u r }

namespace Db

variable {types : ColumnTypes} {db db' : Db} {t : Table} {p : t.Row → Bool}

/-- What an insertion that succeeds does. -/
private theorem insert_eq_ok {row r : t.Row} (h : db.insert types t row = .ok (r, db')) :
    db.stored types t (db.rows t) row = .ok r ∧ db' = db.setRows t (db.rows t ++ [r]) := by
  unfold insert at h
  split at h
  · cases h
  · rename_i hstored
    cases h
    exact ⟨hstored, rfl⟩

/-- What a selection that succeeds does. -/
private theorem select_eq_ok {r : t.Row} (h : db.select t p = .ok (r, db')) :
    (db.rows t).find? p = some r ∧ db' = db := by
  unfold select at h
  split at h
  · cases h
  · rename_i hfind
    cases h
    exact ⟨hfind, rfl⟩

/-- A selection of a page changes nothing. -/
private theorem selectPage_eq_ok {le : t.Row → t.Row → Bool} {limit offset : Int32}
    {rs : List t.Row} (h : db.selectPage t p le limit offset = .ok (rs, db')) : db' = db := by
  unfold selectPage at h
  split at h
  · cases h
  · split at h
    · cases h
    · cases h
      rfl

/-- What an update that succeeds does. -/
private theorem update_eq_ok {set : t.Row → t.Row} {r : t.Row}
    (h : db.update types t p set = .ok (r, db')) :
    ∃ old, (db.rows t).find? p = some old ∧
      db.stored types t ((db.rows t).filter fun x => !p x) (set old) = .ok r ∧
      db' = db.setRows t ((db.rows t).map fun x => if p x then r else x) := by
  unfold update at h
  split at h
  · cases h
  · rename_i old hold
    split at h
    · cases h
    · rename_i hstored
      cases h
      exact ⟨old, hold, hstored, rfl⟩

/-- What a deletion does. -/
theorem delete_eq_ok (h : db.delete t p = .ok ((), db')) :
    db' = { db with rows := fun u => (db.rows u).filter fun r => !db.deleted t p u r } := by
  simp only [delete] at h
  split at h
  · cases h
  · cases h
    rfl

/-- A deletion leaves no route without an upstream it had. -/
theorem delete_keeps_upstream (h : db.delete t p = .ok ((), db')) {r : Route}
    (hr : r ∈ db'.rows .routes) {u : Upstream} (hu : u ∈ db.rows .upstreams)
    (hid : u.id = r.upstreamId) : u ∈ db'.rows .upstreams := by
  simp only [delete] at h
  split at h
  · cases h
  · rename_i hcheck
    cases h
    refine List.mem_filter.mpr ⟨hu, ?_⟩
    cases hgone : db.deleted t p .upstreams u with
    | false => rfl
    | true =>
      -- the check at the end would have found the route
      exfalso
      apply hcheck
      refine List.any_eq_true.mpr ⟨r, hr, ?_⟩
      rw [List.contains_iff_mem, ← hid]
      exact List.mem_map.mpr ⟨u, List.mem_filter.mpr ⟨hu, hgone⟩, rfl⟩

end Db

namespace Postgres

section Choices

variable (server : Server) (s : Postgres)

/-- Every statement counts, whether it succeeds or not. -/
theorem exec_executed {β : Type} (q : Query β) :
    (exec server q s).2.executed = s.executed + 1 := by
  -- every query is executed by `statement`, which counts it whatever the outcome
  have hstatement : ∀ {γ : Type} (effect : StatementEnv → Db → Except DbError (γ × Db)),
      (s.statement server effect).2.executed = s.executed + 1 := by
    intro γ effect
    unfold statement
    dsimp only
    split
    · rfl
    · split
      · rfl
      · rfl
  cases q <;> exact hstatement _

/-- A statement fails and leaves the database alone, or has its effect for the id and the
    time that the server chose. -/
theorem statement_cases {β : Type} (effect : StatementEnv → Db → Except DbError (β × Db)) :
    (∃ err, (s.statement server effect).1 = .error err ∧
      (s.statement server effect).2.db = s.db) ∨
    ∃ b, (s.statement server effect).1 = .ok b ∧ (server.env s.executed).fault = none ∧
      effect (server.env s.executed) s.db = .ok (b, (s.statement server effect).2.db) := by
  -- a fault comes before the statement is looked at
  cases hfault : (server.env s.executed).fault with
  | some text =>
    left
    exact ⟨.other text, by simp only [statement, hfault], by simp only [statement, hfault]⟩
  | none =>
    cases heffect : effect (server.env s.executed) s.db with
    | error e =>
      left
      exact ⟨e, by simp only [statement, hfault, heffect],
        by simp only [statement, hfault, heffect]⟩
    | ok result =>
      right
      exact ⟨result.1, by simp only [statement, hfault, heffect], rfl,
        by simp only [statement, hfault, heffect]⟩

/-- An insertion fails and changes nothing, or it appends the stored row. -/
theorem exec_insertOne_cases {t : Table} (row : UUID → Time → t.Row) :
    (∃ err, (exec server (.insertOne t row) s).1 = .error err ∧
      (exec server (.insertOne t row) s).2.db = s.db) ∨
    ∃ r, (exec server (.insertOne t row) s).1 = .ok r ∧
      (server.env s.executed).fault = none ∧
      s.db.stored server.types t (s.db.rows t)
        (row (server.env s.executed).newId (server.env s.executed).now) = .ok r ∧
      (exec server (.insertOne t row) s).2.db = s.db.setRows t (s.db.rows t ++ [r]) := by
  rcases statement_cases server s _ with h | ⟨r, hr, hfault, heffect⟩
  · exact .inl h
  · obtain ⟨hstored, hdb⟩ := Db.insert_eq_ok heffect
    exact .inr ⟨r, hr, hfault, hstored, hdb⟩

/-- A selection changes nothing; it fails or gives the first row. -/
theorem exec_selectOne_cases {t : Table} (p : t.Row → Bool) :
    (exec server (.selectOne t p) s).2.db = s.db ∧
      ((∃ err, (exec server (.selectOne t p) s).1 = .error err) ∨
        ∃ r, (exec server (.selectOne t p) s).1 = .ok r ∧ (s.db.rows t).find? p = some r) := by
  rcases statement_cases server s _ with ⟨err, herr, hdb⟩ | ⟨r, hr, -, heffect⟩
  · exact ⟨hdb, .inl ⟨err, herr⟩⟩
  · obtain ⟨hfind, hdb⟩ := Db.select_eq_ok heffect
    exact ⟨hdb, .inr ⟨r, hr, hfind⟩⟩

/-- A selection changes nothing. -/
theorem exec_selectOne_db {t : Table} (p : t.Row → Bool) :
    (exec server (.selectOne t p) s).2.db = s.db :=
  (exec_selectOne_cases server s p).1

/-- The row that a lookup returns is the first one in the table. -/
theorem find?_of_exec_selectOne {t : Table} {p : t.Row → Bool} {row : t.Row}
    (h : (exec server (.selectOne t p) s).1 = .ok row) : (s.db.rows t).find? p = some row := by
  obtain ⟨-, ⟨err, herr⟩ | ⟨found, hfound, hfind⟩⟩ := exec_selectOne_cases server s p
  · rw [h] at herr
    cases herr
  · rw [h] at hfound
    cases hfound
    exact hfind

/-- An update fails and changes nothing, or it replaces the rows it matches. -/
theorem exec_updateOne_cases {t : Table} (p : t.Row → Bool) (set : Time → t.Row → t.Row) :
    (∃ err, (exec server (.updateOne t p set) s).1 = .error err ∧
      (exec server (.updateOne t p set) s).2.db = s.db) ∨
    ∃ old r, (exec server (.updateOne t p set) s).1 = .ok r ∧
      (server.env s.executed).fault = none ∧ (s.db.rows t).find? p = some old ∧
      s.db.stored server.types t ((s.db.rows t).filter fun x => !p x)
        (set (server.env s.executed).now old) = .ok r ∧
      (exec server (.updateOne t p set) s).2.db =
        s.db.setRows t ((s.db.rows t).map fun x => if p x then r else x) := by
  rcases statement_cases server s _ with h | ⟨r, hr, hfault, heffect⟩
  · exact .inl h
  · obtain ⟨old, hold, hstored, hdb⟩ := Db.update_eq_ok heffect
    exact .inr ⟨old, r, hr, hfault, hold, hstored, hdb⟩

/-- A deletion changes nothing, or it cascades. -/
theorem exec_deleteAll_cases {t : Table} (p : t.Row → Bool) :
    (exec server (.deleteAll t p) s).2.db = s.db ∨
      s.db.delete t p = .ok ((), (exec server (.deleteAll t p) s).2.db) := by
  rcases statement_cases server s _ with ⟨-, -, hdb⟩ | ⟨_, -, -, heffect⟩
  · exact .inl hdb
  · exact .inr heffect

/-- A selection of many rows changes nothing. -/
theorem exec_selectMany_db {t : Table} (p : t.Row → Bool) (le : t.Row → t.Row → Bool)
    (limit offset : Int32) : (exec server (.selectMany t p le limit offset) s).2.db = s.db := by
  rcases statement_cases server s _ with ⟨-, -, hdb⟩ | ⟨rs, -, -, heffect⟩
  · exact hdb
  · exact Db.selectPage_eq_ok heffect

end Choices

/-- A statement changes the database in the way of its kind. -/
theorem exec_effect (server : Server) {β : Type} (q : Query β) (s : Postgres) :
    q.Effect server.types s.db (exec server q s).2.db := by
  -- for each statement: nothing, or the change with its constraints checked
  cases q with
  | insertOne t row =>
    rcases exec_insertOne_cases server s row with ⟨-, -, hdb⟩ | ⟨r, -, -, hstored, hdb⟩
    · exact .inl hdb
    · exact .inr ⟨_, _, r, hstored, hdb⟩
  | selectOne t p => exact exec_selectOne_db server s p
  | selectMany t p le limit offset => exact exec_selectMany_db server s p le limit offset
  | updateOne t p set =>
    rcases exec_updateOne_cases server s p set with
      ⟨-, -, hdb⟩ | ⟨old, r, -, -, hold, hstored, hdb⟩
    · exact .inl hdb
    · exact .inr ⟨_, old, r, hold, hstored, hdb⟩
  | deleteAll t p =>
    rcases exec_deleteAll_cases server s p with hdb | heffect
    · exact .inl hdb
    · exact .inr (Db.delete_eq_ok heffect)

section Writes

variable {server : Server} {t : Table} {row : UUID → Time → t.Row} {s : Postgres}

/-- An insertion stores the row for the server's choices. -/
theorem exec_insertOne_ok {r : t.Row} (hfault : (server.env s.executed).fault = none)
    (hstored : s.db.stored server.types t (s.db.rows t)
      (row (server.env s.executed).newId (server.env s.executed).now) = .ok r) :
    exec server (.insertOne t row) s =
      (.ok r, ⟨s.executed + 1, s.db.setRows t (s.db.rows t ++ [r])⟩) := by
  simp only [exec, statement, hfault, Db.insert, hstored]

/-- An insertion whose row cannot be stored fails and leaves the database alone. -/
theorem exec_insertOne_error
    (h : (server.env s.executed).fault = none → ∀ r,
      s.db.stored server.types t (s.db.rows t)
        (row (server.env s.executed).newId (server.env s.executed).now) ≠ .ok r) :
    ∃ err, exec server (.insertOne t row) s = (.error err, ⟨s.executed + 1, s.db⟩) := by
  cases hfault : (server.env s.executed).fault with
  | some text => exact ⟨.other text, by simp only [exec, statement, hfault]⟩
  | none =>
    cases hstored : s.db.stored server.types t (s.db.rows t)
        (row (server.env s.executed).newId (server.env s.executed).now) with
    | error err => exact ⟨err, by simp only [exec, statement, hfault, Db.insert, hstored]⟩
    | ok r => exact absurd hstored (h hfault r)

/-- An update replaces the rows of its `WHERE` clause by the row for the server's choices. -/
theorem exec_updateOne_ok {p : t.Row → Bool} {set : Time → t.Row → t.Row} {old r : t.Row}
    (hfault : (server.env s.executed).fault = none) (hold : (s.db.rows t).find? p = some old)
    (hstored : s.db.stored server.types t ((s.db.rows t).filter fun x => !p x)
      (set (server.env s.executed).now old) = .ok r) :
    exec server (.updateOne t p set) s =
      (.ok r, ⟨s.executed + 1,
        s.db.setRows t ((s.db.rows t).map fun x => if p x then r else x)⟩) := by
  simp only [exec, statement, hfault, Db.update, hold, hstored]

end Writes

/-- A row that is there is read. -/
theorem exec_selectOne_ok {server : Server} {t : Table} {p : t.Row → Bool} {s : Postgres}
    {row : t.Row} (hfault : (server.env s.executed).fault = none)
    (hfound : (s.db.rows t).find? p = some row) :
    exec server (.selectOne t p) s = (.ok row, ⟨s.executed + 1, s.db⟩) := by
  simp only [exec, statement, hfault, Db.select, hfound]

/-- A row cannot be read from an empty table. -/
theorem exec_selectOne_empty (server : Server) {t : Table} (p : t.Row → Bool) {s : Postgres}
    (h : s.db.rows t = []) :
    ∃ err, exec server (.selectOne t p) s = (.error err, ⟨s.executed + 1, s.db⟩) := by
  cases hfault : (server.env s.executed).fault with
  | some text => exact ⟨.other text, by simp only [exec, statement, hfault]⟩
  | none => exact ⟨.noRows, by simp only [exec, statement, hfault, Db.select, h, List.find?_nil]⟩

end Postgres

namespace Db

variable {types : ColumnTypes} {db : Db}

@[simp] theorem setRows_rows_self (db : Db) (t : Table) (rows : List t.Row) :
    (db.setRows t rows).rows t = rows := Function.update_self ..

/-- Setting one table leaves the others. -/
theorem setRows_rows_of_ne (db : Db) {t u : Table} (rows : List t.Row) (h : u ≠ t) :
    (db.setRows t rows).rows u = db.rows u := Function.update_of_ne h ..

/-- A stored row has the types of its columns and violates no constraint. -/
theorem stored_eq_ok {t : Table} {others : List t.Row} {row r : t.Row} :
    db.stored types t others row = .ok r ↔
      ((t.texts row).any fun s => s.toList.contains '\x00') = false ∧
        t.coerce types row = .ok r ∧ db.violation t others r = none := by
  unfold stored
  constructor
  · intro h
    split at h
    · cases h
    · -- the three checks in their order
      rename_i htexts
      split at h
      · cases h
      · rename_i row' hcoerce
        split at h
        · cases h
        · rename_i hviolation
          cases h
          exact ⟨by simpa using htexts, hcoerce, hviolation⟩
  · rintro ⟨htexts, hcoerce, hviolation⟩
    simp only [htexts, Bool.false_eq_true, ↓reduceIte, hcoerce, hviolation]

/-- A row may be stored if it passes the checks, shares no key with another row, and
    references rows that are there. -/
theorem violation_eq_none {t : Table} {others : List t.Row} {row : t.Row} :
    db.violation t others row = none ↔
      t.failedCheck row = none ∧
        (∀ r ∈ others, t.id r ≠ t.id row ∧ t.sameKey row r = false) ∧
        ∀ ref ∈ t.references, ∃ r ∈ db.rows ref.target, ref.target.id r = ref.column row := by
  unfold violation
  -- the row's own check comes first
  cases hcheck : t.failedCheck row with
  | some constraint => simp
  | none =>
    simp only [true_and]
    constructor
    · intro h
      split at h
      · cases h
      · -- then the id and the unique key, and last the references
        rename_i hid
        split at h
        · cases h
        · rename_i hkey
          simp only [List.any_eq_true, decide_eq_true_eq, not_exists, not_and,
            Bool.not_eq_true] at hid hkey
          refine ⟨fun r hr => ⟨hid r hr, hkey r hr⟩, ?_⟩
          simpa using h
    · rintro ⟨hkeys, hrefs⟩
      have hid : others.any (fun r => t.id r = t.id row) = false := by
        simpa using fun r hr => (hkeys r hr).1
      have hkey : others.any (t.sameKey row) = false := by
        simpa using fun r hr => (hkeys r hr).2
      rw [if_neg (by simp [hid]), if_neg (by simp [hkey])]
      simpa using hrefs

end Db

/-! ## Rows after a statement -/

namespace Postgres

variable {server : Server} {s : Postgres} {t v : Table}

/-- An insertion leaves the other tables. -/
theorem rows_insertOne_of_ne (row : UUID → Time → t.Row) (hv : v ≠ t) :
    (exec server (.insertOne t row) s).2.db.rows v = s.db.rows v := by
  rcases exec_insertOne_cases server s row with ⟨-, -, hdb⟩ | ⟨r, -, -, -, hdb⟩
  · rw [hdb]
  · rw [hdb, Db.setRows_rows_of_ne _ _ hv]

/-- After an insertion there is one row that was not there before. -/
theorem mem_rows_insertOne {row : UUID → Time → t.Row} {r : t.Row}
    (hr : r ∈ (exec server (.insertOne t row) s).2.db.rows t) :
    r ∈ s.db.rows t ∨ (server.env s.executed).fault = none ∧
      s.db.stored server.types t (s.db.rows t)
        (row (server.env s.executed).newId (server.env s.executed).now) = .ok r := by
  rcases exec_insertOne_cases server s row with ⟨-, -, hdb⟩ | ⟨new, -, hfault, hstored, hdb⟩
  · rw [hdb] at hr
    exact .inl hr
  · rw [hdb, Db.setRows_rows_self, List.mem_append, List.mem_singleton] at hr
    rcases hr with hr | rfl
    · exact .inl hr
    · exact .inr ⟨hfault, hstored⟩

/-- An update leaves the other tables. -/
theorem rows_updateOne_of_ne (p : t.Row → Bool) (set : Time → t.Row → t.Row) (hv : v ≠ t) :
    (exec server (.updateOne t p set) s).2.db.rows v = s.db.rows v := by
  rcases exec_updateOne_cases server s p set with ⟨-, -, hdb⟩ | ⟨old, r, -, -, -, -, hdb⟩
  · rw [hdb]
  · rw [hdb, Db.setRows_rows_of_ne _ _ hv]

/-- A row after an update was there before, or is the patched one. -/
theorem mem_rows_updateOne {p : t.Row → Bool} {set : Time → t.Row → t.Row} {r : t.Row}
    (hr : r ∈ (exec server (.updateOne t p set) s).2.db.rows t) :
    r ∈ s.db.rows t ∨ ∃ old ∈ s.db.rows t, p old = true ∧
      s.db.stored server.types t ((s.db.rows t).filter fun x => !p x)
        (set (server.env s.executed).now old) = .ok r := by
  rcases exec_updateOne_cases server s p set with
    ⟨-, -, hdb⟩ | ⟨old, new, -, -, hold, hstored, hdb⟩
  · rw [hdb] at hr
    exact .inl hr
  · rw [hdb, Db.setRows_rows_self] at hr
    obtain ⟨x, hx, rfl⟩ := List.mem_map.mp hr
    -- a row that satisfies the condition has been replaced
    by_cases hp : p x = true
    · rw [if_pos hp]
      exact .inr ⟨old, List.mem_of_find?_eq_some hold, List.find?_some hold, hstored⟩
    · rw [if_neg hp]
      exact .inl hx

/-- A deletion only takes rows away. -/
theorem rows_deleteAll_sublist (p : t.Row → Bool) (v : Table) :
    ((exec server (.deleteAll t p) s).2.db.rows v).Sublist (s.db.rows v) := by
  rcases exec_effect server (.deleteAll t p) s with hdb | hdb
  · rw [hdb]
  · rw [hdb]
    exact List.filter_sublist

end Postgres

/-- Only the columns with types of their own change when a row is stored. -/
theorem Table.coerce_keeps {types : ColumnTypes} {γ : Type} (f : (t : Table) → t.Row → γ)
    (hbudget : ∀ (r : AiModelPolicy) b,
      f .aiModelPolicies ({ r with budgetUsdPerDay := b } : AiModelPolicy) = f .aiModelPolicies r)
    (hconfig : ∀ (r : WasmPlugin) c,
      f .wasmPlugins ({ r with config := c } : WasmPlugin) = f .wasmPlugins r)
    {t : Table} {row r : t.Row} (h : t.coerce types row = .ok r) : f t r = f t row := by
  cases t with
  | aiModelPolicies =>
    simp only [coerce] at h
    -- a policy without a budget has nothing to convert
    split at h
    · cases h
      rfl
    · rename_i budget _
      cases hnumeric : types.numeric budget with
      | error e => simp only [hnumeric, Except.map, reduceCtorEq] at h
      | ok b =>
        simp only [hnumeric, Except.map, Except.ok.injEq] at h
        rw [← h]
        exact hbudget row (some b)
  | rateLimitPolicies =>
    simp only [coerce] at h
    split at h
    · cases h
    · split at h
      · cases h
      · cases h
        rfl
  | wasmPlugins =>
    simp only [coerce] at h
    split at h
    · cases h
    · cases hjsonb : types.jsonb (WasmPlugin.config row) with
      | error e => simp only [hjsonb, Except.map, reduceCtorEq] at h
      | ok c =>
        simp only [hjsonb, Except.map, Except.ok.injEq] at h
        rw [← h]
        exact hconfig row c
  | _ =>
    -- the other tables hold plain texts and numbers
    cases h
    rfl

/-- Storing a row keeps its tenant. -/
theorem Table.tenant_coerce {types : ColumnTypes} {t : Table} {row r : t.Row}
    (h : t.coerce types row = .ok r) : t.tenant r = t.tenant row :=
  coerce_keeps Table.tenant (fun _ _ => rfl) (fun _ _ => rfl) h

/-- Storing a row keeps its id. -/
theorem Table.id_coerce {types : ColumnTypes} {t : Table} {row r : t.Row}
    (h : t.coerce types row = .ok r) : t.id r = t.id row :=
  coerce_keeps Table.id (fun _ _ => rfl) (fun _ _ => rfl) h

/-! ## Deletions -/

namespace Db

variable {t u : Table} {p : t.Row → Bool}

/-- A deletion from a table that nothing cascades from removes the rows of its `WHERE`
    clause. -/
theorem deleted_self (db : Db) (htenants : t ≠ .tenants) (hproviders : t ≠ .aiProviders)
    (r : t.Row) : db.deleted t p t r = p r := by
  -- no tenant and no provider goes, so nothing cascades
  simp only [deleted, dif_neg (Ne.symm htenants), dif_neg (Ne.symm hproviders)]
  cases t <;> simp

/-- Only deletions of tenants and providers reach other tables. -/
theorem deleted_of_ne (db : Db) (htenants : t ≠ .tenants) (hproviders : t ≠ .aiProviders)
    (hu : u ≠ t) (r : u.Row) : db.deleted t p u r = false := by
  simp only [deleted, dif_neg (Ne.symm htenants), dif_neg (Ne.symm hproviders), dif_neg hu]
  cases u <;> simp

/-- The deletion of providers takes the policies with it that reference one of them. -/
theorem deleted_aiProviders (db : Db) (p : AiProvider → Bool) (r : AiModelPolicy) :
    db.deleted .aiProviders p .aiModelPolicies r = true ↔
      ∃ provider ∈ db.rows .aiProviders, p provider = true ∧ provider.id = r.providerId := by
  simp [deleted, and_assoc]

/-- Whatever removes a provider, the policies that reference it go with it. -/
theorem deleted_policy {db : Db} {provider : AiProvider} {r : AiModelPolicy}
    (hmem : provider ∈ db.rows .aiProviders)
    (hgone : db.deleted t p .aiProviders provider = true) (hid : provider.id = r.providerId) :
    db.deleted t p .aiModelPolicies r = true := by
  simp only [deleted, Bool.or_false] at hgone
  simp only [deleted, Bool.or_eq_true]
  right
  rw [List.contains_iff_mem, ← hid]
  exact List.mem_map.mpr ⟨provider, List.mem_filter.mpr ⟨hmem, by simpa using hgone⟩, rfl⟩

/-- A deletion of providers deletes the ones it matches. -/
theorem deleted_aiProviders_self (db : Db) (p : AiProvider → Bool) (r : AiProvider) :
    db.deleted .aiProviders p .aiProviders r = p r := by
  simp [deleted]

/-- Besides policies it reaches no other table. -/
theorem deleted_aiProviders_of_ne (db : Db) (p : AiProvider → Bool) (hself : u ≠ .aiProviders)
    (hpolicies : u ≠ .aiModelPolicies) (r : u.Row) : db.deleted .aiProviders p u r = false := by
  simp only [deleted, dif_neg hself]
  cases u <;> simp at hpolicies ⊢

end Db

/-! ## Frames -/

/-- Elements outside a filter may be replaced by another one outside it. -/
private theorem filter_map_replace {α : Type} {keep p : α → Bool} {r : α} (hr : keep r = false)
    (hp : ∀ x, p x = true → keep x = false) (l : List α) :
    (l.map fun x => if p x then r else x).filter keep = l.filter keep := by
  induction l with
  | nil => rfl
  | cons x xs ih =>
    by_cases hx : p x = true
    · simp [hx, hr, hp x hx, ih]
    · simp [hx, List.filter_cons, ih]

/-- The statement writes no row of the family `keep`, whatever the database. -/
def Query.Spares (keep : (t : Table) → t.Row → Bool) : {β : Type} → Query β → Prop
  | _, .insertOne t row => ∀ id now, keep t (row id now) = false
  | _, .selectOne _ _ => True
  | _, .selectMany _ _ _ _ _ => True
  | _, .updateOne t p set => ∀ r now, p r = true → keep t r = false ∧ keep t (set now r) = false
  | _, .deleteAll t p => ∀ db u r, Db.deleted db t p u r = true → keep u r = false

namespace Query.Effect

variable {types : ColumnTypes} {db db' : Db} {β : Type} {q : Query β}

/-- No statement changes the outbox. -/
theorem eventOutbox_eq (h : q.Effect types db db') : db'.eventOutbox = db.eventOutbox := by
  -- no statement touches the outbox
  cases q with
  | insertOne t row =>
    rcases h with rfl | ⟨id, now, r, -, rfl⟩
    · rfl
    · rfl
  | selectOne t p => rw [show db' = db from h]
  | selectMany t p le limit offset => rw [show db' = db from h]
  | updateOne t p set =>
    rcases h with rfl | ⟨now, old, r, -, -, rfl⟩
    · rfl
    · rfl
  | deleteAll t p =>
    rcases h with rfl | rfl
    · rfl
    · rfl

/-- A deletion keeps the rows that it does not reach. -/
theorem filter_deleteAll {t v : Table} {p : t.Row → Bool} {keep : v.Row → Bool}
    (h : (Query.deleteAll t p).Effect types db db')
    (hkeep : ∀ r, db.deleted t p v r = true → keep r = false) :
    (db'.rows v).filter keep = (db.rows v).filter keep := by
  rcases h with rfl | rfl
  · rfl
  · rw [List.filter_filter]
    apply List.filter_congr
    intro r _
    cases hr : db.deleted t p v r with
    | false => simp
    | true => simp [hkeep r hr]

/-- A statement that spares a family of rows keeps it as it was, provided that storing
    a row does not bring it into the family. -/
theorem filter_rows {keep : (t : Table) → t.Row → Bool}
    (hcoerce : ∀ t row r, t.coerce types row = .ok r → keep t r = keep t row)
    (hq : q.Spares keep) (h : q.Effect types db db') (v : Table) :
    (db'.rows v).filter (keep v) = (db.rows v).filter (keep v) := by
  cases q with
  | selectOne t p => rw [show db' = db from h]
  | selectMany t p le limit offset => rw [show db' = db from h]
  | insertOne t row =>
    rcases h with rfl | ⟨id, now, r, hstored, rfl⟩
    · rfl
    · by_cases hv : v = t
      · subst hv
        -- the row as it is stored, not as it was sent
        have hr : keep v r = false := by
          rw [hcoerce v _ r (Db.stored_eq_ok.mp hstored).2.1]
          exact hq id now
        simp [hr]
      · rw [Db.setRows_rows_of_ne db _ hv]
  | updateOne t p set =>
    rcases h with rfl | ⟨now, old, r, hold, hstored, rfl⟩
    · rfl
    · by_cases hv : v = t
      · subst hv
        have hr : keep v r = false := by
          rw [hcoerce v _ r (Db.stored_eq_ok.mp hstored).2.1]
          exact (hq old now (List.find?_some hold)).2
        rw [Db.setRows_rows_self]
        exact filter_map_replace hr (fun x hx => (hq x now hx).1) (db.rows v)
      · rw [Db.setRows_rows_of_ne db _ hv]
  | deleteAll t p => exact filter_deleteAll h (hq db v)

end Query.Effect

/-! ## Programs -/

/-- What the effect of every allowed statement keeps, a program keeps. -/
theorem run_keeps_db {server : Postgres.Server} {allowed : {β : Type} → Query β → Prop}
    {I : Db → Prop} {α : Type}
    (hI : ∀ {β : Type} (q : Query β) (db db' : Db), allowed q → q.Effect server.types db db' →
      I db → I db')
    {x : Program Query Response α} (hx : x.Performs allowed) (s : Postgres) (hs : I s.db) :
    I (x.run (Postgres.exec server) s).2.db := by
  let P (s' : Postgres) : Prop := I s'.db
  have hstep : ∀ {β : Type} (q : Query β) (s' : Postgres), allowed q → P s' →
      P (Postgres.exec server q s').2 := by
    intro β q s' hq hs'
    exact hI q s'.db _ hq (Postgres.exec_effect server q s') hs'
  exact hx.run (P := P) hstep hs

/-- A program that spares a family of rows keeps it as it was. -/
theorem run_filter_rows {keep : (t : Table) → t.Row → Bool} {server : Postgres.Server} {α : Type}
    (hcoerce : ∀ t row r, t.coerce server.types row = .ok r → keep t r = keep t row)
    {x : Program Query Response α} (hx : x.Performs (Query.Spares keep)) (s : Postgres)
    (v : Table) :
    ((x.run (Postgres.exec server) s).2.db.rows v).filter (keep v) =
      (s.db.rows v).filter (keep v) := by
  apply run_keeps_db (I := fun db => (db.rows v).filter (keep v) = (s.db.rows v).filter (keep v))
    _ hx s rfl
  intro β q db db' hq heffect hdb
  rw [heffect.filter_rows hcoerce hq v, hdb]

end Barqium.Native.ControlApi
