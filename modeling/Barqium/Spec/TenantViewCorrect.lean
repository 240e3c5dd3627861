import Mathlib.Data.List.Find
import Barqium.ForStd.Projection
import Barqium.Spec.RouteTenancyCorrect
import Barqium.Spec.PolicyTenancyCorrect
import Barqium.Spec.IntegrityCorrect

/-!
# The part of the database that a tenant sees

A statement that names a tenant in its `WHERE` clause reads the rows of that tenant only,
but Postgres looks at all rows when it checks keys and references and when a deletion
cascades. As long as no reference leaves its tenant, none of this tells the rows of one
tenant anything about those of another: a statement of a tenant does the same on the
tenant's own rows as on the whole database.

## Key results

- `Db.view`: the rows of a tenant, as a database of its own.
- `Db.select_view`, `Db.selectPage_view`, `Db.insert_view`, `Db.update_view`,
  `Db.delete_view`: the statements of a tenant on its own rows.
- `Postgres.exec_view`: the same for the server.
-/

namespace Barqium.Native.ControlApi

namespace Db

/-- The rows of a tenant, as a database of its own. -/
def view (tenantId : UUID) (db : Db) : Db where
  rows t := db.rowsOf t tenantId
  eventOutbox := db.eventOutbox.filter fun e => e.tenantId = tenantId

/-- A row references rows of its own tenant only. -/
def ReferencesInTenant (db : Db) : Prop :=
  ∀ t, ∀ r ∈ db.rows t, ∀ ref ∈ t.references, ∀ x ∈ db.rows ref.target,
    ref.target.id x = ref.column r → ref.target.tenant x = t.tenant r

/-- What the row references is there for its tenant, if it is there at all. -/
def RefsVisible (db : Db) (tenantId : UUID) {t : Table} (r : t.Row) : Prop :=
  ∀ ref ∈ t.references, ref.column r ∈ db.ids ref.target →
    ref.column r ∈ (db.view tenantId).ids ref.target

variable {types : ColumnTypes} {db : Db} {t : Table} {tenantId : UUID}

/-- The view has the tenant's rows. -/
theorem mem_view {u : Table} {r : u.Row} :
    r ∈ (db.view tenantId).rows u ↔ r ∈ db.rows u ∧ u.tenant r = some tenantId := by
  show r ∈ (db.rows u).filter _ ↔ _
  rw [List.mem_filter, decide_eq_true_iff]

/-- The view of a database with other rows in one table. -/
private theorem view_setRows (rows : List t.Row) :
    (db.setRows t rows).view tenantId =
      (db.view tenantId).setRows t (rows.filter fun r => t.tenant r = some tenantId) := by
  have hrows : ((db.setRows t rows).view tenantId).rows =
      ((db.view tenantId).setRows t (rows.filter fun r => t.tenant r = some tenantId)).rows := by
    funext u
    -- the other tables are as they were
    by_cases hu : u = t
    · subst hu
      rw [setRows_rows_self]
      show ((db.setRows u rows).rows u).filter _ = _
      rw [setRows_rows_self]
    · rw [setRows_rows_of_ne _ _ hu]
      show ((db.setRows t rows).rows u).filter _ = _
      rw [setRows_rows_of_ne _ _ hu]
      rfl
  exact congrArg (fun rows => (⟨rows, (db.view tenantId).eventOutbox⟩ : Db)) hrows

/-! ## Reading -/

/-- A search that only hits kept rows finds the same among them. -/
private theorem find?_filter_of_imp {α : Type} {keep p : α → Bool}
    (hp : ∀ r, p r = true → keep r = true) (l : List α) : (l.filter keep).find? p = l.find? p := by
  rw [List.find?_filter]
  apply List.find?_congr
  intro r _
  cases hr : p r with
  | true => simp [hp r hr]
  | false => simp

variable {p : t.Row → Bool}

/-- A `SELECT` by tenant gives the same on the view. -/
theorem select_view (hp : ∀ r, p r = true → t.tenant r = some tenantId) :
    (db.view tenantId).select t p =
      (db.select t p).map fun result => (result.1, result.2.view tenantId) := by
  have hfind : ((db.view tenantId).rows t).find? p = (db.rows t).find? p :=
    find?_filter_of_imp (fun r hr => decide_eq_true (hp r hr)) _
  unfold select
  rw [hfind]
  cases (db.rows t).find? p with
  | none => rfl
  | some row => rfl

/-- A page of a `SELECT` by tenant gives the same on the view. -/
theorem selectPage_view {le : t.Row → t.Row → Bool} {limit offset : Int32}
    (hp : ∀ r, p r = true → t.tenant r = some tenantId) :
    (db.view tenantId).selectPage t p le limit offset =
      (db.selectPage t p le limit offset).map fun result =>
        (result.1, result.2.view tenantId) := by
  -- the statement selects rows of the tenant only
  have hfilter : ((db.view tenantId).rows t).filter p = (db.rows t).filter p := by
    show ((db.rows t).filter _).filter p = _
    rw [List.filter_filter]
    apply List.filter_congr
    intro r _
    cases hr : p r with
    | true => simp [hp r hr]
    | false => simp
  unfold selectPage
  rw [hfilter]
  split
  · rfl
  · split
    · rfl
    · rfl

/-! ## Storing a row -/

/-- Rows with the same keys have the same tenant, but for the slugs of tenants. -/
private theorem tenant_of_sameKey (ht : t ≠ .tenants) {a b : t.Row} (h : t.sameKey a b = true) :
    t.tenant a = t.tenant b := by
  cases t <;>
    simp only [ne_eq, not_true_eq_false, Table.sameKey, Bool.and_eq_true, decide_eq_true_eq,
      Table.tenant] at ht h ⊢
  all_goals first | rfl | simp only [h]

/-- The coercion to the column types leaves the references. -/
private theorem reference_coerce {row r : t.Row} (h : t.coerce types row = .ok r)
    {ref : Table.Reference t} (href : ref ∈ t.references) : ref.column r = ref.column row :=
  List.map_inj_left.mp
    (Table.coerce_keeps (fun (t : Table) (r : t.Row) => t.references.map fun ref => ref.column r)
      (fun _ _ => rfl) (fun _ _ => rfl) h) ref href

/-- A row whose references are visible stays so. -/
private theorem refsVisible_coerce {row r : t.Row} (h : t.coerce types row = .ok r)
    (hrow : db.RefsVisible tenantId row) : db.RefsVisible tenantId r := by
  intro ref href hmem
  rw [reference_coerce h href] at hmem ⊢
  exact hrow ref href hmem

/-- A test that only the kept rows can pass is the same among them. -/
private theorem any_filter_of_imp {α : Type} {keep p : α → Bool} {l : List α}
    (hp : ∀ r ∈ l, p r = true → keep r = true) : (l.filter keep).any p = l.any p := by
  rw [Bool.eq_iff_iff, List.any_eq_true, List.any_eq_true]
  constructor
  · rintro ⟨r, hr, hpr⟩
    exact ⟨r, (List.mem_filter.mp hr).1, hpr⟩
  · rintro ⟨r, hr, hpr⟩
    exact ⟨r, List.mem_filter.mpr ⟨hr, hp r hr hpr⟩, hpr⟩

/-- Some row has the id. -/
private theorem any_id {u : Table} {id : UUID} :
    ((db.rows u).any fun r => u.id r = id) = decide (id ∈ db.ids u) := by
  rw [Bool.eq_iff_iff, List.any_eq_true, decide_eq_true_iff, mem_ids]
  simp only [decide_eq_true_eq]

/-- The checks of a row of the tenant see the rows of the tenant only. -/
private theorem violation_view {others : List t.Row} {row : t.Row} (ht : t ≠ .tenants)
    (htenant : t.tenant row = some tenantId)
    (hid : ∀ r ∈ others, t.id r = t.id row → t.tenant r = some tenantId)
    (hrefs : db.RefsVisible tenantId row) :
    (db.view tenantId).violation t (others.filter fun r => t.tenant r = some tenantId) row =
      db.violation t others row := by
  have hids : ((others.filter fun r => t.tenant r = some tenantId).any fun r => t.id r = t.id row) =
      others.any fun r => t.id r = t.id row :=
    any_filter_of_imp fun r hr h => decide_eq_true (hid r hr (of_decide_eq_true h))
  have hkeys : (others.filter fun r => t.tenant r = some tenantId).any (t.sameKey row) =
      others.any (t.sameKey row) :=
    any_filter_of_imp fun r _ h => decide_eq_true ((tenant_of_sameKey ht h).symm.trans htenant)
  have hfind : (t.references.find? fun ref =>
        !((db.view tenantId).rows ref.target).any fun r => ref.target.id r = ref.column row) =
      t.references.find? fun ref =>
        !(db.rows ref.target).any fun r => ref.target.id r = ref.column row := by
    apply List.find?_congr
    intro ref href
    rw [any_id, any_id]
    congr 1
    rw [decide_eq_decide]
    -- the rows of the tenant are among all rows
    refine ⟨fun h => ?_, hrefs ref href⟩
    obtain ⟨x, hx, hxid⟩ := mem_ids.mp h
    exact mem_ids.mpr ⟨x, (mem_view.mp hx).1, hxid⟩
  unfold violation
  rw [hids, hkeys, hfind]

/-- The constraints judge a row of the tenant on the view as on the whole. -/
private theorem stored_view {others : List t.Row} {row : t.Row} (ht : t ≠ .tenants)
    (htenant : t.tenant row = some tenantId)
    (hid : ∀ r ∈ others, t.id r = t.id row → t.tenant r = some tenantId)
    (hrefs : db.RefsVisible tenantId row) :
    (db.view tenantId).stored types t (others.filter fun r => t.tenant r = some tenantId) row =
      db.stored types t others row := by
  unfold stored
  split
  · rfl
  · cases hcoerce : t.coerce types row with
    | error e => rfl
    | ok r =>
      dsimp only
      rw [violation_view ht (by rw [Table.tenant_coerce hcoerce, htenant])
        (by rwa [Table.id_coerce hcoerce]) (refsVisible_coerce hcoerce hrefs)]

/-- An `INSERT` of a row of the tenant gives the same on the view. -/
theorem insert_view {row : t.Row} (ht : t ≠ .tenants) (htenant : t.tenant row = some tenantId)
    (hfresh : t.id row ∉ db.ids t) (hrefs : db.RefsVisible tenantId row) :
    (db.view tenantId).insert types t row =
      (db.insert types t row).map fun result => (result.1, result.2.view tenantId) := by
  -- no row has the id yet, so the checks see the same
  have hstored : (db.view tenantId).stored types t ((db.view tenantId).rows t) row =
      db.stored types t (db.rows t) row :=
    stored_view ht htenant (fun r hr hid => absurd (mem_ids.mpr ⟨r, hr, hid⟩) hfresh) hrefs
  unfold insert
  rw [hstored]
  cases hr : db.stored types t (db.rows t) row with
  | error e => rfl
  | ok r =>
    have hrtenant : t.tenant r = some tenantId := by
      rw [Table.tenant_coerce (stored_eq_ok.mp hr).2.1, htenant]
    simp only [Except.map, view_setRows, List.filter_append, List.filter_cons, hrtenant,
      decide_true, if_true, List.filter_nil]
    rfl

/-- An `UPDATE` that stays inside the tenant gives the same on the view. -/
theorem update_view {p : t.Row → Bool} {set : t.Row → t.Row} (ht : t ≠ .tenants)
    (hp : ∀ r, p r = true → t.tenant r = some tenantId)
    (hset : ∀ r, p r = true → t.tenant (set r) = some tenantId)
    (hid : ∀ r ∈ db.rows t, ∀ r' ∈ db.rows t, p r = true → t.id r' = t.id (set r) → p r' = true)
    (hrefs : ∀ r ∈ db.rows t, p r = true → db.RefsVisible tenantId (set r)) :
    (db.view tenantId).update types t p set =
      (db.update types t p set).map fun result => (result.1, result.2.view tenantId) := by
  -- the row to update is seen
  have hfind : ((db.view tenantId).rows t).find? p = (db.rows t).find? p :=
    find?_filter_of_imp (fun r hr => decide_eq_true (hp r hr)) _
  unfold update
  rw [hfind]
  cases hold : (db.rows t).find? p with
  | none => rfl
  | some old =>
    have hpold := List.find?_some hold
    have hmem := List.mem_of_find?_eq_some hold
    -- the rows that stay are the visible ones of those that stay
    have hothers : (((db.view tenantId).rows t).filter fun r => !p r) =
        ((db.rows t).filter fun r => !p r).filter fun r => t.tenant r = some tenantId := by
      show ((db.rows t).filter _).filter _ = _
      rw [List.filter_filter, List.filter_filter]
      exact List.filter_congr fun r _ => Bool.and_comm _ _
    have hstored : (db.view tenantId).stored types t
        (((db.rows t).filter fun r => !p r).filter fun r => t.tenant r = some tenantId) (set old) =
        db.stored types t ((db.rows t).filter fun r => !p r) (set old) := by
      refine stored_view ht (hset old hpold) (fun r hr hrid => ?_) (hrefs old hmem hpold)
      -- no row is left with the id of the one that is replaced
      obtain ⟨hr, hpr⟩ := List.mem_filter.mp hr
      rw [hid old hmem r hr hpold hrid] at hpr
      cases hpr
    dsimp only
    rw [hothers, hstored]
    cases hr : db.stored types t ((db.rows t).filter fun r => !p r) (set old) with
    | error e => rfl
    | ok r =>
      have hrtenant : t.tenant r = some tenantId := by
        rw [Table.tenant_coerce (stored_eq_ok.mp hr).2.1, hset old hpold]
      -- the new table, seen by the tenant
      have hmap : (((db.rows t).map fun x => if p x then r else x).filter fun x =>
          t.tenant x = some tenantId) =
          ((db.view tenantId).rows t).map fun x => if p x then r else x := by
        rw [List.filter_map]
        congr 1
        apply List.filter_congr
        intro x _
        by_cases hpx : p x = true
        · simp [hpx, hrtenant, hp x hpx]
        · simp [hpx]
      simp only [Except.map, view_setRows, hmap]

/-! ## Deletions -/

/-- Below the tenants, what a deletion of rows of the tenant cascades to does not depend on
    the other tenants. -/
private theorem deleted_view {p : t.Row → Bool} (ht : t ≠ .tenants)
    (hp : ∀ r, p r = true → t.tenant r = some tenantId) {u : Table} (r : u.Row) :
    (db.view tenantId).deleted t p u r = db.deleted t p u r := by
  by_cases hproviders : t = .aiProviders
  · subst hproviders
    -- the providers to delete are all seen
    have hfilter : ((db.view tenantId).rows .aiProviders).filter p =
        (db.rows .aiProviders).filter p := by
      show ((db.rows .aiProviders).filter _).filter p = _
      rw [List.filter_filter]
      apply List.filter_congr
      intro x _
      cases hx : p x with
      | true => simp [hp x hx]
      | false => simp
    simp only [deleted, dif_neg (Ne.symm ht), List.filter_false, List.map_nil,
      List.contains_nil, Option.any_false, Bool.or_false, dif_pos, hfilter]
  · by_cases hu : u = t
    · subst hu
      rw [deleted_self _ ht hproviders, deleted_self _ ht hproviders]
    · rw [deleted_of_ne _ ht hproviders hu, deleted_of_ne _ ht hproviders hu]

/-- An upstream that is deleted is one of the tenant. -/
private theorem tenant_of_deleted_upstream {p : t.Row → Bool} (ht : t ≠ .tenants)
    (hp : ∀ r, p r = true → t.tenant r = some tenantId) {u : Upstream}
    (hgone : db.deleted t p .upstreams u = true) : u.tenantId = tenantId := by
  by_cases hproviders : t = .aiProviders
  · subst hproviders
    rw [deleted_aiProviders_of_ne _ _ (by decide) (by decide)] at hgone
    cases hgone
  · -- an upstream goes with its own table only
    by_cases hu : Table.upstreams = t
    · subst hu
      rw [deleted_self _ ht hproviders] at hgone
      exact Option.some.inj (hp u hgone)
    · rw [deleted_of_ne _ ht hproviders hu] at hgone
      cases hgone

/-- A route that references a removed upstream is one of the tenant, so the tenant's own
    rows tell whether the deletion is allowed. -/
theorem delete_view {p : t.Row → Bool} (ht : t ≠ .tenants)
    (hp : ∀ r, p r = true → t.tenant r = some tenantId) (hrefs : db.ReferencesInTenant) :
    (db.view tenantId).delete t p =
      (db.delete t p).map fun result => (result.1, result.2.view tenantId) := by
  -- the same rows go
  have hgone : (db.view tenantId).deleted t p = db.deleted t p := by
    funext u r
    exact deleted_view ht hp r
  have hrows : ∀ u : Table, (((db.view tenantId).rows u).filter fun r => !db.deleted t p u r) =
      ((db.rows u).filter fun r => !db.deleted t p u r).filter fun r =>
        u.tenant r = some tenantId := by
    intro u
    show ((db.rows u).filter _).filter _ = _
    rw [List.filter_filter, List.filter_filter]
    exact List.filter_congr fun r _ => Bool.and_comm _ _
  -- so do the same upstreams
  have hupstreams : ((db.view tenantId).rows .upstreams).filter (db.deleted t p .upstreams) =
      (db.rows .upstreams).filter (db.deleted t p .upstreams) := by
    show ((db.rows .upstreams).filter _).filter _ = _
    rw [List.filter_filter]
    apply List.filter_congr
    intro u _
    cases hu : db.deleted t p .upstreams u with
    | true => simp [Table.tenant, tenant_of_deleted_upstream ht hp hu]
    | false => simp
  -- and the same routes stand in the way
  have hcheck : ∀ gone : List UUID,
      gone = ((db.rows .upstreams).filter (db.deleted t p .upstreams)).map Upstream.id →
      (((db.rows .routes).filter fun r => !db.deleted t p .routes r).filter fun r =>
          Table.routes.tenant r = some tenantId).any
          (fun r => gone.contains (Route.upstreamId r)) =
        ((db.rows .routes).filter fun r => !db.deleted t p .routes r).any
          fun r => gone.contains (Route.upstreamId r) := by
    rintro gone rfl
    apply any_filter_of_imp
    intro r hr hcontains
    obtain ⟨u, hu, hid⟩ := List.mem_map.mp (List.contains_iff_mem.mp hcontains)
    obtain ⟨hu, hugone⟩ := List.mem_filter.mp hu
    have htenant := hrefs .routes r (List.mem_filter.mp hr).1
      ⟨"routes_upstream_id_fkey", .upstreams, Route.upstreamId⟩ (by simp [Table.references]) u hu
      hid
    rw [decide_eq_true_iff, ← htenant]
    exact congrArg some (tenant_of_deleted_upstream ht hp hugone)
  unfold delete
  simp only [hgone, hrows, hupstreams, hcheck _ rfl]
  split
  · rfl
  · rfl

end Db

/-! ## Statements -/

/-- The database server with the rows of the tenant only. -/
def Postgres.view (tenantId : UUID) (s : Postgres) : Postgres := ⟨s.executed, s.db.view tenantId⟩

/-- A statement reads rows of the tenant only. -/
def Query.ReadsOwn (tenantId : UUID) : {β : Type} → Query β → Prop
  | _, .selectOne t p => ∀ r, p r = true → t.tenant r = some tenantId
  | _, .selectMany t p _ _ _ => ∀ r, p r = true → t.tenant r = some tenantId
  | _, _ => True

/-- A statement does not write the tenants themselves. -/
def Query.BelowTenants : {β : Type} → Query β → Prop
  | _, .insertOne t _ => t ≠ .tenants
  | _, .updateOne t _ _ => t ≠ .tenants
  | _, .deleteAll t _ => t ≠ .tenants
  | _, _ => True

/-- A statement of a tenant. -/
structure Query.Local (tenantId : UUID) {β : Type} (q : Query β) : Prop where
  reads : q.ReadsOwn tenantId
  writes : q.Within tenantId
  keyed : q.Keyed
  below : q.BelowTenants

/-- What the row to be stored references is visible to the tenant. -/
def Query.StoresVisible (tenantId : UUID) (db : Db) : {β : Type} → Query β → Prop
  | _, .insertOne _ row => ∀ id now, db.RefsVisible tenantId (row id now)
  | _, .updateOne t p set =>
    ∀ r ∈ db.rows t, p r = true → ∀ now, db.RefsVisible tenantId (set now r)
  | _, _ => True

namespace Postgres

variable {server : Server} {s : Postgres} {tenantId : UUID}

/-- A statement commutes with the view if its effect does. -/
theorem statement_view {β : Type} (effect : StatementEnv → Db → Except DbError (β × Db))
    (h : effect (server.env s.executed) (s.db.view tenantId) =
      (effect (server.env s.executed) s.db).map fun result => (result.1, result.2.view tenantId)) :
    (s.view tenantId).statement server effect =
      ((s.statement server effect).1, (s.statement server effect).2.view tenantId) := by
  unfold statement
  dsimp only [view]
  -- a fault is the same on the view
  cases (server.env s.executed).fault with
  | some text => rfl
  | none =>
    dsimp only
    rw [h]
    cases effect (server.env s.executed) s.db with
    | error e => rfl
    | ok result => rfl

/-- A statement of the tenant does the same on the tenant's rows as on all rows. -/
theorem exec_view {β : Type} {q : Query β} (hlocal : q.Local tenantId)
    (hvisible : q.StoresVisible tenantId s.db) (hrefs : s.db.ReferencesInTenant)
    (hids : s.db.IdsNodup) (hfresh : ∀ t, (server.env s.executed).newId ∉ s.db.ids t) :
    exec server q (s.view tenantId) = ((exec server q s).1, (exec server q s).2.view tenantId) := by
  obtain ⟨hreads, hwrites, hkeyed, hbelow⟩ := hlocal
  -- each statement on the view as on the whole database
  cases q with
  | insertOne t row =>
    apply statement_view fun env db => db.insert server.types t (row env.newId env.now)
    apply Db.insert_view hbelow (hwrites _ _) _ (hvisible _ _)
    rw [hkeyed _ _]
    exact hfresh t
  | selectOne t p => exact statement_view (fun _ db => db.select t p) (Db.select_view hreads)
  | selectMany t p le limit offset =>
    exact statement_view (fun _ db => db.selectPage t p le limit offset) (Db.selectPage_view hreads)
  | updateOne t p set =>
    apply statement_view fun env db => db.update server.types t p (set env.now)
    apply Db.update_view hbelow (fun r hr => (hwrites r 0 hr).1)
    · exact fun r hr => (hwrites r _ hr).2
    · intro r hr r' hr' hpr hid
      rw [hkeyed.2] at hid
      have heq : r' = r := List.inj_on_of_nodup_map (hids t) hr' hr hid
      rw [heq]
      exact hpr
    · exact fun r hr hpr => hvisible r hr hpr _
  | deleteAll t p =>
    exact statement_view (fun _ db => db.delete t p) (Db.delete_view hbelow hwrites hrefs)

end Postgres

end Barqium.Native.ControlApi
