import Mathlib.Data.List.Nodup
import Barqium.Spec.HandlersCorrect

/-!
# Ids and tenants of the stored rows

A row is stored under the id that the server generated, and no statement of the API
changes its id or its tenant afterwards.

## Key results

- `Endpoint.handler_keepsTenant`: no endpoint moves a row to another tenant.
- `Query.Effect.nodup_ids`: no statement of the API stores an id twice.
- `Postgres.mem_keys_exec`: the ids and tenants in a table after a statement.
-/

namespace Barqium.Native.ControlApi

open Program

/-! ## Tenants -/

/-- An update keeps the tenant of the rows it writes. -/
def Query.KeepsTenant : {β : Type} → Query β → Prop
  | _, .updateOne t p set => ∃ tenantId : Option UUID, ∀ r now, p r = true →
      t.tenant r = tenantId ∧ t.tenant (set now r) = tenantId
  | _, _ => True

/-- A statement below a tenant keeps the tenants of rows. -/
theorem Query.Under.keepsTenant {ext : Ext} {tenantParam : String} {write : Option Write}
    {β : Type} {q : Query β} (h : q.Under ext tenantParam write) : q.KeepsTenant := by
  obtain ⟨tenantId, -, -, hwithin⟩ := h
  cases q with
  | updateOne t p set => exact ⟨some tenantId, hwithin⟩
  | _ => trivial

/-- A region has no tenant. -/
theorem Query.Writes.keepsTenant {write : Option Write} {β : Type} {q : Query β}
    (h : q.Writes write) (hupdate : ∀ t, write = some (.update t) → t = .regions) :
    q.KeepsTenant := by
  cases q with
  | updateOne t p set =>
    obtain rfl := hupdate t h
    exact ⟨none, fun _ _ _ => ⟨rfl, rfl⟩⟩
  | _ => trivial

/-- Whatever the endpoint, no row changes its tenant. -/
theorem Endpoint.handler_keepsTenant (endpoint : Endpoint) (ext : Ext) (r : Request) :
    (endpoint.handler ext r).Performs Query.KeepsTenant := by
  cases endpoint with
  | inTenant tenantId endpoint =>
    exact (endpoint.handler_performs ext r tenantId).mono fun _ hq => hq.keepsTenant
  | updateTenant id => exact updateTenant_performs.mono fun _ hq => hq.keepsTenant
  | createRegion | listRegions | getRegion id | updateRegion id | deleteRegion id
  | createTenant | deleteTenant id | listTenants | getTenant id =>
    apply (Endpoint.handler_performs _ ext r).mono
    intro β q hq
    exact hq.keepsTenant (by simp [Endpoint.write])

/-! ## Ids -/

/-- The ids in every table are distinct. -/
def Db.IdsNodup (db : Db) : Prop := ∀ t, ((db.rows t).map t.id).Nodup

/-- Replacing rows by one with the same value of `f`. -/
theorem map_map_replace {α γ : Type} {f : α → γ} {p : α → Bool} {r : α}
    (hr : ∀ x, p x = true → f x = f r) (l : List α) :
    (l.map fun x => if p x then r else x).map f = l.map f := by
  rw [List.map_map]
  apply List.map_congr_left
  intro x _
  by_cases hx : p x = true
  · simp [hx, hr x hx]
  · simp [hx]

/-- An update stores a row with the id of the rows it replaces. -/
theorem Db.id_of_update {types : ColumnTypes} {db : Db} {t : Table} {p : t.Row → Bool}
    {set : Time → t.Row → t.Row} {now : Time} {old r : t.Row} {others : List t.Row}
    (hq : (Query.updateOne t p set).Keyed) (hold : (db.rows t).find? p = some old)
    (hstored : db.stored types t others (set now old) = .ok r) {x : t.Row} (hx : p x = true) :
    t.id x = t.id r := by
  obtain ⟨⟨id, hid⟩, hset⟩ := hq
  have hr : t.id r = t.id old := by
    rw [Table.id_coerce (Db.stored_eq_ok.mp hstored).2.1, hset]
  rw [hr, hid x hx, hid old (List.find?_some hold)]

/-- A statement that keeps ids keeps them distinct. -/
theorem Query.Effect.nodup_ids {types : ColumnTypes} {db db' : Db} {β : Type} {q : Query β}
    (hq : q.Keyed) (h : q.Effect types db db') (hdb : db.IdsNodup) : db'.IdsNodup := by
  intro v
  cases q with
  | selectOne t p =>
    rw [show db' = db from h]
    exact hdb v
  | selectMany t p le limit offset =>
    rw [show db' = db from h]
    exact hdb v
  | insertOne t row =>
    rcases h with rfl | ⟨id, now, r, hstored, rfl⟩
    · exact hdb v
    · by_cases hv : v = t
      · subst hv
        -- the primary key was checked
        have hkeys := (Db.violation_eq_none.mp (Db.stored_eq_ok.mp hstored).2.2).2.1
        have hnew : v.id r ∉ (db.rows v).map v.id := by
          intro hmem
          obtain ⟨x, hx, hid⟩ := List.mem_map.mp hmem
          exact (hkeys x hx).1 hid
        rw [Db.setRows_rows_self, List.map_append, List.map_singleton]
        exact List.nodup_append.mpr ⟨hdb v, List.nodup_singleton _, by
          intro a ha b hb
          rw [List.mem_singleton.mp hb]
          rintro rfl
          exact hnew ha⟩
      · rw [Db.setRows_rows_of_ne db _ hv]
        exact hdb v
  | updateOne t p set =>
    rcases h with rfl | ⟨now, old, r, hold, hstored, rfl⟩
    · exact hdb v
    · by_cases hv : v = t
      · subst hv
        -- all rows of the `WHERE` clause have the id of the stored row
        have hids : ∀ x, p x = true → v.id x = v.id r := fun x hx =>
          Db.id_of_update hq hold hstored hx
        rw [Db.setRows_rows_self, map_map_replace hids]
        exact hdb v
      · rw [Db.setRows_rows_of_ne db _ hv]
        exact hdb v
  | deleteAll t p =>
    rcases h with rfl | rfl
    · exact hdb v
    · exact (hdb v).sublist (List.filter_sublist.map v.id)

/-! ## Keys -/

/-- The ids in a table, with the tenants of the rows. -/
def Db.keys (db : Db) (t : Table) : List (UUID × Option UUID) :=
  (db.rows t).map fun r => (t.id r, t.tenant r)

/-- The keys of a table are those of its rows. -/
theorem Db.mem_keys {db : Db} {t : Table} {k : UUID × Option UUID} :
    k ∈ db.keys t ↔ ∃ r ∈ db.rows t, t.id r = k.1 ∧ t.tenant r = k.2 := by
  simp only [keys, List.mem_map, Prod.ext_iff]

/-- A row is known by its id. -/
theorem Db.IdsNodup.tenant_eq {db : Db} (h : db.IdsNodup) {t : Table} {k k' : UUID × Option UUID}
    (hk : k ∈ db.keys t) (hk' : k' ∈ db.keys t) (hid : k.1 = k'.1) : k.2 = k'.2 := by
  obtain ⟨r, hr, hrid, htenant⟩ := Db.mem_keys.mp hk
  obtain ⟨r', hr', hrid', htenant'⟩ := Db.mem_keys.mp hk'
  have hrr : r = r' := List.inj_on_of_nodup_map (h t) hr hr' (by rw [hrid, hrid', hid])
  rw [← htenant, ← htenant', hrr]

namespace Postgres

variable {server : Server} {s : Postgres}

/-- An update keeps the keys of its table. -/
theorem keys_updateOne {t : Table} {p : t.Row → Bool} {set : Time → t.Row → t.Row}
    (hkeyed : (Query.updateOne t p set).Keyed) (htenant : (Query.updateOne t p set).KeepsTenant)
    (v : Table) : (exec server (.updateOne t p set) s).2.db.keys v = s.db.keys v := by
  rcases exec_updateOne_cases server s p set with ⟨-, -, hdb⟩ | ⟨old, r, -, -, hold, hstored, hdb⟩
  · rw [hdb]
  · rw [hdb]
    by_cases hv : v = t
    · subst hv
      obtain ⟨tenantId, htenant⟩ := htenant
      -- the stored row has the tenant of the row it replaces
      have hr : v.tenant r = tenantId := by
        rw [Table.tenant_coerce (Db.stored_eq_ok.mp hstored).2.1]
        exact (htenant old _ (List.find?_some hold)).2
      rw [Db.keys, Db.setRows_rows_self]
      apply map_map_replace
      intro x hx
      rw [Db.id_of_update hkeyed hold hstored hx, hr, (htenant x 0 hx).1]
    · rw [Db.keys, Db.setRows_rows_of_ne _ _ hv, Db.keys]

/-- A key after a statement was there before, or is of the row that was inserted. -/
theorem mem_keys_exec {β : Type} {q : Query β} (hkeyed : q.Keyed) (htenant : q.KeepsTenant)
    {v : Table} {k : UUID × Option UUID} (hk : k ∈ (exec server q s).2.db.keys v) :
    k ∈ s.db.keys v ∨ k.1 = (server.env s.executed).newId := by
  -- only an insertion adds a key, and its id is new
  cases q with
  | insertOne t row =>
    obtain ⟨r, hr, rfl⟩ := List.mem_map.mp hk
    by_cases hv : v = t
    · subst hv
      rcases mem_rows_insertOne hr with hr | ⟨-, hstored⟩
      · exact .inl (List.mem_map.mpr ⟨r, hr, rfl⟩)
      · right
        show v.id r = _
        rw [Table.id_coerce (Db.stored_eq_ok.mp hstored).2.1]
        exact hkeyed _ _
    · rw [rows_insertOne_of_ne row hv] at hr
      exact .inl (List.mem_map.mpr ⟨r, hr, rfl⟩)
  | updateOne t p set =>
    rw [keys_updateOne hkeyed htenant] at hk
    exact .inl hk
  | selectOne t p =>
    rw [exec_selectOne_db] at hk
    exact .inl hk
  | selectMany t p le limit offset =>
    rw [exec_selectMany_db] at hk
    exact .inl hk
  | deleteAll t p => exact .inl (((rows_deleteAll_sublist p v).map _).subset hk)

/-- An insertion keeps the keys. -/
theorem keys_subset_insertOne {t : Table} (row : UUID → Time → t.Row) (v : Table) :
    s.db.keys v ⊆ (exec server (.insertOne t row) s).2.db.keys v := by
  rcases exec_insertOne_cases server s row with ⟨-, -, hdb⟩ | ⟨r, -, -, hstored, hdb⟩
  · rw [hdb]
    exact fun _ hk => hk
  · rw [hdb]
    -- the new row is added to its own table
    by_cases hv : v = t
    · subst hv
      rw [Db.keys, Db.keys, Db.setRows_rows_self, List.map_append]
      exact List.subset_append_left _ _
    · rw [Db.keys, Db.keys, Db.setRows_rows_of_ne _ _ hv]
      exact fun _ hk => hk

end Postgres

end Barqium.Native.ControlApi
