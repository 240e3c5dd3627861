import Mathlib.Data.List.Pairwise
import Barqium.Spec.ConcurrentCorrect

/-!
# Integrity of the database

Postgres checks one statement at a time, and a deletion cascades. Here: what the checks and
the cascades keep true of the whole database, whatever statements the requests in progress
run and in whatever order.

## Key results

- `Db.Consistent`: the constraints of the migrations, as properties of the stored rows.
- `Db.Consistent.insert`, `.update`, `.delete`: what each kind of write keeps.
- `Deployment.consistent_interleave`: the constraints hold in every interleaving.
- `Deployment.rowsOf_interleave_of_deleted`: a tenant that is gone has left nothing.
-/

namespace Barqium.Native.ControlApi

/-- The values of a row are what its table accepts. -/
structure Table.Accepts (types : ColumnTypes) (t : Table) (r : t.Row) : Prop where
  checks : t.failedCheck r = none
  texts : ∀ s ∈ t.texts r, '\x00' ∉ s.toList
  /-- The columns with types of their own hold what Postgres made of a value. -/
  typed : ∃ row, t.coerce types row = .ok r

/-- The ids of the rows of a table. -/
def Db.ids (db : Db) (t : Table) : List UUID := (db.rows t).map t.id

/-- The constraints that the migrations put on the tables. -/
structure Db.Consistent (types : ColumnTypes) (db : Db) : Prop where
  rows : ∀ t, ∀ r ∈ db.rows t, t.Accepts types r
  ids : db.IdsNodup
  keys : ∀ t, (db.rows t).Pairwise fun a b => t.sameKey a b = false
  references : ∀ t, ∀ r ∈ db.rows t, ∀ ref ∈ t.references, ref.column r ∈ db.ids ref.target

/-- Two rows share a key or do not, whichever comes first. -/
theorem Table.sameKey_comm (t : Table) (a b : t.Row) : t.sameKey a b = t.sameKey b a := by
  cases t <;> simp only [sameKey, eq_comm]

/-- The text columns are not among those that are converted. -/
theorem Table.texts_coerce {types : ColumnTypes} {t : Table} {row r : t.Row}
    (h : t.coerce types row = .ok r) : t.texts r = t.texts row :=
  coerce_keeps Table.texts (fun _ _ => rfl) (fun _ _ => rfl) h

namespace Db

variable {types : ColumnTypes} {db db' : Db} {t : Table}

theorem mem_ids {id : UUID} : id ∈ db.ids t ↔ ∃ r ∈ db.rows t, t.id r = id := List.mem_map

/-- A row that Postgres stores is one that its table accepts. -/
private theorem accepts_of_stored {others : List t.Row} {row r : t.Row}
    (h : db.stored types t others row = .ok r) : t.Accepts types r := by
  obtain ⟨htexts, hcoerce, hviolation⟩ := stored_eq_ok.mp h
  refine ⟨(violation_eq_none.mp hviolation).1, fun s hs hnul => ?_, row, hcoerce⟩
  rw [Table.texts_coerce hcoerce] at hs
  have hany : ((t.texts row).any fun s => s.toList.contains '\x00') = true :=
    List.any_eq_true.mpr ⟨s, hs, List.contains_iff_mem.mpr hnul⟩
  rw [htexts] at hany
  cases hany

/-- The keys of a row that Postgres stores are not taken. -/
private theorem sameKey_of_stored {others : List t.Row} {row r : t.Row}
    (h : db.stored types t others row = .ok r) {x : t.Row} (hx : x ∈ others) :
    t.sameKey r x = false :=
  ((violation_eq_none.mp (stored_eq_ok.mp h).2.2).2.1 x hx).2

/-- What a row that Postgres stores references is there. -/
private theorem references_of_stored {others : List t.Row} {row r : t.Row}
    (h : db.stored types t others row = .ok r) {ref : Table.Reference t}
    (href : ref ∈ t.references) : ref.column r ∈ db.ids ref.target :=
  mem_ids.mpr ((violation_eq_none.mp (stored_eq_ok.mp h).2.2).2.2 ref href)

namespace Consistent

/-! ## Writes of one row -/

/-- A row that passed the checks may be inserted. -/
theorem insert (h : db.Consistent types) {r : t.Row} {id : UUID} {now : Time}
    {row : UUID → Time → t.Row} (hkeyed : (Query.insertOne t row).Keyed)
    (hstored : db.stored types t (db.rows t) (row id now) = .ok r) :
    (db.setRows t (db.rows t ++ [r])).Consistent types where
  ids := Query.Effect.nodup_ids hkeyed (.inr ⟨id, now, r, hstored, rfl⟩) h.ids
  -- the new row was checked, the others were there before
  rows v x hx := by
    by_cases hv : v = t
    · subst hv
      rw [setRows_rows_self, List.mem_append, List.mem_singleton] at hx
      rcases hx with hx | rfl
      · exact h.rows v x hx
      · exact accepts_of_stored hstored
    · rw [setRows_rows_of_ne db _ hv] at hx
      exact h.rows v x hx
  -- the new row's key was compared with every other
  keys v := by
    by_cases hv : v = t
    · subst hv
      rw [setRows_rows_self, List.pairwise_append]
      refine ⟨h.keys v, List.pairwise_singleton .., fun a ha b hb => ?_⟩
      rw [List.mem_singleton.mp hb, Table.sameKey_comm]
      exact sameKey_of_stored hstored ha
    · rw [setRows_rows_of_ne db _ hv]
      exact h.keys v
  references v x hx ref href := by
    -- no id is lost
    have hids : ∀ u, db.ids u ⊆ (db.setRows t (db.rows t ++ [r])).ids u := by
      intro u
      by_cases hu : u = t
      · subst hu
        rw [Db.ids, Db.ids, setRows_rows_self, List.map_append]
        exact List.subset_append_left ..
      · rw [Db.ids, Db.ids, setRows_rows_of_ne db _ hu]
        exact List.Subset.refl _
    apply hids
    by_cases hv : v = t
    · subst hv
      rw [setRows_rows_self, List.mem_append, List.mem_singleton] at hx
      rcases hx with hx | rfl
      · exact h.references v x hx ref href
      · exact references_of_stored hstored href
    · rw [setRows_rows_of_ne db _ hv] at hx
      exact h.references v x hx ref href

/-- A row that passed the checks may take the place of another. -/
theorem update (h : db.Consistent types) {p : t.Row → Bool} {set : Time → t.Row → t.Row}
    {old r : t.Row} {now : Time} (hkeyed : (Query.updateOne t p set).Keyed)
    (hold : (db.rows t).find? p = some old)
    (hstored : db.stored types t ((db.rows t).filter fun x => !p x) (set now old) = .ok r) :
    (db.setRows t ((db.rows t).map fun x => if p x then r else x)).Consistent types where
  ids := Query.Effect.nodup_ids hkeyed (.inr ⟨now, old, r, hold, hstored, rfl⟩) h.ids
  -- a row of the new table is the checked one or an old one
  rows v x hx := by
    by_cases hv : v = t
    · subst hv
      rw [setRows_rows_self] at hx
      obtain ⟨y, hy, rfl⟩ := List.mem_map.mp hx
      by_cases hp : p y = true
      · rw [if_pos hp]
        exact accepts_of_stored hstored
      · rw [if_neg hp]
        exact h.rows v y hy
    · rw [setRows_rows_of_ne db _ hv] at hx
      exact h.rows v x hx
  keys v := by
    by_cases hv : v = t
    · subst hv
      rw [setRows_rows_self, List.pairwise_map]
      -- two rows of the table have two ids
      have hdistinct : (db.rows v).Pairwise fun a b => v.id a ≠ v.id b :=
        List.pairwise_map.mp (h.ids v)
      refine ((h.keys v).and hdistinct).imp_of_mem ?_
      rintro a b ha hb ⟨hkey, hid⟩
      -- the new row was checked against those that stay
      have hothers : ∀ x ∈ db.rows v, p x ≠ true → v.sameKey r x = false := fun x hx hp =>
        sameKey_of_stored hstored (List.mem_filter.mpr ⟨hx, by simpa using hp⟩)
      by_cases hpa : p a = true
      · by_cases hpb : p b = true
        · -- two rows of the `WHERE` clause have one id
          obtain ⟨⟨id, hwhere⟩, -⟩ := hkeyed
          exact absurd ((hwhere a hpa).trans (hwhere b hpb).symm) hid
        · rw [if_pos hpa, if_neg hpb]
          exact hothers b hb hpb
      · by_cases hpb : p b = true
        · rw [if_neg hpa, if_pos hpb, Table.sameKey_comm]
          exact hothers a ha hpa
        · rw [if_neg hpa, if_neg hpb]
          exact hkey
    · rw [setRows_rows_of_ne db _ hv]
      exact h.keys v
  references v x hx ref href := by
    -- an update keeps the ids
    have hids : ∀ u, (db.setRows t ((db.rows t).map fun x => if p x then r else x)).ids u =
        db.ids u := by
      intro u
      by_cases hu : u = t
      · subst hu
        rw [Db.ids, Db.ids, setRows_rows_self]
        exact map_map_replace (f := u.id) (fun x hx => Db.id_of_update hkeyed hold hstored hx) _
      · rw [Db.ids, Db.ids, setRows_rows_of_ne db _ hu]
    rw [hids]
    by_cases hv : v = t
    · subst hv
      rw [setRows_rows_self] at hx
      obtain ⟨y, hy, rfl⟩ := List.mem_map.mp hx
      by_cases hp : p y = true
      · rw [if_pos hp]
        exact references_of_stored hstored href
      · rw [if_neg hp]
        exact h.references v y hy ref href
    · rw [setRows_rows_of_ne db _ hv] at hx
      exact h.references v x hx ref href

/-! ## Deletions -/

end Consistent

/-- The rows of a tenant go with it. -/
private theorem deleted_of_tenant {p : t.Row → Bool} {u : Table} {r : u.Row} {tenant : Tenant}
    (hmem : tenant ∈ db.rows .tenants) (hgone : db.deleted t p .tenants tenant = true)
    (htenant : u.tenant r = some tenant.id) : db.deleted t p u r = true := by
  simp only [deleted, Bool.or_false, Bool.or_eq_true] at hgone
  simp only [deleted, Bool.or_eq_true, htenant, Option.any_some]
  left
  right
  rcases hgone with hdirect | hbyTenant
  · rw [List.contains_iff_mem]
    exact List.mem_map.mpr ⟨tenant, List.mem_filter.mpr ⟨hmem, hdirect⟩, rfl⟩
  · -- another row of the tenant's id was removed
    simpa only [Table.tenant, Option.any_some] using hbyTenant

/-- After a deletion the rows are left that it does not reach. -/
theorem mem_rows_of_delete {p : t.Row → Bool} (hdelete : db.delete t p = .ok ((), db'))
    {u : Table} {r : u.Row} :
    r ∈ db'.rows u ↔ r ∈ db.rows u ∧ db.deleted t p u r = false := by
  rw [delete_eq_ok hdelete, List.mem_filter, Bool.not_eq_true']

/-- The tenant of a row that stays is there. -/
private theorem tenant_of_kept {p : t.Row → Bool}
    (hdelete : db.delete t p = .ok ((), db')) {u : Table} {r : u.Row} (hr : r ∈ db'.rows u)
    {tenantId : UUID} (htenant : u.tenant r = some tenantId) (hid : tenantId ∈ db.ids .tenants) :
    tenantId ∈ db'.ids .tenants := by
  obtain ⟨tenant, hmem, rfl⟩ := mem_ids.mp hid
  have hkept := ((mem_rows_of_delete hdelete).mp hr).2
  refine mem_ids.mpr ⟨tenant, (mem_rows_of_delete hdelete).mpr ⟨hmem, ?_⟩, rfl⟩
  cases hgone : db.deleted t p .tenants tenant with
  | false => rfl
  | true =>
    rw [deleted_of_tenant hmem hgone htenant] at hkept
    cases hkept

/-- What a row references stays if the row does: tenants and providers take their rows along,
    and an upstream with a route cannot be deleted. -/
private theorem references_of_kept (h : db.Consistent types) {p : t.Row → Bool}
    (hdelete : db.delete t p = .ok ((), db')) {u : Table} {r : u.Row} (hr : r ∈ db'.rows u)
    {ref : Table.Reference u} (href : ref ∈ u.references) : ref.column r ∈ db'.ids ref.target := by
  obtain ⟨hmem, hkept⟩ := (mem_rows_of_delete hdelete).mp hr
  have hid := h.references u r hmem ref href
  -- what a kept row refers to is kept
  cases u with
  | tenants | regions => cases href
  | upstreams | configCheckpoints | aiProviders | rateLimitPolicies | wasmPlugins =>
    rw [Table.references, List.mem_singleton] at href
    subst href
    exact tenant_of_kept hdelete hr rfl hid
  | routes =>
    simp only [Table.references, List.mem_cons, List.not_mem_nil, or_false] at href
    rcases href with rfl | rfl
    · exact tenant_of_kept hdelete hr rfl hid
    · -- the upstream of a kept route cannot be deleted
      obtain ⟨upstream, hupstream, hid⟩ := mem_ids.mp hid
      exact mem_ids.mpr ⟨upstream, delete_keeps_upstream hdelete hr hupstream hid, hid⟩
  | aiModelPolicies =>
    simp only [Table.references, List.mem_cons, List.not_mem_nil, or_false] at href
    rcases href with rfl | rfl
    · exact tenant_of_kept hdelete hr rfl hid
    · -- the policies of a deleted provider go with it
      obtain ⟨provider, hprovider, hid⟩ := mem_ids.mp hid
      refine mem_ids.mpr ⟨provider, (mem_rows_of_delete hdelete).mpr ⟨hprovider, ?_⟩, hid⟩
      cases hgone : db.deleted t p .aiProviders provider with
      | false => rfl
      | true =>
        rw [deleted_policy hprovider hgone hid] at hkept
        cases hkept

/-- A deletion with its cascade leaves no reference dangling. -/
theorem Consistent.delete (h : db.Consistent types) {p : t.Row → Bool}
    (hdelete : db.delete t p = .ok ((), db')) : db'.Consistent types where
  ids := by
    have heffect : (Query.deleteAll t p).Effect types db db' := .inr (delete_eq_ok hdelete)
    have hkeyed : (Query.deleteAll t p).Keyed := trivial
    exact heffect.nodup_ids hkeyed h.ids
  rows u r hr := h.rows u r ((mem_rows_of_delete hdelete).mp hr).1
  keys u := by
    rw [delete_eq_ok hdelete]
    exact (h.keys u).sublist List.filter_sublist
  references u r hr ref href := references_of_kept h hdelete hr href

/-- An empty database. -/
private theorem consistent_empty (types : ColumnTypes) : empty.Consistent types where
  ids _ := List.nodup_nil
  rows _ _ hr := nomatch hr
  keys _ := List.Pairwise.nil
  references _ _ hr := nomatch hr

end Db

/-- A row of a tenant is there only if the tenant is. -/
theorem Db.Consistent.tenant_mem_ids {types : ColumnTypes} {db : Db} (h : db.Consistent types)
    {t : Table} {r : t.Row} (hr : r ∈ db.rows t) {tenantId : UUID}
    (htenant : t.tenant r = some tenantId) : tenantId ∈ db.ids .tenants := by
  have href := h.references t r hr
  cases t with
  | tenants => exact Db.mem_ids.mpr ⟨r, hr, Option.some.inj htenant⟩
  | regions => cases htenant
  | _ =>
    -- the first reference of every other table is the tenant
    rw [← Option.some.inj htenant]
    exact href _ (List.mem_cons_self ..)

/-! ## Runs -/

/-- Every statement that gives new rows new ids, and keeps those of the others, keeps the
    constraints. -/
theorem Db.Consistent.exec {server : Postgres.Server} {s : Postgres}
    (h : s.db.Consistent server.types) {β : Type} {q : Query β} (hkeyed : q.Keyed) :
    (Postgres.exec server q s).2.db.Consistent server.types := by
  -- a statement that fails changes nothing
  cases q with
  | insertOne t row =>
    rcases Postgres.exec_insertOne_cases server s row with ⟨-, -, hdb⟩ | ⟨r, -, -, hstored, hdb⟩
    · rw [hdb]
      exact h
    · rw [hdb]
      exact h.insert hkeyed hstored
  | selectOne t p =>
    rw [Postgres.exec_selectOne_db]
    exact h
  | selectMany t p le limit offset =>
    rw [Postgres.exec_selectMany_db]
    exact h
  | updateOne t p set =>
    rcases Postgres.exec_updateOne_cases server s p set with
      ⟨-, -, hdb⟩ | ⟨old, r, -, -, hold, hstored, hdb⟩
    · rw [hdb]
      exact h
    · rw [hdb]
      exact h.update hkeyed hold hstored
  | deleteAll t p =>
    rcases Postgres.exec_deleteAll_cases server s p with hdb | hdelete
    · rw [hdb]
      exact h
    · exact h.delete hdelete

namespace Deployment

/-- While requests are served at the same time, the rows satisfy the constraints of the
    migrations after every statement. -/
theorem consistent_interleave (api : Deployment) (actions : List Action) :
    (api.interleave actions).state.db.Consistent api.server.types := by
  apply List.foldl_keeps (P := fun s : Serving => s.state.db.Consistent api.server.types)
  · exact Db.consistent_empty _
  · intro pre a post _ hpre
    have hperforming :=
      performing_interleave api (fun endpoint r => endpoint.handler_keyed api.ext r) pre
    -- a step starts a request, which executes nothing, or executes one statement
    rcases act_cases api (api.interleave pre) a with hstate | ⟨i, β, q, k, -, hi, hstate⟩
    · rw [show (api.act (pre.foldl api.act ⟨⟨0, Db.empty⟩, []⟩) a).state = _ from hstate]
      exact hpre
    · rw [show (api.act (pre.foldl api.act ⟨⟨0, Db.empty⟩, []⟩) a).state = _ from hstate]
      exact hpre.exec (hperforming.next hi).1

/-- A run that goes on. -/
theorem interleave_append (api : Deployment) (pre more : List Action) :
    api.interleave (pre ++ more) = more.foldl api.act (api.interleave pre) := List.foldl_append ..

/-- A tenant that is gone stays away, unless its id is given out again. -/
private theorem tenants_act {api : Deployment} {pre : List Action} {tenantId : UUID}
    (hgone : tenantId ∉ (api.interleave pre).state.db.ids .tenants)
    {a : Action}
    (hfresh :
      (api.interleave pre).state.executed < (api.act (api.interleave pre) a).state.executed →
      (api.server.env (api.interleave pre).state.executed).newId ≠ tenantId) :
    tenantId ∉ (api.act (api.interleave pre) a).state.db.ids .tenants := by
  -- a step executes no statement or one
  rcases act_cases api (api.interleave pre) a with hstate | ⟨i, β, q, k, -, hi, hstate⟩
  · rw [hstate]
    exact hgone
  · rw [hstate] at hfresh ⊢
    intro hmem
    -- a tenant that appears was inserted under the id of the statement
    have hkeyed := (performing_interleave api (fun e r => e.handler_keyed api.ext r) pre).next hi
    have htenant :=
      (performing_interleave api (fun e r => e.handler_keepsTenant api.ext r) pre).next hi
    obtain ⟨tenant, hrow, hid⟩ := Db.mem_ids.mp hmem
    have hkey : (tenantId, some tenantId) ∈
        (Postgres.exec api.server q (api.interleave pre).state).2.db.keys .tenants :=
      Db.mem_keys.mpr ⟨tenant, hrow, hid, congrArg some hid⟩
    rcases Postgres.mem_keys_exec hkeyed.1 htenant.1 hkey with hbefore | hnew
    · obtain ⟨old, hold, hid, -⟩ := Db.mem_keys.mp hbefore
      exact hgone (Db.mem_ids.mpr ⟨old, hold, hid⟩)
    · rw [Postgres.exec_executed] at hfresh
      exact hfresh (Nat.lt_succ_self _) hnew.symm

/-- Every action counts the statement it runs. -/
private theorem executed_act (api : Deployment) (serving : Serving) (a : Action) :
    serving.state.executed ≤ (api.act serving a).state.executed := by
  rcases act_cases api serving a with hstate | ⟨i, β, q, k, -, -, hstate⟩
  · rw [hstate]
  · rw [hstate, Postgres.exec_executed]
    exact Nat.le_succ _

/-- Once a tenant is gone, no request that is still in progress, and none that comes later,
    leaves a row of it in any table. -/
theorem rowsOf_interleave_of_deleted (api : Deployment) (pre more : List Action) {tenantId : UUID}
    (hgone : tenantId ∉ (api.interleave pre).state.db.ids .tenants)
    (hfresh : ∀ n, (api.interleave pre).state.executed ≤ n →
      n < (api.interleave (pre ++ more)).state.executed → (api.server.env n).newId ≠ tenantId)
    (t : Table) : (api.interleave (pre ++ more)).state.db.rowsOf t tenantId = [] := by
  -- the tenant stays away as long as its id is not given out
  have habsent :
      (api.interleave pre).state.executed ≤ (api.interleave (pre ++ more)).state.executed ∧
      tenantId ∉ (api.interleave (pre ++ more)).state.db.ids .tenants := by
    induction more using List.reverseRecOn with
    | nil =>
      rw [List.append_nil]
      exact ⟨le_rfl, hgone⟩
    | append_singleton more a ih =>
      rw [← List.append_assoc, interleave_append, List.foldl_cons, List.foldl_nil] at hfresh ⊢
      have hmore := executed_act api (api.interleave (pre ++ more)) a
      obtain ⟨hexecuted, hbefore⟩ := ih fun n hle hlt => hfresh n hle (hlt.trans_le hmore)
      exact ⟨hexecuted.trans hmore, tenants_act hbefore fun hlt => hfresh _ hexecuted hlt⟩
  apply List.filter_eq_nil_iff.mpr
  intro r hr
  rw [decide_eq_true_eq]
  exact fun htenant =>
    habsent.2 ((consistent_interleave api (pre ++ more)).tenant_mem_ids hr htenant)

/-- A tenant is deleted while the creation of an upstream is in progress. -/
def tenantUnderDeletion : List Action :=
  [.request .createTenant (jsonRequest [("name", .str "Acme"), ("slug", .str "acme")]),
    .statement 0,
    .request (.inTenant "1" .createUpstream)
      (jsonRequest [("name", .str "api"), ("url", .str "https://example.com")]),
    .request (.deleteTenant "1") (jsonRequest []),
    .statement 2]

/-- The upstream is not stored. -/
theorem rowsOf_tenantUnderDeletion :
    (counting.interleave (tenantUnderDeletion ++ [.statement 1])).state.db.rowsOf .upstreams 1 =
      [] := by
  have hbefore : (counting.interleave tenantUnderDeletion).state.executed = 2 := by decide
  have hafter :
      (counting.interleave (tenantUnderDeletion ++ [.statement 1])).state.executed = 3 := by
    decide
  refine rowsOf_interleave_of_deleted counting tenantUnderDeletion [.statement 1] (by decide)
    (fun n hle hlt => ?_) .upstreams
  obtain rfl : n = 2 := by omega
  decide

end Deployment

end Barqium.Native.ControlApi
