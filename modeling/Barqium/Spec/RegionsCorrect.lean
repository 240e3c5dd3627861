import Barqium.Spec.ConcurrentCorrect

/-!
# Primary regions

Migration 005 leaves it to the application to keep a single primary region, and the
handlers of `region.go` never look at the other regions. There is one primary region at
most as long as no statement makes a region primary beside another one.

## Key results

- `Deployment.atMostOnePrimary_iff`: when no state of an interleaving has two primary
  regions
-/

namespace Barqium.Native.ControlApi

open Program

namespace Db

def primaries (db : Db) : Nat := (db.rows .regions).countP Region.isPrimary

def AtMostOnePrimary (db : Db) : Prop := db.primaries ≤ 1

end Db

/-- The statement stores a region as primary while another region is. -/
def Query.StoresSecondPrimary (server : Postgres.Server) (s : Postgres) :
    {β : Type} → Query β → Prop
  | _, .insertOne .regions row =>
    (server.env s.executed).fault = none ∧ ∃ r : Region,
      s.db.stored server.types .regions (s.db.rows .regions)
        (row (server.env s.executed).newId (server.env s.executed).now) = .ok r ∧
      r.isPrimary = true ∧ ∃ other ∈ s.db.rows .regions, other.isPrimary = true
  | _, .updateOne .regions p set =>
    (server.env s.executed).fault = none ∧ ∃ old r : Region,
      (s.db.rows .regions).find? p = some old ∧
      s.db.stored server.types .regions ((s.db.rows .regions).filter fun x => !p x)
        (set (server.env s.executed).now old) = .ok r ∧
      r.isPrimary = true ∧ ∃ other ∈ s.db.rows .regions, p other = false ∧ other.isPrimary = true
  | _, _ => False

/-! ## Counting -/

section Counting

variable {α : Type} {q p : α → Bool} {r : α} {l : List α}

/-- The rows a replacement reaches, and the others. -/
private theorem countP_replace (q p : α → Bool) (r : α) (l : List α) :
    (l.map fun x => if p x then r else x).countP q =
      (if q r then l.countP p else 0) + (l.filter fun x => !p x).countP q := by
  induction l with
  | nil => simp
  | cons x xs ih =>
    rw [List.map_cons, List.countP_cons, ih, List.countP_cons]
    -- a row that is replaced counts as the new one
    by_cases hp : p x = true
    · by_cases hq : q r = true
      · simp [hp, hq]
        omega
      · simp [hp, hq]
    · by_cases hq : q x = true
      · simp [hp, hq]
        omega
      · simp [hp, hq]

/-- A `WHERE` clause that fixes the id selects one row at most. -/
private theorem countP_le_one {γ : Type} {f : α → γ} (hnodup : (l.map f).Nodup) {c : γ}
    (hp : ∀ x, p x = true → f x = c) : l.countP p ≤ 1 := by
  -- the rows have distinct ids
  induction l with
  | nil => simp
  | cons x xs ih =>
    rw [List.map_cons, List.nodup_cons] at hnodup
    rw [List.countP_cons]
    by_cases hx : p x = true
    · -- no other row has the id of the first one
      have hnone : xs.countP p = 0 := by
        rw [List.countP_eq_zero]
        intro y hy hpy
        exact hnodup.1 (List.mem_map.mpr ⟨y, hy, (hp y hpy).trans (hp x hx).symm⟩)
      simp [hx, hnone]
    · have htail := ih hnodup.2
      rw [if_neg hx]
      omega

end Counting

/-! ## Statements -/

namespace Query

variable {server : Postgres.Server} {s : Postgres} {β : Type} {q : Query β}

/-- A region that becomes primary beside another one makes two. -/
theorem StoresSecondPrimary.two_le (h : q.StoresSecondPrimary server s) :
    2 ≤ (Postgres.exec server q s).2.db.primaries := by
  cases q with
  | insertOne t row =>
    cases t with
    | regions =>
      obtain ⟨hfault, r, hstored, hr, other, hother, hprimary⟩ := h
      rw [Postgres.exec_insertOne_ok hfault hstored]
      show 2 ≤ Db.primaries (s.db.setRows .regions _)
      -- the other primary region was there before
      have hpos : 0 < s.db.primaries := List.countP_pos_iff.mpr ⟨other, hother, hprimary⟩
      rw [Db.primaries, Db.setRows_rows_self, List.countP_append, List.countP_singleton, if_pos hr]
      unfold Db.primaries at hpos
      omega
    | _ => exact h.elim
  | updateOne t p set =>
    cases t with
    | regions =>
      obtain ⟨hfault, old, r, hold, hstored, hr, other, hother, hp, hprimary⟩ := h
      rw [Postgres.exec_updateOne_ok hfault hold hstored]
      show 2 ≤ Db.primaries (s.db.setRows .regions _)
      -- the updated row counts, and the other one stays
      have hself : 0 < (s.db.rows .regions).countP p :=
        List.countP_pos_iff.mpr ⟨old, List.mem_of_find?_eq_some hold, List.find?_some hold⟩
      have hpos : 0 < ((s.db.rows .regions).filter fun x => !p x).countP Region.isPrimary :=
        List.countP_pos_iff.mpr ⟨other, List.mem_filter.mpr ⟨hother, by simp [hp]⟩, hprimary⟩
      rw [Db.primaries, Db.setRows_rows_self, countP_replace, if_pos hr]
      exact Nat.add_le_add hself hpos
    | _ => exact h.elim
  | selectOne t p => exact h.elim
  | selectMany t p le limit offset => exact h.elim
  | deleteAll t p => exact h.elim

/-- Any other insertion adds no primary region, or the first one. -/
private theorem atMostOnePrimary_insertOne {t : Table} {row : UUID → Time → t.Row}
    (hone : s.db.AtMostOnePrimary) (h : ¬ (insertOne t row).StoresSecondPrimary server s) :
    (Postgres.exec server (.insertOne t row) s).2.db.AtMostOnePrimary := by
  unfold Db.AtMostOnePrimary Db.primaries at hone ⊢
  -- only a write to the regions matters
  cases t with
  | regions =>
    rcases Postgres.exec_insertOne_cases server s row with
      ⟨-, -, hdb⟩ | ⟨r, -, hfault, hstored, hdb⟩
    · rwa [hdb]
    · rw [hdb, Db.setRows_rows_self, List.countP_append, List.countP_singleton]
      by_cases hr : Region.isPrimary r = true
      · -- no region was primary before
        have hnone : (s.db.rows .regions).countP Region.isPrimary = 0 := by
          rw [List.countP_eq_zero]
          intro other hother hprimary
          exact h ⟨hfault, r, hstored, hr, other, hother, hprimary⟩
        simp [hnone, hr]
      · simpa [hr] using hone
  | _ =>
    rw [Postgres.rows_insertOne_of_ne row (by decide)]
    exact hone

/-- Any other update keeps the flag off, or sets it on the only primary region. -/
private theorem atMostOnePrimary_updateOne {t : Table} {p : t.Row → Bool}
    {set : Time → t.Row → t.Row}
    (hq : (updateOne t p set).Keyed) (hids : s.db.IdsNodup) (hone : s.db.AtMostOnePrimary)
    (h : ¬ (updateOne t p set).StoresSecondPrimary server s) :
    (Postgres.exec server (.updateOne t p set) s).2.db.AtMostOnePrimary := by
  unfold Db.AtMostOnePrimary Db.primaries at hone ⊢
  -- only a write to the regions matters
  cases t with
  | regions =>
    rcases Postgres.exec_updateOne_cases server s p set with
      ⟨-, -, hdb⟩ | ⟨old, r, -, hfault, hold, hstored, hdb⟩
    · rwa [hdb]
    · rw [hdb, Db.setRows_rows_self, countP_replace]
      by_cases hr : Region.isPrimary r = true
      · obtain ⟨⟨id, hid⟩, -⟩ := hq
        -- the `WHERE` clause hits one row
        have hself : (s.db.rows .regions).countP p ≤ 1 := countP_le_one (hids .regions) hid
        have hnone : ((s.db.rows .regions).filter fun x => !p x).countP Region.isPrimary = 0 := by
          rw [List.countP_eq_zero]
          intro other hother hprimary
          rw [List.mem_filter, Bool.not_eq_true'] at hother
          exact h ⟨hfault, old, r, hold, hstored, hr, other, hother.1, hother.2, hprimary⟩
        simp only [hr, if_true, hnone]
        omega
      · -- the row that is written does not count, and the others are fewer
        rw [if_neg hr, Nat.zero_add]
        exact List.filter_sublist.countP_le.trans hone
  | _ =>
    rw [Postgres.rows_updateOne_of_ne p set (by decide)]
    exact hone

/-- Any other statement leaves one primary region at most. -/
private theorem atMostOnePrimary_exec (hq : q.Keyed) (hids : s.db.IdsNodup)
    (hone : s.db.AtMostOnePrimary) (h : ¬ q.StoresSecondPrimary server s) :
    (Postgres.exec server q s).2.db.AtMostOnePrimary := by
  cases q with
  | insertOne t row => exact atMostOnePrimary_insertOne hone h
  | updateOne t p set => exact atMostOnePrimary_updateOne hq hids hone h
  | selectOne t p => rwa [Postgres.exec_selectOne_db]
  | selectMany t p le limit offset => rwa [Postgres.exec_selectMany_db]
  | deleteAll t p => exact (Postgres.rows_deleteAll_sublist p .regions).countP_le.trans hone

end Query

/-! ## Interleavings -/

namespace Deployment

/-- The action runs a statement that makes a second region primary. -/
def StoresSecondPrimary (api : Deployment) (serving : Serving) : Action → Prop
  | .request _ _ => False
  | .statement i => ∃ (β : Type) (q : Query β) (k : β → Handler),
      serving.running[i]? = some (.call q k) ∧ q.StoresSecondPrimary api.server serving.state

/-- An action leaves one primary region at most, unless it makes a second one. -/
theorem atMostOnePrimary_act_iff {api : Deployment} {pre : List Action} {a : Action}
    (hone : (api.interleave pre).state.db.AtMostOnePrimary) :
    (api.act (api.interleave pre) a).state.db.AtMostOnePrimary ↔
      ¬ api.StoresSecondPrimary (api.interleave pre) a := by
  constructor
  · -- a second primary region leaves two
    intro hafter hsecond
    cases a with
    | request endpoint r => exact hsecond
    | statement i =>
      obtain ⟨β, q, k, hi, hq⟩ := hsecond
      rw [act_statement hi] at hafter
      have htwo := hq.two_le
      unfold Db.AtMostOnePrimary at hafter
      omega
  · intro h
    -- and without one each step keeps the bound
    rcases act_cases api (api.interleave pre) a with hstate | ⟨i, β, q, k, rfl, hi, hstate⟩
    · rwa [hstate]
    · rw [hstate]
      have hkeyed := (performing_interleave api (fun e r => e.handler_keyed api.ext r) pre).next hi
      refine Query.atMostOnePrimary_exec hkeyed.1 (nodup_ids_interleave api pre) hone fun hq => ?_
      exact h ⟨β, q, k, hi, hq⟩

/-- At most one region is primary in every state of an interleaving, exactly when none of
    its statements stores a region as primary while another one is. -/
theorem atMostOnePrimary_iff (api : Deployment) (actions : List Action) :
    (∀ pre, pre <+: actions → (api.interleave pre).state.db.AtMostOnePrimary) ↔
      ∀ pre a post, actions = pre ++ a :: post →
        ¬ api.StoresSecondPrimary (api.interleave pre) a := by
  apply List.foldl_keeps_iff (P := fun s : Serving => s.state.db.AtMostOnePrimary)
    (G := fun s a => ¬ api.StoresSecondPrimary s a)
  · show Db.primaries Db.empty ≤ 1
    simp [Db.primaries, Db.empty]
  · intro pre a post _ hone
    exact atMostOnePrimary_act_iff hone

/-- The members of a request for a primary region. -/
def primaryRegion (name : String) : List (String × Json) :=
  [("name", .str name), ("kafka_brokers", .str "kafka:9092"), ("is_primary", .bool true)]

/-- Two regions are created as primary, one after the other. -/
theorem two_primary_regions :
    ¬ ∀ (api : Deployment) (actions : List Action),
      (api.interleave actions).state.db.AtMostOnePrimary := by
  intro h
  have hone := h counting [.request .createRegion (jsonRequest (primaryRegion "eu")),
    .statement 0, .request .createRegion (jsonRequest (primaryRegion "us")), .statement 1]
  unfold Db.AtMostOnePrimary at hone
  revert hone
  decide

end Deployment

end Barqium.Native.ControlApi
