import Mathlib.Data.Finmap

/-!
# Walks of a map

A loop over a hash map visits every entry once, in an order nothing is known
about. `Finmap.Walk m` is the type of the orders in which the entries of `m` can
be visited.
-/

namespace Finmap

variable {K V : Type} {m : Finmap fun _ : K => V}

/-- The entries of a map in an order in which a loop may visit them. -/
def Walk (m : Finmap fun _ : K => V) : Type :=
  { l : List (K × V) // (l : Multiset (K × V)) = m.entries.map fun e => (e.1, e.2) }

/-- A walk meets exactly the entries of the map. -/
theorem mem_walk [DecidableEq K] (walk : Walk m) {k : K} {v : V} :
    (k, v) ∈ walk.val ↔ m.lookup k = some v := by
  rw [← Multiset.mem_coe, walk.property, Multiset.mem_map, lookup_eq_some_iff]
  constructor
  · rintro ⟨⟨k', v'⟩, hmem, heq⟩
    cases heq
    exact hmem
  · intro hmem
    exact ⟨⟨k, v⟩, hmem, rfl⟩

instance : Nonempty (Walk m) := by
  obtain ⟨l, hl⟩ := Quot.exists_rep (m.entries.map fun e => (e.1, e.2))
  exact ⟨⟨l, hl⟩⟩

/-- No key is visited twice. -/
theorem nodup_walk (walk : Walk m) : (walk.val.map Prod.fst).Nodup := by
  have hkeys : ((walk.val.map Prod.fst : List K) : Multiset K) = m.entries.map Sigma.fst := by
    rw [← Multiset.map_coe, walk.property, Multiset.map_map]
    rfl
  rw [← Multiset.coe_nodup, hkeys]
  exact m.nodupKeys.nodup_keys

/-- Some walk visits any given entry last. -/
theorem exists_walk_last [DecidableEq K] {k : K} {v : V} (h : m.lookup k = some v) :
    ∃ (walk : Walk m) (before : List (K × V)), walk.val = before ++ [(k, v)] := by
  have hmem : (k, v) ∈ m.entries.map fun e => (e.1, e.2) :=
    Multiset.mem_map.mpr ⟨⟨k, v⟩, lookup_eq_some_iff.mp h, rfl⟩
  obtain ⟨t, ht⟩ := Multiset.exists_cons_of_mem hmem
  obtain ⟨before, rfl⟩ := Quot.exists_rep t
  refine ⟨⟨before ++ [(k, v)], ?_⟩, before, rfl⟩
  rw [ht, ← Multiset.coe_add, Multiset.add_comm]
  rfl

/-! ## Maps made from pairs -/

section Pairs

variable [DecidableEq K] {es : List (K × V)} {k : K} {v : V}

/-- A value in a map with pairs added comes from a pair or from the map. -/
theorem mem_of_lookup_foldl_insert
    (h : (es.foldl (fun m e => m.insert e.1 e.2) m).lookup k = some v) :
    (k, v) ∈ es ∨ m.lookup k = some v := by
  induction es generalizing m with
  | nil => exact Or.inr h
  | cons e es ih =>
    cases ih h with
    | inl hmem => exact Or.inl (List.mem_cons_of_mem e hmem)
    | inr hlookup =>
      by_cases hk : k = e.1
      · subst hk
        rw [lookup_insert] at hlookup
        cases hlookup
        exact Or.inl List.mem_cons_self
      · rw [lookup_insert_of_ne m hk] at hlookup
        exact Or.inr hlookup

/-- The keys after insertions are the inserted ones and those from before. -/
theorem mem_foldl_insert :
    k ∈ es.foldl (fun m e => m.insert e.1 e.2) m ↔ k ∈ es.map Prod.fst ∨ k ∈ m := by
  induction es generalizing m with
  | nil => simp
  | cons e es ih =>
    rw [List.foldl_cons, ih, mem_insert, List.map_cons, List.mem_cons]
    tauto

end Pairs

end Finmap
