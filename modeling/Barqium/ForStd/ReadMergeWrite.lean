import Mathlib.Logic.Function.Basic

/-!
# Two writers that read, merge and write back

Each of two writers reads a record, puts the fields of its patch into what it read, and
writes the whole record back. A write that falls between the read and the write of the
other writer is overwritten by what the record was before it.

## Key results

- `Once.cases`: the orders of the four accesses, by the writer that writes first.
- `holds_iff`: when the record ends up with the fields of both patches.
-/

namespace ReadMergeWrite

variable {C V : Type}

inductive Event where
  | read
  | write
  deriving Repr, DecidableEq

/-- The fields of the patch, and of what was read where the patch has none. -/
def merge (patch : C → Option V) (read : C → V) (c : C) : V := (patch c).getD (read c)

/-- The record, and what each writer has read of it. -/
structure Cell (C V : Type) where
  cur : C → V
  seen : Bool → C → V

def Cell.step (patch : Bool → C → Option V) (cell : Cell C V) : Bool × Event → Cell C V
  | (i, .read) => { cell with seen := Function.update cell.seen i cell.cur }
  | (i, .write) => { cell with cur := merge (patch i) (cell.seen i) }

/-- The accesses, in order, on a record that starts as `init`. -/
def replay (patch : Bool → C → Option V) (init : C → V) (events : List (Bool × Event)) :
    Cell C V :=
  events.foldl (Cell.step patch) ⟨init, fun _ => init⟩

/-- The record has every field of the patch. -/
def Holds (row : C → V) (patch : C → Option V) : Prop := ∀ c v, patch c = some v → row c = v

/-- Each writer reads and then writes. -/
def Once (events : List (Bool × Event)) : Prop :=
  ∀ i, (events.filter fun e => e.1 = i) = [(i, .read), (i, .write)]

/-- The write of `i` falls between the read and the write of the other. -/
def Overwritten (events : List (Bool × Event)) (i : Bool) : Prop :=
  [(!i, .read), (i, .write), (!i, .write)].Sublist events

instance (events : List (Bool × Event)) (i : Bool) : Decidable (Overwritten events i) :=
  inferInstanceAs (Decidable ([(!i, Event.read), (i, .write), (!i, .write)].Sublist events))

/-- One more event of the replay. -/
theorem replay_append (patch : Bool → C → Option V) (init : C → V) (events : List (Bool × Event))
    (e : Bool × Event) :
    replay patch init (events ++ [e]) = (replay patch init events).step patch e := by
  simp [replay]

/-! ## Merging -/

/-- A merge has what is patched. -/
theorem holds_merge (patch : C → Option V) (read : C → V) : Holds (merge patch read) patch := by
  intro c v hv
  simp [merge, hv]

/-- Merging a patch touches no field of a disjoint one. -/
theorem holds_merge_iff {patch other : C → Option V} {read : C → V}
    (hdisjoint : ∀ c, patch c = none ∨ other c = none) :
    Holds (merge patch read) other ↔ Holds read other := by
  -- the columns of the other patch are read and written back as they were
  have hsame : ∀ c v, other c = some v → merge patch read c = read c := by
    intro c v hv
    rcases hdisjoint c with hc | hc
    · simp [merge, hc]
    · rw [hc] at hv
      exact nomatch hv
  constructor
  · intro h c v hv
    rw [← hsame c v hv]
    exact h c v hv
  · intro h c v hv
    rw [hsame c v hv]
    exact h c v hv

/-! ## Orders -/

/-- The accesses of `i`, and those of the other writer. -/
def Shuffle (i : Bool) (own other events : List (Bool × Event)) : Prop :=
  (events.filter fun e => e.1 = i) = own ∧ (events.filter fun e => e.1 = !i) = other

/-- The next access is the next one of either writer. -/
theorem Shuffle.cases {i : Bool} {own other events : List (Bool × Event)}
    (h : Shuffle i own other events) :
    (events = [] ∧ own = [] ∧ other = []) ∨
      (∃ e own' rest, own = e :: own' ∧ events = e :: rest ∧ Shuffle i own' other rest) ∨
      ∃ e other' rest, other = e :: other' ∧ events = e :: rest ∧ Shuffle i own other' rest := by
  obtain ⟨rfl, rfl⟩ := h
  cases events with
  | nil => exact .inl ⟨rfl, rfl, rfl⟩
  | cons e rest =>
    right
    obtain ⟨j, access⟩ := e
    obtain rfl | rfl : j = i ∨ j = !i := by cases i <;> cases j <;> simp
    · exact .inl ⟨(j, access), _, rest, by simp, rfl, rfl, by simp⟩
    · exact .inr ⟨(!i, access), _, rest, by simp, rfl, by simp, rfl⟩

/-- A writer that has finished leaves the rest to the other. -/
theorem Shuffle.of_own_nil {i : Bool} {other events : List (Bool × Event)}
    (h : Shuffle i [] other events) : events = other := by
  obtain ⟨hown, rfl⟩ := h
  refine (List.filter_eq_self.mpr fun e he => ?_).symm
  have hne := List.filter_eq_nil_iff.mp hown e he
  simpa [Bool.eq_not] using hne

/-- Without the other's events there is nothing to shuffle. -/
theorem Shuffle.of_other_nil {i : Bool} {own events : List (Bool × Event)}
    (h : Shuffle i own [] events) : events = own := by
  obtain ⟨rfl, hother⟩ := h
  refine (List.filter_eq_self.mpr fun e he => ?_).symm
  have hne := List.filter_eq_nil_iff.mp hother e he
  simpa [Bool.eq_not] using hne

/-- Two events each make a shuffle. -/
theorem Once.shuffle {events : List (Bool × Event)} (h : Once events) (i : Bool) :
    Shuffle i [(i, .read), (i, .write)] [(!i, .read), (!i, .write)] events :=
  ⟨h i, h (!i)⟩

/-- The first access is the read of one writer. -/
theorem Once.head {events : List (Bool × Event)} (h : Once events) :
    ∃ i rest, events = (i, .read) :: rest ∧
      Shuffle i [(i, .write)] [(!i, .read), (!i, .write)] rest := by
  rcases (h.shuffle false).cases with ⟨-, hnil, -⟩ | ⟨e, own, rest, hown, rfl, hrest⟩ |
    ⟨e, other, rest, hother, rfl, hrest⟩
  · exact nomatch hnil
  · obtain ⟨rfl, rfl⟩ := List.cons.inj hown
    exact ⟨false, rest, rfl, hrest⟩
  · obtain ⟨rfl, rfl⟩ := List.cons.inj hother
    exact ⟨true, rest, rfl, hrest.2, hrest.1⟩

/-- One writer after the other, or, in one of two orders of the reads, both at once. -/
theorem Once.cases {events : List (Bool × Event)} (h : Once events) :
    ∃ i, events = [(i, .read), (i, .write), (!i, .read), (!i, .write)] ∨
      events = [(i, .read), (!i, .read), (i, .write), (!i, .write)] ∨
      events = [(!i, .read), (i, .read), (i, .write), (!i, .write)] := by
  obtain ⟨i, rest, rfl, hrest⟩ := h.head
  rcases hrest.cases with ⟨-, hnil, -⟩ | ⟨e, own, rest, hown, rfl, hrest⟩ |
    ⟨e, other, rest, hother, rfl, hrest⟩
  · exact nomatch hnil
  · obtain ⟨rfl, rfl⟩ := List.cons.inj hown
    exact ⟨i, .inl (by rw [hrest.of_own_nil])⟩
  · obtain ⟨rfl, rfl⟩ := List.cons.inj hother
    -- both have read, and either writes first
    rcases hrest.cases with ⟨-, hnil, -⟩ | ⟨e, own, rest, hown, rfl, hrest⟩ |
      ⟨e, other, rest, hother, rfl, hrest⟩
    · exact nomatch hnil
    · obtain ⟨rfl, rfl⟩ := List.cons.inj hown
      exact ⟨i, .inr (.inl (by rw [hrest.of_own_nil]))⟩
    · obtain ⟨rfl, rfl⟩ := List.cons.inj hother
      exact ⟨!i, .inr (.inr (by rw [hrest.of_other_nil, Bool.not_not]))⟩

/-! ## The outcome -/

/-- The record ends with the fields of both patches, exactly when a write that the other
    writer overwrote changed nothing. -/
theorem holds_iff {patch : Bool → C → Option V} {init : C → V} {events : List (Bool × Event)}
    (hdisjoint : ∀ c, patch false c = none ∨ patch true c = none) (h : Once events) :
    (∀ i, Holds (replay patch init events).cur (patch i)) ↔
      ∀ i, Overwritten events i → Holds init (patch i) := by
  -- the two patches set different fields
  have hother : ∀ i c, patch (!i) c = none ∨ patch i c = none := by
    intro i c
    cases i with
    | false => exact (hdisjoint c).symm
    | true => exact hdisjoint c
  -- when both read before either writes, the last write is all that stays
  have hboth : ∀ i, (replay patch init events).cur = merge (patch (!i)) init →
      Overwritten events i → ¬ Overwritten events (!i) →
      ((∀ k, Holds (replay patch init events).cur (patch k)) ↔
        ∀ k, Overwritten events k → Holds init (patch k)) := by
    intro i hcur hover hnot
    rw [hcur]
    constructor
    · intro hall k hk
      obtain rfl | rfl : k = i ∨ k = !i := by cases k <;> cases i <;> simp
      · exact (holds_merge_iff (hother k)).mp (hall k)
      · exact absurd hk hnot
    · intro hall k
      obtain rfl | rfl : k = i ∨ k = !i := by cases k <;> cases i <;> simp
      · exact (holds_merge_iff (hother k)).mpr (hall k hover)
      · exact holds_merge _ _
  obtain ⟨i, rfl | rfl | rfl⟩ := h.cases
  · -- the second writer read what the first one wrote
    have hcur : (replay patch init [(i, .read), (i, .write), (!i, .read), (!i, .write)]).cur =
        merge (patch (!i)) (merge (patch i) init) := by
      cases i <;> rfl
    refine iff_of_true (fun k => ?_) fun k hk => ?_
    · rw [hcur]
      obtain rfl | rfl : k = i ∨ k = !i := by cases k <;> cases i <;> simp
      · exact (holds_merge_iff (hother k)).mpr (holds_merge _ _)
      · exact holds_merge _ _
    · exfalso
      revert hk
      cases i <;> cases k <;> decide
  · exact hboth i (by cases i <;> rfl) (by cases i <;> decide) (by cases i <;> decide)
  · exact hboth i (by cases i <;> rfl) (by cases i <;> decide) (by cases i <;> decide)

end ReadMergeWrite
