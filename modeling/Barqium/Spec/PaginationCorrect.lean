import Barqium.Native.ControlApi.Handlers

/-!
# Pagination parameters

The offset of a listing is read as a 64-bit integer and narrowed to 32 bits, and only negative
numbers are rejected before.

## Key results

- `listTenantsPagination_eq`: the two copies of the code agree.
- `inRange_iff`: the offset is the requested one or the default unless narrowing changes it.
-/

namespace Barqium.Native.ControlApi

/-- A limit from 1 to 200, and the requested offset if it is a non-negative integer of 32 bits,
or else the default. -/
structure InRange (r : Request) (params : Int32 × Int32) : Prop where
  limit : 1 ≤ params.1.toInt ∧ params.1.toInt ≤ 200
  nonneg : 0 ≤ params.2.toInt
  requested : ∀ n, atoi (r.query "offset") = some n → 0 ≤ n → n < 2 ^ 31 → params.2.toInt = n
  otherwise : (∀ n, atoi (r.query "offset") = some n → ¬ (0 ≤ n ∧ n < 2 ^ 31)) → params.2 = 0

/-- An offset from 2^31 on is a multiple of 2^32. -/
def OffsetFits (r : Request) : Prop :=
  ∀ n, atoi (r.query "offset") = some n → n < 2 ^ 31 ∨ n % 2 ^ 32 = 0

/-! ## The two copies -/

/-- A text that is a number is not empty. -/
private theorem ne_empty_of_atoi {v : String} {n : Int} (h : atoi v = some n) : v ≠ "" := by
  rintro rfl
  cases h

/-- An empty parameter is no integer, so the check for it does not matter. -/
theorem listTenantsPagination_eq (r : Request) : listTenantsPagination r = parsePagination r := by
  unfold listTenantsPagination parsePagination
  -- both copies read the same two numbers
  cases hl : atoi (r.query "limit") with
  | none =>
    cases ho : atoi (r.query "offset") with
    | none => simp
    | some n =>
      simp only [ne_eq, ne_empty_of_atoi ho, not_false_eq_true, ↓reduceIte, ite_self]
      split <;> rfl
  | some m =>
    cases ho : atoi (r.query "offset") with
    | none =>
      simp only [ne_eq, ne_empty_of_atoi hl, not_false_eq_true, ↓reduceIte, ite_self]
      split <;> rfl
    | some n =>
      simp only [ne_eq, ne_empty_of_atoi hl, ne_empty_of_atoi ho, not_false_eq_true, ↓reduceIte]
      split <;> split <;> rfl

/-! ## The range of the parameters -/

/-- The limit is always in range. -/
private theorem limit_parsePagination (r : Request) :
    1 ≤ (parsePagination r).1.toInt ∧ (parsePagination r).1.toInt ≤ 200 := by
  -- out of range the limit is the default
  have hdefault : (50 : Int32).toInt = 50 := rfl
  unfold parsePagination
  cases atoi (r.query "limit") with
  | none =>
    show 1 ≤ (50 : Int32).toInt ∧ (50 : Int32).toInt ≤ 200
    rw [hdefault]
    omega
  | some n =>
    show 1 ≤ (if 0 < n ∧ n ≤ 200 then Int32.ofInt n else 50).toInt ∧
      (if 0 < n ∧ n ≤ 200 then Int32.ofInt n else 50).toInt ≤ 200
    split
    · rename_i h
      rw [Int32.toInt_ofInt_of_le (by omega) (by omega)]
      omega
    · rw [hdefault]
      omega

/-- Narrowing keeps the low 32 bits. -/
theorem toInt_ofInt_eq_zero_iff {n : Int} : (Int32.ofInt n).toInt = 0 ↔ n % 2 ^ 32 = 0 := by
  rw [Int32.toInt_ofInt, Int.bmod_def]
  show (if n % 4294967296 < (4294967296 + 1) / 2 then n % 4294967296
    else n % 4294967296 - 4294967296) = 0 ↔ n % 4294967296 = 0
  split <;> omega

/-- The offset without narrowing. -/
private theorem offset_of_lt {r : Request} {n : Int} (h : atoi (r.query "offset") = some n)
    (hn : 0 ≤ n) (hlt : n < 2 ^ 31) : (parsePagination r).2.toInt = n := by
  unfold parsePagination
  rw [h]
  show (if 0 ≤ n then Int32.ofInt n else 0).toInt = n
  rw [if_pos hn]
  exact Int32.toInt_ofInt_of_le (by omega) (by omega)

/-- The offset is in range exactly if it fits. -/
theorem inRange_parsePagination_iff (r : Request) :
    InRange r (parsePagination r) ↔ OffsetFits r := by
  constructor
  · intro h n hn
    by_contra hlarge
    rw [not_or] at hlarge
    -- such an offset is not one of 32 bits, so it should give the default
    have hzero := h.otherwise fun m hm hrange => by
      rw [hn] at hm
      cases hm
      exact hlarge.1 hrange.2
    -- the code keeps the low 32 bits
    have hnarrow : (parsePagination r).2 = Int32.ofInt n := by
      unfold parsePagination
      rw [hn]
      exact if_pos (by omega)
    have hlow : (Int32.ofInt n).toInt = 0 := by
      rw [← hnarrow, hzero]
      rfl
    exact hlarge.2 (toInt_ofInt_eq_zero_iff.mp hlow)
  · -- conversely, an offset that fits or narrows to zero
    intro hfits
    cases hn : atoi (r.query "offset") with
    | none =>
      have hzero : (parsePagination r).2 = 0 := by
        unfold parsePagination
        rw [hn]
      refine ⟨limit_parsePagination r, ?_, fun n h => ?_, fun _ => hzero⟩
      · rw [hzero]
        decide
      · rw [hn] at h
        cases h
    | some n =>
      by_cases hrange : 0 ≤ n ∧ n < 2 ^ 31
      · have hoffset := offset_of_lt hn hrange.1 hrange.2
        refine ⟨limit_parsePagination r, by omega, fun m hm _ _ => ?_, fun h => ?_⟩
        · rw [hn] at hm
          cases hm
          exact hoffset
        · exact absurd hrange (h n hn)
      · have hzero : (parsePagination r).2 = 0 := by
          unfold parsePagination
          rw [hn]
          show (if 0 ≤ n then Int32.ofInt n else 0) = 0
          split
          · -- the low 32 bits are zero
            have hmod : n % 2 ^ 32 = 0 := by
              rcases hfits n hn with hlt | hmod
              · omega
              · exact hmod
            exact Int32.toInt_inj.mp (toInt_ofInt_eq_zero_iff.mpr hmod)
          · rfl
        refine ⟨limit_parsePagination r, ?_, fun m hm hpos hlt => ?_, fun _ => hzero⟩
        · rw [hzero]
          decide
        · rw [hn] at hm
          cases hm
          exact absurd ⟨hpos, hlt⟩ hrange

/-- Both copies keep the parameters in range if and only if the offset is not changed by
narrowing, other than to the default. -/
theorem inRange_iff (r : Request) :
    (InRange r (parsePagination r) ∧ InRange r (listTenantsPagination r)) ↔ OffsetFits r := by
  rw [listTenantsPagination_eq, and_self_iff]
  exact inRange_parsePagination_iff r

/-- The listing of tenants asks for what its copy reads. -/
theorem listTenants_eq (r : Request) :
    listTenants r = (do
      let rows ← orFail (.selectMany .tenants (fun _ => true)
        (fun (a b : Tenant) => b.createdAt ≤ a.createdAt) (listTenantsPagination r).1
        (listTenantsPagination r).2) internalError
      return ⟨200, .rows .tenants rows⟩) := by
  rw [listTenantsPagination_eq]
  rfl

/-- An offset of 2^31 becomes negative, and one of 2^32 + 5 becomes 5. -/
theorem large_offsets :
    let listing (offset : String) : Request :=
      { auth := .missing, query := fun name => if name = "offset" then offset else "",
        contentType := "", body := none, form := none }
    (parsePagination (listing "2147483648")).2.toInt = -2147483648 ∧
      (parsePagination (listing "4294967301")).2.toInt = 5 ∧
      ¬ InRange (listing "2147483648") (parsePagination (listing "2147483648")) := by
  refine ⟨rfl, rfl, fun h => ?_⟩
  exact absurd h.nonneg (by decide)

end Barqium.Native.ControlApi
