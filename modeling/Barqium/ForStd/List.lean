import Mathlib.Data.List.Basic
import Mathlib.Data.List.TakeWhile

/-!
# List lemmas for the standard library

Lists that are cut at a separator or into pieces of one size, searches, lists of which a
beginning is dropped, and the lexicographic order.
-/

namespace List

variable {α : Type} {a : α} {u v r s t : List α}

/-! ## splitOn lemmas -/

section SplitOn

variable [BEq α] [LawfulBEq α]

/-- What stands before the first of the separators is the same on both sides. -/
theorem append_cons_inj_of_not_mem (hu : a ∉ u) (hv : a ∉ v) (h : u ++ a :: r = v ++ a :: s) :
    u = v ∧ r = s := by
  have hsplit := congrArg (List.splitOn a) h
  rw [splitOn_append_cons_self_of_not_mem hu, splitOn_append_cons_self_of_not_mem hv] at hsplit
  obtain rfl := (List.cons.inj hsplit).1
  exact ⟨rfl, (List.cons.inj (append_cancel_left h)).2⟩

/-- What has no separator goes to the first piece. -/
theorem splitOn_append_of_not_mem (h : a ∉ u) (t : List α) :
    (u ++ t).splitOn a = (t.splitOn a).modifyHead (u ++ ·) := by
  induction u with
  | nil => exact (congrFun modifyHead_id _).symm
  | cons c u ih =>
    obtain ⟨hc, hu⟩ := not_or.mp (mt mem_cons.mpr h)
    rw [cons_append, splitOn_cons_eq_if_modifyHead, if_neg (by simpa using Ne.symm hc),
      ih hu, modifyHead_modifyHead]
    rfl

/-- No piece has the separator in it. -/
theorem not_mem_of_mem_splitOn (h : u ∈ t.splitOn a) : a ∉ u := by
  induction t generalizing u with
  | nil =>
    obtain rfl : u = [] := by simpa using h
    exact not_mem_nil
  | cons c t ih =>
    rw [splitOn_cons_eq_if_modifyHead] at h
    -- a separator opens an empty piece
    by_cases hc : c == a
    · rw [if_pos hc] at h
      rcases mem_cons.mp h with rfl | h
      · exact not_mem_nil
      · exact ih h
    · obtain ⟨w, ws, hw⟩ := exists_cons_of_ne_nil (splitOn_ne_nil a t)
      rw [if_neg hc, hw, modifyHead_cons] at h
      rcases mem_cons.mp h with rfl | h
      · -- the first piece of the tail with an element that is no separator in front
        have hne : a ≠ c := fun heq => hc (by simp [heq])
        have hrest := ih (hw ▸ mem_cons_self : w ∈ t.splitOn a)
        exact fun hmem => (mem_cons.mp hmem).elim hne hrest
      · exact ih (hw ▸ mem_cons_of_mem w h)

/-- At most `n` pieces, of which the last is the rest, separators included. -/
def splitn (a : α) : Nat → List α → List (List α)
  | 0, _ => []
  | 1, t => [t]
  | n + 2, t =>
    t.takeWhile (· != a) ::
      match t.dropWhile (· != a) with
      | [] => []
      | _ :: r => splitn a (n + 1) r

/-- Where there is room for all pieces, they are those of `splitOn`. -/
theorem splitn_eq_splitOn (n : Nat) (t : List α) :
    (splitn a (n + 1) t).length = min (n + 1) (t.splitOn a).length ∧
      ((t.splitOn a).length ≤ n + 1 → splitn a (n + 1) t = t.splitOn a) := by
  induction n generalizing t with
  | zero =>
    have hpos := length_pos_of_ne_nil (splitOn_ne_nil a t)
    refine ⟨(Nat.min_eq_left hpos).symm, fun h => ?_⟩
    -- there is one piece, which is all of the text
    obtain ⟨u, hu⟩ := length_eq_one_iff.mp (Nat.le_antisymm h hpos)
    have hjoin : [a].intercalate (t.splitOn a) = t := intercalate_splitOn a
    rw [hu] at hjoin ⊢
    show [t] = [u]
    rw [← hjoin]
    simp [intercalate]
  | succ n ih =>
    -- the text up to the first separator, and the rest behind it
    have hcut := takeWhile_append_dropWhile (p := (· != a)) (l := t)
    have hfirst : a ∉ t.takeWhile (· != a) := fun h => by simpa using mem_takeWhile_imp h
    unfold splitn
    cases hdrop : t.dropWhile (· != a) with
    | nil =>
      rw [hdrop, append_nil] at hcut
      rw [hcut] at hfirst ⊢
      rw [splitOn_eq_singleton hfirst]
      simp
    | cons b r =>
      obtain rfl : b = a := by
        have hne : t.dropWhile (· != a) ≠ [] := by simp [hdrop]
        have hb := head_dropWhile_not (· != a) hne
        simpa [hdrop] using hb
      rw [hdrop] at hcut
      -- the first piece has no separator, so both cut it off
      have hsplit : t.splitOn b = t.takeWhile (· != b) :: r.splitOn b := by
        conv_lhs => rw [← hcut]
        exact splitOn_append_cons_self_of_not_mem hfirst r
      obtain ⟨hlength, heq⟩ := ih r
      rw [hsplit, length_cons, length_cons, hlength]
      refine ⟨by omega, fun h => ?_⟩
      show _ :: splitn b (n + 1) r = _
      rw [heq (Nat.le_of_succ_le_succ h)]

end SplitOn

/-! ## Chunks -/

/-- Pieces of `n` elements; the last one may be shorter. -/
def chunks (n : Nat) (t : List α) : List (List α) :=
  if n = 0 ∨ t = [] then [] else t.take n :: (t.drop n).chunks n
termination_by t.length
decreasing_by
  rename_i h
  have hpos := length_pos_of_ne_nil fun hnil => h (.inr hnil)
  have hn := Nat.pos_of_ne_zero fun hzero => h (.inl hzero)
  rw [length_drop]
  omega

@[simp] theorem chunks_nil (n : Nat) : ([] : List α).chunks n = [] := by
  unfold chunks
  rw [if_pos (.inr rfl)]

/-- A full piece at the front. -/
theorem chunks_append {n : Nat} (hn : 0 < n) (hu : u.length = n) (t : List α) :
    (u ++ t).chunks n = u :: t.chunks n := by
  have hne : u ++ t ≠ [] := by
    intro hnil
    rw [(append_eq_nil_iff.mp hnil).1] at hu
    exact absurd hu (by simp; omega)
  rw [chunks, if_neg (not_or.mpr ⟨by omega, hne⟩), take_left' hu, drop_left' hu]

/-- A list of full pieces, by their positions. -/
theorem chunks_eq_map_range {n m : Nat} (hn : 0 < n) (ht : t.length = n * m) :
    t.chunks n = (range m).map fun i => (t.drop (n * i)).take n := by
  induction m generalizing t with
  | zero =>
    rw [Nat.mul_zero, length_eq_zero_iff] at ht
    subst ht
    simp
  | succ m ih =>
    rw [Nat.mul_succ] at ht
    -- the first chunk, and the others by induction
    have hfirst : (t.take n).length = n := by
      rw [length_take]
      omega
    have hrest : (t.drop n).length = n * m := by
      rw [length_drop]
      omega
    conv_lhs => rw [← take_append_drop n t]
    rw [chunks_append hn hfirst, ih hrest, range_succ_eq_map, map_cons, map_map]
    refine congrArg₂ _ (by simp) (map_congr_left fun i _ => ?_)
    rw [drop_drop]
    show _ = take n (drop (n * (i + 1)) t)
    rw [Nat.mul_succ, Nat.add_comm]

/-! ## find? lemmas -/

/-- Two searches find the same when the first element that either of them finds is found by
both. -/
theorem find?_eq_find?_iff {p q : α → Bool} (hpq : ∀ a, p a = true → q a = true)
    (l : List α) :
    l.find? p = l.find? q ↔
      ∀ before a after, l = before ++ a :: after → (∀ b ∈ before, q b = false) → q a = true →
        p a = true := by
  constructor
  · rintro h before a after rfl hbefore hq
    -- the first element for `q` is then the first for `p`
    have hfirst : (before ++ a :: after).find? q = some a := by
      rw [find?_append, find?_eq_none.mpr fun b hb => by simp [hbefore b hb],
        Option.none_or, find?_cons_of_pos hq]
    rw [hfirst] at h
    exact find?_some h
  · intro h
    -- conversely, by what the search for `q` finds
    cases hq : l.find? q with
    | none =>
      rw [find?_eq_none] at hq ⊢
      exact fun a ha hp => hq a ha (hpq a hp)
    | some a =>
      obtain ⟨hqa, before, after, rfl, hbefore⟩ := find?_eq_some_iff_append.mp hq
      -- nothing before `a` has `q`, so nothing has `p`
      have hbefore' : ∀ b ∈ before, q b = false := fun b hb => by simpa using hbefore b hb
      rw [find?_append, find?_eq_none.mpr fun b hb hp => by
          simpa [hbefore' b hb] using hpq b hp,
        Option.none_or, find?_cons_of_pos (h before a after rfl hbefore' hqa)]

/-! ## dropWhile lemmas -/

theorem dropWhile_eq_cons_iff {p : α → Bool} (ha : p a = false) :
    t.dropWhile p = a :: r ↔ ∃ s, (∀ d ∈ s, p d) ∧ t = s ++ a :: r := by
  constructor
  · intro h
    refine ⟨t.takeWhile p, fun d hd => mem_takeWhile_imp hd, ?_⟩
    rw [← h, takeWhile_append_dropWhile]
  · rintro ⟨s, hs, rfl⟩
    rw [dropWhile_append_of_pos hs, dropWhile_cons_of_neg (by simp [ha])]

/-! ## Lexicographic order -/

/-- Lists whose beginnings have one length are ordered by these first. -/
theorem lex_append_iff {q : α → α → Prop} (h : u.length = v.length) :
    Lex q (u ++ r) (v ++ s) ↔ Lex q u v ∨ u = v ∧ Lex q r s := by
  -- on both first words, which have one length
  induction u generalizing v with
  | nil =>
    obtain rfl := eq_nil_of_length_eq_zero h.symm
    simp only [nil_append, not_lex_nil, true_and, false_or]
  | cons a u ih =>
    -- compare the heads, and then the tails of equal length
    obtain ⟨b, v, rfl⟩ := exists_cons_of_length_eq_add_one h.symm
    have hlength : u.length = v.length := Nat.succ_inj.mp h
    rw [cons_append, cons_append, cons_lex_cons_iff, cons_lex_cons_iff, ih hlength, cons.injEq]
    constructor
    · rintro (hlt | ⟨heq, hlt | ⟨heq', hlt⟩⟩)
      · exact .inl (.inl hlt)
      · exact .inl (.inr ⟨heq, hlt⟩)
      · exact .inr ⟨⟨heq, heq'⟩, hlt⟩
    · rintro ((hlt | ⟨heq, hlt⟩) | ⟨⟨heq, heq'⟩, hlt⟩)
      · exact .inl hlt
      · exact .inr ⟨heq, .inl hlt⟩
      · exact .inr ⟨heq, .inr ⟨heq', hlt⟩⟩

end List
