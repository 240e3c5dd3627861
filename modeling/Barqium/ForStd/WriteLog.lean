import Mathlib.Data.Finmap
import Mathlib.Data.Finset.Max
import Mathlib.Data.List.Induction
import Mathlib.Data.List.Sort

/-!
# Logs of keyed writes

An event of a log may write one key of a finite map: it gives the key a value or
removes it. `write e` is what `e` writes. Replaying a log leaves at each key what
the last event that writes the key wrote there, so two replays are compared key
by key.

## Key results

- `lookup_replay`: a replayed map, key by key.
- `replay_append_eq_iff`: when a log can be replayed without its beginning.
- `replay_append_of_subset`: a beginning that is replayed again does not matter.
- `replay_inOrder_iff`: when replaying a log in arrival order gives the same as
  replaying it in the order of its sequence numbers.
- `replay_eq_of_catchesUp`: repetitions do not matter when the newest events come last.
-/

namespace WriteLog

variable {E K V : Type*} [DecidableEq K] (write : E → Option (K × Option V))

/-- The map after one event. -/
def apply (m : Finmap fun _ : K => V) (e : E) : Finmap fun _ : K => V :=
  match write e with
  | some (k, some v) => m.insert k v
  | some (k, none) => m.erase k
  | none => m

/-- The map after the events of a log, in the order of the log. -/
def replay (m : Finmap fun _ : K => V) (es : List E) : Finmap fun _ : K => V :=
  es.foldl (apply write) m

/-- What `e` writes at `k`: nothing, a value (`some (some v)`), or the removal of
    the key (`some none`). -/
def effect (k : K) (e : E) : Option (Option V) :=
  (write e).bind fun w => if w.1 = k then some w.2 else none

/-- What the last event that writes `k` wrote there. -/
def lastWrite (k : K) (es : List E) : Option (Option V) :=
  es.reverse.findSome? (effect write k)

/-- What an event does to a key is its write to that key. -/
theorem effect_eq_some_iff {k : K} {e : E} {w : Option V} :
    effect write k e = some w ↔ write e = some (k, w) := by
  unfold effect
  cases write e with
  | none => simp
  | some w' =>
    obtain ⟨k', w'⟩ := w'
    simp

/-- An event changes the value of the key it writes only. -/
theorem lookup_apply (m : Finmap fun _ : K => V) (e : E) (k : K) :
    (apply write m e).lookup k = (effect write k e).getD (m.lookup k) := by
  unfold apply effect
  cases write e with
  | none => rfl
  | some w =>
    obtain ⟨k', v⟩ := w
    -- a write at another key is not seen at `k`
    by_cases hk : k' = k
    · subst hk
      cases v with
      | none => simp [Finmap.lookup_erase]
      | some v => simp [Finmap.lookup_insert]
    · cases v with
      | none => simp [hk, Finmap.lookup_erase_ne (Ne.symm hk)]
      | some v => simp [hk, Finmap.lookup_insert_of_ne _ (Ne.symm hk)]

/-- The replay of two logs, one after the other. -/
theorem replay_append (m : Finmap fun _ : K => V) (es fs : List E) :
    replay write m (es ++ fs) = replay write (replay write m es) fs :=
  List.foldl_append

/-- One more event. -/
theorem replay_concat (m : Finmap fun _ : K => V) (es : List E) (e : E) :
    replay write m (es ++ [e]) = apply write (replay write m es) e := by
  rw [replay_append]; rfl

/-- The last write is in the second part of a log, or else in the first. -/
theorem lastWrite_append (k : K) (es fs : List E) :
    lastWrite write k (es ++ fs) = (lastWrite write k fs).or (lastWrite write k es) := by
  unfold lastWrite
  rw [List.reverse_append, List.findSome?_append]

/-- The last event is the last write, or it does not write the key. -/
theorem lastWrite_concat (k : K) (es : List E) (e : E) :
    lastWrite write k (es ++ [e]) = (effect write k e).or (lastWrite write k es) := by
  rw [lastWrite_append]
  simp [lastWrite]

/-- There is no last write if no event writes the key. -/
theorem lastWrite_eq_none_iff {k : K} {es : List E} :
    lastWrite write k es = none ↔ ∀ e ∈ es, effect write k e = none := by
  simp [lastWrite]

/-- The last write of `k` splits the log: nothing after it writes `k`. -/
theorem lastWrite_eq_some {k : K} {es : List E} {w : Option V}
    (h : lastWrite write k es = some w) :
    ∃ pre e post, es = pre ++ e :: post ∧ effect write k e = some w ∧
      ∀ f ∈ post, effect write k f = none := by
  obtain ⟨l₁, e, l₂, hsplit, he, hl₁⟩ := List.findSome?_eq_some_iff.mp h
  refine ⟨l₂.reverse, e, l₁.reverse, ?_, he, fun f hf => hl₁ f (List.mem_reverse.mp hf)⟩
  rw [← List.reverse_reverse es, hsplit]
  simp

/-- A replayed map holds at `k` what was last written there, and is unchanged
    where nothing was written. -/
theorem lookup_replay (m : Finmap fun _ : K => V) (es : List E) (k : K) :
    (replay write m es).lookup k = (lastWrite write k es).getD (m.lookup k) := by
  induction es using List.reverseRecOn with
  | nil => rfl
  | append_singleton es e ih =>
    rw [replay_concat, lookup_apply, lastWrite_concat, ih]
    cases effect write k e <;> rfl

/-- The last write of a split log. -/
theorem lastWrite_of_split {k : K} {pre post : List E} {e : E} {w : Option V}
    (he : effect write k e = some w) (hpost : ∀ f ∈ post, effect write k f = none) :
    lastWrite write k (pre ++ e :: post) = some w := by
  have hafter : lastWrite write k post = none := (lastWrite_eq_none_iff write).mpr hpost
  rw [List.append_cons, lastWrite_append, hafter, lastWrite_concat, he]
  rfl

/-- Events that do not write the same key can be swapped. -/
theorem apply_comm (m : Finmap fun _ : K => V) {e f : E}
    (h : ∀ k, effect write k e = none ∨ effect write k f = none) :
    apply write (apply write m e) f = apply write (apply write m f) e := by
  apply Finmap.ext_lookup
  intro k
  rw [lookup_apply, lookup_apply, lookup_apply, lookup_apply]
  rcases h k with hnone | hnone
  · rw [hnone]
    rfl
  · rw [hnone]
    rfl

/-- Replaying only the end of a log gives the whole log's map exactly when the
    end writes every key that the beginning left in the map. -/
theorem replay_append_eq_iff (es fs : List E) :
    replay write ∅ (es ++ fs) = replay write ∅ fs ↔
      ∀ k ∈ replay write ∅ es, ∃ e ∈ fs, (effect write k e).isSome := by
  have hkey : ∀ k, (replay write ∅ (es ++ fs)).lookup k = (replay write ∅ fs).lookup k ↔
      (k ∈ replay write ∅ es → ∃ e ∈ fs, (effect write k e).isSome) := by
    intro k
    rw [replay_append, lookup_replay, lookup_replay write ∅ fs, Finmap.lookup_empty]
    cases hw : lastWrite write k fs with
    | none =>
      -- nothing in `fs` writes `k`, so the beginning must not have left it
      rw [lastWrite_eq_none_iff] at hw
      simp only [Option.getD_none, Finmap.lookup_eq_none]
      constructor
      · intro hnot hmem
        exact absurd hmem hnot
      · intro h hmem
        obtain ⟨e, he, hsome⟩ := h hmem
        simp [hw e he] at hsome
    | some w =>
      -- the last write of `k` lies in `fs`, so the beginning does not matter
      obtain ⟨pre, e, post, rfl, he, -⟩ := lastWrite_eq_some write hw
      simp only [Option.getD_some, true_iff]
      intro _
      exact ⟨e, by simp, by rw [he]; rfl⟩
  constructor
  · intro h k hk
    exact (hkey k).mp (by rw [h]) hk
  · intro h
    exact Finmap.ext_lookup fun k => (hkey k).mpr (h k)

/-- Events that are replayed again later leave no trace of the first time. -/
theorem replay_append_of_subset (m : Finmap fun _ : K => V) {es fs : List E} (h : es ⊆ fs) :
    replay write m (es ++ fs) = replay write m fs := by
  apply Finmap.ext_lookup
  intro k
  rw [lookup_replay, lookup_replay, lastWrite_append]
  cases hw : lastWrite write k fs with
  | some w => rfl
  | none =>
    -- a key that `fs` does not write is not written by `es` either
    have hnone := (lastWrite_eq_none_iff write).mp hw
    rw [(lastWrite_eq_none_iff write).mpr fun e he => hnone e (h he)]
    rfl

/-! ## Sequence numbers -/

variable (seq : E → Nat)

/-- `e` has the highest sequence among the events of `es` that write `k`. -/
structure Newest (k : K) (es : List E) (e : E) : Prop where
  mem : e ∈ es
  writes : (effect write k e).isSome
  newest : ∀ f ∈ es, (effect write k f).isSome → seq f ≤ seq e

/-- Whenever an event arrives after a newer one on the same key, it writes what
    the newest received event on the key wrote. -/
def Settled (es : List E) : Prop :=
  ∀ pre e post, es = pre ++ e :: post → ∀ k f, (effect write k e).isSome →
    Newest write seq k pre f → seq e < seq f → effect write k e = effect write k f

/-- In a settled log the last event on a key and the newest one write the same. -/
theorem lastWrite_eq_of_settled {es : List E} (hset : Settled write seq es) {k : K} {e : E}
    (hinj : ∀ f ∈ es, ∀ g ∈ es, seq f = seq g → f = g) (he : Newest write seq k es e) :
    lastWrite write k es = effect write k e := by
  cases hw : lastWrite write k es with
  | none => rw [(lastWrite_eq_none_iff write).mp hw e he.mem]
  | some w =>
    obtain ⟨pre, l, post, rfl, hl, hpost⟩ := lastWrite_eq_some write hw
    have hlw : (effect write k l).isSome := by rw [hl]; rfl
    -- the last write `l` is not newer than the newest one
    have hle : seq l ≤ seq e := he.newest l (by simp) hlw
    rcases Nat.eq_or_lt_of_le hle with heq | hlt
    · rw [← hl, hinj l (by simp) e he.mem heq]
    · -- `e` arrived before `l`, and is the newest of what arrived before `l`
      have hepre : e ∈ pre := by
        rcases List.mem_append.mp he.mem with hpre | htail
        · exact hpre
        · rcases List.mem_cons.mp htail with rfl | hpost'
          · omega
          · have hsome := he.writes
            rw [hpost e hpost'] at hsome
            cases hsome
      have hnewest : Newest write seq k pre e :=
        ⟨hepre, he.writes, fun f hf => he.newest f (List.mem_append_left _ hf)⟩
      rw [← hl]
      exact hset pre l post rfl k e hlw hnewest hlt

/-- What is settled is so at every earlier point. -/
theorem Settled.of_isPrefix {pre es : List E} (hset : Settled write seq es)
    (hpre : pre <+: es) : Settled write seq pre := by
  obtain ⟨rest, rfl⟩ := hpre
  intro a e b hsplit
  exact hset a e (b ++ rest) (by rw [hsplit]; simp)

variable [DecidableEq E]

/-- The distinct events of a log in increasing order of sequence. -/
def inOrder (es : List E) : List E :=
  es.dedup.insertionSort fun e f => seq e ≤ seq f

/-- Ordering events keeps them. -/
@[simp] theorem mem_inOrder {es : List E} {e : E} : e ∈ inOrder seq es ↔ e ∈ es := by
  simp [inOrder]

/-- Ordered events have rising sequence numbers. -/
theorem pairwise_inOrder (es : List E) :
    (inOrder seq es).Pairwise fun e f => seq e ≤ seq f := by
  have : Std.Total fun e f : E => seq e ≤ seq f := ⟨fun e f => Nat.le_total _ _⟩
  have : IsTrans E fun e f : E => seq e ≤ seq f := ⟨fun _ _ _ => Nat.le_trans⟩
  exact List.pairwise_insertionSort _ _

/-- Among the events that write a key there is a newest one. -/
theorem exists_newest {k : K} {es : List E} {e : E} (hmem : e ∈ es)
    (hw : (effect write k e).isSome) : ∃ f, Newest write seq k es f := by
  let writers := es.toFinset.filter fun f => (effect write k f).isSome
  have hne : writers.Nonempty := ⟨e, by simp [writers, hmem, hw]⟩
  obtain ⟨f, hf, hmax⟩ := writers.exists_max_image seq hne
  simp only [writers, Finset.mem_filter, List.mem_toFinset] at hf hmax
  exact ⟨f, hf.1, hf.2, fun g hg hgw => hmax g ⟨hg, hgw⟩⟩

/-- In sequence order the newest event on a key is the last to write it. -/
theorem lastWrite_inOrder {k : K} {es : List E} {e : E}
    (hinj : ∀ f ∈ es, ∀ g ∈ es, seq f = seq g → f = g) (he : Newest write seq k es e) :
    lastWrite write k (inOrder seq es) = effect write k e := by
  cases hw : lastWrite write k (inOrder seq es) with
  | none =>
    have := (lastWrite_eq_none_iff write).mp hw e ((mem_inOrder seq).mpr he.mem)
    rw [this]
  | some w =>
    obtain ⟨pre, f, post, hsplit, hf, hpost⟩ := lastWrite_eq_some write hw
    have hfmem : f ∈ es := (mem_inOrder seq).mp (by rw [hsplit]; simp)
    have hfe : seq f ≤ seq e := he.newest f hfmem (by rw [hf]; rfl)
    -- `e` writes `k`, so it is not behind `f` and its sequence is not higher
    have hef : seq e ≤ seq f := by
      have hsorted := pairwise_inOrder seq es
      have hmem : e ∈ inOrder seq es := (mem_inOrder seq).mpr he.mem
      rw [hsplit] at hsorted hmem
      rcases List.mem_append.mp hmem with hpre | htail
      · exact (List.pairwise_append.mp hsorted).2.2 e hpre f List.mem_cons_self
      · rcases List.mem_cons.mp htail with rfl | hpost'
        · exact Nat.le_refl _
        · have hnone := hpost e hpost'
          have hsome := he.writes
          rw [hnone] at hsome
          cases hsome
    rw [hinj e he.mem f hfmem (Nat.le_antisymm hef hfe), hf]

/-- In order, the newest write of a key decides its value. -/
theorem lookup_replay_inOrder_newest {k : K} {es : List E} {e : E}
    (hinj : ∀ f ∈ es, ∀ g ∈ es, seq f = seq g → f = g) (he : Newest write seq k es e) :
    some ((replay write ∅ (inOrder seq es)).lookup k) = effect write k e := by
  rw [lookup_replay, lastWrite_inOrder write seq hinj he]
  obtain ⟨w, hw⟩ := Option.isSome_iff_exists.mp he.writes
  rw [hw]; rfl

/-- A log without duplicate sequence numbers gives, at every point of its
    arrival, the map that sequence order gives exactly when it is settled. -/
theorem replay_inOrder_iff {es : List E}
    (hinj : ∀ f ∈ es, ∀ g ∈ es, seq f = seq g → f = g) :
    (∀ pre, pre <+: es → replay write ∅ pre = replay write ∅ (inOrder seq pre)) ↔
      Settled write seq es := by
  have hinj' : ∀ pre, pre <+: es → ∀ f ∈ pre, ∀ g ∈ pre, seq f = seq g → f = g :=
    fun pre hpre f hf g hg => hinj f (hpre.subset hf) g (hpre.subset hg)
  constructor
  · intro h pre e post hsplit k f hew hf hlt
    have hpre : pre ++ [e] <+: es := ⟨post, by rw [hsplit]; simp⟩
    -- `e` is older than `f`, so `f` is still the newest once `e` has arrived
    have hnewest : Newest write seq k (pre ++ [e]) f := by
      refine ⟨List.mem_append_left _ hf.mem, hf.writes, fun g hg hgw => ?_⟩
      rcases List.mem_append.mp hg with hg | hg
      · exact hf.newest g hg hgw
      · rw [List.mem_singleton.mp hg]; omega
    obtain ⟨w, hw⟩ := Option.isSome_iff_exists.mp hew
    have harrival : (replay write ∅ (pre ++ [e])).lookup k = w := by
      rw [lookup_replay, lastWrite_concat, hw]; rfl
    rw [← lookup_replay_inOrder_newest write seq (hinj' _ hpre) hnewest, ← h _ hpre, harrival, hw]
  · intro hset pre hpre
    -- compare the two maps key by key, through the newest event on the key
    apply Finmap.ext_lookup
    intro k
    rw [lookup_replay, lookup_replay]
    by_cases hex : ∃ e ∈ pre, (effect write k e).isSome
    · obtain ⟨e, he, hw⟩ := hex
      obtain ⟨f, hf⟩ := exists_newest write seq he hw
      rw [lastWrite_inOrder write seq (hinj' pre hpre) hf,
        lastWrite_eq_of_settled write seq (hset.of_isPrefix write seq hpre) (hinj' pre hpre) hf]
    · have hnone : ∀ e ∈ pre, effect write k e = none := by
        intro e he
        rw [← Option.not_isSome_iff_eq_none]
        exact fun hw => hex ⟨e, he, hw⟩
      rw [(lastWrite_eq_none_iff write).mpr hnone,
        (lastWrite_eq_none_iff write).mpr fun e he => hnone e ((mem_inOrder seq).mp he)]

/-! ## Repetitions -/

section

variable (older : E → E → Prop)

/-- An event that comes after a newer one is followed by the newer one once more. -/
def CatchesUp (es : List E) : Prop :=
  ∀ pre e post, es = pre ++ e :: post → ∀ f ∈ pre, older e f → f ∈ post

variable {older}

omit [DecidableEq E] in
/-- The last write of a log that catches up is that of the newest of its events. -/
theorem lastWrite_eq_of_catchesUp {es fs : List E} (hmem : ∀ e, e ∈ es ↔ e ∈ fs)
    (hsorted : fs.Pairwise older) (hes : CatchesUp older es) (k : K) :
    lastWrite write k es = lastWrite write k fs := by
  cases hw : lastWrite write k fs with
  | none =>
    rw [lastWrite_eq_none_iff] at hw ⊢
    exact fun e he => hw e ((hmem e).mp he)
  | some w =>
    obtain ⟨pre, newest, post, rfl, hnewest, hpost⟩ := lastWrite_eq_some write hw
    -- both orders hold the same events, so the newest writer is in each
    have hnewestMem : newest ∈ es := (hmem newest).mpr (by simp)
    cases hw' : lastWrite write k es with
    | none =>
      have hnone := (lastWrite_eq_none_iff write).mp hw' newest hnewestMem
      rw [hnewest] at hnone
      cases hnone
    | some w' =>
      obtain ⟨pre', e, post', rfl, he, hpost'⟩ := lastWrite_eq_some write hw'
      -- the newest event does not come after `e`, since it writes the key
      have hnotPost : newest ∉ post' := by
        intro h
        rw [hpost' newest h] at hnewest
        cases hnewest
      rcases List.mem_append.mp hnewestMem with hpre' | htail
      · by_cases heq : e = newest
        · rw [← he, ← hnewest, heq]
        · -- an older event in the last place would be followed by the newest one again
          have holder : older e newest := by
            have hemem := (hmem e).mp (by simp)
            rcases List.mem_append.mp hemem with h | h
            · exact (List.pairwise_append.mp hsorted).2.2 e h newest List.mem_cons_self
            · rcases List.mem_cons.mp h with h | h
              · exact absurd h heq
              · rw [hpost e h] at he
                cases he
          exact absurd (hes pre' e post' rfl newest hpre' holder) hnotPost
      · rcases List.mem_cons.mp htail with rfl | h
        · rw [← he, ← hnewest]
        · exact absurd h hnotPost

omit [DecidableEq E] in
/-- A log that catches up replays as its events do in their order, once each. -/
theorem replay_eq_of_catchesUp (m : Finmap fun _ : K => V) {es fs : List E}
    (hmem : ∀ e, e ∈ es ↔ e ∈ fs) (hsorted : fs.Pairwise older) (hes : CatchesUp older es) :
    replay write m es = replay write m fs := by
  apply Finmap.ext_lookup
  intro k
  rw [lookup_replay, lookup_replay, lastWrite_eq_of_catchesUp write hmem hsorted hes]

end

section

variable {A : Type*} (event : A → Option E)

omit [DecidableEq E] in
/-- Replaying what some of the items of a list carry. -/
theorem replay_filterMap (m : Finmap fun _ : K => V) (items : List A) :
    replay write m (items.filterMap event) =
      replay (fun item => (event item).bind write) m items := by
  induction items generalizing m with
  | nil => rfl
  | cons item items ih =>
    have hstep : replay (fun item => (event item).bind write) m (item :: items) =
        replay (fun item => (event item).bind write)
          (apply (fun item => (event item).bind write) m item) items := rfl
    rw [hstep, ← ih, List.filterMap_cons]
    cases hevent : event item with
    | none => simp [apply, hevent]
    | some e => simp [replay, apply, hevent]

end

end WriteLog
