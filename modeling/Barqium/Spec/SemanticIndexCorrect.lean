import Barqium.Spec.SemanticCacheCorrect
import Mathlib.Data.List.Count

/-!
# Progress of the semantic index

A rebuild copies the entries, builds an index without any lock and then publishes it. Overlapping
rebuilds may publish in another order than they copied in.

## Key results

- `neverBackwards_iff`: the published index never moves backwards exactly if no rebuild publishes
  after one that copied more.
- `backlog_step`, `backlog_run`: then all but fewer entries than a rebuild needs are covered or
  about to be
-/

namespace Barqium.Native.SemanticCache

variable {f : F32} {R : Type} {config : Config f}

/-- The number of entries that the published index covers. -/
def World.covered (w : World f R) : Nat :=
  (w.cache.index.map fun index => index.pairs.length).getD 0

/-- An insert that has not returned. -/
inductive Unfinished : Phase f R → Prop where
  | push (embedding : EmbPoint f) (response : R) : Unfinished (.push embedding response)
  | count : Unfinished .count
  | copy : Unfinished .copy
  | publish (points : List (EmbPoint f)) : Unfinished (.publish points)

/-- The step does not publish an index over fewer entries than one that was published before. -/
def PublishesInOrder (w : World f R) (a : Action f R) : Prop :=
  ∀ i seed points, a = .step i seed → w.calls[i]? = some (.publish points) → w.held = false →
    ∀ n, .inserted (some n) ∈ w.calls → n ≤ points.length

/-- A run in which rebuilds publish in the order of their copies. -/
def RebuildsInOrder (config : Config f) (actions : List (Action f R)) : Prop :=
  ∀ before a after, actions = before ++ a :: after →
    PublishesInOrder (World.run config before) a

def NeverBackwards (config : Config f) (actions : List (Action f R)) : Prop :=
  ∀ before a after, actions = before ++ a :: after →
    (World.run config before).covered ≤ (World.run config (before ++ [a])).covered

/-- Whenever all inserts have returned, fewer entries than a rebuild needs are not covered. -/
def CoversAtRest (config : Config f) (actions : List (Action f R)) : Prop :=
  ∀ before, before <+: actions →
    (∀ phase ∈ (World.run config before).calls, ¬ Unfinished phase) →
      (World.run config before).cache.entries.length <
        (World.run config before).covered + config.rebuildEvery

/-! ## What is published -/

/-- The index is that of some rebuild, and none of the others covers more. -/
structure LatestLongest (w : World f R) : Prop where
  latest : w.covered = 0 ∨ .inserted (some w.covered) ∈ w.calls
  longest : ∀ n, .inserted (some n) ∈ w.calls → n ≤ w.covered

/-- A step of a call publishes an index, or leaves it as it is. -/
private theorem advance_index {held : Bool} {seed : Nat} {cache cache' : SemanticCache f R}
    {phase phase' : Phase f R} (h : advance config held seed cache phase = some (cache', phase')) :
    (∃ points index, phase = .publish points ∧ held = false ∧ cache'.index = some index ∧
        index.pairs.length = points.length ∧ phase' = .inserted (some points.length)) ∨
      ((∀ points, phase ≠ .publish points) ∧ cache'.index = cache.index ∧
        ∀ n, phase' ≠ .inserted (some n)) := by
  cases advance_cases h with
  | published points hfree =>
    refine .inl ⟨points, _, rfl, hfree, rfl, ?_, rfl⟩
    rw [config.build_pairs, List.length_zip, List.length_range, Nat.min_self]
  | _ => exact .inr ⟨by simp, rfl, by simp⟩

/-- The step is one of a call that publishes an index over its copy. -/
def Publishes (w : World f R) (a : Action f R) (points : List (EmbPoint f)) : Prop :=
  ∃ i seed, a = .step i seed ∧ w.calls[i]? = some (.publish points) ∧ w.held = false

/-- A call that has returned makes no step. -/
theorem Advanced.inserted_mem_iff {w w' : World f R} {i seed : Nat}
    (s : Advanced config w w' i seed) (n : Nat) :
    .inserted (some n) ∈ w'.calls ↔
      .inserted (some n) = s.phase' ∨ .inserted (some n) ∈ w.calls := by
  have hold : s.phase ≠ .inserted (some n) := by
    intro hphase
    have hadvance := s.advance_eq
    rw [hphase] at hadvance
    cases hadvance
  rw [s.calls_eq', s.calls_eq]
  simp only [List.mem_append, List.mem_cons, hold.symm, false_or]
  exact or_left_comm

/-- What a step does to what is published. -/
private theorem step_published (config : Config f) (w : World f R) (a : Action f R) :
    (∃ points, Publishes w a points ∧ (w.step config a).covered = points.length ∧
        ∀ n, .inserted (some n) ∈ (w.step config a).calls ↔
          n = points.length ∨ .inserted (some n) ∈ w.calls) ∨
      ((∀ points, ¬ Publishes w a points) ∧ (w.step config a).covered = w.covered ∧
        ∀ n, .inserted (some n) ∈ (w.step config a).calls ↔ .inserted (some n) ∈ w.calls) := by
  -- nothing happens, a call begins, or one goes on
  rcases step_cases config w a with ⟨⟨i, seed, ha, hstuck⟩, heq⟩ | ⟨phase, hstart, ha, heq⟩ |
    ⟨i, seed, ha, ⟨s⟩⟩
  · -- a call with a copy and a free index is not stuck
    refine .inr ⟨fun points hpublish => ?_, by rw [heq], fun n => by rw [heq]⟩
    obtain ⟨j, seed', ha', hphase, hheld⟩ := hpublish
    cases ha.symm.trans ha'
    have hnone := hstuck _ hphase
    simp [advance, hheld] at hnone
  · refine .inr ⟨fun points hpublish => ?_, by rw [heq]; rfl, fun n => ?_⟩
    · obtain ⟨j, seed', ha', -⟩ := hpublish
      exact ha j seed' ha'
    · have hne : Phase.inserted (some n) ≠ phase := by cases hstart <;> simp
      rw [heq]
      simp [hne]
  · rcases advance_index s.advance_eq with ⟨points, index, hphase, hheld, hindex, hlength, hnext⟩ |
      ⟨hphase, hindex, hnext⟩
    · refine .inl ⟨points, ⟨i, seed, ha, s.getElem?_eq.trans (congrArg some hphase), hheld⟩, ?_,
        fun n => ?_⟩
      · rw [World.covered, hindex, Option.map_some, Option.getD_some, hlength]
      · rw [s.inserted_mem_iff, hnext]
        simp
    · refine .inr ⟨fun points hpublish => ?_, by rw [World.covered, hindex]; rfl, fun n => ?_⟩
      · obtain ⟨j, seed', ha', hpoints, -⟩ := hpublish
        cases ha.symm.trans ha'
        exact hphase points (Option.some.inj (s.getElem?_eq.symm.trans hpoints))
      · rw [s.inserted_mem_iff, or_iff_right (hnext n).symm]

/-- Among the indexes that were published before, an index in order is the longest. -/
theorem publishesInOrder_iff (config : Config f) {w : World f R} {a : Action f R}
    (h : LatestLongest w) :
    PublishesInOrder w a ↔ w.covered ≤ (w.step config a).covered := by
  -- only a publication changes what is covered
  rcases step_published config w a with
    ⟨points, hpublish, hcovered, -⟩ | ⟨hnot, hcovered, -⟩
  · obtain ⟨i, seed, rfl, hphase, hheld⟩ := hpublish
    rw [hcovered]
    constructor
    · intro horder
      rcases h.latest with hzero | hlatest
      · rw [hzero]
        exact Nat.zero_le _
      · exact horder i seed points rfl hphase hheld _ hlatest
    · intro hle j seed' points' ha hphase' _ n hn
      cases ha
      cases hphase.symm.trans hphase'
      exact (h.longest n hn).trans hle
  · rw [hcovered]
    exact ⟨fun _ => Nat.le_refl _, fun _ i seed points ha hphase hheld =>
      absurd ⟨i, seed, ha, hphase, hheld⟩ (hnot points)⟩

/-- A step that publishes in order keeps the longest index the latest. -/
theorem latestLongest_step {w : World f R} {a : Action f R} (h : LatestLongest w)
    (horder : PublishesInOrder w a) : LatestLongest (w.step config a) := by
  have hle := (publishesInOrder_iff config h).mp horder
  rcases step_published config w a with
    ⟨points, -, hcovered, hcalls⟩ | ⟨-, hcovered, hcalls⟩
  · -- the index that has just been published is the longest
    refine ⟨.inr ((hcalls _).mpr (.inl hcovered)), fun n hn => ?_⟩
    rcases (hcalls n).mp hn with rfl | hn
    · exact hcovered.ge
    · exact (h.longest n hn).trans hle
  · constructor
    · rw [hcovered]
      exact h.latest.imp_right (hcalls _).mpr
    · intro n hn
      rw [hcovered]
      exact h.longest n ((hcalls n).mp hn)

/-- At first the longest index is the latest. -/
private theorem latestLongest_new : LatestLongest (World.new : World f R) where
  latest := .inl rfl
  longest n hn := by cases hn

/-- One more action. -/
theorem run_concat (config : Config f) (before : List (Action f R)) (a : Action f R) :
    World.run config (before ++ [a]) = (World.run config before).step config a :=
  List.foldl_concat _ _ a before

/-- A run in which every step from a state like this is in order ends in one. -/
theorem latestLongest_run {actions : List (Action f R)}
    (h : ∀ before a after, actions = before ++ a :: after →
      LatestLongest (World.run config before) → PublishesInOrder (World.run config before) a) :
    LatestLongest (World.run config actions) :=
  List.foldl_keeps actions World.new latestLongest_new fun before a after hsplit hbefore =>
    latestLongest_step hbefore (h before a after hsplit hbefore)

/-- The index never moves backwards if and only if the rebuilds publish in the order of their
    copies. -/
theorem neverBackwards_iff (config : Config f) (actions : List (Action f R)) :
    NeverBackwards config actions ↔ RebuildsInOrder config actions := by
  constructor
  · intro h before a after hsplit
    -- no step before this one went backwards, so all of them were in order
    have hstate : LatestLongest (World.run config before) := by
      refine latestLongest_run fun before' b after' hsplit' hlatest => ?_
      have hle := List.forall_split_left h hsplit before' b after' hsplit'
      rw [run_concat] at hle
      exact (publishesInOrder_iff config hlatest).mpr hle
    have hle := h before a after hsplit
    rw [run_concat] at hle
    exact (publishesInOrder_iff config hstate).mpr hle
  · intro h before a after hsplit
    have hstate : LatestLongest (World.run config before) :=
      latestLongest_run fun before' b after' hsplit' _ =>
        List.forall_split_left h hsplit before' b after' hsplit'
    rw [run_concat]
    exact (publishesInOrder_iff config hstate).mp (h before a after hsplit)

/-! ## What is not covered -/

/-- An insert that has pushed its entry and not counted it. -/
def isUncounted : Phase f R → Bool
  | .count => true
  | _ => false

/-- The entries that are pushed and not counted. -/
def World.uncounted (w : World f R) : Nat := w.calls.countP isUncounted

/-- All entries behind a copy, or behind the index, are counted or about to be. -/
def Reaches (w : World f R) (length : Nat) : Prop :=
  w.cache.entries.length ≤ length + w.cache.insertsSinceRebuild + w.uncounted

/-- The entries that are not covered: a rebuild is about to copy them, has copied them, or there
    are not enough of them for one. -/
def Accounted (w : World f R) : Prop :=
  .copy ∈ w.calls ∨ (∃ points, .publish points ∈ w.calls ∧ Reaches w points.length) ∨
    Reaches w w.covered

structure Backlog (config : Config f) (w : World f R) : Prop where
  count_lt : w.cache.insertsSinceRebuild < config.rebuildEvery
  accounted : Accounted w

/-- What reaches far reaches less far. -/
theorem Reaches.mono {w : World f R} {length length' : Nat} (h : Reaches w length)
    (hle : length ≤ length') : Reaches w length' := by
  unfold Reaches at h ⊢
  omega

/-- The entries stay accounted for in a step that loses no rebuild and counts what it appends. -/
theorem Accounted.step {w w' : World f R} (h : Accounted w)
    (hcopy : .copy ∈ w.calls → .copy ∈ w'.calls)
    (hpublish : ∀ points, .publish points ∈ w.calls →
      .publish points ∈ w'.calls ∨ points.length ≤ w'.covered)
    (hreaches : ∀ length, Reaches w length → Reaches w' length)
    (hcovered : w.covered ≤ w'.covered) : Accounted w' := by
  rcases h with hmem | ⟨points, hmem, hreach⟩ | hreach
  · exact .inl (hcopy hmem)
  · rcases hpublish points hmem with hmem' | hle
    · exact .inr (.inl ⟨points, hmem', hreaches _ hreach⟩)
    · exact .inr (.inr ((hreaches _ hreach).mono hle))
  · exact .inr (.inr ((hreaches _ hreach).mono hcovered))

section Advanced

variable {w w' : World f R} {i seed : Nat} (s : Advanced config w w' i seed)

include s

/-- The other calls stay where they are. -/
theorem Advanced.mem_of_ne {phase : Phase f R} (hne : phase ≠ s.phase) (h : phase ∈ w.calls) :
    phase ∈ w'.calls := by
  rw [s.calls_eq, List.mem_append, List.mem_cons] at h
  rw [s.calls_eq', List.mem_append, List.mem_cons]
  rcases h with hbefore | heq | hafter
  · exact .inl hbefore
  · exact absurd heq hne
  · exact .inr (.inr hafter)

/-- The call is in its new phase. -/
theorem Advanced.mem_phase' : s.phase' ∈ w'.calls := by
  rw [s.calls_eq']
  simp

/-- How many inserted entries are not counted yet. -/
theorem Advanced.uncounted_eq :
    w'.uncounted + (if isUncounted s.phase then 1 else 0) =
      w.uncounted + (if isUncounted s.phase' then 1 else 0) := by
  unfold World.uncounted
  rw [s.calls_eq, s.calls_eq', List.countP_append, List.countP_append, List.countP_cons,
    List.countP_cons]
  omega

/-- A step of a call that takes no copy and publishes none. -/
theorem Advanced.accounted (h : Accounted w) (hcovered : w.covered ≤ w'.covered)
    (hcopy : s.phase ≠ .copy) (hpublish : ∀ points, s.phase ≠ .publish points)
    (hreaches : ∀ length, Reaches w length → Reaches w' length) : Accounted w' :=
  h.step (s.mem_of_ne hcopy.symm)
    (fun points hmem => .inl (s.mem_of_ne (hpublish points).symm hmem)) hreaches hcovered

/-- A step of a call keeps the account of the entries, as long as the index does not lose any. -/
theorem Advanced.backlog (h : Backlog config w) (hcovered : w.covered ≤ w'.covered) :
    Backlog config w' := by
  have hto := advance_cases s.advance_eq
  have huncounted := s.uncounted_eq
  have hmem' := s.mem_phase'
  obtain ⟨hcount, haccounted⟩ := h
  have hother := s.accounted haccounted hcovered
  have hkept : ∀ points, s.phase ≠ .publish points → .publish points ∈ w.calls →
      .publish points ∈ w'.calls := fun points hne => s.mem_of_ne hne.symm
  have hcopy : s.phase ≠ .copy → .copy ∈ w.calls → .copy ∈ w'.calls := fun hne =>
    s.mem_of_ne hne.symm
  unfold Reaches at hother
  generalize s.phase = phase, s.phase' = phase', hcache : w'.cache = cache' at *
  cases hto with
  | push embedding response =>
    refine ⟨by rw [hcache]; exact hcount, hother nofun nofun fun length hreach => ?_⟩
    simp only [List.length_append, List.length_singleton]
    simp only [isUncounted, Bool.false_eq_true, if_false, if_true] at huncounted
    omega
  | counted few =>
    refine ⟨by rw [hcache]; exact few, hother nofun nofun fun length hreach => ?_⟩
    show w.cache.entries.length ≤ length + (w.cache.insertsSinceRebuild + 1) + w'.uncounted
    simp only [isUncounted, Bool.false_eq_true, if_false, if_true] at huncounted
    omega
  | enough =>
    -- the rebuild that starts here will copy all entries
    exact ⟨by rw [hcache]; exact Nat.lt_of_le_of_lt (Nat.zero_le _) hcount, .inl hmem'⟩
  | nothing empty =>
    refine ⟨by rw [hcache]; exact hcount, .inr (.inr ?_)⟩
    rw [Reaches, hcache, empty]
    exact Nat.zero_le _
  | copied =>
    -- nothing is behind a fresh copy
    refine ⟨by rw [hcache]; exact hcount, .inr (.inl ⟨_, hmem', ?_⟩)⟩
    rw [Reaches, hcache, List.length_map, Nat.add_assoc]
    exact Nat.le_add_right _ _
  | published points =>
    have hpoints : w'.covered = points.length := by
      rw [World.covered, hcache, Option.map_some, Option.getD_some, config.build_pairs,
        List.length_zip, List.length_range, Nat.min_self]
    refine ⟨by rw [hcache]; exact hcount, haccounted.step (hcopy nofun) ?_ ?_ hcovered⟩
    · -- entries behind this copy are now behind the index
      intro other hmem
      by_cases heq : other = points
      · exact .inr (by rw [heq, hpoints])
      · exact .inl (hkept other (by simpa using Ne.symm heq) hmem)
    · intro length hreach
      unfold Reaches at hreach ⊢
      simp only [hcache]
      simp only [isUncounted, Bool.false_eq_true, if_false] at huncounted
      omega
  | _ =>
    refine ⟨by rw [hcache]; exact hcount, hother nofun nofun fun length hreach => ?_⟩
    simp only [isUncounted, Bool.false_eq_true, if_false] at huncounted
    omega

end Advanced

/-- Nothing is waiting at first. -/
private theorem backlog_new (hrebuild : 1 ≤ config.rebuildEvery) :
    Backlog config (World.new : World f R) where
  count_lt := hrebuild
  accounted := .inr (.inr (Nat.zero_le _))

/-- A step that does not publish an older index keeps the backlog. -/
theorem backlog_step {w : World f R} {a : Action f R} (h : Backlog config w)
    (hcovered : w.covered ≤ (w.step config a).covered) : Backlog config (w.step config a) := by
  rcases step_cases config w a with
    ⟨-, heq⟩ | ⟨phase, hstart, -, heq⟩ | ⟨i, seed, -, ⟨s⟩⟩
  · rw [heq]
    exact h
  · -- a call that starts has counted nothing yet
    have huncounted : (w.step config a).uncounted = w.uncounted := by
      rw [heq, World.uncounted, List.countP_append]
      cases hstart <;> rfl
    rw [heq] at hcovered huncounted ⊢
    refine ⟨h.count_lt, h.accounted.step (List.mem_append_left _)
      (fun points hmem => .inl (List.mem_append_left _ hmem)) (fun length hreach => ?_) hcovered⟩
    rw [Reaches, huncounted]
    exact hreach
  · exact s.backlog h hcovered

/-- As long as the index does not move backwards, the entries are accounted for in every state. -/
theorem backlog_run (hrebuild : 1 ≤ config.rebuildEvery) {actions : List (Action f R)}
    (h : NeverBackwards config actions) : Backlog config (World.run config actions) := by
  refine List.foldl_keeps actions World.new (backlog_new hrebuild)
    fun before a after hsplit hbefore => ?_
  have hcovered := h before a after hsplit
  rw [run_concat] at hcovered
  exact backlog_step hbefore hcovered

/-- When all inserts have returned, the count is all that is not covered. -/
theorem Backlog.covers {w : World f R} (h : Backlog config w)
    (hrest : ∀ phase ∈ w.calls, ¬ Unfinished phase) :
    w.cache.entries.length < w.covered + config.rebuildEvery := by
  -- at rest no entry waits to be counted
  have hnone : w.uncounted = 0 := by
    rw [World.uncounted, List.countP_eq_zero]
    intro phase hmem huncounted
    cases phase with
    | count => exact hrest _ hmem .count
    | _ => exact absurd huncounted Bool.false_ne_true
  have hcount := h.count_lt
  rcases h.accounted with hmem | ⟨points, hmem, -⟩ | hreach
  · exact absurd .copy (hrest _ hmem)
  · exact absurd (.publish points) (hrest _ hmem)
  · rw [Reaches, hnone] at hreach
    omega

/-- The index never moves backwards, and covers what it should whenever all inserts have returned,
    if and only if the rebuilds publish in the order of their copies. -/
theorem semanticIndex_iff (config : Config f) (actions : List (Action f R))
    (hrebuild : 1 ≤ config.rebuildEvery) :
    (NeverBackwards config actions ∧ CoversAtRest config actions) ↔
      RebuildsInOrder config actions := by
  constructor
  · exact fun h => (neverBackwards_iff config actions).mp h.1
  · intro h
    have hforward := (neverBackwards_iff config actions).mpr h
    refine ⟨hforward, fun before hbefore hrest => ?_⟩
    obtain ⟨after, rfl⟩ := hbefore
    -- a prefix of such a run is one too
    have hprefix : NeverBackwards config before := by
      rintro before' a after' rfl
      exact hforward before' a (after' ++ after) (by simp)
    exact (backlog_run hrebuild hprefix).covers hrest

/-- An insert with its rebuild, and then another one. -/
def oneAfterTheOther : List (Action wholeNumbers String) :=
  [.insert [some 1] "first", .step 0 0, .step 0 0, .step 0 0, .step 0 0,
    .insert [some 0] "second", .step 1 0, .step 1 0, .step 1 0, .step 1 0]

/-- Rebuilds one after the other. -/
theorem semanticIndex_one_after_the_other :
    NeverBackwards exactConfig oneAfterTheOther ∧ CoversAtRest exactConfig oneAfterTheOther := by
  refine (semanticIndex_iff exactConfig oneAfterTheOther (by decide)).mpr ?_
  refine (neverBackwards_iff exactConfig oneAfterTheOther).mp ?_
  simp only [NeverBackwards, oneAfterTheOther, List.forall_split_cons, List.forall_split_nil]
  decide

/-- Two inserts; the second one copies and publishes while the first one builds an index. -/
def overlapping : List (Action wholeNumbers String) :=
  [.insert [some 1] "first", .step 0 0, .step 0 0, .step 0 0,
    .insert [some 0] "second", .step 1 0, .step 1 0, .step 1 0, .step 1 0]

/-- The first rebuild publishes last. -/
theorem older_rebuild_published_last :
    ¬ ∀ (f : F32) (R : Type) (config : Config f) (actions : List (Action f R)),
      1 ≤ config.rebuildEvery → NeverBackwards config actions ∧ CoversAtRest config actions := by
  intro h
  have hle := (h wholeNumbers String exactConfig (overlapping ++ [.step 0 0]) (by decide)).1
    overlapping (.step 0 0) [] rfl
  revert hle
  decide

end Barqium.Native.SemanticCache
