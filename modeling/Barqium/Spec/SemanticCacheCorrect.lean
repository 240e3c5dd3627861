import Barqium.ForStd.Run
import Barqium.Native.SemanticCache
import Mathlib.Data.List.Infix

/-!
# Hits of the semantic cache

The index is built from a copy of the entries, while further entries are appended. Entries never
move, so the position of a point in the index stays that of its entry.

## Key results

- `advance_cases`, `step_cases`: what a step of a call is, and of the world.
- `founded_step`, `founded_run`: every index value, every copy and every hit refers to an entry
  with its point.
- `hitsFounded_step_iff`, `hitsFounded_iff`: the hits are right exactly if no answer follows a
  comparison with a NaN
-/

namespace Barqium.Native.SemanticCache

variable {f : F32} {R : Type} {config : Config f}

/-! ## Steps -/

/-- A call that has just been started. -/
inductive IsStart : Phase f R → Prop where
  | insert (embedding : EmbPoint f) (response : R) : IsStart (.push embedding response)
  | get (query : EmbPoint f) : IsStart (.search query)

/-- What one step of a call can do, with one case for each way that the call goes on. -/
inductive AdvanceTo (config : Config f) (held : Bool) (seed : Nat) (cache : SemanticCache f R) :
    Phase f R → SemanticCache f R → Phase f R → Prop where
  | push (embedding : EmbPoint f) (response : R) :
    AdvanceTo config held seed cache (.push embedding response)
      { cache with entries := cache.entries ++ [⟨embedding, response⟩] } .count
  | counted (few : cache.insertsSinceRebuild + 1 < config.rebuildEvery) :
    AdvanceTo config held seed cache .count
      { cache with insertsSinceRebuild := cache.insertsSinceRebuild + 1 } (.inserted none)
  | enough : AdvanceTo config held seed cache .count { cache with insertsSinceRebuild := 0 } .copy
  | nothing (empty : cache.entries = []) :
    AdvanceTo config held seed cache .copy cache (.inserted none)
  | copied :
    AdvanceTo config held seed cache .copy cache (.publish (cache.entries.map Entry.embedding))
  | published (points : List (EmbPoint f)) (free : held = false) :
    AdvanceTo config held seed cache (.publish points)
      { cache with index := some (config.build seed points (List.range points.length)) }
      (.inserted (some points.length))
  | missed (query : EmbPoint f) (hit : Option (Hit f)) :
    AdvanceTo config held seed cache (.search query) cache (.answered query hit none)
  | found (query : EmbPoint f) (index : HnswMap f) (best : Hit f)
      (published : cache.index = some index)
      (nearest : index.nearest query = some best)
      (notFar : f.gt best.distance config.threshold = false) :
    AdvanceTo config held seed cache (.search query) cache (.read query best)
  | answered (query : EmbPoint f) (best : Hit f) :
    AdvanceTo config held seed cache (.read query best) cache
      (.answered query (some best) (cache.entries[best.value]?.map Entry.response))

/-- What the next part of a call does, by the phase it is in. -/
theorem advance_cases {held : Bool} {seed : Nat} {cache cache' : SemanticCache f R}
    {phase phase' : Phase f R} (h : advance config held seed cache phase = some (cache', phase')) :
    AdvanceTo config held seed cache phase cache' phase' := by
  -- what one step of a call does in each phase
  cases phase with
  | push embedding response =>
    cases h
    exact .push embedding response
  | count =>
    simp only [advance] at h
    split at h
    case isTrue =>
      cases h
      exact .enough
    case isFalse hfew =>
      cases h
      exact .counted (Nat.lt_of_not_le hfew)
  | copy =>
    simp only [advance] at h
    split at h
    case isTrue hempty =>
      cases h
      exact .nothing hempty
    case isFalse =>
      cases h
      exact .copied
  | publish points =>
    simp only [advance] at h
    split at h
    case isTrue => cases h
    case isFalse hheld =>
      cases h
      exact .published points (eq_false_of_ne_true hheld)
  | inserted rebuilt => cases h
  | search query =>
    simp only [advance] at h
    split at h
    case h_1 =>
      cases h
      exact .missed query none
    case h_2 best hbest =>
      obtain ⟨index, hindex, hnearest⟩ := Option.bind_eq_some_iff.mp hbest
      split at h
      case isTrue =>
        cases h
        exact .missed query (some best)
      case isFalse hnotFar =>
        cases h
        exact .found query index best hindex hnearest (eq_false_of_ne_true hnotFar)
  | read query best =>
    cases h
    exact .answered query best
  | answered query hit response => cases h

/-- The call in the middle has made a step. -/
structure Advanced (config : Config f) (w w' : World f R) (i seed : Nat) where
  before : List (Phase f R)
  phase : Phase f R
  after : List (Phase f R)
  phase' : Phase f R
  calls_eq : w.calls = before ++ phase :: after
  calls_eq' : w'.calls = before ++ phase' :: after
  position : before.length = i
  advance_eq : advance config w.held seed w.cache phase = some (w'.cache, phase')

/-- There is no such call, or it waits for a lock or has returned. -/
def Stuck (config : Config f) (w : World f R) (a : Action f R) : Prop :=
  ∃ i seed, a = .step i seed ∧
    ∀ phase, w.calls[i]? = some phase → advance config w.held seed w.cache phase = none

/-- A step starts a call, or is one of a call, or changes nothing. -/
theorem step_cases (config : Config f) (w : World f R) (a : Action f R) :
    (Stuck config w a ∧ w.step config a = w) ∨
      (∃ phase, IsStart phase ∧ (∀ i seed, a ≠ .step i seed) ∧
        w.step config a = { w with calls := w.calls ++ [phase] }) ∨
      ∃ i seed, a = .step i seed ∧ Nonempty (Advanced config w (w.step config a) i seed) := by
  cases a with
  | insert embedding response => exact .inr (.inl ⟨_, .insert embedding response, by simp, rfl⟩)
  | get query => exact .inr (.inl ⟨_, .get query, by simp, rfl⟩)
  | step i seed =>
    -- no such call, a call that waits, or one that goes on
    cases hphase : w.calls[i]? with
    | none =>
      refine .inl ⟨⟨i, seed, rfl, fun phase h => ?_⟩, by simp only [World.step, hphase]⟩
      rw [hphase] at h
      cases h
    | some phase =>
      cases hadvance : advance config w.held seed w.cache phase with
      | none =>
        refine .inl ⟨⟨i, seed, rfl, fun other h => ?_⟩, by simp only [World.step, hphase, hadvance]⟩
        rw [hphase] at h
        cases h
        exact hadvance
      | some result =>
        obtain ⟨cache, phase'⟩ := result
        obtain ⟨hi, hget⟩ := List.getElem?_eq_some_iff.mp hphase
        have hstep : w.step config (.step i seed) = ⟨cache, w.calls.set i phase'⟩ := by
          simp only [World.step, hphase, hadvance]
        rw [hstep]
        refine .inr (.inr ⟨i, seed, rfl, ⟨?_⟩⟩)
        exact
          { before := w.calls.take i
            phase := phase
            after := w.calls.drop (i + 1)
            phase' := phase'
            calls_eq := by rw [← hget, List.getElem_cons_drop, List.take_append_drop]
            calls_eq' := List.set_eq_take_append_cons_drop.trans (if_pos hi)
            position := List.length_take_of_le hi.le
            advance_eq := hadvance }

/-- The phase of the call that has made a step. -/
theorem Advanced.getElem?_eq {w w' : World f R} {i seed : Nat} (s : Advanced config w w' i seed) :
    w.calls[i]? = some s.phase := by
  have hposition := s.position
  rw [s.calls_eq, List.getElem?_append_right hposition.le, hposition, Nat.sub_self]
  rfl

/-! ## Entries -/

/-- The entry at this position has this point. -/
def Refers (entries : List (Entry f R)) (point : EmbPoint f) (value : Nat) : Prop :=
  ∃ e, entries[value]? = some e ∧ e.embedding = point

/-- A value goes on to refer to its entry. -/
theorem Refers.append {entries : List (Entry f R)} {point : EmbPoint f} {value : Nat}
    (h : Refers entries point value) (more : List (Entry f R)) :
    Refers (entries ++ more) point value := by
  obtain ⟨e, he, hpoint⟩ := h
  obtain ⟨hlt, -⟩ := List.getElem?_eq_some_iff.mp he
  exact ⟨e, (List.getElem?_append_left hlt).trans he, hpoint⟩

/-- The points of a copy stand at the positions of their entries. -/
private theorem refers_of_prefix {entries : List (Entry f R)} {points : List (EmbPoint f)}
    (h : points <+: entries.map Entry.embedding) {point : EmbPoint f} {value : Nat}
    (hmem : (point, value) ∈ points.zip (List.range points.length)) :
    Refers entries point value := by
  obtain ⟨i, hi, hpair⟩ := List.mem_iff_getElem.mp hmem
  simp only [List.getElem_zip, List.getElem_range, Prod.mk.injEq] at hpair
  obtain ⟨rfl, rfl⟩ := hpair
  simp only [List.length_zip, List.length_range, Nat.min_self] at hi
  have hlength : i < entries.length := by simpa using lt_of_lt_of_le hi h.length_le
  refine ⟨entries[i], List.getElem?_eq_getElem hlength, ?_⟩
  rw [h.getElem hi, List.getElem_map]

/-- The values of the published index refer to entries with the indexed points. -/
def IndexFounded (cache : SemanticCache f R) : Prop :=
  ∀ index, cache.index = some index → ∀ point value, (point, value) ∈ index.pairs →
    Refers cache.entries point value

/-- The response of the entry that a hit refers to. -/
structure FoundedHit (config : Config f) (entries : List (Entry f R)) (query : EmbPoint f)
    (hit : Hit f) (response : R) : Prop where
  entry : ∃ e, entries[hit.value]? = some e ∧ e.embedding = hit.point ∧ e.response = response
  distance : hit.distance = query.distance hit.point
  notFar : f.gt hit.distance config.threshold = false

/-- What a call has seen of the entries is still so. -/
def CallFounded (config : Config f) (entries : List (Entry f R)) : Phase f R → Prop
  | .publish points => points <+: entries.map Entry.embedding
  | .read query hit => Refers entries hit.point hit.value ∧
      hit.distance = query.distance hit.point ∧ f.gt hit.distance config.threshold = false
  | .answered query hit response => ∀ r, response = some r →
      ∃ best, hit = some best ∧ FoundedHit config entries query best r
  | _ => True

/-- What a call holds stays founded. -/
theorem CallFounded.append {entries : List (Entry f R)} {phase : Phase f R}
    (h : CallFounded config entries phase) (more : List (Entry f R)) :
    CallFounded config (entries ++ more) phase := by
  cases phase with
  | publish points =>
    rw [CallFounded, List.map_append]
    exact List.IsPrefix.trans h (List.prefix_append _ _)
  | read query hit => exact ⟨h.1.append more, h.2⟩
  | answered query hit response =>
    intro r hr
    obtain ⟨best, hbest, ⟨e, he, hpoint, hresponse⟩, hdistance, hnotFar⟩ := h r hr
    -- the entries are only appended to, so a position keeps its entry
    obtain ⟨hlt, -⟩ := List.getElem?_eq_some_iff.mp he
    exact ⟨best, hbest, ⟨e, (List.getElem?_append_left hlt).trans he, hpoint, hresponse⟩,
      hdistance, hnotFar⟩
  | _ => trivial

/-- One step of a call keeps the index founded, and what the call has seen. -/
private theorem founded_advance {held : Bool} {seed : Nat} {cache cache' : SemanticCache f R}
    {phase phase' : Phase f R} (hindex : IndexFounded cache)
    (hphase : CallFounded config cache.entries phase)
    (h : advance config held seed cache phase = some (cache', phase')) :
    (∃ more, cache'.entries = cache.entries ++ more) ∧ IndexFounded cache' ∧
      CallFounded config cache'.entries phase' := by
  have hsame : ∃ more, cache.entries = cache.entries ++ more := ⟨[], by rw [List.append_nil]⟩
  cases advance_cases h with
  | push embedding response =>
    exact ⟨⟨_, rfl⟩, fun index hi point value hmem => (hindex index hi point value hmem).append _,
      trivial⟩
  | counted => exact ⟨hsame, hindex, trivial⟩
  | enough => exact ⟨hsame, hindex, trivial⟩
  | nothing => exact ⟨hsame, hindex, trivial⟩
  | copied => exact ⟨hsame, hindex, List.prefix_rfl⟩
  | published points =>
    -- entries were only appended since the copy was made
    refine ⟨hsame, ?_, trivial⟩
    intro index hi point value hmem
    cases hi
    rw [config.build_pairs] at hmem
    exact refers_of_prefix hphase hmem
  | missed query hit => exact ⟨hsame, hindex, fun r hr => by cases hr⟩
  | found query index best hi hnearest hnotFar =>
    exact ⟨hsame, hindex, hindex index hi _ _ (index.nearest_mem query best hnearest),
      index.nearest_distance query best hnearest, hnotFar⟩
  | answered query best =>
    refine ⟨hsame, hindex, fun r hr => ⟨best, rfl, ?_, hphase.2.1, hphase.2.2⟩⟩
    obtain ⟨e, he, hresponse⟩ := Option.map_eq_some_iff.mp hr
    obtain ⟨e', he', hpoint⟩ := hphase.1
    obtain rfl : e = e' := Option.some.inj (he.symm.trans he')
    exact ⟨e, he, hpoint, hresponse⟩

/-! ## Runs -/

/-- The index is founded, and what all calls have seen. -/
structure Founded (config : Config f) (w : World f R) : Prop where
  index : IndexFounded w.cache
  calls : ∀ phase ∈ w.calls, CallFounded config w.cache.entries phase

/-- An empty cache is founded. -/
private theorem founded_new : Founded config (World.new : World f R) where
  index index hi := by cases hi
  calls phase hmem := by cases hmem

/-- Every step keeps it so. -/
theorem founded_step {w : World f R} (h : Founded config w) (a : Action f R) :
    Founded config (w.step config a) := by
  rcases step_cases config w a with ⟨-, heq⟩ | ⟨phase, hstart, -, heq⟩ | ⟨i, seed, -, ⟨s⟩⟩
  · rw [heq]
    exact h
  · rw [heq]
    refine ⟨h.index, fun other hother => ?_⟩
    rcases List.mem_append.mp hother with hother | hother
    · exact h.calls other hother
    · obtain rfl := List.mem_singleton.mp hother
      cases hstart <;> trivial
  · have hphase := h.calls s.phase (by rw [s.calls_eq]; simp)
    obtain ⟨⟨more, hentries⟩, hindex, hphase'⟩ := founded_advance h.index hphase s.advance_eq
    -- what the other calls have seen does not move
    refine ⟨hindex, fun other hother => ?_⟩
    rw [s.calls_eq'] at hother
    rcases List.mem_append.mp hother with hbefore | hrest
    · rw [hentries]
      exact (h.calls other (by rw [s.calls_eq]; simp [hbefore])).append more
    · rcases List.mem_cons.mp hrest with rfl | hafter
      · exact hphase'
      · rw [hentries]
        exact (h.calls other (by rw [s.calls_eq]; simp [hafter])).append more

/-- Every entry is founded at every point of a run. -/
theorem founded_run (config : Config f) (actions : List (Action f R)) :
    Founded config (World.run config actions) :=
  List.foldl_keeps actions World.new founded_new fun _ a _ _ h => founded_step h a

/-- Every index value refers to the entry of its point, and every response comes from the entry of
    the nearest point, which is within the threshold of the query. -/
structure HitsFounded (config : Config f) (w : World f R) : Prop where
  index : ∀ index, w.cache.index = some index → ∀ point value, (point, value) ∈ index.pairs →
    ∃ e, w.cache.entries[value]? = some e ∧ e.embedding = point
  hits : ∀ query hit r, .answered query hit (some r) ∈ w.calls → ∃ best, hit = some best ∧
    (∃ e, w.cache.entries[best.value]? = some e ∧ e.embedding = best.point ∧ e.response = r) ∧
    f.le (query.distance best.point) config.threshold = true

/-- A call that answers with an entry has found it by comparing numbers. -/
def ComparesNumbers (config : Config f) (w : World f R) (a : Action f R) : Prop :=
  ∀ i seed query best, a = .step i seed → w.calls[i]? = some (.read query best) →
    f.isNan (query.distance best.point) = false ∧ f.isNan config.threshold = false

/-- A hit is within the threshold exactly if neither is a NaN. -/
theorem FoundedHit.within_iff {entries : List (Entry f R)} {query : EmbPoint f} {hit : Hit f}
    {r : R} (h : FoundedHit config entries query hit r) :
    f.le (query.distance hit.point) config.threshold = true ↔
      f.isNan (query.distance hit.point) = false ∧ f.isNan config.threshold = false := by
  have hnotFar := h.notFar
  rw [h.distance] at hnotFar
  rw [f.le_eq, hnotFar, Bool.not_false, Bool.and_true, Bool.and_eq_true, Bool.not_eq_true',
    Bool.not_eq_true']

/-- An answer with an entry was there before, or is that of the call that reads. -/
theorem answered_step {w : World f R} {a : Action f R} {query : EmbPoint f} {hit : Option (Hit f)}
    {r : R} (h : .answered query hit (some r) ∈ (w.step config a).calls) :
    .answered query hit (some r) ∈ w.calls ∨
      ∃ i seed best, a = .step i seed ∧ w.calls[i]? = some (.read query best) ∧
        hit = some best := by
  -- the answer was there, or the step has just given it
  rcases step_cases config w a with ⟨-, heq⟩ | ⟨phase, hstart, -, heq⟩ | ⟨i, seed, ha, ⟨s⟩⟩
  · exact .inl (heq ▸ h)
  · rw [heq] at h
    rcases List.mem_append.mp h with hold | hnew
    · exact .inl hold
    · cases hstart <;> cases List.mem_singleton.mp hnew
  · rw [s.calls_eq'] at h
    rcases List.mem_append.mp h with hbefore | hrest
    · exact .inl (s.calls_eq ▸ List.mem_append_left _ hbefore)
    · rcases List.mem_cons.mp hrest with hnew | hafter
      · -- only a call that reads goes on to such an answer
        have hget := s.getElem?_eq
        have hto := advance_cases s.advance_eq
        generalize s.phase = phase, s.phase' = phase', (w.step config a).cache = cache at *
        cases hto with
        | answered query' best =>
          obtain ⟨rfl, hhit, -⟩ := Phase.answered.inj hnew
          exact .inr ⟨i, seed, best, ha, hget, hhit⟩
        | missed query' hit' => cases (Phase.answered.inj hnew).2.2
        | _ => cases hnew
      · exact .inl (s.calls_eq ▸ List.mem_append_right _ (List.mem_cons_of_mem _ hafter))

/-- A call that reads finds the entry of its hit. -/
private theorem exists_answer {w : World f R} (h : Founded config w) {i : Nat} {query : EmbPoint f}
    {best : Hit f} (hread : w.calls[i]? = some (.read query best)) (seed : Nat) :
    ∃ r, .answered query (some best) (some r) ∈ (w.step config (.step i seed)).calls := by
  obtain ⟨⟨e, he, -⟩, -⟩ := h.calls _ (List.mem_of_getElem? hread)
  obtain ⟨hi, -⟩ := List.getElem?_eq_some_iff.mp hread
  refine ⟨e.response, ?_⟩
  simp only [World.step, hread, advance, he, Option.map_some]
  exact List.mem_set hi _

/-- One step keeps the hits right if and only if a call that answers has compared numbers. -/
theorem hitsFounded_step_iff {w : World f R} {a : Action f R} (hfounded : Founded config w)
    (h : HitsFounded config w) :
    HitsFounded config (w.step config a) ↔ ComparesNumbers config w a := by
  have hnext := founded_step hfounded a
  constructor
  · -- a hit is founded only if the comparison was of numbers
    rintro hhits i seed query best rfl hread
    obtain ⟨r, hmem⟩ := exists_answer hfounded hread seed
    obtain ⟨_, hbest, hhit⟩ := hnext.calls _ hmem r rfl
    obtain ⟨_, hbest', -, hwithin⟩ := hhits.hits _ _ r hmem
    cases hbest
    cases hbest'
    exact hhit.within_iff.mp hwithin
  · -- and then the distance is within the bound
    intro hnumbers
    refine ⟨hnext.index, fun query hit r hmem => ?_⟩
    obtain ⟨best, rfl, hhit⟩ := hnext.calls _ hmem r rfl
    refine ⟨best, rfl, hhit.entry, ?_⟩
    rcases answered_step hmem with hold | ⟨i, seed, _, ha, hread, hbest⟩
    · obtain ⟨_, hbest, -, hwithin⟩ := h.hits _ _ r hold
      cases hbest
      exact hwithin
    · cases hbest
      exact hhit.within_iff.mpr (hnumbers i seed query best ha hread)

/-- The hits are founded in every state of a run if and only if no call in it answers after it
    has compared with a NaN. -/
theorem hitsFounded_iff (config : Config f) (actions : List (Action f R)) :
    (∀ before, before <+: actions → HitsFounded config (World.run config before)) ↔
      ∀ before a after, actions = before ++ a :: after →
        ComparesNumbers config (World.run config before) a := by
  refine List.foldl_keeps_iff actions World.new ?_ fun before a after _ h =>
    hitsFounded_step_iff (founded_run config before) h
  exact { index := fun index hi => (by cases hi), hits := fun query hit r hmem => (by cases hmem) }

/-! ## A query without direction -/

def lift (op : Int → Int → Int) (x y : Option Int) : Option Int := x.bind fun a => y.map (op a)

def holds (rel : Int → Int → Bool) (x y : Option Int) : Bool :=
  (x.bind fun a => y.map (rel a)).getD false

/-- Whole numbers and a NaN, with the square roots of 0 and 1. -/
def wholeNumbers : F32 where
  F := Option Int
  zero := some 0
  one := some 1
  add := lift (· + ·)
  sub := lift (· - ·)
  mul := lift (· * ·)
  div := lift (· / ·)
  sqrt := id
  eq := holds fun a b => a = b
  gt := holds fun a b => a > b
  le := holds fun a b => a ≤ b
  isNan := Option.isNone
  le_eq x y := by
    cases x with
    | none => rfl
    | some a =>
      cases y with
      | none => rfl
      | some b =>
        show decide (a ≤ b) = !decide (a > b)
        rw [← decide_not, decide_eq_decide]
        omega

/-- The index of one point: every search gives it. -/
def onePoint (pairs : List (EmbPoint wholeNumbers × Nat)) : HnswMap wholeNumbers where
  pairs := pairs
  nearest query := pairs.head?.map fun p => ⟨p.1, p.2, query.distance p.1⟩
  nearest_mem query hit h := by
    obtain ⟨p, hp, rfl⟩ := Option.map_eq_some_iff.mp h
    exact List.mem_of_mem_head? hp
  nearest_distance query hit h := by
    obtain ⟨p, hp, rfl⟩ := Option.map_eq_some_iff.mp h
    rfl

/-- The index is rebuilt after every insert; a hit has to be exact. -/
def exactConfig : Config wholeNumbers where
  threshold := some 0
  rebuildEvery := 1
  build _ points values := onePoint (points.zip values)
  build_pairs _ _ _ := rfl

/-- An insert, and then a query with a NaN. -/
def nanQuery : List (Action wholeNumbers String) :=
  [.insert [some 1] "cached", .step 0 0, .step 0 0, .step 0 0, .step 0 0,
    .get [none], .step 1 0, .step 1 0]

/-- It is answered with the entry. -/
theorem nan_query_hits :
    ¬ ∀ (f : F32) (R : Type) (config : Config f) (actions : List (Action f R)),
      HitsFounded config (World.run config actions) := by
  intro h
  have hanswered : Phase.answered [none] (some ⟨[some 1], 0, none⟩) (some "cached") ∈
      (World.run exactConfig nanQuery).calls :=
    List.mem_of_getElem? (i := 1) rfl
  obtain ⟨best, hbest, -, hwithin⟩ :=
    (h wholeNumbers String exactConfig nanQuery).hits _ _ _ hanswered
  cases hbest
  exact absurd hwithin (by decide)

end Barqium.Native.SemanticCache
