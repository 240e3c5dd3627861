import Mathlib.Logic.Basic

/-!
# Semantic cache

Model of `crates/barqium-ai/src/cache.rs`. The entries, the counter and the index have a lock each,
so `insert` and `get` are sequences of steps, one for every time that a lock is held, and the steps
of concurrent calls interleave. The arithmetic of `f32` and the HNSW index are foreign and stay
parameters. Log output is left out.
-/

namespace Barqium.Native

/-- What is used of `f32`: a comparison with a NaN is false. -/
structure F32 where
  F : Type
  zero : F
  one : F
  add : F → F → F
  sub : F → F → F
  mul : F → F → F
  div : F → F → F
  sqrt : F → F
  eq : F → F → Bool
  gt : F → F → Bool
  le : F → F → Bool
  isNan : F → Bool
  le_eq : ∀ x y, le x y = (!isNan x && !isNan y && !gt x y)

/-- `EmbPoint`. -/
abbrev EmbPoint (f : F32) := List f.F

/-- Cosine distance. -/
def EmbPoint.distance {f : F32} (a b : EmbPoint f) : f.F :=
  let sum (xs : List f.F) := xs.foldl f.add f.zero
  let dot := sum ((a.zip b).map fun p => f.mul p.1 p.2)
  let na := f.sqrt (sum (a.map fun x => f.mul x x))
  let nb := f.sqrt (sum (b.map fun x => f.mul x x))
  if f.eq na f.zero || f.eq nb f.zero then f.one else f.sub f.one (f.div dot (f.mul na nb))

/-- A hit of a search: an indexed point with its value and its distance from the query. -/
structure Hit (f : F32) where
  point : EmbPoint f
  value : Nat
  distance : f.F

/-- An HNSW index over points with values. A search gives an indexed point. -/
structure HnswMap (f : F32) where
  pairs : List (EmbPoint f × Nat)
  /-- The first hit of a search. -/
  nearest : EmbPoint f → Option (Hit f)
  nearest_mem : ∀ query hit, nearest query = some hit → (hit.point, hit.value) ∈ pairs
  nearest_distance : ∀ query hit, nearest query = some hit → hit.distance = query.distance hit.point

structure Entry (f : F32) (R : Type) where
  embedding : EmbPoint f
  response : R

/-- The three locked fields. -/
structure SemanticCache (f : F32) (R : Type) where
  entries : List (Entry f R)
  insertsSinceRebuild : Nat
  index : Option (HnswMap f)

namespace SemanticCache

/-- The fields that do not change, and the builder of indexes with its random seed. -/
structure Config (f : F32) where
  /-- Maximum cosine distance to accept as a cache hit. -/
  threshold : f.F
  rebuildEvery : Nat
  build : Nat → List (EmbPoint f) → List Nat → HnswMap f
  build_pairs : ∀ seed points values, (build seed points values).pairs = points.zip values

/-- Where a call of `insert` or `get` stands. -/
inductive Phase (f : F32) (R : Type) where
  | push (embedding : EmbPoint f) (response : R)
  | count
  /-- At the start of `rebuild_index`. -/
  | copy
  /-- With the points of a copy of the entries. -/
  | publish (points : List (EmbPoint f))
  /-- Returned, with the number of entries in the index that it published. -/
  | inserted (rebuilt : Option Nat)
  | search (query : EmbPoint f)
  /-- With a hit and the read lock of the index. -/
  | read (query : EmbPoint f) (hit : Hit f)
  /-- Returned, with the hit that the response comes from. -/
  | answered (query : EmbPoint f) (hit : Option (Hit f)) (response : Option R)

variable {f : F32} {R : Type}

/-- Holds the read lock of the index between two of its steps. -/
def Phase.holdsIndex : Phase f R → Bool
  | read _ _ => true
  | _ => false

/-- The next step of a call, none if it waits for a lock or has returned. -/
def advance (config : Config f) (held : Bool) (seed : Nat) (cache : SemanticCache f R) :
    Phase f R → Option (SemanticCache f R × Phase f R)
  | .push embedding response =>
    some ({ cache with entries := cache.entries ++ [⟨embedding, response⟩] }, .count)
  | .count =>
    let count := cache.insertsSinceRebuild + 1
    -- the counter starts over before the entries are copied
    if count ≥ config.rebuildEvery then some ({ cache with insertsSinceRebuild := 0 }, .copy)
    else some ({ cache with insertsSinceRebuild := count }, .inserted none)
  | .copy =>
    if cache.entries = [] then some (cache, .inserted none)
    else some (cache, .publish (cache.entries.map Entry.embedding))
  | .publish points =>
    -- a reader holds the lock
    if held then none
    else
      let newIndex := config.build seed points (List.range points.length)
      some ({ cache with index := some newIndex }, .inserted (some points.length))
  | .inserted _ => none
  | .search query =>
    match cache.index.bind fun index => index.nearest query with
    | none => some (cache, .answered query none none)
    | some best =>
      -- a comparison with NaN is false, so the entry is taken
      if f.gt best.distance config.threshold then some (cache, .answered query (some best) none)
      else some (cache, .read query best)
  | .read query best =>
    some (cache, .answered query (some best) (cache.entries[best.value]?.map Entry.response))
  | .answered _ _ _ => none

/-- A cache with all calls that were started. -/
structure World (f : F32) (R : Type) where
  cache : SemanticCache f R
  calls : List (Phase f R)

/-- `new`. -/
def World.new : World f R := ⟨⟨[], 0, none⟩, []⟩

inductive Action (f : F32) (R : Type) where
  | insert (embedding : EmbPoint f) (response : R)
  | get (query : EmbPoint f)
  /-- The next step of the call with this number. -/
  | step (i seed : Nat)

namespace World

def held (w : World f R) : Bool := w.calls.any Phase.holdsIndex

def step (config : Config f) (w : World f R) : Action f R → World f R
  | .insert embedding response => { w with calls := w.calls ++ [.push embedding response] }
  | .get query => { w with calls := w.calls ++ [.search query] }
  | .step i seed =>
    match w.calls[i]? with
    | none => w
    | some phase =>
      match advance config w.held seed w.cache phase with
      | none => w
      | some (cache, phase) => ⟨cache, w.calls.set i phase⟩

/-- The world after these actions, in any interleaving of calls. -/
def run (config : Config f) (actions : List (Action f R)) : World f R :=
  actions.foldl (step config) new

end World

end SemanticCache

end Barqium.Native
