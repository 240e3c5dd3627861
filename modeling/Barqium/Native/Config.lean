import Mathlib.Data.Finmap

/-!
# Shared-memory snapshot types

Model of `crates/barqium-config/src/lib.rs`, and of the `HashMap` the snapshot
compiler keeps its entries in. The archived (rkyv) form of a snapshot has the same
fields and is not distinguished from the owned one.
-/

namespace Barqium.Native

/-- A Rust `HashMap` with string keys, without its iteration order. -/
abbrev HashMap (V : Type) := Finmap fun _ : String => V

namespace HashMap

variable {V : Type}

/-- Every entry is stored under its own id. -/
def Keyed (idOf : V → String) (m : HashMap V) : Prop :=
  ∀ id v, m.lookup id = some v → idOf v = id

/-- The empty map is keyed. -/
theorem keyed_empty (idOf : V → String) : Keyed idOf ∅ := by
  intro id v h
  rw [Finmap.lookup_empty] at h
  cases h

/-- Inserting a value under its id keeps a map keyed. -/
theorem Keyed.insert {idOf : V → String} {m : HashMap V} (h : Keyed idOf m) (v : V) :
    Keyed idOf (Finmap.insert (idOf v) v m) := by
  intro id w hw
  by_cases hid : id = idOf v
  · subst hid
    rw [Finmap.lookup_insert] at hw
    cases hw
    rfl
  · rw [Finmap.lookup_insert_of_ne m hid] at hw
    exact h id w hw

/-- Erasing an id keeps a map keyed. -/
theorem Keyed.erase {idOf : V → String} {m : HashMap V} (h : Keyed idOf m) (key : String) :
    Keyed idOf (Finmap.erase key m) := by
  intro id w hw
  by_cases hid : id = key
  · subst hid
    rw [Finmap.lookup_erase] at hw
    cases hw
  · rw [Finmap.lookup_erase_ne hid] at hw
    exact h id w hw

/-- `HashMap::retain` with a predicate on the keys. -/
def retain (keep : String → Bool) (m : HashMap V) : HashMap V where
  entries := m.entries.filter fun e => keep e.1
  nodupKeys := Multiset.nodup_keys.mp (Multiset.nodup_of_le
    (Multiset.map_le_map (Multiset.filter_le _ _)) m.nodupKeys.nodup_keys)

/-- Retaining leaves the values of the retained keys. -/
theorem lookup_retain (keep : String → Bool) (m : HashMap V) (id : String) :
    (retain keep m).lookup id = if keep id then m.lookup id else none := by
  have hmem : ∀ v, (retain keep m).lookup id = some v ↔ m.lookup id = some v ∧ keep id = true := by
    intro v
    rw [Finmap.lookup_eq_some_iff, Finmap.lookup_eq_some_iff]
    exact Multiset.mem_filter
  apply Option.ext
  intro v
  rw [hmem]
  split <;> simp_all

/-- Retaining keeps a map keyed. -/
theorem Keyed.retain {idOf : V → String} {m : HashMap V} (h : Keyed idOf m)
    (keep : String → Bool) : Keyed idOf (HashMap.retain keep m) := by
  intro id v hv
  rw [lookup_retain] at hv
  split at hv
  · exact h id v hv
  · cases hv

/-- The values of a map in an order in which `HashMap::values` may yield them:
    each entry once, and nothing else is promised. -/
def Values (m : HashMap V) : Type :=
  { l : List V // (l : Multiset V) = m.entries.map Sigma.snd }

/-- The values of a map are the values of its keys. -/
theorem mem_values {m : HashMap V} (vs : Values m) {v : V} :
    v ∈ vs.val ↔ ∃ id, m.lookup id = some v := by
  rw [← Multiset.mem_coe, vs.property]
  simp only [Multiset.mem_map, Sigma.exists, exists_eq_right, Finmap.lookup_eq_some_iff]

/-- In a keyed map a value stands under its id. -/
theorem mem_values_keyed {idOf : V → String} {m : HashMap V} (hm : Keyed idOf m)
    (vs : Values m) {v : V} : v ∈ vs.val ↔ m.lookup (idOf v) = some v := by
  rw [mem_values]
  constructor
  · rintro ⟨id, h⟩
    rw [hm id v h, h]
  · intro h
    exact ⟨_, h⟩

/-- Some walk of a map yields any given value first. -/
theorem exists_values_first {m : HashMap V} {id : String} {v : V} (h : m.lookup id = some v) :
    ∃ (first : Values m) (rest : List V), first.val = v :: rest := by
  have hmem : v ∈ m.entries.map Sigma.snd :=
    Multiset.mem_map.mpr ⟨⟨id, v⟩, Finmap.lookup_eq_some_iff.mp h, rfl⟩
  obtain ⟨t, ht⟩ := Multiset.exists_cons_of_mem hmem
  obtain ⟨rest, rfl⟩ := Quot.exists_rep t
  exact ⟨⟨v :: rest, ht.symm⟩, rest, rfl⟩

end HashMap

/-- A single route used for request matching in the data plane. -/
structure RouteEntry where
  id : String
  tenantId : String
  /-- HTTP method or "*" to match any method. -/
  method : String
  pathPrefix : String
  /-- Host header value; the empty string matches any host. -/
  host : String
  upstreamId : String
  policyIds : List String
  enabled : Bool
  deriving Repr, DecidableEq

/-- Upstream target used by the connection pool. -/
structure UpstreamEntry where
  id : String
  name : String
  url : String
  timeoutMs : UInt32
  enabled : Bool
  deriving Repr, DecidableEq

/-- Full snapshot of active routes for one tenant. -/
structure RouteSnapshot where
  tenantId : String
  /-- Sequence number from the last event processed into this snapshot. -/
  sequence : UInt64
  snapshotAt : Int64
  routes : List RouteEntry
  upstreams : List UpstreamEntry
  deriving Repr, DecidableEq

namespace RouteSnapshot

/-- The upstream for the given id, if present and enabled. -/
def upstreamById (snapshot : RouteSnapshot) (id : String) : Option UpstreamEntry :=
  snapshot.upstreams.find? fun u => u.id = id && u.enabled

end RouteSnapshot

end Barqium.Native
