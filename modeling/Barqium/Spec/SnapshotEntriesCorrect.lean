import Barqium.Spec.TenantStateCorrect

/-!
# Entries of a snapshot

A snapshot has one entry for every route and every upstream of which the last event is an upsert,
and none for the others. Its sequence is the highest that was received, and events on different
entities can be swapped.

## Key results

- `filter_values`: a walk over a keyed map yields the entry of an id once.
- `showsLast_toSnapshot`, `snapshot_lastWriter`: the snapshot after any list of events
-/

namespace Barqium.Native

/-! ## Walks over a keyed map -/

namespace HashMap

variable {V : Type} {idOf : V → String} {m : HashMap V}

/-- No value is yielded twice. -/
private theorem nodup_values (hm : Keyed idOf m) (vs : Values m) : vs.val.Nodup := by
  rw [← Multiset.coe_nodup, vs.property]
  have hentries : m.entries.Nodup := Multiset.Nodup.of_map _ m.nodupKeys.nodup_keys
  refine Multiset.Nodup.map_on ?_ hentries
  rintro ⟨k, v⟩ hk ⟨k', v'⟩ hk' heq
  obtain rfl : v = v' := heq
  -- both are stored under the id of the value
  obtain rfl := hm k v (Finmap.lookup_eq_some_iff.mpr hk)
  obtain rfl := hm k' v (Finmap.lookup_eq_some_iff.mpr hk')
  rfl

/-- The values with an id are the one that is stored under it. -/
theorem filter_values (hm : Keyed idOf m) (vs : Values m) (id : String) :
    vs.val.filter (fun v => idOf v = id) = (m.lookup id).toList := by
  -- the entry under the id is the only value with it
  have hmem : ∀ v, v ∈ vs.val.filter (fun v => idOf v = id) ↔ m.lookup id = some v := by
    intro v
    rw [List.mem_filter, decide_eq_true_eq, mem_values_keyed hm]
    constructor
    · rintro ⟨h, rfl⟩
      exact h
    · intro h
      obtain rfl := hm id v h
      exact ⟨h, rfl⟩
  cases hlookup : m.lookup id with
  | none =>
    rw [Option.toList_none, List.eq_nil_iff_forall_not_mem]
    intro v hv
    rw [hmem, hlookup] at hv
    cases hv
  | some v =>
    rw [Option.toList_some]
    refine List.perm_singleton.mp ((List.perm_ext_iff_of_nodup ((nodup_values hm vs).filter _)
      (List.nodup_singleton v)).mpr fun w => ?_)
    rw [hmem, hlookup, List.mem_singleton, Option.some.injEq, eq_comm]

end HashMap

/-! ## Entities -/

inductive Entity where
  | route (id : String)
  | upstream (id : String)
  deriving Repr, DecidableEq

namespace ConfigEvent

/-- The entity that an event puts or removes, if it names one. -/
def entity (event : ConfigEvent) : Option Entity :=
  match event.payload with
  | some (.routeUpserted (some proto)) => some (.route proto.id)
  | some (.routeDeleted routeId) => some (.route routeId)
  | some (.upstreamUpserted (some proto)) => some (.upstream proto.id)
  | some (.upstreamDeleted upstreamId) => some (.upstream upstreamId)
  | _ => none

/-- The last of the events on an entity. -/
def LastOn (events : List ConfigEvent) (entity : Entity) (e : ConfigEvent) : Prop :=
  ∃ before after, events = before ++ e :: after ∧ e.entity = some entity ∧
    ∀ f ∈ after, f.entity ≠ some entity

/-- An event of something else does not write a route. -/
theorem routeEffect_eq_none {e : ConfigEvent} {id : String} (h : e.entity ≠ some (.route id)) :
    WriteLog.effect routeWrite id e = none := by
  unfold WriteLog.effect routeWrite
  unfold entity at h
  rcases hpayload : e.payload with - | ⟨_ | proto⟩ | routeId | ⟨_ | _⟩ | _
  all_goals simp_all

/-- An event of something else does not write an upstream. -/
theorem upstreamEffect_eq_none {e : ConfigEvent} {id : String}
    (h : e.entity ≠ some (.upstream id)) : WriteLog.effect upstreamWrite id e = none := by
  unfold WriteLog.effect upstreamWrite
  unfold entity at h
  rcases hpayload : e.payload with - | ⟨_ | _⟩ | _ | ⟨_ | proto⟩ | upstreamId
  all_goals simp_all

end ConfigEvent

namespace TenantState

open ConfigEvent

/-! ## The maps and the sequence after a list of events -/

/-- A map holds what the last event on an id left under it. -/
theorem lookup_of_lastOn {V : Type} {write : ConfigEvent → Option (String × Option V)}
    {id : String} {entity : Entity} {events : List ConfigEvent} {e : ConfigEvent} {w : Option V}
    (hother : ∀ f : ConfigEvent, f.entity ≠ some entity → WriteLog.effect write id f = none)
    (hlast : LastOn events entity e) (he : WriteLog.effect write id e = some w) :
    (WriteLog.replay write ∅ events).lookup id = w := by
  obtain ⟨before, after, rfl, -, hafter⟩ := hlast
  have hwrite : WriteLog.lastWrite write id (before ++ e :: after) = some w :=
    WriteLog.lastWrite_of_split write he fun f hf => hother f (hafter f hf)
  rw [WriteLog.lookup_replay, hwrite]
  rfl

/-- A map holds nothing under an id that no event is on. -/
private theorem lookup_of_absent {V : Type} {write : ConfigEvent → Option (String × Option V)}
    {id : String} {entity : Entity} {events : List ConfigEvent}
    (hother : ∀ f : ConfigEvent, f.entity ≠ some entity → WriteLog.effect write id f = none)
    (habsent : ∀ e ∈ events, e.entity ≠ some entity) :
    (WriteLog.replay write ∅ events).lookup id = none := by
  have hnone : WriteLog.lastWrite write id events = none :=
    (WriteLog.lastWrite_eq_none_iff write).mpr fun e he => hother e (habsent e he)
  rw [WriteLog.lookup_replay, hnone]
  exact Finmap.lookup_empty id

/-- The sequence field is the highest number that was received. -/
theorem sequence_run (s : TenantState) (events : List ConfigEvent) :
    (s.run events).sequence.toNat = (events.map seq).foldr max s.sequence.toNat := by
  induction events generalizing s with
  | nil => rfl
  | cons e events ih =>
    have hstep : s.run (e :: events) = (s.apply e).run events := rfl
    rw [hstep, ih, sequence_apply, List.map_cons, List.foldr_cons, List.foldr_assoc, Nat.max_comm]

/-! ## Swaps -/

/-- A state is its four fields. -/
theorem eq_of_fields {s t : TenantState} (htenant : s.tenantId = t.tenantId)
    (hsequence : s.sequence = t.sequence) (hroutes : s.routes = t.routes)
    (hupstreams : s.upstreams = t.upstreams) : s = t := by
  cases s
  cases t
  cases htenant
  cases hsequence
  cases hroutes
  cases hupstreams
  rfl

/-- Events on different entities can be swapped. -/
theorem apply_comm (s : TenantState) {e f : ConfigEvent}
    (h : e.entity = none ∨ e.entity ≠ f.entity) : (s.apply e).apply f = (s.apply f).apply e := by
  -- an entity is not that of `e`, or not that of `f`
  have hone : ∀ entity, e.entity ≠ some entity ∨ f.entity ≠ some entity := by
    intro entity
    by_contra hboth
    push Not at hboth
    rcases h with hnone | hne
    · rw [hnone] at hboth
      cases hboth.1
    · exact hne (hboth.1.trans hboth.2.symm)
  refine eq_of_fields ?_ ?_ ?_ ?_
  · rw [tenantId_apply, tenantId_apply, tenantId_apply, tenantId_apply]
  · apply UInt64.toNat_inj.mp
    rw [sequence_apply, sequence_apply, sequence_apply, sequence_apply]
    omega
  · rw [routes_apply, routes_apply, routes_apply, routes_apply]
    refine WriteLog.apply_comm routeWrite s.routes fun id => ?_
    exact (hone (.route id)).imp routeEffect_eq_none routeEffect_eq_none
  · rw [upstreams_apply, upstreams_apply, upstreams_apply, upstreams_apply]
    refine WriteLog.apply_comm upstreamWrite s.upstreams fun id => ?_
    exact (hone (.upstream id)).imp upstreamEffect_eq_none upstreamEffect_eq_none

/-! ## The snapshot -/

/-- The entry carries the fields of the route in an event. -/
structure CarriesRoute (entry : RouteEntry) (proto : Proto.Route) : Prop where
  id : entry.id = proto.id
  tenantId : entry.tenantId = proto.tenantId
  method : entry.method = proto.method
  pathPrefix : entry.pathPrefix = proto.pathPrefix
  host : entry.host = proto.host
  upstreamId : entry.upstreamId = proto.upstreamId
  policyIds : entry.policyIds = proto.policyIds
  enabled : entry.enabled = proto.enabled

/-- The entry carries the fields of the upstream in an event. -/
structure CarriesUpstream (entry : UpstreamEntry) (proto : Proto.Upstream) : Prop where
  id : entry.id = proto.id
  name : entry.name = proto.name
  url : entry.url = proto.url
  timeoutMs : entry.timeoutMs = proto.timeoutMs
  enabled : entry.enabled = proto.enabled

/-- The entry of a route carries its fields. -/
private theorem carriesRoute_routeEntry (proto : Proto.Route) :
    CarriesRoute (routeEntry proto) proto :=
  ⟨rfl, rfl, rfl, rfl, rfl, rfl, rfl, rfl⟩

/-- The entry of an upstream carries its fields. -/
private theorem carriesUpstream_upstreamEntry (proto : Proto.Upstream) :
    CarriesUpstream (upstreamEntry proto) proto :=
  ⟨rfl, rfl, rfl, rfl, rfl⟩

/-- Of every entity the snapshot shows what the last of the events on it left: one entry with
the fields of the event after an upsert, and none otherwise. -/
structure ShowsLast (events : List ConfigEvent) (snapshot : RouteSnapshot) : Prop where
  routeUpserted : ∀ e proto, LastOn events (.route proto.id) e →
    e.payload = some (.routeUpserted (some proto)) →
    ∃ entry, snapshot.routes.filter (fun r => r.id = proto.id) = [entry] ∧
      CarriesRoute entry proto
  routeDeleted : ∀ e id, LastOn events (.route id) e → e.payload = some (.routeDeleted id) →
    snapshot.routes.filter (fun r => r.id = id) = []
  routeAbsent : ∀ id, (∀ e ∈ events, e.entity ≠ some (.route id)) →
    snapshot.routes.filter (fun r => r.id = id) = []
  upstreamUpserted : ∀ e proto, LastOn events (.upstream proto.id) e →
    e.payload = some (.upstreamUpserted (some proto)) →
    ∃ entry, snapshot.upstreams.filter (fun u => u.id = proto.id) = [entry] ∧
      CarriesUpstream entry proto
  upstreamDeleted : ∀ e id, LastOn events (.upstream id) e →
    e.payload = some (.upstreamDeleted id) → snapshot.upstreams.filter (fun u => u.id = id) = []
  upstreamAbsent : ∀ id, (∀ e ∈ events, e.entity ≠ some (.upstream id)) →
    snapshot.upstreams.filter (fun u => u.id = id) = []
  sequence : snapshot.sequence.toNat = (events.map seq).foldr max 0

/-- The routes with an id are what the events wrote under it. -/
private theorem filter_routes {T : String} {events : List ConfigEvent}
    (rs : HashMap.Values ((new T).run events).routes) (id : String) :
    rs.val.filter (fun r => r.id = id) =
      ((WriteLog.replay routeWrite ∅ events).lookup id).toList := by
  rw [HashMap.filter_values (routes_keyed _) rs id, routes_run]
  rfl

/-- The upstreams with an id are what the events wrote under it. -/
private theorem filter_upstreams {T : String} {events : List ConfigEvent}
    (us : HashMap.Values ((new T).run events).upstreams) (id : String) :
    us.val.filter (fun u => u.id = id) =
      ((WriteLog.replay upstreamWrite ∅ events).lookup id).toList := by
  rw [HashMap.filter_values (upstreams_keyed _) us id, upstreams_run]
  rfl

/-- A snapshot shows of every entity what the last event on it left, in whatever order the maps
    are walked. -/
theorem showsLast_toSnapshot (tenantId : String) (events : List ConfigEvent) (nowMs : Int64)
    (rs : HashMap.Values ((new tenantId).run events).routes)
    (us : HashMap.Values ((new tenantId).run events).upstreams) :
    ShowsLast events (((new tenantId).run events).toSnapshot nowMs rs us) where
  routeUpserted e proto hlast hpayload := by
    refine ⟨routeEntry proto, (filter_routes rs proto.id).trans ?_,
      carriesRoute_routeEntry proto⟩
    have heffect : WriteLog.effect routeWrite proto.id e = some (some (routeEntry proto)) := by
      simp [WriteLog.effect, routeWrite, hpayload]
    rw [lookup_of_lastOn (fun f => routeEffect_eq_none) hlast heffect]
    rfl
  routeDeleted e id hlast hpayload := by
    refine (filter_routes rs id).trans ?_
    have heffect : WriteLog.effect routeWrite id e = some none := by
      simp [WriteLog.effect, routeWrite, hpayload]
    rw [lookup_of_lastOn (fun f => routeEffect_eq_none) hlast heffect]
    rfl
  routeAbsent id habsent := by
    refine (filter_routes rs id).trans ?_
    rw [lookup_of_absent (fun f => routeEffect_eq_none) habsent]
    rfl
  upstreamUpserted e proto hlast hpayload := by
    refine ⟨upstreamEntry proto, (filter_upstreams us proto.id).trans ?_,
      carriesUpstream_upstreamEntry proto⟩
    have heffect : WriteLog.effect upstreamWrite proto.id e =
        some (some (upstreamEntry proto)) := by
      simp [WriteLog.effect, upstreamWrite, hpayload]
    rw [lookup_of_lastOn (fun f => upstreamEffect_eq_none) hlast heffect]
    rfl
  upstreamDeleted e id hlast hpayload := by
    refine (filter_upstreams us id).trans ?_
    have heffect : WriteLog.effect upstreamWrite id e = some none := by
      simp [WriteLog.effect, upstreamWrite, hpayload]
    rw [lookup_of_lastOn (fun f => upstreamEffect_eq_none) hlast heffect]
    rfl
  upstreamAbsent id habsent := by
    refine (filter_upstreams us id).trans ?_
    rw [lookup_of_absent (fun f => upstreamEffect_eq_none) habsent]
    rfl
  sequence := sequence_run (new tenantId) events

/-- The state after any list of events: its snapshots show of every entity what the last
event on it left, the entries are stored under their own ids, and two neighbouring events
on different entities can be swapped. -/
theorem snapshot_lastWriter (tenantId : String) (events : List ConfigEvent) :
    (∀ nowMs rs us, ShowsLast events (((new tenantId).run events).toSnapshot nowMs rs us)) ∧
      HashMap.Keyed RouteEntry.id ((new tenantId).run events).routes ∧
      HashMap.Keyed UpstreamEntry.id ((new tenantId).run events).upstreams ∧
      ∀ before e f after, events = before ++ e :: f :: after →
        e.entity = none ∨ e.entity ≠ f.entity →
        (new tenantId).run (before ++ f :: e :: after) = (new tenantId).run events := by
  refine ⟨fun nowMs rs us => showsLast_toSnapshot tenantId events nowMs rs us, routes_keyed _,
    upstreams_keyed _, ?_⟩
  rintro before e f after rfl hentities
  unfold run
  rw [List.foldl_append, List.foldl_append]
  -- events on two entities change places
  have hswap := apply_comm (before.foldl apply (new tenantId)) hentities
  rw [List.foldl_cons, List.foldl_cons, List.foldl_cons, List.foldl_cons, hswap]

end TenantState

end Barqium.Native
