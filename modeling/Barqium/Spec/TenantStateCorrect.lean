import Barqium.ForStd.WriteLog
import Barqium.Native.TenantState

/-!
# Arrival order and sequence order of ConfigEvents

The two maps of a `TenantState` are replays of a log of keyed writes
(`ForStd.WriteLog`): a route event writes one key of `routes`, an upstream event
one key of `upstreams`. The sequence field is the maximum of what was received,
while the maps take whatever arrives last.

## Key results

- `routes_run`, `upstreams_run`: the maps after any list of events.
- `run_redelivered`: attempts that failed inside a batch leave no trace.
- `followsSequence_iff`: the maps follow the sequence numbers, at every arrival,
  exactly when no event arrives after a newer one on the same entity with a
  different effect.
-/

namespace Barqium.Native

namespace ConfigEvent

/-- The write of an event on the routes map. -/
def routeWrite (event : ConfigEvent) : Option (String × Option RouteEntry) :=
  match event.payload with
  | some (.routeUpserted (some proto)) => some (proto.id, some (TenantState.routeEntry proto))
  | some (.routeDeleted routeId) => some (routeId, none)
  | _ => none

/-- The write of an event on the upstreams map. -/
def upstreamWrite (event : ConfigEvent) : Option (String × Option UpstreamEntry) :=
  match event.payload with
  | some (.upstreamUpserted (some proto)) =>
    some (proto.id, some (TenantState.upstreamEntry proto))
  | some (.upstreamDeleted upstreamId) => some (upstreamId, none)
  | _ => none

/-- The sequence number as a natural number. -/
def seq (event : ConfigEvent) : Nat := event.sequence.toNat

end ConfigEvent

namespace TenantState

open ConfigEvent

/-! ## The maps are replays -/

@[simp] theorem raiseSequence_routes (s : TenantState) (n : UInt64) :
    (s.raiseSequence n).routes = s.routes := by
  unfold raiseSequence; split <;> rfl

@[simp] theorem raiseSequence_upstreams (s : TenantState) (n : UInt64) :
    (s.raiseSequence n).upstreams = s.upstreams := by
  unfold raiseSequence; split <;> rfl

@[simp] theorem applyPayload_sequence (s : TenantState) (p : Option Payload) :
    (s.applyPayload p).sequence = s.sequence := by
  unfold applyPayload; split <;> rfl

/-- On the routes an event acts as its write. -/
theorem routes_apply (s : TenantState) (e : ConfigEvent) :
    (s.apply e).routes = WriteLog.apply routeWrite s.routes e := by
  unfold apply WriteLog.apply routeWrite
  rw [← raiseSequence_routes s e.sequence]
  -- no payload, or one of the four messages, an upsert with or without its entity
  rcases e.payload with - | ⟨_ | _⟩ | _ | ⟨_ | _⟩ | _ <;> rfl

/-- On the upstreams too. -/
theorem upstreams_apply (s : TenantState) (e : ConfigEvent) :
    (s.apply e).upstreams = WriteLog.apply upstreamWrite s.upstreams e := by
  unfold apply WriteLog.apply upstreamWrite
  rw [← raiseSequence_upstreams s e.sequence]
  rcases e.payload with - | ⟨_ | _⟩ | _ | ⟨_ | _⟩ | _ <;> rfl

/-- The tenant of a state never changes. -/
theorem tenantId_apply (s : TenantState) (e : ConfigEvent) :
    (s.apply e).tenantId = s.tenantId := by
  have hraise : (s.raiseSequence e.sequence).tenantId = s.tenantId := by
    unfold raiseSequence
    split <;> rfl
  rw [← hraise]
  unfold apply applyPayload
  split <;> rfl

/-- One more event. -/
theorem run_concat (s : TenantState) (es : List ConfigEvent) (e : ConfigEvent) :
    s.run (es ++ [e]) = (s.run es).apply e := by
  simp [run]

/-- The routes after a run are the replay of its writes. -/
theorem routes_run (s : TenantState) (es : List ConfigEvent) :
    (s.run es).routes = WriteLog.replay routeWrite s.routes es := by
  induction es using List.reverseRecOn with
  | nil => rfl
  | append_singleton es e ih => rw [run_concat, routes_apply, ih, WriteLog.replay_concat]

/-- The upstreams after a run are the replay of its writes. -/
theorem upstreams_run (s : TenantState) (es : List ConfigEvent) :
    (s.run es).upstreams = WriteLog.replay upstreamWrite s.upstreams es := by
  induction es using List.reverseRecOn with
  | nil => rfl
  | append_singleton es e ih => rw [run_concat, upstreams_apply, ih, WriteLog.replay_concat]

/-! ## The sequence field -/

/-- The sequence number never falls. -/
theorem sequence_apply (s : TenantState) (e : ConfigEvent) :
    (s.apply e).sequence.toNat = max s.sequence.toNat e.seq := by
  unfold apply raiseSequence seq
  rw [applyPayload_sequence]
  split
  · -- the event raises the field to its own number
    rename_i h
    have := UInt64.lt_iff_toNat_lt.mp h
    exact (Nat.max_eq_right (Nat.le_of_lt this)).symm
  · -- an older event leaves it, and it was already as high
    rename_i h
    rw [gt_iff_lt, UInt64.lt_iff_toNat_lt] at h
    exact (Nat.max_eq_left (Nat.le_of_not_lt h)).symm

/-- The sequence field is the least number that bounds the field before and every
    received event. -/
theorem sequence_run_le_iff (s : TenantState) (es : List ConfigEvent) (n : Nat) :
    (s.run es).sequence.toNat ≤ n ↔ s.sequence.toNat ≤ n ∧ ∀ e ∈ es, e.seq ≤ n := by
  induction es using List.reverseRecOn with
  | nil => simp [run]
  | append_singleton es e ih =>
    rw [run_concat, sequence_apply, Nat.max_le, ih]
    simp only [List.mem_append, List.mem_singleton]
    constructor
    · -- the state before, the events before and the last one
      rintro ⟨⟨hs, hes⟩, he⟩
      refine ⟨hs, fun f hf => ?_⟩
      rcases hf with hf | rfl
      · exact hes f hf
      · exact he
    · rintro ⟨hs, h⟩
      exact ⟨⟨hs, fun f hf => h f (.inl hf)⟩, h e (.inr rfl)⟩

/-- No received event has a higher sequence than the state. -/
theorem seq_le_run (s : TenantState) {es : List ConfigEvent} {e : ConfigEvent} (he : e ∈ es) :
    e.seq ≤ (s.run es).sequence.toNat :=
  ((sequence_run_le_iff s es _).mp (Nat.le_refl _)).2 e he

/-! ## Redelivery -/

/-- Failed attempts to deliver a batch, each of which delivered a beginning of it,
    leave no trace once the whole batch is delivered. -/
theorem run_redelivered (s : TenantState) (evs : List ConfigEvent)
    (attempts : List (List ConfigEvent)) (h : ∀ p ∈ attempts, p <+: evs) :
    let delivered := s.run (attempts.flatten ++ evs)
    let once := s.run evs
    delivered.routes = once.routes ∧ delivered.upstreams = once.upstreams ∧
      delivered.sequence = once.sequence := by
  -- the redelivered events are all in the log
  have hsub : attempts.flatten ⊆ evs := by
    intro e he
    obtain ⟨p, hp, hep⟩ := List.mem_flatten.mp he
    exact (h p hp).subset hep
  refine ⟨?_, ?_, ?_⟩
  · rw [routes_run, routes_run, WriteLog.replay_append_of_subset routeWrite _ hsub]
  · rw [upstreams_run, upstreams_run, WriteLog.replay_append_of_subset upstreamWrite _ hsub]
  · -- both fields are bounded by the same numbers
    have hbound : ∀ n, (s.run (attempts.flatten ++ evs)).sequence.toNat ≤ n ↔
        (s.run evs).sequence.toNat ≤ n := by
      intro n
      rw [sequence_run_le_iff, sequence_run_le_iff]
      refine and_congr_right fun _ => ⟨fun hall e he => ?_, fun hall e he => ?_⟩
      · exact hall e (List.mem_append_right _ he)
      · rcases List.mem_append.mp he with he | he
        · exact hall e (hsub he)
        · exact hall e he
    apply UInt64.toNat_inj.mp
    exact Nat.le_antisymm ((hbound _).mpr (Nat.le_refl _)) ((hbound _).mp (Nat.le_refl _))

/-- A batch that creates and deletes a route is attempted twice before it succeeds. -/
theorem run_redelivered_route :
    let route : Proto.Route := ⟨"r", "t", "GET", "/", "", "u", [], true, 0, 0⟩
    let created : ConfigEvent := ⟨1, "t", 0, 1, some (.routeUpserted (some route))⟩
    let deleted : ConfigEvent := ⟨2, "t", 0, 2, some (.routeDeleted "r")⟩
    let delivered := (new "t").run [created, created, deleted, created, deleted]
    let once := (new "t").run [created, deleted]
    delivered.routes = once.routes ∧ delivered.upstreams = once.upstreams ∧
      delivered.sequence = once.sequence := by
  intro route created deleted
  exact run_redelivered (new "t") [created, deleted] [[created], [created, deleted]]
    (by simp [List.prefix_cons_iff])

/-! ## Sequence order -/

/-- The entries `vs`, under the ids `idOf`, show every entity as the newest of the
    received events on it with sequence at most `n` wrote it. -/
def ShowsNewest {V : Type} (write : ConfigEvent → Option (String × Option V)) (idOf : V → String)
    (received : List ConfigEvent) (n : UInt64) (vs : List V) : Prop :=
  ∀ v ∈ vs, ∀ e ∈ received, e.sequence ≤ n → (WriteLog.effect write (idOf v) e).isSome →
    (∀ f ∈ received, f.sequence ≤ n → (WriteLog.effect write (idOf v) f).isSome →
      f.sequence ≤ e.sequence) →
    WriteLog.effect write (idOf v) e = some (some v)

/-- At every arrival the maps are the fold of the received events in increasing
    sequence order, and no snapshot shows an entity in an outdated version. -/
def FollowsSequence (d : Deliveries) : Prop :=
  ∀ received, received <+: d.events →
    let s := (new d.tenantId).run received
    let sorted := (new d.tenantId).run (WriteLog.inOrder seq received)
    (s.routes = sorted.routes ∧ s.upstreams = sorted.upstreams) ∧
      ∀ nowMs rs us,
        let snapshot := s.toSnapshot nowMs rs us
        ShowsNewest routeWrite RouteEntry.id received snapshot.sequence snapshot.routes ∧
        ShowsNewest upstreamWrite UpstreamEntry.id received snapshot.sequence snapshot.upstreams

/-- A map in sequence order shows the newest versions. -/
private theorem showsNewest_of_inOrder {V : Type} {write : ConfigEvent → Option (String × Option V)}
    {idOf : V → String} {received : List ConfigEvent} {n : UInt64} {m : HashMap V}
    (hinj : ∀ e ∈ received, ∀ f ∈ received, e.seq = f.seq → e = f)
    (hn : ∀ e ∈ received, e.seq ≤ n.toNat) (hm : HashMap.Keyed idOf m)
    (hsorted : m = WriteLog.replay write ∅ (WriteLog.inOrder seq received))
    (vs : HashMap.Values m) : ShowsNewest write idOf received n vs.val := by
  intro v hv e he _ hw hnewest
  have hlookup : m.lookup (idOf v) = some v := (HashMap.mem_values_keyed hm vs).mp hv
  have hmax : WriteLog.Newest write seq (idOf v) received e := by
    refine ⟨he, hw, fun f hf hfw => ?_⟩
    -- the snapshot's sequence bounds every received event, so `f` counts
    have hfn : f.sequence ≤ n := UInt64.le_iff_toNat_le.mpr (hn f hf)
    exact UInt64.le_iff_toNat_le.mp (hnewest f hf hfn hfw)
  rw [← WriteLog.lookup_replay_inOrder_newest write seq hinj hmax, ← hsorted, hlookup]

/-- The maps of a tenant follow the sequence numbers at every arrival exactly when
    every event that arrives after a newer one on its entity writes what the newest
    one wrote. -/
theorem followsSequence_iff (d : Deliveries) :
    FollowsSequence d ↔
      WriteLog.Settled routeWrite seq d.events ∧ WriteLog.Settled upstreamWrite seq d.events := by
  -- two events with one number are one event
  have hinj : ∀ e ∈ d.events, ∀ f ∈ d.events, e.seq = f.seq → e = f :=
    fun e he f hf h => d.sequenced e he f hf (UInt64.toNat_inj.mp h)
  rw [← WriteLog.replay_inOrder_iff routeWrite seq hinj,
    ← WriteLog.replay_inOrder_iff upstreamWrite seq hinj]
  constructor
  · -- the two maps are independent logs, and each one is settled on its own
    intro h
    constructor
    · intro received hpre
      have hroutes := (h received hpre).1.1
      rwa [routes_run, routes_run] at hroutes
    · intro received hpre
      have hupstreams := (h received hpre).1.2
      rwa [upstreams_run, upstreams_run] at hupstreams
  · rintro ⟨hroutes, hupstreams⟩ received hpre
    have hinj' : ∀ e ∈ received, ∀ f ∈ received, e.seq = f.seq → e = f :=
      fun e he f hf => hinj e (hpre.subset he) f (hpre.subset hf)
    have hr : ((new d.tenantId).run received).routes =
        WriteLog.replay routeWrite ∅ (WriteLog.inOrder seq received) := by
      rw [routes_run]; exact hroutes received hpre
    have hu : ((new d.tenantId).run received).upstreams =
        WriteLog.replay upstreamWrite ∅ (WriteLog.inOrder seq received) := by
      rw [upstreams_run]; exact hupstreams received hpre
    -- first the two maps, then what their snapshots show
    refine ⟨⟨?_, ?_⟩, fun nowMs rs us => ⟨?_, ?_⟩⟩
    · rw [hr, routes_run]; rfl
    · rw [hu, upstreams_run]; rfl
    · exact showsNewest_of_inOrder hinj' (fun e he => seq_le_run _ he) (routes_keyed _) hr rs
    · exact showsNewest_of_inOrder hinj' (fun e he => seq_le_run _ he) (upstreams_keyed _) hu us

/-- The events 2 and 1 on one upstream arrive in this order: the state keeps the
    older URL under sequence 2. -/
theorem stale_upsert_overwrites :
    let event (sequence : UInt64) (url : String) : ConfigEvent :=
      { sequence, tenantId := "t", occurredAt := 0, eventType := 3,
        payload := some (.upstreamUpserted (some ⟨"u", "t", "backend", url, 5000, true⟩)) }
    ∃ d : Deliveries, d.events = [event 2 "http://new", event 1 "http://old"] ∧
      ¬ FollowsSequence d := by
  intro event
  let d : Deliveries :=
    { tenantId := "t", events := [event 2 "http://new", event 1 "http://old"]
      tenant := by simp [event], sequenced := by simp [event] }
  refine ⟨d, rfl, fun h => ?_⟩
  have hsame := (h d.events (List.prefix_refl _)).1.2
  rw [upstreams_run, upstreams_run] at hsame
  -- look at the one upstream in both maps
  have hlookup := congrArg (Finmap.lookup "u") hsame
  rw [WriteLog.lookup_replay, WriteLog.lookup_replay] at hlookup
  exact absurd hlookup (by decide)

end TenantState

end Barqium.Native
