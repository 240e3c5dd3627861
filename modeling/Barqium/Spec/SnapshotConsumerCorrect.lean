import Barqium.ForStd.Run
import Barqium.Native.SnapshotConsumer
import Barqium.Spec.TenantStateCorrect

/-!
# Restarts of the snapshot compiler

A restarted process begins with empty memory at the committed offset. Its memory
is then the fold of the events from that offset on, and this is what it writes to
the snapshot store: what earlier processes read is in the snapshot again only
after a later event rewrites it.

## Key results

- `inv_run`: what the memory and the last snapshot hold, in every run.
- `crashSafe_iff`: the snapshots of a run are complete exactly when each one is
  written after every entity from before the resume offset was written again.
-/

namespace Barqium.Native

/-- A keyed map is determined by its values. -/
theorem HashMap.eq_of_values {V : Type} {idOf : V → String} {m m' : HashMap V}
    (hm : Keyed idOf m) (hm' : Keyed idOf m')
    (h : m.entries.map Sigma.snd = m'.entries.map Sigma.snd) : m = m' := by
  -- the values tell what stands under each id
  have hlookup : ∀ {m₁ : HashMap V}, Keyed idOf m₁ → ∀ id v, m₁.lookup id = some v ↔
      v ∈ m₁.entries.map Sigma.snd ∧ idOf v = id := by
    intro m₁ hkeyed id v
    constructor
    · intro hv
      exact ⟨Multiset.mem_map.mpr ⟨⟨id, v⟩, Finmap.lookup_eq_some_iff.mp hv, rfl⟩, hkeyed id v hv⟩
    · rintro ⟨hv, rfl⟩
      obtain ⟨⟨id, w⟩, hw, rfl⟩ := Multiset.mem_map.mp hv
      have hid := Finmap.lookup_eq_some_iff.mpr hw
      rwa [hkeyed id w hid]
  apply Finmap.ext_lookup
  intro id
  apply Option.ext
  intro v
  rw [hlookup hm, hlookup hm', h]

namespace TenantState

/-- The snapshot contains exactly the routes and the upstreams of the state. -/
def Shows (s : TenantState) (snapshot : RouteSnapshot) : Prop :=
  (snapshot.routes : Multiset RouteEntry) = s.routes.entries.map Sigma.snd ∧
    (snapshot.upstreams : Multiset UpstreamEntry) = s.upstreams.entries.map Sigma.snd

/-- A snapshot shows its state. -/
private theorem shows_toSnapshot (s : TenantState) (nowMs : Int64) (rs : HashMap.Values s.routes)
    (us : HashMap.Values s.upstreams) : s.Shows (s.toSnapshot nowMs rs us) :=
  ⟨rs.property, us.property⟩

/-- Two states shown by one snapshot have the same maps. -/
theorem Shows.iff_eq {s s' : TenantState} {snapshot : RouteSnapshot} (h : s.Shows snapshot) :
    s'.Shows snapshot ↔ s'.routes = s.routes ∧ s'.upstreams = s.upstreams := by
  constructor
  · intro h'
    exact ⟨HashMap.eq_of_values s'.routes_keyed s.routes_keyed (h'.1.symm.trans h.1),
      HashMap.eq_of_values s'.upstreams_keyed s.upstreams_keyed (h'.2.symm.trans h.2)⟩
  · rintro ⟨hr, hu⟩
    unfold Shows
    rw [hr, hu]
    exact h

/-- Events keep the tenant. -/
theorem tenantId_run (s : TenantState) (es : List ConfigEvent) :
    (s.run es).tenantId = s.tenantId := by
  induction es using List.reverseRecOn with
  | nil => rfl
  | append_singleton es e ih => rw [run_concat, tenantId_apply, ih]

end TenantState

namespace SnapshotConsumer

open TenantState ConfigEvent

variable (decode : List UInt8 → Except String ConfigEvent)

/-- The events of a tenant in a part of the topic. -/
def eventsOf (tenantId : String) (msgs : List KafkaMessage) : List ConfigEvent :=
  (msgs.filterMap (messageEvent decode)).filter fun e => e.tenantId = tenantId

/-- The tenant's state after every event of a part of the topic. -/
def folded (tenantId : String) (msgs : List KafkaMessage) : TenantState :=
  (TenantState.new tenantId).run (eventsOf decode tenantId msgs)

/-- The messages the running process has received. -/
def received (log : List KafkaMessage) (w : World) : List KafkaMessage :=
  (log.take w.position).drop w.resumed

/-- The events of a topic that goes on. -/
theorem eventsOf_append (T : String) (msgs msgs' : List KafkaMessage) :
    eventsOf decode T (msgs ++ msgs') = eventsOf decode T msgs ++ eventsOf decode T msgs' := by
  simp [eventsOf]

/-- A message without an event changes nothing. -/
theorem folded_concat_none {msg : KafkaMessage} (h : messageEvent decode msg = none) (T : String)
    (msgs : List KafkaMessage) : folded decode T (msgs ++ [msg]) = folded decode T msgs := by
  unfold folded
  rw [eventsOf_append]
  simp [eventsOf, h]

/-- A message with an event applies it to its tenant. -/
private theorem folded_concat_some {msg : KafkaMessage} {e : ConfigEvent}
    (h : messageEvent decode msg = some e) (msgs : List KafkaMessage) :
    folded decode e.tenantId (msgs ++ [msg]) = (folded decode e.tenantId msgs).apply e := by
  unfold folded
  rw [eventsOf_append, ← run_concat]
  simp [eventsOf, h]

/-- A message with an event leaves the other tenants. -/
theorem folded_concat_ne {msg : KafkaMessage} {e : ConfigEvent} {T : String}
    (h : messageEvent decode msg = some e) (hT : T ≠ e.tenantId) (msgs : List KafkaMessage) :
    folded decode T (msgs ++ [msg]) = folded decode T msgs := by
  unfold folded
  rw [eventsOf_append]
  simp [eventsOf, h, Ne.symm hT]

/-! ## The invariant of a run -/

/-- The state a process has in memory for a tenant. -/
def memory (w : World) (T : String) : TenantState :=
  (w.tenants.lookup T).getD (TenantState.new T)

/-- What holds between two steps of a run over `log`. -/
structure Inv (log : List KafkaMessage) (w : World) : Prop where
  resumed_le : w.resumed ≤ w.position
  position_le : w.position ≤ log.length
  committed_le : ∀ n, w.committed = some n → n ≤ log.length
  inFlight_le : ∀ n ∈ w.inFlight, n ≤ log.length
  memory_eq : ∀ T, memory w T = folded decode T (received log w)
  writing : ∀ n snapshot, w.phase = .writing n snapshot → n + 1 = w.position ∧
    ∃ e, log[n]?.bind (messageEvent decode) = some e ∧ snapshot.tenantId = e.tenantId ∧
      (folded decode e.tenantId (received log w)).Shows snapshot
  committing : ∀ n, w.phase = .committing n → n + 1 = w.position ∧
    ∀ e, log[n]?.bind (messageEvent decode) = some e →
      ∃ snapshot, w.store e.tenantId = some snapshot ∧
        (folded decode e.tenantId (received log w)).Shows snapshot

variable {decode} {log : List KafkaMessage} {w : World}

/-- Nothing has been received at first. -/
theorem inv_initial : Inv decode log initial where
  resumed_le := Nat.le_refl 0
  position_le := Nat.zero_le _
  committed_le := by simp [initial]
  inFlight_le := by simp [initial]
  memory_eq := fun T => by simp [memory, initial, received, folded, eventsOf, TenantState.run]
  writing := by simp [initial]
  committing := by simp [initial]

/-- One more message has been received. -/
theorem received_succ (h : Inv decode log w) {msg : KafkaMessage}
    (hmsg : log[w.position]? = some msg) (phase : Phase) (tenants : HashMap TenantState) :
    received log { w with position := w.position + 1, phase, tenants } =
      received log w ++ [msg] := by
  show (log.take (w.position + 1)).drop w.resumed = (log.take w.position).drop w.resumed ++ [msg]
  -- the new message lies behind the resume offset, so `drop` does not reach it
  have hle := h.resumed_le
  have hlen := h.position_le
  rw [List.take_add_one, hmsg, Option.toList_some, List.drop_append_of_le_length]
  rw [List.length_take]
  omega

/-- A message without an event goes on to its commit. -/
theorem receive_of_none {msg : KafkaMessage} (h : messageEvent decode msg = none) (nowMs : Int64)
    (ro : ∀ m : HashMap RouteEntry, HashMap.Values m)
    (uo : ∀ m : HashMap UpstreamEntry, HashMap.Values m) :
    receive decode w msg nowMs ro uo =
      { w with position := w.position + 1, phase := .committing w.position } := by
  unfold messageEvent at h
  unfold receive
  cases hp : msg.payload with
  | none => rfl
  | some bytes =>
    rw [hp] at h
    cases hd : decode bytes with
    | error err => simp only [hd]
    | ok e => simp [hd, Except.toOption] at h

/-- A message with an event goes on to the write of a snapshot. -/
theorem receive_of_some {msg : KafkaMessage} {e : ConfigEvent}
    (h : messageEvent decode msg = some e) (nowMs : Int64)
    (ro : ∀ m : HashMap RouteEntry, HashMap.Values m)
    (uo : ∀ m : HashMap UpstreamEntry, HashMap.Values m) :
    receive decode w msg nowMs ro uo =
      { w with
        position := w.position + 1
        tenants := w.tenants.insert e.tenantId ((memory w e.tenantId).apply e)
        phase := .writing w.position
          (((memory w e.tenantId).apply e).toSnapshot nowMs (ro _) (uo _)) } := by
  unfold messageEvent at h
  unfold receive
  -- the message has a payload, and it decodes
  cases hp : msg.payload with
  | none => rw [hp] at h; cases h
  | some bytes =>
    rw [hp] at h
    cases hd : decode bytes with
    | error err => simp [hd, Except.toOption] at h
    | ok e' =>
      simp only [Option.bind_some, hd, Except.toOption, Option.some.injEq] at h
      subst h
      simp only [hd, memory]

/-- Receiving a message keeps the invariant. -/
theorem Inv.receive (h : Inv decode log w) {msg : KafkaMessage}
    (hmsg : log[w.position]? = some msg) (nowMs : Int64)
    (ro : ∀ m : HashMap RouteEntry, HashMap.Values m)
    (uo : ∀ m : HashMap UpstreamEntry, HashMap.Values m) :
    Inv decode log (receive decode w msg nowMs ro uo) := by
  have hlt : w.position < log.length := (List.getElem?_eq_some_iff.mp hmsg).1
  have hle : w.resumed ≤ w.position + 1 := Nat.le_succ_of_le h.resumed_le
  have hevent : log[w.position]?.bind (messageEvent decode) = messageEvent decode msg := by
    rw [hmsg]; rfl
  cases he : messageEvent decode msg with
  | none =>
    -- a message without an event is skipped, and its offset committed
    rw [receive_of_none he]
    refine ⟨hle, hlt, h.committed_le, h.inFlight_le, fun T => ?_, by simp, fun n hn => ?_⟩
    · rw [received_succ h hmsg, folded_concat_none decode he]
      exact h.memory_eq T
    · cases hn
      refine ⟨rfl, fun e he' => ?_⟩
      rw [hevent, he] at he'
      cases he'
  | some e =>
    -- the event joins the fold of its own tenant and leaves the others alone
    rw [receive_of_some he]
    have hfolded : folded decode e.tenantId (received log w ++ [msg]) =
        (memory w e.tenantId).apply e := by
      rw [folded_concat_some decode he, h.memory_eq]
    refine ⟨hle, hlt, h.committed_le, h.inFlight_le, fun T => ?_, fun n snapshot hn => ?_, by simp⟩
    · by_cases hT : T = e.tenantId
      · subst hT
        rw [received_succ h hmsg, hfolded]
        simp [memory, Finmap.lookup_insert]
      · rw [received_succ h hmsg, folded_concat_ne decode he hT, ← h.memory_eq T]
        simp [memory, Finmap.lookup_insert_of_ne _ hT]
    · cases hn
      refine ⟨rfl, e, by rw [hevent, he], ?_, ?_⟩
      · show ((memory w e.tenantId).apply e).tenantId = e.tenantId
        rw [tenantId_apply, h.memory_eq]
        exact tenantId_run _ _
      · rw [received_succ h hmsg, hfolded]
        exact shows_toSnapshot _ _ _ _

/-- A step that keeps the memory and what was received keeps the invariant, once
    the phase it enters is accounted for. -/
theorem Inv.of_same_memory (h : Inv decode log w) {w' : World} (hr : w'.resumed = w.resumed)
    (hp : w'.position = w.position) (ht : w'.tenants = w.tenants)
    (hc : ∀ n, w'.committed = some n → n ≤ log.length) (hf : ∀ n ∈ w'.inFlight, n ≤ log.length)
    (hwriting : ∀ n snapshot, w'.phase = .writing n snapshot → w.phase = .writing n snapshot)
    (hcommitting : ∀ n, w'.phase = .committing n → n + 1 = w.position ∧
      ∀ e, log[n]?.bind (messageEvent decode) = some e →
        ∃ snapshot, w'.store e.tenantId = some snapshot ∧
          (folded decode e.tenantId (received log w)).Shows snapshot) :
    Inv decode log w' := by
  -- what has been received and what is in memory depends on these fields only
  have hreceived : received log w' = received log w := by unfold received; rw [hr, hp]
  have hmemory : memory w' = memory w := by unfold memory; rw [ht]
  refine ⟨?_, ?_, hc, hf, ?_, ?_, ?_⟩
  · rw [hr, hp]; exact h.resumed_le
  · rw [hp]; exact h.position_le
  · rw [hreceived, hmemory]; exact h.memory_eq
  · intro n snapshot hn
    rw [hreceived, hp]
    exact h.writing n snapshot (hwriting n snapshot hn)
  · intro n hn
    rw [hreceived, hp]
    exact hcommitting n hn

/-- Every step keeps the invariant. -/
theorem Inv.step (h : Inv decode log w) (a : Action) :
    Inv decode log (step decode log w a) := by
  cases a with
  | recv nowMs ro uo =>
    simp only [SnapshotConsumer.step]
    split
    · rename_i hphase hmsg
      exact h.receive hmsg nowMs ro uo
    · exact h
  | recvError => exact h
  -- the snapshot reaches the store before the offset is committed
  | write =>
    simp only [SnapshotConsumer.step]
    split
    · rename_i n snapshot hphase
      obtain ⟨hn, e, he, htenant, hshows⟩ := h.writing n snapshot hphase
      refine h.of_same_memory rfl rfl rfl h.committed_le h.inFlight_le (by simp) fun m hm => ?_
      cases hm
      refine ⟨hn, fun e' he' => ?_⟩
      obtain rfl : e = e' := Option.some.inj (he.symm.trans he')
      exact ⟨snapshot, by simp [htenant], hshows⟩
    · exact h
  | commit queued =>
    simp only [SnapshotConsumer.step]
    split
    · rename_i n hphase
      refine h.of_same_memory rfl rfl rfl h.committed_le (fun m hm => ?_) (by simp) (by simp)
      -- a commit that could not be queued leaves those in flight as they were
      split at hm
      · rcases List.mem_append.mp hm with hm | hm
        · exact h.inFlight_le m hm
        · rw [List.mem_singleton.mp hm, (h.committing n hphase).1]
          exact h.position_le
      · exact h.inFlight_le m hm
    · exact h
  | commitApplied n =>
    simp only [SnapshotConsumer.step]
    split
    · rename_i hmem
      -- the broker applies any of the commits in flight, whatever the process is doing
      refine h.of_same_memory rfl rfl rfl (fun m hm => ?_) (fun m hm => ?_)
        (fun _ _ hphase => hphase) h.committing
      · cases hm
        exact h.inFlight_le n hmem
      · exact h.inFlight_le m (List.mem_of_mem_erase hm)
    · exact h
  | restart =>
    refine ⟨Nat.le_refl _, ?_, h.committed_le, h.inFlight_le, fun T => ?_, ?_, ?_⟩
    · show w.committed.getD 0 ≤ log.length
      cases hc : w.committed with
      | none => exact Nat.zero_le _
      | some n => exact h.committed_le n hc
    · -- nothing was received yet, and the memory is empty
      simp [SnapshotConsumer.step, memory, received, folded, eventsOf, TenantState.run]
    · simp [SnapshotConsumer.step]
    · simp [SnapshotConsumer.step]

/-- The invariant holds after every run, with restarts anywhere in it. -/
theorem inv_run (actions : List Action) : Inv decode log (run decode log actions) :=
  List.foldl_keeps actions initial inv_initial fun _ a _ _ h => h.step a

/-! ## Complete snapshots -/

variable (decode log)

/-- Whenever the message at an offset has been processed, the last snapshot of its
    tenant contains what folding all of the tenant's events up to there gives. -/
def CrashSafe (actions : List Action) : Prop :=
  ∀ pre, pre <+: actions → ∀ n e, (run decode log pre).phase = .committing n →
    log[n]?.bind (messageEvent decode) = some e →
    ∃ snapshot, (run decode log pre).store e.tenantId = some snapshot ∧
      (folded decode e.tenantId (log.take (n + 1))).Shows snapshot

/-- Every key that the tenant's events before `resumed` left in the maps is written
    again by an event of the tenant from `resumed` up to `n`. -/
def Rewritten (tenantId : String) (resumed n : Nat) : Prop :=
  let before := folded decode tenantId (log.take resumed)
  let since := eventsOf decode tenantId ((log.take (n + 1)).drop resumed)
  (∀ id ∈ before.routes, ∃ e ∈ since, (WriteLog.effect routeWrite id e).isSome) ∧
    ∀ id ∈ before.upstreams, ∃ e ∈ since, (WriteLog.effect upstreamWrite id e).isSome

variable {decode log}

/-- The maps are those of the whole topic if all of their keys are written again. -/
theorem folded_eq_iff {T : String} {resumed n : Nat} (h : resumed ≤ n + 1) :
    ((folded decode T (log.take (n + 1))).routes =
        (folded decode T ((log.take (n + 1)).drop resumed)).routes ∧
      (folded decode T (log.take (n + 1))).upstreams =
        (folded decode T ((log.take (n + 1)).drop resumed)).upstreams) ↔
      Rewritten decode log T resumed n := by
  have hsplit : log.take (n + 1) = log.take resumed ++ (log.take (n + 1)).drop resumed := by
    conv_lhs => rw [← List.take_append_drop resumed (log.take (n + 1))]
    rw [List.take_take, Nat.min_eq_left h]
  have hall : eventsOf decode T (log.take (n + 1)) =
      eventsOf decode T (log.take resumed) ++
        eventsOf decode T ((log.take (n + 1)).drop resumed) := by
    rw [← eventsOf_append, ← hsplit]
  -- both maps are replays of one log, cut at the resume offset
  unfold Rewritten
  simp only [folded, routes_run, upstreams_run, hall]
  exact and_congr (WriteLog.replay_append_eq_iff _ _ _) (WriteLog.replay_append_eq_iff _ _ _)

/-- Once the message at `n` is processed, the tenant's snapshot is complete exactly
    when everything from before the resume offset was written again. -/
theorem Inv.complete_iff (h : Inv decode log w) {n : Nat} {e : ConfigEvent}
    (hphase : w.phase = .committing n) (he : log[n]?.bind (messageEvent decode) = some e) :
    (∃ snapshot, w.store e.tenantId = some snapshot ∧
      (folded decode e.tenantId (log.take (n + 1))).Shows snapshot) ↔
      Rewritten decode log e.tenantId w.resumed n := by
  obtain ⟨hn, hstored⟩ := h.committing n hphase
  obtain ⟨snapshot, hsnapshot, hshows⟩ := hstored e he
  have hle := h.resumed_le
  -- the stored snapshot shows the fold since the resume offset, so only that can be compared
  unfold received at hshows
  rw [← hn] at hshows
  rw [← folded_eq_iff (by omega), ← hshows.iff_eq]
  constructor
  · rintro ⟨snapshot', hsnapshot', hshows'⟩
    rw [hsnapshot] at hsnapshot'
    cases hsnapshot'
    exact hshows'
  · intro hall
    exact ⟨snapshot, hsnapshot, hall⟩

/-- The snapshots of a run are complete exactly when each message is processed by a
    process since whose start every older entity of the tenant was written again. -/
theorem crashSafe_iff (decode : List UInt8 → Except String ConfigEvent) (log : List KafkaMessage)
    (actions : List Action) :
    CrashSafe decode log actions ↔
      ∀ pre, pre <+: actions → ∀ n e, (run decode log pre).phase = .committing n →
        log[n]?.bind (messageEvent decode) = some e →
        Rewritten decode log e.tenantId (run decode log pre).resumed n := by
  unfold CrashSafe
  refine forall₂_congr fun pre _ => forall₄_congr fun n e hphase he => ?_
  exact (inv_run pre).complete_iff hphase he

/-- Two upstreams are announced, and the process restarts between them at the
    committed offset 1: the snapshot it then writes has lost the first one. The
    payloads are the protobuf encodings of the two events. -/
theorem restart_loses_upstream :
    let upserted (sequence : UInt64) (id : String) : ConfigEvent :=
      ⟨sequence, "t", 0, 0, some (.upstreamUpserted (some ⟨id, "", "", "", 0, false⟩))⟩
    let first : List UInt8 := [8, 1, 18, 1, 116, 58, 5, 10, 3, 10, 1, 117]
    let second : List UInt8 := [8, 2, 18, 1, 116, 58, 5, 10, 3, 10, 1, 118]
    let decode (bytes : List UInt8) : Except String ConfigEvent :=
      if bytes = first then .ok (upserted 1 "u")
      else if bytes = second then .ok (upserted 2 "v")
      else .error "failed to decode Protobuf message"
    ∃ routeOrder upstreamOrder, ¬ CrashSafe decode [⟨some first⟩, ⟨some second⟩]
      [.recv 0 routeOrder upstreamOrder, .write, .commit true, .commitApplied 1, .restart,
        .recv 0 routeOrder upstreamOrder, .write] := by
  intro upserted first second decode
  refine ⟨fun m => ⟨(m.entries.map Sigma.snd).toList, Multiset.coe_toList _⟩,
    fun m => ⟨(m.entries.map Sigma.snd).toList, Multiset.coe_toList _⟩, fun h => ?_⟩
  have hcomplete := h _ (List.prefix_refl _) 1 (upserted 2 "v") rfl rfl
  rw [(inv_run _).complete_iff rfl rfl] at hcomplete
  obtain ⟨e, he, hwrites⟩ := hcomplete.2 "u" (by rw [← Finmap.lookup_isSome]; rfl)
  -- the only event since the restart is the second one
  change e ∈ [upserted 2 "v"] at he
  rw [List.mem_singleton.mp he] at hwrites
  exact absurd hwrites (by decide)

end SnapshotConsumer

end Barqium.Native
