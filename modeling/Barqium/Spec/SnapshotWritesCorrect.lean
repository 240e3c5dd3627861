import Barqium.Spec.SnapshotConsumerCorrect

/-!
# Commits after failed writes

`run` commits the offset of every message it received, also when the snapshot
of the message's event could not be written. A run with failing writes moves the
process exactly as the run in which they succeed; only the snapshots differ. So
the invariant of the successful run says what the snapshots contain that were
written. A commit covers all messages before its offset, so it also covers an
event whose write failed some messages ago.

## Key results

- `Fallible.simulates`: failing writes change nothing but the store.
- `Fallible.commitsDurable`: if nothing is committed while the last write of a
  tenant stands as failed, every event that a commit covers is in a snapshot that
  was written.
-/

namespace Barqium.Native.SnapshotConsumer

open TenantState

/-- The action with which a run without failures does the same. -/
def FallibleAction.succeeding : FallibleAction → Action
  | .act a => a
  | .writeFailed => .write

namespace Fallible

variable (decode : List UInt8 → Except String ConfigEvent) (log : List KafkaMessage)

/-- `snapshot` shows a state of the tenant into which the event at offset `n` was
    folded, with the events of the tenant received before and after it. -/
def Includes (tenantId : String) (n : Nat) (snapshot : RouteSnapshot) : Prop :=
  snapshot.tenantId = tenantId ∧ ∃ first next, first ≤ n ∧ n < next ∧
    (folded decode tenantId ((log.take next).drop first)).Shows snapshot

/-- If the message at offset `n` carries an event, a snapshot of its tenant that
    includes the event has been written. -/
def Included (f : Fallible) (n : Nat) : Prop :=
  ∀ e, log[n]?.bind (messageEvent decode) = some e →
    ∃ snapshot ∈ f.written, Includes decode log e.tenantId n snapshot

/-- At every point of the run: of each event that a committed offset, or one whose
    commit is requested, lies behind, a snapshot that includes it has been written. -/
def CommitsDurable (actions : List FallibleAction) : Prop :=
  ∀ pre, pre <+: actions → ∀ c,
    (run decode log pre).world.committed = some c ∨ c ∈ (run decode log pre).world.inFlight →
    ∀ n < c, Included decode log (run decode log pre) n

/-- No commit is queued while the last write of a tenant by the process stands as
    failed: the process dies before, or a later write of the tenant succeeds. -/
def NoCommitAfterFailure (actions : List FallibleAction) : Prop :=
  ∀ pre, pre ++ [.act (.commit true)] <+: actions →
    ∀ n, (run decode log pre).world.phase = .committing n → (run decode log pre).failed = []

variable {decode log}

/-- A write that fails moves the process as one that succeeds. -/
private theorem step_simulates (f : Fallible) (a : FallibleAction)
    (store : String → Option RouteSnapshot) :
    ∃ store', { (step decode log f a).world with store := store' } =
      SnapshotConsumer.step decode log { f.world with store := store } a.succeeding := by
  obtain ⟨⟨phase, resumed, position, tenants, store₀, committed, inFlight⟩, err, written⟩ := f
  -- a failed write is a write to another store
  cases a with
  | writeFailed => cases phase <;> exact ⟨_, rfl⟩
  | act a =>
    cases a with
    | recv nowMs ro uo =>
      refine ⟨store, ?_⟩
      simp only [step, FallibleAction.succeeding, SnapshotConsumer.step]
      cases hmsg : log[position]? with
      | none => cases phase <;> rfl
      | some msg =>
        cases phase with
        | polling =>
          -- receiving neither reads nor writes the store
          cases he : messageEvent decode msg with
          | none => simp only [receive_of_none he]
          | some e =>
            simp only [receive_of_some he]
            rfl
        | writing n snapshot => rfl
        | committing n => rfl
    | recvError => exact ⟨store, rfl⟩
    | write => cases phase <;> exact ⟨_, rfl⟩
    | commit queued => cases phase <;> exact ⟨store, rfl⟩
    | commitApplied n =>
      refine ⟨store, ?_⟩
      simp only [step, FallibleAction.succeeding, SnapshotConsumer.step]
      split <;> rfl
    | restart => exact ⟨store, rfl⟩

/-- One more action. -/
theorem run_concat (actions : List FallibleAction) (a : FallibleAction) :
    run decode log (actions ++ [a]) = step decode log (run decode log actions) a := by
  simp [run, List.foldl_append]

/-- Failing writes change nothing but the store. -/
theorem simulates (decode : List UInt8 → Except String ConfigEvent) (log : List KafkaMessage)
    (actions : List FallibleAction) :
    ∃ store, { (run decode log actions).world with store := store } =
      SnapshotConsumer.run decode log (actions.map FallibleAction.succeeding) := by
  induction actions using List.reverseRecOn with
  | nil => exact ⟨fun _ => none, rfl⟩
  | append_singleton actions a ih =>
    obtain ⟨store, hstore⟩ := ih
    obtain ⟨store', hstore'⟩ := step_simulates (run decode log actions) a store
    refine ⟨store', ?_⟩
    rw [run_concat, hstore', hstore]
    simp [SnapshotConsumer.run, List.foldl_append]

/-- The invariant of the run without failures, for what the process does. -/
theorem exists_inv (actions : List FallibleAction) :
    ∃ store, Inv decode log { (run decode log actions).world with store := store } := by
  obtain ⟨store, hsim⟩ := simulates decode log actions
  exact ⟨store, hsim ▸ inv_run _⟩

/-- What a process is about to write includes every event of the tenant that it has
    received. -/
private theorem includes_of_writing {actions : List FallibleAction} {m : Nat}
    {snapshot : RouteSnapshot}
    (hphase : (run decode log actions).world.phase = .writing m snapshot) {n : Nat}
    (hresumed : (run decode log actions).world.resumed ≤ n)
    (hposition : n < (run decode log actions).world.position) :
    Includes decode log snapshot.tenantId n snapshot := by
  obtain ⟨store, hinv⟩ := @exists_inv decode log actions
  obtain ⟨-, e, -, htenant, hshows⟩ := hinv.writing m snapshot hphase
  rw [htenant]
  exact ⟨htenant, _, _, hresumed, hposition, hshows⟩

/-! ## The invariant of a run with failing writes -/

/-- Every event is in a snapshot that was written if a commit covers it, if the process
    resumed behind it, or if the process has received it and neither is about to write it
    nor has failed to write its tenant last. -/
structure Durable (decode : List UInt8 → Except String ConfigEvent) (log : List KafkaMessage)
    (f : Fallible) : Prop where
  committed : ∀ c, f.world.committed = some c ∨ c ∈ f.world.inFlight →
    ∀ n < c, Included decode log f n
  resumed : ∀ n < f.world.resumed, Included decode log f n
  received : ∀ n, f.world.resumed ≤ n → n < f.world.position →
    (∀ snapshot, f.world.phase ≠ .writing n snapshot) →
    ∀ e, log[n]?.bind (messageEvent decode) = some e → e.tenantId ∉ f.failed →
      ∃ snapshot ∈ f.written, Includes decode log e.tenantId n snapshot

/-- Snapshots that were written stay written. -/
theorem Included.mono {f f' : Fallible} {n : Nat} (h : Included decode log f n)
    (hwritten : f.written ⊆ f'.written) : Included decode log f' n := by
  intro e he
  obtain ⟨snapshot, hmem, hincludes⟩ := h e he
  exact ⟨snapshot, hwritten hmem, hincludes⟩

/-- Receiving a message writes nothing and commits nothing. -/
theorem Durable.recv {f : Fallible} (h : Durable decode log f) (nowMs : Int64)
    (ro : ∀ m : HashMap RouteEntry, HashMap.Values m)
    (uo : ∀ m : HashMap UpstreamEntry, HashMap.Values m) :
    Durable decode log (step decode log f (.act (.recv nowMs ro uo))) := by
  obtain ⟨⟨phase, resumed, position, tenants, store, committed, inFlight⟩, failed, written⟩ := f
  cases phase with
  | polling =>
    cases hmsg : log[position]? with
    | none => simpa only [Fallible.step, SnapshotConsumer.step, hmsg] using h
    | some msg =>
      simp only [Fallible.step, SnapshotConsumer.step, hmsg]
      cases hm : messageEvent decode msg with
      | none =>
        rw [receive_of_none hm]
        refine ⟨h.committed, h.resumed, fun n hle hlt _ e he => ?_⟩
        -- the message that was received carries no event
        have hne : n ≠ position := by
          rintro rfl
          rw [hmsg, Option.bind_some, hm] at he
          cases he
        exact h.received n hle (Nat.lt_of_le_of_ne (Nat.le_of_lt_succ hlt) hne) (by simp) e he
      | some e' =>
        rw [receive_of_some hm]
        refine ⟨h.committed, h.resumed, fun n hle hlt hphase e he => ?_⟩
        have hne : n ≠ position := by
          rintro rfl
          exact hphase _ rfl
        exact h.received n hle (Nat.lt_of_le_of_ne (Nat.le_of_lt_succ hlt) hne) (by simp) e he
  | writing n snapshot => exact h
  | committing n => exact h

/-- A write that succeeds makes up for those of its tenant that failed before. -/
theorem Durable.write {f : Fallible} (h : Durable decode log f) {m : Nat}
    {snapshot : RouteSnapshot} (hphase : f.world.phase = .writing m snapshot)
    (hincludes : ∀ n, f.world.resumed ≤ n → n < f.world.position →
      Includes decode log snapshot.tenantId n snapshot)
    (htenant : ∀ e, log[m]?.bind (messageEvent decode) = some e →
      e.tenantId = snapshot.tenantId) :
    Durable decode log (step decode log f (.act .write)) := by
  obtain ⟨⟨phase, resumed, position, tenants, store, committed, inFlight⟩, failed, written⟩ := f
  obtain rfl : phase = .writing m snapshot := hphase
  simp only [Fallible.step, SnapshotConsumer.step]
  refine ⟨fun c hc n hn => (h.committed c hc n hn).mono (List.subset_append_left _ _),
    fun n hn => (h.resumed n hn).mono (List.subset_append_left _ _),
    fun n hle hlt _ e he hfailed => ?_⟩
  -- the written snapshot covers every event of its tenant so far
  by_cases hT : e.tenantId = snapshot.tenantId
  · exact ⟨snapshot, by simp, hT ▸ hincludes n hle hlt⟩
  · -- an event of another tenant, which is not the one that is written
    have hphase' : ∀ snapshot', Phase.writing m snapshot ≠ .writing n snapshot' := by
      intro snapshot' heq
      cases heq
      exact hT (htenant e he)
    have hfailed' : e.tenantId ∉ failed := fun hmem => hfailed (by simp [hmem, hT])
    obtain ⟨old, hold, hincl⟩ := h.received n hle hlt hphase' e he hfailed'
    exact ⟨old, List.mem_append_left _ hold, hincl⟩

/-- A write that fails leaves its tenant among those that failed last. -/
theorem Durable.writeFailed {f : Fallible} (h : Durable decode log f)
    (htenant : ∀ m snapshot, f.world.phase = .writing m snapshot →
      ∀ e, log[m]?.bind (messageEvent decode) = some e → e.tenantId = snapshot.tenantId) :
    Durable decode log (step decode log f .writeFailed) := by
  obtain ⟨⟨phase, resumed, position, tenants, store, committed, inFlight⟩, failed, written⟩ := f
  cases phase with
  | polling => exact h
  | writing m snapshot =>
    refine ⟨h.committed, h.resumed, fun n hle hlt _ e he hfailed => ?_⟩
    obtain ⟨hT, hfailed'⟩ := not_or.mp fun hor => hfailed (List.mem_cons.mpr hor)
    refine h.received n hle hlt ?_ e he hfailed'
    intro snapshot' heq
    cases heq
    -- the message of the failed write is among the failed ones
    exact hT (htenant m snapshot rfl e he)
  | committing n => exact h

/-- A commit covers what the process has received, all of which is written. -/
theorem Durable.commit {f : Fallible} (h : Durable decode log f) (queued : Bool)
    (hposition : ∀ n, f.world.phase = .committing n → n + 1 = f.world.position)
    (hfailed : queued = true → ∀ n, f.world.phase = .committing n → f.failed = []) :
    Durable decode log (step decode log f (.act (.commit queued))) := by
  obtain ⟨⟨phase, resumed, position, tenants, store, committed, inFlight⟩, failed, written⟩ := f
  cases phase with
  | polling => exact h
  | writing n snapshot => exact h
  | committing m =>
    simp only [Fallible.step, SnapshotConsumer.step]
    refine ⟨fun c hc n hn => ?_, h.resumed, fun n hle hlt _ => h.received n hle hlt (by simp)⟩
    cases queued with
    | false => exact h.committed c hc n hn
    | true =>
      simp only [if_true, List.mem_append, List.mem_singleton] at hc
      -- the new offset covers the messages up to the position
      rcases hc with hc | hc | rfl
      · exact h.committed c (.inl hc) n hn
      · exact h.committed c (.inr hc) n hn
      · have hlt : n < position := Nat.lt_of_lt_of_eq hn (hposition m rfl)
        obtain rfl : failed = [] := hfailed rfl m rfl
        rcases Nat.lt_or_ge n resumed with hresumed | hresumed
        · exact h.resumed n hresumed
        · exact fun e he => h.received n hresumed hlt (by simp) e he List.not_mem_nil

/-- Every step of a run that meets the condition keeps the invariant. -/
theorem durable_run {actions : List FallibleAction}
    (hcommit : NoCommitAfterFailure decode log actions) :
    Durable decode log (run decode log actions) := by
  induction actions using List.reverseRecOn with
  | nil => exact ⟨by simp [run, initial, SnapshotConsumer.initial],
      by simp [run, initial, SnapshotConsumer.initial],
      by simp [run, initial, SnapshotConsumer.initial]⟩
  | append_singleton actions a ih =>
    have h := ih fun pre hpre => hcommit pre (hpre.trans (List.prefix_append _ _))
    obtain ⟨store, hinv⟩ := @exists_inv decode log actions
    have htenant : ∀ m snapshot, (run decode log actions).world.phase = .writing m snapshot →
        ∀ e, log[m]?.bind (messageEvent decode) = some e → e.tenantId = snapshot.tenantId := by
      intro m snapshot hphase e he
      obtain ⟨-, e', he', htenant, -⟩ := hinv.writing m snapshot hphase
      rw [htenant, Option.some.inj (he.symm.trans he')]
    rw [run_concat]
    cases a with
    | writeFailed => exact h.writeFailed htenant
    | act a =>
      cases a with
      | recv nowMs ro uo => exact h.recv nowMs ro uo
      | recvError => exact ⟨h.committed, h.resumed, h.received⟩
      | write =>
        cases hphase : (run decode log actions).world.phase with
        | writing m snapshot =>
          exact h.write hphase (fun n => includes_of_writing hphase) (htenant m snapshot hphase)
        | polling => simpa only [Fallible.step, SnapshotConsumer.step, hphase] using h
        | committing m => simpa only [Fallible.step, SnapshotConsumer.step, hphase] using h
      | commit queued =>
        refine h.commit queued (fun n hphase => (hinv.committing n hphase).1) ?_
        rintro rfl
        exact hcommit actions (List.prefix_rfl)
      | commitApplied n =>
        simp only [Fallible.step, SnapshotConsumer.step]
        split
        · rename_i hmem
          refine ⟨fun c hc => ?_, h.resumed, h.received⟩
          -- the committed offset was in flight before
          rcases hc with hc | hc
          · cases hc
            exact h.committed n (.inr hmem)
          · exact h.committed c (.inr (List.mem_of_mem_erase hc))
        · exact h
      | restart =>
        refine ⟨h.committed, fun n hn => ?_, fun n hle hlt => absurd hlt (Nat.not_lt.mpr hle)⟩
        -- the new process resumes at the committed offset
        cases hc : (run decode log actions).world.committed with
        | none => simp [Fallible.step, SnapshotConsumer.step, hc] at hn
        | some c =>
          refine h.committed c (.inl hc) n ?_
          simpa [Fallible.step, SnapshotConsumer.step, hc] using hn

/-- If no commit is queued while the last write of a tenant stands as failed, every
    event that a commit covers is in a snapshot of its tenant that was written. -/
theorem commitsDurable (decode : List UInt8 → Except String ConfigEvent)
    (log : List KafkaMessage) (actions : List FallibleAction)
    (h : NoCommitAfterFailure decode log actions) : CommitsDurable decode log actions := by
  intro pre hpre
  exact (durable_run fun pre' hpre' => h pre' (hpre'.trans hpre)).committed

/-- One upstream is announced; the snapshot cannot be written, and the offset of
    the event is committed with no snapshot in the store. -/
theorem commits_after_failed_write :
    let bytes : List UInt8 := [8, 1, 18, 1, 116, 58, 5, 10, 3, 10, 1, 117]
    let event : ConfigEvent :=
      ⟨1, "t", 0, 0, some (.upstreamUpserted (some ⟨"u", "", "", "", 0, false⟩))⟩
    let decode (b : List UInt8) : Except String ConfigEvent :=
      if b = bytes then .ok event else .error "failed to decode Protobuf message"
    ∃ routeOrder upstreamOrder, ¬ CommitsDurable decode [⟨some bytes⟩]
      [.act (.recv 0 routeOrder upstreamOrder), .writeFailed, .act (.commit true),
        .act (.commitApplied 1)] := by
  intro bytes event decode
  let routeOrder : ∀ m : HashMap RouteEntry, HashMap.Values m :=
    fun m => ⟨(m.entries.map Sigma.snd).toList, Multiset.coe_toList _⟩
  let upstreamOrder : ∀ m : HashMap UpstreamEntry, HashMap.Values m :=
    fun m => ⟨(m.entries.map Sigma.snd).toList, Multiset.coe_toList _⟩
  refine ⟨routeOrder, upstreamOrder, fun h => ?_⟩
  -- nothing was written, so the event stands nowhere
  obtain ⟨snapshot, hmem, -⟩ :=
    h _ List.prefix_rfl 1 (.inl rfl) 0 Nat.zero_lt_one event rfl
  exact nomatch hmem

/-- An upstream is announced twice. The first write fails and its commit is not queued,
    the second write succeeds, and its commit covers both events. -/
theorem commitsDurable_written :
    let event : ConfigEvent :=
      ⟨1, "t", 0, 0, some (.upstreamUpserted (some ⟨"u", "", "", "", 0, false⟩))⟩
    let decode (_ : List UInt8) : Except String ConfigEvent := .ok event
    ∃ routeOrder upstreamOrder, CommitsDurable decode [⟨some [8, 1]⟩, ⟨some [8, 1]⟩]
      [.act (.recv 0 routeOrder upstreamOrder), .writeFailed, .act (.commit false),
        .act (.recv 0 routeOrder upstreamOrder), .act .write, .act (.commit true),
        .act (.commitApplied 2)] := by
  intro event decode
  let routeOrder : ∀ m : HashMap RouteEntry, HashMap.Values m :=
    fun m => ⟨(m.entries.map Sigma.snd).toList, Multiset.coe_toList _⟩
  let upstreamOrder : ∀ m : HashMap UpstreamEntry, HashMap.Values m :=
    fun m => ⟨(m.entries.map Sigma.snd).toList, Multiset.coe_toList _⟩
  refine ⟨routeOrder, upstreamOrder, commitsDurable decode _ _ fun pre hpre n _ => ?_⟩
  -- the only commit that is queued comes after the write that succeeds
  obtain ⟨post, hsplit⟩ := hpre
  rcases pre with _ | ⟨_, _ | ⟨_, _ | ⟨_, _ | ⟨_, _ | ⟨_, _ | ⟨_, _ | ⟨_, pre⟩⟩⟩⟩⟩⟩⟩ <;>
    simp only [List.cons_append, List.nil_append, List.cons.injEq, reduceCtorEq, false_and,
      and_false, FallibleAction.act.injEq, Action.commit.injEq, List.append_eq_nil_iff,
      List.cons_ne_nil] at hsplit
  obtain ⟨rfl, rfl, rfl, rfl, rfl, -⟩ := hsplit
  rfl

end Fallible

end Barqium.Native.SnapshotConsumer
