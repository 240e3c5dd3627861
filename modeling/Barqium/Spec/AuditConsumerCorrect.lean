import Barqium.ForStd.Run
import Barqium.Native.AuditConsumer

/-!
# What the audit consumer loses and commits

`flush` empties the batch whatever came of the transaction, and a fetch that is
interrupted by a shutdown returns without a flush: these are the two ways in which
an event leaves the batch without being in `audit_log`. The call of
`CommitMessages` comes after the batch was emptied, so it commits nothing.

## Key results

- `insertBatch_isSome_iff`, `insertBatch_handled`: when a batch is inserted, and what
  then holds of its messages.
- `losesNothing_iff`: a run loses no event exactly when every step is safe for the
  unsaved messages of the batch.
- `offsetsFollow_iff`: the offsets follow the inserts only while there is no full
  batch to commit.
-/

namespace Barqium.Native.AuditConsumer

variable (decoders : Decoders)

/-! ## insertBatch -/

/-- The message is in `audit_log`, or it is not an audit event at all. -/
def Handled (log : List AuditRow) (msg : Message) : Prop :=
  decoders.unmarshal msg.value = none ∨ ∃ row ∈ log, row.key = msg.key

/-- The transaction begins, every decodable message is inserted, and it commits. -/
structure Outcome.Succeeds (o : Outcome) (msgs : List Message) : Prop where
  begins : o.begins
  accepts : ∀ msg ∈ msgs, ∀ ev, decoders.unmarshal msg.value = some ev →
    o.accepts (auditRow decoders msg ev (o.now msg))
  commits : o.commits

variable {decoders}

/-- An insertion keeps the rows. -/
private theorem subset_insertRow (log : List AuditRow) (row : AuditRow) :
    log ⊆ insertRow log row := by
  unfold insertRow
  split
  · exact List.Subset.refl _
  · exact List.subset_append_left _ _

/-- After an insertion there is a row with the key. -/
private theorem exists_key_insertRow (log : List AuditRow) (row : AuditRow) :
    ∃ r ∈ insertRow log row, r.key = row.key := by
  unfold insertRow
  split
  · rename_i h
    simpa using h
  · exact ⟨row, by simp, rfl⟩

/-- All insertions succeed if the table accepts each row. -/
theorem insertAll_isSome_iff (o : Outcome) (log : List AuditRow) (msgs : List Message) :
    (insertAll decoders o log msgs).isSome ↔
      ∀ msg ∈ msgs, ∀ ev, decoders.unmarshal msg.value = some ev →
        o.accepts (auditRow decoders msg ev (o.now msg)) := by
  induction msgs generalizing log with
  | nil => simp [insertAll]
  | cons msg msgs ih =>
    simp only [insertAll, List.forall_mem_cons]
    -- a message that is no event is skipped
    cases hdec : decoders.unmarshal msg.value with
    | none => simp [ih]
    | some ev =>
      by_cases hacc : o.accepts (auditRow decoders msg ev (o.now msg))
      · simp [hacc, ih]
      · simp [hacc]

/-- When all insertions succeed the rows from before are there, and all messages are handled. -/
private theorem insertAll_handled {o : Outcome} {log log' : List AuditRow} {msgs : List Message}
    (h : insertAll decoders o log msgs = some log') :
    log ⊆ log' ∧ ∀ msg ∈ msgs, Handled decoders log' msg := by
  -- message by message, while the table only grows
  induction msgs generalizing log with
  | nil =>
    cases h
    exact ⟨List.Subset.refl _, fun _ hmsg => nomatch hmsg⟩
  | cons msg msgs ih =>
    simp only [insertAll] at h
    -- a message that does not decode is skipped
    cases hdec : decoders.unmarshal msg.value with
    | none =>
      simp only [hdec] at h
      obtain ⟨hsub, hall⟩ := ih h
      exact ⟨hsub, List.forall_mem_cons.mpr ⟨.inl hdec, hall⟩⟩
    | some ev =>
      simp only [hdec] at h
      split at h
      · obtain ⟨hsub, hall⟩ := ih h
        refine ⟨fun r hr => hsub (subset_insertRow _ _ hr), ?_⟩
        refine List.forall_mem_cons.mpr ⟨.inr ?_, hall⟩
        obtain ⟨r, hr, hkey⟩ :=
          exists_key_insertRow log (auditRow decoders msg ev (o.now msg))
        exact ⟨r, hsub hr, hkey⟩
      · cases h

/-- The transaction commits exactly if the outcome lets it. -/
theorem insertBatch_isSome_iff (o : Outcome) (log : List AuditRow) (msgs : List Message) :
    (insertBatch decoders o log msgs).isSome ↔ o.Succeeds decoders msgs := by
  have hall := @insertAll_isSome_iff decoders o log msgs
  unfold insertBatch
  -- the three failures: begin, a row, commit
  by_cases hbegins : o.begins
  · cases hins : insertAll decoders o log msgs with
    | none =>
      rw [hins] at hall
      simp only [hbegins, if_true, Option.bind_none, Option.isSome_none, Bool.false_eq_true,
        false_iff]
      intro h
      exact absurd (hall.mpr h.accepts) (by simp)
    | some log' =>
      rw [hins] at hall
      simp only [hbegins, if_true, Option.bind_some]
      by_cases hcommits : o.commits
      · simp only [hcommits, if_true, Option.isSome_some, true_iff]
        exact ⟨hbegins, hall.mp rfl, hcommits⟩
      · simp only [hcommits, Bool.false_eq_true, if_false, Option.isSome_none, false_iff]
        exact fun h => hcommits h.commits
  · simp only [hbegins, Bool.false_eq_true, if_false, Option.isSome_none, false_iff]
    exact fun h => hbegins h.begins

/-- A transaction that commits has handled its batch. -/
theorem insertBatch_handled {o : Outcome} {log log' : List AuditRow} {msgs : List Message}
    (h : insertBatch decoders o log msgs = some log') :
    log ⊆ log' ∧ ∀ msg ∈ msgs, Handled decoders log' msg := by
  unfold insertBatch at h
  split at h
  · obtain ⟨log'', hins, h⟩ := Option.bind_eq_some_iff.mp h
    split at h
    · cases h
      exact insertAll_handled hins
    · cases h
  · cases h

/-! ## What leaves the batch -/

variable (decoders) (batchSize : Int)

/-- The flush an action runs. -/
def flushOf (w : World) : Action → Option Outcome
  | .done o => if w.phase = .selecting ∧ w.cancelled then some o else none
  | .tick o => if w.phase = .selecting then some o else none
  | .checkSize o =>
    if w.phase = .appended ∧ batchSize ≤ w.batch.length then some o else none
  | _ => none

/-- The action is a fetch that the shutdown interrupts. -/
def Interrupted (w : World) (a : Action) : Prop :=
  a = .fetchError ∧ w.phase = .fetching ∧ w.cancelled

/-- Some audit event of the batch is not in `audit_log` yet. -/
def Unsaved (w : World) : Prop :=
  ∃ msg ∈ w.batch, ¬ Handled decoders w.auditLog msg

/-- With an unsaved event in the batch, the shutdown does not interrupt a fetch, and
    a flush succeeds. -/
def Safe (w : World) (a : Action) : Prop :=
  Unsaved decoders w → ¬ Interrupted w a ∧
    ∀ o, flushOf batchSize w a = some o → o.Succeeds decoders w.batch

/-- A message leaves the batch only into `audit_log`, or because it is not an event. -/
def LosesNothing (auditLog : List AuditRow) (committed : Int → Int) (actions : List Action) :
    Prop :=
  ∀ pre a post, actions = pre ++ a :: post →
    let w := run decoders batchSize auditLog committed pre
    let w' := step decoders batchSize w a
    ∀ msg ∈ w.batch, msg ∉ w'.batch → Handled decoders w'.auditLog msg

variable {decoders batchSize}

/-- A flush leaves an empty batch, whether or not it succeeds. -/
private theorem flush_batch (w : World) (o : Outcome) : (flush decoders w o).batch = [] := by
  unfold flush
  split
  · assumption
  · split <;> rfl

/-- A flush adds the rows of the batch if its transaction commits. -/
private theorem flush_auditLog (w : World) (o : Outcome) (h : w.batch ≠ []) :
    (flush decoders w o).auditLog =
      (insertBatch decoders o w.auditLog w.batch).getD w.auditLog := by
  unfold flush
  rw [if_neg h]
  split <;> simp [*]

/-- The step of an action that flushes. -/
private theorem step_of_flushOf {w : World} {a : Action} {o : Outcome}
    (h : flushOf batchSize w a = some o) :
    (step decoders batchSize w a).batch = [] ∧
      (step decoders batchSize w a).auditLog = (flush decoders w o).auditLog := by
  -- the three actions that flush
  cases a with
  | done o' =>
    simp only [flushOf, Option.ite_none_right_eq_some, Option.some.injEq] at h
    obtain ⟨⟨hphase, hcancelled⟩, rfl⟩ := h
    simp [step, hphase, hcancelled, flush_batch]
  | tick o' =>
    simp only [flushOf, Option.ite_none_right_eq_some, Option.some.injEq] at h
    obtain ⟨hphase, rfl⟩ := h
    simp [step, hphase, flush_batch]
  | checkSize o' =>
    simp only [flushOf, Option.ite_none_right_eq_some, Option.some.injEq] at h
    obtain ⟨⟨hphase, hsize⟩, rfl⟩ := h
    simp [step, hphase, hsize, flush_batch]
  | cancel => cases h
  | poll => cases h
  | fetched msg => cases h
  | fetchError => cases h
  | commit ok => cases h

/-- An interrupted step drops the batch and stores nothing. -/
private theorem step_of_interrupted {w : World} {a : Action} (h : Interrupted w a) :
    (step decoders batchSize w a).batch = [] ∧
      (step decoders batchSize w a).auditLog = w.auditLog := by
  obtain ⟨rfl, hphase, hcancelled⟩ := h
  simp [step, hphase, hcancelled]

/-- Every other step keeps the batch. -/
theorem batch_subset_step {w : World} {a : Action} (hflush : flushOf batchSize w a = none)
    (hint : ¬ Interrupted w a) : w.batch ⊆ (step decoders batchSize w a).batch := by
  cases a with
  | cancel => exact List.Subset.refl _
  | done o =>
    -- without a flush the arm is not taken
    simp only [flushOf, ite_eq_right_iff, reduceCtorEq, imp_false, not_and] at hflush
    simp [step]
  | tick o =>
    simp only [flushOf, ite_eq_right_iff, reduceCtorEq, imp_false] at hflush
    simp [step]
  | poll =>
    simp only [step]
    split <;> exact List.Subset.refl _
  | fetched msg =>
    simp only [step]
    split
    · split
      · exact List.subset_append_left _ _
      · exact List.Subset.refl _
    · exact List.Subset.refl _
  -- a fetch error drops the batch only once the context is cancelled
  | fetchError =>
    simp only [step]
    split
    · rename_i hphase
      split
      · rename_i hcancelled
        exact absurd ⟨rfl, hphase, hcancelled⟩ hint
      · exact List.Subset.refl _
    · exact List.Subset.refl _
  | checkSize o =>
    simp only [flushOf, ite_eq_right_iff, reduceCtorEq, imp_false, not_and] at hflush
    simp only [step]
    split
    · rename_i hphase
      rw [if_neg (hflush hphase)]
      exact List.Subset.refl _
    · exact List.Subset.refl _
  | commit ok =>
    simp only [step]
    split <;> exact List.Subset.refl _

/-- One step loses nothing exactly when it is safe. -/
theorem step_loses_nothing_iff (w : World) (a : Action) :
    (∀ msg ∈ w.batch, msg ∉ (step decoders batchSize w a).batch →
      Handled decoders (step decoders batchSize w a).auditLog msg) ↔
      Safe decoders batchSize w a := by
  by_cases hint : Interrupted w a
  · -- the whole batch is dropped, and the table stays as it is
    obtain ⟨hbatch, hlog⟩ := @step_of_interrupted decoders batchSize w a hint
    rw [hbatch, hlog]
    constructor
    · rintro h ⟨msg, hmsg, hnot⟩
      exact absurd (h msg hmsg List.not_mem_nil) hnot
    · intro h msg hmsg _
      by_contra hnot
      exact (h ⟨msg, hmsg, hnot⟩).1 hint
  · cases hflush : flushOf batchSize w a with
    | none =>
      constructor
      · intro _ _
        refine ⟨hint, fun o ho => ?_⟩
        rw [hflush] at ho
        cases ho
      · intro _ msg hmsg hnot
        exact absurd (batch_subset_step hflush hint hmsg) hnot
    | some o =>
      obtain ⟨hbatch, hlog⟩ := @step_of_flushOf decoders batchSize w a o hflush
      rw [hbatch, hlog]
      constructor
      · rintro h ⟨msg, hmsg, hnot⟩
        refine ⟨hint, fun o' ho' => ?_⟩
        rw [hflush] at ho'
        cases ho'
        -- a failed flush would leave the table without the unsaved event
        rw [← insertBatch_isSome_iff o w.auditLog]
        by_contra hfail
        have hhandled := h msg hmsg List.not_mem_nil
        rw [flush_auditLog w o (List.ne_nil_of_mem hmsg)] at hhandled
        rw [Option.not_isSome_iff_eq_none.mp hfail] at hhandled
        exact hnot hhandled
      · intro h msg hmsg _
        rw [flush_auditLog w o (List.ne_nil_of_mem hmsg)]
        cases hins : insertBatch decoders o w.auditLog w.batch with
        | some log' => exact (insertBatch_handled hins).2 msg hmsg
        | none =>
          by_contra hnot
          have hsucceeds := (h ⟨msg, hmsg, hnot⟩).2 o hflush
          rw [← insertBatch_isSome_iff o w.auditLog, hins] at hsucceeds
          cases hsucceeds

/-- A run loses no event exactly when every step that is taken with an unsaved event
    in the batch neither interrupts a fetch nor fails to insert the batch it flushes. -/
theorem losesNothing_iff (decoders : Decoders) (batchSize : Int) (auditLog : List AuditRow)
    (committed : Int → Int) (actions : List Action) :
    LosesNothing decoders batchSize auditLog committed actions ↔
      ∀ pre a post, actions = pre ++ a :: post →
        Safe decoders batchSize (run decoders batchSize auditLog committed pre) a := by
  refine forall_congr' fun pre => forall_congr' fun a => forall_congr' fun post =>
    forall_congr' fun _ => ?_
  exact step_loses_nothing_iff _ a

/-- An event as the gateway sends it. -/
def loginEvent : AuditEvent where
  tenantId := "6f1e0a52-8f5c-4c8e-9d0a-1b2c3d4e5f60"
  eventType := "login"
  actorId := ""
  actorRole := ""
  resourceId := ""
  resourceType := ""
  action := "read"
  payload := []
  occurredAt := "2026-05-01T00:00:00Z"

def loginMessage : Message where
  topic := "audit.events"
  partition := 0
  offset := 0
  value := ("\x7b\"tenant_id\":\"6f1e0a52-8f5c-4c8e-9d0a-1b2c3d4e5f60\"," ++
    "\"event_type\":\"login\",\"action\":\"read\"," ++
    "\"occurred_at\":\"2026-05-01T00:00:00Z\"\x7d").toUTF8.toList

/-- What the decoders make of the message and of its time. -/
def loginDecoders : Decoders where
  unmarshal _ := some loginEvent
  parseTime _ := some 1777593600000000

/-- The database cannot be reached when the ticker fires, and the event is gone. -/
theorem failed_flush_drops_event :
    let unreachable : Outcome := ⟨false, fun _ => true, true, fun _ => 0⟩
    ¬ LosesNothing loginDecoders 200 [] (fun _ => 0)
      [.poll, .fetched loginMessage, .checkSize unreachable, .tick unreachable] := by
  intro unreachable h
  have hlost := h [.poll, .fetched loginMessage, .checkSize unreachable] (.tick unreachable) [] rfl
    loginMessage (List.mem_singleton.mpr rfl) List.not_mem_nil
  rcases hlost with hbad | ⟨row, hrow, -⟩
  · cases hbad
  · exact nomatch hrow

/-! ## Offsets -/

/-- The committed offset of the message's partition is past it. -/
def Covered (w : World) (msg : Message) : Prop :=
  msg.offset < w.committed msg.partition

/-- The action flushes the batch, and `insertBatch` succeeds. -/
def Inserts (decoders : Decoders) (batchSize : Int) (w : World) (a : Action) : Prop :=
  ∃ o, flushOf batchSize w a = some o ∧ o.Succeeds decoders w.batch

/-- After a flush that inserts its batch and a `CommitMessages` behind it that succeeds,
    the messages of the batch are covered; and at every point only handled messages are
    covered anew. -/
def OffsetsFollow (decoders : Decoders) (batchSize : Int) (auditLog : List AuditRow)
    (committed : Int → Int) (actions : List Action) : Prop :=
  (∀ pre a mid post, actions = pre ++ a :: mid ++ .commit true :: post →
    Inserts decoders batchSize (run decoders batchSize auditLog committed pre) a →
    (run decoders batchSize auditLog committed (pre ++ a :: mid)).phase = .committing →
    ∀ msg ∈ (run decoders batchSize auditLog committed pre).batch,
      Covered (run decoders batchSize auditLog committed (pre ++ a :: mid ++ [.commit true])) msg) ∧
  ∀ pre, pre <+: actions → ∀ msg, committed msg.partition ≤ msg.offset →
    Covered (run decoders batchSize auditLog committed pre) msg →
    Handled decoders (run decoders batchSize auditLog committed pre).auditLog msg

/-- What holds of the batch and the offsets in every run from the offsets `start`. -/
structure Inv (start : Int → Int) (w : World) : Prop where
  /-- No offset is ever committed. -/
  committed : w.committed = start
  uncovered : ∀ msg ∈ w.batch, start msg.partition ≤ msg.offset
  /-- The commit comes when the batch is already emptied. -/
  committing : w.phase = .committing → w.batch = []

/-- Nothing has been fetched at first. -/
theorem inv_initial (batchSize : Int) (auditLog : List AuditRow) (start : Int → Int) :
    Inv start (initial batchSize auditLog start) :=
  ⟨rfl, (fun _ hmsg => nomatch hmsg), fun _ => rfl⟩

/-- A flush commits no offset. -/
private theorem flush_committed (w : World) (o : Outcome) :
    (flush decoders w o).committed = w.committed := by
  unfold flush
  split
  · rfl
  · split <;> rfl

namespace Inv

variable {start : Int → Int} {w : World}

/-- A flush leaves an empty batch, in whatever phase. -/
theorem flush (h : Inv start w) (o : Outcome) (phase : Phase) :
    Inv start { flush decoders w o with phase } where
  committed := (flush_committed w o).trans h.committed
  uncovered msg hmsg := by
    rw [flush_batch] at hmsg
    cases hmsg
  committing _ := flush_batch w o

/-- Every phase but the commit can follow with the same batch. -/
theorem leave (h : Inv start w) {phase : Phase} (hphase : phase ≠ .committing) :
    Inv start { w with phase } :=
  ⟨h.committed, h.uncovered, fun heq => absurd heq hphase⟩

/-- Every step keeps the invariant. -/
theorem step (h : Inv start w) (a : Action) : Inv start (step decoders batchSize w a) := by
  cases a with
  | cancel => exact ⟨h.committed, h.uncovered, h.committing⟩
  | done o =>
    simp only [AuditConsumer.step]
    split
    · exact h.flush o .stopped
    · exact h
  | tick o =>
    simp only [AuditConsumer.step]
    split
    · exact h.flush o _
    · exact h
  | poll =>
    simp only [AuditConsumer.step]
    split
    · exact h.leave (by decide)
    · exact h
  -- a fetched message is behind the committed offset
  | fetched msg =>
    simp only [AuditConsumer.step]
    split
    · split
      · rename_i hoffset
        refine ⟨h.committed, fun m hm => ?_, (fun heq => nomatch heq)⟩
        rcases List.mem_append.mp hm with hm | hm
        · exact h.uncovered m hm
        · rw [List.mem_singleton.mp hm, ← h.committed]
          exact hoffset
      · exact h
    · exact h
  | fetchError =>
    simp only [AuditConsumer.step]
    split
    · split
      · exact ⟨h.committed, (fun _ hm => nomatch hm), fun _ => rfl⟩
      · exact h.leave (by decide)
    · exact h
  -- a full batch is flushed and emptied before the commit
  | checkSize o =>
    simp only [AuditConsumer.step]
    split
    · split
      · exact h.flush o .committing
      · exact h.leave (by decide)
    · exact h
  | commit ok =>
    simp only [AuditConsumer.step]
    split
    · rename_i hphase
      -- nothing is left in the batch to commit
      have hnone : (if ok then commitMessages w.committed w.batch else w.committed) =
          w.committed := by
        rw [h.committing hphase]
        cases ok <;> rfl
      rw [hnone]
      exact h.leave (by decide)
    · exact h

end Inv

/-- The invariant holds at every point of a run. -/
theorem inv_run (decoders : Decoders) (batchSize : Int) (auditLog : List AuditRow)
    (start : Int → Int) (actions : List Action) :
    Inv start (run decoders batchSize auditLog start actions) :=
  List.foldl_keeps actions _ (inv_initial batchSize auditLog start) fun _ a _ _ h => h.step a

/-- The offsets of a run follow its inserts exactly when no commit succeeds behind a
    flush that inserted messages: no commit ever covers a message. -/
theorem offsetsFollow_iff (decoders : Decoders) (batchSize : Int) (auditLog : List AuditRow)
    (committed : Int → Int) (actions : List Action) :
    OffsetsFollow decoders batchSize auditLog committed actions ↔
      ∀ pre a mid post, actions = pre ++ a :: mid ++ .commit true :: post →
        Inserts decoders batchSize (run decoders batchSize auditLog committed pre) a →
        (run decoders batchSize auditLog committed pre).batch ≠ [] →
        (run decoders batchSize auditLog committed (pre ++ a :: mid)).phase ≠ .committing := by
  -- nothing from the start on is ever covered, since no commit has a batch left
  have huncovered : ∀ pre msg, committed msg.partition ≤ msg.offset →
      ¬ Covered (run decoders batchSize auditLog committed pre) msg := by
    intro pre msg hmsg hcovered
    unfold Covered at hcovered
    rw [(inv_run decoders batchSize auditLog committed pre).committed] at hcovered
    omega
  constructor
  · rintro ⟨hfollow, -⟩ pre a mid post hsplit hinserts hne hphase
    obtain ⟨msg, hmsg⟩ := List.exists_mem_of_ne_nil _ hne
    have hoffset := (inv_run decoders batchSize auditLog committed pre).uncovered msg hmsg
    exact huncovered _ msg hoffset (hfollow pre a mid post hsplit hinserts hphase msg hmsg)
  · intro h
    refine ⟨fun pre a mid post hsplit hinserts hphase msg hmsg => ?_,
      fun pre _ msg hmsg hcovered => ?_⟩
    · exact absurd hphase (h pre a mid post hsplit hinserts (List.ne_nil_of_mem hmsg))
    · exact absurd hcovered (huncovered pre msg hmsg)

/-- With a batch size of one, the event is inserted and its offset is not committed. -/
theorem full_batch_not_committed :
    let inserts : Outcome := ⟨true, fun _ => true, true, fun _ => 0⟩
    ¬ OffsetsFollow loginDecoders 1 [] (fun _ => 0)
      [.poll, .fetched loginMessage, .checkSize inserts, .commit true] := by
  intro inserts h
  have hinserts : inserts.Succeeds loginDecoders [loginMessage] :=
    (insertBatch_isSome_iff inserts [] [loginMessage]).mp rfl
  have hcovered := h.1 [.poll, .fetched loginMessage] (.checkSize inserts) [] [] rfl
    ⟨inserts, rfl, hinserts⟩ rfl loginMessage (List.mem_singleton.mpr rfl)
  have hlt : loginMessage.offset < 0 := hcovered
  exact absurd hlt (by decide)

end Barqium.Native.AuditConsumer
