import Barqium.Spec.OutboxWorkerCorrect
import Barqium.Spec.SnapshotConsumerCorrect
import Barqium.Spec.SnapshotEntriesCorrect

/-!
# What a drained outbox leaves on the topic

A batch that failed is published again, so the topic holds rows more than once and in an order
that is not that of their ids. Once all rows of a tenant are marked this makes no difference to
the snapshot compiler: a row that is published after a later one of its tenant is followed by
the later one once more, as long as no fetch passes over a locked row and no request that was
given up arrives late.

## Key results

- `Settles.step`, `settles_run`: which messages are yet to come again
- `catchesUp_of_marked`: the order in which the newest events of a tenant end up
- `folded_topicLog`: the compiler's state is that of the rows in the order of their ids
-/

namespace Barqium.Native.OutboxWorker

open ControlApi

/-! ## Runs in which nothing is overtaken -/

/-- `n` was made from a later row of the same tenant. -/
def Message.Older (m n : Message) : Prop := m.key = n.key ∧ m.rowId < n.rowId

section

variable {W : Type}

/-- A fetch of `w` takes no row while an earlier one of the same tenant is locked. -/
def Exclusive (batch : Int64) (s : World W) (w : W) : Prop :=
  ∀ now rows, s.workers w = .begun now →
    fetchPendingEvents s.table s.locks batch.toInt32 = some rows →
    ∀ j ∈ rows, ∀ i ∈ s.table.rows, (message i).Older (message j) → s.locks i.id = none

/-- Nothing later of the tenant has been published when `m` arrives. -/
def InTime (s : World W) (m : Message) : Prop :=
  ∀ f ∈ s.published, ¬ m.Older f

/-- The row of `m` is unsent, and no open batch has published it yet. -/
def World.ToPublish (s : World W) (m : Message) : Prop :=
  ∃ row ∈ s.table.rows, message row = m ∧ row.sentAt = none ∧
    ∀ w, row ∉ (s.workers w).written

/-- What holds in a run in which no fetch is out of order and no message arrives late. -/
structure Settles (table : EventTable) (s : World W) : Prop where
  /-- What was sent to Kafka comes from rows that were unsent at first. -/
  made : ∀ m ∈ s.published ++ s.inFlight, ∃ row ∈ table.rows, message row = m ∧ row.sentAt = none
  unsent : ∀ row ∈ s.table.rows, row.sentAt = none → row ∈ table.rows
  sorted : ∀ w, (s.workers w).batch.Pairwise fun a b => a.id < b.id
  /-- With a row an open batch has all the earlier unsent ones of the tenant. -/
  whole : ∀ w, ∀ j ∈ (s.workers w).batch, ∀ i ∈ s.table.rows, i.sentAt = none →
    (message i).Older (message j) → i ∈ (s.workers w).batch
  /-- When a row has been marked, so have the earlier ones of the tenant. -/
  marked : ∀ j ∈ s.table.rows, j.sentAt.isSome → j ∉ table.rows →
    ∀ i ∈ s.table.rows, (message i).Older (message j) → i.sentAt.isSome
  /-- A message that was overtaken by an older one comes again, or has come again. -/
  behind : ∀ pre e post, s.published = pre ++ e :: post → ∀ f ∈ pre, e.Older f →
    f ∈ post ∨ s.ToPublish f

/-- Nothing has been published at first. -/
theorem settles_initial (table : EventTable) : Settles table (initial table : World W) where
  made _ hm := nomatch hm
  unsent _ hrow _ := hrow
  sorted _ := List.Pairwise.nil
  whole _ _ hj := nomatch hj
  marked _ hj _ hnot := absurd hj hnot
  behind pre e post hsplit := by simp [initial] at hsplit

theorem Message.older_irrefl {m n : Message} (h : m.Older n) (h' : n.Older m) : False :=
  Int64.lt_asymm h.2 h'.2

/-- Marking sets the time of the marked rows only. -/
private theorem sentAt_markRow (now : Time) (ids : List Int64) (row : EventOutbox) :
    (markRow now ids row).sentAt = if row.id ∈ ids then some now else row.sentAt := by
  unfold markRow
  split <;> rfl

section

variable [DecidableEq W]

namespace Settles

variable {table : EventTable} {s : World W}

/-- A replica goes on in its batch, or takes a new one. -/
theorem setPhase (h : Settles table s) (w : W) (p : Phase)
    (hsorted : p.batch.Pairwise fun a b => a.id < b.id)
    (hwhole : ∀ j ∈ p.batch, ∀ i ∈ s.table.rows, i.sentAt = none →
      (message i).Older (message j) → i ∈ p.batch)
    (hwritten : p.written ⊆ (s.workers w).written) : Settles table (s.setPhase w p) where
  made := h.made
  unsent := h.unsent
  sorted := (Function.forall_update_iff s.workers fun _ p => p.batch.Pairwise _).mpr
    ⟨hsorted, fun w' _ => h.sorted w'⟩
  whole := (Function.forall_update_iff s.workers fun _ p => ∀ j ∈ p.batch, ∀ i ∈ s.table.rows,
    i.sentAt = none → (message i).Older (message j) → i ∈ p.batch).mpr
    ⟨hwhole, fun w' _ => h.whole w'⟩
  marked := h.marked
  behind pre e post hsplit f hf holder := by
    refine (h.behind pre e post hsplit f hf holder).imp_right ?_
    rintro ⟨row, hrow, heq, hnone, hnot⟩
    exact ⟨row, hrow, heq, hnone,
      (Function.forall_update_iff s.workers fun _ p => row ∉ p.written).mpr
        ⟨fun hw => hnot w (hwritten hw), fun w' _ => hnot w'⟩⟩

/-- A transaction ends: with the marks of its whole batch, all of it published, or with none. -/
theorem endTx (h : Settles table s) (hinv : Inv table s) (w : W) (now : Time) (ids : List Int64)
    (hids : ∀ id ∈ ids, ∃ row ∈ (s.workers w).written, row.id = id)
    (hall : ids = [] ∨ ∀ row ∈ (s.workers w).batch, row.id ∈ ids) :
    Settles table (World.endTx { s with table := s.table.markSent now ids } w) where
  made := h.made
  -- a row still unsent was unsent before
  unsent row hrow hnone := by
    obtain ⟨row, hmem, rfl⟩ := List.mem_map.mp hrow
    rw [sentAt_markRow] at hnone
    split at hnone
    · cases hnone
    · rename_i hid
      rw [markRow, if_neg hid]
      exact h.unsent row hmem hnone
  sorted := (Function.forall_update_iff s.workers fun _ p => p.batch.Pairwise _).mpr
    ⟨List.Pairwise.nil, fun w' _ => h.sorted w'⟩
  whole := by
    refine (Function.forall_update_iff s.workers fun _ p => ∀ j ∈ p.batch,
      ∀ i ∈ (s.table.markSent now ids).rows, i.sentAt = none → (message i).Older (message j) →
        i ∈ p.batch).mpr
      ⟨fun _ hj => absurd hj List.not_mem_nil, fun w' _ j hj i hi hnone holder => ?_⟩
    -- an unsent row of the new table is one of the old table
    obtain ⟨i, hmem, rfl⟩ := List.mem_map.mp hi
    rw [sentAt_markRow] at hnone
    split at hnone
    · cases hnone
    · rename_i hid
      rw [message_markRow] at holder
      rw [markRow, if_neg hid]
      exact h.whole w' j hj i hmem hnone holder
  marked j hj hsome hnot i hi holder := by
    obtain ⟨j, hjmem, rfl⟩ := List.mem_map.mp hj
    obtain ⟨i, himem, rfl⟩ := List.mem_map.mp hi
    rw [message_markRow, message_markRow] at holder
    rw [sentAt_markRow]
    split
    · rfl
    rename_i hi'
    by_cases hj' : j.id ∈ ids
    · -- the batch of `j` is marked as a whole, so `i` is not an unsent row of it
      obtain ⟨row, hwritten, hid⟩ := hids _ hj'
      have hbatch := (s.workers w).written_subset_batch hwritten
      rw [s.table.eq_of_id (hinv.held w row hbatch).1 hjmem hid] at hbatch
      rw [← Option.ne_none_iff_isSome]
      intro hnone
      rcases hall with rfl | hall
      · cases hj'
      · exact hi' (hall i (h.whole w j hbatch i himem hnone holder))
    · rw [sentAt_markRow, if_neg hj'] at hsome
      rw [markRow, if_neg hj'] at hnot
      exact h.marked j hjmem hsome hnot i himem holder
  behind pre e post hsplit f hf holder := by
    refine (h.behind pre e post hsplit f hf holder).imp_right ?_
    rintro ⟨row, hrow, heq, hnone, hnot⟩
    -- only rows that were published are marked
    have hid : row.id ∉ ids := by
      intro hid
      obtain ⟨other, hwritten, hsame⟩ := hids _ hid
      have hother := (hinv.held w other ((s.workers w).written_subset_batch hwritten)).1
      rw [s.table.eq_of_id hother hrow hsame] at hwritten
      exact hnot w hwritten
    refine ⟨row, List.mem_map.mpr ⟨row, hrow, if_neg hid⟩, heq, hnone,
      (Function.forall_update_iff s.workers fun _ p => row ∉ p.written).mpr
        ⟨List.not_mem_nil, fun w' _ => hnot w'⟩⟩

/-- A rollback. -/
theorem abort (h : Settles table s) (hinv : Inv table s) (w : W) : Settles table (s.endTx w) := by
  have hnone := h.endTx hinv w 0 [] (fun _ hid => nomatch hid) (.inl rfl)
  rwa [EventTable.markSent_nil] at hnone

omit [DecidableEq W] in
/-- The row at the head of the loop, as it was at first. -/
private theorem made_message (h : Settles table s) (hinv : Inv table s) {w : W} {row : EventOutbox}
    (hrow : row ∈ (s.workers w).batch) :
    ∃ r ∈ table.rows, message r = message row ∧ r.sentAt = none := by
  obtain ⟨hmem, hnone, -⟩ := hinv.held w row hrow
  exact ⟨row, h.unsent row hmem hnone, rfl, hnone⟩

omit [DecidableEq W] in
/-- Requests that were given up may arrive later. -/
theorem giveUp (h : Settles table s) {m : Message}
    (hm : ∃ row ∈ table.rows, message row = m ∧ row.sentAt = none) (unacked : Nat) :
    Settles table (s.send m false unacked) := by
  refine ⟨fun m' hm' => ?_, h.unsent, h.sorted, h.whole, h.marked, h.behind⟩
  rcases List.mem_append.mp hm' with hm' | hm'
  · exact h.made m' (List.mem_append_left _ hm')
  · rcases List.mem_append.mp hm' with hm' | hm'
    · exact h.made m' (List.mem_append_right _ hm')
    · rw [List.eq_of_mem_replicate hm']
      exact hm

omit [DecidableEq W] in
/-- The row of a published message, as it is in the table now. -/
private theorem row_of_published (h : Settles table s) (hinv : Inv table s) {f : Message}
    (hf : f ∈ s.published) :
    ∃ row ∈ s.table.rows, message row = f ∧ (row.sentAt.isSome → row ∉ table.rows) := by
  obtain ⟨first, hfirst, rfl, hnone⟩ := h.made f (List.mem_append_left _ hf)
  have hmem := List.mem_map_of_mem (f := message) hfirst
  rw [← hinv.rows] at hmem
  obtain ⟨row, hrow, heq⟩ := List.mem_map.mp hmem
  refine ⟨row, hrow, heq, fun hsome hstart => ?_⟩
  rw [table.eq_of_id hstart hfirst (congrArg Message.rowId heq), hnone] at hsome
  cases hsome

omit [DecidableEq W] in
/-- What overtakes the row at the head of the loop is unsent and not yet published by the
    batch it is in, if it is in one. -/
private theorem toPublish_of_head (h : Settles table s) (hinv : Inv table s) {w : W} {now : Time}
    {done rest : List EventOutbox} {row : EventOutbox}
    (hphase : s.workers w = .writing now done (row :: rest)) {f : Message}
    (hf : f ∈ s.published) (holder : (message row).Older f) : s.ToPublish f := by
  have hbatch : row ∈ (s.workers w).batch := by rw [hphase]; simp [Phase.batch]
  obtain ⟨hmem, hnone, hlock⟩ := hinv.held w row hbatch
  -- the row of the published message
  obtain ⟨later, hlater, rfl, hnot⟩ := h.row_of_published hinv hf
  refine ⟨later, hlater, rfl, ?_, fun w' hwritten => ?_⟩
  · -- were it marked, then so would be the row
    rw [← Option.not_isSome_iff_eq_none]
    intro hsome
    have hmarked := h.marked later hlater hsome (hnot hsome) row hmem holder
    rw [hnone] at hmarked
    cases hmarked
  · -- a batch that has published it has the row as well, and before it
    have hrow' := h.whole w' later ((s.workers w').written_subset_batch hwritten) row hmem hnone
      holder
    have hlock' := (hinv.held w' row hrow').2.2
    rw [hlock, Option.some.injEq] at hlock'
    subst hlock'
    have hsorted := h.sorted w
    rw [hphase] at hwritten hsorted
    have hlt := (List.pairwise_append.mp hsorted).2.2 later hwritten row List.mem_cons_self
    exact Int64.lt_asymm hlt holder.2

/-- An acknowledged write. -/
theorem publish (h : Settles table s) (hinv : Inv table s) {w : W} {now : Time}
    {done rest : List EventOutbox} {row : EventOutbox} (unacked : Nat)
    (hphase : s.workers w = .writing now done (row :: rest)) :
    Settles table ((s.send (message row) true unacked).setPhase w
      (.marking now done row rest)) := by
  have hbatch : row ∈ (s.workers w).batch := by rw [hphase]; simp [Phase.batch]
  have hsorted := h.sorted w
  have hwhole := h.whole w
  rw [hphase] at hsorted hwhole
  -- what is still to be published stays so, unless it is the row itself
  have hkeep : ∀ f, f ≠ message row → s.ToPublish f →
      ((s.send (message row) true unacked).setPhase w
        (.marking now done row rest)).ToPublish f := by
    rintro f hne ⟨r, hr, rfl, hnone, hnot⟩
    refine ⟨r, hr, rfl, hnone, (Function.forall_update_iff s.workers fun _ p => r ∉ p.written).mpr
      ⟨fun hw => ?_, fun w' _ => hnot w'⟩⟩
    rcases List.mem_append.mp hw with hdone | hrow
    · exact hnot w (by rw [hphase]; exact hdone)
    · exact hne (congrArg message (List.mem_singleton.mp hrow))
  refine ⟨fun m hm => ?_, h.unsent, ?_, ?_, h.marked, fun pre e post hsplit f hf holder => ?_⟩
  · rcases List.mem_append.mp hm with hm | hm
    · rcases List.mem_append.mp hm with hm | hm
      · exact h.made m (List.mem_append_left _ hm)
      · rw [List.mem_singleton.mp hm]
        exact h.made_message hinv hbatch
    · rcases List.mem_append.mp hm with hm | hm
      · exact h.made m (List.mem_append_right _ hm)
      · rw [List.eq_of_mem_replicate hm]
        exact h.made_message hinv hbatch
  · exact (Function.forall_update_iff s.workers fun _ p => p.batch.Pairwise _).mpr
      ⟨hsorted, fun w' _ => h.sorted w'⟩
  · exact (Function.forall_update_iff s.workers fun _ p => ∀ j ∈ p.batch, ∀ i ∈ s.table.rows,
      i.sentAt = none → (message i).Older (message j) → i ∈ p.batch).mpr
      ⟨hwhole, fun w' _ => h.whole w'⟩
  · -- the row's message comes last
    have hsplit : s.published ++ [message row] = pre ++ e :: post := hsplit
    rcases List.eq_nil_or_concat post with rfl | ⟨post, last, rfl⟩
    · -- the row is the older message
      obtain ⟨rfl, heq⟩ := List.append_inj' hsplit rfl
      obtain rfl := List.singleton_inj.mp heq
      refine .inr (hkeep f ?_ (h.toPublish_of_head hinv hphase hf holder))
      rintro rfl
      exact Message.older_irrefl holder holder
    · have hsplit : s.published ++ [message row] = (pre ++ e :: post) ++ [last] := by
        rw [hsplit]
        simp
      obtain ⟨hpub, hlast⟩ := List.append_inj' hsplit rfl
      obtain rfl := List.singleton_inj.mp hlast
      rcases h.behind pre e post hpub f hf holder with hpost | hto
      · exact .inl (by simp [hpost])
      · by_cases hne : f = message row
        · exact .inl (by simp [hne])
        · exact .inr (hkeep f hne hto)

omit [DecidableEq W] in
/-- A request that arrives in time. -/
theorem arrive (h : Settles table s) {m : Message} (hm : m ∈ s.inFlight) (htime : InTime s m) :
    Settles table { s with published := s.published ++ [m], inFlight := s.inFlight.erase m } := by
  refine ⟨fun m' hm' => h.made m' ?_, h.unsent, h.sorted, h.whole, h.marked,
    fun pre e post hsplit f hf holder => ?_⟩
  · simp only [List.mem_append, List.mem_singleton] at hm' ⊢
    rcases hm' with (hm' | rfl) | hm'
    · exact .inl hm'
    · exact .inr hm
    · exact .inr (List.mem_of_mem_erase hm')
  · -- the late message comes last, and comes in time
    have hsplit : s.published ++ [m] = pre ++ e :: post := hsplit
    rcases List.eq_nil_or_concat post with rfl | ⟨post, last, rfl⟩
    · obtain ⟨rfl, heq⟩ := List.append_inj' hsplit rfl
      obtain rfl := List.singleton_inj.mp heq
      exact absurd holder (htime f hf)
    · have hsplit : s.published ++ [m] = (pre ++ e :: post) ++ [last] := by
        rw [hsplit]
        simp
      obtain ⟨hpub, -⟩ := List.append_inj' hsplit rfl
      refine (h.behind pre e post hpub f hf holder).imp_left fun hpost => ?_
      simp [hpost]

omit [DecidableEq W] in
/-- A fetch takes, with a row, the earlier unsent ones of the tenant. -/
private theorem whole_fetched {w : W} {batch : Int64} {now : Time} {rows : List EventOutbox}
    (hphase : s.workers w = .begun now)
    (hrows : fetchPendingEvents s.table s.locks batch.toInt32 = some rows)
    (hexclusive : Exclusive batch s w) {i j : EventOutbox} (hj : j ∈ rows)
    (hi : i ∈ s.table.rows) (hnone : i.sentAt = none) (holder : (message i).Older (message j)) :
    i ∈ rows := by
  -- the older row is not locked, so the query sees it
  have hlock := hexclusive now rows hphase hrows j hj i hi holder
  have hpending : i ∈ s.table.pending s.locks := by
    simp [EventTable.pending, hi, hnone, hlock]
  obtain ⟨tail, htail⟩ := (fetched hrows).2
  have hsorted : (s.table.pending s.locks).Pairwise fun a b => a.id < b.id :=
    s.table.ordered.filter _
  rw [← htail] at hsorted hpending
  -- rows are ordered, so it comes before the limit cuts
  rcases List.mem_append.mp hpending with h | h
  · exact h
  · have hgt := (List.pairwise_append.mp hsorted).2.2 j hj i h
    exact absurd hgt (Int64.lt_asymm holder.2)

/-- A call of a replica keeps the invariant, unless it fetches past a locked row. -/
theorem moves (h : Settles table s) (hinv : Inv table s) {batch : Int64} {w : W} {c : Call}
    {s' : World W} (hmoves : Moves batch s w c s')
    (hexclusive : c = .fetch true → Exclusive batch s w) : Settles table s' := by
  have hsorted := h.sorted w
  have hwhole := h.whole w
  cases hmoves with
  | stay => exact h
  | begins now hphase =>
    exact h.setPhase w _ List.Pairwise.nil (fun _ hj => nomatch hj) (fun _ hr => nomatch hr)
  | aborts => exact h.abort hinv w
  -- an exclusive fetch takes every unsent row older than the last one it takes
  | fetches now rows hphase hrows =>
    have hlock : Settles table (s.lock w rows) :=
      ⟨h.made, h.unsent, h.sorted, h.whole, h.marked, h.behind⟩
    refine hlock.setPhase w _ ?_ (fun j hj i hi hnone holder => ?_) (fun _ hr => nomatch hr)
    · exact (s.table.ordered.filter _).sublist (fetched hrows).2.sublist
    · exact whole_fetched hphase hrows (hexclusive rfl) hj hi hnone holder
  | writes now done row rest unacked hphase => exact h.publish hinv unacked hphase
  -- the message may still arrive, and the batch is given up
  | writeFails now done row rest unacked hphase =>
    have hbatch : row ∈ (s.workers w).batch := by rw [hphase]; simp [Phase.batch]
    exact (h.giveUp (h.made_message hinv hbatch) unacked).abort
      (hinv.send (message row) false unacked) w
  -- the marked row is already in the batch
  | marks now done row rest hphase =>
    rw [hphase] at hsorted hwhole
    have hbatch : (Phase.writing now (done ++ [row]) rest).batch =
        (Phase.marking now done row rest).batch := by simp [Phase.batch]
    refine h.setPhase w _ ?_ ?_ ?_
    · rw [hbatch]; exact hsorted
    · rw [hbatch]; exact hwhole
    · rw [hphase]
      exact List.Subset.refl _
  -- the whole batch has been published
  | commits now done hphase =>
    refine h.endTx hinv w now _ (fun id hid => ?_) (.inr fun row hrow => ?_)
    · obtain ⟨row, hrow, rfl⟩ := List.mem_map.mp hid
      exact ⟨row, by rw [hphase]; exact hrow, rfl⟩
    · rw [hphase] at hrow
      exact List.mem_map_of_mem (by simpa [Phase.batch] using hrow)

/-- Every step keeps it, unless a message arrives late. -/
theorem step {batch : W → Int64} (h : Settles table s) (hinv : Inv table s) (a : Action W)
    (hexclusive : ∀ w, a = .call w (.fetch true) → Exclusive (batch w) s w)
    (htime : ∀ m ∈ s.inFlight, a = .arrive m → InTime s m) :
    Settles table (OutboxWorker.step batch s a) := by
  cases a with
  | call w c =>
    exact h.moves hinv (call_moves (batch w) s w c) fun hc => hexclusive w (by rw [hc])
  | arrive m =>
    simp only [OutboxWorker.step]
    split
    · rename_i hm
      exact h.arrive hm (htime m hm rfl)
    · exact h

end Settles

/-- No fetch of the run passes over a locked row, and no message arrives late. -/
structure Undisturbed (batch : W → Int64) (table : EventTable) (actions : List (Action W)) :
    Prop where
  exclusive : ∀ pre w post, actions = pre ++ .call w (.fetch true) :: post →
    Exclusive (batch w) (run batch table pre) w
  inTime : ∀ pre m post, actions = pre ++ .arrive m :: post →
    m ∈ (run batch table pre).inFlight → InTime (run batch table pre) m

/-- The invariant holds at every point of an undisturbed run. -/
theorem settles_run {batch : W → Int64} {table : EventTable} {actions : List (Action W)}
    (h : Undisturbed batch table actions) : Settles table (run batch table actions) := by
  refine List.foldl_keeps actions _ (settles_initial table) fun pre a post hsplit hpre => ?_
  refine hpre.step (inv_run batch table pre) a (fun w ha => ?_) (fun m hm ha => ?_)
  · exact h.exclusive pre w post (by rw [hsplit, ha])
  · exact h.inTime pre m post (by rw [hsplit, ha]) hm

/-! ## One replica -/

/-- A locked row is in the batch of the replica that has locked it. -/
def Locked (s : World W) : Prop :=
  ∀ id w, s.locks id = some w → ∃ row ∈ (s.workers w).batch, row.id = id

namespace Locked

variable {s : World W}

/-- A replica goes on with the rows that it has locked. -/
theorem setPhase (h : Locked s) (w : W) (p : Phase)
    (hbatch : ∀ id, s.locks id = some w → ∃ row ∈ p.batch, row.id = id) :
    Locked (s.setPhase w p) := by
  intro id w' hlock
  simp only [World.setPhase]
  by_cases hw : w' = w
  · subst hw
    rw [Function.update_self]
    exact hbatch id hlock
  · rw [Function.update_of_ne hw]
    exact h id w' hlock

theorem endTx (h : Locked s) (w : W) (table : EventTable) :
    Locked (World.endTx { s with table } w) := by
  intro id w' hlock
  simp only [World.endTx] at hlock ⊢
  split at hlock
  · cases hlock
  · rename_i hne
    -- the locks left are those of the other replicas
    have hw : w' ≠ w := by
      rintro rfl
      exact hne hlock
    rw [Function.update_of_ne hw]
    exact h id w' hlock

/-- A call keeps the rows of a batch locked. -/
theorem moves (h : Locked s) {batch : Int64} {w : W} {c : Call} {s' : World W}
    (hmoves : Moves batch s w c s') : Locked s' := by
  have hown := fun id => h id w
  cases hmoves with
  | stay => exact h
  | begins now hphase =>
    rw [hphase] at hown
    exact h.setPhase w _ hown
  | aborts => exact h.endTx w s.table
  -- the replica held no lock before, so the new ones are of its batch
  | fetches now rows hphase hrows =>
    rw [hphase] at hown
    have hnone : ∀ id, s.locks id ≠ some w := by
      intro id hlock
      obtain ⟨row, hrow, -⟩ := hown id hlock
      cases hrow
    intro id w' hlock
    simp only [World.setPhase, World.lock] at hlock ⊢
    split at hlock
    · rename_i hid
      obtain rfl := Option.some.inj hlock
      obtain ⟨row, hrow, rfl⟩ := List.mem_map.mp hid
      rw [Function.update_self]
      exact ⟨row, hrow, rfl⟩
    · have hw : w' ≠ w := by
        rintro rfl
        exact hnone id hlock
      rw [Function.update_of_ne hw]
      exact h id w' hlock
  -- sending a message leaves the locks
  | writes now done row rest unacked hphase =>
    rw [hphase] at hown
    have hsend : Locked (s.send (message row) true unacked) := h
    exact hsend.setPhase w _ hown
  | writeFails now done row rest unacked hphase =>
    have hsend : Locked (s.send (message row) false unacked) := h
    exact hsend.endTx w s.table
  | marks now done row rest hphase =>
    rw [hphase] at hown
    refine h.setPhase w _ fun id hlock => ?_
    obtain ⟨r, hr, hid⟩ := hown id hlock
    exact ⟨r, by simpa [Phase.batch] using hr, hid⟩
  | commits now done hphase => exact h.endTx w _

omit [DecidableEq W] in
/-- While a lone replica is about to fetch, nothing is locked. -/
private theorem exclusive [Subsingleton W] (h : Locked s) (batch : Int64) (w : W) :
    Exclusive batch s w := by
  intro now rows hphase _ _ _ i _ _
  rw [Option.eq_none_iff_forall_ne_some]
  intro w' hlock
  obtain ⟨row, hrow, -⟩ := h i.id w' hlock
  rw [Subsingleton.elim w' w, hphase] at hrow
  cases hrow

end Locked

/-- The rows of a batch are locked at every point of a run. -/
theorem locked_run (batch : W → Int64) (table : EventTable) (actions : List (Action W)) :
    Locked (run batch table actions) := by
  refine List.foldl_keeps actions _ (fun _ _ hlock => nomatch hlock) fun pre a _ _ hpre => ?_
  cases a with
  | call w c => exact hpre.moves (call_moves (batch w) _ w c)
  | arrive m =>
    simp only [step]
    split
    · exact hpre
    · exact hpre

/-- No fetch of a lone replica passes over a locked row. That no given-up write arrives late
    stays to be assumed: the topic may take it at any time. -/
theorem undisturbed_of_subsingleton [Subsingleton W] {batch : W → Int64} {table : EventTable}
    {actions : List (Action W)}
    (harrive : ∀ pre m post, actions = pre ++ .arrive m :: post →
      m ∈ (run batch table pre).inFlight → InTime (run batch table pre) m) :
    Undisturbed batch table actions :=
  ⟨fun pre w _ _ => (locked_run batch table pre).exclusive (batch w) w, harrive⟩

end

/-! ## Once the rows of a tenant are marked -/

/-- The newest events of a tenant come last. -/
theorem catchesUp_of_marked {table : EventTable} {s : World W} (h : Settles table s) {t : UUID}
    (hmarked : ∀ row ∈ s.table.rows, row.tenantId = t → row.sentAt.isSome) :
    WriteLog.CatchesUp Message.Older (s.published.filter fun m => m.key = t) := by
  intro pre e post hsplit f hf holder
  obtain ⟨before, rest, hpub, rfl, hrest⟩ := List.filter_eq_append_iff.mp hsplit
  obtain ⟨between, after, rfl, -, -, rfl⟩ := List.filter_eq_cons_iff.mp hrest
  obtain ⟨hf, hkey⟩ := List.mem_filter.mp hf
  rw [← List.append_assoc] at hpub
  rcases h.behind _ e after hpub f (List.mem_append_left _ hf) holder with hafter | hto
  · exact List.mem_filter.mpr ⟨hafter, hkey⟩
  · -- every row of the tenant is marked
    obtain ⟨row, hrow, rfl, hnone, -⟩ := hto
    have hsome := hmarked row hrow (of_decide_eq_true hkey)
    rw [hnone] at hsome
    cases hsome

end

/-- The messages that the unsent rows of a table stand for, in the order of their ids. -/
def EventTable.backlog (table : EventTable) : List Message :=
  (table.rows.filter fun row => row.sentAt.isNone).map message

/-- The messages of a topic as its consumers receive them. -/
def topicLog (topic : String) (messages : List Message) : List KafkaMessage :=
  (messages.filter fun m => m.topic = topic).map fun m => ⟨some m.value⟩

/-- The backlog has the messages of the rows that are not marked. -/
theorem EventTable.mem_backlog {table : EventTable} {m : Message} :
    m ∈ table.backlog ↔ ∃ row ∈ table.rows, message row = m ∧ row.sentAt = none := by
  simp only [backlog, List.mem_map, List.mem_filter, Option.isNone_iff_eq_none]
  constructor
  · rintro ⟨row, ⟨hrow, hnone⟩, heq⟩
    exact ⟨row, hrow, heq, hnone⟩
  · rintro ⟨row, hrow, heq, hnone⟩
    exact ⟨row, ⟨hrow, hnone⟩, heq⟩

/-- Of one tenant the backlog is sorted from the oldest message to the newest. -/
theorem EventTable.pairwise_backlog (table : EventTable) (t : UUID) :
    (table.backlog.filter fun m => m.key = t).Pairwise Message.Older := by
  have hids : table.backlog.Pairwise fun m n => m.rowId < n.rowId :=
    List.pairwise_map.mpr (table.ordered.filter _)
  refine (hids.filter _).imp_of_mem fun hm hn hlt => ⟨?_, hlt⟩
  rw [of_decide_eq_true (List.mem_filter.mp hm).2, of_decide_eq_true (List.mem_filter.mp hn).2]

section

variable (decode : List UInt8 → Except String ConfigEvent)

/-- The event of tenant `T` that a message of the topic carries. -/
def eventOn (topic T : String) (m : Message) : Option ConfigEvent :=
  if m.topic = topic then (decode m.value).toOption.filter fun e => e.tenantId = T else none

/-- The events of a topic are those of its messages, in order. -/
private theorem eventsOf_topicLog (topic T : String) (messages : List Message) :
    SnapshotConsumer.eventsOf decode T (topicLog topic messages) =
      messages.filterMap (eventOn decode topic T) := by
  unfold SnapshotConsumer.eventsOf topicLog
  -- message by message: the topic, the text, the tenant
  induction messages with
  | nil => rfl
  | cons m messages ih =>
    rw [List.filterMap_cons, ← ih]
    unfold eventOn
    by_cases htopic : m.topic = topic
    · cases hdecode : decode m.value with
      | error msg =>
        simp [htopic, SnapshotConsumer.messageEvent, hdecode, Except.toOption]
      | ok e =>
        by_cases hT : e.tenantId = T <;>
          simp [htopic, SnapshotConsumer.messageEvent, hdecode, Except.toOption, hT, Option.filter]
    · simp [htopic]

variable {decode}

/-- Messages that carry an event of the tenant have its key. -/
private theorem filterMap_eventOn {topic T : String} {t : UUID} {messages : List Message}
    (hkey : ∀ m ∈ messages, ∀ e, eventOn decode topic T m = some e → m.key = t) :
    messages.filterMap (eventOn decode topic T) =
      (messages.filter fun m => m.key = t).filterMap (eventOn decode topic T) := by
  rw [List.filterMap_filter]
  refine List.filterMap_congr fun m hm => ?_
  by_cases h : m.key = t
  · simp [h]
  · cases he : eventOn decode topic T m with
    | none => simp
    | some e => exact absurd (hkey m hm e he) h

/-- Messages that catch up lead to the state that they lead to in their order, once each. -/
private theorem run_filterMap_of_catchesUp (s : TenantState) (event : Message → Option ConfigEvent)
    {ms fs : List Message} (hmem : ∀ m, m ∈ ms ↔ m ∈ fs) (hsorted : fs.Pairwise Message.Older)
    (hms : WriteLog.CatchesUp Message.Older ms) :
    s.run (ms.filterMap event) = s.run (fs.filterMap event) := by
  -- both lists give the same events, though not in the same order
  have hevents : ∀ e, e ∈ ms.filterMap event ↔ e ∈ fs.filterMap event := by
    intro e
    rw [List.mem_filterMap, List.mem_filterMap]
    exact exists_congr fun m => and_congr_left' (hmem m)
  -- so the sequence number is the same
  have hsequence : ∀ n, (s.run (ms.filterMap event)).sequence.toNat ≤ n ↔
      (s.run (fs.filterMap event)).sequence.toNat ≤ n := by
    intro n
    rw [TenantState.sequence_run_le_iff, TenantState.sequence_run_le_iff]
    exact and_congr_right' (forall_congr' fun e => imp_congr_left (hevents e))
  refine TenantState.eq_of_fields ?_ ?_ ?_ ?_
  · rw [TenantState.tenantId_run, TenantState.tenantId_run]
  · -- the sequence is the highest of the same numbers
    apply UInt64.toNat_inj.mp
    exact Nat.le_antisymm ((hsequence _).mpr (Nat.le_refl _)) ((hsequence _).mp (Nat.le_refl _))
  · rw [TenantState.routes_run, TenantState.routes_run, WriteLog.replay_filterMap,
      WriteLog.replay_filterMap]
    exact WriteLog.replay_eq_of_catchesUp _ _ hmem hsorted hms
  · rw [TenantState.upstreams_run, TenantState.upstreams_run, WriteLog.replay_filterMap,
      WriteLog.replay_filterMap]
    exact WriteLog.replay_eq_of_catchesUp _ _ hmem hsorted hms

variable {W : Type} [DecidableEq W]

/-- The messages of a tenant whose rows are all marked, as they were published, lead the
    compiler to the state that the tenant's rows give in the order of their ids. -/
theorem run_published {batch : W → Int64} {table : EventTable} {actions : List (Action W)}
    (h : Undisturbed batch table actions) {topic T : String} {t : UUID}
    (hcolumn : ∀ row ∈ table.rows, row.kafkaTopic = topic → ∀ e, decode row.payload = .ok e →
      e.tenantId = T → row.tenantId = t)
    (hmarked : ∀ row ∈ (run batch table actions).table.rows, row.tenantId = t →
      row.sentAt.isSome) :
    SnapshotConsumer.folded decode T (topicLog topic (run batch table actions).published) =
      SnapshotConsumer.folded decode T (topicLog topic table.backlog) := by
  have hsettles := settles_run h
  have hinv := inv_run batch table actions
  -- nothing is published that was not in the backlog
  have hmade : ∀ m ∈ (run batch table actions).published, m ∈ table.backlog := fun m hm =>
    EventTable.mem_backlog.mpr (hsettles.made m (List.mem_append_left _ hm))
  -- the events of the tenant are on messages with the key `t`
  have hkey : ∀ m ∈ table.backlog, ∀ e, eventOn decode topic T m = some e → m.key = t := by
    intro m hm e he
    obtain ⟨row, hrow, rfl, -⟩ := EventTable.mem_backlog.mp hm
    unfold eventOn at he
    split at he
    · rename_i htopic
      obtain ⟨hsome, hT⟩ := Option.filter_eq_some_iff.mp he
      cases hdecode : decode (message row).value with
      | error msg =>
        rw [hdecode] at hsome
        cases hsome
      | ok e' =>
        rw [hdecode] at hsome
        cases hsome
        exact hcolumn row hrow htopic e hdecode (of_decide_eq_true hT)
    · cases he
  unfold SnapshotConsumer.folded
  rw [eventsOf_topicLog, eventsOf_topicLog, filterMap_eventOn hkey,
    filterMap_eventOn fun m hm => hkey m (hmade m hm)]
  refine run_filterMap_of_catchesUp _ _ (fun m => ?_) (table.pairwise_backlog t)
    (catchesUp_of_marked hsettles hmarked)
  rw [List.mem_filter, List.mem_filter]
  refine and_congr_left fun hm => ⟨hmade m, fun hbacklog => ?_⟩
  -- a row that was unsent at first is marked now, so it has been published
  obtain ⟨first, hfirst, rfl, hnone⟩ := EventTable.mem_backlog.mp hbacklog
  have hrows := List.mem_map_of_mem (f := message) hfirst
  rw [← hinv.rows] at hrows
  obtain ⟨row, hrow, heq⟩ := List.mem_map.mp hrows
  have htenant : row.tenantId = t := (congrArg Message.key heq).trans (of_decide_eq_true hm)
  have hsome := hmarked row hrow htenant
  rcases hinv.sent row hrow hsome with hstart | hacked
  · rw [table.eq_of_id hstart hfirst (congrArg Message.rowId heq), hnone] at hsome
    cases hsome
  · rw [← heq]
    exact hinv.acked hacked

/-- However often batches failed, and with however many replicas: while the rows of a tenant are
    all marked, the topic leads the compiler to the state of the tenant that the rows give in
    the order of their ids. -/
theorem folded_topicLog {batch : W → Int64} {table : EventTable} {actions : List (Action W)}
    (h : Undisturbed batch table actions) (decode : List UInt8 → Except String ConfigEvent)
    (topic : String) (column : String → UUID)
    (hcolumn : ∀ row ∈ table.rows, row.kafkaTopic = topic → ∀ e, decode row.payload = .ok e →
      row.tenantId = column e.tenantId) (T : String)
    (hmarked : ∀ row ∈ (run batch table actions).table.rows, row.tenantId = column T →
      row.sentAt.isSome) :
    SnapshotConsumer.folded decode T (topicLog topic (run batch table actions).published) =
      SnapshotConsumer.folded decode T (topicLog topic table.backlog) := by
  refine run_published h (fun row hrow htopic e hdecode hT => ?_) hmarked
  rw [← hT]
  exact hcolumn row hrow htopic e hdecode

/-- A replica is killed before its commit and the batch is published again. The second event,
    a deletion, is then followed by the upsert that it undoes, and comes once more. -/
theorem folded_topicLog_after_crash :
    let upserted : ConfigEvent :=
      ⟨1, "t", 0, 0, some (.upstreamUpserted (some ⟨"u", "", "", "", 0, true⟩))⟩
    let deleted : ConfigEvent := ⟨2, "t", 0, 0, some (.upstreamDeleted "u")⟩
    let decode (bytes : List UInt8) : Except String ConfigEvent :=
      if bytes = [1] then .ok upserted
      else if bytes = [2] then .ok deleted
      else .error "failed to decode Protobuf message"
    let row (id : Int64) (payload : Bytes) : EventOutbox :=
      ⟨id, 7, "config.changes", payload, 0, none, none, none⟩
    -- the replica publishes and marks both rows, and crashes before the commit
    let attempt : List (Action Unit) :=
      [.call () (.begin (some 0)), .call () (.fetch true), .call () (.write true 0),
        .call () (.mark true), .call () (.write true 0), .call () (.mark true)]
    let actions := attempt ++ [.call () .crash] ++ attempt ++ [.call () (.commit true)]
    ∃ table : EventTable, table.rows = [row 1 [1], row 2 [2]] ∧
      (run (fun _ => 500) table actions).published.map Message.rowId = [1, 2, 1, 2] ∧
      SnapshotConsumer.folded decode "t"
          (topicLog "config.changes" (run (fun _ => 500) table actions).published) =
        SnapshotConsumer.folded decode "t" (topicLog "config.changes" table.backlog) := by
  intro upserted deleted decode row attempt actions
  let table : EventTable := ⟨[row 1 [1], row 2 [2]], by decide⟩
  refine ⟨table, rfl, by decide, ?_⟩
  refine folded_topicLog (undisturbed_of_subsingleton fun pre m post hsplit hm => ?_) decode
    "config.changes" (fun _ => 7) (fun r hr _ _ _ => ?_) "t" (by decide)
  · -- nothing arrives late: no action of the run is an arrival
    have hmem : Action.arrive m ∈ actions := by rw [hsplit]; simp
    simp [actions, attempt] at hmem
  · have hrows : ∀ r ∈ table.rows, r.tenantId = 7 := by decide
    exact hrows r hr

end

end Barqium.Native.OutboxWorker
