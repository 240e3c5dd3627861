import Barqium.ForStd.Run
import Barqium.Native.OutboxWorker
import Mathlib.Data.List.Nodup

/-!
# Delivery by concurrent outbox workers

The row locks make the batches of the replicas disjoint: what a replica fetched
stays unsent in the committed table until its own transaction ends. A row is
marked only after its write was acknowledged, and the mark becomes visible only
with the commit, so nothing is lost. The order of a tenant's events is another
matter, since a replica that skips the locked rows of another one may be the
first to publish.

## Key results

- `call_moves`: everything one call of a replica can do.
- `inv_run`: locks, marks and acknowledgements in every run.
- `atLeastOnce`: every marked row was acknowledged, and a failed batch stays unsent.
- `inOrder_of_orderly`: the events of a tenant are published in order when no fetch
  passes over an unpublished row of the tenant.
-/

namespace Barqium.Native.OutboxWorker

open ControlApi

variable {W : Type}

/-! ## Locks, marks and acknowledgements -/

/-- Two rows of a table with the same primary key are the same row. -/
theorem EventTable.eq_of_id (table : EventTable) {a b : EventOutbox} (ha : a ∈ table.rows)
    (hb : b ∈ table.rows) (h : a.id = b.id) : a = b := by
  have hnodup : (table.rows.map EventOutbox.id).Nodup := by
    refine List.pairwise_map.mpr (table.ordered.imp fun {a b} hlt heq => ?_)
    rw [heq] at hlt
    exact Int64.lt_irrefl hlt
  exact List.inj_on_of_nodup_map hnodup ha hb h

/-- Marking nothing changes nothing. -/
theorem EventTable.markSent_nil (table : EventTable) (now : Time) :
    table.markSent now [] = table := by
  obtain ⟨rows, ordered⟩ := table
  have hsame : markRow now [] = id := by
    funext row
    simp [markRow]
  simp [markSent, hsame]

/-- What is written belongs to the batch. -/
theorem Phase.written_subset_batch (p : Phase) : p.written ⊆ p.batch := by
  intro row hrow
  cases p with
  | idle => cases hrow
  | begun now => cases hrow
  | writing now done rest => exact List.mem_append_left _ hrow
  | marking now done r rest =>
    simp only [written, List.mem_append, List.mem_singleton] at hrow
    simp only [batch, List.mem_append, List.mem_cons]
    -- rfl
    rcases hrow with hrow | rfl
    · exact .inl hrow
    · exact .inr (.inl rfl)

/-- Sending forgets no acknowledgement. -/
private theorem mem_acked_send (s : World W) (m : Message) (acked : Bool) (unacked : Nat)
    {m' : Message} (h : m' ∈ s.acked) : m' ∈ (s.send m acked unacked).acked := by
  simp only [World.send]
  split
  · exact List.mem_append_left _ h
  · exact h

/-- The rows of a fetch: unsent, unlocked and in the order of their ids, and every
    such row before one of them is fetched too. -/
theorem fetched {table : EventTable} {locks : Int64 → Option W} {limit : Int32}
    {rows : List EventOutbox} (h : fetchPendingEvents table locks limit = some rows) :
    (∀ row ∈ rows, row ∈ table.rows ∧ row.sentAt = none ∧ locks row.id = none) ∧
      rows <+: table.pending locks := by
  unfold fetchPendingEvents at h
  split at h
  · cases h
  · cases h
    refine ⟨fun row hrow => ?_, List.take_prefix _ _⟩
    have hpending := List.mem_of_mem_take hrow
    simpa [EventTable.pending] using hpending

/-- What holds in every run over a table that first had the content `table`. -/
structure Inv (table : EventTable) (s : World W) : Prop where
  /-- Only the marks of the rows change. -/
  rows : s.table.rows.map message = table.rows.map message
  sent : ∀ row ∈ s.table.rows, row.sentAt.isSome → row ∈ table.rows ∨ message row ∈ s.acked
  /-- The rows of an open batch are locked by its replica and still unsent. -/
  held : ∀ w, ∀ row ∈ (s.workers w).batch,
    row ∈ s.table.rows ∧ row.sentAt = none ∧ s.locks row.id = some w
  written : ∀ w, ∀ row ∈ (s.workers w).written, message row ∈ s.acked
  acked : s.acked ⊆ s.published

/-- Nothing has been sent at first. -/
theorem inv_initial (table : EventTable) : Inv table (initial table : World W) where
  rows := rfl
  sent _ hrow _ := .inl hrow
  held _ _ hrow := nomatch hrow
  written _ _ hrow := nomatch hrow
  acked := List.Subset.refl _

namespace Inv

variable {table : EventTable} {s : World W}

/-- A write, acknowledged or not. -/
theorem send (h : Inv table s) (m : Message) (acked : Bool) (unacked : Nat) :
    Inv table (s.send m acked unacked) where
  rows := h.rows
  sent row hrow hsent := (h.sent row hrow hsent).imp_right (mem_acked_send s m acked unacked)
  held := h.held
  written w row hrow := mem_acked_send s m acked unacked (h.written w row hrow)
  acked := by
    simp only [World.send]
    -- an acknowledged message has been published
    split
    · intro m' hm'
      rcases List.mem_append.mp hm' with hm' | hm'
      · exact List.mem_append_left _ (h.acked hm')
      · exact List.mem_append_right _ hm'
    · exact h.acked

/-- Locking rows that nobody has locked. -/
theorem lock (h : Inv table s) (w : W) (rows : List EventOutbox)
    (hfree : ∀ row ∈ rows, s.locks row.id = none) : Inv table (s.lock w rows) where
  rows := h.rows
  sent := h.sent
  held w' row hrow := by
    obtain ⟨hmem, hnone, hlock⟩ := h.held w' row hrow
    refine ⟨hmem, hnone, ?_⟩
    -- a row held by another replica is not free
    have hnot : row.id ∉ rows.map EventOutbox.id := by
      intro hid
      obtain ⟨other, hother, heq⟩ := List.mem_map.mp hid
      have hfree' := hfree other hother
      rw [heq, hlock] at hfree'
      cases hfree'
    simp only [World.lock]
    rw [if_neg hnot, hlock]
  written := h.written
  acked := h.acked

end Inv

section

variable [DecidableEq W]

/-! ## What a call can do -/

/-- The effect of a call, with the phase in which it is the next one. -/
inductive Moves (batch : Int64) (s : World W) (w : W) : Call → World W → Prop where
  | stay (c : Call) : Moves batch s w c s
  | begins (now : Time) (h : s.workers w = .idle) :
    Moves batch s w (.begin (some now)) (s.setPhase w (.begun now))
  | aborts (c : Call) : Moves batch s w c (s.endTx w)
  | fetches (now : Time) (rows : List EventOutbox) (h : s.workers w = .begun now)
      (hrows : fetchPendingEvents s.table s.locks batch.toInt32 = some rows) :
    Moves batch s w (.fetch true) ((s.lock w rows).setPhase w (.writing now [] rows))
  | writes (now : Time) (done : List EventOutbox) (row : EventOutbox) (rest : List EventOutbox)
      (unacked : Nat) (h : s.workers w = .writing now done (row :: rest)) :
    Moves batch s w (.write true unacked)
      ((s.send (message row) true unacked).setPhase w (.marking now done row rest))
  | writeFails (now : Time) (done : List EventOutbox) (row : EventOutbox)
      (rest : List EventOutbox) (unacked : Nat)
      (h : s.workers w = .writing now done (row :: rest)) :
    Moves batch s w (.write false unacked) ((s.send (message row) false unacked).endTx w)
  | marks (now : Time) (done : List EventOutbox) (row : EventOutbox) (rest : List EventOutbox)
      (h : s.workers w = .marking now done row rest) :
    Moves batch s w (.mark true) (s.setPhase w (.writing now (done ++ [row]) rest))
  | commits (now : Time) (done : List EventOutbox) (h : s.workers w = .writing now done []) :
    Moves batch s w (.commit true)
      (World.endTx { s with table := s.table.markSent now (done.map EventOutbox.id) } w)

/-- What a call of a replica does, in cases. -/
theorem call_moves (batch : Int64) (s : World W) (w : W) (c : Call) :
    Moves batch s w c (call batch s w c) := by
  -- in each phase one call goes on, and every other one is ignored
  cases c with
  | begin now =>
    simp only [call]
    split
    · rename_i h
      exact .begins _ h
    · exact .stay _
  | fetch ok =>
    simp only [call]
    split
    · rename_i now h
      split
      · rename_i rows hrows
        split
        · exact .aborts _
        · exact .fetches now rows h hrows
      · exact .aborts _
    · exact .stay _
  | write acked unacked =>
    simp only [call]
    split
    · rename_i now done row rest h
      cases acked with
      | true => exact .writes now done row rest unacked h
      | false => exact .writeFails now done row rest unacked h
    · exact .stay _
  | mark ok =>
    simp only [call]
    split
    · rename_i now done row rest h
      cases ok with
      | true => exact .marks now done row rest h
      | false => exact .aborts _
    · exact .stay _
  | commit ok =>
    simp only [call]
    split
    · rename_i now done h
      cases ok with
      | true => exact .commits now done h
      | false => exact .aborts _
    · exact .stay _
  | crash => exact .aborts _

/-! ## Runs -/

namespace Inv

variable {table : EventTable} {s : World W}

/-- A replica goes on in its batch. -/
theorem setPhase (h : Inv table s) (w : W) (p : Phase)
    (hbatch : ∀ row ∈ p.batch,
      row ∈ s.table.rows ∧ row.sentAt = none ∧ s.locks row.id = some w)
    (hwritten : ∀ row ∈ p.written, message row ∈ s.acked) : Inv table (s.setPhase w p) where
  rows := h.rows
  sent := h.sent
  held w' row hrow := by
    simp only [World.setPhase] at hrow
    -- the replica's own phase is new, the others are as before
    by_cases hw : w' = w
    · subst hw
      rw [Function.update_self] at hrow
      exact hbatch row hrow
    · rw [Function.update_of_ne hw] at hrow
      exact h.held w' row hrow
  written w' row hrow := by
    simp only [World.setPhase] at hrow
    by_cases hw : w' = w
    · subst hw
      rw [Function.update_self] at hrow
      exact hwritten row hrow
    · rw [Function.update_of_ne hw] at hrow
      exact h.written w' row hrow
  acked := h.acked

/-- A transaction ends, with the marks `ids` of its own rows or with none. -/
theorem endTx (h : Inv table s) (w : W) (now : Time) (ids : List Int64)
    (hids : ∀ id ∈ ids, ∃ row ∈ (s.workers w).written, row.id = id) :
    Inv table (World.endTx { s with table := s.table.markSent now ids } w) where
  rows := by
    rw [← h.rows]
    simp [World.endTx, EventTable.markSent]
  sent row hrow hsent := by
    obtain ⟨row, hmem, rfl⟩ := List.mem_map.mp hrow
    by_cases hid : row.id ∈ ids
    · -- the row is one of the batch, and its write was acknowledged
      obtain ⟨written, hwritten, heq⟩ := hids _ hid
      have hrow' := (h.held w written ((s.workers w).written_subset_batch hwritten)).1
      rw [s.table.eq_of_id hrow' hmem heq] at hwritten
      rw [message_markRow]
      exact .inr (h.written w row hwritten)
    · have hsame : markRow now ids row = row := if_neg hid
      rw [hsame] at hsent ⊢
      exact h.sent row hmem hsent
  held w' row hrow := by
    simp only [World.endTx] at hrow ⊢
    by_cases hw : w' = w
    · subst hw
      rw [Function.update_self] at hrow
      cases hrow
    · rw [Function.update_of_ne hw] at hrow
      obtain ⟨hmem, hnone, hlock⟩ := h.held w' row hrow
      -- the marked rows are locked by `w`, this one by `w'`
      have hnot : row.id ∉ ids := by
        intro hid
        obtain ⟨other, hother, heq⟩ := hids _ hid
        have hlock' := (h.held w other ((s.workers w).written_subset_batch hother)).2.2
        rw [heq, hlock] at hlock'
        exact hw (Option.some.inj hlock')
      have hsame : markRow now ids row = row := if_neg hnot
      refine ⟨List.mem_map.mpr ⟨row, hmem, hsame⟩, hnone, ?_⟩
      rw [hlock, if_neg]
      exact fun heq => hw (Option.some.inj heq)
  written w' row hrow := by
    simp only [World.endTx] at hrow ⊢
    by_cases hw : w' = w
    · subst hw
      rw [Function.update_self] at hrow
      cases hrow
    · rw [Function.update_of_ne hw] at hrow
      exact h.written w' row hrow
  acked := h.acked

/-- A rollback. -/
theorem abort (h : Inv table s) (w : W) : Inv table (s.endTx w) := by
  have hnone := h.endTx w 0 [] (fun _ hid => nomatch hid)
  rwa [EventTable.markSent_nil] at hnone

/-- A call keeps the invariant. -/
theorem moves {batch : Int64} {w : W} {c : Call} {s' : World W} (h : Inv table s)
    (hmoves : Moves batch s w c s') : Inv table s' := by
  cases hmoves with
  | stay => exact h
  | begins now hphase =>
    exact h.setPhase w _ (fun _ hrow => nomatch hrow) (fun _ hrow => nomatch hrow)
  | aborts => exact h.abort w
  -- the fetched rows are unsent and now locked
  | fetches now rows hphase hrows =>
    obtain ⟨hfetched, -⟩ := fetched hrows
    refine (h.lock w rows fun row hrow => (hfetched row hrow).2.2).setPhase w _ ?_ ?_
    · intro row hrow
      obtain ⟨hmem, hnone, -⟩ := hfetched row hrow
      refine ⟨hmem, hnone, ?_⟩
      have hid : row.id ∈ rows.map EventOutbox.id := List.mem_map_of_mem hrow
      simp only [World.lock]
      rw [if_pos hid]
    · exact fun _ hrow => nomatch hrow
  -- the acknowledged row joins those written
  | writes now done row rest unacked hphase =>
    have hheld := h.held w
    have hwritten := h.written w
    rw [hphase] at hheld hwritten
    refine (h.send (message row) true unacked).setPhase w _ hheld fun r hr => ?_
    rcases List.mem_append.mp hr with hr | hr
    · exact mem_acked_send s _ _ _ (hwritten r hr)
    · rw [List.mem_singleton.mp hr]
      simp [World.send]
  | writeFails now done row rest unacked hphase =>
    exact (h.send (message row) false unacked).abort w
  | marks now done row rest hphase =>
    have hheld := h.held w
    have hwritten := h.written w
    rw [hphase] at hheld hwritten
    refine h.setPhase w _ (fun r hr => hheld r ?_) hwritten
    simpa [Phase.batch] using hr
  -- the ids that are marked are those of the written rows
  | commits now done hphase =>
    refine h.endTx w now _ fun id hid => ?_
    obtain ⟨row, hrow, rfl⟩ := List.mem_map.mp hid
    exact ⟨row, by rw [hphase]; exact hrow, rfl⟩

/-- Every step keeps it. -/
theorem step {batch : W → Int64} (h : Inv table s) (a : Action W) :
    Inv table (step batch s a) := by
  cases a with
  | call w c => exact h.moves (call_moves (batch w) s w c)
  | arrive m =>
    simp only [OutboxWorker.step]
    split
    · exact { h with acked := fun m' hm' => List.mem_append_left _ (h.acked hm') }
    · exact h

end Inv

/-- The invariant holds at every point of a run. -/
theorem inv_run (batch : W → Int64) (table : EventTable) (actions : List (Action W)) :
    Inv table (run batch table actions) :=
  List.foldl_keeps actions _ (inv_initial table) fun _ a _ _ h => h.step a

/-! ## At least once -/

/-- A call that ends the attempt of `processBatch` without a commit. A transaction that Postgres
    committed is a commit, also if its reply is lost and `processBatch` returns an error. -/
def Call.Fails : Call → Prop
  | .begin now => now = none
  | .fetch ok => ok = false
  | .write acked _ => acked = false
  | .mark ok => ok = false
  | .commit ok => ok = false
  | .crash => True

/-- A call that fails marks nothing. -/
theorem Moves.table_of_fails {batch : Int64} {s s' : World W} {w : W} {c : Call}
    (hmoves : Moves batch s w c s') (hfails : c.Fails) : s'.table = s.table := by
  cases hmoves with
  | stay => rfl
  | begins => rfl
  | aborts => rfl
  | fetches => rfl
  | writes => rfl
  | writeFails => rfl
  | marks => rfl
  | commits => cases hfails

/-- In every run a row that is marked was so from the start or has been acknowledged,
    and whatever call of a replica fails, its batch is unsent afterwards. -/
theorem atLeastOnce (batch : W → Int64) (table : EventTable) (actions : List (Action W)) :
    let s := run batch table actions
    (∀ row ∈ s.table.rows, row.sentAt.isSome → row ∈ table.rows ∨ message row ∈ s.acked) ∧
      ∀ w c, c.Fails → ∀ row ∈ (s.workers w).batch,
        row ∈ (step batch s (.call w c)).table.rows ∧ row.sentAt = none := by
  have h := inv_run batch table actions
  refine ⟨h.sent, fun w c hfails row hrow => ?_⟩
  -- the rows of a batch are in the table without a mark
  obtain ⟨hmem, hnone, -⟩ := h.held w row hrow
  have htable := (call_moves (batch w) (run batch table actions) w c).table_of_fails hfails
  refine ⟨?_, hnone⟩
  simp only [step]
  rw [htable]
  exact hmem

/-! ## The order of a tenant's events -/

/-- Every earlier row of the tenant of `m` that was unsent at the start is among
    `published`. -/
def Ahead (table : EventTable) (published : List Message) (m : Message) : Prop :=
  ∀ row ∈ table.rows, row.sentAt = none → row.id < m.rowId → row.tenantId = m.key →
    message row ∈ published

/-- Per tenant the rows are first published in the order of their ids: whenever one
    is published, the earlier ones were published before. Rows that are marked at the
    start were published before the run. -/
def InOrder (table : EventTable) (published : List Message) : Prop :=
  ∀ pre m post, published = pre ++ m :: post → Ahead table pre m

/-- A fetch of `w` does not pass over an unpublished row: when it takes a row, every
    earlier row of the same tenant that another replica has locked is published. -/
def Orderly (batch : Int64) (s : World W) (w : W) : Prop :=
  ∀ now rows, s.workers w = .begun now →
    fetchPendingEvents s.table s.locks batch.toInt32 = some rows →
    ∀ j ∈ rows, ∀ i ∈ s.table.rows, i.id < j.id → i.tenantId = j.tenantId →
      (s.locks i.id).isSome → message i ∈ s.published

/-- More messages do not take away what is ahead. -/
theorem Ahead.mono {table : EventTable} {published published' : List Message} {m : Message}
    (h : Ahead table published m) (hsub : published ⊆ published') : Ahead table published' m :=
  fun row hrow hnone hlt hkey => hsub (h row hrow hnone hlt hkey)

/-- A message may follow if what comes before it in its tenant has been published. -/
theorem InOrder.concat {table : EventTable} {published : List Message} {m : Message}
    (h : InOrder table published) (hm : Ahead table published m) :
    InOrder table (published ++ [m]) := by
  intro pre m' post hsplit
  rcases List.eq_nil_or_concat post with rfl | ⟨post, last, rfl⟩
  · obtain ⟨rfl, heq⟩ := List.append_inj' hsplit rfl
    rw [← List.singleton_inj.mp heq]
    exact hm
  · have hinit : published = pre ++ m' :: post := by
      have hsplit' : published ++ [m] = (pre ++ m' :: post) ++ [last] := by simpa using hsplit
      exact (List.append_inj' hsplit' rfl).1
    exact h pre m' post hinit

/-- The order so far, and what keeps it: whoever may publish next has nothing to
    wait for outside its own batch. -/
structure Ordered (table : EventTable) (s : World W) : Prop where
  published : InOrder table s.published
  inFlight : ∀ m ∈ s.inFlight, Ahead table s.published m
  sorted : ∀ w, (s.workers w).batch.Pairwise fun a b => a.id < b.id
  ahead : ∀ w, ∀ row ∈ (s.workers w).batch,
    Ahead table (s.published ++ (s.workers w).batch.map message) (message row)

omit [DecidableEq W] in
/-- Nothing is out of order at first. -/
theorem ordered_initial (table : EventTable) : Ordered table (initial table : World W) where
  published pre m post hsplit := by simp [initial] at hsplit
  inFlight _ hm := nomatch hm
  sorted _ := List.Pairwise.nil
  ahead _ _ hrow := nomatch hrow

namespace Ordered

variable {table : EventTable} {s : World W}

theorem setPhase (h : Ordered table s) (w : W) (p : Phase)
    (hsorted : p.batch.Pairwise fun a b => a.id < b.id)
    (hahead : ∀ row ∈ p.batch, Ahead table (s.published ++ p.batch.map message) (message row)) :
    Ordered table (s.setPhase w p) where
  published := h.published
  inFlight := h.inFlight
  sorted w' := by
    simp only [World.setPhase]
    -- the replica's own batch is new, the others are as before
    by_cases hw : w' = w
    · subst hw
      rw [Function.update_self]
      exact hsorted
    · rw [Function.update_of_ne hw]
      exact h.sorted w'
  ahead w' := by
    simp only [World.setPhase]
    by_cases hw : w' = w
    · subst hw
      rw [Function.update_self]
      exact hahead
    · rw [Function.update_of_ne hw]
      exact h.ahead w'

/-- A transaction that ends publishes nothing. -/
theorem endTx (h : Ordered table s) (w : W) (table' : EventTable) :
    Ordered table (World.endTx { s with table := table' } w) :=
  have hidle := h.setPhase w .idle List.Pairwise.nil (fun _ hrow => nomatch hrow)
  ⟨hidle.published, hidle.inFlight, hidle.sorted, hidle.ahead⟩

omit [DecidableEq W] in
/-- Sending a message whose predecessors are all published. -/
theorem send (h : Ordered table s) {m : Message} (hm : Ahead table s.published m) (acked : Bool)
    (unacked : Nat) : Ordered table (s.send m acked unacked) := by
  -- a message only joins what is published
  have hsub : s.published ⊆ (s.send m acked unacked).published := by
    simp only [World.send]
    split
    · exact List.subset_append_left _ _
    · exact List.Subset.refl _
  refine ⟨?_, fun m' hm' => ?_, h.sorted, fun w row hrow => ?_⟩
  · simp only [World.send]
    split
    · exact h.published.concat hm
    · exact h.published
  · rcases List.mem_append.mp hm' with hm' | hm'
    · exact (h.inFlight m' hm').mono hsub
    · rw [List.eq_of_mem_replicate hm']
      exact hm.mono hsub
  · refine (h.ahead w row hrow).mono (List.append_subset.mpr ⟨?_, List.subset_append_right _ _⟩)
    exact List.subset_append_of_subset_left _ hsub

omit [DecidableEq W] in
/-- At the head of the loop, everything before the next row is published. -/
private theorem ahead_next (h : Ordered table s) (hinv : Inv table s) {w : W} {now : Time}
    {done rest : List EventOutbox} {row : EventOutbox}
    (hphase : s.workers w = .writing now done (row :: rest)) :
    Ahead table s.published (message row) := by
  have hahead := h.ahead w
  have hsorted := h.sorted w
  have hwritten := hinv.written w
  rw [hphase] at hahead hsorted hwritten
  intro i hi hnone hlt hkey
  rcases List.mem_append.mp (hahead row (by simp [Phase.batch]) i hi hnone hlt hkey) with hp | hb
  · exact hp
  · -- the earlier row is in the same batch, hence among the rows already written
    obtain ⟨r, hr, heq⟩ := List.mem_map.mp hb
    have hid : r.id = i.id := congrArg Message.rowId heq
    have hdone : r ∈ done := by
      rcases List.mem_append.mp hr with hr | hr
      · exact hr
      · exfalso
        have hlt' : r.id < row.id := hid ▸ hlt
        rcases List.mem_cons.mp hr with rfl | hr
        · exact Int64.lt_irrefl hlt'
        · have hgt := (List.pairwise_cons.mp (List.pairwise_append.mp hsorted).2.1).1 r hr
          exact Int64.lt_asymm hlt' hgt
    rw [← heq]
    exact hinv.acked (hwritten r hdone)

omit [DecidableEq W] in
/-- A fetch that passes over nothing unpublished has nothing to wait for. -/
private theorem ahead_fetched (hinv : Inv table s) {w : W} {batch : Int64} {now : Time}
    {rows : List EventOutbox} (hphase : s.workers w = .begun now)
    (hrows : fetchPendingEvents s.table s.locks batch.toInt32 = some rows)
    (horderly : Orderly batch s w) {j : EventOutbox} (hj : j ∈ rows) :
    Ahead table (s.published ++ rows.map message) (message j) := by
  intro i hi hnone hlt hkey
  -- the row as it is in the table now
  obtain ⟨i', hi', heq⟩ : ∃ i' ∈ s.table.rows, message i' = message i := by
    have hmem := List.mem_map_of_mem (f := message) hi
    rw [← hinv.rows] at hmem
    exact List.mem_map.mp hmem
  have hid : i'.id = i.id := congrArg Message.rowId heq
  have htenant : i'.tenantId = i.tenantId := congrArg Message.key heq
  have hlt' : i'.id < j.id := hid ▸ hlt
  rw [← heq]
  by_cases hsent : i'.sentAt.isSome
  · -- marked since the start of the run, so acknowledged
    rcases hinv.sent i' hi' hsent with hstart | hacked
    · rw [table.eq_of_id hstart hi hid, hnone] at hsent
      cases hsent
    · exact List.mem_append_left _ (hinv.acked hacked)
  · by_cases hlock : (s.locks i'.id).isSome
    · have hpub := horderly now rows hphase hrows j hj i' hi' hlt' (htenant.trans hkey) hlock
      exact List.mem_append_left _ hpub
    · -- free and unsent, so the fetch took it before `j`
      have hpending : i' ∈ s.table.pending s.locks := by
        simp only [Option.not_isSome_iff_eq_none] at hsent hlock
        simp [EventTable.pending, hi', hsent, hlock]
      obtain ⟨tail, htail⟩ := (fetched hrows).2
      have hsorted := s.table.ordered.filter fun row =>
        row.sentAt.isNone && (s.locks row.id).isNone
      have hmem : i' ∈ rows := by
        change List.Pairwise _ (s.table.pending s.locks) at hsorted
        rw [← htail] at hsorted hpending
        rcases List.mem_append.mp hpending with h | h
        · exact h
        · have hgt := (List.pairwise_append.mp hsorted).2.2 j hj i' h
          exact absurd hgt (Int64.lt_asymm hlt')
      exact List.mem_append_right _ (List.mem_map_of_mem hmem)

/-- A call keeps the order, unless it fetches past an unpublished row. -/
theorem moves (h : Ordered table s) (hinv : Inv table s) {batch : Int64} {w : W} {c : Call}
    {s' : World W} (hmoves : Moves batch s w c s')
    (horderly : c = .fetch true → Orderly batch s w) : Ordered table s' := by
  have hsorted := h.sorted w
  have hahead := h.ahead w
  cases hmoves with
  | stay => exact h
  | begins now hphase => exact h.setPhase w _ List.Pairwise.nil (fun _ hrow => nomatch hrow)
  | aborts => exact h.endTx w s.table
  | fetches now rows hphase hrows =>
    have hlock : Ordered table (s.lock w rows) :=
      ⟨h.published, h.inFlight, h.sorted, h.ahead⟩
    refine hlock.setPhase w _ ?_ fun j hj => ?_
    · exact (s.table.ordered.filter _).sublist (fetched hrows).2.sublist
    · exact ahead_fetched hinv hphase hrows (horderly rfl) hj
  -- the next row of the batch is in front of its turn
  | writes now done row rest unacked hphase =>
    have hsend := h.send (h.ahead_next hinv hphase) true unacked
    have hahead' := hsend.ahead w
    have hworkers : (s.send (message row) true unacked).workers w = s.workers w := rfl
    rw [hphase] at hsorted
    rw [hworkers, hphase] at hahead'
    exact hsend.setPhase w _ hsorted hahead'
  | writeFails now done row rest unacked hphase =>
    exact (h.send (h.ahead_next hinv hphase) false unacked).endTx w s.table
  -- the batch stays the same
  | marks now done row rest hphase =>
    rw [hphase] at hsorted hahead
    have hbatch : (Phase.writing now (done ++ [row]) rest).batch =
        (Phase.marking now done row rest).batch := by simp [Phase.batch]
    refine h.setPhase w _ ?_ ?_
    · rw [hbatch]; exact hsorted
    · rw [hbatch]; exact hahead
  | commits now done hphase => exact h.endTx w _

/-- Every step keeps the order, unless it fetches past an unpublished row. -/
theorem step {batch : W → Int64} (h : Ordered table s) (hinv : Inv table s) (a : Action W)
    (horderly : ∀ w, a = .call w (.fetch true) → Orderly (batch w) s w) :
    Ordered table (step batch s a) := by
  cases a with
  | call w c =>
    exact h.moves hinv (call_moves (batch w) s w c) fun hc => horderly w (by rw [hc])
  | arrive m =>
    simp only [OutboxWorker.step]
    split
    · -- a message in flight was ahead when it was sent
      rename_i hm
      have hsub : s.published ⊆ s.published ++ [m] := List.subset_append_left _ _
      refine ⟨h.published.concat (h.inFlight m hm), fun m' hm' => ?_, h.sorted,
        fun w row hrow => ?_⟩
      · exact (h.inFlight m' (List.mem_of_mem_erase hm')).mono hsub
      · refine (h.ahead w row hrow).mono (List.append_subset.mpr ⟨?_, List.subset_append_right _ _⟩)
        exact List.subset_append_of_subset_left _ hsub
    · exact h

end Ordered

/-- In a run in which no fetch passes over an unpublished row of a tenant it takes
    rows of, the events of every tenant are published in order, at every point. -/
theorem inOrder_of_orderly (batch : W → Int64) (table : EventTable) (actions : List (Action W))
    (h : ∀ pre w post, actions = pre ++ .call w (.fetch true) :: post →
      Orderly (batch w) (run batch table pre) w) :
    ∀ pre, pre <+: actions → InOrder table (run batch table pre).published := by
  rintro pre ⟨rest, rfl⟩
  have hordered : Ordered table (run batch table pre) := by
    refine List.foldl_keeps pre _ (ordered_initial table) fun before a after hsplit hs => ?_
    refine hs.step (inv_run batch table before) a fun w ha => ?_
    exact h before w (after ++ rest) (by rw [hsplit, ha]; simp)
  exact hordered.published

end

/-- Two replicas with a batch size of one: the first has published its row of the tenant, which
    is still locked, when the second passes over it and takes the later one. -/
theorem inOrder_of_orderly_two_rows :
    let row (id : Int64) : EventOutbox := ⟨id, 0, "config.changes", [], 0, none, none, none⟩
    let actions : List (Action Bool) :=
      [.call false (.begin (some 0)), .call false (.fetch true), .call false (.write true 0),
        .call true (.begin (some 0)), .call true (.fetch true), .call true (.write true 0)]
    ∃ table : EventTable, table.rows = [row 1, row 2] ∧
      (run (fun _ => 1) table actions).published = [message (row 1), message (row 2)] ∧
      InOrder table (run (fun _ => 1) table actions).published := by
  intro row actions
  let table : EventTable := ⟨[row 1, row 2], by decide⟩
  refine ⟨table, rfl, by decide, ?_⟩
  have horder := inOrder_of_orderly (fun _ => 1) table actions ?_ actions (List.prefix_refl _)
  · exact horder
  · intro pre w post hsplit
    -- the two fetches are at places 1 and 4
    have hpre : pre = actions.take 1 ∧ w = false ∨ pre = actions.take 4 ∧ w = true := by
      rcases pre with - | ⟨a, - | ⟨b, - | ⟨c, - | ⟨d, - | ⟨e, - | ⟨f, pre⟩⟩⟩⟩⟩⟩ <;>
        simp_all [actions]
    intro now rows _ hfetch j hj i hi hlt _ hlock
    rcases hpre with ⟨rfl, rfl⟩ | ⟨rfl, rfl⟩
    · -- no row is locked at the first fetch
      cases hlock
    · -- the second takes row 2, when row 1 is locked and published
      have hrows : rows = [row 2] := (Option.some.inj hfetch).symm
      rw [hrows, List.mem_singleton] at hj
      have hi : i ∈ [row 1, row 2] := hi
      rcases List.mem_cons.mp hi with rfl | hi
      · decide
      · rw [List.mem_singleton.mp hi, hj] at hlt
        exact absurd hlt (by decide)

/-- Two replicas with a batch size of one: the second one skips the locked row and
    publishes the later event of the tenant first. -/
theorem skipped_row_published_late :
    let row (id : Int64) : EventOutbox := ⟨id, 0, "config.changes", [], 0, none, none, none⟩
    let actions : List (Action Bool) :=
      [.call false (.begin (some 0)), .call false (.fetch true),
        .call true (.begin (some 0)), .call true (.fetch true), .call true (.write true 0)]
    ∃ table : EventTable, table.rows = [row 1, row 2] ∧
      ¬ InOrder table (run (fun _ => 1) table actions).published := by
  intro row actions
  let table : EventTable := ⟨[row 1, row 2], by decide⟩
  refine ⟨table, rfl, fun h => ?_⟩
  -- the second replica skips the locked row and publishes the next one
  have hpublished : (run (fun _ => 1) table actions).published = [message (row 2)] := by decide
  have hahead := h [] (message (row 2)) [] hpublished
  exact nomatch hahead (row 1) (by simp [table]) rfl (by decide) rfl

end Barqium.Native.OutboxWorker
