import Barqium.ForStd.Run
import Barqium.Native.StdioClient

/-!
# Replies on the stdio transport

The call that holds the lock of stdout reads until it finds its own reply, and what
it reads before is gone. No reply is lost as long as the calls read in the order in
which they are answered.

## Key results

- `noLostReply_of_inTurn`: if no call reads past the reply of another one, every
  pending call finds its reply on the pipe
-/

namespace Barqium.Native.StdioClient

variable (serde : SerdeJson) (errorText : serde.Error → String)

/-- The next line is the reply to a pending call, and the call that reads it waits
    for a different one. -/
def Drops (w : World) : Prop :=
  ∃ id other line rest, w.reader = some id ∧ w.stdout = line :: rest ∧ other ≠ id ∧
    w.calls other = .awaiting ∧ carries serde line other = true

/-- Every pending call has its reply still to come, or unread on the pipe. -/
def Intact (w : World) : Prop :=
  ∀ id, w.calls id = .awaiting →
    id ∈ w.unanswered ∨ ∃ line ∈ w.stdout, carries serde line id = true

/-- No read drops the reply of a pending call, and no pending call is ever without
    its reply. -/
def NoLostReply (actions : List Action) : Prop :=
  (∀ pre post, actions = pre ++ .read :: post → ¬ Drops serde (run serde errorText pre)) ∧
  ∀ pre, pre <+: actions → Intact serde (run serde errorText pre)

/-- In the pipe, no reply to another pending call comes before that of `id`. -/
def First (w : World) (id : Nat) : Prop :=
  ∀ other, other ≠ id → w.calls other = .awaiting → ∀ before line after,
    w.stdout = before ++ line :: after → carries serde line other = true →
    ∃ l ∈ before, carries serde l id = true

/-- A call acquires the lock only when it is the first of the pending calls to be
    answered, and while it holds the lock no other call is answered before it. -/
def InTurn (w : World) : Action → Prop
  | .lock id => First serde w id
  | .answer other _ => ∀ id, w.reader = some id → id ≠ other → id ∉ w.unanswered
  | _ => True

variable {serde errorText}

/-! ## Lines -/

/-- A line is the reply to one request at most. -/
private theorem carries_unique {line : Line} {id other : Nat} (h : carries serde line id = true)
    (h' : carries serde line other = true) : id = other := by
  unfold carries at h h'
  cases hparse : parse serde line with
  | error e => simp [hparse] at h
  | ok v =>
    simp only [hparse, idMatches] at h h'
    cases hid : v.index "id" with
    | num literal =>
      simp only [hid, decide_eq_true_eq] at h h'
      -- the id is written in digits, and these give it back
      have hdigits : Nat.toDigits 10 id = Nat.toDigits 10 other := by
        rw [← Nat.toList_repr, ← Nat.toList_repr, ← h, ← h']
      rw [← Nat.ofDigitChars_ten_toDigits (n := id), hdigits, Nat.ofDigitChars_ten_toDigits]
    | _ => simp [hid] at h

/-- A notification is no call's reply. -/
private theorem not_carries_of_isNotification {line : Line} (h : isNotification serde line = true)
    (id : Nat) : carries serde line id = false := by
  unfold isNotification at h
  unfold carries
  cases hparse : parse serde line with
  | error e => rfl
  | ok v =>
    simp only [hparse] at h
    cases hid : v.index "id" with
    | null => simp [idMatches, hid]
    | _ => simp [hid] at h

/-! ## The invariant -/

/-- What holds between two steps when the calls read in turn. -/
structure Inv (serde : SerdeJson) (w : World) : Prop where
  fresh : ∀ id, w.idCounter ≤ id → w.calls id = .absent
  asked : ∀ id ∈ w.unanswered, ∀ req, w.calls id ≠ .absent ∧ w.calls id ≠ .writing req
  replied : ∀ line ∈ w.stdout, ∀ id, carries serde line id = true →
    ∀ req, w.calls id ≠ .absent ∧ w.calls id ≠ .writing req
  holder : ∀ id, w.reader = some id → w.calls id = .awaiting
  intact : Intact serde w
  turn : ∀ id, w.reader = some id → First serde w id

/-- Before the first call the invariant holds. -/
theorem inv_initial : Inv serde initial where
  fresh := fun _ _ => rfl
  asked := fun _ h => nomatch h
  replied := fun _ h => nomatch h
  holder := fun _ h => nomatch h
  intact := fun _ h => nomatch h
  turn := fun _ h => nomatch h

variable {w : World}

/-- The next line does not belong to another pending call. -/
theorem Inv.not_drops (h : Inv serde w) : ¬ Drops serde w := by
  rintro ⟨id, other, line, rest, hreader, hstdout, hne, hother, hcarries⟩
  obtain ⟨l, hl, -⟩ := h.turn id hreader other hne hother [] line rest hstdout hcarries
  exact nomatch hl

/-- The id of a call that was made is below the counter. -/
theorem Inv.lt_idCounter (h : Inv serde w) {id : Nat} (hid : w.calls id ≠ .absent) :
    id < w.idCounter := by
  by_contra hle
  exact hid (h.fresh id (Nat.not_lt.mp hle))

/-- A call that has not written its request: nobody was asked to answer it, nobody
    has, and it does not read. -/
def Unwritten (w : World) (id : Nat) : Prop :=
  w.calls id = .absent ∨ ∃ req, w.calls id = .writing req

/-- An id not yet written is not that of a call further on. -/
theorem Unwritten.ne_of_written {id other : Nat} (h : Unwritten w id)
    (hother : ∀ req, w.calls other ≠ .absent ∧ w.calls other ≠ .writing req) : other ≠ id := by
  rintro rfl
  rcases h with h | ⟨req, h⟩
  · exact (hother .null).1 h
  · exact (hother req).2 h

/-- In particular not that of a call that awaits its reply. -/
theorem Unwritten.ne_of_awaiting {id other : Nat} (h : Unwritten w id)
    (hother : w.calls other = .awaiting) : other ≠ id := by
  refine h.ne_of_written fun req => ?_
  rw [hother]
  exact ⟨nofun, nofun⟩

@[simp] theorem calls_setPhase_self (w : World) (id : Nat) (phase : Phase) :
    (w.setPhase id phase).calls id = phase := Function.update_self ..

/-- The phases of the other calls stay. -/
private theorem calls_setPhase_of_ne (w : World) {id other : Nat} (phase : Phase) (h : other ≠ id) :
    (w.setPhase id phase).calls other = w.calls other := Function.update_of_ne h ..

/-- A call that is made, or whose request cannot be written. -/
theorem Inv.setUnwritten (h : Inv serde w) {id n : Nat} (hid : Unwritten w id) {phase : Phase}
    (hphase : phase ≠ .awaiting) (hn : w.idCounter ≤ n) (hlt : id < n) :
    Inv serde { w.setPhase id phase with idCounter := n } := by
  -- the calls that the other clauses speak of are not this one
  have hcalls : ∀ other, other ≠ id → (w.setPhase id phase).calls other = w.calls other :=
    fun other hne => calls_setPhase_of_ne w phase hne
  -- no call begins to wait here
  have hawaiting : ∀ other, (w.setPhase id phase).calls other = .awaiting →
      w.calls other = .awaiting := by
    intro other hother
    by_cases hne : other = id
    · subst hne
      rw [calls_setPhase_self] at hother
      exact absurd hother hphase
    · rwa [hcalls other hne] at hother
  refine ⟨fun other hle => ?_, fun other hmem req => ?_, fun line hline other hcarries req => ?_,
    fun other hreader => ?_, fun other hother => ?_, fun reader hreader other hne hother => ?_⟩
  · have hle : n ≤ other := hle
    show (w.setPhase id phase).calls other = .absent
    rw [hcalls other (by omega)]
    exact h.fresh other (by omega)
  · have hwritten := h.asked other hmem
    show (w.setPhase id phase).calls other ≠ _ ∧ (w.setPhase id phase).calls other ≠ _
    rw [hcalls other (hid.ne_of_written hwritten)]
    exact hwritten req
  · have hwritten := h.replied line hline other hcarries
    show (w.setPhase id phase).calls other ≠ _ ∧ (w.setPhase id phase).calls other ≠ _
    rw [hcalls other (hid.ne_of_written hwritten)]
    exact hwritten req
  · have hold := h.holder other hreader
    show (w.setPhase id phase).calls other = _
    rw [hcalls other (hid.ne_of_awaiting hold)]
    exact hold
  · exact h.intact other (hawaiting other hother)
  · exact h.turn reader hreader other hne (hawaiting other hother)

/-- A request reaches the subprocess. -/
theorem Inv.write (h : Inv serde w) {id : Nat} {req : Json} (hid : w.calls id = .writing req) :
    Inv serde { w.setPhase id .awaiting with
      stdin := w.stdin ++ [req], unanswered := w.unanswered ++ [id] } := by
  have hun : Unwritten w id := .inr ⟨req, hid⟩
  have hcalls : ∀ other, other ≠ id → (w.setPhase id .awaiting).calls other = w.calls other :=
    fun other hne => calls_setPhase_of_ne w .awaiting hne
  have hself : (w.setPhase id .awaiting).calls id = .awaiting := calls_setPhase_self ..
  -- no line on the pipe replies to a request not yet sent
  have hnone : ∀ line ∈ w.stdout, carries serde line id = false := by
    intro line hline
    cases hc : carries serde line id with
    | false => rfl
    | true => exact absurd rfl (hun.ne_of_written (h.replied line hline id hc))
  refine ⟨fun other hle => ?_, fun other hmem req' => ?_, fun line hline other hcarries req' => ?_,
    fun other hreader => ?_, fun other hother => ?_, fun reader hreader other hne hother => ?_⟩
  · have hle : w.idCounter ≤ other := hle
    have hlt : id < w.idCounter := h.lt_idCounter (by rw [hid]; exact nofun)
    show (w.setPhase id .awaiting).calls other = .absent
    rw [hcalls other (by omega)]
    exact h.fresh other hle
  · show (w.setPhase id .awaiting).calls other ≠ _ ∧ (w.setPhase id .awaiting).calls other ≠ _
    by_cases hne : other = id
    · subst hne
      rw [hself]
      exact ⟨nofun, nofun⟩
    · rw [hcalls other hne]
      have hmem : other ∈ w.unanswered := by
        rcases List.mem_append.mp hmem with hmem | hmem
        · exact hmem
        · exact absurd (List.mem_singleton.mp hmem) hne
      exact h.asked other hmem req'
  · have hwritten := h.replied line hline other hcarries
    show (w.setPhase id .awaiting).calls other ≠ _ ∧ (w.setPhase id .awaiting).calls other ≠ _
    rw [hcalls other (hun.ne_of_written hwritten)]
    exact hwritten req'
  · have hold := h.holder other hreader
    show (w.setPhase id .awaiting).calls other = _
    rw [hcalls other (hun.ne_of_awaiting hold)]
    exact hold
  · by_cases hne : other = id
    · exact .inl (List.mem_append_right _ (List.mem_singleton.mpr hne))
    · have hother : w.calls other = .awaiting := (hcalls other hne) ▸ hother
      exact (h.intact other hother).imp_left (List.mem_append_left _)
  · intro before line after hsplit hcarries
    by_cases heq : other = id
    · -- no reply to the new request is on the pipe
      subst heq
      have hmem : line ∈ w.stdout := by
        rw [show w.stdout = before ++ line :: after from hsplit]
        simp
      rw [hnone line hmem] at hcarries
      exact nomatch hcarries
    · have hother : w.calls other = .awaiting := (hcalls other heq) ▸ hother
      exact h.turn reader hreader other hne hother before line after hsplit hcarries

/-- A new line comes last: it can only be late for a call that has its reply on the
    pipe already. -/
theorem First.append {id : Nat} (h : First serde w id) (new : Line) (unanswered : List Nat)
    (hnew : ∀ other, other ≠ id → w.calls other = .awaiting → carries serde new other = true →
      ∃ l ∈ w.stdout, carries serde l id = true) :
    First serde { w with stdout := w.stdout ++ [new], unanswered := unanswered } id := by
  intro other hne hother before line after hsplit hcarries
  have hsplit : w.stdout ++ [new] = before ++ line :: after := hsplit
  rcases List.eq_nil_or_concat after with rfl | ⟨after', last, rfl⟩
  · obtain ⟨rfl, hline⟩ := List.append_inj' hsplit rfl
    cases hline
    exact hnew other hne hother hcarries
  · -- the new line is the last one, so the line was there before
    have hold : w.stdout ++ [new] = (before ++ line :: after') ++ [last] := by
      rw [hsplit]
      simp
    obtain ⟨hold, -⟩ := List.append_inj' hold rfl
    exact h other hne hother before line after' hold hcarries

/-- The subprocess answers a request while nobody reads, or after the call that
    reads has been answered. -/
theorem Inv.answer (h : Inv serde w) {id : Nat} {line : Line} (hmem : id ∈ w.unanswered)
    (hline : carries serde line id = true)
    (hturn : ∀ reader, w.reader = some reader → reader ≠ id → reader ∉ w.unanswered) :
    Inv serde { w with stdout := w.stdout ++ [line], unanswered := w.unanswered.erase id } := by
  refine ⟨h.fresh, fun other hother => h.asked other (List.mem_of_mem_erase hother),
    fun l hl other hcarries => ?_, h.holder, fun other hother => ?_, fun reader hreader => ?_⟩
  · rcases List.mem_append.mp hl with hl | hl
    · exact h.replied l hl other hcarries
    · cases List.mem_singleton.mp hl
      rw [carries_unique hcarries hline]
      exact h.asked id hmem
  · by_cases hne : other = id
    · subst hne
      exact .inr ⟨line, by simp, hline⟩
    · rcases h.intact other hother with hun | ⟨l, hl, hcarries⟩
      · exact .inl ((List.mem_erase_of_ne hne).mpr hun)
      · exact .inr ⟨l, List.mem_append_left _ hl, hcarries⟩
  · refine (h.turn reader hreader).append line _ fun other hne hother hcarries => ?_
    -- the new line belongs to another call, so the reader has its reply
    have hid := carries_unique hcarries hline
    have hanswered := hturn reader hreader fun heq => hne (hid.trans heq.symm)
    exact (h.intact reader (h.holder reader hreader)).resolve_left hanswered

/-- A notification on the pipe keeps the invariant. -/
theorem Inv.notify (h : Inv serde w) {line : Line} (hline : isNotification serde line = true) :
    Inv serde { w with stdout := w.stdout ++ [line] } := by
  -- a notification is nobody's reply
  have hnone := not_carries_of_isNotification hline
  refine ⟨h.fresh, h.asked, fun l hl other hcarries => ?_, h.holder, fun other hother => ?_,
    fun reader hreader => ?_⟩
  · rcases List.mem_append.mp hl with hl | hl
    · exact h.replied l hl other hcarries
    · cases List.mem_singleton.mp hl
      rw [hnone other] at hcarries
      exact nomatch hcarries
  · rcases h.intact other hother with hun | ⟨l, hl, hcarries⟩
    · exact .inl hun
    · exact .inr ⟨l, List.mem_append_left _ hl, hcarries⟩
  · refine (h.turn reader hreader).append line w.unanswered fun other _ _ hcarries => ?_
    rw [hnone other] at hcarries
    exact nomatch hcarries

/-- The reader takes a line that is not the reply of another pending call off the
    pipe and goes on reading. -/
theorem Inv.skip (h : Inv serde w) {id : Nat} {line : Line} {rest : List Line}
    (hreader : w.reader = some id) (hstdout : w.stdout = line :: rest)
    (hline : carries serde line id = false) : Inv serde { w with stdout := rest } := by
  -- the rest of the pipe was there before
  have hmem : ∀ l, l ∈ rest → l ∈ w.stdout := fun l hl => hstdout ▸ List.mem_cons_of_mem _ hl
  refine ⟨h.fresh, h.asked, fun l hl => h.replied l (hmem l hl), h.holder, fun other hother => ?_,
    fun reader hreader' other hne hother before l after hsplit hcarries => ?_⟩
  · refine (h.intact other hother).imp_right fun ⟨l, hl, hcarries⟩ => ?_
    rw [hstdout] at hl
    rcases List.mem_cons.mp hl with rfl | hl
    · -- the line would be the reply of another call, dropped
      have hne : other ≠ id := by
        rintro rfl
        rw [hline] at hcarries
        exact nomatch hcarries
      exact absurd ⟨id, other, l, rest, hreader, hstdout, hne, hother, hcarries⟩ h.not_drops
    · exact ⟨l, hl, hcarries⟩
  · obtain rfl : id = reader := Option.some.inj (hreader.symm.trans hreader')
    have hsplit : w.stdout = (line :: before) ++ l :: after := by
      rw [hstdout, show rest = before ++ l :: after from hsplit]
      rfl
    obtain ⟨l', hl', hid⟩ := h.turn id hreader other hne hother _ l after hsplit hcarries
    rcases List.mem_cons.mp hl' with rfl | hl'
    · rw [hline] at hid
      exact nomatch hid
    · exact ⟨l', hl', hid⟩

/-- The reader returns and releases the lock, having taken at most its own reply off
    the pipe. -/
theorem Inv.leave (h : Inv serde w) {id : Nat} {rest : List Line} (hreader : w.reader = some id)
    (hrest : w.stdout = rest ∨ ∃ line, w.stdout = line :: rest ∧
      ∀ other, other ≠ id → carries serde line other = false)
    (result : Except McpError Json) :
    Inv serde (World.leave { w with stdout := rest } id result) := by
  -- the reader leaves with its reply or an error
  have hholder := h.holder id hreader
  have hcalls : ∀ other, other ≠ id →
      (World.leave { w with stdout := rest } id result).calls other = w.calls other :=
    fun other hne => Function.update_of_ne hne ..
  have hself : (World.leave { w with stdout := rest } id result).calls id = .returned result :=
    Function.update_self ..
  have hmem : ∀ l, l ∈ rest → l ∈ w.stdout := by
    intro l hl
    rcases hrest with heq | ⟨line, heq, -⟩
    · exact heq ▸ hl
    · exact heq ▸ List.mem_cons_of_mem _ hl
  -- what was written stays written
  have hwritten : ∀ other req, w.calls other ≠ .absent ∧ w.calls other ≠ .writing req →
      (World.leave { w with stdout := rest } id result).calls other ≠ .absent ∧
        (World.leave { w with stdout := rest } id result).calls other ≠ .writing req := by
    intro other req hother
    by_cases hne : other = id
    · subst hne
      rw [hself]
      exact ⟨nofun, nofun⟩
    · rw [hcalls other hne]
      exact hother
  refine ⟨fun other hle => ?_,
    fun other hother req => hwritten other req (h.asked other hother req),
    fun l hl other hcarries req =>
      hwritten other req (h.replied l (hmem l hl) other hcarries req),
    (fun _ hnone => nomatch hnone), fun other hother => ?_, (fun _ hnone => nomatch hnone)⟩
  · have hle : w.idCounter ≤ other := hle
    have hlt : id < w.idCounter := h.lt_idCounter (by rw [hholder]; exact nofun)
    rw [hcalls other (by omega)]
    exact h.fresh other hle
  · have hne : other ≠ id := by
      rintro rfl
      rw [hself] at hother
      exact nomatch hother
    rw [hcalls other hne] at hother
    refine (h.intact other hother).imp_right fun ⟨l, hl, hcarries⟩ => ?_
    rcases hrest with heq | ⟨line, heq, hnone⟩
    · exact ⟨l, heq ▸ hl, hcarries⟩
    · rw [heq] at hl
      rcases List.mem_cons.mp hl with rfl | hl
      · rw [hnone other hne] at hcarries
        exact nomatch hcarries
      · exact ⟨l, hl, hcarries⟩

/-- Reading a line keeps the invariant. -/
theorem Inv.readLine (h : Inv serde w) {id : Nat} (hreader : w.reader = some id) :
    Inv serde (w.readLine serde errorText id) := by
  unfold World.readLine
  -- an empty pipe: closed, or to be waited on
  cases hstdout : w.stdout with
  | nil =>
    dsimp only
    split
    · have := h.leave hreader (.inl hstdout) (.error (.rpc (-32700) "subprocess closed stdout"))
      rw [← hstdout] at this
      exact this
    · exact h
  | cons line rest =>
    dsimp only
    cases hparse : parse serde line with
    | error e =>
      -- a line that does not parse is nobody's reply
      have hnone : ∀ other, carries serde line other = false := fun other => by
        simp [carries, hparse]
      exact h.leave hreader (.inr ⟨line, hstdout, fun other _ => hnone other⟩) _
    | ok v =>
      -- a line is the reply of the call with its id
      have hcarries : ∀ other, carries serde line other = idMatches v other := fun other => by
        simp [carries, hparse]
      dsimp only
      split
      · rename_i hmatch
        refine h.leave hreader (.inr ⟨line, hstdout, fun other hne => ?_⟩) _
        cases hc : carries serde line other with
        | false => rfl
        | true => exact absurd (carries_unique hc ((hcarries id).trans hmatch)) hne
      · rename_i hmatch
        exact h.skip hreader hstdout ((hcarries id).trans (by simpa using hmatch))

/-- A step taken in turn keeps the invariant. -/
theorem Inv.step (h : Inv serde w) (a : Action) (ha : InTurn serde w a) :
    Inv serde (step serde errorText w a) := by
  -- the steps of the calls, of the server and of the reader
  cases a with
  | call method params =>
    exact h.setUnwritten (.inl (h.fresh _ le_rfl)) nofun (Nat.le_succ _) (Nat.lt_succ_self _)
  | write id =>
    simp only [StdioClient.step]
    split
    · rename_i req hid
      exact h.write hid
    · exact h
  | writeFailed id message =>
    simp only [StdioClient.step]
    split
    · rename_i req hid
      have hlt : id < w.idCounter := h.lt_idCounter (by rw [hid]; exact nofun)
      exact h.setUnwritten (.inr ⟨req, hid⟩) nofun le_rfl hlt
    · exact h
  | answer id line =>
    simp only [StdioClient.step]
    split
    · rename_i hcond
      exact h.answer hcond.1 hcond.2 ha
    · exact h
  | notify line =>
    simp only [StdioClient.step]
    split
    · rename_i hline
      exact h.notify hline
    · exact h
  | close => exact ⟨h.fresh, h.asked, h.replied, h.holder, h.intact, h.turn⟩
  | lock id =>
    simp only [StdioClient.step]
    split
    · rename_i hreader hid
      refine ⟨h.fresh, h.asked, h.replied, fun other hother => ?_, h.intact, fun other hother => ?_⟩
      · cases hother
        exact hid
      · cases hother
        exact ha
    · exact h
  | read =>
    simp only [StdioClient.step]
    split
    · rename_i id hreader
      exact h.readLine hreader
    · exact h

/-- A run whose steps are all taken in turn keeps the invariant. -/
theorem inv_run (actions : List Action)
    (h : ∀ pre a post, actions = pre ++ a :: post → InTurn serde (run serde errorText pre) a) :
    Inv serde (run serde errorText actions) :=
  List.foldl_keeps actions initial inv_initial fun pre a post hsplit hpre =>
    hpre.step a (h pre a post hsplit)

/-- If the calls read in the order in which they are answered, no reply is lost. -/
theorem noLostReply_of_inTurn (serde : SerdeJson) (errorText : serde.Error → String)
    (actions : List Action)
    (h : ∀ pre a post, actions = pre ++ a :: post → InTurn serde (run serde errorText pre) a) :
    NoLostReply serde errorText actions := by
  have hinv : ∀ pre, pre <+: actions → Inv serde (run serde errorText pre) := by
    rintro pre ⟨post, rfl⟩
    apply inv_run
    intro pre' a mid hsplit
    exact h pre' a (mid ++ post) (by rw [hsplit]; simp)
  refine ⟨fun pre post hsplit => ?_, fun pre hpre => (hinv pre hpre).intact⟩
  exact (hinv pre ⟨.read :: post, hsplit.symm⟩).not_drops

/-- A subprocess that has answered nobody else. -/
private theorem first_of_own {id : Nat} (h : ∀ line ∈ w.stdout, carries serde line id = true) :
    First serde w id := by
  intro other hne _ before line after hsplit hcarries
  have hmem : line ∈ w.stdout := by
    rw [hsplit]
    simp
  exact absurd (carries_unique hcarries (h line hmem)) hne

/-- The reply of a tool without a result. -/
def reply (id : Nat) : Line := ("\x7b\"id\":" ++ id.repr ++ "\x7d\n").toList

/-- A parser that knows the replies to the first two calls. -/
def pairSerde : SerdeJson where
  Error := Unit
  fromStr text :=
    if text = Text.trim (reply 1) then .ok (.obj [("id", .num "1")])
    else if text = Text.trim (reply 2) then .ok (.obj [("id", .num "2")])
    else .error ()
  two_le_of_fromStr_obj text members h := by
    split at h
    · rename_i htext
      rw [htext]
      decide
    · split at h
      · rename_i htext
        rw [htext]
        decide
      · cases h
  valueError _ := ()

/-- Two calls are answered in the reverse order, and read in that order. -/
def readInTurn : List Action :=
  [.call "tools/call" none, .call "tools/call" none, .write 1, .write 2, .answer 2 (reply 2),
    .lock 2, .read, .answer 1 (reply 1), .lock 1, .read]

/-- Two calls whose readers take the lines in turn both get their reply. -/
theorem readInTurn_loses_no_reply :
    NoLostReply pairSerde (fun _ => "") readInTurn ∧
      (run pairSerde (fun _ => "") readInTurn).stdout = [] := by
  refine ⟨noLostReply_of_inTurn pairSerde _ readInTurn ?_, by decide⟩
  -- the only line on stdout is the reply to this call
  have hfirst : ∀ id (w : World), w.stdout = [reply id] →
      carries pairSerde (reply id) id = true → First pairSerde w id := by
    intro id w hstdout hcarries
    refine first_of_own fun line hline => ?_
    rw [hstdout, List.mem_singleton] at hline
    rw [hline]
    exact hcarries
  simp only [readInTurn, List.forall_split_cons, List.forall_split_nil, and_true]
  refine ⟨trivial, trivial, trivial, trivial, (fun _ h => nomatch h), hfirst 2 _ rfl (by decide),
    trivial, (fun _ h => ?_), hfirst 1 _ rfl (by decide), trivial⟩
  have hreader : (run pairSerde (fun _ => "") (readInTurn.take 7)).reader = none := by decide
  exact nomatch hreader.symm.trans h

/-- Two calls are answered in the reverse order, and the first one acquires the lock. -/
def lockOutOfTurn : List Action :=
  [.call "tools/call" none, .call "tools/call" none, .write 1, .write 2, .answer 2 (reply 2),
    .answer 1 (reply 1), .lock 1]

/-- The first call reads the reply to the second one, which goes on waiting for it. -/
theorem first_reader_drops_reply :
    ¬ ∀ (serde : SerdeJson) (errorText : serde.Error → String) (actions : List Action),
      NoLostReply serde errorText actions := by
  intro h
  refine (h pairSerde (fun _ => "") (lockOutOfTurn ++ [.read])).1 lockOutOfTurn [] rfl ?_
  refine ⟨1, 2, reply 2, [reply 1], by decide, by decide, by decide, ?_, by decide⟩
  -- both answers leave the calls as they are
  have hanswer : ∀ (w : World) id line,
      (step pairSerde (fun _ => "") w (.answer id line)).calls = w.calls := by
    intro w id line
    simp only [step]
    split <;> rfl
  have hlock : ∀ (w : World) id,
      (step pairSerde (fun _ => "") w (.lock id)).calls = w.calls := by
    intro w id
    simp only [step]
    split <;> rfl
  simp only [run, lockOutOfTurn, List.foldl_cons, List.foldl_nil, hanswer, hlock]
  rfl

end Barqium.Native.StdioClient
