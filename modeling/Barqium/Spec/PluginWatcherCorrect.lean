import Barqium.ForStd.Run
import Barqium.Native.PluginWatcher

/-!
# Hot reload misses no change

Events are dropped when the channel is full, the burst after the first event is thrown away, and
the files of one reload are read at different times. Still no change of a plugin is lost once the
directory is watched: it is pending as a notification, as a message or as the reload that is about
to begin, until a registry was read from files that have not changed since. What changes between
the first load and the watch is lost, until there is another change.

## Key results

- `current_eq_of_wasm`: the plugins of a directory depend on its plugin files only
- `Inv.step`, `inv_run`: what is known about the registry between two steps
- `Inv.loaded`: the registry once everything has been dealt with
- `exists_quiet`: that point is reached by the task alone
- `reload_misses_nothing`: all of it, for every run
-/

namespace Barqium.Native.PluginWatcher

variable {M : Type} (compile : List UInt8 → Option M)

/-! ## What the registry should be -/

/-- What `load_all` makes of an entry of the directory as it is. -/
def entryOf (files : Files) (fileName : FileName) : Option (PluginModule M) :=
  loadEntry compile fileName (files.lookup fileName).join

/-- The modules of the plugins in the directory, one for each file. -/
def current (files : Files) : Multiset (PluginModule M) :=
  files.keys.val.filterMap (entryOf compile files)

/-- The registry holds the plugins in the directory, each of them once. -/
def Loaded (files : Files) (modules : List (PluginModule M)) : Prop :=
  (modules : Multiset (PluginModule M)) = current compile files

/-- Without a failed read the modules and what is still to come are the plugins in the
    directory as it is. -/
def LoadAll.Sound (load : LoadAll M) (files : Files) : Prop :=
  load.readFailed = false →
    Loaded compile files (load.modules ++ load.entries.filterMap (entryOf compile files))

/-- The task is going to reload once more. -/
def Noticed (w : World M) : Prop :=
  (∃ event ∈ w.undelivered, event.relevant = true) ∨ 0 < w.channel ∨ w.phase = .draining

/-- The registry is that of the current files, or becomes so at the end of the load that is
    going on. -/
def UpToDate (w : World M) : Prop :=
  match w.phase with
  | .new | .stopped | .draining => True
  | .starting load => w.missed = false → load.Sound compile w.files
  | .unwatched | .waiting => w.missed = false → w.incomplete = false →
    Loaded compile w.files w.plugins
  | .loading load => load.Sound compile w.files

/-- What holds between two steps. -/
structure Inv (w : World M) : Prop where
  fresh : Noticed w ∨ UpToDate compile w
  silent : w.phase.isWatched = false → w.undelivered = [] ∧ w.channel = 0

variable {compile} {w : World M}

/-- Nothing is known before the first load. -/
theorem inv_initial (files : Files) : Inv compile (initial files) where
  fresh := .inr trivial
  silent _ := ⟨rfl, rfl⟩

/-- Outside of a burst what is noticed is a notification or a message. -/
theorem Noticed.pending (h : Noticed w) (hphase : w.phase ≠ .draining) :
    (∃ event ∈ w.undelivered, event.relevant = true) ∨ 0 < w.channel := by
  rcases h with hevent | hchannel | hdraining
  · exact .inl hevent
  · exact .inr hchannel
  · exact absurd hdraining hphase

/-- Before the watch nothing is pending. -/
theorem Inv.not_noticed (h : Inv compile w) (hunwatched : w.phase.isWatched = false) :
    ¬ Noticed w := by
  obtain ⟨hundelivered, hchannel⟩ := h.silent hunwatched
  rintro (⟨e, he, -⟩ | hpos | hdraining)
  · rw [hundelivered] at he
    cases he
  · omega
  · rw [hdraining] at hunwatched
    cases hunwatched

/-- Until the directory is watched nothing is noticed, and the registry is up to date. -/
theorem Inv.upToDate (h : Inv compile w) (hunwatched : w.phase.isWatched = false) :
    UpToDate compile w :=
  h.fresh.resolve_left (h.not_noticed hunwatched)

/-! ## Changes -/

/-- A file that is no plugin gives nothing. -/
private theorem entryOf_of_not_wasm {fileName : FileName} (h : fileName.isWasm = false)
    (files : Files) :
    entryOf compile files fileName = none := by
  simp [entryOf, loadEntry, h]

/-- What an entry gives depends on the plugin files only. -/
private theorem entryOf_eq_of_wasm {files files' : Files}
    (h : ∀ fileName, fileName.isWasm = true → files'.lookup fileName = files.lookup fileName) :
    entryOf compile files' = entryOf compile files := by
  funext fileName
  cases hwasm : fileName.isWasm with
  | true => rw [entryOf, h fileName hwasm, entryOf]
  | false => rw [entryOf_of_not_wasm hwasm, entryOf_of_not_wasm hwasm]

/-- Only the plugin files of a directory count. -/
private theorem current_eq_filter (files : Files) :
    current compile files = (files.keys.filter (·.isWasm = true)).val.filterMap
      (entryOf compile files) := by
  rw [Finset.filter_val, Multiset.filterMap_filter, current]
  congr 1
  funext fileName
  split
  · rfl
  · rename_i hwasm
    exact entryOf_of_not_wasm (Bool.eq_false_iff.mpr hwasm) files

/-- The plugins of a directory depend on the plugin files only. -/
theorem current_eq_of_wasm {files files' : Files}
    (h : ∀ fileName, fileName.isWasm = true → files'.lookup fileName = files.lookup fileName) :
    current compile files' = current compile files := by
  have hkeys : files'.keys.filter (·.isWasm = true) = files.keys.filter (·.isWasm = true) := by
    ext fileName
    simp only [Finset.mem_filter, Finmap.mem_keys, ← Finmap.lookup_isSome]
    exact and_congr_left fun hwasm => by rw [h fileName hwasm]
  rw [current_eq_filter, current_eq_filter, hkeys, entryOf_eq_of_wasm h]

/-- A change that no plugin is concerned by. -/
theorem UpToDate.of_same (h : UpToDate compile w) {files : Files}
    (hsame : ∀ fileName, fileName.isWasm = true → files.lookup fileName = w.files.lookup fileName)
    (undelivered : List Event) : UpToDate compile { w with files, undelivered } := by
  -- the registry depends on the module files only
  have hcurrent : ∀ modules : List (PluginModule M),
      Loaded compile files modules ↔ Loaded compile w.files modules := fun modules => by
    rw [Loaded, Loaded, current_eq_of_wasm hsame]
  have hsound : ∀ load : LoadAll M, load.Sound compile files ↔ load.Sound compile w.files :=
    fun load => by rw [LoadAll.Sound, LoadAll.Sound, hcurrent, entryOf_eq_of_wasm hsame]
  unfold UpToDate at h ⊢
  dsimp only
  cases hphase : w.phase with
  | new => trivial
  | stopped => trivial
  | draining => trivial
  | starting load =>
    rw [hphase] at h
    exact fun hmissed => (hsound load).mpr (h hmissed)
  | unwatched =>
    rw [hphase] at h
    exact fun hmissed hcomplete => (hcurrent _).mpr (h hmissed hcomplete)
  | waiting =>
    rw [hphase] at h
    exact fun hmissed hcomplete => (hcurrent _).mpr (h hmissed hcomplete)
  | loading load =>
    rw [hphase] at h
    exact (hsound load).mpr h

/-- A change of a watched directory is notified. -/
private theorem change_of_watched (h : w.phase.isWatched = true) (path : FileName) (files : Files)
    (kind : EventKind) :
    w.change path files kind =
      { w with files, undelivered := w.undelivered ++ [⟨kind, [path]⟩] } := by
  unfold World.change
  cases hphase : w.phase <;> simp_all [Phase.isWatched]

/-- A change of a plugin in a watched directory is noticed. -/
private theorem noticed_change (hwatched : w.phase.isWatched = true) {path : FileName}
    (hwasm : path.isWasm = true) (files : Files) {kind : EventKind}
    (hkind : kind = .create ∨ kind = .modify ∨ kind = .remove) :
    Noticed (w.change path files kind) := by
  rw [change_of_watched hwatched]
  refine .inl ⟨⟨kind, [path]⟩, by simp, ?_⟩
  rcases hkind with rfl | rfl | rfl <;> simp [Event.relevant, hwasm]

/-- A change of an entry: in a watched directory it is noticed if it concerns a plugin, and
    before the watch it is missed. -/
theorem Inv.change (h : Inv compile w) (path : FileName) {files : Files} {kind : EventKind}
    (hkind : kind = .create ∨ kind = .modify ∨ kind = .remove)
    (hother : ∀ fileName, fileName ≠ path → files.lookup fileName = w.files.lookup fileName) :
    Inv compile (w.change path files kind) := by
  by_cases hwatched : w.phase.isWatched = true
  · -- while the watch is on, the change of a module file is noticed
    have hsilent : (w.change path files kind).phase.isWatched = false →
        (w.change path files kind).undelivered = [] ∧
          (w.change path files kind).channel = 0 := by
      rw [change_of_watched hwatched]
      intro hunwatched
      rw [hwatched] at hunwatched
      cases hunwatched
    refine ⟨?_, hsilent⟩
    cases hwasm : path.isWasm with
    | true => exact .inl (noticed_change hwatched hwasm files hkind)
    | false =>
      rw [change_of_watched hwatched]
      rcases h.fresh with (⟨e, he, hrelevant⟩ | hpending) | hcurrent
      · exact .inl (.inl ⟨e, List.mem_append_left _ he, hrelevant⟩)
      · exact .inl (.inr hpending)
      · refine .inr (hcurrent.of_same (fun fileName hname => hother fileName ?_) _)
        rintro rfl
        rw [hwasm] at hname
        cases hname
  · rw [Bool.not_eq_true] at hwatched
    have hsilent := h.silent hwatched
    have hcurrent := h.upToDate hwatched
    -- before that, another file changes nothing
    have hsame : path.isWasm = false → ∀ fileName : FileName, fileName.isWasm = true →
        files.lookup fileName = w.files.lookup fileName := by
      intro hwasm fileName hname
      refine hother fileName ?_
      rintro rfl
      rw [hwasm] at hname
      cases hname
    unfold World.change
    cases hphase : w.phase with
    | new => exact ⟨.inr (by simp [UpToDate]), fun _ => hsilent⟩
    | stopped => exact ⟨.inr (by simp [UpToDate]), fun _ => hsilent⟩
    | starting load =>
      refine ⟨.inr ?_, fun _ => hsilent⟩
      cases hwasm : path.isWasm with
      | true => simp [UpToDate]
      | false =>
        have hstill := hcurrent.of_same (hsame hwasm) w.undelivered
        simpa [UpToDate, hphase] using hstill
    | unwatched =>
      refine ⟨.inr ?_, fun _ => hsilent⟩
      cases hwasm : path.isWasm with
      | true => simp [UpToDate]
      | false =>
        have hstill := hcurrent.of_same (hsame hwasm) w.undelivered
        simpa [UpToDate, hphase] using hstill
    | waiting =>
      rw [hphase] at hwatched
      cases hwatched
    | draining =>
      rw [hphase] at hwatched
      cases hwatched
    | loading load =>
      rw [hphase] at hwatched
      cases hwatched

/-- A relevant event leaves a message in the channel, which is not empty when it is full. -/
private theorem channel_pos {event : Event} {channel : Nat}
    (h : event.relevant = true ∨ 0 < channel) :
    0 < if event.relevant && channel < capacity then channel + 1 else channel := by
  split
  · exact Nat.succ_pos _
  · rename_i hfull
    rcases h with hrelevant | hpos
    · rw [hrelevant, Bool.true_and, decide_eq_true_eq, capacity] at hfull
      omega
    · exact hpos

/-- The callback passes a relevant event on. -/
theorem Inv.deliver (h : Inv compile w) {event : Event} {undelivered : List Event}
    (hundelivered : w.undelivered = event :: undelivered) :
    Inv compile { w with
      undelivered
      channel :=
        if event.relevant && w.channel < capacity then w.channel + 1 else w.channel } := by
  refine ⟨?_, fun hunwatched => ?_⟩
  · rcases h.fresh with (⟨e, he, hrelevant⟩ | hchannel | hphase) | hcurrent
    · rw [hundelivered] at he
      -- he
      rcases List.mem_cons.mp he with rfl | he
      · exact .inl (.inr (.inl (channel_pos (.inl hrelevant))))
      · exact .inl (.inl ⟨e, he, hrelevant⟩)
    · exact .inl (.inr (.inl (channel_pos (.inr hchannel))))
    · exact .inl (.inr (.inr hphase))
    · exact .inr hcurrent
  · rw [(h.silent hunwatched).1] at hundelivered
    cases hundelivered

/-! ## Loads -/

/-- The directory is listed; files that change from here on are missed or notified. -/
private theorem sound_of_listing (files : Files) (listing : Listing files) :
    (⟨listing.val, [], false⟩ : LoadAll M).Sound compile files := by
  intro _
  rw [Loaded, List.nil_append, ← Multiset.filterMap_coe, listing.property]
  rfl

/-- The next entry is read as it is now. -/
theorem LoadAll.Sound.next {load : LoadAll M} {files : Files} (h : load.Sound compile files)
    (ok : Bool) : (load.next compile files ok).Sound compile files := by
  obtain ⟨entries, modules, readFailed⟩ := load
  -- the next file of the listing
  cases entries with
  | nil => exact h
  | cons fileName entries =>
    cases ok with
    | false =>
      intro hfailed
      cases hfailed
    | true =>
      intro hok
      have hloaded := h hok
      have hentry : loadEntry compile fileName (files.lookup fileName).join =
          entryOf compile files fileName := rfl
      simp only [LoadAll.next, if_true, hentry]
      simp only [List.filterMap_cons] at hloaded
      cases hload : entryOf compile files fileName with
      | none => simpa [hload] using hloaded
      | some m => simpa [hload] using hloaded

/-- Every step keeps the invariant. -/
theorem Inv.step (h : Inv compile w) (a : Action) : Inv compile (step compile w a) := by
  -- changes of the directory, then the steps of the process
  cases a with
  | write path contents =>
    refine h.change path ?_ fun fileName hne => Finmap.lookup_insert_of_ne _ hne
    split
    · exact .inr (.inl rfl)
    · exact .inl rfl
  | remove path =>
    simp only [PluginWatcher.step]
    split
    · exact h.change path (.inr (.inr rfl)) fun fileName hne => Finmap.lookup_erase_ne hne
    · exact h
  | notice event =>
    simp only [PluginWatcher.step]
    split
    · rename_i hwatched
      refine ⟨?_, fun hunwatched => ?_⟩
      · rcases h.fresh with (⟨e, he, hrelevant⟩ | hpending) | hcurrent
        · exact .inl (.inl ⟨e, List.mem_append_left _ he, hrelevant⟩)
        · exact .inl (.inr hpending)
        · exact .inr hcurrent
      · rw [show w.phase.isWatched = false from hunwatched] at hwatched
        cases hwatched
    · exact h
  | start listing =>
    simp only [PluginWatcher.step]
    split
    · rename_i order hphase
      refine ⟨.inr fun _ => sound_of_listing w.files (order w.files), fun _ => ?_⟩
      exact h.silent (by rw [hphase]; rfl)
    · rename_i hphase
      exact ⟨.inr trivial, fun _ => h.silent (by rw [hphase]; rfl)⟩
    · exact h
  | watch ok =>
    simp only [PluginWatcher.step]
    split
    · rename_i hphase
      have hunwatched : w.phase.isWatched = false := by rw [hphase]; rfl
      refine ⟨.inr ?_, fun _ => h.silent hunwatched⟩
      cases ok with
      | false => trivial
      | true =>
        -- the registry of the first load stays
        have hcurrent := h.upToDate hunwatched
        unfold UpToDate at hcurrent
        rw [hphase] at hcurrent
        exact hcurrent
    · exact h
  | deliver =>
    simp only [PluginWatcher.step]
    split
    · exact h
    · rename_i event undelivered hundelivered
      exact h.deliver hundelivered
  | recv =>
    simp only [PluginWatcher.step]
    split
    · -- the reload is yet to come
      exact ⟨.inl (.inr (.inr rfl)), fun hunwatched => by cases hunwatched⟩
    · exact h
  | drain =>
    simp only [PluginWatcher.step]
    split
    · rename_i hphase _
      refine ⟨.inl (.inr (.inr hphase)), fun hunwatched => ?_⟩
      rw [hphase] at hunwatched
      cases hunwatched
    · exact h
  -- the reload lists the directory as it is now
  | deadline listing =>
    simp only [PluginWatcher.step]
    split
    · rename_i order hphase
      exact ⟨.inr (sound_of_listing w.files (order w.files)),
        fun hunwatched => by cases hunwatched⟩
    · refine ⟨.inr fun _ hcomplete => ?_, fun hunwatched => by cases hunwatched⟩
      cases hcomplete
    · exact h
  | load ok =>
    simp only [PluginWatcher.step]
    split
    · rename_i load hphase
      have hunwatched : w.phase.isWatched = false := by rw [hphase]; rfl
      have hcurrent := h.upToDate hunwatched
      unfold UpToDate at hcurrent
      rw [hphase] at hcurrent
      exact ⟨.inr fun hmissed => LoadAll.Sound.next (hcurrent hmissed) ok,
        fun _ => h.silent hunwatched⟩
    · rename_i load hphase
      refine ⟨?_, fun hunwatched => by cases hunwatched⟩
      rcases h.fresh with hnoticed | hcurrent
      · exact .inl ((hnoticed.pending (by simp [hphase])).imp_right .inl)
      · unfold UpToDate at hcurrent
        rw [hphase] at hcurrent
        exact .inr (LoadAll.Sound.next hcurrent ok)
    · exact h
  | store =>
    simp only [PluginWatcher.step]
    split
    · rename_i plugins incomplete hphase
      have hunwatched : w.phase.isWatched = false := by rw [hphase]; rfl
      have hcurrent := h.upToDate hunwatched
      unfold UpToDate at hcurrent
      rw [hphase] at hcurrent
      refine ⟨.inr fun hmissed hcomplete => ?_, fun _ => h.silent hunwatched⟩
      simpa using hcurrent hmissed hcomplete
    · rename_i plugins incomplete hphase
      refine ⟨?_, fun hunwatched => by cases hunwatched⟩
      rcases h.fresh with hnoticed | hcurrent
      · exact .inl ((hnoticed.pending (by simp [hphase])).imp_right .inl)
      · refine .inr fun _ hcomplete => ?_
        unfold UpToDate at hcurrent
        rw [hphase] at hcurrent
        simpa using hcurrent hcomplete
    · exact h

theorem inv_run (h : Inv compile w) (actions : List Action) : Inv compile (run compile w actions) :=
  List.foldl_keeps actions w h fun _ a _ _ hpre => hpre.step a

/-! ## Quiet points -/

/-- Everything that was notified has been dealt with. -/
structure Quiet (w : World M) : Prop where
  waiting : w.phase = .waiting
  undelivered : w.undelivered = []
  channel : w.channel = 0

/-- When all is dealt with nothing is noticed. -/
theorem Quiet.not_noticed (h : Quiet w) : ¬ Noticed w := by
  rintro (⟨e, he, -⟩ | hchannel | hphase)
  · rw [h.undelivered] at he
    cases he
  · rw [h.channel] at hchannel
    omega
  · rw [h.waiting] at hphase
    cases hphase

/-- When all is dealt with the registry is that of the files. -/
theorem Inv.loaded (h : Inv compile w) (hquiet : Quiet w) (hmissed : w.missed = false)
    (hcomplete : w.incomplete = false) : Loaded compile w.files w.plugins := by
  have hcurrent := h.fresh.resolve_left hquiet.not_noticed
  unfold UpToDate at hcurrent
  rw [hquiet.waiting] at hcurrent
  exact hcurrent hmissed hcomplete

/-- A step of the watcher or of the runtime that does not fail. -/
def Action.isInternal : Action → Bool
  | .deliver | .recv | .drain | .deadline (some _) | .load true | .store => true
  | .write _ _ | .remove _ | .notice _ | .start _ | .watch _ | .deadline none | .load false => false

/-- `w'` is reached from `w` by steps of the watcher and the runtime. -/
def Reaches (compile : List UInt8 → Option M) (w w' : World M) : Prop :=
  ∃ actions : List Action, (∀ a ∈ actions, a.isInternal = true) ∧ run compile w actions = w'

theorem Reaches.refl (w : World M) : Reaches compile w w := ⟨[], by simp, rfl⟩

/-- One after the other. -/
theorem Reaches.trans {w₁ w₂ w₃ : World M} (h : Reaches compile w₁ w₂)
    (h' : Reaches compile w₂ w₃) : Reaches compile w₁ w₃ := by
  obtain ⟨actions, hinternal, rfl⟩ := h
  obtain ⟨actions', hinternal', rfl⟩ := h'
  refine ⟨actions ++ actions', fun a ha => ?_, List.foldl_append⟩
  rcases List.mem_append.mp ha with ha | ha
  · exact hinternal a ha
  · exact hinternal' a ha

/-- By one step of the task. -/
theorem Reaches.single (w : World M) {a : Action} (h : a.isInternal = true) :
    Reaches compile w (PluginWatcher.step compile w a) :=
  ⟨[a], by simp [h], rfl⟩

section

variable (compile)

/-- All notifications are delivered; one that is relevant fills the channel. -/
private theorem exists_delivered (w : World M) :
    ∃ w', Reaches compile w w' ∧ w'.undelivered = [] ∧ w'.phase = w.phase ∧ w'.files = w.files ∧
      w'.incomplete = w.incomplete ∧ w'.missed = w.missed ∧
      ((∃ event ∈ w.undelivered, event.relevant = true) ∨ 0 < w.channel → 0 < w'.channel) := by
  generalize hevents : w.undelivered = events
  -- the events are delivered one by one
  induction events generalizing w with
  | nil => exact ⟨w, .refl w, hevents, rfl, rfl, rfl, rfl, by simp⟩
  | cons event events ih =>
    let next := PluginWatcher.step compile w .deliver
    have hnext : next = { w with
        undelivered := events
        channel := if event.relevant && w.channel < capacity then w.channel + 1
          else w.channel } := by
      simp only [next, PluginWatcher.step, hevents]
    obtain ⟨w', hreach, hnone, hphase, hfiles, hcomplete, hmissed, hpos⟩ :=
      ih next (by rw [hnext])
    rw [hnext] at hphase hfiles hcomplete hmissed hpos
    refine ⟨w', (Reaches.single w rfl).trans hreach, hnone, hphase, hfiles, hcomplete, hmissed,
      fun h => hpos ?_⟩
    rcases h with ⟨e, he, hrelevant⟩ | hchannel
    · rcases List.mem_cons.mp he with rfl | he
      · exact .inr (channel_pos (.inl hrelevant))
      · exact .inl ⟨e, he, hrelevant⟩
    · exact .inr (channel_pos (.inr hchannel))

/-- A reload that has listed the directory comes to its end. -/
private theorem exists_stored {load : LoadAll M} (hphase : w.phase = .loading load) :
    ∃ w', Reaches compile w w' ∧ w'.phase = .waiting ∧ w'.undelivered = w.undelivered ∧
      w'.channel = w.channel ∧ w'.files = w.files ∧ w'.incomplete = load.readFailed ∧
      w'.missed = false := by
  obtain ⟨entries, modules, readFailed⟩ := load
  -- the files are loaded one by one, and then stored
  induction entries generalizing w modules with
  | nil =>
    refine ⟨_, Reaches.single w (a := .store) rfl, ?_⟩
    simp only [PluginWatcher.step, hphase, and_self]
  | cons fileName entries ih =>
    let next := PluginWatcher.step compile w (.load true)
    have hnext : next = { w with
        phase := .loading ⟨entries,
          modules ++ (loadEntry compile fileName (w.files.lookup fileName).join).toList,
          readFailed⟩ } := by
      simp only [next, PluginWatcher.step, hphase, LoadAll.next, if_true]
    obtain ⟨w', hreach, hw'⟩ := ih (w := next) _ (by rw [hnext])
    refine ⟨w', (Reaches.single w rfl).trans hreach, ?_⟩
    simpa [hnext] using hw'

/-- A burst of messages is drained. -/
private theorem exists_drained (hphase : w.phase = .draining) :
    ∃ w', Reaches compile w w' ∧ w'.phase = .draining ∧ w'.undelivered = w.undelivered ∧
      w'.channel = 0 ∧ w'.files = w.files := by
  generalize hchannel : w.channel = channel
  induction channel generalizing w with
  | zero => exact ⟨w, .refl w, hphase, rfl, hchannel, rfl⟩
  | succ channel ih =>
    -- one receive takes one message from the channel
    let next := PluginWatcher.step compile w .drain
    have hnext : next = { w with channel } := by
      simp only [next, PluginWatcher.step, hphase, hchannel]
    obtain ⟨w', hreach, hw'⟩ := ih (w := next) (by rw [hnext]; exact hphase) (by rw [hnext])
    refine ⟨w', (Reaches.single w rfl).trans hreach, ?_⟩
    simpa [hnext] using hw'

/-- Some listing of every directory. -/
private theorem exists_listing (files : Files) : Nonempty (Listing files) := by
  obtain ⟨l, hl⟩ := Quot.exists_rep files.keys.val
  exact ⟨⟨l, hl⟩⟩

/-- From the drained burst the task reloads and waits again. -/
private theorem exists_reloaded (hphase : w.phase = .draining) :
    ∃ w', Reaches compile w w' ∧ w'.phase = .waiting ∧ w'.undelivered = w.undelivered ∧
      w'.channel = 0 ∧ w'.files = w.files ∧ w'.incomplete = false ∧ w'.missed = false := by
  obtain ⟨drained, hreach, hdraining, hundelivered, hchannel, hfiles⟩ :=
    exists_drained compile hphase
  -- the files are listed in some order
  let order (files : Files) : Listing files := (exists_listing files).some
  let listed := PluginWatcher.step compile drained (.deadline (some order))
  have hlisted : listed =
      { drained with phase := .loading ⟨(order drained.files).val, [], false⟩ } := by
    simp only [listed, PluginWatcher.step, hdraining]
  obtain ⟨w', hreach', hwaiting, hundelivered', hchannel', hfiles', hcomplete, hmissed⟩ :=
    exists_stored compile (w := listed) (by rw [hlisted])
  rw [hlisted] at hundelivered' hchannel' hfiles'
  exact ⟨w', (hreach.trans (Reaches.single drained rfl)).trans hreach', hwaiting,
    hundelivered'.trans hundelivered, hchannel'.trans hchannel, hfiles'.trans hfiles, hcomplete,
    hmissed⟩

/-- The task comes back to its wait; what it does not drain stays in the channel. -/
private theorem exists_waiting (w : World M) (hwatched : w.phase.isWatched = true) :
    ∃ w', Reaches compile w w' ∧ w'.phase = .waiting ∧ w'.undelivered = w.undelivered ∧
      w'.files = w.files ∧ (w.phase ≠ .draining → w'.channel = w.channel) ∧
      (w.phase = .draining → w'.incomplete = false ∧ w'.missed = false) := by
  -- from each phase of the running watcher
  cases hphase : w.phase with
  | waiting => exact ⟨w, .refl w, hphase, rfl, rfl, fun _ => rfl, fun h => by cases h⟩
  | draining =>
    obtain ⟨w', hreach, hwaiting, hundelivered, -, hfiles, hdone⟩ := exists_reloaded compile hphase
    exact ⟨w', hreach, hwaiting, hundelivered, hfiles, fun h => absurd rfl h, fun _ => hdone⟩
  | loading load =>
    obtain ⟨w', hreach, hwaiting, hundelivered, hchannel, hfiles, -⟩ :=
      exists_stored compile hphase
    exact ⟨w', hreach, hwaiting, hundelivered, hfiles, fun _ => hchannel, fun h => by cases h⟩
  | new =>
    rw [hphase] at hwatched
    cases hwatched
  | starting load =>
    rw [hphase] at hwatched
    cases hwatched
  | unwatched =>
    rw [hphase] at hwatched
    cases hwatched
  | stopped =>
    rw [hphase] at hwatched
    cases hwatched

/-- Whatever was noticed leads to a complete reload and a quiet point, by steps of the watcher
    and the runtime alone. -/
theorem exists_quiet (hwatched : w.phase.isWatched = true) (h : Noticed w) :
    ∃ w', Reaches compile w w' ∧ Quiet w' ∧ w'.files = w.files ∧ w'.incomplete = false ∧
      w'.missed = false := by
  obtain ⟨waiting, hreach, hwaiting, hundelivered, hfiles, hchannel, hdone⟩ :=
    exists_waiting compile w hwatched
  obtain ⟨delivered, hreach', hnone, hphase, hfiles', hcomplete', hmissed', hpos⟩ :=
    exists_delivered compile waiting
  have hreach := hreach.trans hreach'
  have hfiles : delivered.files = w.files := hfiles'.trans hfiles
  rw [hwaiting] at hphase
  by_cases hzero : delivered.channel = 0
  · -- nothing is left, so the burst was the one whose reload is over now
    have hdraining : w.phase = .draining := by
      by_contra hne
      have hpending := h.pending hne
      rw [← hundelivered, ← hchannel hne] at hpending
      have := hpos hpending
      omega
    obtain ⟨hcomplete, hmissed⟩ := hdone hdraining
    exact ⟨delivered, hreach, ⟨hphase, hnone, hzero⟩, hfiles, hcomplete'.trans hcomplete,
      hmissed'.trans hmissed⟩
  · -- one more reload
    obtain ⟨channel, hsucc⟩ := Nat.exists_eq_succ_of_ne_zero hzero
    let received := PluginWatcher.step compile delivered .recv
    have hreceived : received = { delivered with phase := .draining, channel } := by
      simp only [received, PluginWatcher.step, hphase, hsucc]
    obtain ⟨w', hreach', hwaiting', hundelivered', hchannel', hfiles', hdone'⟩ :=
      exists_reloaded compile (w := received) (by rw [hreceived])
    rw [hreceived] at hundelivered' hfiles'
    exact ⟨w', (hreach.trans (Reaches.single delivered rfl)).trans hreach',
      ⟨hwaiting', hundelivered'.trans hnone, hchannel'⟩, hfiles'.trans hfiles, hdone'⟩

end

/-- In every run from before the first load on, with files that change at any time and reads and
    listings that fail: whenever everything is dealt with, no plugin changed unnoticed before the
    watch and the last load was complete, the registry has the plugins of the files as they are,
    each once; whenever something is noticed, the task gets there by itself; and once the
    directory is watched, every change of a plugin is noticed. -/
theorem reload_misses_nothing (compile : List UInt8 → Option M) (files : Files)
    (actions : List Action) :
    let w := run compile (initial files) actions
    (Quiet w → w.missed = false → w.incomplete = false → Loaded compile w.files w.plugins) ∧
      (Noticed w → ∃ w', Reaches compile w w' ∧ Quiet w' ∧ w'.files = w.files ∧
        Loaded compile w'.files w'.plugins) ∧
      (w.phase.isWatched = true → ∀ path : FileName, path.isWasm = true →
        (∀ contents, Noticed (step compile w (.write path contents))) ∧
          (path ∈ w.files → Noticed (step compile w (.remove path)))) := by
  have hinv : Inv compile (run compile (initial files) actions) :=
    inv_run (inv_initial files) actions
  refine ⟨hinv.loaded, fun hnoticed => ?_, fun hwatched path hwasm => ⟨fun contents => ?_, ?_⟩⟩
  · -- nothing is noticed before the watch is on
    have hwatched : (run compile (initial files) actions).phase.isWatched = true := by
      by_contra hunwatched
      exact hinv.not_noticed (Bool.eq_false_iff.mpr hunwatched) hnoticed
    obtain ⟨w', hreach, hquiet, hfiles, hcomplete, hmissed⟩ :=
      exists_quiet compile hwatched hnoticed
    obtain ⟨more, -, hmore⟩ := id hreach
    have hinv' := inv_run hinv more
    rw [hmore] at hinv'
    exact ⟨w', hreach, hquiet, hfiles, hinv'.loaded hquiet hmissed hcomplete⟩
  · -- a write is a change of what the name holds, or a new name
    refine noticed_change hwatched hwasm _ ?_
    split
    · exact .inr (.inl rfl)
    · exact .inl rfl
  · intro hmem
    simp only [PluginWatcher.step, if_pos hmem]
    exact noticed_change hwatched hwasm _ (.inr (.inr rfl))

/-- A plugin that is put into an empty directory between the first load and the watch stays out
    of the registry, with nothing left to do. -/
theorem written_before_watch (order : ∀ files : Files, Listing files) :
    let compile (bytes : List UInt8) : Option (List UInt8) := some bytes
    let w := run compile (initial ∅) [.start (some order), .store,
      .write (FileName.ofString "auth.wasm") (some [0]), .watch true]
    Quiet w ∧ w.incomplete = false ∧ ¬ Loaded compile w.files w.plugins := by
  intro compile w
  -- the first load finds an empty directory
  have hlisting : (order ∅).val = [] := by
    rw [← Multiset.coe_eq_zero, (order ∅).property]
    rfl
  -- and the file comes before the watch does
  have hw : w = { initial ∅ with
      files := (∅ : Files).insert (FileName.ofString "auth.wasm") (some [0])
      phase := .waiting
      missed := true } := by
    have hwasm : (FileName.ofString "auth.wasm").isWasm = true := by decide
    simp [w, run, step, initial, World.change, hlisting, hwasm]
  rw [hw]
  refine ⟨⟨rfl, rfl, rfl⟩, rfl, fun hloaded => ?_⟩
  revert hloaded
  unfold Loaded
  decide

end Barqium.Native.PluginWatcher
