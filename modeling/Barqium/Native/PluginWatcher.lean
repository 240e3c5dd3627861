import Mathlib.Data.Finmap

/-!
# Hot reload of plugins

Model of `PluginRuntime::new`, `reload` and `load_all` in `crates/barqium-wasm/src/runtime.rs`
and of the task of `spawn_watcher` in `watcher.rs`, from the first listing of the directory on.
Its environment is the file system with its notifications, and the timer.

Listing the directory and reading each of the files are separate steps, between which files
may change, and so are the end of the first load and the start of the watch. File names are
bytes. A directory that does not exist lists as an empty one and cannot be watched; a watched
directory stays. Compiling a module is wasmtime's and stays a parameter.
-/

namespace Barqium.Native

/-! ## File names -/

/-- A file name as the file system has it. -/
abbrev FileName := List UInt8

namespace FileName

/-- The name that a text gives to a file. -/
def ofString (s : String) : FileName := s.toUTF8.data.toList

/-- `OsStr::to_str`; none unless the bytes are UTF-8. -/
def toStr (bytes : List UInt8) : Option String := String.fromUTF8? ⟨bytes.toArray⟩

/-- A file name around its last dot; a name that begins with its only dot is not cut. -/
def rsplitFileAtDot (fileName : FileName) : FileName × Option (List UInt8) :=
  let after := (fileName.reverse.takeWhile (· ≠ 46)).reverse
  let before := fileName.take (fileName.length - after.length - 1)
  if before = [] then (fileName, none) else (before, some after)

/-- `Path::extension`. -/
def extension (fileName : FileName) : Option (List UInt8) := (rsplitFileAtDot fileName).2

/-- `Path::file_stem`. -/
def fileStem (fileName : FileName) : List UInt8 := (rsplitFileAtDot fileName).1

def isWasm (fileName : FileName) : Bool := (extension fileName).bind toStr = some "wasm"

end FileName

/-- The entries of a directory: the contents of a file, none if there is no file behind the
    name that can be read. -/
abbrev Files := Finmap fun _ : FileName => Option (List UInt8)

/-- The entries of a directory in an order in which they may be listed. -/
def Listing (files : Files) : Type :=
  { l : List FileName // (l : Multiset FileName) = files.keys.val }

/-! ## The runtime -/

structure PluginModule (M : Type) where
  name : String
  module : M
  deriving Repr, DecidableEq

/-- What `load_all` makes of one entry: nothing of a file that is no plugin, that cannot be read
    or that does not compile. Names that are not UTF-8 are all called `unknown`. -/
def loadEntry {M : Type} (compile : List UInt8 → Option M) (fileName : FileName)
    (contents : Option (List UInt8)) : Option (PluginModule M) :=
  if fileName.isWasm then
    let name := (FileName.toStr fileName.fileStem).getD "unknown"
    (contents.bind compile).map fun module => ⟨name, module⟩
  else none

namespace PluginWatcher

/-! ## The watcher -/

inductive EventKind where
  | create
  | modify
  | remove
  | access
  | other
  deriving Repr, DecidableEq

/-- A notification of the file system, with the names of the files it is about. -/
structure Event where
  kind : EventKind
  paths : List FileName
  deriving Repr, DecidableEq

/-- The callback passes the event on. -/
def Event.relevant (event : Event) : Bool :=
  (event.kind = .create || event.kind = .modify || event.kind = .remove) &&
    event.paths.any FileName.isWasm

/-- The capacity of the channel from the callback to the task. -/
def capacity : Nat := 4

/-- Where `load_all` stands: the entries still to come, the modules so far, and whether the
    read of an entry has failed. -/
structure LoadAll (M : Type) where
  entries : List FileName
  modules : List (PluginModule M)
  readFailed : Bool
  deriving Repr, DecidableEq

/-- Where the process stands. -/
inductive Phase (M : Type) where
  /-- Before `PluginRuntime::new`. -/
  | new
  /-- In the `load_all` of `PluginRuntime::new`. -/
  | starting (load : LoadAll M)
  /-- There is a runtime, and the task of the watcher has not watched the directory yet. -/
  | unwatched
  /-- In `rx.recv()`, before a reload. -/
  | waiting
  /-- Draining the burst of events before the deadline. -/
  | draining
  /-- In the `load_all` of `reload`. -/
  | loading (load : LoadAll M)
  /-- There is no runtime, or the directory could not be watched and the task has returned. -/
  | stopped
  deriving Repr, DecidableEq

/-- Changes of the directory are notified. -/
def Phase.isWatched {M : Type} : Phase M → Bool
  | new | starting _ | unwatched | stopped => false
  | waiting | draining | loading _ => true

/-- The directory, the notifications, the channel, the task and the runtime. -/
structure World (M : Type) where
  files : Files
  /-- Notifications that the callback has not been called with yet. -/
  undelivered : List Event
  /-- The number of messages in the channel. -/
  channel : Nat
  phase : Phase M
  /-- The registry that requests load. -/
  plugins : List (PluginModule M)
  /-- The last load failed, or it left out an entry whose read failed. -/
  incomplete : Bool
  /-- A plugin changed after the first listing and before the watch, and there was no reload
      since. -/
  missed : Bool

/-- What can happen next. -/
inductive Action where
  | write (path : FileName) (contents : Option (List UInt8))
  | remove (path : FileName)
  /-- A notification that no change of a file stands behind. -/
  | notice (event : Event)
  /-- `PluginRuntime::new` lists the directory in some order, or fails to. -/
  | start (listing : Option (∀ files : Files, Listing files))
  /-- The task of the watcher begins to watch the directory, or cannot. -/
  | watch (ok : Bool)
  /-- The callback is called with the next notification. -/
  | deliver
  | recv
  | drain
  /-- The deadline passes and `load_all` lists the directory in some order, or fails to. -/
  | deadline (listing : Option (∀ files : Files, Listing files))
  /-- The next entry is read and compiled, or its read fails. -/
  | load (ok : Bool)
  /-- All entries are read, and the registry is made or swapped. -/
  | store

section

variable {M : Type} (compile : List UInt8 → Option M)

/-- `load_all` reads the next entry. -/
def LoadAll.next (load : LoadAll M) (files : Files) (ok : Bool) : LoadAll M :=
  match load.entries with
  | [] => load
  | fileName :: entries =>
    if ok then
      let module := loadEntry compile fileName (files.lookup fileName).join
      { load with entries, modules := load.modules ++ module.toList }
    else { load with entries, readFailed := true }

/-- The world after a change of an entry. -/
def World.change (w : World M) (path : FileName) (files : Files) (kind : EventKind) : World M :=
  match w.phase with
  | .new | .stopped => { w with files }
  | .starting _ | .unwatched => { w with files, missed := w.missed || path.isWasm }
  | .waiting | .draining | .loading _ =>
    { w with files, undelivered := w.undelivered ++ [⟨kind, [path]⟩] }

/-- One step. An action that is not possible in the current phase changes nothing. -/
def step (w : World M) : Action → World M
  | .write path contents =>
    w.change path (w.files.insert path contents) (if path ∈ w.files then .modify else .create)
  | .remove path =>
    if path ∈ w.files then w.change path (w.files.erase path) .remove else w
  | .notice event =>
    if w.phase.isWatched then { w with undelivered := w.undelivered ++ [event] } else w
  | .start listing =>
    match w.phase, listing with
    | .new, some order => { w with phase := .starting ⟨(order w.files).val, [], false⟩ }
    | .new, none => { w with phase := .stopped }
    | _, _ => w
  | .watch ok =>
    match w.phase with
    | .unwatched => { w with phase := if ok then .waiting else .stopped }
    | _ => w
  | .deliver =>
    match w.undelivered with
    | [] => w
    | event :: undelivered =>
      -- `try_send` drops the message when the channel is full
      let channel :=
        if event.relevant && w.channel < capacity then w.channel + 1 else w.channel
      { w with undelivered, channel }
  | .recv =>
    match w.phase, w.channel with
    | .waiting, channel + 1 => { w with phase := .draining, channel }
    | _, _ => w
  | .drain =>
    match w.phase, w.channel with
    | .draining, channel + 1 => { w with channel }
    | _, _ => w
  | .deadline listing =>
    match w.phase, listing with
    | .draining, some order => { w with phase := .loading ⟨(order w.files).val, [], false⟩ }
    | .draining, none => { w with phase := .waiting, incomplete := true }
    | _, _ => w
  | .load ok =>
    match w.phase with
    | .starting load => { w with phase := .starting (load.next compile w.files ok) }
    | .loading load => { w with phase := .loading (load.next compile w.files ok) }
    | _ => w
  | .store =>
    match w.phase with
    | .starting ⟨[], plugins, incomplete⟩ => { w with phase := .unwatched, plugins, incomplete }
    | .loading ⟨[], plugins, incomplete⟩ =>
      { w with phase := .waiting, plugins, incomplete, missed := false }
    | _ => w

/-- A directory before `PluginRuntime::new`. -/
def initial (files : Files) : World M where
  files := files
  undelivered := []
  channel := 0
  phase := .new
  plugins := []
  incomplete := false
  missed := false

/-- The world after a run. -/
def run (w : World M) (actions : List Action) : World M :=
  actions.foldl (step compile) w

end

end PluginWatcher

end Barqium.Native
