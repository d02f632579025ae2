import Mathlib.Data.Fintype.Basic
import Mathlib.Data.List.Basic
import Dx12Track.Lib.Run

/-!
# The JSON log on many threads

Hooks, loader notifications and the exported functions run on any thread.  Only
the writing of one line and the opening and closing of the file are under the
log's lock; a time stamp is read before it, and so is the test whether there is a
file at all.  Here a thread has a list of what it still has to do, in the words of
the source, and the threads take turns in any order.

* `LogEvent`, `Line`, `LogFile` — the log, as far as the order of its lines goes.
* `Dll` — the globals of `src/dll` that the log depends on.
* `LogAct`, `Dll.exec` — what a thread does without being interrupted.
* `LogCall`, `LogCall.acts` — the functions, as lists of such actions.
* `LogWorld`, `LogMove`, `LogWorld.move` — threads and their steps.
-/

namespace Dx12Track

/-! ### Lines and files -/

/-- A module in memory: its base, and which of all loads brought it there. -/
structure Load where
  base : ℕ
  serial : ℕ
  deriving DecidableEq

/-- A record of the log. -/
inductive LogEvent
  | hello
  | goodbye
  /-- The modules in which the addresses of its stack can lie, if it has one. -/
  | created (stack : Option (List Load))
  | renamed
  | destroyed
  /-- What was found at the base, when the record was made. -/
  | moduleLoaded (base : ℕ) (found : Option Load)
  | moduleUnloaded (base : ℕ)
  | residencyPriority
  | diag
  deriving DecidableEq

structure Line where
  tsNs : ℕ
  event : LogEvent
  deriving DecidableEq

/-- A file that was opened: which one, whether by `StartLogging(…, TRUE)`, and its lines. -/
structure LogFile where
  number : ℕ
  withStacks : Bool
  lines : List Line
  deriving DecidableEq

/-! ### The globals -/

structure Dll where
  /-- The clock, in nanoseconds since the DLL was attached. -/
  clock : ℕ := 0
  /-- `file_`, when it is a valid handle. -/
  file : Option LogFile := none
  /-- The files that were closed. -/
  closed : List LogFile := []
  /-- How many files were opened. -/
  opened : ℕ := 0
  /-- `g_capture_callstacks`. -/
  captureCallstacks : Bool := false
  /-- `g_started`. -/
  started : Bool := false
  /-- `OnLdrNotification` is registered. -/
  registered : Bool := false
  /-- The modules of the process. -/
  loaded : List Load := []
  /-- How many loads there were. -/
  loads : ℕ := 0

namespace Dll

/-- Every file, the open one last. -/
def files (d : Dll) : List LogFile := d.closed ++ d.file.toList

/-- `CloseHandle(file_)`. -/
def closeFile (d : Dll) : Dll := { d with file := none, closed := d.files }

/-- `JsonLog::Open`; `ok` is whether the file could be created. -/
def openFile (d : Dll) (withStacks ok : Bool) : Dll :=
  let d := d.closeFile
  if ok then { d with file := some ⟨d.opened + 1, withStacks, []⟩, opened := d.opened + 1 } else d

/-- `JsonLog::WriteLineLocked`. -/
def writeLine (d : Dll) (l : Line) : Dll :=
  { d with file := d.file.map fun f => { f with lines := f.lines ++ [l] } }

/-- The module at a base. -/
def moduleAt (d : Dll) (base : ℕ) : Option Load := d.loaded.find? fun m => m.base = base

end Dll

/-! ### Actions -/

/-- What a thread does without being interrupted. -/
inductive LogAct
  /-- A `Create*` hook captures the stack, if it is to. -/
  | capture
  /-- `NowNs()`, the last argument of `Append` to be computed. -/
  | emit (e : LogEvent)
  /-- `Append` up to the lock: nothing is done without a file.  `none` is the stamp 0 of a caller
  that does not ask the clock. -/
  | append (stamp : Option ℕ) (e : LogEvent)
  /-- `Append` under the lock. -/
  | write (stamp : Option ℕ) (e : LogEvent)
  | setCapture (b : Bool)
  | openLog (withStacks ok : Bool)
  /-- `JsonLog::Close`, called by `OnDetach` or by `StopLogging`. -/
  | closeLog (detaching : Bool)
  /-- `if (g_capture_callstacks) StartModuleTracking();` -/
  | trackModules
  /-- `g_started.exchange(true)`. -/
  | startTracking
  /-- `EnumProcessModules`. -/
  | enumerate
  /-- `EmitModuleLoaded` makes its record. -/
  | inspect (base : ℕ)
  | register
  | unregister
  /-- The loader brings a module in, and notifies. -/
  | load (base : ℕ)
  | unload (base : ℕ)
  deriving DecidableEq

/-- The length of `buf` in `EnumerateExistingModules`. -/
def maxModules : ℕ := 1024

/-- What an action does, and what the thread has to do next. -/
def Dll.exec (d : Dll) : LogAct → Dll × List LogAct
  | .capture =>
    (d, [.emit (.created (if d.captureCallstacks then some d.loaded else none))])
  | .emit e => (d, [.append (some d.clock) e])
  | .append stamp e => (d, if d.file.isSome then [.write stamp e] else [])
  | .write stamp e => (d.writeLine ⟨stamp.getD 0, e⟩, [])
  | .setCapture b => ({ d with captureCallstacks := b }, [])
  | .openLog withStacks ok => (d.openFile withStacks ok, [])
  | .closeLog _ => (d.closeFile, [])
  | .trackModules => (d, if d.captureCallstacks then [.startTracking] else [])
  | .startTracking =>
    ({ d with started := true }, if d.started then [] else [.enumerate, .register])
  | .enumerate => (d, (d.loaded.take maxModules).map fun m => .inspect m.base)
  | .inspect base => (d, [.emit (.moduleLoaded base (d.moduleAt base))])
  | .register => ({ d with registered := true }, [])
  | .unregister => ({ d with registered := false }, [])
  | .load base =>
    if (d.moduleAt base).isSome then (d, [])
    else
      let m : Load := ⟨base, d.loads⟩
      ({ d with loaded := d.loaded ++ [m], loads := d.loads + 1 },
        if d.registered then [.emit (.moduleLoaded base (some m))] else [])
  | .unload base =>
    ({ d with loaded := d.loaded.filter fun m => m.base ≠ base },
      if d.registered then [.emit (.moduleUnloaded base)] else [])

/-- What an action can have as its consequence. -/
inductive Follows (d : Dll) : LogAct → LogAct → Prop
  | created (stack : Option (List Load)) : Follows d .capture (.emit (.created stack))
  | append (e : LogEvent) : Follows d (.emit e) (.append (some d.clock) e)
  | write (stamp : Option ℕ) (e : LogEvent) (hopen : d.file.isSome) :
    Follows d (.append stamp e) (.write stamp e)
  | startTracking : Follows d .trackModules .startTracking
  | enumerate : Follows d .startTracking .enumerate
  | register : Follows d .startTracking .register
  | inspect (base : ℕ) : Follows d .enumerate (.inspect base)
  | inspected (base : ℕ) (m : Option Load) :
    Follows d (.inspect base) (.emit (.moduleLoaded base m))
  | loaded (base : ℕ) (m : Option Load) : Follows d (.load base) (.emit (.moduleLoaded base m))
  | unloaded (base : ℕ) : Follows d (.unload base) (.emit (.moduleUnloaded base))

theorem Dll.follows_of_mem {d : Dll} {a b : LogAct} (hb : b ∈ (d.exec a).2) : Follows d a b := by
  have hite : ∀ {c : Prop} [Decidable c] {x : LogAct}, b ∈ (if c then [x] else []) → c ∧ b = x := by
    intro c _ x hb
    split at hb
    · next hc => exact ⟨hc, List.mem_singleton.mp hb⟩
    · cases hb
  cases a with
  | capture =>
    obtain rfl := List.mem_singleton.mp hb
    exact .created _
  | emit e =>
    obtain rfl := List.mem_singleton.mp hb
    exact .append e
  | append stamp e =>
    obtain ⟨hopen, rfl⟩ := hite hb
    exact .write stamp e hopen
  | trackModules =>
    obtain ⟨-, rfl⟩ := hite hb
    exact .startTracking
  | startTracking =>
    have hb : b ∈ (if d.started then [] else [LogAct.enumerate, .register]) := hb
    split at hb
    · cases hb
    · rcases List.mem_cons.mp hb with rfl | hb
      · exact .enumerate
      · obtain rfl := List.mem_singleton.mp hb
        exact .register
  | enumerate =>
    obtain ⟨m, -, rfl⟩ := List.mem_map.mp hb
    exact .inspect m.base
  | inspect base =>
    obtain rfl := List.mem_singleton.mp hb
    exact .inspected base _
  | load base =>
    unfold Dll.exec at hb
    dsimp only at hb
    split at hb
    · cases hb
    · obtain ⟨-, rfl⟩ := hite hb
      exact .loaded base _
  | unload base =>
    obtain ⟨-, rfl⟩ := hite hb
    exact .unloaded base
  | write stamp e => cases hb
  | setCapture b => cases hb
  | openLog withStacks ok => cases hb
  | closeLog detaching => cases hb
  | register => cases hb
  | unregister => cases hb

/-! ### Functions -/

/-- A function that some thread calls. -/
inductive LogCall
  /-- `OnAttach`, with a path for the log, and whether the file can be created, or without; with
  `DX12TRACK_CALLSTACKS` set or not; and how many diagnostics `InstallExportHooks` and `OnAttach`
  report, which are none if it is not verbose. -/
  | attach (path : Option Bool) (callstacks : Bool) (diags : ℕ)
  | detach
  /-- `Dx12Track_StartLogging`, and whether the file can be created. -/
  | startLogging (captureCallstacks ok : Bool)
  | stopLogging
  /-- A hook reports a new object. -/
  | create
  | rename
  | release
  | setPriority
  /-- `DiagF`, when it is verbose. -/
  | diagF
  | loadModule (base : ℕ)
  | unloadModule (base : ℕ)
  deriving DecidableEq

/-- `SendHello`, and `SendHelloToLog`: `ts_ns` is 0. -/
def sendHello : List LogAct := [.append none .hello]

/-- The first diagnostic comes before the modules. -/
def onAttach (path : Option Bool) (callstacks : Bool) (diags : ℕ) : List LogAct :=
  .setCapture callstacks :: (path.toList.map fun ok => .openLog false ok) ++ sendHello ++
    List.replicate (min diags 1) (.emit .diag) ++ [.trackModules] ++
      List.replicate (diags - 1) (.emit .diag)

/-- `RemoveAllHooks` leaves the log alone. -/
def onDetach : List LogAct := [.append none .goodbye, .unregister, .closeLog true]

/-- `Dx12Track_StartLogging`. -/
def dx12TrackStartLogging (captureCallstacks ok : Bool) : List LogAct :=
  .setCapture captureCallstacks :: .openLog captureCallstacks ok ::
    if ok then sendHello ++ [.trackModules] else []

/-- `Dx12Track_StopLogging`. -/
def dx12TrackStopLogging : List LogAct := [.closeLog false]

def LogCall.acts : LogCall → List LogAct
  | .attach path callstacks diags => onAttach path callstacks diags
  | .detach => onDetach
  | .startLogging captureCallstacks ok => dx12TrackStartLogging captureCallstacks ok
  | .stopLogging => dx12TrackStopLogging
  | .create => [.capture]
  | .rename => [.emit .renamed]
  | .release => [.emit .destroyed]
  | .setPriority => [.emit .residencyPriority]
  | .diagF => [.emit .diag]
  | .loadModule base => [.load base]
  | .unloadModule base => [.unload base]

/-! ### Threads -/

/-- The process: the globals, and what each thread still has to do. -/
structure LogWorld (T : Type) where
  dll : Dll := {}
  todo : T → List LogAct := fun _ => []

inductive LogMove (T : Type)
  /-- A thread that is idle calls a function. -/
  | call (t : T) (c : LogCall)
  /-- It does the next thing. -/
  | step (t : T)
  /-- Time passes. -/
  | tick (ns : ℕ)

namespace LogWorld

variable {T : Type} [DecidableEq T]

/-- The process when the DLL is attached, with the modules at these bases. -/
def start (bases : List ℕ) : LogWorld T where
  dll := { loaded := bases.zipIdx.map fun x => ⟨x.1, x.2⟩, loads := bases.length }

def setTodo (w : LogWorld T) (t : T) (acts : List LogAct) : LogWorld T :=
  { w with todo := Function.update w.todo t acts }

/-- One move; one that is not possible changes nothing. -/
def move (w : LogWorld T) : LogMove T → LogWorld T
  | .call t c => if w.todo t = [] then w.setTodo t c.acts else w
  | .step t =>
    match w.todo t with
    | [] => w
    | a :: rest => setTodo { w with dll := (w.dll.exec a).1 } t ((w.dll.exec a).2 ++ rest)
  | .tick ns => { w with dll.clock := w.dll.clock + ns }

def run (bases : List ℕ) (xs : List (LogMove T)) : LogWorld T := Machine.run move (start bases) xs

/-- What the thread `t` does next. -/
def next (w : LogWorld T) (t : T) : Option LogAct := (w.todo t).head?

/-! ### What a move can do -/

inductive Moved (w : LogWorld T) : LogMove T → LogWorld T → Prop
  | stay (x : LogMove T) : Moved w x w
  | call (t : T) (c : LogCall) (hidle : w.todo t = []) : Moved w (.call t c) (w.setTodo t c.acts)
  | step (t : T) (a : LogAct) (rest : List LogAct) (hnext : w.todo t = a :: rest) :
    Moved w (.step t)
      (setTodo { w with dll := (w.dll.exec a).1 } t ((w.dll.exec a).2 ++ rest))
  | tick (ns : ℕ) : Moved w (.tick ns) { w with dll.clock := w.dll.clock + ns }

theorem moved (w : LogWorld T) (x : LogMove T) : Moved w x (w.move x) := by
  cases x with
  | call t c =>
    unfold move
    dsimp only
    split
    · next hidle => exact .call t c hidle
    · exact .stay _
  | step t =>
    unfold move
    dsimp only
    split
    · exact .stay _
    · next a rest hnext => exact .step t a rest hnext
  | tick ns => exact .tick ns

@[simp] theorem todo_setTodo_self (w : LogWorld T) (t : T) (acts : List LogAct) :
    (w.setTodo t acts).todo t = acts := Function.update_self ..

theorem todo_setTodo_of_ne (w : LogWorld T) {t t' : T} (h : t' ≠ t) (acts : List LogAct) :
    (w.setTodo t acts).todo t' = w.todo t' := Function.update_of_ne h ..

end LogWorld

/-! ### Files -/

namespace Dll

theorem files_closeFile (d : Dll) : d.closeFile.files = d.files := List.append_nil _

theorem files_openFile (d : Dll) (withStacks ok : Bool) :
    (d.openFile withStacks ok).files
      = d.files ++ if ok then [⟨d.opened + 1, withStacks, []⟩] else [] := by
  unfold openFile
  cases ok with
  | true => rfl
  | false => rfl

theorem writeLine_of_none {d : Dll} (h : d.file = none) (l : Line) : d.writeLine l = d := by
  cases d
  cases h
  rfl

/-- Only three actions touch the files. -/
theorem files_exec (d : Dll) {a : LogAct} (hopen : ∀ withStacks ok, a ≠ .openLog withStacks ok)
    (hclose : ∀ detaching, a ≠ .closeLog detaching) (hwrite : ∀ stamp e, a ≠ .write stamp e) :
    (d.exec a).1.files = d.files ∧ (d.exec a).1.file = d.file := by
  cases a with
  | write stamp e => exact absurd rfl (hwrite stamp e)
  | openLog withStacks ok => exact absurd rfl (hopen withStacks ok)
  | closeLog detaching => exact absurd rfl (hclose detaching)
  | load base =>
    unfold exec
    dsimp only
    split <;> exact ⟨rfl, rfl⟩
  | _ => exact ⟨rfl, rfl⟩

end Dll

end Dx12Track
