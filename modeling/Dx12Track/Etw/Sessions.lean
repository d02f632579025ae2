import Dx12Track.Lib.Run
import Dx12Track.Lib.Table
import Dx12Track.Lib.Digits
import Dx12Track.Launcher.Arguments
import Mathlib.Logic.Function.Basic

/-!
# The ETW sessions of several launchers

A real-time session outlives its controller.  `StopStaleSessions` of
`src/etw/EtwMonitor.cpp` stops the sessions that a killed launcher has left behind: it
takes the list of all sessions, and for each one with the prefix of the launcher it
reads the process id out of the name, looks whether there is such a process, and stops
the session if there is none.  Between the look and the stop anything may happen.

Processes have serial numbers here, since their ids are used again.

* `sessionName`, `sessionPid` — the name of a session, and the id in it.
* `World`, `Act`, `World.step` — launchers that start, scan, stop and die.
* `stopStaleSessions` — **the scan** of the source, as steps of a launcher.
* `sessionPid_sessionName` — the id is read back.
* `session_kept_iff` — **the session of a running launcher is stopped by itself, or by one that
  looked before it was started**.
* `lookup_stopStaleSessions` — what a scan leaves that nothing interrupts.
-/

namespace Dx12Track.Etw

def kSessionPrefix : WString := wliteral "dx12track-etw-"

/-- `OwnSessionName`, of the process `pid`. -/
def sessionName (pid : ℕ) : WString := kSessionPrefix ++ toWString pid

/-- The process id in the name of a session, if it has the prefix. -/
def sessionPid (name : WString) : Option ℕ :=
  if kSessionPrefix <+: name then some (wcstoul (name.drop kSessionPrefix.length)).1 else none

/-- A session that is to be stopped by the process `own`; `alive` is `ProcessIsAlive`. -/
def isStale (own : ℕ) (alive : ℕ → Bool) (name : WString) : Bool :=
  match sessionPid name with
  | none => false
  | some pid => !(pid = own || (pid ≠ 0 && alive pid))

/-- How many sessions the scan has room for. -/
def kMax : ℕ := 128

/-- The sessions that the scan looks at: `QueryAllTraces` fails if there is no room for all. -/
def queryAllTraces (names : List WString) : List WString :=
  if names.length ≤ kMax then names else []

/-! ### The id in a name -/

/-- The id is read back. -/
theorem sessionPid_sessionName {pid : ℕ} (h : pid < 2 ^ 32) :
    sessionPid (sessionName pid) = some pid := by
  rw [sessionPid, sessionName, if_pos (List.prefix_append _ _), List.drop_left, wcstoul_toWString h]

/-! ### Launchers and their sessions -/

/-- The machine.  Processes have serial numbers; the session of a name has an owner, and a launcher
in `StopStaleSessions` has names before it. -/
structure World where
  /-- How many processes have been started. -/
  started : ℕ := 0
  /-- The process that runs under an id. -/
  running : ℕ → Option ℕ := fun _ => none
  /-- The process that has started the session of a name. -/
  sessions : Table WString ℕ := ∅
  /-- The names that the scan of a process has still to look at. -/
  scan : ℕ → List WString := fun _ => []
  /-- The name that a process has found stale, and how many processes had been started then. -/
  stale : ℕ → Option (WString × ℕ) := fun _ => none

/-- A step of the process with the id `pid`, which must be running. -/
inductive Act
  /-- A process is started under an id that is free. -/
  | spawn (pid : ℕ)
  | exit (pid : ℕ)
  /-- `QueryAllTraces`, with these sessions on the machine. -/
  | query (pid : ℕ) (names : List WString)
  /-- The look at the next name. -/
  | look (pid : ℕ)
  /-- `ControlTrace` stops the session that was found stale. -/
  | stopStale (pid : ℕ)
  /-- The session with the own name is stopped: before `StartTrace`, in `Stop` or in
  `EmergencyStop`. -/
  | stopOwn (pid : ℕ)
  /-- `StartTrace`, which fails if there is a session of the name. -/
  | start (pid : ℕ)

namespace World

def isRunning (w : World) (pid : ℕ) : Bool := (w.running pid).isSome

def step (w : World) : Act → World
  | .spawn pid =>
    if pid ≠ 0 ∧ pid < 2 ^ 32 ∧ w.running pid = none then
      { w with started := w.started + 1, running := Function.update w.running pid (some w.started) }
    else w
  | .exit pid => { w with running := Function.update w.running pid none }
  | .query pid names =>
    match w.running pid with
    | none => w
    | some i =>
      { w with
        scan := Function.update w.scan i (queryAllTraces names)
        stale := Function.update w.stale i none }
  | .look pid =>
    match w.running pid with
    | none => w
    | some i =>
      match w.scan i with
      | [] => w
      | name :: names =>
        { w with
          scan := Function.update w.scan i names
          stale := Function.update w.stale i
            (if isStale pid w.isRunning name then some (name, w.started) else none) }
  | .stopStale pid =>
    match w.running pid with
    | none => w
    | some i =>
      match w.stale i with
      | none => w
      | some (name, _) =>
        { w with sessions := w.sessions.erase name, stale := Function.update w.stale i none }
  | .stopOwn pid =>
    if w.isRunning pid then { w with sessions := w.sessions.erase (sessionName pid) } else w
  | .start pid =>
    match w.running pid with
    | none => w
    | some i =>
      if (w.sessions.lookup (sessionName pid)).isSome then w
      else { w with sessions := w.sessions.insert (sessionName pid) i }

def run (xs : List Act) : World := Machine.run step {} xs

/-- `StopStaleSessions` of the process `pid`, with nothing in between. -/
def stopStaleSessions (pid : ℕ) (names : List WString) : List Act :=
  .query pid names :: (queryAllTraces names).flatMap fun _ => [.look pid, .stopStale pid]

/-- **The invariant.**  A running process has a number that was given out, and what was found stale
is not the name of a process that has been running since. -/
structure Inv (w : World) : Prop where
  numbered : ∀ pid i, w.running pid = some i → i < w.started ∧ pid ≠ 0 ∧ pid < 2 ^ 32
  once : ∀ pid pid' i, w.running pid = some i → w.running pid' = some i → pid = pid'
  marker : ∀ i mark, w.stale i = some mark → i < w.started
  stale : ∀ i name looked, w.stale i = some (name, looked) → looked ≤ w.started ∧
    ∀ pid j, w.running pid = some j → sessionName pid = name → looked ≤ j

/-- A name that is found stale belongs to no running process. -/
theorem not_running_of_stale {w : World} (h : Inv w) {own : ℕ} {name : WString}
    (hstale : isStale own w.isRunning name = true) {pid j : ℕ} (hrun : w.running pid = some j) :
    sessionName pid ≠ name := by
  rintro rfl
  obtain ⟨-, hzero, hlt⟩ := h.numbered pid j hrun
  rw [isStale, sessionPid_sessionName hlt] at hstale
  simp [isRunning, hrun, hzero] at hstale

/-- A mark that is still there after one was cleared. -/
theorem mark_of_cleared {w : World} {i i' : ℕ} {mark : WString × ℕ}
    (h : Function.update w.stale i none i' = some mark) : w.stale i' = some mark := by
  rw [Function.update_apply] at h
  split at h
  · cases h
  · exact h

/-- A mark is cleared, the sessions and the scans change. -/
theorem Inv.forget {w : World} (h : Inv w) {sessions : Table WString ℕ} (scan : ℕ → List WString)
    (i : ℕ) :
    Inv { w with sessions := sessions, scan := scan, stale := Function.update w.stale i none } :=
  ⟨h.numbered, h.once, fun i' mark hs => h.marker i' mark (mark_of_cleared hs),
    fun i' name looked hs => h.stale i' name looked (mark_of_cleared hs)⟩

theorem inv_step {w : World} (h : Inv w) (a : Act) : Inv (w.step a) := by
  cases a with
  | spawn pid =>
    simp only [step]
    split
    · next hfree =>
      obtain ⟨hzero, hlt, hnone⟩ := hfree
      have hcases : ∀ pid' j, Function.update w.running pid (some w.started) pid' = some j →
          (pid' = pid ∧ j = w.started) ∨ (pid' ≠ pid ∧ w.running pid' = some j) := by
        intro pid' j hj
        rw [Function.update_apply] at hj
        split at hj
        · next heq => exact Or.inl ⟨heq, (Option.some.inj hj).symm⟩
        · next hne => exact Or.inr ⟨hne, hj⟩
      refine ⟨fun pid' j hj => ?_, fun p p' j hp hp' => ?_,
        fun i mark hs => Nat.lt_succ_of_lt (h.marker i mark hs), fun i name looked hs => ?_⟩
      · rcases hcases pid' j hj with ⟨rfl, rfl⟩ | ⟨-, hold⟩
        · exact ⟨Nat.lt_succ_self _, hzero, hlt⟩
        · obtain ⟨hj, hp⟩ := h.numbered pid' j hold
          exact ⟨Nat.lt_succ_of_lt hj, hp⟩
      · rcases hcases p j hp with ⟨rfl, rfl⟩ | ⟨-, hold⟩
        · rcases hcases p' w.started hp' with ⟨rfl, -⟩ | ⟨-, hold'⟩
          · rfl
          · exact absurd (h.numbered p' _ hold').1 (Nat.lt_irrefl _)
        · rcases hcases p' j hp' with ⟨rfl, rfl⟩ | ⟨-, hold'⟩
          · exact absurd (h.numbered p _ hold).1 (Nat.lt_irrefl _)
          · exact h.once p p' j hold hold'
      · obtain ⟨hle, hnew⟩ := h.stale i name looked hs
        refine ⟨Nat.le_succ_of_le hle, fun pid' j hj hname => ?_⟩
        rcases hcases pid' j hj with ⟨rfl, rfl⟩ | ⟨-, hold⟩
        · exact hle
        · exact hnew pid' j hold hname
    · exact h
  | exit pid =>
    have hold : ∀ pid' j, Function.update w.running pid none pid' = some j →
        w.running pid' = some j := by
      intro pid' j hj
      rw [Function.update_apply] at hj
      split at hj
      · cases hj
      · exact hj
    refine ⟨fun p j hj => h.numbered p j (hold p j hj),
      fun p p' j hp hp' => h.once p p' j (hold p j hp) (hold p' j hp'), h.marker,
      fun i name looked hs => ?_⟩
    obtain ⟨hle, hnew⟩ := h.stale i name looked hs
    exact ⟨hle, fun p j hj => hnew p j (hold p j hj)⟩
  | query pid names =>
    simp only [step]
    split
    · exact h
    · exact h.forget _ _
  | look pid =>
    simp only [step]
    split
    · exact h
    · next i hi =>
      split
      · exact h
      · next name names _ =>
        refine ⟨h.numbered, h.once, fun i' mark hs => ?_, fun i' name' looked hs => ?_⟩
        · dsimp only at hs
          rw [Function.update_apply] at hs
          split at hs
          · next heq =>
            subst heq
            exact (h.numbered pid i' hi).1
          · exact h.marker i' mark hs
        dsimp only at hs
        rw [Function.update_apply] at hs
        split at hs
        · split at hs
          · next hstale =>
            cases hs
            exact ⟨Nat.le_refl _, fun p j hj hname =>
              absurd hname (not_running_of_stale h hstale hj)⟩
          · cases hs
        · exact h.stale i' name' looked hs
  | stopStale pid =>
    simp only [step]
    split
    · exact h
    · split
      · exact h
      · exact h.forget _ _
  | stopOwn pid =>
    simp only [step]
    split
    · exact ⟨h.numbered, h.once, h.marker, h.stale⟩
    · exact h
  | start pid =>
    simp only [step]
    split
    · exact h
    · split
      · exact h
      · exact ⟨h.numbered, h.once, h.marker, h.stale⟩

theorem inv_run (xs : List Act) : Inv (run xs) := by
  induction xs using List.reverseRecOn with
  | nil => exact ⟨nofun, nofun, nofun, nofun⟩
  | append_singleton xs a ih =>
    rw [run, Machine.run_concat]
    exact inv_step ih a

/-! ### The session of a running launcher -/

/-- The process `j` runs as `pid` and has its session, and no process is about to stop it. -/
structure Holds (pid j : ℕ) (w : World) : Prop where
  running : w.running pid = some j
  session : w.sessions.lookup (sessionName pid) = some j
  clear : ∀ pid' i looked, w.running pid' = some i → w.stale i ≠ some (sessionName pid, looked)

theorem sessionName_inj {pid pid' : ℕ} (h : pid < 2 ^ 32) (h' : pid' < 2 ^ 32)
    (heq : sessionName pid = sessionName pid') : pid = pid' := by
  have hread := congrArg sessionPid heq
  rw [sessionPid_sessionName h, sessionPid_sessionName h'] at hread
  exact Option.some.inj hread

theorem holds_step {w : World} (h : Inv w) {pid j : ℕ} (hold : Holds pid j w) {a : Act}
    (hstop : a ≠ .stopOwn pid) (hexit : a ≠ .exit pid) : Holds pid j (w.step a) := by
  obtain ⟨-, hzero, hlt⟩ := h.numbered pid j hold.running
  cases a with
  | spawn pid' =>
    simp only [step]
    split
    · next hfree =>
      have hne : pid ≠ pid' := by
        rintro rfl
        rw [hold.running] at hfree
        cases hfree.2.2
      refine ⟨(Function.update_of_ne hne _ _).trans hold.running, hold.session,
        fun p i looked hp hs => ?_⟩
      dsimp only at hp
      rw [Function.update_apply] at hp
      split at hp
      · -- a new process has found nothing yet
        cases hp
        exact Nat.lt_irrefl _ (h.marker _ _ hs)
      · exact hold.clear p i looked hp hs
    · exact hold
  | exit pid' =>
    have hne : pid ≠ pid' := by
      rintro rfl
      exact hexit rfl
    refine ⟨(Function.update_of_ne hne _ _).trans hold.running, hold.session,
      fun p i looked hp => ?_⟩
    dsimp only [step] at hp
    rw [Function.update_apply] at hp
    split at hp
    · cases hp
    · exact hold.clear p i looked hp
  | query pid' names =>
    simp only [step]
    split
    · exact hold
    · exact ⟨hold.running, hold.session, fun p i' looked hp hs =>
        hold.clear p i' looked hp (mark_of_cleared hs)⟩
  | look pid' =>
    simp only [step]
    split
    · exact hold
    · split
      · exact hold
      · next name names _ =>
        refine ⟨hold.running, hold.session, fun p i looked hp hs => ?_⟩
        dsimp only at hs
        rw [Function.update_apply] at hs
        split at hs
        · split at hs
          · next hstale =>
            cases hs
            exact not_running_of_stale h hstale hold.running rfl
          · cases hs
        · exact hold.clear p i looked hp hs
  | stopStale pid' =>
    simp only [step]
    split
    · exact hold
    · next i hi =>
      split
      · exact hold
      · next name looked hs =>
        have hne : sessionName pid ≠ name := by
          rintro rfl
          exact hold.clear pid' i looked hi hs
        refine ⟨hold.running, ?_, fun p i' looked' hp hs' =>
          hold.clear p i' looked' hp (mark_of_cleared hs')⟩
        show (w.sessions.erase name).lookup (sessionName pid) = some j
        rw [Finmap.lookup_erase_ne hne]
        exact hold.session
  | stopOwn pid' =>
    simp only [step]
    split
    · next hrun =>
      obtain ⟨i, hi⟩ := Option.isSome_iff_exists.mp hrun
      have hne : sessionName pid ≠ sessionName pid' := by
        intro heq
        rw [sessionName_inj hlt (h.numbered pid' i hi).2.2 heq] at hstop
        exact hstop rfl
      refine ⟨hold.running, ?_, hold.clear⟩
      show (w.sessions.erase (sessionName pid')).lookup (sessionName pid) = some j
      rw [Finmap.lookup_erase_ne hne]
      exact hold.session
    · exact hold
  | start pid' =>
    simp only [step]
    split
    · exact hold
    · next i hi =>
      split
      · exact hold
      · next hnone =>
        have hne : sessionName pid ≠ sessionName pid' := by
          intro heq
          rw [← heq, hold.session] at hnone
          exact hnone rfl
        refine ⟨hold.running, ?_, hold.clear⟩
        show (w.sessions.insert (sessionName pid') i).lookup (sessionName pid) = some j
        rw [Finmap.lookup_insert_of_ne _ hne]
        exact hold.session

/-- **When the session of a running launcher is safe.**  Whatever the launchers on the machine do,
and in whatever order, the session of `j` lives until `j` stops it or ends, exactly if no process
that runs now has found it stale: such a process looked before `j` was started. -/
theorem session_kept_iff (xs : List Act) {pid j : ℕ} (hrun : (run xs).running pid = some j)
    (hsession : (run xs).sessions.lookup (sessionName pid) = some j) :
    ((∀ ys : List Act, (∀ a ∈ ys, a ≠ .stopOwn pid ∧ a ≠ .exit pid) →
        (run (xs ++ ys)).sessions.lookup (sessionName pid) = some j) ↔
      ∀ pid' i looked, (run xs).running pid' = some i →
        (run xs).stale i ≠ some (sessionName pid, looked)) ∧
    ∀ i looked, (run xs).stale i = some (sessionName pid, looked) → looked ≤ j := by
  refine ⟨⟨fun hall pid' i looked hi hs => ?_, fun hclear ys hys => ?_⟩, fun i looked hs => ?_⟩
  · -- the process that has found it stale stops it
    have hgone := hall [.stopStale pid'] (by simp)
    rw [run, Machine.run_concat] at hgone
    change ((run xs).step (.stopStale pid')).sessions.lookup (sessionName pid) = some j at hgone
    simp only [step, hi, hs, Finmap.lookup_erase] at hgone
    cases hgone
  · have hholds : ∀ ys : List Act, (∀ a ∈ ys, a ≠ .stopOwn pid ∧ a ≠ .exit pid) →
        Holds pid j (run (xs ++ ys)) := by
      intro ys
      induction ys using List.reverseRecOn with
      | nil =>
        intro _
        rw [List.append_nil]
        exact ⟨hrun, hsession, hclear⟩
      | append_singleton ys a ih =>
        intro hys
        have ih := ih fun b hb => hys b (List.mem_append_left _ hb)
        obtain ⟨hstop, hexit⟩ := hys a (by simp)
        rw [← List.append_assoc, run, Machine.run_concat]
        exact holds_step (inv_run _) ih hstop hexit
    exact (hholds ys hys).session
  · exact ((inv_run xs).stale i _ looked hs).2 pid j hrun rfl

/-- A launcher starts and has its session; another launcher then scans. -/
def twoLaunchers : List Act :=
  [.spawn 7, .query 7 [], .stopOwn 7, .start 7, .spawn 9]

theorem session_kept_iff_twoLaunchers :
    (∀ ys : List Act, (∀ a ∈ ys, a ≠ .stopOwn 7 ∧ a ≠ .exit 7) →
        (run (twoLaunchers ++ ys)).sessions.lookup (sessionName 7) = some 0) ↔
      ∀ pid' i looked, (run twoLaunchers).running pid' = some i →
        (run twoLaunchers).stale i ≠ some (sessionName 7, looked) :=
  (session_kept_iff twoLaunchers (by decide) (by decide)).1

/-! ### A scan that nothing interrupts -/

/-- One name of the scan: if it is stale, its session is stopped. -/
theorem lookup_look {w : World} {pid i : ℕ} (hrun : w.running pid = some i) {name : WString}
    {names : List WString} (hscan : w.scan i = name :: names) :
    ((w.step (.look pid)).step (.stopStale pid)).running = w.running ∧
      ((w.step (.look pid)).step (.stopStale pid)).scan i = names ∧
      ∀ n, ((w.step (.look pid)).step (.stopStale pid)).sessions.lookup n =
        if n = name ∧ isStale pid w.isRunning name = true then none else w.sessions.lookup n := by
  have hlook : w.step (.look pid) =
      { w with
        scan := Function.update w.scan i names
        stale := Function.update w.stale i
          (if isStale pid w.isRunning name then some (name, w.started) else none) } := by
    simp only [step, hrun, hscan]
  rw [hlook]
  by_cases hstale : isStale pid w.isRunning name = true
  · simp only [step, hrun, hstale, if_true, Function.update_self]
    refine ⟨trivial, trivial, fun n => ?_⟩
    by_cases hn : n = name
    · rw [if_pos ⟨hn, trivial⟩, hn, Finmap.lookup_erase]
    · rw [if_neg fun h => hn h.1, Finmap.lookup_erase_ne hn]
  · simp only [step, hrun, hstale, Function.update_self]
    exact ⟨by simp, by simp, fun n => by simp⟩

theorem lookup_scan {pid i : ℕ} (names : List WString) {w : World} (hrun : w.running pid = some i)
    (hscan : w.scan i = names) (n : WString) :
    (Machine.run step w (names.flatMap fun _ => [.look pid, .stopStale pid])).sessions.lookup n =
      if n ∈ names ∧ isStale pid w.isRunning n = true then none else w.sessions.lookup n := by
  induction names generalizing w with
  | nil => simp
  | cons name names ih =>
    obtain ⟨hrunning, hrest, hlookup⟩ := lookup_look hrun hscan
    have halive : ((w.step (.look pid)).step (.stopStale pid)).isRunning = w.isRunning := by
      funext p
      rw [isRunning, isRunning, hrunning]
    rw [List.flatMap_cons]
    show (Machine.run step ((w.step (.look pid)).step (.stopStale pid))
      (names.flatMap fun _ => [.look pid, .stopStale pid])).sessions.lookup n = _
    rw [ih (by rw [hrunning]; exact hrun) hrest, halive, hlookup]
    by_cases hstale : isStale pid w.isRunning n = true
    · by_cases hn : n = name
      · subst hn
        simp [hstale]
      · simp [hstale, hn]
    · by_cases hn : n = name
      · subst hn
        simp [hstale]
      · simp [hstale, hn]

/-- **What a scan leaves**: with at most `kMax` sessions on the machine, exactly the stale ones are
gone; with more, none is. -/
theorem lookup_stopStaleSessions {w : World} {pid i : ℕ} (hrun : w.running pid = some i)
    (names : List WString) (n : WString) :
    (Machine.run step w (stopStaleSessions pid names)).sessions.lookup n =
      if names.length ≤ kMax ∧ n ∈ names ∧ isStale pid w.isRunning n = true then none
      else w.sessions.lookup n := by
  obtain ⟨v, hv, hrunning, hsessions, hscan⟩ : ∃ v, w.step (.query pid names) = v ∧
      v.running = w.running ∧ v.sessions = w.sessions ∧ v.scan i = queryAllTraces names := by
    refine ⟨_, rfl, ?_⟩
    simp [step, hrun]
  have halive : v.isRunning = w.isRunning := by
    funext p
    rw [isRunning, isRunning, hrunning]
  rw [stopStaleSessions, Machine.run_cons, hv, lookup_scan _ (by rw [hrunning]; exact hrun) hscan,
    halive, hsessions]
  have hmem : n ∈ queryAllTraces names ↔ names.length ≤ kMax ∧ n ∈ names := by
    unfold queryAllTraces
    split
    · next hle => simp [hle]
    · next hgt => simp [hgt]
  simp only [hmem, and_assoc]

/-- A launcher is killed, and the next one finds its session. -/
def leftBehind : List Act := [.spawn 7, .start 7, .exit 7, .spawn 9]

theorem lookup_stopStaleSessions_leftBehind :
    (run leftBehind).sessions.lookup (sessionName 7) = some 0 ∧
      (Machine.run step (run leftBehind) (stopStaleSessions 9 [sessionName 7])).sessions.lookup
        (sessionName 7) = none := by
  refine ⟨by decide, ?_⟩
  rw [lookup_stopStaleSessions (show (run leftBehind).running 9 = some 1 by decide)]
  decide

end World

end Dx12Track.Etw
