import Dx12Track.Etw.Sink
import Dx12Track.Lib.Run

/-!
# The ETW monitor

`Monitor` of `src/etw/EtwMonitor.cpp`.  The main thread starts a session and stops it; in
between a consumer thread is in `ProcessTrace`, out of which the sink is called.  The session
belongs to the system: every call that is about it may be refused, and others may stop it at any
time, as `EmergencyStop` does from the console's control handler.  `ProcessTrace` returns once the
session is stopped, or fails before.

* `Pc`, `Consumer`, `Monitor`, `Monitor.Act`, `Monitor.step` — the threads and their steps.
* `Seen`, `current` — what is seen of them, and the handler that may be called by then.
* `Shape`, `Inv` — **the invariant**.
* `monitor_run` — **what holds in every run**: who calls the sink when, what `Stop` leaves behind,
  and when it returns.
-/

namespace Dx12Track.Etw

/-! ### Threads and steps -/

/-- Where the main thread is: the statement of `Start` or `Stop` that it comes to next. -/
inductive Pc
  | idle
  | enableDxgk | enableD3D12 | openTrace | spawn
  /-- `Stop` stops the session, joins the consumer, closes the trace. -/
  | control | join | close
  /-- `std::thread` has thrown, and the process is gone. -/
  | terminated
  deriving DecidableEq

/-- Where the consumer thread is. -/
inductive Consumer
  /-- It is not joinable. -/
  | none
  | processing
  /-- `ProcessTrace` has returned. -/
  | completing
  | ended
  deriving DecidableEq

/-- What is seen of the monitor. -/
inductive Seen
  /-- `StartTraceW` has made a session. -/
  | traced
  /-- `Start` succeeds, with its handler. -/
  | started (handler : ℕ)
  | sink (handler : ℕ)
  /-- The session was not stopped by `Stop`, and no thread is processing it. -/
  | abandoned
  | stopped
  deriving DecidableEq

structure Monitor where
  pc : Pc := .idle
  /-- `session` is not 0. -/
  session : Bool := false
  /-- `trace` is valid. -/
  trace : Bool := false
  consumer : Consumer := .none
  /-- The number of the handler; there is none at first. -/
  handler : ℕ := 0
  events : ℕ := 0
  exceptions : ℕ := 0
  rundowns : ℕ := 0
  rundownFailures : ℕ := 0
  finalEventsLost : ℕ := 0
  finalBuffersLost : ℕ := 0
  /-- The system has a session under the name. -/
  running : Bool
  log : List Seen := []

/-- What happens to a monitor. -/
inductive Monitor.Act
  /-- `Start`: whether the handler can be created, whether a session that an earlier process has
  left under the name can be stopped, and whether there can be a new one. -/
  | start (made stale traced : Bool)
  /-- The next statement of `Start` or `Stop`: whether the system does it, and the final
  statistics. -/
  | next (ok : Bool) (eventsLost buffersLost : ℕ)
  | requestRundown (ok : Bool)
  | stop
  /-- `OnEvent` and `OnBuffer`, with the calls of the sink, and whether the handler throws. -/
  | onEvent (calls : ℕ) (throws : Bool)
  | onBuffer (calls : ℕ) (throws : Bool)
  /-- `ProcessTrace` returns, since the session is stopped, or fails. -/
  | processed (failed : Bool)
  /-- `OnDataComplete`. -/
  | complete (calls : ℕ) (throws : Bool)
  /-- Someone else stops the session. -/
  | killed

namespace Monitor

/-- `Start`, up to `StartTraceW`; with a session it returns at once, and without a handler too. -/
def start (w : Monitor) (made stale traced : Bool) : Monitor :=
  if w.session || !made then w
  else
    let w := { w with handler := w.handler + 1, running := w.running && !stale }
    if traced && !w.running then
      { w with session := true, running := true, pc := .enableDxgk, log := w.log ++ [.traced] }
    else w

/-- The statements of `Start` from `StartTraceW` on, and those of `Stop`. -/
def next (w : Monitor) (ok : Bool) (eventsLost buffersLost : ℕ) : Monitor :=
  match w.pc with
  | .idle => w
  | .enableDxgk => { w with pc := if ok then .enableD3D12 else .control }
  | .enableD3D12 => { w with pc := if ok then .openTrace else .control }
  | .openTrace => if ok then { w with trace := true, pc := .spawn } else { w with pc := .control }
  | .spawn =>
    if ok then
      { w with consumer := .processing, pc := .idle, log := w.log ++ [.started w.handler] }
    else { w with pc := .terminated }
  | .control =>
    if ok && w.running then
      { w with
        session := false, running := false, pc := .join
        finalEventsLost := eventsLost, finalBuffersLost := buffersLost }
    else
      let seen := if w.running && w.consumer != .processing then [Seen.abandoned] else []
      { w with session := false, pc := .join, log := w.log ++ seen }
  | .join =>
    if w.consumer = .none ∨ w.consumer = .ended then { w with consumer := .none, pc := .close }
    else w
  | .close => { w with trace := false, pc := .idle, log := w.log ++ [.stopped] }
  | .terminated => w

/-- The handler is called, which calls the sink; what it throws is counted. -/
def handle (w : Monitor) (calls : ℕ) (throws : Bool) : Monitor :=
  { w with
    exceptions := w.exceptions + (if throws then 1 else 0)
    log := w.log ++ List.replicate calls (.sink w.handler) }

/-- A step; what a thread cannot do where it is does nothing. -/
def step (w : Monitor) : Act → Monitor
  | .start made stale traced => if w.pc = .idle then w.start made stale traced else w
  | .next ok eventsLost buffersLost => w.next ok eventsLost buffersLost
  | .requestRundown ok =>
    if w.pc = .idle ∧ w.session = true then
      if ok then { w with rundowns := w.rundowns + 1 }
      else { w with rundownFailures := w.rundownFailures + 1 }
    else w
  | .stop =>
    if w.pc = .idle then { w with pc := if w.session then .control else .join } else w
  | .onEvent calls throws =>
    if w.consumer = .processing then { w.handle calls throws with events := w.events + 1 } else w
  | .onBuffer calls throws => if w.consumer = .processing then w.handle calls throws else w
  | .processed failed =>
    if w.consumer = .processing ∧ (w.running = false ∨ failed = true) then
      let seen := if w.running && !w.session then [Seen.abandoned] else []
      { w with consumer := .completing, log := w.log ++ seen }
    else w
  | .complete calls throws =>
    if w.consumer = .completing then { w.handle calls throws with consumer := .ended } else w
  | .killed => { w with running := false }

def run (w : Monitor) (xs : List Act) : Monitor := Machine.run step w xs

/-- `GetStats`; the system is asked where there is a session. -/
def getStats (w : Monitor) (answer : Option (ℕ × ℕ)) : Stats :=
  let lost := if w.session then answer.getD (w.finalEventsLost, w.finalBuffersLost)
    else (w.finalEventsLost, w.finalBuffersLost)
  { events := w.events, eventsLost := lost.1, buffersLost := lost.2, exceptions := w.exceptions
    rundowns := w.rundowns, rundownFailures := w.rundownFailures }

end Monitor

/-- The handler whose sink may be called after what was seen. -/
def current : List Seen → Option ℕ :=
  List.foldl
    (fun handler s =>
      match s with
      | .started n => some n
      | .stopped => none
      | _ => handler) none

/-! ### The invariant -/

/-- Where the threads are, with the handles. -/
inductive Shape : Pc → Bool → Bool → Consumer → Prop
  | stopped : Shape .idle false false .none
  | enableDxgk : Shape .enableDxgk true false .none
  | enableD3D12 : Shape .enableD3D12 true false .none
  | openTrace : Shape .openTrace true false .none
  | spawn : Shape .spawn true true .none
  | started {c : Consumer} (hc : c ≠ .none) : Shape .idle true true c
  /-- A `Start` that has failed. -/
  | failed : Shape .control true false .none
  | control {c : Consumer} (hc : c ≠ .none) : Shape .control true true c
  | joinNone : Shape .join false false .none
  | join {c : Consumer} (hc : c ≠ .none) : Shape .join false true c
  | close (trace : Bool) : Shape .close false trace .none
  | terminated : Shape .terminated true true .none

/-- **The invariant**; `left` is whether there was a session under the name at the start. -/
structure Monitor.Inv (left : Bool) (w : Monitor) : Prop where
  shape : Shape w.pc w.session w.trace w.consumer
  /-- The sink is called for the current handler. -/
  sinks : ∀ pre n post, w.log = pre ++ .sink n :: post → current pre = some n
  current : w.consumer ≠ .none → Etw.current w.log = some w.handler
  covered : w.running = true → w.session = true ∨ w.consumer = .processing ∨
    .abandoned ∈ w.log ∨ left = true ∧ .traced ∉ w.log

theorem Shape.idle_stopped {trace : Bool} {c : Consumer} (h : Shape .idle false trace c) :
    trace = false ∧ c = .none := by
  cases h
  exact ⟨rfl, rfl⟩

theorem Shape.idle_started {trace : Bool} {c : Consumer} (h : Shape .idle true trace c) :
    trace = true ∧ c ≠ .none := by
  cases h with
  | started hc => exact ⟨rfl, hc⟩

/-- The consumer goes on. -/
theorem Shape.advance {pc : Pc} {session trace : Bool} {c c' : Consumer}
    (h : Shape pc session trace c) (hc : c ≠ .none) (hc' : c' ≠ .none) :
    Shape pc session trace c' := by
  cases h with
  | started _ => exact .started hc'
  | control _ => exact .control hc'
  | join _ => exact .join hc'
  | _ => exact absurd rfl hc

theorem current_append_sink (log : List Seen) (calls n : ℕ) :
    current (log ++ List.replicate calls (.sink n)) = current log := by
  induction calls with
  | zero => rw [List.replicate_zero, List.append_nil]
  | succ calls ih =>
    rw [List.replicate_succ', ← List.append_assoc, current, List.foldl_append]
    exact ih

/-- What comes behind a log is seen there only. -/
theorem sinks_append {log seen : List Seen}
    (h : ∀ pre n post, log = pre ++ .sink n :: post → current pre = some n)
    (hseen : ∀ pre n post, seen = pre ++ .sink n :: post → current (log ++ pre) = some n) :
    ∀ pre n post, log ++ seen = pre ++ .sink n :: post → current pre = some n := by
  intro pre n post heq
  rcases List.append_eq_append_iff.mp heq with ⟨as, rfl, hright⟩ | ⟨bs, hleft, hright⟩
  · exact hseen as n post hright
  · cases bs with
    | nil =>
      have hsame : log = pre := by simpa using hleft
      have hrest : seen = [] ++ .sink n :: post := by simpa using hright.symm
      have hlast := hseen [] n post hrest
      rw [List.append_nil] at hlast
      exact hsame ▸ hlast
    | cons b bs =>
      obtain ⟨rfl, -⟩ := List.cons.inj hright
      exact h pre n bs hleft

/-- An event that is no call of the sink. -/
theorem sinks_concat {log : List Seen}
    (h : ∀ pre n post, log = pre ++ .sink n :: post → current pre = some n) {s : Seen}
    (hs : ∀ n, s ≠ .sink n) :
    ∀ pre n post, log ++ [s] = pre ++ .sink n :: post → current pre = some n := by
  refine sinks_append h fun pre n post heq => ?_
  have hmem : Seen.sink n ∈ [s] := by
    rw [heq]
    exact List.mem_append_right _ List.mem_cons_self
  exact absurd (List.mem_singleton.mp hmem).symm (hs n)

namespace Monitor

variable {left : Bool} {w : Monitor}

theorem Inv.handle (h : Inv left w) (hrunning : w.consumer ≠ .none) (calls : ℕ) (throws : Bool) :
    Inv left (w.handle calls throws) where
  shape := h.shape
  sinks := by
    refine sinks_append h.sinks fun pre n post heq => ?_
    obtain ⟨-, hpre, hpost⟩ := List.append_eq_replicate_iff.mp heq.symm
    have hn : n = w.handler := by
      have hmem : Seen.sink n ∈ List.replicate (Seen.sink n :: post).length (.sink w.handler) :=
        hpost ▸ List.mem_cons_self
      exact Seen.sink.inj (List.eq_of_mem_replicate hmem)
    rw [hpre, current_append_sink, hn]
    exact h.current hrunning
  current _ := (current_append_sink _ _ _).trans (h.current hrunning)
  covered hr := by
    rcases h.covered hr with hs | hc | habandoned | ⟨hleft, htraced⟩
    · exact Or.inl hs
    · exact Or.inr (Or.inl hc)
    · exact Or.inr (Or.inr (Or.inl (List.mem_append_left _ habandoned)))
    · refine Or.inr (Or.inr (Or.inr ⟨hleft, fun hmem => ?_⟩))
      rcases List.mem_append.mp hmem with hmem | hmem
      · exact htraced hmem
      · cases List.eq_of_mem_replicate hmem

theorem Inv.start (h : Inv left w) (hidle : w.pc = .idle) (made stale traced : Bool) :
    Inv left (w.start made stale traced) := by
  unfold Monitor.start
  split
  · exact h
  next hsession =>
  rw [Bool.or_eq_true, not_or, Bool.not_eq_true] at hsession
  have hshape := h.shape
  rw [hidle, hsession.1] at hshape
  obtain ⟨htrace, hnone⟩ := hshape.idle_stopped
  have hne : ∀ {p : Prop}, w.consumer ≠ .none → p := fun hne => absurd hnone hne
  dsimp only
  split
  · refine ⟨?_, sinks_concat h.sinks fun _ => nofun, fun hc => hne hc, fun _ => Or.inl rfl⟩
    show Shape .enableDxgk true w.trace w.consumer
    rw [htrace, hnone]
    exact .enableDxgk
  · refine ⟨h.shape, h.sinks, fun hc => hne hc, fun hr => ?_⟩
    exact h.covered (Bool.and_eq_true_iff.mp hr).1

/-- Only the program counter and the handles change. -/
theorem Inv.move (h : Inv left w) {pc : Pc} {session trace : Bool}
    (hshape : Shape pc session trace w.consumer)
    (hcovered : w.running = true → w.session = true → session = true ∨ w.consumer = .processing ∨
      .abandoned ∈ w.log) :
    Inv left { w with pc := pc, session := session, trace := trace } where
  shape := hshape
  sinks := h.sinks
  current := h.current
  covered hr := by
    rcases h.covered hr with hs | hc | habandoned | hleft
    · rcases hcovered hr hs with hs | hc | habandoned
      · exact Or.inl hs
      · exact Or.inr (Or.inl hc)
      · exact Or.inr (Or.inr (Or.inl habandoned))
    · exact Or.inr (Or.inl hc)
    · exact Or.inr (Or.inr (Or.inl habandoned))
    · exact Or.inr (Or.inr (Or.inr hleft))

/-- The log gets an event that is neither a call of the sink nor the begin of a session. -/
theorem Inv.see (h : Inv left w) {s : Seen} (hsink : ∀ n, s ≠ .sink n) (htraced : s ≠ .traced)
    (hcurrent : w.consumer = .none) : Inv left { w with log := w.log ++ [s] } where
  shape := h.shape
  sinks := sinks_concat h.sinks hsink
  current hc := absurd hcurrent hc
  covered hr := by
    rcases h.covered hr with hs | hc | habandoned | ⟨hleft, hnot⟩
    · exact Or.inl hs
    · exact Or.inr (Or.inl hc)
    · exact Or.inr (Or.inr (Or.inl (List.mem_append_left _ habandoned)))
    · refine Or.inr (Or.inr (Or.inr ⟨hleft, fun hmem => ?_⟩))
      rcases List.mem_append.mp hmem with hmem | hmem
      · exact hnot hmem
      · exact htraced (List.mem_singleton.mp hmem).symm

/-- Nobody is left to stop the session. -/
theorem Inv.abandon (h : Inv left w) : Inv left { w with log := w.log ++ [.abandoned] } where
  shape := h.shape
  sinks := sinks_concat h.sinks fun _ => nofun
  current hc := by
    rw [Etw.current, List.foldl_append]
    exact h.current hc
  covered _ := Or.inr (Or.inr (Or.inl (List.mem_append_right _ List.mem_cons_self)))

/-- The session is stopped. -/
theorem Inv.accepted (h : Inv left w) {pc : Pc} (hshape : Shape pc false w.trace w.consumer)
    (eventsLost buffersLost : ℕ) :
    Inv left { w with
      session := false, running := false, pc := pc
      finalEventsLost := eventsLost, finalBuffersLost := buffersLost } where
  shape := hshape
  sinks := h.sinks
  current := h.current
  covered hr := absurd hr Bool.false_ne_true

/-- **The statements of `Start` and `Stop`.** -/
theorem Inv.next (h : Inv left w) (ok : Bool) (eventsLost buffersLost : ℕ) :
    Inv left (w.next ok eventsLost buffersLost) := by
  rcases w with ⟨pc, session, trace, consumer, handler, events, exceptions, rundowns,
    rundownFailures, finalEventsLost, finalBuffersLost, running, log⟩
  have hshape : Shape pc session trace consumer := h.shape
  cases hshape with
  | stopped => exact h
  | started hc => exact h
  | enableDxgk =>
    cases ok with
    | true => exact h.move .enableD3D12 fun _ _ => Or.inl rfl
    | false => exact h.move .failed fun _ _ => Or.inl rfl
  | enableD3D12 =>
    cases ok with
    | true => exact h.move .openTrace fun _ _ => Or.inl rfl
    | false => exact h.move .failed fun _ _ => Or.inl rfl
  | openTrace =>
    cases ok with
    | true => exact h.move .spawn fun _ _ => Or.inl rfl
    | false => exact h.move .failed fun _ _ => Or.inl rfl
  | spawn =>
    cases ok with
    | true =>
      have hseen := h.see (s := .started handler) (fun _ => nofun) nofun rfl
      exact
        { shape := .started nofun
          sinks := hseen.sinks
          current := fun _ => by
            show Etw.current (log ++ [.started handler]) = some handler
            rw [Etw.current, List.foldl_append]
            rfl
          covered := fun _ => Or.inl rfl }
    | false => exact h.move .terminated fun _ _ => Or.inl rfl
  | failed =>
    show Inv left (if _ then _ else _)
    split
    · exact h.accepted .joinNone eventsLost buffersLost
    · cases running with
      | true =>
        refine h.abandon.move .joinNone fun _ _ => Or.inr (Or.inr ?_)
        exact List.mem_append_right _ List.mem_cons_self
      | false =>
        have hmoved := h.move .joinNone fun hr _ => absurd hr Bool.false_ne_true
        rwa [← List.append_nil log] at hmoved
  | control hc =>
    show Inv left (if _ then _ else _)
    split
    · exact h.accepted (.join hc) eventsLost buffersLost
    · dsimp only
      split
      · refine h.abandon.move (.join hc) fun _ _ => Or.inr (Or.inr ?_)
        exact List.mem_append_right _ List.mem_cons_self
      · next hleft =>
        rw [List.append_nil]
        refine h.move (.join hc) fun hr _ => Or.inr (Or.inl ?_)
        have hr : running = true := hr
        by_contra hne
        exact hleft (by simpa [hr] using hne)
  | joinNone => exact h.move (.close false) fun _ hs => by cases hs
  | join hc =>
    show Inv left (if _ then _ else _)
    split
    · next hended =>
      exact
        { shape := .close true
          sinks := h.sinks
          current := fun hne => absurd rfl hne
          covered := fun hr => by
            rcases h.covered hr with hs | hprocessing | hleft
            · cases hs
            · exact absurd ((hended.resolve_left hc).symm.trans hprocessing) nofun
            · exact Or.inr (Or.inr hleft) }
    · exact h
  | close trace =>
    have hseen := h.see (s := .stopped) (fun _ => nofun) nofun rfl
    exact hseen.move .stopped fun _ hs => by cases hs
  | terminated => exact h

/-- **Every step keeps the invariant.** -/
theorem inv_step (h : Inv left w) (a : Act) : Inv left (w.step a) := by
  cases a with
  | start made stale traced =>
    show Inv left (if _ then _ else _)
    split
    · next hidle => exact h.start hidle made stale traced
    · exact h
  | next ok eventsLost buffersLost => exact h.next ok eventsLost buffersLost
  | requestRundown ok =>
    show Inv left (if _ then (if _ then _ else _) else _)
    split
    · split
      · exact ⟨h.shape, h.sinks, h.current, h.covered⟩
      · exact ⟨h.shape, h.sinks, h.current, h.covered⟩
    · exact h
  | stop =>
    show Inv left (if _ then _ else _)
    split
    · next hidle =>
      have hmoved : Shape (if w.session then .control else .join) w.session w.trace w.consumer := by
        have hshape := h.shape
        cases hsession : w.session with
        | false =>
          rw [hidle, hsession] at hshape
          obtain ⟨htrace, hnone⟩ := hshape.idle_stopped
          rw [htrace, hnone]
          exact .joinNone
        | true =>
          rw [hidle, hsession] at hshape
          obtain ⟨htrace, hconsumer⟩ := hshape.idle_started
          rw [htrace]
          exact .control hconsumer
      exact h.move hmoved fun _ hs => Or.inl hs
    · exact h
  | onEvent calls throws =>
    show Inv left (if _ then _ else _)
    split
    · next hc =>
      have hhandled := h.handle (by rw [hc]; exact nofun) calls throws
      exact ⟨hhandled.shape, hhandled.sinks, hhandled.current, hhandled.covered⟩
    · exact h
  | onBuffer calls throws =>
    show Inv left (if _ then _ else _)
    split
    · next hc => exact h.handle (by rw [hc]; exact nofun) calls throws
    · exact h
  | processed failed =>
    show Inv left (if _ then _ else _)
    split
    · next hdone =>
      have hne : w.consumer ≠ .none := by rw [hdone.1]; exact nofun
      have hadvanced : Shape w.pc w.session w.trace .completing := h.shape.advance hne nofun
      split
      · have habandoned := h.abandon
        exact ⟨hadvanced, habandoned.sinks, fun _ => habandoned.current hne, fun _ =>
          Or.inr (Or.inr (Or.inl (List.mem_append_right _ List.mem_cons_self)))⟩
      · next hheld =>
        rw [List.append_nil]
        refine ⟨hadvanced, h.sinks, fun _ => h.current hne, fun hr => Or.inl ?_⟩
        have hr : w.running = true := hr
        simpa [hr] using hheld
    · exact h
  | complete calls throws =>
    show Inv left (if _ then _ else _)
    split
    · next hc =>
      have hne : w.consumer ≠ .none := by rw [hc]; exact nofun
      have hhandled := h.handle hne calls throws
      exact
        { shape := h.shape.advance hne nofun
          sinks := hhandled.sinks
          current := fun _ => hhandled.current hne
          covered := fun hr => by
            rcases hhandled.covered hr with hs | hprocessing | hleft
            · exact Or.inl hs
            · exact absurd (hc.symm.trans hprocessing) nofun
            · exact Or.inr (Or.inr hleft) }
    · exact h
  | killed => exact ⟨h.shape, h.sinks, h.current, fun hr => absurd hr Bool.false_ne_true⟩

theorem inv_run (left : Bool) (xs : List Act) : Inv left (run { running := left } xs) := by
  induction xs using List.reverseRecOn with
  | nil =>
    exact
      { shape := .stopped
        sinks := fun pre n post heq =>
          absurd heq.symm (List.append_ne_nil_of_right_ne_nil pre (List.cons_ne_nil _ _))
        current := fun hc => absurd rfl hc
        covered := fun hr => Or.inr (Or.inr (Or.inr ⟨hr, List.not_mem_nil⟩)) }
  | append_singleton xs a ih =>
    rw [run, Machine.run_concat]
    exact inv_step ih a

/-! ### The statistics -/

theorem step_counted (w : Monitor) (a : Act) :
    w.events ≤ (w.step a).events ∧ w.exceptions ≤ (w.step a).exceptions ∧
      w.rundowns ≤ (w.step a).rundowns ∧ w.rundownFailures ≤ (w.step a).rundownFailures := by
  cases a with
  | start made stale traced =>
    simp only [step, Monitor.start]
    split_ifs <;> simp
  | next ok eventsLost buffersLost =>
    simp only [step, Monitor.next]
    split
    all_goals try split
    all_goals simp
  | requestRundown ok =>
    simp only [step]
    split_ifs <;> simp
  | stop =>
    simp only [step]
    split_ifs <;> simp
  | onEvent calls throws =>
    simp only [step, Monitor.handle]
    split_ifs <;> simp
  | onBuffer calls throws =>
    simp only [step, Monitor.handle]
    split_ifs <;> simp
  | processed failed =>
    simp only [step]
    split_ifs <;> simp
  | complete calls throws =>
    simp only [step, Monitor.handle]
    split_ifs <;> simp
  | killed => simp [step]

/-- **What is counted never goes down**, whenever the statistics are asked for. -/
theorem getStats_counted (w : Monitor) (ys : List Act) (answer answer' : Option (ℕ × ℕ)) :
    (w.getStats answer).events ≤ ((run w ys).getStats answer').events ∧
      (w.getStats answer).exceptions ≤ ((run w ys).getStats answer').exceptions ∧
      (w.getStats answer).rundowns ≤ ((run w ys).getStats answer').rundowns ∧
      (w.getStats answer).rundownFailures ≤ ((run w ys).getStats answer').rundownFailures := by
  show w.events ≤ (run w ys).events ∧ w.exceptions ≤ (run w ys).exceptions ∧
    w.rundowns ≤ (run w ys).rundowns ∧ w.rundownFailures ≤ (run w ys).rundownFailures
  induction ys using List.reverseRecOn with
  | nil => exact ⟨Nat.le_refl _, Nat.le_refl _, Nat.le_refl _, Nat.le_refl _⟩
  | append_singleton ys a ih =>
    rw [run, Machine.run_concat]
    obtain ⟨hevents, hexceptions, hrundowns, hfailures⟩ := step_counted (run w ys) a
    obtain ⟨hevents', hexceptions', hrundowns', hfailures'⟩ := ih
    exact ⟨Nat.le_trans hevents' hevents, Nat.le_trans hexceptions' hexceptions,
      Nat.le_trans hrundowns' hrundowns, Nat.le_trans hfailures' hfailures⟩

/-! ### When `Stop` returns -/

/-- What helps a `Stop` that waits: someone else stops the session, or `ProcessTrace` fails. -/
def Act.Helps (a : Act) : Prop := a = .killed ∨ a = .processed true

/-- **While the session is running, the join waits.** -/
theorem step_waits (hpc : w.pc = .join) (hc : w.consumer = .processing) (hr : w.running = true)
    {a : Act} (ha : ¬a.Helps) :
    (w.step a).pc = .join ∧ (w.step a).consumer = .processing ∧ (w.step a).running = true := by
  cases a with
  | start made stale traced => simp [step, hpc, hc, hr]
  | next ok eventsLost buffersLost => simp [step, Monitor.next, hpc, hc, hr]
  | requestRundown ok => simp [step, hpc, hc, hr]
  | stop => simp [step, hpc, hc, hr]
  | onEvent calls throws => simp [step, Monitor.handle, hpc, hc, hr]
  | onBuffer calls throws => simp [step, Monitor.handle, hpc, hc, hr]
  | processed failed =>
    cases failed with
    | true => exact absurd (Or.inr rfl) ha
    | false => simp [step, hpc, hc, hr]
  | complete calls throws => simp [step, hpc, hc, hr]
  | killed => exact absurd (Or.inl rfl) ha

theorem run_waits {ys : List Act} (hys : ∀ a ∈ ys, ¬a.Helps) (hpc : w.pc = .join)
    (hc : w.consumer = .processing) (hr : w.running = true) : (run w ys).pc = .join := by
  induction ys generalizing w with
  | nil => exact hpc
  | cons a ys ih =>
    obtain ⟨hpc', hc', hr'⟩ := step_waits hpc hc hr (hys a List.mem_cons_self)
    exact ih (fun b hb => hys b (List.mem_cons_of_mem a hb)) hpc' hc' hr'

/-- **`Stop` returns without help exactly if the session was stopped**, or nobody processes it. -/
theorem returns_iff (hpc : w.pc = .join) :
    (∃ ys, (∀ a ∈ ys, ¬a.Helps) ∧ (run w ys).pc = .idle) ↔
      (w.consumer = .processing → w.running = false) := by
  constructor
  · rintro ⟨ys, hys, hidle⟩ hc
    cases hr : w.running with
    | false => rfl
    | true =>
      rw [run_waits hys hpc hc hr] at hidle
      cases hidle
  · intro hstopped
    refine ⟨[.processed false, .complete 0 false, .next true 0 0, .next true 0 0], ?_, ?_⟩
    · simp [Act.Helps]
    rcases w with ⟨pc, session, trace, consumer, handler, events, exceptions, rundowns,
      rundownFailures, finalEventsLost, finalBuffersLost, running, log⟩
    subst hpc
    cases consumer with
    | none => rfl
    | processing =>
      obtain rfl : running = false := hstopped rfl
      rfl
    | completing => rfl
    | ended => rfl

/-- **The monitor, in every run**, whatever the system refuses.  The sink is only called for the
handler of the last successful `Start`, and not after the `Stop` behind it.  Without a session there
is no consumer and no open trace, and no session is left behind, unless it was there before or
`Stop` was refused to stop it and no thread was processing it; with one there is a consumer.  And a
`Stop` that has come to the join returns, without help, exactly if the session was stopped. -/
theorem monitor_run (left : Bool) (xs : List Act) :
    let w := run { running := left } xs
    (∀ pre n post, w.log = pre ++ .sink n :: post → Etw.current pre = some n) ∧
    (w.pc = .idle → w.session = false → w.consumer = .none ∧ w.trace = false ∧
      (w.running = true → .abandoned ∈ w.log ∨ left = true ∧ .traced ∉ w.log)) ∧
    (w.pc = .idle → w.session = true → w.consumer ≠ .none ∧ w.trace = true ∧
      Etw.current w.log = some w.handler) ∧
    (w.pc = .join → ((∃ ys, (∀ a ∈ ys, ¬a.Helps) ∧ (run w ys).pc = .idle) ↔
      (w.consumer = .processing → w.running = false))) := by
  have h : Inv left (run { running := left } xs) := inv_run left xs
  intro w
  have hshape : Shape w.pc w.session w.trace w.consumer := h.shape
  refine ⟨h.sinks, fun hidle hsession => ?_, fun hidle hsession => ?_, fun hpc => returns_iff hpc⟩
  · rw [hidle, hsession] at hshape
    obtain ⟨htrace, hnone⟩ := hshape.idle_stopped
    refine ⟨hnone, htrace, fun hr => ?_⟩
    rcases h.covered hr with hs | hc | habandoned | hleft
    · rw [show _ = w.session from rfl, hsession] at hs
      cases hs
    · rw [show _ = w.consumer from rfl, hnone] at hc
      cases hc
    · exact Or.inl habandoned
    · exact Or.inr hleft
  · rw [hidle, hsession] at hshape
    obtain ⟨htrace, hconsumer⟩ := hshape.idle_started
    exact ⟨hconsumer, htrace, h.current hconsumer⟩

end Monitor

end Dx12Track.Etw
