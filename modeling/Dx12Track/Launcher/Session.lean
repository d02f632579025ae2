import Dx12Track.Launcher.Lines

/-!
# A session of the launcher

`wmain` from the moment the target is created, suspended, and the DLL is in it.  Three
threads call the model: the main thread, in the order of the source; the pipe reader,
between `ConnectAndStart` and the join in `PipeServer::Stop`; and the ETW consumer,
between `Monitor::Start` and the join in `Monitor::Stop`.  Every call takes the lock
for its whole body, so a session is an interleaving of the three.

The target may end at any time, and its process handle is signaled from then on.  A
thread may end early; the joins wait for it.

* `MainPc`, `Session`, `SessionAct`, `Session.step` — the threads and their steps.
* `Laid` — how the lines of an open sidecar are laid out.
* `Inv` — **the invariant**: which threads run at which point of `wmain`, and what the
  sidecar holds there.
* `sidecar_structure` — **the sidecar of a session**.
-/

namespace Dx12Track

open Etw (ObjType Group ResidencyOp CounterKind GroupChange Stats)

/-- The calls of the ETW sink, which the consumer thread makes. -/
def Step.ofSink : Step → Bool
  | .objectCreated .. | .objectAddress .. | .objectDestroyed .. | .objectSize .. => true
  | .groupChanges .. | .residency .. | .counter .. | .diagnostic .. => true
  | _ => false

/-- Where the main thread is in `wmain`: the statement it comes to next.  In the loop, `signaled`
is what `WaitForSingleObject` has returned in this round. -/
inductive MainPc
  | setChildProcess
  | startMonitor
  | setRunning
  | connect
  | wait
  | poll (signaled : Bool)
  | exitTime (signaled : Bool)
  | tick (signaled : Bool)
  | markExited
  | joinReader
  | joinConsumer
  | finish
  | done
  deriving DecidableEq

/-- What a statement of the main thread reads from outside. -/
structure Input where
  env : Env := {}
  /-- `Monitor::Start` or `ConnectAndStart` succeeds. -/
  ok : Bool := true
  reason : WString := []
  /-- `ChildExitQpc`, if it succeeds. -/
  exitQpc : Option ℕ := none
  exitCode : ℕ := 0
  stats : Stats := {}

/-- The launcher from the creation of the target on. -/
structure Session where
  model : Model
  pc : MainPc
  /-- `etw_running`. -/
  etwRunning : Bool := false
  /-- The pipe reader and the ETW consumer are in their loops. -/
  reader : Bool := false
  consumer : Bool := false
  /-- The process handle of the target is signaled. -/
  exited : Bool := false
  /-- The first hello record that the reader has delivered. -/
  hello : Option (ℕ × HelloPayload) := none

/-- A step of a thread, or of the target. -/
inductive SessionAct
  | main (i : Input)
  | record (tsNs : ℕ) (r : Record)
  | sink (x : Step)
  | readerEnds
  | consumerEnds
  | targetEnds

namespace Session

/-- A session with `--etw`, or without. -/
def start : Option EtwOptions → Session
  | none => { model := {}, pc := .connect }
  | some etw => { model := Model.start etw, pc := .setChildProcess }

/-- What a thread finds out about the target: an ended one is signaled. -/
def seen (s : Session) (env : Env) : Env := { env with signaled := s.exited }

def call (s : Session) (x : Step) (pc : MainPc) : Session :=
  { s with model := s.model.step x, pc := pc }

/-- The next statement of the main thread. -/
def mainStep (s : Session) (i : Input) : Session :=
  match s.pc with
  | .setChildProcess => s.call .setChildProcess .startMonitor
  | .startMonitor =>
    if i.ok then { s with consumer := true, etwRunning := true, pc := .setRunning }
    else { s with model := s.model.disableEtw i.reason, pc := .connect }
  | .setRunning => s.call (.setEtwRunning true) .connect
  | .connect => { s with reader := i.ok, pc := .wait }
  | .wait => { s with pc := .poll s.exited }
  | .poll signaled =>
    if s.etwRunning then s.call (.pollChild (s.seen i.env)) (.exitTime signaled)
    else { s with pc := .exitTime signaled }
  | .exitTime signaled =>
    match i.exitQpc with
    | none => { s with pc := .tick signaled }
    | some exitQpc =>
      if signaled && s.etwRunning then s.call (.setChildExitQpc exitQpc) (.tick signaled)
      else { s with pc := .tick signaled }
  | .tick signaled =>
    let next : MainPc := if signaled then .markExited else .wait
    if s.etwRunning then s.call (.tick i.env i.stats) next else { s with pc := next }
  | .markExited => s.call (.markChildExited i.exitCode) .joinReader
  | .joinReader =>
    if s.reader then s else { s with pc := if s.etwRunning then .joinConsumer else .done }
  | .joinConsumer => if s.consumer then s else { s with pc := .finish }
  | .finish => s.call (.finish i.env i.stats) .done
  | .done => s

/-- What a call of the sink finds out about the target. -/
def seenBy (s : Session) : Step → Step
  | .objectAddress env libId address => .objectAddress (s.seen env) libId address
  | .groupChanges changes => .groupChanges (changes.map fun c => (c.1, s.seen c.2))
  | .residency env ts libId type op => .residency (s.seen env) ts libId type op
  | .counter env ts counterId kind bytes => .counter (s.seen env) ts counterId kind bytes
  | .diagnostic env error code msg => .diagnostic (s.seen env) error code msg
  | x => x

/-- The hello record that opens the sidecar. -/
def note (s : Session) (tsNs : ℕ) : Record → Option (ℕ × HelloPayload)
  | .hello p => if s.hello = none then some (tsNs, p) else s.hello
  | _ => s.hello

/-- One step; a thread that does not run does nothing. -/
def step (s : Session) : SessionAct → Session
  | .main i => s.mainStep i
  | .record tsNs r =>
    if s.reader then { s with model := s.model.step (.event tsNs r), hello := s.note tsNs r } else s
  | .sink x =>
    if s.consumer && x.ofSink then { s with model := s.model.step (s.seenBy x) } else s
  | .readerEnds => { s with reader := false }
  | .consumerEnds => { s with consumer := false }
  | .targetEnds => { s with exited := true }

def run (etw : Option EtwOptions) (xs : List SessionAct) : Session :=
  Machine.run step (start etw) xs

end Session

/-! ### The layout of the sidecar -/

/-- A line between the first one and the last. -/
def SideLine.isBody : SideLine → Bool
  | .etwHello .. | .etwStats .. => false
  | _ => true

theorem bodyLines : BodyLines fun l => l.isBody = true where
  etwObject _ _ _ _ _ _ := rfl
  etwBind _ _ _ _ _ _ := rfl
  location _ _ _ _ := rfl
  driverSize _ _ _ := rfl
  residency _ _ _ _ _ := rfl
  etwObjectDestroyed _ _ := rfl
  counters _ _ := rfl
  targetExiting _ _ _ := rfl

namespace Session

variable {etw : EtwOptions} {s : Session}

/-- The first line of the sidecar, from the hello record `h`. -/
def firstLine (etw : EtwOptions) (h : ℕ × HelloPayload) : SideLine :=
  .etwHello h.1 h.2.pid h.2.qpcFrequency h.2.qpcStart etw.sessionName etw.rundownIntervalMs
    etw.mainLogPath

/-- What a session with an open sidecar keeps. -/
def frameOf (etw : EtwOptions) (s : Session) : SideFrame where
  side := true
  helloSeen := s.hello.isSome
  etwEnabled := true
  childProcess := decide (s.pc ≠ .setChildProcess)
  sessionName := etw.sessionName
  mainLogPath := etw.mainLogPath
  rundownIntervalMs := etw.rundownIntervalMs

/-- An open sidecar: the first line and the lines so far, or only lines that are kept back. -/
structure Laid (etw : EtwOptions) (s : Session) : Prop where
  frame : s.model.sideFrame = frameOf etw s
  text : ∃ body : List SideLine, (∀ l ∈ body, l.isBody = true) ∧
    body.countP SideLine.isExit = s.model.childExiting.toNat ∧
    s.model.sideFile = s.hello.elim [] (fun h => firstLine etw h :: body) ∧
    s.model.sidePrebuf = s.hello.elim body (fun _ => [])

/-- No sidecar, and so no lines. -/
structure Bare (m : Model) : Prop where
  side : m.side = false
  file : m.sideFile = []
  prebuf : m.sidePrebuf = []

/-- The closed sidecar. -/
def Closed (etw : EtwOptions) (s : Session) : Prop :=
  ∃ (body : List SideLine) (ts : ℕ), (∀ l ∈ body, l.isBody = true) ∧
    body.countP SideLine.isExit = 1 ∧
    s.model.sideFile =
      (s.hello.map (firstLine etw)).toList ++ body ++ [.etwStats ts s.model.s.etw.statsLine]

theorem Laid.side (h : Laid etw s) : s.model.side = true := congrArg SideFrame.side h.frame
theorem Laid.helloSeen (h : Laid etw s) : s.model.helloSeen = s.hello.isSome :=
  congrArg SideFrame.helloSeen h.frame

theorem Laid.writes (h : Laid etw s) {m : Model} (hw : s.model.Writes (fun l => l.isBody = true) m)
    {pc : MainPc} (hpc : pc = .setChildProcess ↔ s.pc = .setChildProcess) :
    Laid etw { s with model := m, pc := pc } := by
  obtain ⟨body, hbody, hexit, hfile, hpre⟩ := h.text
  obtain ⟨ls, hls, hfile', hpre', hexit'⟩ := hw.grown h.side
  refine ⟨?_, body ++ ls, fun l hl => ?_, ?_, ?_, ?_⟩
  · rw [hw.frame, h.frame]
    simp only [frameOf, ne_eq, hpc]
  · exact (List.mem_append.mp hl).elim (hbody l) (hls l)
  · rw [List.countP_append]
    dsimp only
    omega
  · rw [hfile', hfile, h.helloSeen]
    cases s.hello <;> simp
  · rw [hpre', hpre, h.helloSeen]
    cases s.hello <;> simp

theorem Bare.writes {m n : Model} (h : Bare m) {P : SideLine → Prop} (hw : m.Writes P n) :
    Bare n := by
  obtain ⟨hfile, hpre⟩ := hw.closed h.side
  exact ⟨hw.side.trans h.side, hfile.trans h.file, hpre.trans h.prebuf⟩

/-- The first hello record puts its line before the lines kept back. -/
theorem Laid.opens (h : Laid etw s) (hnone : s.hello = none) (ts : ℕ) (p : HelloPayload) :
    Laid etw { s with model := s.model.onHello ts p, hello := some (ts, p) } := by
  obtain ⟨body, hbody, hexit, hfile, hpre⟩ := h.text
  have hetw : s.model.etwEnabled = true := congrArg SideFrame.etwEnabled h.frame
  have hseen : s.model.helloSeen = false := by rw [h.helloSeen, hnone]; rfl
  obtain ⟨hframe, hfile', hpre', hexit'⟩ := Model.opens_onHello hetw h.side hseen ts p
  have hline : s.model.helloLine ts p = firstLine etw (ts, p) := by
    have hname : s.model.sessionName = etw.sessionName := congrArg SideFrame.sessionName h.frame
    have hpath : s.model.mainLogPath = etw.mainLogPath := congrArg SideFrame.mainLogPath h.frame
    have hms : s.model.rundownIntervalMs = etw.rundownIntervalMs :=
      congrArg SideFrame.rundownIntervalMs h.frame
    rw [Model.helloLine, hname, hpath, hms]
    rfl
  refine ⟨?_, body, hbody, ?_, ?_, ?_⟩
  · rw [hframe, h.frame]
    rfl
  · rw [hexit, hexit']
  · rw [hfile', hfile, hpre, hnone, hline]
    rfl
  · rw [hpre']
    rfl

/-- A hello record without a sidecar. -/
theorem Bare.onHello {m : Model} (h : Bare m) (ts : ℕ) (p : HelloPayload) :
    Bare (m.onHello ts p) := by
  have hside : m.side = false := h.side
  unfold Model.onHello
  dsimp only
  rw [if_neg (by simp [hside])]
  exact ⟨h.side, h.file, h.prebuf⟩

/-- The last call closes a sidecar whose target is known to be exiting. -/
theorem Laid.closes (h : Laid etw s) (hexiting : s.model.childExiting = true) (env : Env)
    (st : Stats) (pc : MainPc) :
    Closed etw { s with model := s.model.finishEtw env st, pc := pc } := by
  obtain ⟨body, hbody, hexit, hfile, hpre⟩ := h.text
  have hetw : s.model.etwEnabled = true := congrArg SideFrame.etwEnabled h.frame
  refine ⟨body, s.model.nowTsLocked env, hbody, ?_, ?_⟩
  · rw [hexit, hexiting]
    rfl
  · show (s.model.finishEtw env st).sideFile = _
    rw [(Model.closes_finishEtw hetw h.side env st).1, hfile, hpre, h.helloSeen]
    cases s.hello <;> simp

/-! ### The threads -/

end Session

namespace MainPc

/-- Before `Monitor::Start` has returned. -/
def early : MainPc → Bool
  | .setChildProcess | .startMonitor => true
  | _ => false

/-- The reader may run: from `ConnectAndStart` to the join. -/
def mayRead : MainPc → Bool
  | .wait | .poll _ | .exitTime _ | .tick _ | .markExited | .joinReader => true
  | _ => false

/-- The consumer may run: from `Monitor::Start` to the join. -/
def mayConsume : MainPc → Bool
  | .setChildProcess | .startMonitor | .finish | .done => false
  | _ => true

/-- The wait has returned for an ended target. -/
def sawEnd : MainPc → Bool
  | .poll signaled | .exitTime signaled | .tick signaled => signaled
  | .markExited | .joinReader | .joinConsumer | .finish => true
  | _ => false

/-- So has the poll behind it. -/
def polledEnd : MainPc → Bool
  | .exitTime signaled | .tick signaled => signaled
  | .markExited | .joinReader | .joinConsumer | .finish => true
  | _ => false

/-- A statement from `p` to `q` starts no thread, joins none, and does not end the session. -/
def Keeps (p q : MainPc) : Prop :=
  p ≠ .done ∧ q ≠ .done ∧ q.early = p.early ∧ (q = .setChildProcess ↔ p = .setChildProcess) ∧
    (p.mayRead = true → q.mayRead = true) ∧ (p.mayConsume = true → q.mayConsume = true)

instance (p q : MainPc) : Decidable (Keeps p q) := inferInstanceAs (Decidable (_ ∧ _))

end MainPc

namespace Session

variable {etw : EtwOptions} {s : Session}

/-- There is a sidecar, or there was one until it was closed. -/
def HasSide (etw : EtwOptions) (s : Session) : Prop :=
  etw.opened = true ∧ (s.etwRunning = true ∨ s.pc.early = true)

/-- **The invariant** of a session with `--etw`. -/
structure Inv (etw : EtwOptions) (s : Session) : Prop where
  running : s.etwRunning = true → s.pc.early = false
  reader : s.reader = true → s.pc.mayRead = true
  consumer : s.consumer = true → s.pc.mayConsume = true
  listening : s.consumer = true → s.etwRunning = true
  exited : s.pc.sawEnd = true → s.exited = true
  early : s.pc.early = true → s.hello = none
  exiting : HasSide etw s → s.pc.polledEnd = true → s.model.childExiting = true
  laid : HasSide etw s → s.pc ≠ .done → Laid etw s
  closed : HasSide etw s → s.pc = .done → Closed etw s
  bare : ¬ HasSide etw s → Bare s.model

theorem inv_start (etw : EtwOptions) : Inv etw (start (some etw)) := by
  have hframe : etw.opened = true → (start (some etw)).model.sideFrame =
      frameOf etw (start (some etw)) := by
    intro ho
    simp [start, Model.start, Model.enableEtw, Model.sideFrame, frameOf, ho]
  refine ⟨by rintro ⟨⟩, by rintro ⟨⟩, by rintro ⟨⟩, by rintro ⟨⟩, by rintro ⟨⟩, fun _ => rfl,
    by rintro _ ⟨⟩, fun hs _ => ?_, by rintro _ ⟨⟩, fun hs => ?_⟩
  · exact ⟨hframe hs.1, [], by simp, rfl, rfl, rfl⟩
  · have ho : etw.opened = false := by
      by_contra hne
      exact hs ⟨Bool.eq_true_of_not_eq_false hne, Or.inr rfl⟩
    exact ⟨ho, rfl, rfl⟩

/-- Once the child is taken to be exiting, it is. -/
theorem exiting_writes {m n : Model} {P : SideLine → Prop} (hw : m.Writes P n)
    (hside : m.side = true) (h : m.childExiting = true) : n.childExiting = true := by
  obtain ⟨ls, -, -, -, hexit⟩ := hw.grown hside
  rw [h] at hexit
  cases hn : n.childExiting with
  | true => rfl
  | false =>
    rw [hn] at hexit
    simp at hexit

/-- A statement or a call that adds lines of the body. -/
theorem Inv.advance (h : Inv etw s) {m : Model} {pc : MainPc}
    (hw : s.model.Writes (fun l => l.isBody = true) m) (hdone : s.pc ≠ .done)
    (hpc : pc = .done → ¬ HasSide etw s) (hearly : pc.early = s.pc.early)
    (hset : pc = .setChildProcess ↔ s.pc = .setChildProcess)
    (hreader : s.reader = true → pc.mayRead = true)
    (hconsumer : s.consumer = true → pc.mayConsume = true)
    (hexited : pc.sawEnd = true → s.exited = true)
    (hexiting : HasSide etw s → pc.polledEnd = true → m.childExiting = true) :
    Inv etw { s with model := m, pc := pc } := by
  have hside : HasSide etw { s with model := m, pc := pc } ↔ HasSide etw s := by
    unfold HasSide
    rw [hearly]
  refine ⟨fun hr => ?_, hreader, hconsumer, h.listening, hexited, fun he => ?_, fun hs => ?_,
    fun hs _ => ?_, fun hs hd => absurd (hside.mp hs) (hpc hd), fun hs => ?_⟩
  · exact hearly.trans (h.running hr)
  · exact h.early (hearly.symm.trans he)
  · exact hexiting (hside.mp hs)
  · exact (h.laid (hside.mp hs) hdone).writes hw hset
  · exact (h.bare fun hb => hs (hside.mpr hb)).writes hw

/-- A statement that starts no thread and joins none. -/
theorem Inv.next (h : Inv etw s) {m : Model} {pc : MainPc}
    (hw : s.model.Writes (fun l => l.isBody = true) m) (hkeeps : s.pc.Keeps pc)
    (hexited : pc.sawEnd = true → s.exited = true)
    (hexiting : HasSide etw s → pc.polledEnd = true → m.childExiting = true) :
    Inv etw { s with model := m, pc := pc } := by
  obtain ⟨hdone, hpc, hearly, hset, hread, hconsume⟩ := hkeeps
  exact h.advance hw hdone (fun hd => absurd hd hpc) hearly hset (fun hr => hread (h.reader hr))
    (fun hr => hconsume (h.consumer hr)) hexited hexiting

/-- A call of another thread. -/
theorem Inv.call (h : Inv etw s) {m : Model} (hw : s.model.Writes (fun l => l.isBody = true) m)
    (hdone : s.pc ≠ .done) : Inv etw { s with model := m } :=
  h.next hw (show s.pc.Keeps s.pc from ⟨hdone, hdone, rfl, Iff.rfl, id, id⟩) h.exited fun hs hp =>
    exiting_writes hw (h.laid hs hdone).side (h.exiting hs hp)

theorem childExiting_onHello (m : Model) (ts : ℕ) (p : HelloPayload) :
    (m.onHello ts p).childExiting = m.childExiting := by
  unfold Model.onHello
  dsimp only
  split <;> rfl

/-- A hello record opens the sidecar, if it is the first one. -/
theorem Inv.hello (h : Inv etw s) (hlate : s.pc.early = false) (hdone : s.pc ≠ .done) (ts : ℕ)
    (p : HelloPayload) :
    Inv etw { s with model := s.model.onHello ts p, hello := s.note ts (.hello p) } := by
  refine ⟨h.running, h.reader, h.consumer, h.listening, h.exited, fun he => ?_, fun hs hp => ?_,
    fun hs _ => ?_, fun _ hd => absurd hd hdone, fun hs => (h.bare hs).onHello ts p⟩
  · exact absurd (hlate.symm.trans he) Bool.false_ne_true
  · rw [childExiting_onHello]
    exact h.exiting hs hp
  · have hl : Laid etw s := h.laid hs hdone
    cases hhello : s.hello with
    | none =>
      have hnote : s.note ts (.hello p) = some (ts, p) := by simp [note, hhello]
      rw [hnote]
      exact hl.opens hhello ts p
    | some first =>
      have hnote : s.note ts (.hello p) = s.hello := by simp [note, hhello]
      have hseen : s.model.helloSeen = true := by rw [hl.helloSeen, hhello]; rfl
      rw [hnote]
      exact hl.writes (Model.writes_onHello hseen ts p)
        (show s.pc = .setChildProcess ↔ s.pc = .setChildProcess from Iff.rfl)

/-- The reader delivers a record. -/
theorem Inv.record (h : Inv etw s) (hread : s.reader = true) (ts : ℕ) (r : Record) :
    Inv etw { s with model := s.model.step (.event ts r), hello := s.note ts r } := by
  have hmay : s.pc.mayRead = true := h.reader hread
  have hdone : s.pc ≠ .done := by
    rintro hd
    rw [hd] at hmay
    cases hmay
  have hlate : s.pc.early = false := by
    cases hpc : s.pc <;> rw [hpc] at hmay <;> first | rfl | cases hmay
  have hbody : (Step.event ts r).turnsSide = false →
      s.model.Writes (fun l => l.isBody = true) (s.model.step (.event ts r)) :=
    fun hx => Model.writes_step bodyLines s.model hx fun _ _ _ _ _ h => by cases h
  cases r with
  | hello p =>
    have hlatest : Inv etw { s with model := s.model.setLatestNs ts } :=
      h.call (Model.writes_of_frame rfl rfl rfl rfl) hdone
    exact hlatest.hello hlate hdone ts p
  | created p => exact h.call (hbody rfl) hdone
  | renamed p => exact h.call (hbody rfl) hdone
  | destroyed p => exact h.call (hbody rfl) hdone
  | goodbye p => exact h.call (hbody rfl) hdone
  | other => exact h.call (hbody rfl) hdone

/-- The consumer calls the sink. -/
theorem Inv.sink (h : Inv etw s) (hrun : s.consumer = true) {x : Step} (hx : x.ofSink = true) :
    Inv etw { s with model := s.model.step (s.seenBy x) } := by
  have hmay : s.pc.mayConsume = true := h.consumer hrun
  have hdone : s.pc ≠ .done := by
    rintro hd
    rw [hd] at hmay
    cases hmay
  refine h.call (Model.writes_step bodyLines s.model ?_ fun _ _ _ _ _ _ => rfl) hdone
  cases x <;> first | rfl | cases hx

/-- The poll of an ended target takes it to be exiting. -/
theorem childExiting_poll {m : Model} (hprocess : m.childProcess = true) {env : Env}
    (hended : env.signaled = true) : (m.pollChildLocked env).childExiting = true := by
  unfold Model.pollChildLocked
  cases hexit : m.childExiting with
  | true => simpa using hexit
  | false =>
    simp only [hprocess, hended, Bool.not_true, Bool.or_false, Bool.false_eq_true, if_false]
    unfold Model.markExiting
    exact (Model.sideFrame_sideLine _ _).2

/-- `SetChildProcess`. -/
theorem Inv.setChildProcess (h : Inv etw s) (hpc : s.pc = .setChildProcess) :
    Inv etw { s with model := s.model.setChildProcess, pc := .startMonitor } := by
  have hside : HasSide etw { s with model := s.model.setChildProcess, pc := .startMonitor } ↔
      HasSide etw s := by
    unfold HasSide
    rw [hpc]
    rfl
  have hnone : s.hello = none := h.early (by rw [hpc]; rfl)
  refine ⟨fun hr => absurd (h.running hr) (by simp [hpc, MainPc.early]), fun hr => ?_, fun hr => ?_,
    h.listening, (by rintro ⟨⟩), fun _ => hnone, (by rintro _ ⟨⟩), fun hs _ => ?_, (by rintro _ ⟨⟩),
    fun hs => ?_⟩
  · exact absurd (h.reader hr) (by simp [hpc, MainPc.mayRead])
  · exact absurd (h.consumer hr) (by simp [hpc, MainPc.mayConsume])
  · obtain ⟨hframe, htext⟩ := h.laid (hside.mp hs) (by simp [hpc])
    refine ⟨?_, htext⟩
    have hset : s.model.setChildProcess.sideFrame =
        { s.model.sideFrame with childProcess := true } := rfl
    rw [hset, hframe]
    rfl
  · have hb := h.bare fun hb => hs (hside.mpr hb)
    exact ⟨hb.side, hb.file, hb.prebuf⟩

/-- `Monitor::Start` succeeds. -/
theorem Inv.started (h : Inv etw s) (hpc : s.pc = .startMonitor) :
    Inv etw { s with consumer := true, etwRunning := true, pc := .setRunning } := by
  have hside : HasSide etw { s with consumer := true, etwRunning := true, pc := .setRunning } ↔
      HasSide etw s := by
    unfold HasSide
    rw [hpc]
    simp [MainPc.early]
  refine ⟨fun _ => rfl, fun hr => ?_, fun _ => rfl, fun _ => rfl, (by rintro ⟨⟩), (by rintro ⟨⟩),
    (by rintro _ ⟨⟩), fun hs _ => ?_, (by rintro _ ⟨⟩),
    fun hs => h.bare fun hb => hs (hside.mpr hb)⟩
  · exact absurd (h.reader hr) (by simp [hpc, MainPc.mayRead])
  · obtain ⟨hframe, htext⟩ := h.laid (hside.mp hs) (by simp [hpc])
    refine ⟨?_, htext⟩
    rw [hframe]
    simp [frameOf, hpc]

/-- `Monitor::Start` fails, and the sidecar is deleted again. -/
theorem Inv.disabled (h : Inv etw s) (hpc : s.pc = .startMonitor) (reason : WString) :
    Inv etw { s with model := s.model.disableEtw reason, pc := .connect } := by
  have hearly : s.pc.early = true := by rw [hpc]; rfl
  have hrun : s.etwRunning = false := by
    by_contra hne
    have := h.running (Bool.eq_true_of_not_eq_false hne)
    rw [hearly] at this
    cases this
  have hfile : s.model.side = false → s.model.sideFile = [] := by
    intro hside
    refine (h.bare fun hs => ?_).file
    rw [(h.laid hs (by simp [hpc])).side] at hside
    cases hside
  refine ⟨fun hr => ?_, fun hr => ?_, fun hr => ?_, h.listening, (by rintro ⟨⟩),
    (by rintro ⟨⟩), (by rintro _ ⟨⟩), fun hs _ => ?_, (by rintro _ ⟨⟩), fun _ => ⟨rfl, ?_, rfl⟩⟩
  · exact absurd (h.running hr) (by simp [hearly])
  · exact absurd (h.reader hr) (by simp [hpc, MainPc.mayRead])
  · exact absurd (h.consumer hr) (by simp [hpc, MainPc.mayConsume])
  · exact absurd hs.2 (by simp [hrun, MainPc.early])
  · show (if s.model.side then [] else s.model.sideFile) = []
    split
    · rfl
    · next hside => exact hfile (Bool.eq_false_of_not_eq_true hside)

/-- `FinishEtw`. -/
theorem Inv.finish (h : Inv etw s) (hpc : s.pc = .finish) (env : Env) (st : Stats) :
    Inv etw { s with model := s.model.finishEtw env st, pc := .done } := by
  have hside : HasSide etw { s with model := s.model.finishEtw env st, pc := .done } ↔
      HasSide etw s := by
    unfold HasSide
    rw [hpc]
    rfl
  refine ⟨fun _ => rfl, fun hr => ?_, fun hr => ?_, h.listening, (by rintro ⟨⟩),
    (by rintro ⟨⟩), (by rintro _ ⟨⟩), fun _ hd => absurd rfl hd, fun hs _ => ?_, fun hs => ?_⟩
  · exact absurd (h.reader hr) (by simp [hpc, MainPc.mayRead])
  · exact absurd (h.consumer hr) (by simp [hpc, MainPc.mayConsume])
  · have hs := hside.mp hs
    exact (h.laid hs (by simp [hpc])).closes (h.exiting hs (by rw [hpc]; rfl)) env st .done
  · have hb := h.bare fun hb => hs (hside.mpr hb)
    have hkept : (s.model.finishEtw env st).side = s.model.side ∧
        (s.model.finishEtw env st).sideFile = s.model.sideFile ∧
        (s.model.finishEtw env st).sidePrebuf = s.model.sidePrebuf := by
      unfold Model.finishEtw
      simp only [Model.updStats, Model.setSnapshot, Model.refreshJoinStats, hb.side]
      split <;> exact ⟨rfl, rfl, rfl⟩
    exact ⟨hkept.1.trans hb.side, hkept.2.1.trans hb.file, hkept.2.2.trans hb.prebuf⟩

/-- A thread starts or ends, or the target does. -/
theorem Inv.setThreads (h : Inv etw s) {reader consumer exited : Bool}
    (hreader : reader = true → s.pc.mayRead = true)
    (hconsumer : consumer = true → s.consumer = true) (hexited : s.exited = true → exited = true) :
    Inv etw { s with reader := reader, consumer := consumer, exited := exited } :=
  ⟨h.running, hreader, fun hc => h.consumer (hconsumer hc), fun hc => h.listening (hconsumer hc),
    fun hp => hexited (h.exited hp), h.early, h.exiting,
    fun hs hd => ⟨(h.laid hs hd).frame, (h.laid hs hd).text⟩, h.closed, h.bare⟩

/-- The other calls of the main thread. -/
theorem writes_call (s : Session) (x : Step) (hx : x.turnsSide = false)
    (hsink : x.ofSink = false) : s.model.Writes (fun l => l.isBody = true) (s.model.step x) := by
  refine Model.writes_step bodyLines s.model hx fun env error code msg ts hd => ?_
  rw [hd] at hsink
  cases hsink

/-- The main thread goes on. -/
theorem Inv.main (h : Inv etw s) (i : Input) : Inv etw (s.mainStep i) := by
  have hsame : s.model.Writes (fun l => l.isBody = true) s.model := Model.Writes.refl _
  -- what has been found out about the target stays true
  have hstays : ∀ {m : Model}, s.model.Writes (fun l => l.isBody = true) m → s.pc ≠ .done →
      s.pc.polledEnd = true → HasSide etw s → m.childExiting = true := by
    intro m hw hd hp hs
    exact exiting_writes hw (h.laid hs hd).side (h.exiting hs hp)
  unfold mainStep
  split
  · next hpc => exact h.setChildProcess hpc
  · next hpc =>
    split
    · exact h.started hpc
    · exact h.disabled hpc i.reason
  · next hpc =>
    exact h.next (s.writes_call _ rfl rfl) (by rw [hpc]; decide) (by rintro ⟨⟩) (by rintro _ ⟨⟩)
  · next hpc =>
    have hwait : Inv etw { s with pc := .wait } :=
      h.next (m := s.model) hsame (by rw [hpc]; decide) (by rintro ⟨⟩) (by rintro _ ⟨⟩)
    exact hwait.setThreads (fun _ => rfl) id id
  · next hpc =>
    exact h.next (m := s.model) hsame (by rw [hpc]; cases s.exited <;> decide) id (by rintro _ ⟨⟩)
  · next signaled hpc =>
    have hkeeps : s.pc.Keeps (.exitTime signaled) := by rw [hpc]; cases signaled <;> decide
    have hsaw : signaled = true → s.exited = true := fun hg => h.exited (by rw [hpc]; exact hg)
    split
    · refine h.next (s.writes_call _ rfl rfl) hkeeps hsaw fun hs hg => ?_
      have hprocess : s.model.childProcess = true := by
        have hframe := congrArg SideFrame.childProcess (h.laid hs (by simp [hpc])).frame
        simpa [frameOf, hpc, Model.sideFrame] using hframe
      exact childExiting_poll hprocess (hsaw hg)
    · next hoff =>
      refine h.next (m := s.model) hsame hkeeps hsaw fun hs => ?_
      exact absurd hs.2 (by simp [hoff, hpc, MainPc.early])
  · next signaled hpc =>
    have hkeeps : s.pc.Keeps (.tick signaled) := by rw [hpc]; cases signaled <;> decide
    have hsaw : signaled = true → s.exited = true := fun hg => h.exited (by rw [hpc]; exact hg)
    have hgo : ∀ {m : Model}, s.model.Writes (fun l => l.isBody = true) m →
        Inv etw { s with model := m, pc := .tick signaled } := fun hw =>
      h.next hw hkeeps hsaw fun hs hg => hstays hw (by simp [hpc]) (by rw [hpc]; exact hg) hs
    split
    · exact hgo hsame
    · split
      · exact hgo (s.writes_call _ rfl rfl)
      · exact hgo hsame
  · next signaled hpc =>
    have hsaw : signaled = true → s.exited = true := fun hg => h.exited (by rw [hpc]; exact hg)
    have hgo : ∀ {m : Model}, s.model.Writes (fun l => l.isBody = true) m →
        Inv etw { s with model := m, pc := if signaled then .markExited else .wait } := by
      intro m hw
      refine h.next hw (by rw [hpc]; cases signaled <;> decide) (fun hg => hsaw ?_) fun hs hg => ?_
      · cases signaled
        · cases hg
        · rfl
      · cases signaled
        · cases hg
        · exact hstays hw (by simp [hpc]) (by rw [hpc]; rfl) hs
    dsimp only
    split
    · exact hgo (s.writes_call _ rfl rfl)
    · exact hgo hsame
  · next hpc =>
    have hw := s.writes_call (.markChildExited i.exitCode) rfl rfl
    exact h.next hw (by rw [hpc]; decide) (fun _ => h.exited (by rw [hpc]; rfl))
      fun hs _ => hstays hw (by simp [hpc]) (by rw [hpc]; rfl) hs
  · next hpc =>
    split
    · exact h
    · next hread =>
      have hnone : ∀ {pc : MainPc}, s.reader = true → pc.mayRead = true := fun hr => absurd hr hread
      split
      · refine h.advance (m := s.model) hsame (by simp [hpc]) (by rintro ⟨⟩) (by rw [hpc]; rfl)
          (by simp [hpc]) hnone (fun _ => rfl) (fun _ => h.exited (by rw [hpc]; rfl)) fun hs _ => ?_
        exact hstays hsame (by simp [hpc]) (by rw [hpc]; rfl) hs
      · next hoff =>
        have hcons : s.consumer = false := by
          by_contra hc
          exact hoff (h.listening (Bool.eq_true_of_not_eq_false hc))
        refine h.advance (m := s.model) hsame (by simp [hpc]) (fun _ hs => ?_) (by rw [hpc]; rfl)
          (by simp [hpc]) hnone (fun hr => ?_) (by rintro ⟨⟩) (by rintro _ ⟨⟩)
        · exact absurd hs.2 (by simp [hoff, hpc, MainPc.early])
        · rw [hcons] at hr
          cases hr
  · next hpc =>
    split
    · exact h
    · next hcons =>
      refine h.advance (m := s.model) hsame (by simp [hpc]) (by rintro ⟨⟩) (by rw [hpc]; rfl)
        (by simp [hpc]) (fun hr => ?_) (fun hr => absurd hr hcons)
        (fun _ => h.exited (by rw [hpc]; rfl)) fun hs _ => ?_
      · exact absurd (h.reader hr) (by simp [hpc, MainPc.mayRead])
      · exact hstays hsame (by simp [hpc]) (by rw [hpc]; rfl) hs
  · next hpc => exact h.finish hpc i.env i.stats
  · exact h

theorem Inv.step (h : Inv etw s) (a : SessionAct) : Inv etw (s.step a) := by
  cases a with
  | main i => exact h.main i
  | record ts r =>
    simp only [Session.step]
    split
    · next hread => exact h.record hread ts r
    · exact h
  | sink x =>
    simp only [Session.step]
    split
    · next hrun =>
      obtain ⟨hrun, hx⟩ := Bool.and_eq_true_iff.mp hrun
      exact h.sink hrun hx
    · exact h
  | readerEnds => exact h.setThreads (by rintro ⟨⟩) id id
  | consumerEnds => exact h.setThreads h.reader (by rintro ⟨⟩) id
  | targetEnds => exact h.setThreads h.reader id fun _ => rfl

theorem inv_run (etw : EtwOptions) (xs : List SessionAct) : Inv etw (run (some etw) xs) := by
  induction xs using List.reverseRecOn with
  | nil => exact inv_start etw
  | append_singleton xs a ih =>
    rw [run, Machine.run_concat]
    exact ih.step a

/-- **The sidecar of a session.**  When `wmain` is done, the sidecar has the line of the first
hello record, if one has come, then lines of the other kinds, exactly one of which says that the
target is exiting, and last the statistics; without an ETW session there is no line. -/
theorem sidecar_structure (etw : EtwOptions) (xs : List SessionAct)
    (hdone : (run (some etw) xs).pc = .done) :
    let s := run (some etw) xs
    if etw.opened = true ∧ s.etwRunning = true then
      ∃ (body : List SideLine) (ts : ℕ), (∀ l ∈ body, l.isBody = true) ∧
        body.countP SideLine.isExit = 1 ∧
        s.model.sideFile =
          (s.hello.map (firstLine etw)).toList ++ body ++ [.etwStats ts s.model.s.etw.statsLine]
    else s.model.sideFile = [] := by
  intro s
  have hs : Inv etw s := inv_run etw xs
  split
  · next hside => exact hs.closed ⟨hside.1, Or.inl hside.2⟩ hdone
  · next hside =>
    refine (hs.bare fun hb => hside ⟨hb.1, hb.2.resolve_right ?_⟩).file
    rw [show s.pc = .done from hdone]
    simp [MainPc.early]

def shortHello : HelloPayload where
  protocolVersion := 5
  pid := 1
  qpcFrequency := 10000000
  qpcStart := 50
  exePath := NameBuf.copy []

/-- A session in which the target creates nothing; the consumer reports one object. -/
def shortSession : List SessionAct :=
  [.main {}, .main {}, .main {}, .main {},
    .record 5 (.hello shortHello), .sink (.objectCreated 80 7 .resource 4096 .unknown),
    .sink (.objectAddress {} 7 256), .main {}, .main {}, .main {}, .main {}, .targetEnds,
    .main {}, .main {}, .main {}, .main {}, .main {}, .readerEnds, .main {}, .consumerEnds,
    .main {}, .main {}]

theorem shortSession_structure :
    let s := run (some ⟨true, [], [], 0⟩) shortSession
    ∃ (body : List SideLine) (ts : ℕ), (∀ l ∈ body, l.isBody = true) ∧
      body.countP SideLine.isExit = 1 ∧
      s.model.sideFile = [.etwHello 5 1 10000000 50 [] 0 []] ++ body ++
        [.etwStats ts s.model.s.etw.statsLine] := by
  have h := sidecar_structure ⟨true, [], [], 0⟩ shortSession rfl
  dsimp only at h
  rw [if_pos ⟨rfl, rfl⟩] at h
  exact h

/-! ### A launcher that is killed -/

theorem sideFile_prefix {m n : Model} {P : SideLine → Prop} (hw : m.Writes P n) :
    m.sideFile <+: n.sideFile := by
  cases hside : m.side with
  | true =>
    obtain ⟨ls, -, hfile, -⟩ := hw.grown hside
    exact ⟨_, hfile.symm⟩
  | false => rw [(hw.closed hside).1]

/-- What a statement of the main thread does to the model. -/
theorem model_mainStep (s : Session) (i : Input) :
    s.model.Writes (fun l => l.isBody = true) (s.mainStep i).model ∨
      (s.pc = .setChildProcess ∧ (s.mainStep i).model = s.model.setChildProcess) ∨
      (s.pc = .startMonitor ∧ (s.mainStep i).model = s.model.disableEtw i.reason) ∨
      (s.pc = .finish ∧ (s.mainStep i).model = s.model.finishEtw i.env i.stats) := by
  have hsame : s.model.Writes (fun l => l.isBody = true) s.model := Model.Writes.refl _
  unfold mainStep
  split
  · next hpc => exact Or.inr (Or.inl ⟨hpc, rfl⟩)
  · next hpc =>
    split
    · exact Or.inl hsame
    · exact Or.inr (Or.inr (Or.inl ⟨hpc, rfl⟩))
  · exact Or.inl (s.writes_call (.setEtwRunning true) rfl rfl)
  · exact Or.inl hsame
  · exact Or.inl hsame
  · split
    · exact Or.inl (s.writes_call (.pollChild (s.seen i.env)) rfl rfl)
    · exact Or.inl hsame
  · split
    · exact Or.inl hsame
    · split
      · exact Or.inl (s.writes_call (.setChildExitQpc _) rfl rfl)
      · exact Or.inl hsame
  · dsimp only
    split
    · exact Or.inl (s.writes_call (.tick i.env i.stats) rfl rfl)
    · exact Or.inl hsame
  · exact Or.inl (s.writes_call (.markChildExited i.exitCode) rfl rfl)
  · split <;> exact Or.inl hsame
  · split <;> exact Or.inl hsame
  · next hpc => exact Or.inr (Or.inr (Or.inr ⟨hpc, rfl⟩))
  · exact Or.inl hsame

/-- Before the reader runs there is nothing in the file. -/
theorem Inv.empty (h : Inv etw s) (hearly : s.pc.early = true) : s.model.sideFile = [] := by
  by_cases hs : HasSide etw s
  · have hdone : s.pc ≠ .done := fun hd => by simp [hd, MainPc.early] at hearly
    obtain ⟨body, -, -, hfile, -⟩ := (h.laid hs hdone).text
    rw [hfile, h.early hearly]
    rfl
  · exact (h.bare hs).file

/-- A step of any thread takes nothing back. -/
theorem Inv.grows (h : Inv etw s) (a : SessionAct) :
    s.model.sideFile <+: (s.step a).model.sideFile := by
  cases a with
  | main i =>
    show s.model.sideFile <+: (s.mainStep i).model.sideFile
    rcases model_mainStep s i with hw | ⟨-, hm⟩ | ⟨hpc, -⟩ | ⟨hpc, hm⟩
    · exact sideFile_prefix hw
    · rw [hm]
      exact List.prefix_rfl
    · rw [h.empty (by rw [hpc]; rfl)]
      exact List.nil_prefix
    · rw [hm]
      by_cases hs : HasSide etw s
      · have hl := h.laid hs (by simp [hpc])
        have hetw : s.model.etwEnabled = true := congrArg SideFrame.etwEnabled hl.frame
        rw [(Model.closes_finishEtw hetw hl.side i.env i.stats).1, List.append_assoc,
          List.append_assoc]
        exact List.prefix_append _ _
      · rw [(h.bare hs).file]
        exact List.nil_prefix
  | record ts r =>
    simp only [Session.step]
    split
    · next hread =>
      by_cases hhello : (Step.event ts r).turnsSide = true
      · obtain ⟨p, rfl⟩ : ∃ p, r = .hello p := by
          cases r <;> first | exact ⟨_, rfl⟩ | cases hhello
        show _ <+: ((s.model.setLatestNs ts).onHello ts p).sideFile
        unfold Model.onHello
        dsimp only
        split
        · exact ⟨_, (List.append_assoc _ _ _).symm⟩
        · exact List.prefix_rfl
      · exact sideFile_prefix (Model.writes_step bodyLines s.model
          (Bool.eq_false_of_not_eq_true hhello) fun _ _ _ _ _ h => by cases h)
    · exact List.prefix_rfl
  | sink x =>
    simp only [Session.step]
    split
    · next hrun =>
      have hx : x.ofSink = true := (Bool.and_eq_true_iff.mp hrun).2
      refine sideFile_prefix (Model.writes_step bodyLines s.model ?_ fun _ _ _ _ _ _ => rfl)
      cases x <;> first | rfl | cases hx
    · exact List.prefix_rfl
  | readerEnds => exact List.prefix_rfl
  | consumerEnds => exact List.prefix_rfl
  | targetEnds => exact List.prefix_rfl

theorem grows_run (etw : EtwOptions) (xs ys : List SessionAct) :
    (run (some etw) xs).model.sideFile <+: (run (some etw) (xs ++ ys)).model.sideFile := by
  induction ys using List.reverseRecOn with
  | nil => rw [List.append_nil]
  | append_singleton ys a ih =>
    rw [← List.append_assoc]
    unfold run at ih ⊢
    rw [Machine.run_concat]
    exact ih.trans ((inv_run etw (xs ++ ys)).grows a)

/-- **A launcher that is killed** leaves a sidecar that is empty, or starts with the line of the
first hello record and says at most once that the target is exiting; whatever has been written is
never taken back. -/
theorem sidecar_killed (etw : EtwOptions) (xs ys : List SessionAct) :
    let s := run (some etw) xs
    s.model.sideFile <+: (run (some etw) (xs ++ ys)).model.sideFile ∧
      (s.pc ≠ .done → s.model.sideFile = [] ∨ ∃ h body, s.hello = some h ∧
        s.model.sideFile = firstLine etw h :: body ∧ (∀ l ∈ body, l.isBody = true) ∧
        body.countP SideLine.isExit ≤ 1) := by
  intro s
  have h : Inv etw s := inv_run etw xs
  refine ⟨grows_run etw xs ys, fun hdone => ?_⟩
  by_cases hs : HasSide etw s
  · obtain ⟨body, hbody, hexit, hfile, -⟩ := (h.laid hs hdone).text
    cases hhello : s.hello with
    | none =>
      left
      rw [hfile, hhello]
      rfl
    | some first =>
      right
      refine ⟨first, body, rfl, ?_, hbody, ?_⟩
      · rw [hfile, hhello]
        rfl
      · rw [hexit]
        exact Bool.toNat_le _
  · exact Or.inl (h.bare hs).file

end Session

end Dx12Track
