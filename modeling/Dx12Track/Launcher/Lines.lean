import Dx12Track.Launcher.Sidecar

/-!
# What the calls write to the sidecar

A line goes to the file once the hello record has come, and is kept back before.
Every call but the first hello record and the last one adds some lines behind those
that are there, and leaves alone what the lines depend on.  Which lines a call adds
is a parameter here: a property of lines that holds of the lines of every kind.

* `SideFrame`, `Model.sideFrame` — what decides where a line goes.
* `Model.Writes` — a change that adds lines with a property.
* `BodyLines` — the properties that the lines of the join have.
* `Model.writes_step` — **what a call adds**.
* `opens_onHello`, `closes_finishEtw` — the first line and the last.
-/

namespace Dx12Track

open Etw (ObjType Group ResidencyOp CounterKind GroupChange Stats)

/-- The line that says that the child is exiting. -/
def SideLine.isExit : SideLine → Bool
  | .targetExiting .. => true
  | _ => false

/-- A property that the lines of the join, of the residency operations and of the counters have.
It is about the text of a line, so numbers do not matter, and a model gives the counters. -/
structure BodyLines (P : SideLine → Prop) : Prop where
  etwObject : ∀ ts libId type ptr size group, P (.etwObject ts libId type ptr size group)
  etwBind : ∀ ts id libId type ptr late, P (.etwBind ts id libId type ptr late)
  location : ∀ ts id group viaHeap, P (.location ts id group viaHeap)
  driverSize : ∀ ts id bytes, P (.driverSize ts id bytes)
  residency : ∀ ts id libId type op, P (.residency ts id libId type op)
  etwObjectDestroyed : ∀ ts libId, P (.etwObjectDestroyed ts libId)
  counters : ∀ (m : Model) ts, P (m.countersLine ts)
  targetExiting : ∀ ts detectedNs exitCode, P (.targetExiting ts detectedNs exitCode)

/-- What decides where a line goes, and what the first line repeats. -/
structure SideFrame where
  side : Bool
  helloSeen : Bool
  etwEnabled : Bool
  childProcess : Bool
  sessionName : WString
  mainLogPath : WString
  rundownIntervalMs : ℕ

/-- The calls that do more than add lines: the hello record, which opens the file, the one that
closes it, and the one that hands over the handle of the child. -/
def Step.turnsSide : Step → Bool
  | .event _ (.hello _) | .finish .. | .setChildProcess => true
  | _ => false

namespace Model

/-- What the lines do not change. -/
def sideFrame (m : Model) : SideFrame where
  side := m.side
  helloSeen := m.helloSeen
  etwEnabled := m.etwEnabled
  childProcess := m.childProcess
  sessionName := m.sessionName
  mainLogPath := m.mainLogPath
  rundownIntervalMs := m.rundownIntervalMs

/-- From `m` to `m'` some lines with the property `P` are added to an open sidecar, and the child
is taken to be exiting exactly if a line says so.  Without a sidecar there is nothing. -/
structure Writes (P : SideLine → Prop) (m m' : Model) : Prop where
  frame : m'.sideFrame = m.sideFrame
  grown : m.side = true → ∃ ls : List SideLine, (∀ l ∈ ls, P l) ∧
    m'.sideFile = m.sideFile ++ (if m.helloSeen then ls else []) ∧
    m'.sidePrebuf = m.sidePrebuf ++ (if m.helloSeen then [] else ls) ∧
    ls.countP SideLine.isExit + m.childExiting.toNat = m'.childExiting.toNat
  closed : m.side = false → m'.sideFile = m.sideFile ∧ m'.sidePrebuf = m.sidePrebuf

variable {P : SideLine → Prop} {m n : Model}

theorem Writes.side (h : m.Writes P n) : n.side = m.side := congrArg SideFrame.side h.frame
theorem Writes.helloSeen (h : m.Writes P n) : n.helloSeen = m.helloSeen :=
  congrArg SideFrame.helloSeen h.frame

/-- **One call after the other**: the lines of both, and the exit line at the
place of its own call. -/
theorem Writes.trans {n' : Model} (h : m.Writes P n) (h' : n.Writes P n') : m.Writes P n' := by
  refine ⟨h'.frame.trans h.frame, fun hside => ?_, fun hside => ?_⟩
  swap
  · obtain ⟨hfile, hpre⟩ := h.closed hside
    obtain ⟨hfile', hpre'⟩ := h'.closed (h.side.trans hside)
    exact ⟨hfile'.trans hfile, hpre'.trans hpre⟩
  obtain ⟨ls, hls, hfile, hpre, hexit⟩ := h.grown hside
  obtain ⟨ls', hls', hfile', hpre', hexit'⟩ := h'.grown (h.side.trans hside)
  refine ⟨ls ++ ls', fun l hl => ?_, ?_, ?_, ?_⟩
  · exact (List.mem_append.mp hl).elim (hls l) (hls' l)
  · rw [hfile', hfile, h.helloSeen]
    split <;> simp
  · rw [hpre', hpre, h.helloSeen]
    split <;> simp
  · rw [List.countP_append]
    omega

/-- A call that writes no line. -/
theorem writes_of_frame (hframe : n.sideFrame = m.sideFrame) (hfile : n.sideFile = m.sideFile)
    (hpre : n.sidePrebuf = m.sidePrebuf) (hexit : n.childExiting = m.childExiting) :
    m.Writes P n := by
  refine ⟨hframe, fun _ => ⟨[], by simp, ?_, ?_, ?_⟩, fun _ => ⟨hfile, hpre⟩⟩
  · rw [hfile, ite_self, List.append_nil]
  · rw [hpre, ite_self, List.append_nil]
  · rw [hexit, List.countP_nil, Nat.zero_add]

theorem Writes.refl (m : Model) : m.Writes P m := writes_of_frame rfl rfl rfl rfl

/-- A further step that writes none. -/
theorem Writes.same (h : m.Writes P n) {n' : Model} (hframe : n'.sideFrame = n.sideFrame)
    (hfile : n'.sideFile = n.sideFile) (hpre : n'.sidePrebuf = n.sidePrebuf)
    (hexit : n'.childExiting = n.childExiting) : m.Writes P n' :=
  h.trans (writes_of_frame hframe hfile hpre hexit)

/-- A branch. -/
theorem Writes.ite {n' : Model} {c : Prop} [Decidable c] (h : m.Writes P n) (h' : m.Writes P n') :
    m.Writes P (if c then n else n') := by
  split
  · exact h
  · exact h'

/-! ### Lines -/

/-- The file and the lines kept back, after one more line. -/
theorem files_sideLine (hside : m.side = true) (l : SideLine) :
    (m.sideLine l).sideFile = m.sideFile ++ (if m.helloSeen then [l] else []) ∧
      (m.sideLine l).sidePrebuf = m.sidePrebuf ++ (if m.helloSeen then [] else [l]) := by
  unfold sideLine
  rw [hside]
  cases m.helloSeen <;> simp

/-- Without a file nothing is written. -/
theorem sideLine_closed (hside : m.side = false) (l : SideLine) : m.sideLine l = m := by
  unfold sideLine
  rw [hside]
  rfl

/-- A line changes the file or the buffer only. -/
theorem sideFrame_sideLine (m : Model) (l : SideLine) :
    (m.sideLine l).sideFrame = m.sideFrame ∧ (m.sideLine l).childExiting = m.childExiting := by
  unfold sideLine
  split_ifs <;> exact ⟨rfl, rfl⟩

/-- **One more line.** -/
theorem Writes.sideLine (h : m.Writes P n) {l : SideLine} (hl : P l) (hplain : l.isExit = false) :
    m.Writes P (n.sideLine l) := by
  obtain ⟨hframe, hexit⟩ := sideFrame_sideLine n l
  refine h.trans ⟨hframe, fun hside => ⟨[l], by simpa using hl, ?_, ?_, ?_⟩, fun hside => ?_⟩
  rotate_right
  · rw [sideLine_closed hside]
    exact ⟨rfl, rfl⟩
  · exact (files_sideLine hside l).1
  · exact (files_sideLine hside l).2
  · rw [hexit]
    simp [hplain]

/-- The child is taken to be exiting, and a line says so. -/
theorem Writes.markExiting (h : m.Writes P n)
    (hP : ∀ ts detectedNs exitCode, P (.targetExiting ts detectedNs exitCode))
    (hopen : n.childExiting = false) (now code : ℕ) : m.Writes P (n.markExiting now code) := by
  -- the flag is set first, which decides nothing about the line
  obtain ⟨r, l, hr, hl, hframe, hfile, hpre, hexit, hline⟩ :
      ∃ (r : Model) (l : SideLine), n.markExiting now code = r.sideLine l ∧ P l ∧
        r.sideFrame = n.sideFrame ∧ r.sideFile = n.sideFile ∧ r.sidePrebuf = n.sidePrebuf ∧
        r.childExiting = true ∧ l.isExit = true :=
    ⟨_, _, rfl, hP _ _ _, rfl, rfl, rfl, rfl, rfl⟩
  have hside : r.side = n.side := congrArg SideFrame.side hframe
  have hhello : r.helloSeen = n.helloSeen := congrArg SideFrame.helloSeen hframe
  obtain ⟨hframe', hexit'⟩ := sideFrame_sideLine r l
  rw [hr]
  refine h.trans
    ⟨hframe'.trans hframe, fun hs => ⟨[l], by simpa using hl, ?_, ?_, ?_⟩, fun hs => ?_⟩
  rotate_right
  · rw [sideLine_closed (hside.trans hs)]
    exact ⟨hfile, hpre⟩
  · rw [(files_sideLine (hside.trans hs) l).1, hfile, hhello]
  · rw [(files_sideLine (hside.trans hs) l).2, hpre, hhello]
  · rw [hexit', hexit, hopen]
    simp [hline]

/-! ### Writes to the members -/

/-- The tables are not the file. -/
theorem Writes.updLive (h : m.Writes P n) (id : ℕ) (f : LiveObject → LiveObject) :
    m.Writes P (n.updLive id f) := h.same rfl rfl rfl rfl
theorem Writes.updEtw (h : m.Writes P n) (key : ℕ) (f : EtwObj → EtwObj) :
    m.Writes P (n.updEtw key f) := h.same rfl rfl rfl rfl
theorem Writes.updStats (h : m.Writes P n) (f : EtwSnapshot → EtwSnapshot) :
    m.Writes P (n.updStats f) := h.same rfl rfl rfl rfl

theorem Writes.eraseEtw (h : m.Writes P n) (key : ℕ) :
    m.Writes P (n.setEtwObjs (n.etwObjs.erase key)) := h.same rfl rfl rfl rfl
theorem Writes.insertAlias (h : m.Writes P n) (libId key : ℕ) :
    m.Writes P (n.setEtwAlias (n.etwAlias.insert libId key)) := h.same rfl rfl rfl rfl

theorem Writes.addLoc (h : m.Writes P n) (o : LiveObject) (sign : ℤ) :
    m.Writes P (n.addLoc o sign) := by
  unfold Model.addLoc
  exact h.ite (h.updStats _)

theorem Writes.driverAgg (h : m.Writes P n) (e : EtwObj) (sign : ℤ) :
    m.Writes P (n.driverAgg e sign) := by
  unfold Model.driverAgg
  dsimp only
  have hlive := h.updStats fun s => { s with live := setAt s.live e.type (s.live e.type + 1) }
  have hdead := h.updStats fun s =>
    { s with live := setAt s.live e.type (subClamped (s.live e.type) 1) }
  exact Writes.ite (Writes.ite (hlive.updStats _) hlive) (Writes.ite (hdead.updStats _) hdead)

section Body

variable (hP : BodyLines P)

include hP

/-! ### Locations -/

/-- A location that changed is printed. -/
theorem Writes.recomputeLoc (h : m.Writes P n) (id ts : ℕ) (force : Bool) :
    m.Writes P (n.recomputeLoc id ts force) := by
  unfold Model.recomputeLoc
  split
  · exact h
  · next o _ =>
    dsimp only
    have hmoved : m.Writes P (if decide ((n.effLoc o).1 ≠ o.effLoc) = true then
        n.moveLoc id o (n.effLoc o).1 else n) :=
      Writes.ite (((h.addLoc o (-1)).updLive id _).addLoc _ 1) h
    exact Writes.ite ((hmoved.updLive id _).sideLine (hP.location _ _ _ _) rfl) hmoved

/-- The children of a heap, one by one. -/
theorem Writes.recomputeChildren (h : m.Writes P n) (heapId ts : ℕ) :
    m.Writes P (n.recomputeChildren heapId ts) := by
  have hfold : ∀ (kids : List ℕ) {r : Model}, m.Writes P r →
      m.Writes P (kids.foldl (fun m cid => m.recomputeLoc cid ts false) r) := by
    intro kids
    induction kids with
    | nil => exact fun h => h
    | cons k kids ih => exact fun h => ih (h.recomputeLoc hP k ts false)
  exact hfold _ h

/-! ### The join -/

/-- A binding prints a line of its own, a location and a size. -/
theorem Writes.bind (h : m.Writes P n) (key id ts : ℕ) : m.Writes P (n.bind key id ts) := by
  unfold Model.bind
  split
  · next e o _ _ =>
    have hother : m.Writes P (n.unbindOther key o) := Writes.ite (h.updEtw _ _) h
    have hpair := ((hother.updEtw key fun e => (e.setBoundId o.id).setPending 0).updLive id
      (·.setEtwKey key)).updStats fun t => { t with binds := t.binds + 1 }
    have hsaid := (hpair.sideLine (hP.etwBind ts o.id key e.type o.objectPtr false) rfl).updLive id
      (·.setOwnLoc e.group)
    have hlocated := hsaid.recomputeLoc hP id ts (!o.locReported)
    have hkids := Writes.ite (c := o.type = .heap) (hlocated.recomputeChildren hP o.id ts) hlocated
    have hsized := hkids.updLive id (·.setDriverSize e.size)
    exact Writes.ite (Writes.ite (hsized.sideLine (hP.driverSize _ _ _) rfl) hsized) hkids
  · exact h

/-- An attempt prints something if it succeeds. -/
theorem Writes.tryBindEtw (h : m.Writes P n) (env : Env) (key ts : ℕ) :
    m.Writes P (n.tryBindEtw env key ts) := by
  rcases n.tryBindEtw_cases env key ts with hsame | ⟨e, -, ⟨id, -, hbind⟩ | ⟨x, hlate⟩ | hwait⟩
  · rw [hsame]
    exact h
  · rw [hbind]
    exact h.bind hP key id ts
  · rw [hlate]
    have hgone := h.updEtw key fun e =>
      (e.setOrphanTs (if x.destroyedNs ≠ 0 then x.destroyedNs else 1)).setPending 0
    exact (hgone.updStats fun t => { t with lateMatches := t.lateMatches + 1 }).sideLine
      (hP.etwBind _ _ _ _ _ _) rfl
  · rw [hwait]
    unfold Model.waitForObject
    have hset := h.updEtw key (·.setPending (if env.nowMs ≠ 0 then env.nowMs else 1))
    exact Writes.ite (hset.same rfl rfl rfl rfl) h

/-- A group prints the locations it changes. -/
theorem Writes.applyGroup (h : m.Writes P n) (key : ℕ) (g : MemLoc) (ts : ℕ) :
    m.Writes P (n.applyGroup key g ts) := by
  have hupd := h.updEtw key (·.setGroup g)
  unfold Model.applyGroup
  split
  · exact h
  · next e _ =>
    dsimp only
    split
    · exact hupd
    · split
      · exact hupd
      · next o _ =>
        have hmoved := (hupd.updLive e.boundId (·.setOwnLoc g)).recomputeLoc hP e.boundId ts false
        exact Writes.ite (hmoved.recomputeChildren hP o.id ts) hmoved

/-- A size prints the driver's size. -/
theorem Writes.applySize (h : m.Writes P n) (key size ts : ℕ) :
    m.Writes P (n.applySize key size ts) := by
  unfold Model.applySize
  split
  · exact h
  · next e _ =>
    split
    · exact h
    · have hupd := ((h.driverAgg e (-1)).updEtw key (·.setSize size)).driverAgg (e.setSize size) 1
      dsimp only
      split
      · exact hupd
      · split
        · exact hupd
        · exact Writes.ite hupd ((hupd.updLive _ _).sideLine (hP.driverSize _ _ _) rfl)

/-- A re-report prints what it changes in the entry it belongs to. -/
theorem Writes.foldRundown (h : m.Writes P n) (env : Env) (key : ℕ) (e : EtwObj) (into : ℕ)
    (old : EtwObj) : m.Writes P (n.foldRundown env key e into old) := by
  have hcount := h.updStats fun t => { t with rundownDuplicates := t.rundownDuplicates + 1 }
  have hsized := Writes.ite (c := e.size ≠ 0) (hcount.applySize hP into e.size e.createdTs) hcount
  have hgrouped := (Writes.ite (c := e.group ≠ .unknown ∧ e.group ≠ old.group)
    (hsized.applyGroup hP into e.group e.createdTs) hsized).driverAgg e (-1)
  rw [foldRundown_eq]
  have hfolded := ((hgrouped.eraseEtw key).updEtw into (·.addAlias key)).insertAlias key into
  exact hfolded.tryBindEtw hP env into e.createdTs

/-- An entry is printed with its address. -/
theorem Writes.takeAddress (h : m.Writes P n) (env : Env) (key : ℕ) (e : EtwObj) (address : ℕ) :
    m.Writes P (n.takeAddress env key e address) := by
  have hown : m.Writes P ((n.updEtw key (·.setAddress address)).setEtwByAddr
      ((n.updEtw key (·.setAddress address)).etwByAddr.insert address key)) :=
    (h.updEtw key (·.setAddress address)).same rfl rfl rfl rfl
  exact (hown.sideLine (hP.etwObject _ _ _ _ _ _) rfl).tryBindEtw hP env key e.createdTs

theorem Writes.bindReported (h : m.Writes P n) (id ts : ℕ) :
    m.Writes P (n.bindReported id ts) := by
  rcases n.bindReported_cases id ts with hsame | ⟨o, key, e, -, -, -, -, -, hbind⟩
  · rw [hsame]
    exact h
  · rw [hbind]
    exact h.bind hP key id ts

/-! ### The pipe -/

/-- **A `created` record writes proper lines.** -/
theorem Writes.onCreated (h : m.Writes P n) (ts : ℕ) (p : CreatedPayload) :
    m.Writes P (n.onCreated ts p) := by
  have hjoin : ∀ {r : Model}, m.Writes P r →
      m.Writes P (if r.etwEnabled then r.etwOnCreated p.id ts else r) := by
    intro r hr
    refine Writes.ite ?_ hr
    unfold Model.etwOnCreated
    split
    · exact hr
    · next o _ =>
      have hindex : m.Writes P (r.indexOccupant p.id o) := Writes.ite hr (hr.same rfl rfl rfl rfl)
      have hchild : m.Writes P ((r.indexOccupant p.id o).addChild o) :=
        Writes.ite (hindex.same rfl rfl rfl rfl) hindex
      refine Writes.bindReported hP ?_ _ ts
      unfold Model.firstLoc
      split
      · exact hchild
      · dsimp only
        have hset := fun l (o : LiveObject) =>
          (hchild.updLive p.id (·.setEffLoc l)).addLoc { o with effLoc := l } 1
        exact Writes.ite ((hset _ _).recomputeLoc hP _ ts true) (hset _ _)
  have hrecent : ∀ {r : Model} (line : ActivityLine), m.Writes P r →
      m.Writes P (r.pushRecent line) := fun _ hr => hr.same rfl rfl rfl rfl
  unfold Model.onCreated
  exact hrecent _ (hjoin (h.same rfl rfl rfl rfl))

/-- A child that falls back is printed. -/
theorem Writes.dropToOwnLoc (h : m.Writes P n) (cid ts : ℕ) :
    m.Writes P (n.dropToOwnLoc cid ts) := by
  unfold Model.dropToOwnLoc
  split
  · exact h
  · next child _ =>
    have hmoved : m.Writes P (n.moveLoc cid child child.ownLoc) :=
      ((h.addLoc child (-1)).updLive cid _).addLoc _ 1
    exact Writes.ite (hmoved.sideLine (hP.location _ _ _ _) rfl) h

/-- The ETW part of a death, block by block. -/
theorem Writes.etwOnDestroyed (h : m.Writes P n) (id ts : ℕ) :
    m.Writes P (n.etwOnDestroyed id ts) := by
  have hforget : ∀ {r : Model} (o : LiveObject), m.Writes P r →
      m.Writes P (r.forgetOccupant o ts) := by
    intro r o hr
    have hptr : m.Writes P (if r.ptrToId.lookup o.objectPtr = some o.id then
        r.setPtrToId (r.ptrToId.erase o.objectPtr) else r) :=
      Writes.ite (hr.same rfl rfl rfl rfl) hr
    unfold Model.forgetOccupant
    dsimp only
    generalize (if r.ptrToId.lookup o.objectPtr = some o.id then
      r.setPtrToId (r.ptrToId.erase o.objectPtr) else r) = r' at hptr ⊢
    exact Writes.ite hr (hptr.same rfl rfl rfl rfl)
  have horphan : ∀ {r : Model} (o : LiveObject), m.Writes P r →
      m.Writes P (r.orphanBound id o ts) := by
    intro r o hr
    refine Writes.ite hr (Writes.updLive ?_ id _)
    split
    · exact hr
    · exact Writes.ite (hr.updEtw _ _) hr
  have hremove : ∀ {r : Model} (o : LiveObject), m.Writes P r → m.Writes P (r.removeChild o) := by
    intro r o hr
    refine Writes.ite ?_ hr
    split
    · exact hr
    · exact Writes.ite (hr.same rfl rfl rfl rfl) (hr.same rfl rfl rfl rfl)
  have hfold : ∀ (kids : List ℕ) {r : Model}, m.Writes P r →
      m.Writes P (kids.foldl (fun m cid => m.dropToOwnLoc cid ts) r) := by
    intro kids
    induction kids with
    | nil => exact fun h => h
    | cons k kids ih => exact fun h => ih (h.dropToOwnLoc hP k ts)
  unfold Model.etwOnDestroyed
  split
  · exact h
  · next o _ =>
    have hgone := hremove o (horphan o (hforget o (h.addLoc o (-1))))
    unfold Model.dropChildren
    refine Writes.ite ?_ hgone
    split
    · exact hgone
    · exact hfold _ (hgone.same rfl rfl rfl rfl)

/-- **So does a `destroyed` record.** -/
theorem Writes.onDestroyed (h : m.Writes P n) (ts : ℕ) (p : DestroyedPayload) :
    m.Writes P (n.onDestroyed ts p) := by
  unfold Model.onDestroyed
  split
  · exact h
  · have hjoin : m.Writes P (if n.etwEnabled then n.etwOnDestroyed p.id ts else n) :=
      Writes.ite (h.etwOnDestroyed hP p.id ts) h
    -- the counts and the list of recent events are what is left
    generalize (if n.etwEnabled then n.etwOnDestroyed p.id ts else n) = r at hjoin ⊢
    exact hjoin.same rfl rfl rfl rfl

/-! ### The ETW sink -/

/-- **So does an address.** -/
theorem Writes.onEtwObjectAddress (h : m.Writes P n) (env : Env) (libId address : ℕ) :
    m.Writes P (n.onEtwObjectAddress env libId address) := by
  rcases n.onEtwObjectAddress_cases env libId address with
    hsame | ⟨key, e, -, -, -, htake | ⟨into, old, -, -, -, -, hfold⟩⟩
  · rw [hsame]
    exact h
  · rw [htake]
    exact h.takeAddress hP env key e address
  · rw [hfold]
    exact h.foldRundown hP env key e into old

/-- A destruction is printed if the object had an address. -/
theorem Writes.onEtwObjectDestroyed (h : m.Writes P n) (ts : ℤ) (libId : ℕ) :
    m.Writes P (n.onEtwObjectDestroyed ts libId) := by
  unfold Model.onEtwObjectDestroyed
  refine Writes.ite h ?_
  split
  · exact h
  · next key e _ =>
    have hline : m.Writes P (if e.address ≠ 0 then
        n.sideLine (.etwObjectDestroyed (n.convTs ts) key) else n) :=
      Writes.ite (h.sideLine (hP.etwObjectDestroyed _ _) rfl) h
    generalize (if e.address ≠ 0 then n.sideLine (.etwObjectDestroyed (n.convTs ts) key)
      else n) = r at hline ⊢
    have hunkey : m.Writes P (r.unkey key e) := by
      rcases r.unkey_cases key e with hsame | hcut
      · rw [hsame]
        exact hline
      · rw [hcut]
        exact hline.updLive _ _
    have haddr : ∀ (c : Prop) [Decidable c] (t u : Table ℕ ℕ), m.Writes P
        (if c then ((r.unkey key e).setEtwAlias t).setEtwByAddr u
          else (r.unkey key e).setEtwAlias t) :=
      fun c _ t u => Writes.ite (hunkey.same rfl rfl rfl rfl) (hunkey.same rfl rfl rfl rfl)
    unfold Model.dropEtw
    exact ((haddr _ _ _).driverAgg e (-1)).same rfl rfl rfl rfl

/-- The exit line is written when the process is seen gone. -/
theorem Writes.pollChildLocked (h : m.Writes P n) (env : Env) :
    m.Writes P (n.pollChildLocked env) := by
  unfold Model.pollChildLocked
  split
  · exact h
  · next hopen =>
    have hopen : n.childExiting = false := by
      by_contra hne
      exact hopen (by simp [Bool.eq_true_of_not_eq_false hne])
    have hmark := fun now code => h.markExiting hP.targetExiting hopen now code
    dsimp only
    refine Writes.ite ?_ (hmark _ _)
    split
    · exact h
    · exact Writes.ite (h.same rfl rfl rfl rfl) (hmark _ _)

theorem Writes.afterChildExitLocked (h : m.Writes P n) (env : Env) (ts : ℕ) :
    m.Writes P (n.afterChildExitLocked env ts).2 := by
  unfold Model.afterChildExitLocked
  exact Writes.ite (h.pollChildLocked hP env) h

/-- A group change asks for the process first. -/
theorem Writes.onEtwGroupChange (h : m.Writes P n) (c : GroupChange) (env : Env) :
    m.Writes P (n.onEtwGroupChange c env) := by
  have hpolled := h.afterChildExitLocked hP env (n.convTs c.ts)
  unfold Model.onEtwGroupChange
  refine Writes.ite (hpolled.updStats _) ?_
  have hcount := hpolled.updStats fun t => { t with groupChanges := t.groupChanges + 1 }
  unfold Model.regroup
  dsimp only
  split
  · exact hcount
  · next key e _ => exact Writes.ite (hcount.applyGroup hP key (fromGroup c.group) _) hcount

/-- A batch, one by one. -/
theorem Writes.onEtwGroupChanges (h : m.Writes P n) (changes : List (GroupChange × Env)) :
    m.Writes P (n.onEtwGroupChanges changes) := by
  have hfold : ∀ {r : Model}, m.Writes P r →
      m.Writes P (changes.foldl (fun m c => m.onEtwGroupChange c.1 c.2) r) := by
    induction changes with
    | nil => exact fun h => h
    | cons c cs ih => exact fun h => ih (h.onEtwGroupChange hP c.1 c.2)
  unfold Model.onEtwGroupChanges
  exact Writes.ite h (hfold h)

/-- A paging operation is printed unless the process is gone. -/
theorem Writes.onEtwResidency (h : m.Writes P n) (env : Env) (ts : ℤ) (libId : ℕ) (type : ObjType)
    (op : ResidencyOp) : m.Writes P (n.onEtwResidency env ts libId type op) := by
  have hpolled := h.afterChildExitLocked hP env (n.convTs ts)
  have hline : ∀ {r : Model} (ts : ℕ), m.Writes P r →
      m.Writes P (r.residencyLine ts libId type op) := by
    intro r ts hr
    unfold Model.residencyLine
    split <;> exact hr.sideLine (hP.residency _ _ _ _ _) rfl
  unfold Model.onEtwResidency
  refine Writes.ite h (Writes.ite (hpolled.updStats _) ?_)
  unfold Model.countResidency
  split
  · exact hpolled.updStats _
  · exact hpolled.updStats _
  · exact hline _ (hpolled.updStats _)
  · exact hline _ (hpolled.updStats _)

/-- The counters wait for the tick. -/
theorem Writes.onEtwCounter (h : m.Writes P n) (env : Env) (ts : ℤ) (counterId : ℕ)
    (kind : CounterKind) (bytes : ℕ) : m.Writes P (n.onEtwCounter env ts counterId kind bytes) := by
  have hpolled := h.afterChildExitLocked hP env (n.convTs ts)
  unfold Model.onEtwCounter
  refine Writes.ite h (Writes.ite h ?_)
  exact Writes.ite hpolled (hpolled.same rfl rfl rfl rfl)

/-! ### The main thread -/

omit hP in
/-- To give up waiting is not printed. -/
theorem Writes.expirePending (h : m.Writes P n) (nowMs : ℕ) (q : List ℕ) :
    m.Writes P (Model.expirePending nowMs q n) := by
  induction q generalizing n with
  | nil => exact h.same rfl rfl rfl rfl
  | cons k q ih =>
    unfold Model.expirePending
    split
    · exact ih h
    · refine Writes.ite (ih h) (Writes.ite (h.same rfl rfl rfl rfl) ?_)
      exact ih ((h.updEtw k _).updStats _)

omit hP in
theorem Writes.forgetDead (h : m.Writes P n) (nowTs : ℕ) (q : List (ℕ × ℕ)) :
    m.Writes P (Model.forgetDead nowTs q n) := by
  induction q generalizing n with
  | nil => exact h.same rfl rfl rfl rfl
  | cons d q ih =>
    unfold Model.forgetDead
    dsimp only
    split
    · split
      · exact ih h
      · exact ih (h.same rfl rfl rfl rfl)
    · exact h.same rfl rfl rfl rfl

/-- **A tick prints the counters of its second.** -/
theorem Writes.etwTick (h : m.Writes P n) (env : Env) (st : Stats) :
    m.Writes P (n.etwTick env st) := by
  unfold Model.etwTick
  refine Writes.ite h ?_
  dsimp only
  have hdead : ∀ r : Model, m.Writes P r →
      m.Writes P (Model.forgetDead (r.nowTsLocked env) r.destroyHist r) :=
    fun r hr => hr.forgetDead _ _
  have hlast : ∀ r : Model, m.Writes P r →
      m.Writes P ({ r with lastSecondMs := env.nowMs } : Model).refreshJoinStats :=
    fun r hr => hr.same rfl rfl rfl rfl
  have hexpired := (h.updStats fun t => { t with session := st }).expirePending env.nowMs
    (n.updStats fun t => { t with session := st }).pendingQ
  have hpruned := hdead _ hexpired
  exact Writes.ite hpruned (Writes.ite ((hlast _ hpruned).sideLine (hP.counters _ _) rfl)
    (hlast _ hpruned))

/-! ### The calls -/

omit hP in
theorem Writes.setChildExitQpc (h : m.Writes P n) (exitQpc : ℕ) :
    m.Writes P (n.setChildExitQpc exitQpc) := by
  unfold Model.setChildExitQpc
  exact Writes.ite h (h.same rfl rfl rfl rfl)

/-- **What a call adds** are lines with any property that the lines of their kinds have. -/
theorem writes_step (m : Model) {x : Step} (hx : x.turnsSide = false)
    (hdiag : ∀ env error code msg ts, x = .diagnostic env error code msg →
      P (.etwDiag ts error code msg)) : m.Writes P (m.step x) := by
  have h : m.Writes P m := Writes.refl m
  cases x with
  | event ts r =>
    have hlatest : m.Writes P (m.setLatestNs ts) := writes_of_frame rfl rfl rfl rfl
    cases r with
    | hello p => cases hx
    | created p => exact hlatest.onCreated hP ts p
    | renamed p => exact hlatest.updLive _ _
    | destroyed p => exact hlatest.onDestroyed hP ts p
    | goodbye p => exact hlatest.same rfl rfl rfl rfl
    | other => exact hlatest
  | objectCreated ts libId type size group =>
    show m.Writes P (m.onEtwObjectCreated ts libId type size group)
    unfold onEtwObjectCreated
    refine Writes.ite h ?_
    have hcounted := h.driverAgg
      { type := type, size := size, group := fromGroup group, createdTs := m.convTs ts } 1
    have hstored : ∀ {r : Model} (e : EtwObj), m.Writes P r → m.Writes P (r.storeEtw libId e) := by
      intro r e hr
      have hkept : m.Writes P (if (r.etwObjs.lookup libId).isSome then r
          else r.setEtwObjs (r.etwObjs.insert libId e)) := Writes.ite hr (hr.same rfl rfl rfl rfl)
      exact hkept.same rfl rfl rfl rfl
    exact (hstored _ hcounted).updStats _
  | objectAddress env libId address => exact h.onEtwObjectAddress hP env libId address
  | objectDestroyed ts libId => exact h.onEtwObjectDestroyed hP ts libId
  | objectSize ts libId size =>
    show m.Writes P (m.onEtwObjectSize ts libId size)
    unfold onEtwObjectSize
    refine Writes.ite h ?_
    split
    · exact h
    · next key _ _ => exact h.applySize hP key size (m.convTs ts)
  | groupChanges changes => exact h.onEtwGroupChanges hP changes
  | residency env ts libId type op => exact h.onEtwResidency hP env ts libId type op
  | counter env ts counterId kind bytes => exact h.onEtwCounter hP env ts counterId kind bytes
  | diagnostic env error code msg =>
    show m.Writes P (m.onEtwDiagnostic env error code msg)
    unfold onEtwDiagnostic
    exact Writes.ite h ((h.updStats _).sideLine (hdiag _ _ _ _ _ rfl) rfl)
  | tick env st => exact h.etwTick hP env st
  | pollChild env => exact h.pollChildLocked hP env
  | setChildProcess => cases hx
  | setChildExitQpc exitQpc => exact h.setChildExitQpc exitQpc
  | markChildExited exitCode => exact h.same rfl rfl rfl rfl
  | setEtwRunning running => exact h.same rfl rfl rfl rfl
  | finish env st => cases hx

end Body

/-! ### The first line and the last -/

/-- The line that opens the sidecar. -/
def helloLine (m : Model) (ts : ℕ) (p : HelloPayload) : SideLine :=
  .etwHello ts p.pid p.qpcFrequency p.qpcStart m.sessionName m.rundownIntervalMs m.mainLogPath

/-- A later hello record adds nothing. -/
theorem writes_onHello (hseen : m.helloSeen = true) (ts : ℕ) (p : HelloPayload) :
    m.Writes P (m.onHello ts p) := by
  unfold onHello
  dsimp only
  rw [if_neg (by simp [hseen])]
  exact writes_of_frame (by rw [sideFrame, sideFrame, hseen]) rfl rfl rfl

/-- The first hello record opens the file, and the lines kept back follow it. -/
theorem opens_onHello (hetw : m.etwEnabled = true) (hside : m.side = true)
    (hseen : m.helloSeen = false) (ts : ℕ) (p : HelloPayload) :
    (m.onHello ts p).sideFrame = { m.sideFrame with helloSeen := true } ∧
      (m.onHello ts p).sideFile = m.sideFile ++ [m.helloLine ts p] ++ m.sidePrebuf ∧
      (m.onHello ts p).sidePrebuf = [] ∧ (m.onHello ts p).childExiting = m.childExiting := by
  unfold onHello
  dsimp only
  rw [hetw, hseen, hside]
  exact ⟨by simp [sideFrame, hetw, hside], rfl, rfl, rfl⟩

/-- The last call adds its line, and closes the file behind all that was kept back. -/
theorem closes_finishEtw (hetw : m.etwEnabled = true) (hside : m.side = true) (env : Env)
    (st : Stats) :
    (m.finishEtw env st).sideFile = m.sideFile ++ (if m.helloSeen then [] else m.sidePrebuf)
      ++ [.etwStats (m.nowTsLocked env) (m.finishEtw env st).s.etw.statsLine]
      ++ (if m.helloSeen then m.sidePrebuf else []) ∧
      (m.finishEtw env st).side = false := by
  unfold finishEtw
  rw [if_neg (by simp [updStats, setSnapshot, hetw])]
  dsimp only
  rw [if_pos (by simpa [refreshJoinStats, updStats, setSnapshot] using hside)]
  unfold closeSide sideLine
  cases hs : m.helloSeen <;>
    simp [refreshJoinStats, updStats, setSnapshot, hside, hs, nowTsLocked]

end Model

end Dx12Track
