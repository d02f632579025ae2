import Dx12Track.Launcher.State

/-!
# The launcher's model: operations

The member functions of `src/launcher/Model.cpp`, in its order.  Every public
function holds `mu_` from its first to its last statement, so each is one step
`Model → Model`.  A C++ reference into a hash table is the key here, and a write
through it is `updLive` or `updEtw` under that key.

* `effLoc` … `recomputeChildren` — the location of an object, and its totals.
* `canBind`, `bind`, `tryBindEtw` — the join.
* `etwOnCreated`, `etwOnDestroyed` — the join work of a pipe event.
* `onEvent` — a record from the pipe.
* `onEtwObjectCreated` … `onEtwDiagnostic` — the ETW sink.
* `etwTick` — the periodic work of the main thread.
-/

namespace Dx12Track

open Etw (ObjType Group ResidencyOp CounterKind)

/-! ### Constants and pure helpers -/

def kEtwPendingTimeoutMs : ℕ := 10000
def kBindSlackNs : ℕ := 100000
def kDestroyHistoryNs : ℕ := 10000000000
def kDeadPerAddress : ℕ := 1024

/-- Addition of `uint64_t`. -/
def add64 (a b : ℕ) : ℕ := (a + b) % 2 ^ 64

/-- Subtraction of `uint64_t`. -/
def sub64 (a b : ℕ) : ℕ := (a + 2 ^ 64 - b) % 2 ^ 64

/-- `v >= d ? v - d : 0`, which is subtraction of natural numbers. -/
def subClamped (v d : ℕ) : ℕ := if v ≥ d then v - d else 0

theorem subClamped_eq (v d : ℕ) : subClamped v d = v - d := by
  unfold subClamped
  split <;> omega

/-- A two-dimensional table with one cell replaced. -/
def setCell {κ : Type} [DecidableEq κ] (t : ℕ → κ → ℕ) (h : ℕ) (k : κ) (v : ℕ) : ℕ → κ → ℕ :=
  fun h' k' => if h' = h ∧ k' = k then v else t h' k'

/-- A per-type table with one cell replaced. -/
def setAt {κ : Type} [DecidableEq κ] (t : κ → ℕ) (k : κ) (v : ℕ) : κ → ℕ :=
  fun k' => if k' = k then v else t k'

@[simp] theorem setAt_same {κ : Type} [DecidableEq κ] (t : κ → ℕ) (k : κ) (v : ℕ) :
    setAt t k v k = v := if_pos rfl

theorem setAt_setAt {κ : Type} [DecidableEq κ] (t : κ → ℕ) (k : κ) (v v' : ℕ) :
    setAt (setAt t k v) k v' = setAt t k v' := by
  funext k'
  unfold setAt
  split <;> rfl

theorem setAt_eq_self {κ : Type} [DecidableEq κ] {t : κ → ℕ} {k : κ} {v : ℕ} (h : t k = v) :
    setAt t k v = t := by
  funext k'
  unfold setAt
  split
  · next hk => rw [hk, h]
  · rfl

/-- `TicksToNs`: the 128-bit product of `_umul128`, divided by `_udiv128` when
the quotient fits 64 bits. -/
def ticksToNs (ticks freq : ℕ) : ℕ :=
  if freq = 0 then 0
  else
    let hi := ticks * 1000000000 / 2 ^ 64
    let lo := ticks * 1000000000 % 2 ^ 64
    if hi ≥ freq then 2 ^ 64 - 1 else (hi * 2 ^ 64 + lo) / freq

def isDriverType : ObjType → Bool
  | .pipelineState | .stateObject | .descriptorHeap | .commandAllocator => true
  | _ => false

/-- ETW library type against hook type. -/
def compatible (e : ObjType) (o : ObjectType) : Bool :=
  match e with
  | .resource => o == .resource
  | .heap => o == .heap
  | .pipelineState => o == .pipelineState
  | .commandAllocator => o == .commandAllocator
  | .descriptorHeap => o == .descriptorHeap
  | _ => false

def bindable : ObjType → Bool
  | .resource | .heap | .pipelineState | .commandAllocator | .descriptorHeap => true
  | _ => false

def fromGroup : Group → MemLoc
  | .local => .vram
  | .nonLocal => .sys
  | .unknown => .unknown

/-- `Model::HeapBucket`, by `D3D12_HEAP_TYPE` value. -/
def heapBucket : ℕ → ℕ
  | 1 => 1
  | 2 => 2
  | 3 => 3
  | 4 => 4
  | 5 => 5
  | _ => 0

/-- `Model::AllocBucket`. -/
def allocBucket (a : AllocationKind) : ℕ := a.index

namespace Model

/-! ### Writes -/

def setLive (m : Model) (t : Table ℕ LiveObject) : Model := { m with live := t }
def setPtrToId (m : Model) (t : Table ℕ ℕ) : Model := { m with ptrToId := t }
def setDeadByPtr (m : Model) (t : Table ℕ (List DeadObj)) : Model := { m with deadByPtr := t }
def setDestroyHist (m : Model) (q : List (ℕ × ℕ)) : Model := { m with destroyHist := q }
def setChildren (m : Model) (t : Table ℕ (List ℕ)) : Model := { m with children := t }
def setEtwObjs (m : Model) (t : Table ℕ EtwObj) : Model := { m with etwObjs := t }
def setEtwAlias (m : Model) (t : Table ℕ ℕ) : Model := { m with etwAlias := t }
def setEtwByAddr (m : Model) (t : Table ℕ ℕ) : Model := { m with etwByAddr := t }
def setPendingQ (m : Model) (q : List ℕ) : Model := { m with pendingQ := q }
def setCounters (m : Model) (t : Table ℕ CounterVal) : Model := { m with counters := t }
def setSnapshot (m : Model) (s : Snapshot) : Model := { m with s := s }

/-- A write through a reference to the live object stored under `id`. -/
def updLive (m : Model) (id : ℕ) (f : LiveObject → LiveObject) : Model :=
  m.setLive (m.live.modify id f)

/-- A write through a reference to the ETW object stored under `key`. -/
def updEtw (m : Model) (key : ℕ) (f : EtwObj → EtwObj) : Model :=
  m.setEtwObjs (m.etwObjs.modify key f)

/-- A write to `s_.etw`. -/
def updStats (m : Model) (f : EtwSnapshot → EtwSnapshot) : Model :=
  m.setSnapshot { m.s with etw := f m.s.etw }

@[simp] theorem live_updEtw (m : Model) (key : ℕ) (f : EtwObj → EtwObj) :
    (m.updEtw key f).live = m.live := rfl

/-! ### The sidecar and the clocks -/

def sideLine (m : Model) (line : SideLine) : Model :=
  if !m.side then m
  else if !m.helloSeen then { m with sidePrebuf := m.sidePrebuf ++ [line] }
  else { m with sideFile := m.sideFile ++ [line] }

/-- Absolute QPC nanoseconds to `ts_ns`. -/
def convTs (m : Model) (absQpcNs : ℤ) : ℕ :=
  if !m.helloSeen || absQpcNs ≤ 0 then 0
  else if absQpcNs.toNat > m.qpcStartNs then absQpcNs.toNat - m.qpcStartNs else 0

def nowTsLocked (m : Model) (env : Env) : ℕ :=
  if !m.helloSeen || m.qpcFreq = 0 then 0
  else if env.qpc > m.qpcStart then ticksToNs (env.qpc - m.qpcStart) m.qpcFreq else 0

/-- `STILL_ACTIVE`. -/
def stillActive : ℕ := 259

/-- The child was seen exiting, with the given exit code, at `now`. -/
def markExiting (m : Model) (now code : ℕ) : Model :=
  sideLine { m with childExiting := true, exitCutoffTs := m.childAliveTs }
    (.targetExiting m.childAliveTs now (if code ≠ stillActive then some code else none))

def pollChildLocked (m : Model) (env : Env) : Model :=
  if m.childExiting || !m.childProcess then m
  else
    let now := m.nowTsLocked env
    if !env.signaled then
      match env.exitCode with
      | none => m
      | some code =>
        if code = stillActive then { m with childAliveTs := now } else m.markExiting now code
    else m.markExiting now (env.exitCode.getD stillActive)

/-- Whether an event stamped `ts` may be process teardown; samples the child
first if the event is newer than the last sample. -/
def afterChildExitLocked (m : Model) (env : Env) (ts : ℕ) : Bool × Model :=
  let m := if ts > m.childAliveTs then m.pollChildLocked env else m
  (decide (ts > m.exitCutoffTs) || decide (ts > m.childExitTs), m)

/-! ### Locations -/

/-- The location of `o` and whether it is the parent heap's. -/
def effLoc (m : Model) (o : LiveObject) : MemLoc × Bool :=
  if o.alloc = .placed ∧ o.parentHeapId ≠ 0 then
    match m.live.lookup o.parentHeapId with
    | some h => if h.ownLoc ≠ .unknown then (h.ownLoc, true) else (o.ownLoc, false)
    | none => (o.ownLoc, false)
  else (o.ownLoc, false)

def addLoc (m : Model) (o : LiveObject) (sign : ℤ) : Model :=
  if o.alloc = .none then m
  else
    let b := m.s.etw.locBytes (heapBucket o.heapType) o.effLoc
    let b := if sign > 0 then add64 b o.sizeBytes else subClamped b o.sizeBytes
    m.updStats fun t => { t with locBytes := setCell t.locBytes (heapBucket o.heapType) o.effLoc b }

/-- `AddLoc(o, -1); o.eff_loc = l; AddLoc(o, +1)` on the object stored under `id`. -/
def moveLoc (m : Model) (id : ℕ) (o : LiveObject) (l : MemLoc) : Model :=
  let m := m.addLoc o (-1)
  let m := m.updLive id (·.setEffLoc l)
  m.addLoc { o with effLoc := l } 1

def recomputeLoc (m : Model) (id ts : ℕ) (forceReport : Bool) : Model :=
  match m.live.lookup id with
  | none => m
  | some o =>
    let l := (m.effLoc o).1
    let viaHeap := (m.effLoc o).2
    let changed := decide (l ≠ o.effLoc)
    let m := if changed then m.moveLoc id o l else m
    if changed || forceReport || (!o.locReported && decide (l ≠ .unknown)) then
      (m.updLive id (·.setLocReported true)).sideLine
        (.location ts o.id l viaHeap)
    else m

def recomputeChildren (m : Model) (heapId ts : ℕ) : Model :=
  ((m.children.lookup heapId).getD []).foldl (fun m cid => m.recomputeLoc cid ts false) m

/-! ### The join -/

def driverAgg (m : Model) (e : EtwObj) (sign : ℤ) : Model :=
  let t := e.type
  let sized := isDriverType t && decide (e.size ≠ 0)
  if sign > 0 then
    let m := m.updStats fun s => { s with live := setAt s.live t (s.live t + 1) }
    if sized then
      m.updStats fun s => { s with
        sized := setAt s.sized t (s.sized t + 1)
        bytes := setAt s.bytes t (add64 (s.bytes t) e.size) }
    else m
  else
    let m := m.updStats fun s => { s with live := setAt s.live t (subClamped (s.live t) 1) }
    if sized then
      m.updStats fun s => { s with
        sized := setAt s.sized t (subClamped (s.sized t) 1)
        bytes := setAt s.bytes t (subClamped (s.bytes t) e.size) }
    else m

@[simp] theorem live_driverAgg (m : Model) (e : EtwObj) (sign : ℤ) :
    (m.driverAgg e sign).live = m.live := by
  unfold driverAgg
  dsimp only
  split_ifs <;> rfl

/-- Whether the size of `e` is counted. -/
def countsSize (e : EtwObj) : Bool := isDriverType e.type && decide (e.size ≠ 0)

/-- An object is counted. -/
theorem driverAgg_pos (m : Model) (e : EtwObj) :
    m.driverAgg e 1 = m.updStats fun s => { s with
      live := setAt s.live e.type (s.live e.type + 1)
      sized := if countsSize e then setAt s.sized e.type (s.sized e.type + 1) else s.sized
      bytes := if countsSize e then setAt s.bytes e.type (add64 (s.bytes e.type) e.size)
        else s.bytes } := by
  unfold driverAgg
  dsimp only
  rw [if_pos Int.one_pos]
  cases hc : countsSize e with
  | false => exact if_neg fun h => absurd (h.symm.trans hc) Bool.true_eq_false_eq_False
  | true => exact if_pos hc

/-- An object is withdrawn. -/
theorem driverAgg_neg (m : Model) (e : EtwObj) :
    m.driverAgg e (-1) = m.updStats fun s => { s with
      live := setAt s.live e.type (s.live e.type - 1)
      sized := if countsSize e then setAt s.sized e.type (s.sized e.type - 1) else s.sized
      bytes := if countsSize e then setAt s.bytes e.type (s.bytes e.type - e.size)
        else s.bytes } := by
  unfold driverAgg
  simp only [subClamped_eq]
  rw [if_neg (Int.not_lt.mpr (Int.neg_nonpos_of_nonneg Int.one_nonneg))]
  cases hc : countsSize e with
  | false => exact if_neg fun h => absurd (h.symm.trans hc) Bool.true_eq_false_eq_False
  | true => exact if_pos hc

/-- The canonical id behind a library id, and its object. -/
def findEtw (m : Model) (libId : ℕ) : Option (ℕ × EtwObj) :=
  match m.etwAlias.lookup libId with
  | none => none
  | some key => (m.etwObjs.lookup key).map fun e => (key, e)

/-- `Model::CanBind`: the ETW object must not predate the death of the previous
object that lived at this address. -/
def canBind (e : EtwObj) (o : LiveObject) : Bool :=
  if e.boundId ≠ 0 ∨ e.orphanTs ≠ 0 ∨ compatible e.type o.type = false then false
  else decide (add64 e.createdTs kBindSlackNs ≥ o.prevDestroyNs)

/-- `Bind`, first statement: another ETW object loses `o`. -/
def unbindOther (m : Model) (key : ℕ) (o : LiveObject) : Model :=
  if o.etwKey ≠ 0 ∧ o.etwKey ≠ key then m.updEtw o.etwKey (·.setBoundId 0)
  else m

/-- `Model::Bind(key, e, o, ts)` with `e` stored under `key` and `o` under `id`. -/
def bind (m : Model) (key id ts : ℕ) : Model :=
  match m.etwObjs.lookup key, m.live.lookup id with
  | some e, some o =>
    let m := m.unbindOther key o
    let m := m.updEtw key fun e => (e.setBoundId o.id).setPending 0
    let m := m.updLive id (·.setEtwKey key)
    let m := m.updStats fun t => { t with binds := t.binds + 1 }
    let m := m.sideLine (.etwBind ts o.id key e.type o.objectPtr false)
    let m := m.updLive id (·.setOwnLoc e.group)
    -- on the first bind even if the group is unknown
    let m := m.recomputeLoc id ts (!o.locReported)
    let m := if o.type = .heap then m.recomputeChildren o.id ts else m
    if isDriverType e.type then
      let m := m.updLive id (·.setDriverSize e.size)
      if e.size ≠ 0 then m.sideLine (.driverSize ts o.id e.size) else m
    else m
  | _, _ => m

/-- The live object indexed at `e`'s address, if `e` can bind to it. -/
def bindTarget (m : Model) (e : EtwObj) : Option ℕ :=
  match m.ptrToId.lookup e.address with
  | none => none
  | some id =>
    match m.live.lookup id with
    | none => none
    | some o => if canBind e o then some id else none

/-- Whether `e` was created while the destroyed object `x` owned the address. -/
def lateMatch (e : EtwObj) (x : DeadObj) : Bool :=
  compatible e.type x.type && decide (e.createdTs ≤ add64 x.destroyedNs kBindSlackNs) &&
    decide (add64 e.createdTs kBindSlackNs ≥ x.prevDestroyNs)

/-- `e`, stored under `key`, is attributed to the destroyed object `x`. -/
def attributeLate (m : Model) (key ts : ℕ) (e : EtwObj) (x : DeadObj) : Model :=
  let m := m.updEtw key fun e =>
    (e.setOrphanTs (if x.destroyedNs ≠ 0 then x.destroyedNs else 1)).setPending 0
  let m := m.updStats fun t => { t with lateMatches := t.lateMatches + 1 }
  m.sideLine (.etwBind ts x.id key e.type e.address true)

/-- `e`, stored under `key`, waits for its tracked object. -/
def waitForObject (m : Model) (env : Env) (key : ℕ) (e : EtwObj) : Model :=
  if e.pendingSinceMs = 0 ∧ e.expired = false then
    let m := m.updEtw key (·.setPending (if env.nowMs ≠ 0 then env.nowMs else 1))
    m.setPendingQ (m.pendingQ ++ [key])
  else m

def tryBindEtw (m : Model) (env : Env) (key ts : ℕ) : Model :=
  match m.etwObjs.lookup key with
  | none => m
  | some e =>
    if e.boundId ≠ 0 ∨ e.orphanTs ≠ 0 ∨ e.address = 0 ∨ bindable e.type = false then m
    else
      match m.bindTarget e with
      | some id => m.bind key id ts
      | none =>
        match ((m.deadByPtr.lookup e.address).getD []).find? (lateMatch e) with
        | some x => m.attributeLate key ts e x
        | none => m.waitForObject env key e

/-- What an attempt does: nothing, or it binds, or finds a dead object, or waits. -/
theorem tryBindEtw_cases (m : Model) (env : Env) (key ts : ℕ) :
    m.tryBindEtw env key ts = m ∨
      ∃ e, m.etwObjs.lookup key = some e ∧
        ((∃ id, m.bindTarget e = some id ∧ m.tryBindEtw env key ts = m.bind key id ts) ∨
          (∃ x, m.tryBindEtw env key ts = m.attributeLate key ts e x) ∨
          m.tryBindEtw env key ts = m.waitForObject env key e) := by
  unfold tryBindEtw
  split
  · exact .inl rfl
  · next e he =>
    split
    · exact .inl rfl
    · refine .inr ⟨e, he, ?_⟩
      split
      · next id hid => exact .inl ⟨id, hid, rfl⟩
      · split
        · next x _ => exact .inr (.inl ⟨x, rfl⟩)
        · exact .inr (.inr rfl)

/-- `Model::ApplyGroup(e, g, ts)` with `e` stored under `key`. -/
def applyGroup (m : Model) (key : ℕ) (g : MemLoc) (ts : ℕ) : Model :=
  match m.etwObjs.lookup key with
  | none => m
  | some e =>
    let m := m.updEtw key (·.setGroup g)
    if e.boundId = 0 then m
    else
      match m.live.lookup e.boundId with
      | none => m
      | some o =>
        let m := m.updLive e.boundId (·.setOwnLoc g)
        let m := m.recomputeLoc e.boundId ts false
        if o.type = .heap then m.recomputeChildren o.id ts else m

/-- `Model::ApplySize(e, size, ts)` with `e` stored under `key`. -/
def applySize (m : Model) (key size ts : ℕ) : Model :=
  match m.etwObjs.lookup key with
  | none => m
  | some e =>
    if size = 0 ∨ size = e.size then m
    else
      let m := m.driverAgg e (-1)
      let m := m.updEtw key (·.setSize size)
      let m := m.driverAgg (e.setSize size) 1
      if e.boundId = 0 ∨ isDriverType e.type = false then m
      else
        match m.live.lookup e.boundId with
        | none => m
        | some o =>
          if o.driverSize = size then m
          else
            (m.updLive e.boundId (·.setDriverSize size)).sideLine
              (.driverSize ts o.id size)

/-- When the last occupant of `o`'s address died, if that is remembered. -/
def prevDeath (m : Model) (o : LiveObject) : ℕ :=
  match ((m.deadByPtr.lookup o.objectPtr).getD []).getLast? with
  | some d => d.destroyedNs
  | none => o.prevDestroyNs

/-- `EtwOnCreated`, first block: the object becomes the occupant of its address. -/
def indexOccupant (m : Model) (id : ℕ) (o : LiveObject) : Model :=
  if o.objectPtr = 0 then m
  else
    let m := m.updLive id (·.setPrevDestroyNs (m.prevDeath o))
    m.setPtrToId (m.ptrToId.insert o.objectPtr o.id)

/-- `EtwOnCreated`, second block: a placed resource joins its heap's children. -/
def addChild (m : Model) (o : LiveObject) : Model :=
  if o.alloc = .placed ∧ o.parentHeapId ≠ 0 then
    let kids := (m.children.lookup o.parentHeapId).getD []
    m.setChildren (m.children.insert o.parentHeapId (kids.insert o.id))
  else m

/-- `EtwOnCreated`, third block: the first location, counted and reported. -/
def firstLoc (m : Model) (id ts : ℕ) : Model :=
  match m.live.lookup id with
  | none => m
  | some o =>
    let l := (m.effLoc o).1
    let m := m.updLive id (·.setEffLoc l)
    let m := m.addLoc { o with effLoc := l } 1
    if l ≠ .unknown then m.recomputeLoc id ts true else m

/-- `EtwOnCreated`, last block: ETW may have seen this object first. -/
def bindReported (m : Model) (id ts : ℕ) : Model :=
  match m.live.lookup id with
  | none => m
  | some o =>
    if o.objectPtr = 0 then m
    else
      match m.etwByAddr.lookup o.objectPtr with
      | none => m
      | some key =>
        match m.etwObjs.lookup key with
        | none => m
        | some e => if canBind e o then m.bind key id ts else m

/-- A new object binds to the owner of its address, or nothing happens. -/
theorem bindReported_cases (m : Model) (id ts : ℕ) :
    m.bindReported id ts = m ∨
      ∃ o key e, m.live.lookup id = some o ∧ o.objectPtr ≠ 0 ∧
        m.etwByAddr.lookup o.objectPtr = some key ∧ m.etwObjs.lookup key = some e ∧
        canBind e o = true ∧ m.bindReported id ts = m.bind key id ts := by
  unfold bindReported
  split
  · exact .inl rfl
  · next o ho =>
    split
    · exact .inl rfl
    · next hp =>
      split
      · exact .inl rfl
      · next key hkey =>
        split
        · exact .inl rfl
        · next e he =>
          split
          · next hc => exact .inr ⟨o, key, e, ho, hp, hkey, he, hc, rfl⟩
          · exact .inl rfl

/-- `Model::EtwOnCreated(o, ts)` with `o` stored under `id`. -/
def etwOnCreated (m : Model) (id ts : ℕ) : Model :=
  match m.live.lookup id with
  | none => m
  | some o => (((m.indexOccupant id o).addChild o).firstLoc id ts).bindReported id ts

/-- The entry of `deadByPtr` that the death of `o` at `ts` leaves. -/
def obituary (o : LiveObject) (ts : ℕ) : DeadObj :=
  { id := o.id, type := o.type, prevDestroyNs := o.prevDestroyNs, destroyedNs := ts }

/-- `x` joins the dead of its address, of which only the last are kept. -/
def remember (dead : List DeadObj) (x : DeadObj) : List DeadObj :=
  let dead := dead ++ [x]
  if dead.length > kDeadPerAddress then dead.tail else dead

/-- `EtwOnDestroyed`, first block: the occupant of the address becomes history. -/
def forgetOccupant (m : Model) (o : LiveObject) (ts : ℕ) : Model :=
  if o.objectPtr = 0 then m
  else
    let m := if m.ptrToId.lookup o.objectPtr = some o.id then
        m.setPtrToId (m.ptrToId.erase o.objectPtr)
      else m
    let dead := remember ((m.deadByPtr.lookup o.objectPtr).getD []) (obituary o ts)
    let m := m.setDeadByPtr (m.deadByPtr.insert o.objectPtr dead)
    m.setDestroyHist (m.destroyHist ++ [(ts, o.objectPtr)])

/-- `EtwOnDestroyed`, second block: the bound ETW object is orphaned. -/
def orphanBound (m : Model) (id : ℕ) (o : LiveObject) (ts : ℕ) : Model :=
  if o.etwKey = 0 then m
  else
    let m := match m.etwObjs.lookup o.etwKey with
      | none => m
      | some e =>
        if e.boundId = o.id then
          m.updEtw o.etwKey fun e => (e.setBoundId 0).setOrphanTs (if ts ≠ 0 then ts else 1)
        else m
    m.updLive id (·.setEtwKey 0)

/-- `EtwOnDestroyed`, third block: a placed resource leaves its heap's children. -/
def removeChild (m : Model) (o : LiveObject) : Model :=
  if o.alloc = .placed ∧ o.parentHeapId ≠ 0 then
    match m.children.lookup o.parentHeapId with
    | none => m
    | some kids =>
      let kids := kids.erase o.id
      if kids.isEmpty then m.setChildren (m.children.erase o.parentHeapId)
      else m.setChildren (m.children.insert o.parentHeapId kids)
  else m

/-- One child of a dying heap falls back to its own location. -/
def dropToOwnLoc (m : Model) (cid ts : ℕ) : Model :=
  match m.live.lookup cid with
  | none => m
  | some child =>
    if child.effLoc ≠ child.ownLoc then
      (m.moveLoc cid child child.ownLoc).sideLine (.location ts child.id child.ownLoc false)
    else m

/-- `EtwOnDestroyed`, last block: the children of a dying heap. -/
def dropChildren (m : Model) (o : LiveObject) (ts : ℕ) : Model :=
  if o.type = .heap then
    match m.children.lookup o.id with
    | none => m
    | some kids =>
      kids.foldl (fun m cid => m.dropToOwnLoc cid ts) (m.setChildren (m.children.erase o.id))
  else m

/-- `Model::EtwOnDestroyed(o, ts)` with `o` stored under `id`. -/
def etwOnDestroyed (m : Model) (id ts : ℕ) : Model :=
  match m.live.lookup id with
  | none => m
  | some o =>
    ((((m.addLoc o (-1)).forgetOccupant o ts).orphanBound id o ts).removeChild o).dropChildren o ts

/-! ### Records from the pipe -/

/-- `s_.recent.push_back(line)`, 32 lines at most. -/
def pushRecent (m : Model) (line : ActivityLine) : Model :=
  let recent := m.s.recent ++ [line]
  m.setSnapshot { m.s with recent := if recent.length > 32 then recent.tail else recent }

def onHello (m : Model) (tsNs : ℕ) (p : HelloPayload) : Model :=
  let first := !m.helloSeen
  let m := { m with
    s.pid := p.pid
    s.exePath := p.exePath.read
    s.dllStartNs := tsNs
    qpcFreq := p.qpcFrequency
    qpcStart := p.qpcStart
    qpcStartNs := ticksToNs p.qpcStart p.qpcFrequency
    helloSeen := true }
  if m.etwEnabled && first && m.side then
    { m with
      sideFile := m.sideFile ++
        [.etwHello tsNs p.pid m.qpcFreq m.qpcStart m.sessionName m.rundownIntervalMs m.mainLogPath]
        ++ m.sidePrebuf
      sidePrebuf := [] }
  else m

/-- The table entry made from a `created` record. -/
def liveOfCreated (tsNs : ℕ) (p : CreatedPayload) : LiveObject where
  id := p.id
  type := p.type
  alloc := p.alloc
  heapType := p.heapType
  dimension := p.dimension
  format := p.format
  sizeBytes := p.sizeBytes
  parentHeapId := p.parentHeapId
  objectPtr := p.objectPtr
  createdNs := tsNs
  name := p.name.read

/-- The label of an allocation in the activity pane. -/
def heapLabel (o : LiveObject) : String :=
  if o.alloc = .none then ""
  else
    (if o.alloc = .committed then "Committed/"
      else if o.alloc = .placed then "Placed/"
      else if o.alloc = .reserved then "Reserved/"
      else "Heap/") ++ heapTypeName o.heapType

/-- The counters after `o` became one of `n` live objects. -/
def countCreated (s : Snapshot) (o : LiveObject) (n : ℕ) : Snapshot :=
  let hb := heapBucket o.heapType
  let ab := allocBucket o.alloc
  let ti := o.type.index
  { s with
    totals.bytes := setCell s.totals.bytes hb ab (add64 (s.totals.bytes hb ab) o.sizeBytes)
    totals.counts := setCell s.totals.counts hb ab (s.totals.counts hb ab + 1)
    liveCount := n
    liveBytes := add64 s.liveBytes o.sizeBytes
    perTypeCounts := setAt s.perTypeCounts ti (s.perTypeCounts ti + 1) }

/-- The counters after `o` died; no counter goes below zero. -/
def countDestroyed (s : Snapshot) (o : LiveObject) : Snapshot :=
  let hb := heapBucket o.heapType
  let ab := allocBucket o.alloc
  let ti := o.type.index
  { s with
    totals.bytes :=
      if s.totals.bytes hb ab ≥ o.sizeBytes then
        setCell s.totals.bytes hb ab (s.totals.bytes hb ab - o.sizeBytes)
      else s.totals.bytes
    totals.counts :=
      if s.totals.counts hb ab > 0 then setCell s.totals.counts hb ab (s.totals.counts hb ab - 1)
      else s.totals.counts
    liveBytes := if s.liveBytes ≥ o.sizeBytes then s.liveBytes - o.sizeBytes else s.liveBytes
    perTypeCounts :=
      if s.perTypeCounts ti > 0 then setAt s.perTypeCounts ti (s.perTypeCounts ti - 1)
      else s.perTypeCounts }

def onCreated (m : Model) (tsNs : ℕ) (p : CreatedPayload) : Model :=
  let o := liveOfCreated tsNs p
  let m := m.setLive (m.live.insert o.id o)
  let m := m.setSnapshot (countCreated m.s o m.live.keys.card)
  let m := if m.etwEnabled then m.etwOnCreated o.id tsNs else m
  m.pushRecent
    { tsNs := tsNs, created := true, type := o.type, id := o.id, sizeBytes := o.sizeBytes,
      name := o.name, heapLabel := heapLabel o }

def onRenamed (m : Model) (p : RenamedPayload) : Model :=
  m.updLive p.id (·.setName p.name.read)

def onDestroyed (m : Model) (tsNs : ℕ) (p : DestroyedPayload) : Model :=
  match m.live.lookup p.id with
  | none => m
  | some o =>
    let m := if m.etwEnabled then m.etwOnDestroyed p.id tsNs else m
    let m := m.setSnapshot (countDestroyed m.s o)
    let m := m.pushRecent
      { tsNs := tsNs, created := false, type := o.type, id := o.id, sizeBytes := o.sizeBytes,
        name := o.name, heapLabel := "" }
    let m := m.setLive (m.live.erase p.id)
    m.setSnapshot { m.s with liveCount := m.live.keys.card }

def onGoodbye (m : Model) (p : GoodbyePayload) : Model :=
  m.setSnapshot { m.s with childExited := true, childExitCode := p.exitCode }

def setLatestNs (m : Model) (tsNs : ℕ) : Model := m.setSnapshot { m.s with latestNs := tsNs }

/-- `Model::OnEvent`; `tsNs` is the header's stamp. -/
def onEvent (m : Model) (tsNs : ℕ) (r : Record) : Model :=
  let m := m.setLatestNs tsNs
  match r with
  | .hello p => m.onHello tsNs p
  | .created p => m.onCreated tsNs p
  | .renamed p => m.onRenamed p
  | .destroyed p => m.onDestroyed tsNs p
  | .goodbye p => m.onGoodbye p
  | .other => m

/-! ### The ETW sink -/

/-- `e` is stored under a library id, which resolves to itself. -/
def storeEtw (m : Model) (libId : ℕ) (e : EtwObj) : Model :=
  -- `emplace` keeps an entry that is already there
  let m := if (m.etwObjs.lookup libId).isSome then m else m.setEtwObjs (m.etwObjs.insert libId e)
  m.setEtwAlias (m.etwAlias.insert libId libId)

def onEtwObjectCreated (m : Model) (ts : ℤ) (libId : ℕ) (type : ObjType) (size : ℕ)
    (group : Group) : Model :=
  if !m.etwEnabled || (m.etwAlias.lookup libId).isSome then m
  else
    let e : EtwObj :=
      { type := type, size := size, group := fromGroup group, createdTs := m.convTs ts }
    ((m.driverAgg e 1).storeEtw libId e).updStats fun t => { t with created := t.created + 1 }

/-- The re-report `key` of the object `into` is merged into it. -/
def foldRundown (m : Model) (env : Env) (key : ℕ) (e : EtwObj) (into : ℕ) (old : EtwObj) : Model :=
  let ts := e.createdTs
  let m := m.updStats fun t => { t with rundownDuplicates := t.rundownDuplicates + 1 }
  let m := if e.size ≠ 0 then m.applySize into e.size ts else m
  let m := if e.group ≠ .unknown ∧ e.group ≠ old.group then m.applyGroup into e.group ts else m
  let m := m.driverAgg e (-1)
  let m := m.setEtwObjs (m.etwObjs.erase key)
  let m := m.updEtw into (·.addAlias key)
  let m := m.setEtwAlias (m.etwAlias.insert key into)
  m.tryBindEtw env into ts

/-- The object `key` takes its address. -/
def takeAddress (m : Model) (env : Env) (key : ℕ) (e : EtwObj) (address : ℕ) : Model :=
  let m := m.updEtw key (·.setAddress address)
  let m := m.setEtwByAddr (m.etwByAddr.insert address key)
  let m := m.sideLine (.etwObject e.createdTs key e.type address e.size e.group)
  m.tryBindEtw env key e.createdTs

def onEtwObjectAddress (m : Model) (env : Env) (libId address : ℕ) : Model :=
  if !m.etwEnabled || address = 0 then m
  else
    match m.findEtw libId with
    | none => m
    | some (key, e) =>
      if e.address ≠ 0 then m
      else
        match m.etwByAddr.lookup address with
        | none => m.takeAddress env key e address
        | some into =>
          if into = key then m.takeAddress env key e address
          else
            match m.etwObjs.lookup into with
            | none => m.takeAddress env key e address
            | some old =>
              -- a new library id of the same type at an owned address is a rundown re-report
              if old.type = e.type then m.foldRundown env key e into old
              else m.takeAddress env key e address

/-- What becomes of an address: nothing, or the object takes it, or is merged into its owner. -/
theorem onEtwObjectAddress_cases (m : Model) (env : Env) (libId address : ℕ) :
    m.onEtwObjectAddress env libId address = m ∨
      ∃ key e, m.findEtw libId = some (key, e) ∧ address ≠ 0 ∧ e.address = 0 ∧
        (m.onEtwObjectAddress env libId address = m.takeAddress env key e address ∨
          ∃ into old, m.etwByAddr.lookup address = some into ∧ into ≠ key ∧
            m.etwObjs.lookup into = some old ∧ old.type = e.type ∧
            m.onEtwObjectAddress env libId address = m.foldRundown env key e into old) := by
  unfold onEtwObjectAddress
  split
  · exact .inl rfl
  · next hg =>
    have ha : address ≠ 0 := fun ha => hg (by simp [ha])
    split
    · exact .inl rfl
    · next key e hfind =>
      split
      · exact .inl rfl
      · next hz =>
        refine .inr ⟨key, e, hfind, ha, not_not.mp hz, ?_⟩
        split
        · exact .inl rfl
        · next into hinto =>
          split
          · exact .inl rfl
          · next hne =>
            split
            · exact .inl rfl
            · next old hold =>
              split
              · next htype => exact .inr ⟨into, old, hinto, hne, hold, htype, rfl⟩
              · exact .inl rfl

/-- The tracked object of a dying ETW object keeps its last location. -/
def unkey (m : Model) (key : ℕ) (e : EtwObj) : Model :=
  if e.boundId = 0 then m
  else
    match m.live.lookup e.boundId with
    | none => m
    | some o => if o.etwKey = key then m.updLive e.boundId (·.setEtwKey 0) else m

theorem unkey_cases (m : Model) (key : ℕ) (e : EtwObj) :
    m.unkey key e = m ∨ m.unkey key e = m.updLive e.boundId (·.setEtwKey 0) := by
  unfold unkey
  split
  · exact .inl rfl
  · split
    · exact .inl rfl
    · split
      · exact .inr rfl
      · exact .inl rfl

/-- The object `key`, and every id and address that leads to it, are forgotten. -/
def dropEtw (m : Model) (key : ℕ) (e : EtwObj) : Model :=
  let m := m.setEtwAlias ((e.aliases.foldl (fun t a => Finmap.erase a t) m.etwAlias).erase key)
  let m := if e.address ≠ 0 ∧ m.etwByAddr.lookup e.address = some key then
      m.setEtwByAddr (m.etwByAddr.erase e.address)
    else m
  let m := m.driverAgg e (-1)
  m.setEtwObjs (m.etwObjs.erase key)

def onEtwObjectDestroyed (m : Model) (ts : ℤ) (libId : ℕ) : Model :=
  if !m.etwEnabled then m
  else
    match m.findEtw libId with
    | none => m
    | some (key, e) =>
      let m := if e.address ≠ 0 then m.sideLine (.etwObjectDestroyed (m.convTs ts) key) else m
      (m.unkey key e).dropEtw key e

def onEtwObjectSize (m : Model) (ts : ℤ) (libId size : ℕ) : Model :=
  if !m.etwEnabled then m
  else
    match m.findEtw libId with
    | none => m
    | some (key, _) => m.applySize key size (m.convTs ts)

/-- A group change that is not teardown. -/
def regroup (m : Model) (c : Etw.GroupChange) (ts : ℕ) : Model :=
  let m := m.updStats fun t => { t with groupChanges := t.groupChanges + 1 }
  match m.findEtw c.libId with
  | none => m
  | some (key, e) =>
    let g := fromGroup c.group
    if g ≠ e.group then m.applyGroup key g ts else m

/-- One element of the array `OnEtwGroupChanges` is given. -/
def onEtwGroupChange (m : Model) (c : Etw.GroupChange) (env : Env) : Model :=
  let ts := m.convTs c.ts
  let after := m.afterChildExitLocked env ts
  if after.1 then after.2.updStats fun t => { t with postExitIgnored := t.postExitIgnored + 1 }
  else after.2.regroup c ts

/-- Each change comes with what the system reports if the child is polled for it. -/
def onEtwGroupChanges (m : Model) (changes : List (Etw.GroupChange × Env)) : Model :=
  if !m.etwEnabled then m
  else changes.foldl (fun m c => m.onEtwGroupChange c.1 c.2) m

/-- The sidecar line of a page operation. -/
def residencyLine (m : Model) (ts libId : ℕ) (type : ObjType) (op : ResidencyOp) : Model :=
  match m.findEtw libId with
  | none => m.sideLine (.residency ts 0 libId type op)
  | some (key, e) => m.sideLine (.residency ts e.boundId key type op)

/-- A residency operation that is not teardown. -/
def countResidency (m : Model) (ts libId : ℕ) (type : ObjType) (op : ResidencyOp) : Model :=
  match op with
  | .makeResident => m.updStats fun t => { t with makeResident := t.makeResident + 1 }
  | .evict => m.updStats fun t => { t with evict := t.evict + 1 }
  | .pageIn =>
    (m.updStats fun t => { t with pageIns := t.pageIns + 1 }).residencyLine ts libId type op
  | .pageOut =>
    (m.updStats fun t => { t with pageOuts := t.pageOuts + 1 }).residencyLine ts libId type op

def onEtwResidency (m : Model) (env : Env) (ts : ℤ) (libId : ℕ) (type : ObjType)
    (op : ResidencyOp) : Model :=
  if !m.etwEnabled then m
  else
    let after := m.afterChildExitLocked env (m.convTs ts)
    if after.1 then after.2.updStats fun t => { t with postExitIgnored := t.postExitIgnored + 1 }
    else after.2.countResidency (after.2.convTs ts) libId type op

/-- `bytes` is the sample converted from megabytes, rounded, 0 if negative. -/
def onEtwCounter (m : Model) (env : Env) (ts : ℤ) (counterId : ℕ) (kind : CounterKind)
    (bytes : ℕ) : Model :=
  if !m.etwEnabled then m
  else if ts ≤ 0 then m
  else
    let after := m.afterChildExitLocked env (m.convTs ts)
    if after.1 then after.2
    else after.2.setCounters (after.2.counters.insert counterId ⟨kind, bytes⟩)

def onEtwDiagnostic (m : Model) (env : Env) (error : Bool) (code : ℤ) (msg : WString) : Model :=
  if !m.etwEnabled then m
  else
    let m := m.updStats fun t => { t with diagnostics := t.diagnostics + 1 }
    m.sideLine (.etwDiag (m.nowTsLocked env) error code msg)

/-! ### The main thread -/

/-- Pending binds that timed out, from the front of the queue. -/
def expirePending (nowMs : ℕ) : List ℕ → Model → Model
  | [], m => m.setPendingQ []
  | k :: q, m =>
    match m.etwObjs.lookup k with
    | none => expirePending nowMs q m
    | some e =>
      if e.boundId ≠ 0 ∨ e.pendingSinceMs = 0 then expirePending nowMs q m
      else if sub64 nowMs e.pendingSinceMs < kEtwPendingTimeoutMs then m.setPendingQ (k :: q)
      else
        let m := m.updEtw k fun e => (e.setPending 0).setExpired
        expirePending nowMs q
          (m.updStats fun t => { t with pendingExpired := t.pendingExpired + 1 })

/-- Destroyed objects older than `kDestroyHistoryNs`, from the front of the queue. -/
def forgetDead (nowTs : ℕ) : List (ℕ × ℕ) → Model → Model
  | [], m => m.setDestroyHist []
  | (ts, ptr) :: q, m =>
    if nowTs > kDestroyHistoryNs ∧ ts < nowTs - kDestroyHistoryNs then
      let horizon := nowTs - kDestroyHistoryNs
      match m.deadByPtr.lookup ptr with
      | none => forgetDead nowTs q m
      | some dead =>
        let dead := dead.dropWhile fun x => decide (x.destroyedNs < horizon)
        forgetDead nowTs q (m.setDeadByPtr
          (if dead.isEmpty then m.deadByPtr.erase ptr else m.deadByPtr.insert ptr dead))
    else m.setDestroyHist ((ts, ptr) :: q)

def refreshJoinStats (m : Model) : Model :=
  let unbound (e : EtwObj) : Bool := decide (e.boundId = 0) && decide (e.orphanTs = 0)
  m.updStats fun t => { t with
    bound := m.etwObjs.sum fun e => if e.boundId ≠ 0 then 1 else 0
    unbound := m.etwObjs.sum fun e => if unbound e then 1 else 0
    unboundByType := fun ty => m.etwObjs.sum fun e => if unbound e ∧ e.type = ty then 1 else 0
    pending := m.etwObjs.sum fun e => if unbound e ∧ e.pendingSinceMs ≠ 0 then 1 else 0 }

/-- The counter kinds, in the order of the `counters` line. -/
def counterKinds : List CounterKind :=
  [.localBudget, .localResident, .localUsage, .nonLocalBudget, .nonLocalResident, .nonLocalUsage,
    .demotedMin, .demotedLow, .demotedNormal, .demotedHigh, .demotedMax,
    .pagingLocalToNonLocal, .pagingNonLocalToLocal]

def isDemoted : CounterKind → Bool
  | .demotedMin | .demotedLow | .demotedNormal | .demotedHigh | .demotedMax => true
  | _ => false

/-- The once-per-second `counters` line. -/
def countersLine (m : Model) (nowTs : ℕ) : SideLine :=
  let value (k : CounterKind) : ℕ :=
    (m.counters.sum fun c => if c.kind = k then c.bytes else 0) % 2 ^ 64
  let seen (k : CounterKind) : Bool :=
    decide ((m.counters.sum fun c => if c.kind = k then 1 else 0) ≠ 0)
  let kinds := counterKinds.filter seen
  let demoted := kinds.filter isDemoted
  .counters nowTs (kinds.map fun k => (k, value k))
    (if demoted.isEmpty then none else some (demoted.foldl (fun b k => b + value k) 0 % 2 ^ 64))
    m.s.etw.pageIns m.s.etw.pageOuts

def etwTick (m : Model) (env : Env) (st : Etw.Stats) : Model :=
  if !m.etwEnabled then m
  else
    let m := m.updStats fun t => { t with session := st }
    let m := expirePending env.nowMs m.pendingQ m
    let nowTs := m.nowTsLocked env
    let m := forgetDead nowTs m.destroyHist m
    if sub64 env.nowMs m.lastSecondMs < 1000 then m
    else
      let m := { m with lastSecondMs := env.nowMs }
      let m := m.refreshJoinStats
      if m.counters.keys.card ≠ 0 ∧ m.side then m.sideLine (m.countersLine nowTs) else m

/-- The sidecar is closed, with the lines that waited for a hello record. -/
def closeSide (m : Model) : Model :=
  { m with sideFile := m.sideFile ++ m.sidePrebuf, sidePrebuf := [], side := false }

/-- The final statistics line; the sidecar is closed after it. -/
def finishEtw (m : Model) (env : Env) (st : Etw.Stats) : Model :=
  let m := m.updStats fun t => { t with session := st, running := false }
  if !m.etwEnabled then m
  else
    let m := m.refreshJoinStats
    if m.side then
      let m := m.sideLine (.etwStats (m.nowTsLocked env) m.s.etw.statsLine)
      m.closeSide
    else m

def pollChild (m : Model) (env : Env) : Model := m.pollChildLocked env

def setChildProcess (m : Model) : Model := { m with childProcess := true }

def setChildExitQpc (m : Model) (exitQpc : ℕ) : Model :=
  if !m.helloSeen || m.qpcFreq = 0 then m
  else
    { m with childExitTs :=
        if exitQpc > m.qpcStart then ticksToNs (exitQpc - m.qpcStart) m.qpcFreq else 0 }

def markChildExited (m : Model) (exitCode : ℕ) : Model :=
  m.setSnapshot { m.s with childExited := true, childExitCode := exitCode }

def setEtwRunning (m : Model) (running : Bool) : Model :=
  m.updStats fun t => { t with running := running }

/-- `opened` is whether the sidecar file could be created. -/
def enableEtw (m : Model) (opened : Bool) (sessionName mainLogPath : WString)
    (rundownIntervalMs : ℕ) : Model :=
  { m with
    etwEnabled := true
    s.etw.enabled := true
    sessionName := sessionName
    mainLogPath := mainLogPath
    rundownIntervalMs := rundownIntervalMs
    s.etw.rundownIntervalMs := rundownIntervalMs
    side := opened }

/-- The ETW session did not come up; an empty sidecar file is deleted again. -/
def disableEtw (m : Model) (reason : WString) : Model :=
  { m with
    etwEnabled := false
    s.etw.running := false
    s.etw.status := reason
    sideFile := if m.side then [] else m.sideFile
    sidePrebuf := []
    side := false }

end Model

end Dx12Track
