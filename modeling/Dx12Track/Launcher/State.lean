import Dx12Track.Lib.Table
import Dx12Track.EventTypes
import Dx12Track.Etw.Sink

/-!
# The launcher's model: data

The members of `src/launcher/Model.h`.  Hash tables are finite tables keyed by
natural numbers; deques and vectors are lists, oldest first; an unordered set of
ids is a list in iteration order.  Plain counters are natural numbers; byte
totals and stamps are kept below `2 ^ 64` by the operations that could carry
them past it.

* `LiveObject`, `EtwObj`, `DeadObj` — the two sides of the join and its history.
* `Snapshot`, `EtwSnapshot` — what the renderer is shown.
* `SideLine` — one line of the sidecar log, before it is printed as JSON.
* `Model` — the whole state guarded by `mu_`.
* `Env` — what one call reads from the operating system.
-/

namespace Dx12Track

open Etw (ObjType Group ResidencyOp CounterKind)

/-- Where an object's memory lives, as far as ETW knows. -/
inductive MemLoc
  | unknown | vram | sys
  deriving DecidableEq, Repr, Inhabited

/-- A live tracked object: what its `created` record said, and its join state. -/
structure LiveObject where
  id : ℕ
  type : ObjectType
  alloc : AllocationKind
  heapType : ℕ
  dimension : ℕ
  format : ℕ
  sizeBytes : ℕ
  parentHeapId : ℕ
  createdNs : ℕ
  objectPtr : ℕ
  name : WString
  /-- `ts_ns` the previous object at `objectPtr` died, 0 if none was seen. -/
  prevDestroyNs : ℕ := 0
  /-- Canonical library id of the bound ETW object, 0 if unbound. -/
  etwKey : ℕ := 0
  /-- Last group of the bound ETW object. -/
  ownLoc : MemLoc := .unknown
  /-- `ownLoc`, or the parent heap's for placed resources. -/
  effLoc : MemLoc := .unknown
  /-- A sidecar `location` line was written at least once. -/
  locReported : Bool := false
  driverSize : ℕ := 0
  deriving DecidableEq

namespace LiveObject

/-! The assignments the join makes to a live object. -/

def setName (o : LiveObject) (s : WString) : LiveObject := { o with name := s }
def setPrevDestroyNs (o : LiveObject) (t : ℕ) : LiveObject := { o with prevDestroyNs := t }
def setEtwKey (o : LiveObject) (k : ℕ) : LiveObject := { o with etwKey := k }
def setOwnLoc (o : LiveObject) (l : MemLoc) : LiveObject := { o with ownLoc := l }
def setEffLoc (o : LiveObject) (l : MemLoc) : LiveObject := { o with effLoc := l }
def setLocReported (o : LiveObject) (b : Bool) : LiveObject := { o with locReported := b }
def setDriverSize (o : LiveObject) (n : ℕ) : LiveObject := { o with driverSize := n }

end LiveObject

/-- The ETW side of the join: one record for each distinct library object. -/
structure EtwObj where
  type : ObjType := .invalid
  address : ℕ := 0
  size : ℕ := 0
  group : MemLoc := .unknown
  createdTs : ℕ := 0
  /-- Id of the bound live object, 0 if unbound. -/
  boundId : ℕ := 0
  /-- Not 0: the tracked object died at this `ts_ns`; it never rebinds. -/
  orphanTs : ℕ := 0
  pendingSinceMs : ℕ := 0
  expired : Bool := false
  /-- Library ids of the rundown re-reports folded into this object. -/
  aliases : List ℕ := []
  deriving DecidableEq

namespace EtwObj

/-! The assignments to an ETW object. -/

def setAddress (e : EtwObj) (a : ℕ) : EtwObj := { e with address := a }
def setSize (e : EtwObj) (n : ℕ) : EtwObj := { e with size := n }
def setGroup (e : EtwObj) (g : MemLoc) : EtwObj := { e with group := g }
def setBoundId (e : EtwObj) (id : ℕ) : EtwObj := { e with boundId := id }
def setOrphanTs (e : EtwObj) (t : ℕ) : EtwObj := { e with orphanTs := t }
def setPending (e : EtwObj) (t : ℕ) : EtwObj := { e with pendingSinceMs := t }
def setExpired (e : EtwObj) : EtwObj := { e with expired := true }
def addAlias (e : EtwObj) (x : ℕ) : EtwObj := { e with aliases := e.aliases ++ [x] }

end EtwObj

/-- A recently destroyed tracked object. -/
structure DeadObj where
  id : ℕ
  type : ObjectType
  /-- Death of the occupant before it. -/
  prevDestroyNs : ℕ
  destroyedNs : ℕ
  deriving DecidableEq

/-- One line of the recent-activity pane. -/
structure ActivityLine where
  tsNs : ℕ
  created : Bool
  type : ObjectType
  id : ℕ
  sizeBytes : ℕ
  name : WString
  heapLabel : String

/-- `MemoryTotals`: bytes and counts by heap bucket and allocation bucket. -/
@[ext] structure MemoryTotals where
  bytes : ℕ → ℕ → ℕ := fun _ _ => 0
  counts : ℕ → ℕ → ℕ := fun _ _ => 0

/-- `EtwSnapshot`: everything `--etw` adds to the snapshot. -/
structure EtwSnapshot where
  enabled : Bool := false
  running : Bool := false
  status : WString := []
  /-- Bytes of every memory-bearing live object, by heap bucket and location. -/
  locBytes : ℕ → MemLoc → ℕ := fun _ _ => 0
  live : ObjType → ℕ := fun _ => 0
  sized : ObjType → ℕ := fun _ => 0
  bytes : ObjType → ℕ := fun _ => 0
  bound : ℕ := 0
  unbound : ℕ := 0
  pending : ℕ := 0
  unboundByType : ObjType → ℕ := fun _ => 0
  binds : ℕ := 0
  rundownDuplicates : ℕ := 0
  pendingExpired : ℕ := 0
  created : ℕ := 0
  lateMatches : ℕ := 0
  groupChanges : ℕ := 0
  makeResident : ℕ := 0
  evict : ℕ := 0
  pageIns : ℕ := 0
  pageOuts : ℕ := 0
  postExitIgnored : ℕ := 0
  diagnostics : ℕ := 0
  rundownIntervalMs : ℕ := 0
  session : Etw.Stats := {}

@[ext] structure Snapshot where
  pid : ℕ := 0
  exePath : WString := []
  dllStartNs : ℕ := 0
  latestNs : ℕ := 0
  childExited : Bool := false
  childExitCode : ℕ := 0
  liveCount : ℕ := 0
  liveBytes : ℕ := 0
  /-- Live counts by `ObjectType` ordinal. -/
  perTypeCounts : ℕ → ℕ := fun _ => 0
  totals : MemoryTotals := {}
  recent : List ActivityLine := []
  etw : EtwSnapshot := {}

/-- What the `etw_stats` line prints. -/
structure EtwStatsLine where
  session : Etw.Stats
  created : ℕ
  rundownDuplicates : ℕ
  binds : ℕ
  lateMatches : ℕ
  bound : ℕ
  unbound : ℕ
  pendingExpired : ℕ
  groupChanges : ℕ
  makeResident : ℕ
  evict : ℕ
  pageIns : ℕ
  pageOuts : ℕ
  postExitIgnored : ℕ
  diagnostics : ℕ
  /-- `unbound_device` … `unbound_meta_command`. -/
  unboundByType : List ℕ
  deriving DecidableEq

/-- The types of the `unbound_*` keys, in their order. -/
def unboundTypes : List ObjType :=
  [.device, .resource, .heap, .pipelineState, .stateObject, .commandAllocator, .descriptorHeap,
    .metaCommand]

def EtwSnapshot.statsLine (e : EtwSnapshot) : EtwStatsLine where
  session := e.session
  created := e.created
  rundownDuplicates := e.rundownDuplicates
  binds := e.binds
  lateMatches := e.lateMatches
  bound := e.bound
  unbound := e.unbound
  pendingExpired := e.pendingExpired
  groupChanges := e.groupChanges
  makeResident := e.makeResident
  evict := e.evict
  pageIns := e.pageIns
  pageOuts := e.pageOuts
  postExitIgnored := e.postExitIgnored
  diagnostics := e.diagnostics
  unboundByType := unboundTypes.map e.unboundByType

/-- A line of the sidecar log; the first field of every line is its `ts_ns`. -/
inductive SideLine
  | etwHello (ts pid qpcFreq qpcStart : ℕ) (session : WString) (rundownIntervalMs : ℕ)
      (mainLog : WString)
  | etwObject (ts libId : ℕ) (type : ObjType) (ptr size : ℕ) (group : MemLoc)
  | etwBind (ts id libId : ℕ) (type : ObjType) (ptr : ℕ) (late : Bool)
  | location (ts id : ℕ) (group : MemLoc) (viaHeap : Bool)
  | driverSize (ts id bytes : ℕ)
  | residency (ts id libId : ℕ) (type : ObjType) (op : ResidencyOp)
  | etwObjectDestroyed (ts libId : ℕ)
  | counters (ts : ℕ) (values : List (CounterKind × ℕ)) (demoted : Option ℕ)
      (pageIns pageOuts : ℕ)
  | etwDiag (ts : ℕ) (error : Bool) (code : ℤ) (msg : WString)
  | targetExiting (ts detectedNs : ℕ) (exitCode : Option ℕ)
  | etwStats (ts : ℕ) (line : EtwStatsLine)
  deriving DecidableEq

/-- What one call reads from the operating system: the two clocks, and the
state of the child process. -/
structure Env where
  /-- `GetTickCount64()`. -/
  nowMs : ℕ := 0
  /-- `QueryPerformanceCounter`. -/
  qpc : ℕ := 0
  /-- `WaitForSingleObject(child, 0) == WAIT_OBJECT_0`. -/
  signaled : Bool := false
  /-- `GetExitCodeProcess`, `none` when it fails. -/
  exitCode : Option ℕ := some 259
  deriving DecidableEq

/-- `CounterVal`: the latest value of one counter. -/
structure CounterVal where
  kind : CounterKind
  bytes : ℕ

/-- The members of `class Model`. -/
structure Model where
  s : Snapshot := {}
  live : Table ℕ LiveObject := ∅
  etwEnabled : Bool := false
  helloSeen : Bool := false
  qpcFreq : ℕ := 0
  qpcStart : ℕ := 0
  /-- `qpcStart` in absolute QPC nanoseconds. -/
  qpcStartNs : ℕ := 0
  /-- `ts_ns` of the child's exit time. -/
  childExitTs : ℕ := 2 ^ 64 - 1
  /-- A process handle was given. -/
  childProcess : Bool := false
  /-- `ts_ns` the child was last seen running. -/
  childAliveTs : ℕ := 0
  childExiting : Bool := false
  exitCutoffTs : ℕ := 2 ^ 64 - 1
  /-- Object pointer to live id. -/
  ptrToId : Table ℕ ℕ := ∅
  /-- Recently destroyed objects by address, oldest first. -/
  deadByPtr : Table ℕ (List DeadObj) := ∅
  /-- `(ts_ns, ptr)` of the recorded deaths, for pruning. -/
  destroyHist : List (ℕ × ℕ) := []
  /-- Heap id to the ids placed in it. -/
  children : Table ℕ (List ℕ) := ∅
  /-- Canonical library id to object. -/
  etwObjs : Table ℕ EtwObj := ∅
  /-- Any library id to canonical library id. -/
  etwAlias : Table ℕ ℕ := ∅
  /-- Address to canonical library id. -/
  etwByAddr : Table ℕ ℕ := ∅
  /-- Canonical ids, oldest first. -/
  pendingQ : List ℕ := []
  /-- Counter id to latest value. -/
  counters : Table ℕ CounterVal := ∅
  lastSecondMs : ℕ := 0
  /-- The sidecar file is open. -/
  side : Bool := false
  /-- What was written to the sidecar file. -/
  sideFile : List SideLine := []
  /-- Lines produced before the hello record. -/
  sidePrebuf : List SideLine := []
  sessionName : WString := []
  mainLogPath : WString := []
  rundownIntervalMs : ℕ := 0

end Dx12Track
