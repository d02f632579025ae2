import Dx12Track.Dll.DiagLine
import Dx12Track.Dll.Tracker
import Dx12Track.Lib.Table
import Dx12Track.Pipe.Layout
import Mathlib.Logic.Function.Basic

/-!
# The device hooks

`src/dll/DeviceHooks.cpp`: the functions that stand in the vtable of a device instead of
the `Create*` methods.  Each calls the method it stands for, and describes the object to
the tracker if the call has succeeded.  The real method may call others on the same
device, which are hooked too, so one hook may begin and end inside another one.

What a call reads outside of the DLL is part of the call: the result of the real method
and the object it has made, the stack, and what Direct3D says of descriptions and heaps.

* `track`, `makeResourceInfo`, … — the helpers.
* `hookSimple`, `hookCommitted`, `hookHeap`, `hookPlaced`, `hookReserved` — **what the hooks
  have in common**; each hook has its own definition.
* `DeviceCall`, `HookAct`, `Capture.step` — the hooks in a process, and what they send.
* `Registered`, `registered_of_registers` — **what the hooks register**.
* `Described` — what every description says.
* `known`, `HeapsTold` — what a reader of the stream knows, and what it is told.
* `Capture.NamesHeaps` — heap arguments are heaps, in a run.
* `Capture.Inv`, `inv_run` — **the invariant**: the stream tells of every object in the
  table, and of a heap before it tells of what is placed in it.
-/

namespace Dx12Track

/-! ### What Direct3D hands over -/

/-- `D3D12_RESOURCE_DESC`. -/
structure ResourceDesc where
  dimension : UInt32
  alignment : UInt64
  width : UInt64
  height : UInt32
  depthOrArraySize : UInt16
  mipLevels : UInt16
  format : UInt32
  sampleDesc : UInt32 × UInt32
  layout : UInt32
  flags : UInt32
  deriving DecidableEq

/-- `D3D12_RESOURCE_DESC1`. -/
structure ResourceDesc1 extends ResourceDesc where
  samplerFeedbackMipRegion : UInt32 × UInt32 × UInt32
  deriving DecidableEq

/-- What the hooks read of a `D3D12_HEAP_DESC`. -/
structure HeapDesc where
  sizeInBytes : UInt64
  /-- `Properties.Type`. -/
  heapType : UInt32
  deriving DecidableEq

/-- An `ID3D12Heap*` that is not null, with what its `GetDesc` returns. -/
structure HeapRef where
  address : UInt64
  desc : HeapDesc
  deriving DecidableEq

/-- The outcome of the real method. -/
structure Outcome where
  hr : Int32
  /-- `*ppv`; `none` if `ppv` is null. -/
  object : Option UInt64
  /-- The frames above `Track`, for `RtlCaptureStackBackTrace`. -/
  stack : List UInt64 := []
  /-- `GetResourceAllocationInfo(…).SizeInBytes`. -/
  allocationSize : UInt64 := 0
  deriving DecidableEq

/-- `SUCCEEDED(hr)`. -/
def Outcome.succeeded (r : Outcome) : Bool := decide (0 ≤ r.hr)

/-! ### Helpers -/

def kDimensionBuffer : UInt32 := 1
def kHeapTypeDefault : UInt32 := 1

/-- The member that `D3D12_RESOURCE_DESC1` has more is left out. -/
def toDesc (d1 : ResourceDesc1) : ResourceDesc := d1.toResourceDesc

/-- `none` is a null device. -/
def computeResourceSize (allocationSize : Option UInt64) (desc : ResourceDesc) : UInt64 :=
  if desc.dimension = kDimensionBuffer then desc.width
  else
    match allocationSize with
    | none => 0
    | some n => if n = UInt64.ofNat (2 ^ 64 - 1) then 0 else n

def makeResourceInfo (r : Outcome) (desc : ResourceDesc) (alloc : AllocationKind)
    (heapType : UInt32) (parentHeapId : ℕ) (parentHeapPtr heapOffset : UInt64) : ObjectInfo where
  type := .resource
  alloc := alloc
  heapType := heapType.toNat
  dimension := desc.dimension.toNat
  format := desc.format.toNat
  sizeBytes := (computeResourceSize (some r.allocationSize) desc).toNat
  parentHeapId := parentHeapId
  parentHeapPtr := parentHeapPtr.toNat
  heapOffset := heapOffset.toNat

def makeHeapInfo (desc : HeapDesc) : ObjectInfo where
  type := .heap
  alloc := .heap
  heapType := desc.heapType.toNat
  sizeBytes := desc.sizeInBytes.toNat

def makeSimpleInfo (t : ObjectType) : ObjectInfo where
  type := t
  alloc := .none

/-- What `Track` registers, if anything. -/
def track (callstacks : Bool) (r : Outcome) (info : ObjectInfo) : Option (ℕ × ObjectInfo) :=
  match r.object with
  | none => none
  | some obj =>
    if obj = 0 then none
    else if callstacks then
      let frames := r.stack.take kMaxCallstackFrames
      some (obj.toNat, { info with frameCount := frames.length, frames := frames.map UInt64.toNat })
    else some (obj.toNat, info)

/-- `LookupHeapId`. -/
def lookupHeapId (t : Tracker) : Option HeapRef → ℕ
  | none => 0
  | some heap => t.lookupId heap.address.toNat

/-! ### The hooks -/

section Hooks

variable (t : Tracker) (callstacks : Bool)

/-- A hook that describes the object by its type alone. -/
def hookSimple (type : ObjectType) (r : Outcome) : Option (ℕ × ObjectInfo) :=
  if r.succeeded then track callstacks r (makeSimpleInfo type) else none

/-- `none` is a null pointer, of heap properties or of a description. -/
def hookCommitted (heapProperties : Option UInt32) (desc : Option ResourceDesc) (r : Outcome) :
    Option (ℕ × ObjectInfo) :=
  match desc, heapProperties with
  | some desc, some heapType =>
    if r.succeeded then track callstacks r (makeResourceInfo r desc .committed heapType 0 0 0)
    else none
  | _, _ => none

def hookHeap (desc : Option HeapDesc) (r : Outcome) : Option (ℕ × ObjectInfo) :=
  match desc with
  | some desc => if r.succeeded then track callstacks r (makeHeapInfo desc) else none
  | none => none

def hookPlaced (heap : Option HeapRef) (heapOffset : UInt64) (desc : Option ResourceDesc)
    (r : Outcome) : Option (ℕ × ObjectInfo) :=
  match desc with
  | some desc =>
    if r.succeeded then
      let heapType := heap.elim kHeapTypeDefault (·.desc.heapType)
      track callstacks r (makeResourceInfo r desc .placed heapType (lookupHeapId t heap)
        (heap.elim 0 (·.address)) heapOffset)
    else none
  | none => none

def hookReserved (desc : Option ResourceDesc) (r : Outcome) : Option (ℕ × ObjectInfo) :=
  match desc with
  | some desc =>
    if r.succeeded then
      track callstacks r (makeResourceInfo r desc .reserved kHeapTypeDefault 0 0 0)
    else none
  | none => none

def hookCreateCommandQueue := hookSimple callstacks .commandQueue
def hookCreateCommandAllocator := hookSimple callstacks .commandAllocator
def hookCreateGraphicsPipelineState := hookSimple callstacks .pipelineState
def hookCreateComputePipelineState := hookSimple callstacks .pipelineState
def hookCreateCommandList := hookSimple callstacks .commandList
def hookCreateDescriptorHeap := hookSimple callstacks .descriptorHeap
def hookCreateRootSignature := hookSimple callstacks .rootSignature
def hookCreateCommittedResource := hookCommitted callstacks
def hookCreateHeap := hookHeap callstacks
def hookCreatePlacedResource := hookPlaced t callstacks
def hookCreateReservedResource := hookReserved callstacks
def hookCreateFence := hookSimple callstacks .fence
def hookCreateQueryHeap := hookSimple callstacks .queryHeap
def hookCreateCommandSignature := hookSimple callstacks .commandSignature
def hookCreatePipelineState := hookSimple callstacks .pipelineState
def hookCreateCommandList1 := hookSimple callstacks .commandList
def hookCreateCommittedResource1 := hookCommitted callstacks
def hookCreateHeap1 := hookHeap callstacks
def hookCreateReservedResource1 := hookReserved callstacks

def hookCreateCommittedResource2 (heapProperties : Option UInt32) (desc : Option ResourceDesc1) :=
  hookCommitted callstacks heapProperties (desc.map toDesc)

def hookCreatePlacedResource1 (heap : Option HeapRef) (heapOffset : UInt64)
    (desc : Option ResourceDesc1) := hookPlaced t callstacks heap heapOffset (desc.map toDesc)

def hookCreateCommandQueue1 := hookSimple callstacks .commandQueue

def hookCreateCommittedResource3 (heapProperties : Option UInt32) (desc : Option ResourceDesc1) :=
  hookCommitted callstacks heapProperties (desc.map toDesc)

def hookCreatePlacedResource2 (heap : Option HeapRef) (heapOffset : UInt64)
    (desc : Option ResourceDesc1) := hookPlaced t callstacks heap heapOffset (desc.map toDesc)

def hookCreateReservedResource2 := hookReserved callstacks

/-- `Hook_SetResidencyPriority`: the arrays, of `NumObjects` elements, or `none` if one of the
pointers is null. -/
def hookSetResidencyPriority (objects : Option (List (UInt64 × UInt32))) (hr : Int32) :
    List LogRecord :=
  if 0 ≤ hr then
    (objects.getD []).map fun x =>
      .residencyPriority (some ⟨t.lookupId x.1.toNat, x.1.toNat, x.2.toNat⟩)
  else []

end Hooks

/-- A call of a hook, with what it gets from the app and from Direct3D. -/
inductive DeviceCall
  | createCommandQueue (r : Outcome)
  | createCommandAllocator (r : Outcome)
  | createGraphicsPipelineState (r : Outcome)
  | createComputePipelineState (r : Outcome)
  | createCommandList (r : Outcome)
  | createDescriptorHeap (r : Outcome)
  | createRootSignature (r : Outcome)
  | createCommittedResource (heapProperties : Option UInt32) (desc : Option ResourceDesc)
      (r : Outcome)
  | createHeap (desc : Option HeapDesc) (r : Outcome)
  | createPlacedResource (heap : Option HeapRef) (heapOffset : UInt64)
      (desc : Option ResourceDesc) (r : Outcome)
  | createReservedResource (desc : Option ResourceDesc) (r : Outcome)
  | createFence (r : Outcome)
  | createQueryHeap (r : Outcome)
  | createCommandSignature (r : Outcome)
  | setResidencyPriority (objects : Option (List (UInt64 × UInt32))) (hr : Int32)
  | createPipelineState (r : Outcome)
  | createCommandList1 (r : Outcome)
  | createCommittedResource1 (heapProperties : Option UInt32) (desc : Option ResourceDesc)
      (r : Outcome)
  | createHeap1 (desc : Option HeapDesc) (r : Outcome)
  | createReservedResource1 (desc : Option ResourceDesc) (r : Outcome)
  | createCommittedResource2 (heapProperties : Option UInt32) (desc : Option ResourceDesc1)
      (r : Outcome)
  | createPlacedResource1 (heap : Option HeapRef) (heapOffset : UInt64)
      (desc : Option ResourceDesc1) (r : Outcome)
  | createCommandQueue1 (r : Outcome)
  | createCommittedResource3 (heapProperties : Option UInt32) (desc : Option ResourceDesc1)
      (r : Outcome)
  | createPlacedResource2 (heap : Option HeapRef) (heapOffset : UInt64)
      (desc : Option ResourceDesc1) (r : Outcome)
  | createReservedResource2 (desc : Option ResourceDesc) (r : Outcome)
  deriving DecidableEq

namespace DeviceCall

/-- What the hook passes to `NoteFire`. -/
def name : DeviceCall → String
  | createCommandQueue .. => "CreateCommandQueue"
  | createCommandAllocator .. => "CreateCommandAllocator"
  | createGraphicsPipelineState .. => "CreateGraphicsPipelineState"
  | createComputePipelineState .. => "CreateComputePipelineState"
  | createCommandList .. => "CreateCommandList"
  | createDescriptorHeap .. => "CreateDescriptorHeap"
  | createRootSignature .. => "CreateRootSignature"
  | createCommittedResource .. => "CreateCommittedResource"
  | createHeap .. => "CreateHeap"
  | createPlacedResource .. => "CreatePlacedResource"
  | createReservedResource .. => "CreateReservedResource"
  | createFence .. => "CreateFence"
  | createQueryHeap .. => "CreateQueryHeap"
  | createCommandSignature .. => "CreateCommandSignature"
  | setResidencyPriority .. => "SetResidencyPriority"
  | createPipelineState .. => "CreatePipelineState"
  | createCommandList1 .. => "CreateCommandList1"
  | createCommittedResource1 .. => "CreateCommittedResource1"
  | createHeap1 .. => "CreateHeap1"
  | createReservedResource1 .. => "CreateReservedResource1"
  | createCommittedResource2 .. => "CreateCommittedResource2"
  | createPlacedResource1 .. => "CreatePlacedResource1"
  | createCommandQueue1 .. => "CreateCommandQueue1"
  | createCommittedResource3 .. => "CreateCommittedResource3"
  | createPlacedResource2 .. => "CreatePlacedResource2"
  | createReservedResource2 .. => "CreateReservedResource2"

/-- The call of `Register` that the hook makes, if any. -/
def registers (t : Tracker) (callstacks : Bool) : DeviceCall → Option (ℕ × ObjectInfo)
  | createCommandQueue r => hookCreateCommandQueue callstacks r
  | createCommandAllocator r => hookCreateCommandAllocator callstacks r
  | createGraphicsPipelineState r => hookCreateGraphicsPipelineState callstacks r
  | createComputePipelineState r => hookCreateComputePipelineState callstacks r
  | createCommandList r => hookCreateCommandList callstacks r
  | createDescriptorHeap r => hookCreateDescriptorHeap callstacks r
  | createRootSignature r => hookCreateRootSignature callstacks r
  | createCommittedResource props desc r => hookCreateCommittedResource callstacks props desc r
  | createHeap desc r => hookCreateHeap callstacks desc r
  | createPlacedResource heap off desc r => hookCreatePlacedResource t callstacks heap off desc r
  | createReservedResource desc r => hookCreateReservedResource callstacks desc r
  | createFence r => hookCreateFence callstacks r
  | createQueryHeap r => hookCreateQueryHeap callstacks r
  | createCommandSignature r => hookCreateCommandSignature callstacks r
  | setResidencyPriority .. => none
  | createPipelineState r => hookCreatePipelineState callstacks r
  | createCommandList1 r => hookCreateCommandList1 callstacks r
  | createCommittedResource1 props desc r => hookCreateCommittedResource1 callstacks props desc r
  | createHeap1 desc r => hookCreateHeap1 callstacks desc r
  | createReservedResource1 desc r => hookCreateReservedResource1 callstacks desc r
  | createCommittedResource2 props desc r => hookCreateCommittedResource2 callstacks props desc r
  | createPlacedResource1 heap off desc r => hookCreatePlacedResource1 t callstacks heap off desc r
  | createCommandQueue1 r => hookCreateCommandQueue1 callstacks r
  | createCommittedResource3 props desc r => hookCreateCommittedResource3 callstacks props desc r
  | createPlacedResource2 heap off desc r => hookCreatePlacedResource2 t callstacks heap off desc r
  | createReservedResource2 desc r => hookCreateReservedResource2 callstacks desc r

/-- The heap that a resource is placed in. -/
def heap : DeviceCall → Option HeapRef
  | createPlacedResource heap _ _ _ => heap
  | createPlacedResource1 heap _ _ _ => heap
  | createPlacedResource2 heap _ _ _ => heap
  | _ => none

/-- What the hook sends without the tracker. -/
def sends (t : Tracker) : DeviceCall → List LogRecord
  | setResidencyPriority objects hr => hookSetResidencyPriority t objects hr
  | _ => []

end DeviceCall

/-! ### The hooks in a process -/

/-- The DLL, as far as the hooks go, and what it has handed to `Send`. -/
structure Capture where
  tracker : Tracker := {}
  /-- `g_verbose` and `g_capture_callstacks`. -/
  verbose : Bool := false
  callstacks : Bool := false
  /-- The names in the set of `NoteFire`. -/
  fired : List String := []
  stream : List LogRecord := []

/-- A hook begins; it goes on when the real method has returned; the object hooks find a name or
the last release; `Dx12Track_StartLogging` is called; the rest of the DLL sends a record. -/
inductive HookAct
  | enter (c : DeviceCall)
  | leave (c : DeviceCall)
  | setName (obj : UInt64) (name : Option CWString)
  | releaseToZero (obj : UInt64)
  | startLogging (callstacks : Bool)
  | other (r : LogRecord)

namespace Capture

def send (s : Capture) (rs : List LogRecord) : Capture := { s with stream := s.stream ++ rs }

/-- A call of the tracker. -/
def call (s : Capture) (x : Tracker.Call) : Capture :=
  { s with
    tracker := (s.tracker.step x).1
    stream := s.stream ++ (s.tracker.step x).2.map Record.payload }

/-- `NoteFire`. -/
def noteFire (s : Capture) (name : String) : Capture :=
  if !s.verbose || name ∈ s.fired then s
  else
    { s with fired := name :: s.fired }.send
      [.diagnostic (some (diagF (ascii ("first-fire Hook_" ++ name))))]

def step (s : Capture) : HookAct → Capture
  | .enter c => s.noteFire c.name
  | .leave c =>
    match c.registers s.tracker s.callstacks with
    | some (obj, info) => s.call (.register obj info)
    | none => s.send (c.sends s.tracker)
  | .setName obj name => s.call (.setName obj.toNat name)
  | .releaseToZero obj => s.call (.releaseToZero obj.toNat)
  | .startLogging callstacks => { s with callstacks := callstacks }
  | .other r => s.send [r]

/-- A run from `OnAttach`, which has read the two flags. -/
def run (verbose callstacks : Bool) (xs : List HookAct) : Capture :=
  Machine.run step { verbose := verbose, callstacks := callstacks } xs

end Capture

/-! ### What a hook registers -/

/-- A description with a stack. -/
def ObjectInfo.withStack (info : ObjectInfo) (frames : List UInt64) : ObjectInfo :=
  { info with frameCount := frames.length, frames := frames.map UInt64.toNat }

/-- The descriptions that the hooks make; `heap` is the heap argument of the call. -/
inductive Describes (t : Tracker) (heap : Option HeapRef) : ObjectInfo → Prop
  | simple (type : ObjectType) (hrange : type.InRange) (hresource : type ≠ .resource)
      (hheap : type ≠ .heap) : Describes t heap (makeSimpleInfo type)
  | heap (desc : HeapDesc) : Describes t heap (makeHeapInfo desc)
  | free (r : Outcome) (desc : ResourceDesc) (alloc : AllocationKind) (heapType : UInt32)
      (halloc : alloc = .committed ∨ alloc = .reserved) :
      Describes t heap (makeResourceInfo r desc alloc heapType 0 0 0)
  | placed (r : Outcome) (desc : ResourceDesc) (heapType : UInt32) (heapOffset : UInt64) :
      Describes t heap (makeResourceInfo r desc .placed heapType (lookupHeapId t heap)
        (heap.elim 0 (·.address)) heapOffset)

/-- What `Track` makes of a description. -/
structure Registered (t : Tracker) (heap : Option HeapRef) (obj : ℕ) (info : ObjectInfo) :
    Prop where
  object : ∃ o : UInt64, o ≠ 0 ∧ obj = o.toNat
  stack : ∃ (base : ObjectInfo) (frames : List UInt64), Describes t heap base ∧
    frames.length ≤ kMaxCallstackFrames ∧ info = base.withStack frames

theorem registered_track {t : Tracker} {heap : Option HeapRef} {callstacks : Bool} {r : Outcome}
    {base : ObjectInfo} (hbase : Describes t heap base) {obj : ℕ} {info : ObjectInfo}
    (h : track callstacks r base = some (obj, info)) : Registered t heap obj info := by
  have hbare : base.withStack [] = base := by cases hbase <;> rfl
  unfold track at h
  cases hobject : r.object with
  | none =>
    rw [hobject] at h
    cases h
  | some o =>
    rw [hobject] at h
    dsimp only at h
    split at h
    · cases h
    · next ho =>
      split at h
      · cases h
        refine ⟨⟨o, ho, rfl⟩, base, r.stack.take kMaxCallstackFrames, hbase, ?_, rfl⟩
        rw [List.length_take]
        exact Nat.min_le_left _ _
      · cases h
        exact ⟨⟨o, ho, rfl⟩, base, [], hbase, Nat.zero_le _, hbare.symm⟩

section Hooks

variable {t : Tracker} {heap : Option HeapRef} {callstacks : Bool} {r : Outcome} {obj : ℕ}
  {info : ObjectInfo}

theorem registered_hookSimple {type : ObjectType} (hrange : type.InRange)
    (hresource : type ≠ .resource) (hheap : type ≠ .heap)
    (h : hookSimple callstacks type r = some (obj, info)) : Registered t heap obj info := by
  unfold hookSimple at h
  split at h
  · exact registered_track (.simple type hrange hresource hheap) h
  · cases h

theorem registered_hookCommitted {heapProperties : Option UInt32} {desc : Option ResourceDesc}
    (h : hookCommitted callstacks heapProperties desc r = some (obj, info)) :
    Registered t heap obj info := by
  unfold hookCommitted at h
  split at h
  · split at h
    · exact registered_track (.free _ _ _ _ (Or.inl rfl)) h
    · cases h
  · cases h

theorem registered_hookHeap {desc : Option HeapDesc}
    (h : hookHeap callstacks desc r = some (obj, info)) : Registered t heap obj info := by
  unfold hookHeap at h
  split at h
  · split at h
    · exact registered_track (.heap _) h
    · cases h
  · cases h

theorem registered_hookPlaced {heapOffset : UInt64} {desc : Option ResourceDesc}
    (h : hookPlaced t callstacks heap heapOffset desc r = some (obj, info)) :
    Registered t heap obj info := by
  unfold hookPlaced at h
  split at h
  · split at h
    · exact registered_track (.placed _ _ _ _) h
    · cases h
  · cases h

theorem registered_hookReserved {desc : Option ResourceDesc}
    (h : hookReserved callstacks desc r = some (obj, info)) : Registered t heap obj info := by
  unfold hookReserved at h
  split at h
  · split at h
    · exact registered_track (.free _ _ _ _ (Or.inr rfl)) h
    · cases h
  · cases h

/-- **What a hook registers.** -/
theorem registered_of_registers {c : DeviceCall}
    (h : c.registers t callstacks = some (obj, info)) : Registered t c.heap obj info := by
  cases c with
  | setResidencyPriority => cases h
  | createCommittedResource => exact registered_hookCommitted h
  | createCommittedResource1 => exact registered_hookCommitted h
  | createCommittedResource2 => exact registered_hookCommitted h
  | createCommittedResource3 => exact registered_hookCommitted h
  | createHeap => exact registered_hookHeap h
  | createHeap1 => exact registered_hookHeap h
  | createPlacedResource => exact registered_hookPlaced h
  | createPlacedResource1 => exact registered_hookPlaced h
  | createPlacedResource2 => exact registered_hookPlaced h
  | createReservedResource => exact registered_hookReserved h
  | createReservedResource1 => exact registered_hookReserved h
  | createReservedResource2 => exact registered_hookReserved h
  | _ => exact registered_hookSimple (by decide) (by decide) (by decide) h

end Hooks

/-! ### What a description says -/

/-- **What every description says.**  Only a placed resource has a heap, and what bears no memory
has no size. -/
structure Described (p : CreatedPayload) : Prop where
  type : p.type.InRange
  alloc : p.alloc.InRange
  resource : p.type = .resource ↔ p.alloc = .committed ∨ p.alloc = .placed ∨ p.alloc = .reserved
  heap : p.type = .heap ↔ p.alloc = .heap
  free : p.alloc ≠ .placed → p.parentHeapId = 0 ∧ p.parentHeapPtr = 0 ∧ p.heapOffset = 0
  bare : p.alloc = .none → p.sizeBytes = 0 ∧ p.heapType = 0 ∧ p.dimension = 0 ∧ p.format = 0

/-- The payload that `EmitCreated` makes. -/
def createdPayload (info : ObjectInfo) : CreatedPayload where
  id := info.id
  sizeBytes := info.sizeBytes
  parentHeapId := info.parentHeapId
  parentHeapPtr := info.parentHeapPtr
  objectPtr := info.objectPtr
  heapOffset := info.heapOffset
  heapType := info.heapType
  dimension := info.dimension
  format := info.format
  type := info.type
  alloc := info.alloc
  name := NameBuf.copy (info.name.take (kMaxNameChars - 1))
  frameCount := info.frameCount
  frames := info.frames.take info.frameCount
    ++ List.replicate (kMaxCallstackFrames - info.frameCount) 0

theorem described_of_describes {t : Tracker} {heap : Option HeapRef} {base : ObjectInfo}
    (h : Describes t heap base) (frames : List UInt64) (obj id : ℕ) :
    Described (createdPayload (Tracker.stamp (base.withStack frames) obj id)) := by
  have hresource : ObjectType.resource ≠ .heap := by decide
  cases h with
  | simple type hrange hres hheap =>
    have hnot : ¬(AllocationKind.none = .committed ∨ AllocationKind.none = .placed ∨
        AllocationKind.none = .reserved) := by decide
    have hnone : AllocationKind.none ≠ .heap := by decide
    exact ⟨hrange, (by decide : AllocationKind.none.InRange),
      ⟨fun h => absurd h hres, fun h => absurd h hnot⟩,
      ⟨fun h => absurd h hheap, fun h => absurd h hnone⟩, fun _ => ⟨rfl, rfl, rfl⟩,
      fun _ => ⟨rfl, rfl, rfl, rfl⟩⟩
  | heap desc =>
    have hnot : ¬(AllocationKind.heap = .committed ∨ AllocationKind.heap = .placed ∨
        AllocationKind.heap = .reserved) := by decide
    have hheap : AllocationKind.heap ≠ .none := by decide
    exact ⟨(by decide : ObjectType.heap.InRange), (by decide : AllocationKind.heap.InRange),
      ⟨fun h => absurd h.symm hresource, fun h => absurd h hnot⟩, ⟨fun _ => rfl, fun _ => rfl⟩,
      fun _ => ⟨rfl, rfl, rfl⟩, fun h => absurd h hheap⟩
  | free r desc alloc heapType halloc =>
    have hrange : alloc.InRange := by rcases halloc with rfl | rfl <;> decide
    have hheap : alloc ≠ .heap := by rcases halloc with rfl | rfl <;> decide
    have hnone : alloc ≠ .none := by rcases halloc with rfl | rfl <;> decide
    exact ⟨(by decide : ObjectType.resource.InRange), hrange,
      ⟨fun _ => halloc.imp_right Or.inr, fun _ => rfl⟩,
      ⟨fun h => absurd h hresource, fun h => absurd h hheap⟩,
      fun _ => ⟨rfl, rfl, rfl⟩, fun h => absurd h hnone⟩
  | placed r desc heapType heapOffset =>
    have hheap : AllocationKind.placed ≠ .heap := by decide
    have hnone : AllocationKind.placed ≠ .none := by decide
    exact ⟨(by decide : ObjectType.resource.InRange), (by decide : AllocationKind.placed.InRange),
      ⟨fun _ => Or.inr (Or.inl rfl), fun _ => rfl⟩,
      ⟨fun h => absurd h hresource, fun h => absurd h hheap⟩,
      fun h => absurd rfl h, fun h => absurd h hnone⟩

/-! ### The table and the stream -/

/-- The objects that a stream has created and not destroyed, with their addresses and types. -/
def knows (f : ℕ → Option (ℕ × ObjectType)) : LogRecord → ℕ → Option (ℕ × ObjectType)
  | .created (some p) => Function.update f p.id (some (p.objectPtr, p.type))
  | .destroyed (some p) => Function.update f p.id none
  | _ => f

def known (rs : List LogRecord) : ℕ → Option (ℕ × ObjectType) := rs.foldl knows fun _ => none

theorem known_append (rs rs' : List LogRecord) : known (rs ++ rs') = rs'.foldl knows (known rs) :=
  List.foldl_append

/-- A record that leaves the table of a launcher alone, but for names. -/
def LogRecord.OffTable (r : LogRecord) : Prop := r.kind ≠ .created ∧ r.kind ≠ .destroyed

theorem knows_offTable {r : LogRecord} (h : r.OffTable) (f : ℕ → Option (ℕ × ObjectType)) :
    knows f r = f := by
  cases r with
  | created => exact absurd rfl h.1
  | destroyed => exact absurd rfl h.2
  | _ => rfl

theorem known_append_offTable (rs : List LogRecord) {new : List LogRecord}
    (h : ∀ r ∈ new, r.OffTable) : known (rs ++ new) = known rs := by
  rw [known_append]
  generalize known rs = f
  induction new with
  | nil => rfl
  | cons r new ih =>
    rw [List.foldl_cons, knows_offTable (h r List.mem_cons_self)]
    exact ih fun r hr => h r (List.mem_cons_of_mem _ hr)

/-- The rest of the DLL does not describe objects. -/
def HookAct.Legal : HookAct → Prop
  | .other r => r.OffTable ∧ r.Fits
  | _ => True

/-- The object at the address of a heap argument is a heap. -/
def DeviceCall.NamesHeap (t : Tracker) (c : DeviceCall) : Prop :=
  ∀ heap info, c.heap = some heap → t.objects.lookup heap.address.toNat = some info →
    info.type = .heap

/-- Every description in a stream is one the hooks make, and a placed resource comes with an object
that the stream has told of before; `named` is whether heap arguments are heaps. -/
def HeapsTold (named : Prop) (rs : List LogRecord) : Prop :=
  ∀ us p vs, rs = us ++ .created (some p) :: vs →
    Described p ∧ (p.parentHeapId ≠ 0 → ∃ type,
      known us p.parentHeapId = some (p.parentHeapPtr, type) ∧ (named → type = .heap))

theorem told_append {named : Prop} {rs new : List LogRecord} (h : HeapsTold named rs)
    (hnew : ∀ r ∈ new, r.kind ≠ .created) : HeapsTold named (rs ++ new) := by
  have hno : ∀ p, LogRecord.created (some p) ∉ new := fun p hp => hnew _ hp rfl
  intro us p vs heq
  rcases List.append_eq_append_iff.mp heq with ⟨ws, -, hws⟩ | ⟨ws, hrs, hws⟩
  · exact absurd (hws ▸ List.mem_append_right _ List.mem_cons_self) (hno p)
  · cases ws with
    | nil => exact absurd (hws.symm ▸ List.mem_cons_self : _ ∈ [] ++ new) (hno p)
    | cons w ws =>
      injection hws with hw hvs
      exact h us p ws (hw ▸ hrs)

theorem told_concat_created {named : Prop} {rs : List LogRecord} (h : HeapsTold named rs)
    {p : CreatedPayload} (hp : Described p)
    (hheap : p.parentHeapId ≠ 0 → ∃ type,
      known rs p.parentHeapId = some (p.parentHeapPtr, type) ∧ (named → type = .heap)) :
    HeapsTold named (rs ++ [.created (some p)]) := by
  intro us q vs heq
  rcases List.append_eq_append_iff.mp heq with ⟨ws, hus, hws⟩ | ⟨ws, hrs, hws⟩
  · cases ws with
    | nil =>
      injection hws with hq
      cases hq
      rw [hus, List.append_nil]
      exact ⟨hp, hheap⟩
    | cons w ws => cases ws <;> cases hws
  · cases ws with
    | nil =>
      injection hws with hq
      cases hq
      rw [List.append_nil] at hrs
      exact hrs ▸ ⟨hp, hheap⟩
    | cons w ws =>
      injection hws with hw hvs
      exact h us q ws (hw ▸ hrs)

theorem exists_of_lookupId {t : Tracker} {obj : ℕ} (h : t.lookupId obj ≠ 0) :
    ∃ info, t.objects.lookup obj = some info ∧ info.id = t.lookupId obj := by
  unfold Tracker.lookupId at h ⊢
  split at h
  · exact absurd rfl h
  · next info hinfo => exact ⟨info, hinfo, rfl⟩

/-- The heap of a placed resource is the one the tracker finds at the address of the argument. -/
theorem Registered.parentHeap {t : Tracker} {heap : Option HeapRef} {obj : ℕ} {info : ObjectInfo}
    (h : Registered t heap obj info) (hheap : info.parentHeapId ≠ 0) :
    ∃ ref, heap = some ref ∧ info.parentHeapPtr = ref.address.toNat ∧
      info.parentHeapId = t.lookupId ref.address.toNat := by
  obtain ⟨base, frames, hbase, -, rfl⟩ := h.stack
  cases hbase with
  | simple => exact absurd rfl hheap
  | heap => exact absurd rfl hheap
  | free => exact absurd rfl hheap
  | placed r desc heapType heapOffset =>
    cases heap with
    | none => exact absurd rfl hheap
    | some heap => exact ⟨heap, rfl, rfl, rfl⟩

namespace Capture

/-- **The invariant.**  The stream tells of every object in the table. -/
structure Inv (named : Prop) (s : Capture) : Prop where
  entry : ∀ obj info, s.tracker.objects.lookup obj = some info →
    known s.stream info.id = some (obj, info.type) ∧ info.id < s.tracker.nextId
  one_id : ∀ obj obj' info info', s.tracker.objects.lookup obj = some info →
    s.tracker.objects.lookup obj' = some info' → info.id = info'.id → obj = obj'
  told : HeapsTold named s.stream

variable {named : Prop}

theorem inv_send {s : Capture} (h : Inv named s) {rs : List LogRecord}
    (hrs : ∀ r ∈ rs, r.OffTable) : Inv named (s.send rs) := by
  refine ⟨fun obj info hinfo => ?_, h.one_id, told_append h.told fun r hr => (hrs r hr).1⟩
  show known (s.stream ++ rs) info.id = some (obj, info.type) ∧ _
  rw [known_append_offTable _ hrs]
  exact h.entry obj info hinfo

/-- The tracker is called with what a hook makes. -/
theorem inv_call {s : Capture} (h : Inv named s) {x : Tracker.Call}
    (hx : ∀ obj info, x = .register obj info → ∃ c : DeviceCall,
      Registered s.tracker c.heap obj info ∧ (named → c.NamesHeap s.tracker)) :
    Inv named (s.call x) := by
  have heff := Tracker.step_effect s.tracker x
  obtain ⟨t, rs, hout⟩ : ∃ t rs, s.tracker.step x = (t, rs) := ⟨_, _, rfl⟩
  have hcall : s.call x =
      { s with tracker := t, stream := s.stream ++ rs.map Record.payload } := by
    rw [call, hout]
  rw [hcall]
  rw [hout] at heff
  cases heff with
  | idle =>
    rw [List.map_nil, List.append_nil]
    exact h
  | registered obj info hobj =>
    obtain ⟨c, hreg, hnamed⟩ := hx obj info rfl
    obtain ⟨base, frames, hbase, -, hinfo⟩ := hreg.stack
    have hentry : ∀ obj' info', (s.tracker.objects.insert obj
        (Tracker.stamp info obj s.tracker.nextId)).lookup obj' = some info' →
        (obj' = obj ∧ info'.id = s.tracker.nextId ∧ info'.type = info.type) ∨
        (s.tracker.objects.lookup obj' = some info' ∧ info'.id < s.tracker.nextId) := by
      intro obj' info' hlookup
      rw [Finmap.lookup_insert_eq] at hlookup
      split at hlookup
      · next hobj' =>
        cases hlookup
        exact Or.inl ⟨hobj', rfl, rfl⟩
      · exact Or.inr ⟨hlookup, (h.entry obj' info' hlookup).2⟩
    refine ⟨fun obj' info' hlookup => ?_, fun o o' i i' hi hi' hid => ?_, ?_⟩
    · show known (s.stream ++ [.created (some _)]) info'.id = some (obj', info'.type) ∧
        info'.id < s.tracker.nextId + 1
      rw [known_append]
      show Function.update (known s.stream) s.tracker.nextId (some (obj, info.type)) info'.id =
        some (obj', info'.type) ∧ _
      rcases hentry obj' info' hlookup with ⟨rfl, hid, htype⟩ | ⟨hold, hlt⟩
      · rw [hid, htype, Function.update_self]
        exact ⟨rfl, Nat.lt_succ_self _⟩
      · rw [Function.update_of_ne hlt.ne]
        exact ⟨(h.entry obj' info' hold).1, hlt.trans (Nat.lt_succ_self _)⟩
    · rcases hentry o i hi with ⟨rfl, hnew, -⟩ | ⟨hold, hlt⟩ <;>
        rcases hentry o' i' hi' with ⟨rfl, hnew', -⟩ | ⟨hold', hlt'⟩
      · rfl
      · omega
      · omega
      · exact h.one_id o o' i i' hold hold' hid
    · rw [hinfo] at hreg ⊢
      refine told_concat_created h.told (described_of_describes hbase frames _ _) fun hheap => ?_
      obtain ⟨ref, hheapArg, hptr, hid⟩ := hreg.parentHeap hheap
      obtain ⟨info', hlookup, hinfo'⟩ := exists_of_lookupId (hid ▸ hheap)
      refine ⟨info'.type, ?_, fun hn => hnamed hn ref info' hheapArg hlookup⟩
      show known s.stream (base.withStack frames).parentHeapId =
        some ((base.withStack frames).parentHeapPtr, _)
      rw [hid, hptr, ← hinfo']
      exact (h.entry _ info' hlookup).1
  | renamed obj name info hinfo =>
    have hentry : ∀ obj' info', (s.tracker.objects.insert obj
        { info with name := (name.map Subtype.val).getD [] }).lookup obj' = some info' →
        ∃ old, s.tracker.objects.lookup obj' = some old ∧ old.id = info'.id ∧
          old.type = info'.type := by
      intro obj' info' hlookup
      rw [Finmap.lookup_insert_eq] at hlookup
      split at hlookup
      · next hobj' =>
        cases hlookup
        exact ⟨info, hobj' ▸ hinfo, rfl, rfl⟩
      · exact ⟨info', hlookup, rfl, rfl⟩
    have hoff : ∀ r ∈ [(Tracker.emitRenamed info.id ((name.map Subtype.val).getD [])).payload],
        r.OffTable := by
      intro r hr
      rw [List.mem_singleton.mp hr]
      have hcreated : EventKind.renamed ≠ .created := by decide
      have hdestroyed : EventKind.renamed ≠ .destroyed := by decide
      exact ⟨hcreated, hdestroyed⟩
    refine ⟨fun obj' info' hlookup => ?_, fun o o' i i' hi hi' hid => ?_,
      told_append h.told fun r hr => (hoff r hr).1⟩
    · show known (s.stream ++ _) info'.id = some (obj', info'.type) ∧ _
      rw [List.map_singleton, known_append_offTable _ hoff]
      obtain ⟨old, hold, hid, htype⟩ := hentry obj' info' hlookup
      exact hid ▸ htype ▸ h.entry obj' old hold
    · obtain ⟨old, hold, hi, -⟩ := hentry o i hi
      obtain ⟨old', hold', hi', -⟩ := hentry o' i' hi'
      exact h.one_id o o' old old' hold hold' (hi.trans (hid.trans hi'.symm))
  | destroyed obj info hinfo =>
    refine ⟨fun obj' info' hlookup => ?_, fun o o' i i' hi hi' hid => ?_, ?_⟩
    · obtain ⟨hne, hold⟩ := Finmap.lookup_erase_some hlookup
      have hid : info'.id ≠ info.id := fun hid => hne (h.one_id _ _ _ _ hold hinfo hid)
      show known (s.stream ++ [.destroyed (some ⟨info.id⟩)]) info'.id = some (obj', info'.type) ∧ _
      rw [known_append]
      show Function.update (known s.stream) info.id none info'.id = some (obj', info'.type) ∧ _
      rw [Function.update_of_ne hid]
      exact h.entry obj' info' hold
    · exact h.one_id o o' i i' (Finmap.lookup_erase_some hi).2 (Finmap.lookup_erase_some hi').2 hid
    · refine told_append h.told fun r hr => ?_
      rw [List.mem_singleton.mp hr]
      exact (by decide : EventKind.destroyed ≠ .created)

theorem offTable_sends (t : Tracker) (c : DeviceCall) : ∀ r ∈ c.sends t, r.OffTable := by
  intro r hr
  have hcreated : EventKind.residencyPriority ≠ .created := by decide
  have hdestroyed : EventKind.residencyPriority ≠ .destroyed := by decide
  cases c with
  | setResidencyPriority objects hres =>
    change r ∈ hookSetResidencyPriority t objects hres at hr
    unfold hookSetResidencyPriority at hr
    split at hr
    · obtain ⟨x, -, rfl⟩ := List.mem_map.mp hr
      exact ⟨hcreated, hdestroyed⟩
    · cases hr
  | _ => cases hr

theorem inv_noteFire {s : Capture} (h : Inv named s) (name : String) :
    Inv named (s.noteFire name) := by
  have hcreated : EventKind.diagnostic ≠ .created := by decide
  have hdestroyed : EventKind.diagnostic ≠ .destroyed := by decide
  unfold noteFire
  split
  · exact h
  · have hfired : Inv named { s with fired := name :: s.fired } := ⟨h.entry, h.one_id, h.told⟩
    refine inv_send hfired fun r hr => ?_
    rw [List.mem_singleton.mp hr]
    exact ⟨hcreated, hdestroyed⟩

theorem inv_step {s : Capture} (h : Inv named s) {x : HookAct} (hx : x.Legal)
    (hnamed : named → ∀ c, x = .leave c → c.NamesHeap s.tracker) : Inv named (s.step x) := by
  cases x with
  | enter c => exact inv_noteFire h c.name
  | leave c =>
    unfold step
    dsimp only
    split
    · next obj info hreg =>
      refine inv_call h fun obj' info' heq => ?_
      cases heq
      exact ⟨c, registered_of_registers hreg, fun hn => hnamed hn c rfl⟩
    · exact inv_send h (offTable_sends _ _)
  | setName obj name => exact inv_call h fun _ _ heq => by cases heq
  | releaseToZero obj => exact inv_call h fun _ _ heq => by cases heq
  | startLogging callstacks => exact ⟨h.entry, h.one_id, h.told⟩
  | other r =>
    refine inv_send h fun r' hr => ?_
    rw [List.mem_singleton.mp hr]
    exact hx.1

/-- Heap arguments are heaps, in a whole run. -/
def NamesHeaps (verbose callstacks : Bool) (xs : List HookAct) : Prop :=
  ∀ us c vs, xs = us ++ .leave c :: vs → c.NamesHeap (run verbose callstacks us).tracker

theorem inv_run (verbose callstacks : Bool) {xs : List HookAct} (hxs : ∀ x ∈ xs, x.Legal)
    (hnamed : named → NamesHeaps verbose callstacks xs) :
    Inv named (run verbose callstacks xs) := by
  induction xs using List.reverseRecOn with
  | nil =>
    refine ⟨fun obj info h => ?_, fun obj obj' info info' h => ?_, fun us p vs h => ?_⟩
    · cases h
    · cases h
    · cases us <;> cases h
  | append_singleton xs x ih =>
    rw [run, Machine.run_concat]
    refine inv_step (ih (fun y hy => hxs y (List.mem_append_left _ hy)) fun hn us c vs heq => ?_)
      (hxs x (by simp)) fun hn c heq => ?_
    · exact hnamed hn us c (vs ++ [x]) (by rw [heq, List.append_assoc, List.cons_append])
    · exact hnamed hn xs c [] (by rw [heq])

end Capture

end Dx12Track
