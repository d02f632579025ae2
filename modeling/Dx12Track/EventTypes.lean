import Mathlib.Data.List.TakeWhile

/-!
# The wire format

The record types of `src/common/EventTypes.h`, shared by the injected DLL (the
producer) and the launcher (the consumer).

The C++ enumerations have a fixed `uint8_t` base, so a byte read from the pipe
need not be one of the named values: `ObjectType` and `AllocationKind` are the
byte, with the enumerators as named constants.  Tracker ids, sizes, addresses
and time stamps are natural numbers; arithmetic that can leave 64 bits says so
where it happens.

* `HelloPayload` … `ResidencyPriorityPayload` — the payload structures.
* `NameBuf` — a `wchar_t[kMaxNameChars]` field, `NameBuf.copy` and `NameBuf.read`.
* `Record` — what `Model::OnEvent` finds behind a header: one of the payloads it
  knows, or something it ignores.
-/

namespace Dx12Track

def kMaxNameChars : ℕ := 256
def kMaxCallstackFrames : ℕ := 32
def kMaxDiagnosticChars : ℕ := 512

/-- `enum class ObjectType : uint8_t`. -/
structure ObjectType where
  raw : UInt8
  deriving DecidableEq, Repr, Inhabited

namespace ObjectType

def unknown : ObjectType := ⟨0⟩
def device : ObjectType := ⟨1⟩
def resource : ObjectType := ⟨2⟩
def heap : ObjectType := ⟨3⟩
def descriptorHeap : ObjectType := ⟨4⟩
def commandQueue : ObjectType := ⟨5⟩
def commandAllocator : ObjectType := ⟨6⟩
def commandList : ObjectType := ⟨7⟩
def pipelineState : ObjectType := ⟨8⟩
def rootSignature : ObjectType := ⟨9⟩
def fence : ObjectType := ⟨10⟩
def queryHeap : ObjectType := ⟨11⟩
def commandSignature : ObjectType := ⟨12⟩

/-- `static_cast<size_t>(ObjectType::Count)`. -/
def count : ℕ := 13

/-- `static_cast<size_t>(t)`, the index into per-type tables. -/
def index (t : ObjectType) : ℕ := t.raw.toNat

/-- The byte is one of the enumerators. -/
def InRange (t : ObjectType) : Prop := t.index < count

instance (t : ObjectType) : Decidable t.InRange := inferInstanceAs (Decidable (_ < _))

end ObjectType

/-- `enum class AllocationKind : uint8_t`. -/
structure AllocationKind where
  raw : UInt8
  deriving DecidableEq, Repr, Inhabited

namespace AllocationKind

/-- Non-memory-bearing. -/
def none : AllocationKind := ⟨0⟩
def committed : AllocationKind := ⟨1⟩
def placed : AllocationKind := ⟨2⟩
def reserved : AllocationKind := ⟨3⟩
/-- The heap object itself. -/
def heap : AllocationKind := ⟨4⟩

def index (a : AllocationKind) : ℕ := a.raw.toNat

/-- The byte is one of the five enumerators. -/
def InRange (a : AllocationKind) : Prop := a.index < 5

instance (a : AllocationKind) : Decidable a.InRange := inferInstanceAs (Decidable (_ < _))

end AllocationKind

/-- `enum class EventKind : uint8_t`, of the events that the DLL writes. -/
inductive EventKind
  | hello
  | created
  | renamed
  | destroyed
  | goodbye
  | moduleLoaded
  | moduleUnloaded
  | diagnostic
  | residencyPriority
  deriving DecidableEq

/-! ### Names -/

/-- A `std::wstring` or a zero-terminated `const wchar_t*`: UTF-16 code units. -/
abbrev WString := List UInt16

/-- No zero code unit: what a `const wchar_t*` can carry. -/
def NulFree (s : WString) : Prop := ∀ c ∈ s, c ≠ 0

instance (s : WString) : Decidable (NulFree s) :=
  List.decidableBAll (· ≠ 0) s

/-- A wide string literal of characters that are one code unit. -/
def wliteral (s : String) : WString := s.toList.map fun c => c.toNat.toUInt16

/-- `std::to_wstring`, and `%lu`. -/
def toWString (n : ℕ) : WString := (Nat.toDigits 10 n).map fun c => c.toNat.toUInt16

/-- What a `const wchar_t*` points to, up to its terminator. -/
abbrev CWString := {s : WString // NulFree s}

/-- `wcsnlen`: the code units before the first zero, `max` at most. -/
def wcsnlen (s : WString) (max : ℕ) : ℕ := ((s.take max).takeWhile (· ≠ 0)).length

/-- A `wchar_t[kMaxNameChars]` field of a payload. -/
structure NameBuf where
  chars : WString
  length_eq : chars.length = kMaxNameChars
  deriving DecidableEq

namespace NameBuf

/-- A zeroed field with `src` copied over its beginning. -/
def copy (src : WString) : NameBuf where
  chars := (src ++ List.replicate kMaxNameChars 0).take kMaxNameChars
  length_eq := by simp

/-- `name.assign(p->name, wcsnlen(p->name, kMaxNameChars))`. -/
def read (b : NameBuf) : WString := b.chars.take (wcsnlen b.chars kMaxNameChars)

end NameBuf

theorem take_wcsnlen (s : WString) (max : ℕ) :
    s.take (wcsnlen s max) = (s.take max).takeWhile (· ≠ 0) := by
  unfold wcsnlen
  have hpre : ((s.take max).takeWhile (· ≠ 0)) <+: s :=
    (List.takeWhile_prefix _).trans (List.take_prefix max s)
  exact (List.prefix_iff_eq_take.mp hpre).symm

/-- A NUL-free text is what stands before the first of the zeros behind it. -/
theorem takeWhile_append_zeros {α : Type} [DecidableEq α] [OfNat α 0] {s : List α}
    (h : ∀ c ∈ s, c ≠ 0) (n : ℕ) : (s ++ List.replicate n 0).takeWhile (· ≠ 0) = s := by
  have hall : ∀ c ∈ s, decide (c ≠ 0) = true := fun c hc => decide_eq_true (h c hc)
  rw [List.takeWhile_append_of_pos hall]
  cases n with
  | zero => simp
  | succ n => simp [List.replicate_succ]

/-- **A name that fits the field survives the trip.** -/
theorem NameBuf.read_copy {s : WString} (h : NulFree s) (hlen : s.length < kMaxNameChars) :
    (NameBuf.copy s).read = s := by
  have hfull : (NameBuf.copy s).chars.take kMaxNameChars = (NameBuf.copy s).chars :=
    List.take_of_length_le (Nat.le_of_eq (NameBuf.copy s).length_eq)
  have hchars : (NameBuf.copy s).chars = s ++ List.replicate (kMaxNameChars - s.length) 0 := by
    show (s ++ List.replicate kMaxNameChars 0).take kMaxNameChars = _
    rw [List.take_append, List.take_of_length_le (Nat.le_of_lt hlen), List.take_replicate,
      Nat.min_eq_left (Nat.sub_le _ _)]
  rw [NameBuf.read, take_wcsnlen, hfull, hchars]
  exact takeWhile_append_zeros h _

theorem NulFree.take {s : WString} (h : NulFree s) (n : ℕ) : NulFree (s.take n) :=
  fun c hc => h c (List.mem_of_mem_take hc)

/-- A name is read back as far as its field holds it. -/
theorem read_copy_take {s : WString} (h : NulFree s) :
    (NameBuf.copy (s.take (kMaxNameChars - 1))).read = s.take (kMaxNameChars - 1) := by
  refine NameBuf.read_copy (h.take _) ?_
  rw [List.length_take]
  have hmax : kMaxNameChars = 256 := rfl
  omega

theorem take_wcsnlen_of_nulFree {s : WString} (h : NulFree s) (n : ℕ) :
    s.take (wcsnlen s n) = s.take n := by
  rw [take_wcsnlen, List.takeWhile_eq_self_iff]
  exact fun c hc => decide_eq_true (h.take n c hc)

/-! ### Payloads -/

structure HelloPayload where
  protocolVersion : ℕ
  pid : ℕ
  qpcFrequency : ℕ
  /-- QPC value at `ts_ns == 0`. -/
  qpcStart : ℕ
  exePath : NameBuf

structure CreatedPayload where
  id : ℕ
  sizeBytes : ℕ
  /-- Tracker id of the parent heap, 0 if not placed. -/
  parentHeapId : ℕ
  /-- Raw pointer of the parent heap, 0 if not placed. -/
  parentHeapPtr : ℕ
  /-- The interface pointer the app received from `Create*`. -/
  objectPtr : ℕ
  heapOffset : ℕ
  heapType : ℕ
  dimension : ℕ
  format : ℕ
  type : ObjectType
  alloc : AllocationKind
  frameCount : ℕ
  name : NameBuf
  /-- Top of stack first; only the first `frameCount` are meaningful. -/
  frames : List ℕ

structure RenamedPayload where
  id : ℕ
  name : NameBuf

structure DestroyedPayload where
  id : ℕ

structure GoodbyePayload where
  exitCode : ℕ

structure ModuleLoadedPayload where
  base : ℕ
  size : ℕ
  timestamp : ℕ
  pdbAge : ℕ
  /-- All zero if there is none. -/
  pdbGuid : Fin 16 → UInt8
  name : NameBuf
  pdbName : NameBuf

structure ModuleUnloadedPayload where
  base : ℕ

structure DiagnosticPayload where
  message : List UInt8
  length_eq : message.length = kMaxDiagnosticChars

structure ResidencyPriorityPayload where
  /-- 0 if the object is not tracked. -/
  id : ℕ
  objectPtr : ℕ
  priority : ℕ

/-- What a header and its payload are to `Model::OnEvent`.  `other` is an event
kind the launcher does not handle, or a payload shorter than its structure. -/
inductive Record
  | hello (p : HelloPayload)
  | created (p : CreatedPayload)
  | renamed (p : RenamedPayload)
  | destroyed (p : DestroyedPayload)
  | goodbye (p : GoodbyePayload)
  | other

/-! ### Names of enumerators -/

/-- `ResidencyPriorityName`. -/
def residencyPriorityName : ℕ → String
  | 0x28000000 => "Minimum"
  | 0x50000000 => "Low"
  | 0x78000000 => "Normal"
  | 0xa0010000 => "High"
  | 0xc8000000 => "Maximum"
  | _ => "Custom"

/-- The name that a `switch` has for a value. -/
def nameOf {α : Type} [DecidableEq α] (cases : List (α × String)) (default : String) (a : α) :
    String :=
  ((cases.find? fun x => x.1 = a).map Prod.snd).getD default

/-- `ObjectTypeName`. -/
def objectTypeName : ObjectType → String :=
  nameOf [(.device, "Device"), (.resource, "Resource"), (.heap, "Heap"),
    (.descriptorHeap, "DescriptorHeap"), (.commandQueue, "CommandQueue"),
    (.commandAllocator, "CommandAllocator"), (.commandList, "CommandList"),
    (.pipelineState, "PipelineState"), (.rootSignature, "RootSignature"), (.fence, "Fence"),
    (.queryHeap, "QueryHeap"), (.commandSignature, "CommandSignature")] "Unknown"

/-- `AllocationKindName`. -/
def allocationKindName : AllocationKind → String :=
  nameOf [(.committed, "Committed"), (.placed, "Placed"), (.reserved, "Reserved"), (.heap, "Heap")]
    "None"

/-- `HeapTypeName`, by `D3D12_HEAP_TYPE` value. -/
def heapTypeName : ℕ → String
  | 1 => "Default"
  | 2 => "Upload"
  | 3 => "Readback"
  | 4 => "Custom"
  | 5 => "GpuUpload"
  | _ => "None"

/-- `DimensionName`, by `D3D12_RESOURCE_DIMENSION` value. -/
def dimensionName : ℕ → String
  | 1 => "Buffer"
  | 2 => "Tex1D"
  | 3 => "Tex2D"
  | 4 => "Tex3D"
  | _ => "Unknown"

end Dx12Track
