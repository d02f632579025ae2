import Dx12Track.Lib.Packed
import Dx12Track.Pipe.Payload
import Dx12Track.Dll.JsonLog

/-!
# The memory of a payload

The DLL hands `Send` the memory of a structure of `src/common/EventTypes.h`, and the
launcher casts the bytes behind a header to the structure that the header names.
Both are compiled from the one header file; here the structure is written down once
more, as the members that the DLL writes, and compared with the members that the
launcher reads.

* `HelloPayload.members` … `ResidencyPriorityPayload.members` — the structures.
* `LogRecord.memory` — what a `Send` is handed.
* `LogRecord.record` — what the launcher is told of it.
* `ofPayload_memory` — **the cast gives back what was sent**.
-/

namespace Dx12Track

/-! ### The structures -/

/-- A `wchar_t[kMaxNameChars]`. -/
def NameBuf.values (b : NameBuf) : List ℕ := b.chars.map UInt16.toNat

def HelloPayload.members (p : HelloPayload) : Packed :=
  [(4, p.protocolVersion), (4, p.pid), (8, p.qpcFrequency), (8, p.qpcStart)] ++
    Packed.array 2 p.exePath.values

/-- What stands before the two arrays; the padding byte is zero. -/
def CreatedPayload.scalars (p : CreatedPayload) : Packed :=
  [(8, p.id), (8, p.sizeBytes), (8, p.parentHeapId), (8, p.parentHeapPtr), (8, p.objectPtr),
    (8, p.heapOffset), (4, p.heapType), (4, p.dimension), (4, p.format), (1, p.type.index),
    (1, p.alloc.index), (1, p.frameCount), (1, 0)]

def CreatedPayload.members (p : CreatedPayload) : Packed :=
  p.scalars ++ (Packed.array 2 p.name.values ++ Packed.array 8 p.frames)

def RenamedPayload.members (p : RenamedPayload) : Packed :=
  [(8, p.id)] ++ Packed.array 2 p.name.values

def DestroyedPayload.members (p : DestroyedPayload) : Packed := [(8, p.id)]

def GoodbyePayload.members (p : GoodbyePayload) : Packed := [(4, p.exitCode)]

def ModuleLoadedPayload.members (p : ModuleLoadedPayload) : Packed :=
  [(8, p.base), (8, p.size), (4, p.timestamp), (4, p.pdbAge)] ++
    (Packed.array 1 ((List.finRange 16).map fun i => (p.pdbGuid i).toNat) ++
      (Packed.array 2 p.name.values ++ Packed.array 2 p.pdbName.values))

def ModuleUnloadedPayload.members (p : ModuleUnloadedPayload) : Packed := [(8, p.base)]

def DiagnosticPayload.members (p : DiagnosticPayload) : Packed :=
  Packed.array 1 (p.message.map UInt8.toNat)

/-- The padding is zero. -/
def ResidencyPriorityPayload.members (p : ResidencyPriorityPayload) : Packed :=
  [(8, p.id), (8, p.objectPtr), (4, p.priority), (4, 0)]

namespace LogRecord

def members : LogRecord → Packed
  | .hello (some p) => p.members
  | .created (some p) => p.members
  | .renamed (some p) => p.members
  | .destroyed (some p) => p.members
  | .goodbye (some p) => p.members
  | .moduleLoaded (some p) => p.members
  | .moduleUnloaded (some p) => p.members
  | .diagnostic (some p) => p.members
  | .residencyPriority (some p) => p.members
  | _ => []

/-- The bytes at `payload`. -/
def memory (r : LogRecord) : List UInt8 := r.members.bytes

/-- The values are in the ranges of their C types, and the array of frames is full. -/
def Fits (r : LogRecord) : Prop :=
  r.members.Fits ∧
    match r with
    | .created (some p) => p.frames.length = kMaxCallstackFrames
    | _ => True

/-- What the launcher is told: it does not look at modules, diagnostics and priorities. -/
def record : LogRecord → Record
  | .hello (some p) => .hello p
  | .created (some p) => .created p
  | .renamed (some p) => .renamed p
  | .destroyed (some p) => .destroyed p
  | .goodbye (some p) => .goodbye p
  | _ => .other

end LogRecord

/-- The payload of a record. -/
def Record.payload : Record → LogRecord
  | .hello p => .hello (some p)
  | .created p => .created (some p)
  | .renamed p => .renamed (some p)
  | .destroyed p => .destroyed (some p)
  | .goodbye p => .goodbye (some p)
  | .other => .diagnostic none

theorem record_payload (r : Record) : r.payload.record = r := by cases r <;> rfl

/-! ### The sizes -/

theorem NameBuf.length_values (b : NameBuf) : b.values.length = kMaxNameChars := by
  rw [values, List.length_map, b.length_eq]

theorem NameBuf.values_lt (b : NameBuf) : ∀ v ∈ b.values, v < 256 ^ 2 := by
  intro v hv
  obtain ⟨c, -, rfl⟩ := List.mem_map.mp hv
  exact c.toNat_lt

theorem fits_name (b : NameBuf) : Packed.Fits (Packed.array 2 b.values) :=
  Packed.fits_array.mpr b.values_lt

theorem fits_created {p : CreatedPayload} :
    p.members.Fits ↔ p.scalars.Fits ∧ ∀ v ∈ p.frames, v < 256 ^ 8 := by
  rw [CreatedPayload.members, Packed.fits_append, Packed.fits_append, Packed.fits_array,
    and_iff_right p.name.values_lt, Packed.fits_array]

theorem fits_renamed {p : RenamedPayload} : p.members.Fits ↔ p.id < 256 ^ 8 := by
  rw [RenamedPayload.members, Packed.fits_append, and_iff_left (fits_name p.name)]
  simp [Packed.Fits]

theorem size_name (b : NameBuf) : (Packed.array 2 b.values).size = 512 := by
  rw [Packed.size_array, b.length_values]
  rfl

theorem length_hello (p : HelloPayload) : p.members.bytes.length = Payload.helloBytes := by
  rw [Packed.length_bytes, HelloPayload.members, Packed.size_append, size_name]
  rfl

theorem length_created {p : CreatedPayload} (h : p.frames.length = kMaxCallstackFrames) :
    p.members.bytes.length = Payload.createdBytes := by
  rw [Packed.length_bytes, CreatedPayload.members, Packed.size_append, Packed.size_append,
    size_name, Packed.size_array, h]
  rfl

theorem length_renamed (p : RenamedPayload) : p.members.bytes.length = Payload.renamedBytes := by
  rw [Packed.length_bytes, RenamedPayload.members, Packed.size_append, size_name]
  rfl

theorem length_destroyed (p : DestroyedPayload) :
    p.members.bytes.length = Payload.destroyedBytes := by
  rw [Packed.length_bytes]
  rfl

theorem length_goodbye (p : GoodbyePayload) : p.members.bytes.length = Payload.goodbyeBytes := by
  rw [Packed.length_bytes]
  rfl

theorem length_moduleLoaded (p : ModuleLoadedPayload) : p.members.bytes.length = 1064 := by
  rw [Packed.length_bytes, ModuleLoadedPayload.members, Packed.size_append, Packed.size_append,
    Packed.size_append, size_name, size_name, Packed.size_array]
  simp [Packed.size]

theorem length_diagnostic (p : DiagnosticPayload) :
    p.members.bytes.length = kMaxDiagnosticChars := by
  rw [Packed.length_bytes, DiagnosticPayload.members, Packed.size_array, List.length_map,
    p.length_eq]
  rfl

/-- Every structure is far below 4 GiB. -/
theorem length_memory_lt {r : LogRecord} (h : r.Fits) : r.memory.length < 2 ^ 32 := by
  have hempty : (Packed.bytes []).length < 2 ^ 32 := by decide
  cases r with
  | hello p =>
    cases p with
    | none => exact hempty
    | some p => exact (length_hello p).trans_lt (by decide)
  | created p =>
    cases p with
    | none => exact hempty
    | some p => exact (length_created h.2).trans_lt (by decide)
  | renamed p =>
    cases p with
    | none => exact hempty
    | some p => exact (length_renamed p).trans_lt (by decide)
  | destroyed p =>
    cases p with
    | none => exact hempty
    | some p => exact (length_destroyed p).trans_lt (by decide)
  | goodbye p =>
    cases p with
    | none => exact hempty
    | some p => exact (length_goodbye p).trans_lt (by decide)
  | moduleLoaded p =>
    cases p with
    | none => exact hempty
    | some p => exact (length_moduleLoaded p).trans_lt (by decide)
  | moduleUnloaded p =>
    cases p with
    | none => exact hempty
    | some p =>
      have hlen : p.members.bytes.length = 8 := Packed.length_bytes p.members
      exact hlen.trans_lt (by decide)
  | residencyPriority p =>
    cases p with
    | none => exact hempty
    | some p =>
      have hlen : p.members.bytes.length = 24 := Packed.length_bytes p.members
      exact hlen.trans_lt (by decide)
  | diagnostic p =>
    cases p with
    | none => exact hempty
    | some p => exact (length_diagnostic p).trans_lt (by decide)

/-! ### The casts -/

/-- A member is read back where it stands. -/
theorem field_memory {ms : Packed} (h : ms.Fits) (i : ℕ) {width v off : ℕ}
    (hi : ms[i]? = some (width, v)) (hoff : Packed.size (ms.take i) = off) :
    Payload.field ms.bytes off width = v := by
  rw [← hoff]
  exact Packed.read_cell h hi

theorem NameBuf.eq_of_chars {a b : NameBuf} (h : a.chars = b.chars) : a = b := by
  cases a
  cases b
  cases h
  rfl

/-- A name is read back where it stands. -/
theorem name_memory (b : NameBuf) (ms : Packed) (bs : List UInt8) {off : ℕ}
    (hoff : off = ms.size) :
    Payload.name (ms.bytes ++ ((Packed.array 2 b.values).bytes ++ bs)) off = b := by
  have hread := Packed.read_array b.values_lt ms bs hoff
  rw [b.length_values] at hread
  have hchars : b.values.map UInt16.ofNat = b.chars := by
    rw [NameBuf.values, List.map_map]
    simp [Function.comp_def]
  rw [← hread, List.map_map] at hchars
  exact NameBuf.eq_of_chars hchars

theorem hello_memory {p : HelloPayload} (h : p.members.Fits) :
    Payload.hello p.members.bytes = p := by
  have hversion : Payload.field p.members.bytes 0 4 = p.protocolVersion :=
    field_memory h 0 rfl rfl
  have hpid : Payload.field p.members.bytes 4 4 = p.pid := field_memory h 1 rfl rfl
  have hfreq : Payload.field p.members.bytes 8 8 = p.qpcFrequency := field_memory h 2 rfl rfl
  have hstart : Payload.field p.members.bytes 16 8 = p.qpcStart := field_memory h 3 rfl rfl
  have hname : Payload.name p.members.bytes 24 = p.exePath := by
    have hname := name_memory p.exePath
      [(4, p.protocolVersion), (4, p.pid), (8, p.qpcFrequency), (8, p.qpcStart)] []
      (show 24 = _ from rfl)
    rw [List.append_nil, ← Packed.bytes_append] at hname
    exact hname
  rw [Payload.hello, hversion, hpid, hfreq, hstart, hname]

theorem created_memory {p : CreatedPayload} (h : p.members.Fits)
    (hframes : p.frames.length = kMaxCallstackFrames) : Payload.created p.members.bytes = p := by
  have hid : Payload.field p.members.bytes 0 8 = p.id := field_memory h 0 rfl rfl
  have hsize : Payload.field p.members.bytes 8 8 = p.sizeBytes := field_memory h 1 rfl rfl
  have hheap : Payload.field p.members.bytes 16 8 = p.parentHeapId := field_memory h 2 rfl rfl
  have hheapPtr : Payload.field p.members.bytes 24 8 = p.parentHeapPtr := field_memory h 3 rfl rfl
  have hptr : Payload.field p.members.bytes 32 8 = p.objectPtr := field_memory h 4 rfl rfl
  have hoff : Payload.field p.members.bytes 40 8 = p.heapOffset := field_memory h 5 rfl rfl
  have hheapType : Payload.field p.members.bytes 48 4 = p.heapType := field_memory h 6 rfl rfl
  have hdim : Payload.field p.members.bytes 52 4 = p.dimension := field_memory h 7 rfl rfl
  have hformat : Payload.field p.members.bytes 56 4 = p.format := field_memory h 8 rfl rfl
  have htype : Payload.createdType p.members.bytes = p.type.index := field_memory h 9 rfl rfl
  have halloc : Payload.createdAlloc p.members.bytes = p.alloc.index := field_memory h 10 rfl rfl
  have hcount : Payload.field p.members.bytes 62 1 = p.frameCount := field_memory h 11 rfl rfl
  have hscalars : p.scalars.size = 64 := rfl
  have hname : Payload.name p.members.bytes 64 = p.name := by
    rw [CreatedPayload.members, Packed.bytes_append, Packed.bytes_append]
    exact name_memory p.name p.scalars _ hscalars.symm
  have harray : ((List.range kMaxCallstackFrames).map fun i =>
      Payload.field p.members.bytes (576 + 8 * i) 8) = p.frames := by
    have hread := Packed.read_array (fits_created.mp h).2
      (p.scalars ++ Packed.array 2 p.name.values) []
      (show 576 = _ by rw [Packed.size_append, hscalars, size_name])
    rw [List.append_nil, ← Packed.bytes_append, List.append_assoc, hframes] at hread
    exact hread
  rw [Payload.created, hid, hsize, hheap, hheapPtr, hptr, hoff, hheapType, hdim, hformat, htype,
    halloc, hcount, hname, harray]
  have htypeByte : (⟨UInt8.ofNat p.type.index⟩ : ObjectType) = p.type :=
    congrArg ObjectType.mk (UInt8.ofNat_toNat ..)
  have hallocByte : (⟨UInt8.ofNat p.alloc.index⟩ : AllocationKind) = p.alloc :=
    congrArg AllocationKind.mk (UInt8.ofNat_toNat ..)
  rw [htypeByte, hallocByte]

theorem renamed_memory {p : RenamedPayload} (h : p.members.Fits) :
    Payload.renamed p.members.bytes = p := by
  have hid : Payload.field p.members.bytes 0 8 = p.id := field_memory h 0 rfl rfl
  have hname : Payload.name p.members.bytes 8 = p.name := by
    have hname := name_memory p.name [(8, p.id)] [] (show 8 = _ from rfl)
    rw [List.append_nil, ← Packed.bytes_append] at hname
    exact hname
  rw [Payload.renamed, hid, hname]

theorem destroyed_memory {p : DestroyedPayload} (h : p.members.Fits) :
    Payload.destroyed p.members.bytes = p := by
  have hid : Payload.field p.members.bytes 0 8 = p.id := field_memory h 0 rfl rfl
  rw [Payload.destroyed, hid]

theorem goodbye_memory {p : GoodbyePayload} (h : p.members.Fits) :
    Payload.goodbye p.members.bytes = p := by
  have hcode : Payload.field p.members.bytes 0 4 = p.exitCode := field_memory h 0 rfl rfl
  rw [Payload.goodbye, hcode]

/-- **The cast gives back what was sent**, for every kind of record: the five kinds that the
launcher knows are read as they were written, and the others are left alone. -/
theorem ofPayload_memory {r : LogRecord} (h : r.Fits) :
    Record.ofPayload r.kind.raw r.memory = r.record := by
  obtain ⟨hfits, hframes⟩ := h
  cases r with
  | hello p =>
    cases p with
    | none => rfl
    | some p =>
      show Record.ofPayload (EventKind.raw .hello) p.members.bytes = .hello p
      have hlen : ¬p.members.bytes.length < Payload.helloBytes := by
        rw [length_hello]
        exact Nat.lt_irrefl _
      rw [Record.ofPayload, if_pos rfl, if_neg hlen, hello_memory hfits]
  | created p =>
    cases p with
    | none => rfl
    | some p =>
      refine (Record.ofPayload_created_iff _ _ p).mpr ⟨rfl, ?_, created_memory hfits hframes⟩
      exact Nat.le_of_eq (length_created hframes).symm
  | renamed p =>
    cases p with
    | none => rfl
    | some p =>
      show Record.ofPayload (EventKind.raw .renamed) p.members.bytes = .renamed p
      have hlen : ¬p.members.bytes.length < Payload.renamedBytes := by
        rw [length_renamed]
        exact Nat.lt_irrefl _
      rw [Record.ofPayload, if_neg (by decide), if_neg (by decide), if_pos rfl, if_neg hlen,
        renamed_memory hfits]
  | destroyed p =>
    cases p with
    | none => rfl
    | some p =>
      show Record.ofPayload (EventKind.raw .destroyed) p.members.bytes = .destroyed p
      have hlen : ¬p.members.bytes.length < Payload.destroyedBytes := by
        rw [length_destroyed]
        exact Nat.lt_irrefl _
      rw [Record.ofPayload, if_neg (by decide), if_neg (by decide), if_neg (by decide), if_pos rfl,
        if_neg hlen, destroyed_memory hfits]
  | goodbye p =>
    cases p with
    | none => rfl
    | some p =>
      show Record.ofPayload (EventKind.raw .goodbye) p.members.bytes = .goodbye p
      have hlen : ¬p.members.bytes.length < Payload.goodbyeBytes := by
        rw [length_goodbye]
        exact Nat.lt_irrefl _
      rw [Record.ofPayload, if_neg (by decide), if_neg (by decide), if_neg (by decide),
        if_neg (by decide), if_pos rfl, if_neg hlen, goodbye_memory hfits]
  | moduleLoaded p => cases p <;> rfl
  | moduleUnloaded p => cases p <;> rfl
  | residencyPriority p => cases p <;> rfl
  | diagnostic p => cases p <;> rfl

end Dx12Track
