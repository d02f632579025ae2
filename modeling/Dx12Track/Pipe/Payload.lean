import Dx12Track.EventTypes
import Dx12Track.Pipe.Message

/-!
# Payloads on the pipe

`Model::OnEvent` casts the bytes behind a header to the structure that the kind of the
header names, if there are as many bytes as the structure has.  The structures are
packed; a byte of an enumeration is taken as it is.

* `Payload.field` — a member, by its offset and width.
* `Payload.hello` … `Payload.goodbye` — the casts.
* `Record.ofPayload` — what a header kind and a payload are to `OnEvent`.
-/

namespace Dx12Track

/-- `static_cast<uint8_t>(kind)`. -/
def EventKind.raw : EventKind → UInt8
  | hello => 1
  | created => 2
  | renamed => 3
  | destroyed => 4
  | goodbye => 5
  | moduleLoaded => 6
  | moduleUnloaded => 7
  | diagnostic => 8
  | residencyPriority => 9

namespace Payload

variable (bs : List UInt8)

/-- The member of `width` bytes at `off`. -/
def field (off width : ℕ) : ℕ := Bytes.ofLE ((bs.drop off).take width)

/-- A `wchar_t[kMaxNameChars]` at `off`. -/
def name (off : ℕ) : NameBuf where
  chars := (List.range kMaxNameChars).map fun i => UInt16.ofNat (field bs (off + 2 * i) 2)
  length_eq := by rw [List.length_map, List.length_range]

/-- `sizeof` of the structures. -/
def helloBytes : ℕ := 536
def createdBytes : ℕ := 832
def renamedBytes : ℕ := 520
def destroyedBytes : ℕ := 8
def goodbyeBytes : ℕ := 4

def hello : HelloPayload where
  protocolVersion := field bs 0 4
  pid := field bs 4 4
  qpcFrequency := field bs 8 8
  qpcStart := field bs 16 8
  exePath := name bs 24

/-- The byte of `type` in a `CreatedPayload`. -/
def createdType : ℕ := field bs 60 1

/-- The byte of `alloc`. -/
def createdAlloc : ℕ := field bs 61 1

def created : CreatedPayload where
  id := field bs 0 8
  sizeBytes := field bs 8 8
  parentHeapId := field bs 16 8
  parentHeapPtr := field bs 24 8
  objectPtr := field bs 32 8
  heapOffset := field bs 40 8
  heapType := field bs 48 4
  dimension := field bs 52 4
  format := field bs 56 4
  type := ⟨UInt8.ofNat (createdType bs)⟩
  alloc := ⟨UInt8.ofNat (createdAlloc bs)⟩
  frameCount := field bs 62 1
  name := name bs 64
  frames := (List.range kMaxCallstackFrames).map fun i => field bs (576 + 8 * i) 8

def renamed : RenamedPayload where
  id := field bs 0 8
  name := name bs 8

def destroyed : DestroyedPayload where
  id := field bs 0 8

def goodbye : GoodbyePayload where
  exitCode := field bs 0 4

theorem field_one_lt (off : ℕ) : field bs off 1 < 256 := by
  unfold field
  rcases bs.drop off with _ | ⟨b, rest⟩
  · decide
  · have hb : b.toNat < 256 := b.toNat_lt
    show b.toNat + 256 * Bytes.ofLE (rest.take 0) < 256
    rw [List.take_zero, Bytes.ofLE]
    omega

theorem index_createdType : (created bs).type.index = createdType bs :=
  UInt8.toNat_ofNat_of_lt' (field_one_lt bs 60)

theorem index_createdAlloc : (created bs).alloc.index = createdAlloc bs :=
  UInt8.toNat_ofNat_of_lt' (field_one_lt bs 61)

end Payload

/-- What a payload with the header kind `kind` is to `Model::OnEvent`. -/
def Record.ofPayload (kind : UInt8) (bs : List UInt8) : Record :=
  if kind = EventKind.raw .hello then
    if bs.length < Payload.helloBytes then .other else .hello (Payload.hello bs)
  else if kind = EventKind.raw .created then
    if bs.length < Payload.createdBytes then .other else .created (Payload.created bs)
  else if kind = EventKind.raw .renamed then
    if bs.length < Payload.renamedBytes then .other else .renamed (Payload.renamed bs)
  else if kind = EventKind.raw .destroyed then
    if bs.length < Payload.destroyedBytes then .other else .destroyed (Payload.destroyed bs)
  else if kind = EventKind.raw .goodbye then
    if bs.length < Payload.goodbyeBytes then .other else .goodbye (Payload.goodbye bs)
  else .other

/-- A record is a `created` one exactly if its kind is and it is not too short. -/
theorem Record.ofPayload_created_iff (kind : UInt8) (bs : List UInt8) (p : CreatedPayload) :
    Record.ofPayload kind bs = .created p ↔
      kind = EventKind.raw .created ∧ Payload.createdBytes ≤ bs.length ∧
        Payload.created bs = p := by
  constructor
  · intro h
    unfold Record.ofPayload at h
    split_ifs at h with h₁ hl h₂ hl
    exact ⟨h₂, Nat.not_lt.mp hl, Record.created.inj h⟩
  · rintro ⟨rfl, hl, rfl⟩
    unfold Record.ofPayload
    rw [if_neg (by decide), if_pos rfl, if_neg (Nat.not_lt.mpr hl)]

end Dx12Track
