import Dx12Track.Lib.Run
import Dx12Track.Lib.Table
import Dx12Track.EventTypes

/-!
# The tracker

The table of live COM objects that `src/dll/Tracker.cpp` keeps inside the target,
keyed by address, and the records its three operations send.  Addresses and ids
are natural numbers; `next_id_` is a 64-bit counter that no run exhausts.  The
patches of `Release` and `SetName` that `Register` makes in an object's vtable
touch neither the table nor the stream, and are left out.

* `ObjectInfo`, `Tracker` — the table and the id counter.
* `emitCreated`, `emitRenamed`, `emitDestroyed` — the records.
* `register`, `onSetName`, `onReleaseToZero` — the operations; `takeId`, `put`
  and `take` are their locked sections.
* `Call`, `step`, `traced` — sequential runs, with the stream they send.
-/

namespace Dx12Track

/-- `struct ObjectInfo`. -/
structure ObjectInfo where
  id : ℕ := 0
  type : ObjectType := .unknown
  alloc : AllocationKind := .none
  heapType : ℕ := 0
  dimension : ℕ := 0
  format : ℕ := 0
  sizeBytes : ℕ := 0
  parentHeapId : ℕ := 0
  /-- Raw pointer of the parent heap, for placed resources. -/
  parentHeapPtr : ℕ := 0
  heapOffset : ℕ := 0
  /-- The pointer the app got from `Create*`, set by `Register`. -/
  objectPtr : ℕ := 0
  name : WString := []
  frameCount : ℕ := 0
  frames : List ℕ := []
  deriving DecidableEq

/-- The members of `class Tracker`, but for the vtable patches. -/
structure Tracker where
  nextId : ℕ := 1
  objects : Table ℕ ObjectInfo := ∅

namespace Tracker

/-! ### The records -/

/-- `EmitCreated`: the name is cut to fit its field, with its terminator. -/
def emitCreated (info : ObjectInfo) : Record :=
  .created
    { id := info.id
      sizeBytes := info.sizeBytes
      parentHeapId := info.parentHeapId
      parentHeapPtr := info.parentHeapPtr
      objectPtr := info.objectPtr
      heapOffset := info.heapOffset
      heapType := info.heapType
      dimension := info.dimension
      format := info.format
      type := info.type
      alloc := info.alloc
      name := NameBuf.copy (info.name.take (kMaxNameChars - 1))
      frameCount := info.frameCount
      frames := info.frames.take info.frameCount
        ++ List.replicate (kMaxCallstackFrames - info.frameCount) 0 }

/-- `EmitRenamed`. -/
def emitRenamed (id : ℕ) (name : WString) : Record :=
  .renamed { id := id, name := NameBuf.copy (name.take (wcsnlen name (kMaxNameChars - 1))) }

/-- `EmitDestroyed`. -/
def emitDestroyed (id : ℕ) : Record := .destroyed ⟨id⟩

/-! ### Locked sections -/

/-- `next_id_.fetch_add(1)`; the id taken is `t.nextId`. -/
def takeId (t : Tracker) : Tracker := { t with nextId := t.nextId + 1 }

/-- `objects_[obj] = info`. -/
def put (t : Tracker) (obj : ℕ) (info : ObjectInfo) : Tracker :=
  { t with objects := t.objects.insert obj info }

/-- The entry of `obj` is removed, and its id returned. -/
def take (t : Tracker) (obj : ℕ) : Option (ℕ × Tracker) :=
  (t.objects.lookup obj).map fun info => (info.id, { t with objects := t.objects.erase obj })

/-! ### Operations -/

/-- What `Register` stores for an object that it gives the number `id`. -/
def stamp (info : ObjectInfo) (obj id : ℕ) : ObjectInfo := { info with id := id, objectPtr := obj }

/-- `Tracker::Register`, with the id it returns and the records it sends. -/
def register (t : Tracker) (obj : ℕ) (info : ObjectInfo) : Tracker × ℕ × List Record :=
  if obj = 0 then (t, 0, [])
  else
    let info := stamp info obj t.nextId
    (t.takeId.put obj info, info.id, [emitCreated info])

/-- `Tracker::LookupId`. -/
def lookupId (t : Tracker) (obj : ℕ) : ℕ :=
  match t.objects.lookup obj with
  | none => 0
  | some info => info.id

/-- `Tracker::OnReleaseToZero`. -/
def onReleaseToZero (t : Tracker) (obj : ℕ) : Tracker × List Record :=
  match t.take obj with
  | none => (t, [])
  | some (id, t) => (t, [emitDestroyed id])

/-- `Tracker::OnSetName`; `none` is a null pointer. -/
def onSetName (t : Tracker) (obj : ℕ) (name : Option CWString) : Tracker × List Record :=
  let incoming : WString := (name.map Subtype.val).getD []
  match t.objects.lookup obj with
  | none => (t, [])
  | some info =>
    -- `SetName` forwards to `SetPrivateData`, which comes here again
    if info.name = incoming then (t, [])
    else (t.put obj { info with name := incoming }, [emitRenamed info.id incoming])

/-! ### Sequential runs -/

/-- A call of one of the three operations. -/
inductive Call
  | register (obj : ℕ) (info : ObjectInfo)
  | setName (obj : ℕ) (name : Option CWString)
  | releaseToZero (obj : ℕ)

/-- One call: the tracker after it, and the records it sends. -/
def step (t : Tracker) : Call → Tracker × List Record
  | .register obj info => ((t.register obj info).1, (t.register obj info).2.2)
  | .setName obj name => t.onSetName obj name
  | .releaseToZero obj => t.onReleaseToZero obj

/-- A tracker with the stream it has sent so far. -/
abbrev Traced := Tracker × List Record

def tracedStep (s : Traced) (x : Call) : Traced := ((s.1.step x).1, s.2 ++ (s.1.step x).2)

/-- A run from the start of the DLL. -/
def traced (xs : List Call) : Traced := Machine.run tracedStep ({}, []) xs

theorem traced_concat (xs : List Call) (x : Call) :
    traced (xs ++ [x]) = tracedStep (traced xs) x := Machine.run_concat tracedStep ({}, []) xs x

/-- What a call can do: nothing, or one change of the table with one record. -/
inductive Effect (t : Tracker) : Call → Tracker × List Record → Prop
  | idle (x : Call) (hx : ∀ obj info, x = .register obj info → obj = 0) : Effect t x (t, [])
  | registered (obj : ℕ) (info : ObjectInfo) (hobj : obj ≠ 0) :
      Effect t (.register obj info)
        (t.takeId.put obj (stamp info obj t.nextId), [emitCreated (stamp info obj t.nextId)])
  | renamed (obj : ℕ) (name : Option CWString) (info : ObjectInfo)
      (hinfo : t.objects.lookup obj = some info) :
      Effect t (.setName obj name)
        (t.put obj { info with name := (name.map Subtype.val).getD [] },
          [emitRenamed info.id ((name.map Subtype.val).getD [])])
  | destroyed (obj : ℕ) (info : ObjectInfo) (hinfo : t.objects.lookup obj = some info) :
      Effect t (.releaseToZero obj)
        ({ t with objects := t.objects.erase obj }, [emitDestroyed info.id])

theorem step_effect (t : Tracker) (x : Call) : Effect t x (t.step x) := by
  cases x with
  | register obj info =>
    simp only [step, register]
    by_cases hobj : obj = 0
    · simp only [hobj, if_true]
      refine .idle _ fun obj' info' h => ?_
      cases h
      rfl
    · simp only [hobj, if_false]
      exact .registered obj info hobj
  | setName obj name =>
    simp only [step, onSetName]
    cases hinfo : t.objects.lookup obj with
    | none => exact .idle _ fun _ _ h => by cases h
    | some info =>
      dsimp only
      split
      · exact .idle _ fun _ _ h => by cases h
      · exact .renamed obj name info hinfo
  | releaseToZero obj =>
    simp only [step, onReleaseToZero, take]
    cases hinfo : t.objects.lookup obj with
    | none => exact .idle _ fun _ _ h => by cases h
    | some info => exact .destroyed obj info hinfo

end Tracker

end Dx12Track
