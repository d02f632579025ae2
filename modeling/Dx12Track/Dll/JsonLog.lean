import Mathlib.Data.Fintype.Basic
import Mathlib.Tactic.FinCases
import Dx12Track.Dll.JsonString

/-!
# The lines of the JSON log

`JsonLog::Append` writes a record as one JSON object on a line of its own, by
putting the pieces of the text one after the other.

* `LogRecord` — an event kind and its payload.
* `line`, `JsonLog.append` — **the source's words** for a record.
* `Entry`, `LogRecord.entry` — what `FORMAT.md` lists for it.
* `LogRecord.fields` — the members of the object.
* `line_eq` — the line is the object of the fields, in UTF-8.
* `readLine` — a reader of the format.
* `line_lossless` — **it reads from the line what was to be recorded**.
-/

namespace Dx12Track

open Json Digits

/-! ### Records -/

/-- An `EventKind` and the payload behind it; `none` is a payload shorter than its structure. -/
inductive LogRecord
  | hello (p : Option HelloPayload)
  | created (p : Option CreatedPayload)
  | renamed (p : Option RenamedPayload)
  | destroyed (p : Option DestroyedPayload)
  | goodbye (p : Option GoodbyePayload)
  | moduleLoaded (p : Option ModuleLoadedPayload)
  | moduleUnloaded (p : Option ModuleUnloadedPayload)
  | residencyPriority (p : Option ResidencyPriorityPayload)
  | diagnostic (p : Option DiagnosticPayload)

/-! ### `JsonLog::Append` -/

/-- `AppendU64`. -/
def appendU64 (out : List UInt8) (v : ℕ) : List UInt8 := out ++ Utf8.encode (Nat.toDigits 10 v)

/-- `AppendKey`. -/
def appendKey (out : List UInt8) (k : String) : List UInt8 :=
  out ++ ascii "\"" ++ ascii k ++ ascii "\":"

def commaKvU64 (k : String) (v : ℕ) (out : List UInt8) : List UInt8 :=
  appendU64 (appendKey (out ++ ascii ",") k) v

def commaKvStr (k v : String) (out : List UInt8) : List UInt8 :=
  appendKey (out ++ ascii ",") k ++ ascii "\"" ++ ascii v ++ ascii "\""

/-- `sprintf(hex, "\"0x%llx\"", v)`. -/
def hexLiteral (v : ℕ) : List UInt8 :=
  ascii "\"0x" ++ Utf8.encode (Nat.toDigits 16 v) ++ ascii "\""

/-- A key and an address. -/
def commaKvHex (k : String) (v : ℕ) (out : List UInt8) : List UInt8 :=
  appendKey (out ++ ascii ",") k ++ hexLiteral v

/-- A key and a name. -/
def commaKvName (toUtf8 : ToUtf8) (k : String) (b : NameBuf) (out : List UInt8) : List UInt8 :=
  appendJsonString toUtf8 (appendKey (out ++ ascii ",") k) b.chars kMaxNameChars

/-- The loop over `p->frames`. -/
def appendFrames (out : List UInt8) : List ℕ → List UInt8
  | [] => out
  | f :: fs => fs.foldl (fun out f => out ++ ascii "," ++ hexLiteral f) (out ++ hexLiteral f)

/-- `%02x`. -/
def hex2 (b : UInt8) : List UInt8 := Utf8.encode (hexPad 2 b.toNat)

/-- The PDB GUID: its first three parts are little-endian. -/
def appendGuid (g : Fin 16 → UInt8) (out : List UInt8) : List UInt8 :=
  out ++ ascii "\"" ++ hex2 (g 3) ++ hex2 (g 2) ++ hex2 (g 1) ++ hex2 (g 0) ++ ascii "-" ++
    hex2 (g 5) ++ hex2 (g 4) ++ ascii "-" ++ hex2 (g 7) ++ hex2 (g 6) ++ ascii "-" ++
    hex2 (g 8) ++ hex2 (g 9) ++ ascii "-" ++ hex2 (g 10) ++ hex2 (g 11) ++ hex2 (g 12) ++
    hex2 (g 13) ++ hex2 (g 14) ++ hex2 (g 15) ++ ascii "\""

/-- What the loop over `p->message` writes for a byte. -/
def escapedByte (b : UInt8) : List UInt8 :=
  if b = 0x5C then ascii "\\\\"
  else if b = 0x22 then ascii "\\\""
  else if b = 0x0A then ascii "\\n"
  else if b = 0x0D then ascii "\\r"
  else if b = 0x09 then ascii "\\t"
  else if b < 0x20 then ascii "\\u" ++ Utf8.encode (hexPad 4 b.toNat)
  else [b]

/-- The message: what stands before its NUL. -/
def DiagnosticPayload.bytes (p : DiagnosticPayload) : List UInt8 :=
  (p.message.take kMaxDiagnosticChars).takeWhile (· ≠ 0)

/-- What follows `ts_ns`. -/
def appendPayload (toUtf8 : ToUtf8) (out : List UInt8) : LogRecord → List UInt8
  | .hello (some p) =>
    out |> commaKvU64 "pid" p.pid |> commaKvU64 "protocol" p.protocolVersion
      |> commaKvU64 "qpc_freq" p.qpcFrequency |> commaKvU64 "qpc_start" p.qpcStart
      |> commaKvName toUtf8 "exe" p.exePath
  | .created (some p) =>
    let out := out |> commaKvU64 "id" p.id |> commaKvHex "ptr" p.objectPtr
      |> commaKvStr "type" (objectTypeName p.type)
      |> commaKvStr "alloc" (allocationKindName p.alloc)
      |> commaKvStr "heap" (heapTypeName p.heapType) |> commaKvStr "dim" (dimensionName p.dimension)
      |> commaKvU64 "format" p.format |> commaKvU64 "size" p.sizeBytes
      |> commaKvU64 "parent_heap_id" p.parentHeapId
    let out := if p.parentHeapPtr ≠ 0 then commaKvHex "parent_heap_ptr" p.parentHeapPtr out else out
    let out := if p.alloc = .placed then commaKvU64 "heap_offset" p.heapOffset out else out
    let out := commaKvName toUtf8 "name" p.name out
    if p.frameCount ≠ 0 then
      let n := min p.frameCount kMaxCallstackFrames
      appendFrames (appendKey (out ++ ascii ",") "stack" ++ ascii "[") (p.frames.take n) ++
        ascii "]"
    else out
  | .renamed (some p) => out |> commaKvU64 "id" p.id |> commaKvName toUtf8 "name" p.name
  | .destroyed (some p) => commaKvU64 "id" p.id out
  | .goodbye (some p) => commaKvU64 "exit_code" p.exitCode out
  | .moduleLoaded (some p) =>
    let out := out |> commaKvHex "base" p.base |> commaKvU64 "size" p.size
      |> commaKvU64 "timestamp" p.timestamp |> commaKvU64 "pdb_age" p.pdbAge
    let out := appendGuid p.pdbGuid (appendKey (out ++ ascii ",") "pdb_guid")
    out |> commaKvName toUtf8 "name" p.name |> commaKvName toUtf8 "pdb_name" p.pdbName
  | .moduleUnloaded (some p) => commaKvHex "base" p.base out
  | .residencyPriority (some p) =>
    out |> commaKvU64 "id" p.id |> commaKvHex "object_ptr" p.objectPtr
      |> commaKvU64 "priority" p.priority
      |> commaKvStr "priority_name" (residencyPriorityName p.priority)
  | .diagnostic (some p) =>
    appendKey (out ++ ascii ",") "msg" ++ ascii "\"" ++ p.bytes.flatMap escapedByte ++ ascii "\""
  | _ => out

/-- The kind of a record. -/
def LogRecord.kind : LogRecord → EventKind
  | .hello _ => .hello
  | .created _ => .created
  | .renamed _ => .renamed
  | .destroyed _ => .destroyed
  | .goodbye _ => .goodbye
  | .moduleLoaded _ => .moduleLoaded
  | .moduleUnloaded _ => .moduleUnloaded
  | .diagnostic _ => .diagnostic
  | .residencyPriority _ => .residencyPriority

/-- The name of an event. -/
def EventKind.event : EventKind → String
  | hello => "hello"
  | created => "created"
  | renamed => "renamed"
  | destroyed => "destroyed"
  | goodbye => "goodbye"
  | moduleLoaded => "module_loaded"
  | moduleUnloaded => "module_unloaded"
  | diagnostic => "diag"
  | residencyPriority => "residency_priority"

/-- `out`, when `Append` takes the lock. -/
def line (toUtf8 : ToUtf8) (r : LogRecord) (tsNs : ℕ) : List UInt8 :=
  let out := appendKey (Utf8.encode ['{']) "event" ++ ascii "\"" ++ ascii r.kind.event ++ ascii "\""
  appendPayload toUtf8 (commaKvU64 "ts_ns" tsNs out) r ++ Utf8.encode ['}'] ++ ascii "\n"

/-- The log: what is in its file, when there is one. -/
structure JsonLog where
  file : Option (List UInt8)

/-- `JsonLog::Append`. -/
def JsonLog.append (log : JsonLog) (toUtf8 : ToUtf8) (r : LogRecord) (tsNs : ℕ) : JsonLog :=
  ⟨log.file.map fun bytes => bytes ++ line toUtf8 r tsNs⟩

/-! ### What is to be recorded -/

/-- What a line about a created object says. -/
structure CreatedEntry where
  id : ℕ
  ptr : ℕ
  type : ObjectType
  alloc : AllocationKind
  heap : ℕ
  dim : ℕ
  format : ℕ
  size : ℕ
  parentHeapId : ℕ
  parentHeapPtr : Option ℕ
  heapOffset : Option ℕ
  name : WString
  stack : List ℕ

/-- The fields of an event in `FORMAT.md`, besides `ts_ns`. -/
inductive Entry
  | hello (pid protocol qpcFreq qpcStart : ℕ) (exe : WString)
  | created (e : CreatedEntry)
  | renamed (id : ℕ) (name : WString)
  | destroyed (id : ℕ)
  | goodbye (exitCode : ℕ)
  | moduleLoaded (base size timestamp pdbAge : ℕ) (pdbGuid : Fin 16 → UInt8)
    (name pdbName : WString)
  | moduleUnloaded (base : ℕ)
  | residencyPriority (id objectPtr priority : ℕ) (priorityName : List Char)

/-- What is to be said about the object: an optional value is there or not, as
the flags of the record have it. -/
def CreatedPayload.entry (p : CreatedPayload) : CreatedEntry where
  id := p.id
  ptr := p.objectPtr
  type := p.type
  alloc := p.alloc
  heap := p.heapType
  dim := p.dimension
  format := p.format
  size := p.sizeBytes
  parentHeapId := p.parentHeapId
  parentHeapPtr := if p.parentHeapPtr ≠ 0 then some p.parentHeapPtr else none
  heapOffset := if p.alloc = .placed then some p.heapOffset else none
  name := p.name.read
  stack := p.frames.take (min p.frameCount kMaxCallstackFrames)

/-- What a full record has to say. -/
def LogRecord.entry : LogRecord → Option Entry
  | .hello (some p) =>
    some (.hello p.pid p.protocolVersion p.qpcFrequency p.qpcStart p.exePath.read)
  | .created (some p) => some (.created p.entry)
  | .renamed (some p) => some (.renamed p.id p.name.read)
  | .destroyed (some p) => some (.destroyed p.id)
  | .goodbye (some p) => some (.goodbye p.exitCode)
  | .moduleLoaded (some p) =>
    some (.moduleLoaded p.base p.size p.timestamp p.pdbAge p.pdbGuid p.name.read p.pdbName.read)
  | .moduleUnloaded (some p) => some (.moduleUnloaded p.base)
  | .residencyPriority (some p) =>
    some (.residencyPriority p.id p.objectPtr p.priority (residencyPriorityName p.priority).toList)
  | _ => none

/-- A name without pairs. -/
def NameBuf.Plane (b : NameBuf) : Prop := ∀ c ∈ b.read, ¬Utf16.IsSurrogate c

instance (b : NameBuf) : Decidable b.Plane :=
  List.decidableBAll (fun c => ¬Utf16.IsSurrogate c) b.read

/-- The values of the payload are in the ranges of their types, and its names have no pairs. -/
def LogRecord.InRange : LogRecord → Prop
  | .hello (some p) => p.exePath.Plane
  | .created (some p) =>
    p.type.InRange ∧ p.alloc.InRange ∧ p.heapType ≤ 5 ∧ p.dimension ≤ 4 ∧ p.name.Plane
  | .renamed (some p) => p.name.Plane
  | .moduleLoaded (some p) => p.name.Plane ∧ p.pdbName.Plane
  | _ => True

/-! ### Fields -/

/-- A field with a number. -/
def natField (k : String) (v : ℕ) : Member := ⟨k.toList, Nat.toDigits 10 v, .ofNat v⟩

/-- A field with a name of the log's own. -/
def strField (k v : String) : Member := ⟨k.toList, '"' :: v.toList ++ ['"'], .str v.toList⟩

/-- An address in hexadecimal. -/
def hexText (v : ℕ) : List Char := '0' :: 'x' :: Nat.toDigits 16 v

/-- A field with a pointer. -/
def hexField (k : String) (v : ℕ) : Member :=
  ⟨k.toList, '"' :: hexText v ++ ['"'], .str (hexText v)⟩

/-- A field with a text of the target. -/
def nameField (k : String) (b : NameBuf) : Member :=
  ⟨k.toList, '"' :: b.read.flatMap escapedText ++ ['"'], .str (b.read.map Utf16.unit)⟩

/-- The field with the return addresses. -/
def stackField (frames : List ℕ) : Member :=
  ⟨"stack".toList, '[' :: Json.joined (frames.map fun f => '"' :: hexText f ++ ['"']) ++ [']'],
    .arr (frames.map fun f => .str (hexText f))⟩

/-- A byte in two digits. -/
def hex2Text (b : UInt8) : List Char := hexPad 2 b.toNat

/-- The identifier of a symbol file, in its five groups. -/
def guidText (g : Fin 16 → UInt8) : List Char :=
  hex2Text (g 3) ++ hex2Text (g 2) ++ hex2Text (g 1) ++ hex2Text (g 0) ++ ['-'] ++
    hex2Text (g 5) ++ hex2Text (g 4) ++ ['-'] ++ hex2Text (g 7) ++ hex2Text (g 6) ++ ['-'] ++
    hex2Text (g 8) ++ hex2Text (g 9) ++ ['-'] ++ hex2Text (g 10) ++ hex2Text (g 11) ++
    hex2Text (g 12) ++ hex2Text (g 13) ++ hex2Text (g 14) ++ hex2Text (g 15)

/-- The field with that identifier. -/
def guidField (g : Fin 16 → UInt8) : Member :=
  ⟨"pdb_guid".toList, '"' :: guidText g ++ ['"'], .str (guidText g)⟩

/-- The members behind `ts_ns`; those of a diagnostic are further below. -/
def LogRecord.payloadFields : LogRecord → List Member
  | .hello (some p) =>
    [natField "pid" p.pid, natField "protocol" p.protocolVersion,
      natField "qpc_freq" p.qpcFrequency, natField "qpc_start" p.qpcStart,
      nameField "exe" p.exePath]
  | .created (some p) =>
    [natField "id" p.id, hexField "ptr" p.objectPtr, strField "type" (objectTypeName p.type),
      strField "alloc" (allocationKindName p.alloc), strField "heap" (heapTypeName p.heapType),
      strField "dim" (dimensionName p.dimension), natField "format" p.format,
      natField "size" p.sizeBytes, natField "parent_heap_id" p.parentHeapId] ++
      (if p.parentHeapPtr ≠ 0 then [hexField "parent_heap_ptr" p.parentHeapPtr] else []) ++
      (if p.alloc = .placed then [natField "heap_offset" p.heapOffset] else []) ++
      [nameField "name" p.name] ++
      if p.frameCount ≠ 0 then
        [stackField (p.frames.take (min p.frameCount kMaxCallstackFrames))]
      else []
  | .renamed (some p) => [natField "id" p.id, nameField "name" p.name]
  | .destroyed (some p) => [natField "id" p.id]
  | .goodbye (some p) => [natField "exit_code" p.exitCode]
  | .moduleLoaded (some p) =>
    [hexField "base" p.base, natField "size" p.size, natField "timestamp" p.timestamp,
      natField "pdb_age" p.pdbAge, guidField p.pdbGuid, nameField "name" p.name,
      nameField "pdb_name" p.pdbName]
  | .moduleUnloaded (some p) => [hexField "base" p.base]
  | .residencyPriority (some p) =>
    [natField "id" p.id, hexField "object_ptr" p.objectPtr, natField "priority" p.priority,
      strField "priority_name" (residencyPriorityName p.priority)]
  | _ => []

/-- All the fields of a record's line, in the order they are written. -/
def LogRecord.fields (r : LogRecord) (tsNs : ℕ) : List Member :=
  strField "event" r.kind.event :: natField "ts_ns" tsNs :: r.payloadFields

/-- The object. -/
def LogRecord.value (r : LogRecord) (tsNs : ℕ) : Json := .obj ((r.fields tsNs).map Member.pair)

/-! ### The line is the object of the fields -/

/-- Fields behind others. -/
def more (fs : List Member) : List Char := fs.flatMap fun f => ',' :: f.written

/-- Further fields after further fields. -/
theorem more_append (fs gs : List Member) : more (fs ++ gs) = more fs ++ more gs :=
  List.flatMap_append

/-- An object is its first field and further fields. -/
theorem object_cons (f : Member) (fs : List Member) :
    object (f :: fs) = '{' :: f.written ++ more fs ++ ['}'] := by
  simp [object, Json.joined, more, List.flatMap_map]

theorem ascii_quote : ascii "\"" = Utf8.encode ['"'] := by decide

/-- A key and its colon. -/
theorem appendKey_eq (out : List UInt8) (k : String) :
    appendKey (out ++ ascii ",") k
      = out ++ Utf8.encode (',' :: '"' :: k.toList ++ ['"', ':']) := by
  have hcomma : ascii "," = Utf8.encode [','] := by decide
  have hend : ascii "\":" = Utf8.encode ['"', ':'] := by decide
  have hkey : ascii k = Utf8.encode k.toList := rfl
  rw [appendKey, hcomma, ascii_quote, hend, hkey]
  simp only [List.append_assoc, ← Utf8.encode_append]
  rfl

/-- A key and a value behind it. -/
theorem appendKey_append (out : List UInt8) (f : Member) {k : String} (hk : f.key = k.toList) :
    appendKey (out ++ ascii ",") k ++ Utf8.encode f.text = out ++ Utf8.encode (more [f]) := by
  rw [appendKey_eq, List.append_assoc, ← Utf8.encode_append]
  congr 2
  simp [more, Member.written, hk]

/-- Each `CommaKv…` writes one further field: a number, -/
theorem commaKvU64_eq (k : String) (v : ℕ) (out : List UInt8) :
    commaKvU64 k v out = out ++ Utf8.encode (more [natField k v]) :=
  appendKey_append out (natField k v) rfl

/-- A text between quotes. -/
theorem quoted_eq (t : List Char) :
    ascii "\"" ++ Utf8.encode t ++ ascii "\"" = Utf8.encode ('"' :: t ++ ['"']) := by
  rw [ascii_quote, ← Utf8.encode_append, ← Utf8.encode_append]
  rfl

/-- a name, -/
theorem commaKvStr_eq (k v : String) (out : List UInt8) :
    commaKvStr k v out = out ++ Utf8.encode (more [strField k v]) := by
  have hvalue : ascii "\"" ++ ascii v ++ ascii "\"" = Utf8.encode (strField k v).text :=
    quoted_eq v.toList
  rw [← appendKey_append out (strField k v) rfl, ← hvalue]
  simp only [commaKvStr, List.append_assoc]

/-- A pointer between quotes. -/
theorem hexLiteral_eq (v : ℕ) : hexLiteral v = Utf8.encode ('"' :: hexText v ++ ['"']) := by
  have hstart : ascii "\"0x" = ascii "\"" ++ Utf8.encode ['0', 'x'] := by decide
  rw [← quoted_eq, hexLiteral, hstart]
  simp only [List.append_assoc, hexText]
  rw [show '0' :: 'x' :: Nat.toDigits 16 v = ['0', 'x'] ++ Nat.toDigits 16 v from rfl,
    Utf8.encode_append]
  simp only [List.append_assoc]

/-- a pointer, -/
theorem commaKvHex_eq (k : String) (v : ℕ) (out : List UInt8) :
    commaKvHex k v out = out ++ Utf8.encode (more [hexField k v]) := by
  rw [commaKvHex, hexLiteral_eq, ← appendKey_append out (hexField k v) rfl]
  rfl

/-- and a text of the target. -/
theorem commaKvName_eq {toUtf8 : ToUtf8} (h : Converts toUtf8) (k : String) (b : NameBuf)
    (out : List UInt8) :
    commaKvName toUtf8 k b out = out ++ Utf8.encode (more [nameField k b]) := by
  have hread : (b.chars.take kMaxNameChars).takeWhile (· ≠ 0) = b.read := by
    rw [NameBuf.read, take_wcsnlen]
  rw [commaKvName, appendJsonString_eq, hread, literal, flatMap_escaped h, quoted_eq,
    ← appendKey_append out (nameField k b) rfl]
  rfl

/-- The return addresses, with commas between them. -/
theorem appendFrames_eq (out : List UInt8) (fs : List ℕ) :
    appendFrames out fs
      = out ++ Utf8.encode (Json.joined (fs.map fun f => '"' :: hexText f ++ ['"'])) := by
  cases fs with
  | nil => simp [appendFrames, Json.joined]
  | cons f fs =>
    have hfold : ∀ (out : List UInt8) (fs : List ℕ),
        fs.foldl (fun out f => out ++ ascii "," ++ hexLiteral f) out
          = out ++ Utf8.encode (fs.flatMap fun f => ',' :: '"' :: hexText f ++ ['"']) := by
      intro out fs
      induction fs generalizing out with
      | nil => simp
      | cons f fs ih =>
        have hcomma : ascii "," = Utf8.encode [','] := by decide
        have hitem : Utf8.encode (',' :: '"' :: hexText f ++ ['"'])
            = Utf8.encode [','] ++ Utf8.encode ('"' :: hexText f ++ ['"']) := by
          rw [← Utf8.encode_append]
          rfl
        rw [List.foldl_cons, ih, hexLiteral_eq, hcomma, List.flatMap_cons,
          Utf8.encode_append (',' :: '"' :: hexText f ++ ['"']), hitem, List.append_assoc,
          List.append_assoc, List.append_assoc]
    rw [appendFrames, hfold, hexLiteral_eq, List.append_assoc, ← Utf8.encode_append]
    simp [Json.joined, List.flatMap_map]

/-- The array of the frames. -/
theorem appendStack_eq (out : List UInt8) (frames : List ℕ) :
    appendFrames (appendKey (out ++ ascii ",") "stack" ++ ascii "[") frames ++ ascii "]"
      = out ++ Utf8.encode (more [stackField frames]) := by
  have hopen : ascii "[" = Utf8.encode ['['] := by decide
  have hclose : ascii "]" = Utf8.encode [']'] := by decide
  rw [appendFrames_eq, hopen, hclose, ← appendKey_append out (stackField frames) rfl,
    List.append_assoc, List.append_assoc, ← Utf8.encode_append, ← Utf8.encode_append]
  rfl

/-- The digits of an identifier in their order, and its dashes. -/
theorem appendGuid_eq (g : Fin 16 → UInt8) (out : List UInt8) :
    appendGuid g out = out ++ Utf8.encode ('"' :: guidText g ++ ['"']) := by
  have hdash : ascii "-" = Utf8.encode ['-'] := by decide
  have hhex : ∀ b, hex2 b = Utf8.encode (hex2Text b) := fun b => rfl
  have hquoted := quoted_eq (guidText g)
  rw [← hquoted]
  unfold appendGuid guidText
  rw [hdash]
  simp only [hhex, Utf8.encode_append, List.append_assoc]

/-- **The payload is written field by field.** -/
theorem appendPayload_eq {toUtf8 : ToUtf8} (h : Converts toUtf8) (out : List UInt8)
    {r : LogRecord} (hr : ∀ p, r ≠ .diagnostic p) :
    appendPayload toUtf8 out r = out ++ Utf8.encode (more r.payloadFields) := by
  -- consecutive members are one list of members
  have join : ∀ (out : List UInt8) (fs gs : List Member),
      out ++ Utf8.encode (more fs) ++ Utf8.encode (more gs)
        = out ++ Utf8.encode (more (fs ++ gs)) := by
    intro out fs gs
    rw [more_append, Utf8.encode_append, List.append_assoc]
  -- a member that is left out is an empty list
  have hif : ∀ (c : Prop) [Decidable c] (out : List UInt8) (f : Member),
      (if c then out ++ Utf8.encode (more [f]) else out)
        = out ++ Utf8.encode (more (if c then [f] else [])) := by
    intro c _ out f
    split
    · rfl
    · exact (List.append_nil out).symm
  cases r with
  | hello p =>
    cases p with
    | none => simp [appendPayload, LogRecord.payloadFields, more]
    | some p =>
      simp only [appendPayload, commaKvU64_eq, commaKvName_eq h, join]
      rfl
  | created p =>
    cases p with
    | none => simp [appendPayload, LogRecord.payloadFields, more]
    | some p =>
      have hstack : ∀ out, appendFrames (appendKey (out ++ ascii ",") "stack" ++ ascii "[")
          (p.frames.take (min p.frameCount kMaxCallstackFrames)) ++ ascii "]"
            = out ++ Utf8.encode (more
              [stackField (p.frames.take (min p.frameCount kMaxCallstackFrames))]) :=
        fun out => appendStack_eq out _
      simp only [appendPayload, commaKvU64_eq, commaKvHex_eq, commaKvStr_eq, commaKvName_eq h,
        hstack]
      simp only [hif]
      simp only [join]
      rfl
  | renamed p =>
    cases p with
    | none => simp [appendPayload, LogRecord.payloadFields, more]
    | some p =>
      simp only [appendPayload, commaKvU64_eq, commaKvName_eq h, join]
      rfl
  | destroyed p =>
    cases p with
    | none => simp [appendPayload, LogRecord.payloadFields, more]
    | some p => exact commaKvU64_eq _ _ _
  | goodbye p =>
    cases p with
    | none => simp [appendPayload, LogRecord.payloadFields, more]
    | some p => exact commaKvU64_eq _ _ _
  | moduleLoaded p =>
    cases p with
    | none => simp [appendPayload, LogRecord.payloadFields, more]
    | some p =>
      have hguid : ∀ out, appendGuid p.pdbGuid (appendKey (out ++ ascii ",") "pdb_guid")
          = out ++ Utf8.encode (more [guidField p.pdbGuid]) := by
        intro out
        rw [appendGuid_eq, ← appendKey_append out (guidField p.pdbGuid) rfl]
        rfl
      simp only [appendPayload, commaKvU64_eq, commaKvHex_eq, hguid, commaKvName_eq h, join]
      rfl
  | moduleUnloaded p =>
    cases p with
    | none => simp [appendPayload, LogRecord.payloadFields, more]
    | some p => exact commaKvHex_eq _ _ _
  | residencyPriority p =>
    cases p with
    | none => simp [appendPayload, LogRecord.payloadFields, more]
    | some p =>
      simp only [appendPayload, commaKvU64_eq, commaKvHex_eq, commaKvStr_eq, join]
      rfl
  | diagnostic p => exact absurd rfl (hr p)

/-- The beginning of a line. -/
theorem event_eq (k : EventKind) :
    appendKey (Utf8.encode ['{']) "event" ++ ascii "\"" ++ ascii k.event ++ ascii "\""
      = Utf8.encode ('{' :: (strField "event" k.event).written) := by
  have hopen : appendKey (Utf8.encode ['{']) "event"
      = Utf8.encode ('{' :: '"' :: "event".toList ++ ['"', ':']) := by decide
  have hvalue : ascii "\"" ++ ascii k.event ++ ascii "\""
      = Utf8.encode (strField "event" k.event).text := quoted_eq k.event.toList
  rw [List.append_assoc, List.append_assoc, ← List.append_assoc (ascii "\""), hvalue, hopen,
    ← Utf8.encode_append]
  rfl

/-- The line of a payload that is written field by field. -/
theorem line_of_payload {toUtf8 : ToUtf8} {r : LogRecord} {fs : List Member}
    (hfs : ∀ out, appendPayload toUtf8 out r = out ++ Utf8.encode (more fs)) (tsNs : ℕ) :
    line toUtf8 r tsNs = Utf8.encode
      (object (strField "event" r.kind.event :: natField "ts_ns" tsNs :: fs) ++ ['\n']) := by
  have hend : ascii "\n" = Utf8.encode ['\n'] := by decide
  unfold line
  dsimp only
  rw [event_eq, hfs, commaKvU64_eq, hend, ← Utf8.encode_append, ← Utf8.encode_append,
    ← Utf8.encode_append, ← Utf8.encode_append, object_cons]
  congr 2
  simp [more]

/-- **The line is the object of the fields**, in UTF-8. -/
theorem line_eq {toUtf8 : ToUtf8} (h : Converts toUtf8) {r : LogRecord}
    (hr : ∀ p, r ≠ .diagnostic p) (tsNs : ℕ) :
    line toUtf8 r tsNs = Utf8.encode (object (r.fields tsNs) ++ ['\n']) :=
  line_of_payload (fun out => appendPayload_eq h out hr) tsNs

/-! ### The fields are well formed -/

theorem isPlain_digitChar : ∀ d < 16, isPlain (Nat.digitChar d) = true := by decide

theorem valid_natField {k : String} (hk : k.toList.all isPlain = true) (v : ℕ) :
    (natField k v).Valid := ⟨List.all_eq_true.mp hk, written_ofNat v⟩

/-- A name of the log's own needs no escapes. -/
theorem valid_strField {k v : String} (hk : k.toList.all isPlain = true)
    (hv : v.toList.all isPlain = true) : (strField k v).Valid :=
  ⟨List.all_eq_true.mp hk, written_str (chars_plain (List.all_eq_true.mp hv))⟩

/-- A number in hexadecimal has nothing to be escaped. -/
theorem isPlain_hexText (v : ℕ) : ∀ c ∈ hexText v, isPlain c = true := by
  intro c hc
  rcases List.mem_cons.mp hc with rfl | hc
  · decide
  · rcases List.mem_cons.mp hc with rfl | hc
    · decide
    · obtain ⟨d, hd, rfl⟩ := mem_toDigits hc
      exact isPlain_digitChar d hd

theorem valid_hexField {k : String} (hk : k.toList.all isPlain = true) (v : ℕ) :
    (hexField k v).Valid :=
  ⟨List.all_eq_true.mp hk, written_str (chars_plain (isPlain_hexText v))⟩

/-- A text is escaped, so its field is well formed whatever the text. -/
theorem valid_nameField {k : String} (hk : k.toList.all isPlain = true) (b : NameBuf) :
    (nameField k b).Valid :=
  ⟨List.all_eq_true.mp hk, written_str (chars_escapedText b.read)⟩

/-- Each of the return addresses is a string. -/
theorem valid_stackField (frames : List ℕ) : (stackField frames).Valid where
  key := List.all_eq_true.mp (show "stack".toList.all isPlain = true by decide)
  value := by
    have hall : ∀ x ∈ frames.map fun f => ('"' :: hexText f ++ ['"'], Json.str (hexText f)),
        Written x.1 x.2 := by
      intro x hx
      obtain ⟨f, -, rfl⟩ := List.mem_map.mp hx
      exact written_str (chars_plain (isPlain_hexText f))
    have harr := written_arr hall
    rwa [List.map_map, List.map_map] at harr

theorem isPlain_hex2Text (b : UInt8) : ∀ c ∈ hex2Text b, isPlain c = true := by
  intro c hc
  obtain ⟨d, hd, rfl⟩ := mem_hexPad hc
  exact isPlain_digitChar d hd

theorem isPlain_guidText (g : Fin 16 → UInt8) : ∀ c ∈ guidText g, isPlain c = true := by
  have hhex := isPlain_hex2Text
  have hdash : ∀ c ∈ ['-'], isPlain c = true := List.all_eq_true.mp (by decide)
  unfold guidText
  simp only [List.forall_mem_append]
  generalize hex2Text = text at hhex ⊢
  and_intros
  all_goals first | exact hhex _ | exact hdash

theorem valid_guidField (g : Fin 16 → UInt8) : (guidField g).Valid :=
  ⟨List.all_eq_true.mp (show "pdb_guid".toList.all isPlain = true by decide),
    written_str (chars_plain (isPlain_guidText g))⟩

/-- All the names of a table are plain if the listed ones and the default
are. -/
theorem isPlain_nameOf {α : Type} [DecidableEq α] {cases : List (α × String)} {default : String}
    (hcases : ∀ x ∈ cases, x.2.toList.all isPlain = true)
    (hdefault : default.toList.all isPlain = true) (a : α) :
    (nameOf cases default a).toList.all isPlain = true := by
  unfold nameOf
  cases hfound : cases.find? fun x => x.1 = a with
  | none => exact hdefault
  | some x => exact hcases x (List.mem_of_find?_eq_some hfound)

/-- Also outside their range, types and kinds have plain names. -/
theorem isPlain_objectTypeName (t : ObjectType) :
    (objectTypeName t).toList.all isPlain = true :=
  isPlain_nameOf (by decide) (by decide) t

theorem isPlain_allocationKindName (k : AllocationKind) :
    (allocationKindName k).toList.all isPlain = true :=
  isPlain_nameOf (by decide) (by decide) k

theorem isPlain_heapTypeName (n : ℕ) : (heapTypeName n).toList.all isPlain = true := by
  unfold heapTypeName
  split <;> decide

theorem isPlain_dimensionName (n : ℕ) : (dimensionName n).toList.all isPlain = true := by
  unfold dimensionName
  split <;> decide

theorem isPlain_residencyPriorityName (n : ℕ) :
    (residencyPriorityName n).toList.all isPlain = true := by
  unfold residencyPriorityName
  split <;> decide

theorem isPlain_event (kind : EventKind) : kind.event.toList.all isPlain = true := by
  cases kind <;> decide

/-- A field that may be missing. -/
theorem valid_ite {c : Prop} [Decidable c] {f : Member} (h : f.Valid) :
    ∀ g ∈ (if c then [f] else []), g.Valid := by
  intro g hg
  split at hg
  · rwa [List.mem_singleton.mp hg]
  · cases hg

/-- **Every field is well formed.** -/
theorem valid_payloadFields (r : LogRecord) : ∀ f ∈ r.payloadFields, f.Valid := by
  cases r with
  | hello p =>
    cases p with
    | none => exact List.forall_mem_nil _
    | some p =>
      simp only [LogRecord.payloadFields, List.forall_mem_cons]
      exact ⟨valid_natField (by decide) _, valid_natField (by decide) _,
        valid_natField (by decide) _, valid_natField (by decide) _,
        valid_nameField (by decide) _, List.forall_mem_nil _⟩
  | created p =>
    cases p with
    | none => exact List.forall_mem_nil _
    | some p =>
      simp only [LogRecord.payloadFields, List.forall_mem_append, List.forall_mem_cons]
      refine ⟨⟨⟨⟨⟨valid_natField (by decide) _, valid_hexField (by decide) _,
        valid_strField (by decide) (isPlain_objectTypeName _),
        valid_strField (by decide) (isPlain_allocationKindName _),
        valid_strField (by decide) (isPlain_heapTypeName _),
        valid_strField (by decide) (isPlain_dimensionName _), valid_natField (by decide) _,
        valid_natField (by decide) _, valid_natField (by decide) _, List.forall_mem_nil _⟩,
        valid_ite (valid_hexField (by decide) _)⟩, valid_ite (valid_natField (by decide) _)⟩,
        valid_nameField (by decide) _, List.forall_mem_nil _⟩, valid_ite (valid_stackField _)⟩
  | renamed p =>
    cases p with
    | none => exact List.forall_mem_nil _
    | some p =>
      simp only [LogRecord.payloadFields, List.forall_mem_cons]
      exact ⟨valid_natField (by decide) _, valid_nameField (by decide) _, List.forall_mem_nil _⟩
  | destroyed p =>
    cases p with
    | none => exact List.forall_mem_nil _
    | some p =>
      simp only [LogRecord.payloadFields, List.forall_mem_cons]
      exact ⟨valid_natField (by decide) _, List.forall_mem_nil _⟩
  | goodbye p =>
    cases p with
    | none => exact List.forall_mem_nil _
    | some p =>
      simp only [LogRecord.payloadFields, List.forall_mem_cons]
      exact ⟨valid_natField (by decide) _, List.forall_mem_nil _⟩
  | moduleLoaded p =>
    cases p with
    | none => exact List.forall_mem_nil _
    | some p =>
      simp only [LogRecord.payloadFields, List.forall_mem_cons]
      exact ⟨valid_hexField (by decide) _, valid_natField (by decide) _,
        valid_natField (by decide) _, valid_natField (by decide) _, valid_guidField _,
        valid_nameField (by decide) _, valid_nameField (by decide) _, List.forall_mem_nil _⟩
  | moduleUnloaded p =>
    cases p with
    | none => exact List.forall_mem_nil _
    | some p =>
      simp only [LogRecord.payloadFields, List.forall_mem_cons]
      exact ⟨valid_hexField (by decide) _, List.forall_mem_nil _⟩
  | residencyPriority p =>
    cases p with
    | none => exact List.forall_mem_nil _
    | some p =>
      simp only [LogRecord.payloadFields, List.forall_mem_cons]
      exact ⟨valid_natField (by decide) _, valid_hexField (by decide) _,
        valid_natField (by decide) _, valid_strField (by decide) (isPlain_residencyPriorityName _),
        List.forall_mem_nil _⟩
  | diagnostic p => exact List.forall_mem_nil _

/-- **Every field of every record is well formed.** -/
theorem valid_fields (r : LogRecord) (tsNs : ℕ) : ∀ f ∈ r.fields tsNs, f.Valid := by
  simp only [LogRecord.fields, List.forall_mem_cons]
  exact ⟨valid_strField (by decide) (isPlain_event r.kind), valid_natField (by decide) _,
    valid_payloadFields r⟩

/-! ### Keys -/

@[simp] theorem key_natField (k : String) (v : ℕ) : (natField k v).key = k.toList := rfl
@[simp] theorem key_strField (k v : String) : (strField k v).key = k.toList := rfl
@[simp] theorem key_hexField (k : String) (v : ℕ) : (hexField k v).key = k.toList := rfl
@[simp] theorem key_nameField (k : String) (b : NameBuf) : (nameField k b).key = k.toList := rfl
@[simp] theorem key_stackField (frames : List ℕ) : (stackField frames).key = "stack".toList := rfl
@[simp] theorem key_guidField (g : Fin 16 → UInt8) : (guidField g).key = "pdb_guid".toList := rfl

/-- The keys of a field that may be missing. -/
theorem sublist_ite {c : Prop} [Decidable c] (f : Member) :
    ((if c then [f] else []).map Member.key).Sublist [f.key] := by
  split
  · exact List.Sublist.refl _
  · exact List.nil_sublist _

/-- **No key is there twice.** -/
theorem nodup_keys (r : LogRecord) (tsNs : ℕ) : ((r.fields tsNs).map Member.key).Nodup := by
  cases r with
  | created p =>
    cases p with
    | none =>
      simp only [LogRecord.fields, LogRecord.payloadFields, List.map, key_natField, key_strField]
      decide
    | some p =>
      have hfull : (["event", "ts_ns", "id", "ptr", "type", "alloc", "heap", "dim", "format",
          "size", "parent_heap_id", "parent_heap_ptr", "heap_offset", "name", "stack"].map
          String.toList).Nodup := by decide
      refine hfull.sublist ?_
      simp only [LogRecord.fields, LogRecord.payloadFields, List.map_cons, List.map_append]
      refine .cons_cons _ (.cons_cons _ ?_)
      exact ((((List.Sublist.refl _).append (sublist_ite _)).append (sublist_ite _)).append
        (List.Sublist.refl _)).append (sublist_ite _)
  | _ p =>
    cases p <;>
      · simp only [LogRecord.fields, LogRecord.payloadFields, List.map, key_natField, key_strField,
          key_hexField, key_nameField, key_guidField]
        decide

/-! ### Reading a line -/

/-- The number under a key. -/
def natAt (v : Json) (k : String) : Option ℕ := (v.get? k.toList).bind toNat?

/-- The text under a key. -/
def strAt (v : Json) (k : String) : Option (List Char) := (v.get? k.toList).bind toStr?

/-- The number in `0x…`. -/
def hexOf? (t : List Char) : Option ℕ := if t.take 2 = ['0', 'x'] then ofHex? (t.drop 2) else none

/-- The pointer under a key. -/
def hexAt (v : Json) (k : String) : Option ℕ := (strAt v k).bind hexOf?

/-- The text under a key, in the target's code units. -/
def nameAt (v : Json) (k : String) : Option WString := (strAt v k).map Utf16.encode

/-- The value with a name. -/
def named? {α : Type} (all : List α) (name : α → String) (s : List Char) : Option α :=
  all.find? fun a => decide ((name a).toList = s)

/-- The value that has the name under a key. -/
def enumAt {α : Type} (v : Json) (k : String) (all : List α) (name : α → String) : Option α :=
  (strAt v k).bind (named? all name)

/-- The bytes of pairs of hexadecimal digits. -/
def hexBytes? : List Char → Option (List UInt8)
  | [] => some []
  | [_] => none
  | a :: b :: t => (ofHex? [a, b]).bind fun n => (hexBytes? t).map fun bs => UInt8.ofNat n :: bs

/-- The identifier that a text spells. -/
def guidOf? (t : List Char) : Option (Fin 16 → UInt8) :=
  match hexBytes? (t.filter fun c => c ≠ '-') with
  | some [b3, b2, b1, b0, b5, b4, b7, b6, b8, b9, b10, b11, b12, b13, b14, b15] =>
    some fun i => [b0, b1, b2, b3, b4, b5, b6, b7, b8, b9, b10, b11, b12, b13, b14, b15].get i
  | _ => none

/-- No frames, if there is no stack. -/
def stackAt (v : Json) : Option (List ℕ) :=
  match v.get? "stack".toList with
  | none => some []
  | some a => a.toArr?.bind fun vs => vs.mapM fun x => x.toStr?.bind hexOf?

/-- The types that have names of their own. -/
def objectTypes : List ObjectType := (List.range ObjectType.count).map fun n => ⟨UInt8.ofNat n⟩

def allocationKinds : List AllocationKind := (List.range 5).map fun n => ⟨UInt8.ofNat n⟩

/-- The entry of a line about a created object. -/
def readCreated (v : Json) : Option CreatedEntry := do
  let id ← natAt v "id"
  let ptr ← hexAt v "ptr"
  let type ← enumAt v "type" objectTypes objectTypeName
  let alloc ← enumAt v "alloc" allocationKinds allocationKindName
  let heap ← enumAt v "heap" (List.range 6) heapTypeName
  let dim ← enumAt v "dim" (List.range 5) dimensionName
  let format ← natAt v "format"
  let size ← natAt v "size"
  let parentHeapId ← natAt v "parent_heap_id"
  let name ← nameAt v "name"
  let stack ← stackAt v
  return ⟨id, ptr, type, alloc, heap, dim, format, size, parentHeapId, hexAt v "parent_heap_ptr",
    natAt v "heap_offset", name, stack⟩

/-- The entry of a line about a loaded module. -/
def readModuleLoaded (v : Json) : Option Entry := do
  let base ← hexAt v "base"
  let size ← natAt v "size"
  let timestamp ← natAt v "timestamp"
  let pdbAge ← natAt v "pdb_age"
  let pdbGuid ← (strAt v "pdb_guid").bind guidOf?
  let name ← nameAt v "name"
  let pdbName ← nameAt v "pdb_name"
  return .moduleLoaded base size timestamp pdbAge pdbGuid name pdbName

def eventKinds : List EventKind :=
  [.hello, .created, .renamed, .destroyed, .goodbye, .moduleLoaded, .moduleUnloaded, .diagnostic,
    .residencyPriority]

/-- The fields of an object, by its event. -/
def readFields (v : Json) : EventKind → Option Entry
  | .hello => do
    return .hello (← natAt v "pid") (← natAt v "protocol") (← natAt v "qpc_freq")
      (← natAt v "qpc_start") (← nameAt v "exe")
  | .created => (readCreated v).map .created
  | .renamed => do return .renamed (← natAt v "id") (← nameAt v "name")
  | .destroyed => (natAt v "id").map .destroyed
  | .goodbye => (natAt v "exit_code").map .goodbye
  | .moduleLoaded => readModuleLoaded v
  | .moduleUnloaded => (hexAt v "base").map .moduleUnloaded
  | .diagnostic => none
  | .residencyPriority => do
    return .residencyPriority (← natAt v "id") (← hexAt v "object_ptr") (← natAt v "priority")
      (← strAt v "priority_name")

/-- The entry of a line, by its event. -/
def readEntry (v : Json) : Option Entry :=
  (enumAt v "event" eventKinds EventKind.event).bind (readFields v)

/-- The stamp and the entry of a line. -/
def readLine (bytes : List UInt8) : Option (ℕ × Entry) := do
  let text ← Utf8.decode bytes
  let v ← parse text
  let tsNs ← natAt v "ts_ns"
  let entry ← readEntry v
  return (tsNs, entry)

/-! ### What is read -/

/-- A number is read back. -/
theorem hexOf?_hexText (v : ℕ) : hexOf? (hexText v) = some v := by
  have htake : (hexText v).take 2 = ['0', 'x'] := rfl
  rw [hexOf?, if_pos htake]
  exact ofHex?_toDigits v

/-- All return addresses are read back. -/
theorem mapM_frames (frames : List ℕ) :
    (frames.map fun f => Json.str (hexText f)).mapM (fun x => x.toStr?.bind hexOf?)
      = some frames := by
  induction frames with
  | nil => rfl
  | cons f frames ih =>
    have hf : (Json.str (hexText f)).toStr?.bind hexOf? = some f := hexOf?_hexText f
    rw [List.map_cons, List.mapM_cons, hf, ih]
    rfl

/-- A name is read back if no two values share it. -/
theorem named?_self {α : Type} {all : List α} {name : α → String}
    (hinj : ∀ a ∈ all, ∀ b ∈ all, name a = name b → a = b) {a : α} (ha : a ∈ all) :
    named? all name (name a).toList = some a := by
  unfold named?
  cases hfound : all.find? fun b => decide ((name b).toList = (name a).toList) with
  | none => simpa using List.find?_eq_none.mp hfound a ha
  | some b =>
    have hname := List.find?_some hfound
    rw [hinj b (List.mem_of_find?_eq_some hfound) a ha
      (String.toList_inj.mp (of_decide_eq_true hname))]

/-- A byte is read back. -/
theorem hexBytes?_hex2Text (b : UInt8) {t : List Char} {bs : List UInt8}
    (h : hexBytes? t = some bs) : hexBytes? (hex2Text b ++ t) = some (b :: bs) := by
  have hread := ofHex?_hexPad 2 b.toNat
  rw [hexPad_two b.toNat_lt] at hread
  rw [hex2Text, hexPad_two b.toNat_lt, List.cons_append, List.cons_append, List.nil_append,
    hexBytes?, hread, h, Option.bind_some, Option.map_some, UInt8.ofNat_toNat]

/-- A text of hexadecimal digits has no dash. -/
theorem filter_hex2Text (b : UInt8) : (hex2Text b).filter (fun c => c ≠ '-') = hex2Text b := by
  rw [List.filter_eq_self]
  intro c hc
  obtain ⟨d, hd, rfl⟩ := mem_hexPad hc
  have hall : ∀ d < 16, decide (Nat.digitChar d ≠ '-') = true := by decide
  exact hall d hd

/-- **The sixteen bytes are read in their order.** -/
theorem guidOf?_guidText (g : Fin 16 → UInt8) : guidOf? (guidText g) = some g := by
  have hdash : ['-'].filter (fun c => c ≠ '-') = [] := by decide
  have hnil : hexBytes? [] = some [] := rfl
  have hlast : ∀ b, hexBytes? (hex2Text b) = some [b] := by
    intro b
    have hread := hexBytes?_hex2Text b hnil
    rwa [List.append_nil] at hread
  unfold guidOf? guidText
  simp only [List.filter_append, filter_hex2Text, hdash, List.nil_append, List.append_assoc]
  have h := hexBytes?_hex2Text (g 3) <| hexBytes?_hex2Text (g 2) <| hexBytes?_hex2Text (g 1) <|
    hexBytes?_hex2Text (g 0) <| hexBytes?_hex2Text (g 5) <| hexBytes?_hex2Text (g 4) <|
    hexBytes?_hex2Text (g 7) <| hexBytes?_hex2Text (g 6) <| hexBytes?_hex2Text (g 8) <|
    hexBytes?_hex2Text (g 9) <| hexBytes?_hex2Text (g 10) <| hexBytes?_hex2Text (g 11) <|
    hexBytes?_hex2Text (g 12) <| hexBytes?_hex2Text (g 13) <| hexBytes?_hex2Text (g 14) <|
    hlast (g 15)
  rw [h]
  refine congrArg some (funext fun i => ?_)
  fin_cases i <;> rfl

section Reading

variable {fs : List Member} (hkeys : (fs.map Member.key).Nodup)

include hkeys

/-- A number is found under its key, -/
theorem natAt_field {k : String} {v : ℕ} (h : natField k v ∈ fs) :
    natAt (.obj (fs.map Member.pair)) k = some v := by
  have hget : get? k.toList (.obj (fs.map Member.pair)) = some (.ofNat v) := get?_member hkeys h
  rw [natAt, hget]
  exact toNat?_ofNat v

/-- a name, -/
theorem strAt_field {k v : String} (h : strField k v ∈ fs) :
    strAt (.obj (fs.map Member.pair)) k = some v.toList := by
  have hget : get? k.toList (.obj (fs.map Member.pair)) = some (.str v.toList) :=
    get?_member hkeys h
  rw [strAt, hget]
  rfl

/-- a pointer, -/
theorem hexAt_field {k : String} {v : ℕ} (h : hexField k v ∈ fs) :
    hexAt (.obj (fs.map Member.pair)) k = some v := by
  have hget : get? k.toList (.obj (fs.map Member.pair)) = some (.str (hexText v)) :=
    get?_member hkeys h
  rw [hexAt, strAt, hget]
  exact hexOf?_hexText v

/-- a text of the target, unless it has half of a pair, -/
theorem nameAt_field {k : String} {b : NameBuf} (hb : b.Plane) (h : nameField k b ∈ fs) :
    nameAt (.obj (fs.map Member.pair)) k = some b.read := by
  have hget : get? k.toList (.obj (fs.map Member.pair)) = some (.str (b.read.map Utf16.unit)) :=
    get?_member hkeys h
  rw [nameAt, strAt, hget]
  exact congrArg some (Utf16.encode_map_unit hb)

/-- the return addresses, -/
theorem stackAt_field {frames : List ℕ} (h : stackField frames ∈ fs) :
    stackAt (.obj (fs.map Member.pair)) = some frames := by
  have hget : get? "stack".toList (.obj (fs.map Member.pair))
      = some (.arr (frames.map fun f => .str (hexText f))) := get?_member hkeys h
  rw [stackAt, hget]
  exact mapM_frames frames

/-- a value with a name, -/
theorem enumAt_field {α : Type} {all : List α} {name : α → String}
    (hinj : ∀ a ∈ all, ∀ b ∈ all, name a = name b → a = b) {a : α} (ha : a ∈ all) {k : String}
    (h : strField k (name a) ∈ fs) :
    enumAt (.obj (fs.map Member.pair)) k all name = some a := by
  rw [enumAt, strAt_field hkeys h]
  exact named?_self hinj ha

/-- and an identifier. -/
theorem guidAt_field {g : Fin 16 → UInt8} (h : guidField g ∈ fs) :
    (strAt (.obj (fs.map Member.pair)) "pdb_guid").bind guidOf? = some g := by
  have hget : get? "pdb_guid".toList (.obj (fs.map Member.pair)) = some (.str (guidText g)) :=
    get?_member hkeys h
  rw [strAt, hget, Option.bind_some, toStr?, Option.bind_some, guidOf?_guidText]

omit hkeys in
/-- What is not there is not found. -/
theorem natAt_none {k : String} (h : ∀ f ∈ fs, f.key ≠ k.toList) :
    natAt (.obj (fs.map Member.pair)) k = none := by
  rw [natAt, get?_none h]
  rfl

omit hkeys in
theorem hexAt_none {k : String} (h : ∀ f ∈ fs, f.key ≠ k.toList) :
    hexAt (.obj (fs.map Member.pair)) k = none := by
  rw [hexAt, strAt, get?_none h]
  rfl

omit hkeys in
theorem stackAt_none (h : ∀ f ∈ fs, f.key ≠ "stack".toList) :
    stackAt (.obj (fs.map Member.pair)) = some [] := by
  rw [stackAt, get?_none h]

end Reading

theorem objectType_mem {t : ObjectType} (h : t.InRange) : t ∈ objectTypes :=
  List.mem_map.mpr ⟨t.index, List.mem_range.mpr h, by rw [ObjectType.index, UInt8.ofNat_toNat]⟩

theorem allocationKind_mem {k : AllocationKind} (h : k.InRange) : k ∈ allocationKinds :=
  List.mem_map.mpr ⟨k.index, List.mem_range.mpr h, by rw [AllocationKind.index, UInt8.ofNat_toNat]⟩

/-- The names tell the types apart. -/
theorem objectTypeName_inj : ∀ t ∈ objectTypes, ∀ u ∈ objectTypes,
    objectTypeName t = objectTypeName u → t = u := by decide

/-- The names tell the events apart. -/
theorem event_inj : ∀ k ∈ eventKinds, ∀ l ∈ eventKinds, k.event = l.event → k = l := by decide

theorem eventKind_mem (k : EventKind) : k ∈ eventKinds := by cases k <;> decide

/-- The names tell the kinds of allocations apart. -/
theorem allocationKindName_inj : ∀ k ∈ allocationKinds, ∀ l ∈ allocationKinds,
    allocationKindName k = allocationKindName l → k = l := by decide

/-- The keys that every record of a creation has. -/
def createdKeys : List String :=
  ["event", "ts_ns", "id", "ptr", "type", "alloc", "heap", "dim", "format", "size",
    "parent_heap_id", "name"]

/-- The other keys of a record of a creation are there under their conditions. -/
theorem key_created {p : CreatedPayload} {tsNs : ℕ} {f : Member}
    (hf : f ∈ (LogRecord.created (some p)).fields tsNs) :
    f.key ∈ createdKeys.map String.toList ∨
    (p.parentHeapPtr ≠ 0 ∧ f.key = "parent_heap_ptr".toList) ∨
    (p.alloc = .placed ∧ f.key = "heap_offset".toList) ∨
    (p.frameCount ≠ 0 ∧ f.key = "stack".toList) := by
  have hkey : ∀ k ∈ createdKeys, k.toList ∈ createdKeys.map String.toList :=
    fun k hk => List.mem_map_of_mem hk
  have hite : ∀ {c : Prop} [Decidable c] {g : Member}, f ∈ (if c then [g] else []) → c ∧ f = g := by
    intro c _ g hf
    split at hf
    · next hc => exact ⟨hc, List.mem_singleton.mp hf⟩
    · cases hf
  simp only [LogRecord.fields, LogRecord.payloadFields, List.mem_cons, List.mem_append,
    List.not_mem_nil, or_false] at hf
  rcases hf with rfl | rfl | (((hbase | hptr) | hoffset) | rfl) | hstack
  · exact .inl (hkey "event" (by decide))
  · exact .inl (hkey "ts_ns" (by decide))
  · left
    rcases hbase with rfl | rfl | rfl | rfl | rfl | rfl | rfl | rfl | rfl
    all_goals exact hkey _ (by decide)
  · obtain ⟨hc, rfl⟩ := hite hptr
    exact .inr (.inl ⟨hc, rfl⟩)
  · obtain ⟨hc, rfl⟩ := hite hoffset
    exact .inr (.inr (.inl ⟨hc, rfl⟩))
  · exact .inl (hkey "name" (by decide))
  · obtain ⟨hc, rfl⟩ := hite hstack
    exact .inr (.inr (.inr ⟨hc, rfl⟩))

/-- **A created object is read back from its line.** -/
theorem readCreated_value {p : CreatedPayload} (hr : (LogRecord.created (some p)).InRange)
    (tsNs : ℕ) : readCreated ((LogRecord.created (some p)).value tsNs) = some p.entry := by
  obtain ⟨htype, halloc, hheap, hdim, hname⟩ := hr
  have hkeys := nodup_keys (.created (some p)) tsNs
  generalize hv : (LogRecord.created (some p)).value tsNs = v
  have hid : natAt v "id" = some p.id :=
    hv ▸ natAt_field hkeys (by simp [LogRecord.fields, LogRecord.payloadFields])
  have hobject : hexAt v "ptr" = some p.objectPtr :=
    hv ▸ hexAt_field hkeys (by simp [LogRecord.fields, LogRecord.payloadFields])
  have htype : enumAt v "type" objectTypes objectTypeName = some p.type :=
    hv ▸ enumAt_field hkeys objectTypeName_inj (objectType_mem htype)
      (by simp [LogRecord.fields, LogRecord.payloadFields])
  have halloc : enumAt v "alloc" allocationKinds allocationKindName = some p.alloc :=
    hv ▸ enumAt_field hkeys allocationKindName_inj (allocationKind_mem halloc)
      (by simp [LogRecord.fields, LogRecord.payloadFields])
  have hheap : enumAt v "heap" (List.range 6) heapTypeName = some p.heapType :=
    hv ▸ enumAt_field hkeys (by decide) (List.mem_range.mpr (Nat.lt_succ_of_le hheap))
      (by simp [LogRecord.fields, LogRecord.payloadFields])
  have hdim : enumAt v "dim" (List.range 5) dimensionName = some p.dimension :=
    hv ▸ enumAt_field hkeys (by decide) (List.mem_range.mpr (Nat.lt_succ_of_le hdim))
      (by simp [LogRecord.fields, LogRecord.payloadFields])
  have hformat : natAt v "format" = some p.format :=
    hv ▸ natAt_field hkeys (by simp [LogRecord.fields, LogRecord.payloadFields])
  have hsize : natAt v "size" = some p.sizeBytes :=
    hv ▸ natAt_field hkeys (by simp [LogRecord.fields, LogRecord.payloadFields])
  have hparent : natAt v "parent_heap_id" = some p.parentHeapId :=
    hv ▸ natAt_field hkeys (by simp [LogRecord.fields, LogRecord.payloadFields])
  have hname : nameAt v "name" = some p.name.read :=
    hv ▸ nameAt_field hkeys hname (by simp [LogRecord.fields, LogRecord.payloadFields])
  -- the members that are there under a condition
  have hptr : hexAt v "parent_heap_ptr" = p.entry.parentHeapPtr := by
    by_cases hc : p.parentHeapPtr ≠ 0
    · rw [CreatedPayload.entry, if_pos hc]
      exact hv ▸ hexAt_field hkeys (by simp [LogRecord.fields, LogRecord.payloadFields, hc])
    · rw [CreatedPayload.entry, if_neg hc, ← hv]
      refine hexAt_none fun f hf heq => ?_
      rcases heq ▸ key_created hf with h | h | h | h
      · exact absurd h (by decide)
      · exact hc h.1
      · exact absurd h.2 (by decide)
      · exact absurd h.2 (by decide)
  have hoffset : natAt v "heap_offset" = p.entry.heapOffset := by
    by_cases hc : p.alloc = .placed
    · rw [CreatedPayload.entry, if_pos hc]
      exact hv ▸ natAt_field hkeys (by simp [LogRecord.fields, LogRecord.payloadFields, hc])
    · rw [CreatedPayload.entry, if_neg hc, ← hv]
      refine natAt_none fun f hf heq => ?_
      rcases heq ▸ key_created hf with h | h | h | h
      · exact absurd h (by decide)
      · exact absurd h.2 (by decide)
      · exact hc h.1
      · exact absurd h.2 (by decide)
  have hstack : stackAt v = some p.entry.stack := by
    by_cases hc : p.frameCount ≠ 0
    · exact hv ▸ stackAt_field hkeys
        (by simp [LogRecord.fields, LogRecord.payloadFields, CreatedPayload.entry, hc])
    · have hempty : p.entry.stack = [] := by
        rw [CreatedPayload.entry, not_not.mp hc]
        rfl
      rw [hempty, ← hv]
      refine stackAt_none fun f hf heq => ?_
      rcases heq ▸ key_created hf with h | h | h | h
      · exact absurd h (by decide)
      · exact absurd h.2 (by decide)
      · exact absurd h.2 (by decide)
      · exact hc h.1
  simp only [readCreated, hid, hobject, htype, halloc, hheap, hdim, hformat, hsize, hparent, hname,
    hstack, hptr, hoffset]
  rfl

/-- **So is a loaded module.** -/
theorem readModuleLoaded_value {p : ModuleLoadedPayload}
    (hr : (LogRecord.moduleLoaded (some p)).InRange) (tsNs : ℕ) :
    readModuleLoaded ((LogRecord.moduleLoaded (some p)).value tsNs)
      = (LogRecord.moduleLoaded (some p)).entry := by
  obtain ⟨hname, hpdb⟩ := hr
  have hkeys := nodup_keys (.moduleLoaded (some p)) tsNs
  generalize hv : (LogRecord.moduleLoaded (some p)).value tsNs = v
  have hbase : hexAt v "base" = some p.base :=
    hv ▸ hexAt_field hkeys (by simp [LogRecord.fields, LogRecord.payloadFields])
  have hsize : natAt v "size" = some p.size :=
    hv ▸ natAt_field hkeys (by simp [LogRecord.fields, LogRecord.payloadFields])
  have htimestamp : natAt v "timestamp" = some p.timestamp :=
    hv ▸ natAt_field hkeys (by simp [LogRecord.fields, LogRecord.payloadFields])
  have hage : natAt v "pdb_age" = some p.pdbAge :=
    hv ▸ natAt_field hkeys (by simp [LogRecord.fields, LogRecord.payloadFields])
  have hguid : (strAt v "pdb_guid").bind guidOf? = some p.pdbGuid :=
    hv ▸ guidAt_field hkeys (by simp [LogRecord.fields, LogRecord.payloadFields])
  have hname : nameAt v "name" = some p.name.read :=
    hv ▸ nameAt_field hkeys hname (by simp [LogRecord.fields, LogRecord.payloadFields])
  have hpdb : nameAt v "pdb_name" = some p.pdbName.read :=
    hv ▸ nameAt_field hkeys hpdb (by simp [LogRecord.fields, LogRecord.payloadFields])
  simp only [readModuleLoaded, hbase, hsize, htimestamp, hage, hguid, hname, hpdb]
  rfl

/-- **The entry is read from the fields.** -/
theorem readEntry_value {r : LogRecord} {e : Entry} (he : r.entry = some e) (hr : r.InRange)
    (tsNs : ℕ) : readEntry (r.value tsNs) = some e := by
  have hkeys := nodup_keys r tsNs
  -- the event name selects the fields that are read
  have hevent : enumAt (r.value tsNs) "event" eventKinds EventKind.event = some r.kind :=
    enumAt_field hkeys event_inj (eventKind_mem r.kind) List.mem_cons_self
  rw [← he, readEntry, hevent, Option.bind_some]
  cases r with
  | hello p =>
    cases p with
    | none => cases he
    | some p =>
      generalize hv : (LogRecord.hello (some p)).value tsNs = v
      have hpid : natAt v "pid" = some p.pid :=
        hv ▸ natAt_field hkeys (by simp [LogRecord.fields, LogRecord.payloadFields])
      have hprotocol : natAt v "protocol" = some p.protocolVersion :=
        hv ▸ natAt_field hkeys (by simp [LogRecord.fields, LogRecord.payloadFields])
      have hfreq : natAt v "qpc_freq" = some p.qpcFrequency :=
        hv ▸ natAt_field hkeys (by simp [LogRecord.fields, LogRecord.payloadFields])
      have hstart : natAt v "qpc_start" = some p.qpcStart :=
        hv ▸ natAt_field hkeys (by simp [LogRecord.fields, LogRecord.payloadFields])
      have hexe : nameAt v "exe" = some p.exePath.read :=
        hv ▸ nameAt_field hkeys hr (by simp [LogRecord.fields, LogRecord.payloadFields])
      simp only [LogRecord.kind, readFields, hpid, hprotocol,
        hfreq, hstart, hexe]
      rfl
  | created p =>
    cases p with
    | none => cases he
    | some p =>
      have hread := readCreated_value hr tsNs
      generalize (LogRecord.created (some p)).value tsNs = v at hread ⊢
      simp only [LogRecord.kind, readFields, hread]
      rfl
  | renamed p =>
    cases p with
    | none => cases he
    | some p =>
      generalize hv : (LogRecord.renamed (some p)).value tsNs = v
      have hid : natAt v "id" = some p.id :=
        hv ▸ natAt_field hkeys (by simp [LogRecord.fields, LogRecord.payloadFields])
      have hname : nameAt v "name" = some p.name.read :=
        hv ▸ nameAt_field hkeys hr (by simp [LogRecord.fields, LogRecord.payloadFields])
      simp only [LogRecord.kind, readFields, hid, hname]
      rfl
  | destroyed p =>
    cases p with
    | none => cases he
    | some p =>
      generalize hv : (LogRecord.destroyed (some p)).value tsNs = v
      have hid : natAt v "id" = some p.id :=
        hv ▸ natAt_field hkeys (by simp [LogRecord.fields, LogRecord.payloadFields])
      simp only [LogRecord.kind, readFields, hid]
      rfl
  | goodbye p =>
    cases p with
    | none => cases he
    | some p =>
      generalize hv : (LogRecord.goodbye (some p)).value tsNs = v
      have hcode : natAt v "exit_code" = some p.exitCode :=
        hv ▸ natAt_field hkeys (by simp [LogRecord.fields, LogRecord.payloadFields])
      simp only [LogRecord.kind, readFields, hcode]
      rfl
  | moduleLoaded p =>
    cases p with
    | none => cases he
    | some p =>
      have hread := readModuleLoaded_value hr tsNs
      generalize (LogRecord.moduleLoaded (some p)).value tsNs = v at hread ⊢
      simp only [LogRecord.kind, readFields, hread]
  | moduleUnloaded p =>
    cases p with
    | none => cases he
    | some p =>
      generalize hv : (LogRecord.moduleUnloaded (some p)).value tsNs = v
      have hbase : hexAt v "base" = some p.base :=
        hv ▸ hexAt_field hkeys (by simp [LogRecord.fields, LogRecord.payloadFields])
      simp only [LogRecord.kind, readFields, hbase]
      rfl
  | residencyPriority p =>
    cases p with
    | none => cases he
    | some p =>
      generalize hv : (LogRecord.residencyPriority (some p)).value tsNs = v
      have hid : natAt v "id" = some p.id :=
        hv ▸ natAt_field hkeys (by simp [LogRecord.fields, LogRecord.payloadFields])
      have hobject : hexAt v "object_ptr" = some p.objectPtr :=
        hv ▸ hexAt_field hkeys (by simp [LogRecord.fields, LogRecord.payloadFields])
      have hpriority : natAt v "priority" = some p.priority :=
        hv ▸ natAt_field hkeys (by simp [LogRecord.fields, LogRecord.payloadFields])
      have hlabel : strAt v "priority_name" = some (residencyPriorityName p.priority).toList :=
        hv ▸ strAt_field hkeys (by simp [LogRecord.fields, LogRecord.payloadFields])
      simp only [LogRecord.kind, readFields, hid, hobject,
        hpriority, hlabel]
      rfl
  | diagnostic p => cases he

/-! ### Lines -/

/-- A diagnostic has no entry. -/
theorem not_diagnostic {r : LogRecord} {e : Entry} (he : r.entry = some e) :
    ∀ p, r ≠ .diagnostic p := by
  rintro p rfl
  cases he

/-- The line is the text of the object. -/
theorem written_value (r : LogRecord) (tsNs : ℕ) :
    Written (object (r.fields tsNs)) (r.value tsNs) :=
  written_object (valid_fields r tsNs)

/-- **The stamp and the entry are read from the line.** -/
theorem readLine_line {toUtf8 : ToUtf8} (h : Converts toUtf8) {r : LogRecord} {e : Entry}
    (he : r.entry = some e) (hr : r.InRange) (tsNs : ℕ) :
    readLine (line toUtf8 r tsNs) = some (tsNs, e) := by
  have hts : natAt (r.value tsNs) "ts_ns" = some tsNs :=
    natAt_field (nodup_keys r tsNs) (by simp [LogRecord.fields])
  have hparse := parse_of_isText (written_value r tsNs).isText
  simp only [readLine, line_eq h (not_diagnostic he), Utf8.decode_encode, hparse, hts,
    readEntry_value he hr, Option.bind_eq_bind, Option.bind_some]
  rfl

/-- The bytes are one JSON object in UTF-8 on a line of its own. -/
def ObjectLine (bytes : List UInt8) (members : List (List Char × Json)) : Prop :=
  ∃ text, bytes = Utf8.encode text ++ [0x0A] ∧ (0x0A : UInt8) ∉ Utf8.encode text ∧
    Derives text (.value (.obj members))

/-- A value without white space is on one line. -/
theorem objectLine_of_written {t : List Char} {members : List (List Char × Json)}
    (h : Written t (.obj members)) : ObjectLine (Utf8.encode (t ++ ['\n'])) members := by
  refine ⟨t, Utf8.encode_append t ['\n'], ?_, h.derives⟩
  intro hmem
  obtain ⟨before, after, hsplit⟩ := List.append_of_mem hmem
  obtain ⟨left, right, htext, -, -⟩ := Utf8.split_ascii (by decide) hsplit
  refine h.not_mem ?_
  rw [htext]
  exact List.mem_append_right left List.mem_cons_self

/-- Of a record `r`, `Append` writes one object on a line of its own, from which the stamp and
all that is to be recorded are read; so no other fields have that line. -/
structure Lossless (toUtf8 : ToUtf8) (r : LogRecord) (e : Entry) (tsNs : ℕ) : Prop where
  appended : ∀ bytes,
    JsonLog.append ⟨some bytes⟩ toUtf8 r tsNs = ⟨some (bytes ++ line toUtf8 r tsNs)⟩
  object : ∃ members, ObjectLine (line toUtf8 r tsNs) members
  read : readLine (line toUtf8 r tsNs) = some (tsNs, e)
  unique : ∀ r' e' tsNs', r'.entry = some e' → r'.InRange →
    line toUtf8 r tsNs = line toUtf8 r' tsNs' → tsNs = tsNs' ∧ e = e'

/-- **No field of a full record is lost.** -/
theorem line_lossless {toUtf8 : ToUtf8} (h : Converts toUtf8) {r : LogRecord} {e : Entry}
    (he : r.entry = some e) (hr : r.InRange) (tsNs : ℕ) : Lossless toUtf8 r e tsNs where
  appended := fun bytes => rfl
  object := by
    rw [line_eq h (not_diagnostic he)]
    exact ⟨_, objectLine_of_written (written_value r tsNs)⟩
  read := readLine_line h he hr tsNs
  unique := by
    intro r' e' tsNs' he' hr' heq
    have hread := readLine_line h he hr tsNs
    rw [heq, readLine_line h he' hr' tsNs', Option.some.injEq, Prod.mk.injEq] at hread
    exact ⟨hread.1.symm, hread.2.symm⟩

/-- A placed buffer whose name has a quotation mark and a line feed. -/
def placedBuffer : CreatedPayload where
  id := 7
  sizeBytes := 65536
  parentHeapId := 3
  parentHeapPtr := 0x1f0
  objectPtr := 0x2a40
  heapOffset := 4096
  heapType := 1
  dimension := 1
  format := 0
  type := .resource
  alloc := .placed
  frameCount := 2
  name := .copy [0x22, 0x0A]
  frames := [0x7ff0, 0x7ff8]

theorem line_lossless_placed :
    Lossless convert (.created (some placedBuffer)) (.created placedBuffer.entry) 12 := by
  have hr : placedBuffer.type.InRange ∧ placedBuffer.alloc.InRange ∧ placedBuffer.heapType ≤ 5 ∧
      placedBuffer.dimension ≤ 4 ∧ placedBuffer.name.Plane := by decide
  exact line_lossless (r := .created (some placedBuffer)) converts_convert rfl hr 12

end Dx12Track
