import Dx12Track.Lib.LineFile
import Dx12Track.Dll.JsonLog
import Dx12Track.Launcher.Session

/-!
# The text of the sidecar

Every line of the sidecar is one JSON object, which `struct J` of `src/launcher/Model.cpp`
puts together piece by piece.  The strings are those of the target and of Windows, so they
may hold anything, halves of pairs too; a half is written as U+FFFD.

* `J.new`, `J.u`, … `J.done` — **the line builder**.
* `SideLine.text` — the text of every kind of line.
* `SideLine.fields`, `text_eq` — it is the object of these fields.
* `SideLine.read` — a line is read; `shown` is what can be read of it.
* `read_text` — **nothing else is lost**.
* `sidecar_readable` — **the sidecar of a session can be read**, wherever it was cut off.
-/

namespace Dx12Track

open Json Digits
open Etw (ObjType ResidencyOp CounterKind Stats)

/-! ### The line builder -/

namespace J

/-- The constructor. -/
def new (event : String) (tsNs : ℕ) : List UInt8 :=
  Utf8.encode ['{'] ++ ascii "\"event\":\"" ++ ascii event ++ ascii "\",\"ts_ns\":" ++
    Utf8.encode (Nat.toDigits 10 tsNs)

def u (k : String) (v : ℕ) (s : List UInt8) : List UInt8 :=
  s ++ ascii ",\"" ++ ascii k ++ ascii "\":" ++ Utf8.encode (Nat.toDigits 10 v)

def i (k : String) (v : ℤ) (s : List UInt8) : List UInt8 :=
  s ++ ascii ",\"" ++ ascii k ++ ascii "\":" ++ Utf8.encode (intDigits v)

def b (k : String) (v : Bool) (s : List UInt8) : List UInt8 :=
  s ++ ascii ",\"" ++ ascii k ++ ascii "\":" ++ ascii (if v then "true" else "false")

def str (k v : String) (s : List UInt8) : List UInt8 :=
  s ++ ascii ",\"" ++ ascii k ++ ascii "\":\"" ++ ascii v ++ ascii "\""

def hex (k : String) (v : ℕ) (s : List UInt8) : List UInt8 :=
  s ++ ascii ",\"" ++ ascii k ++ ascii "\":" ++ hexLiteral v

/-- The line ends here; `Done` returns it for `fwrite`. -/
def done (s : List UInt8) : List UInt8 := s ++ Utf8.encode ['}', '\n']

end J

/-! ### The names -/

/-- The name of a kind of object, as the sidecar spells it. -/
def objTypeName : ObjType → String
  | .device => "Device"
  | .resource => "Resource"
  | .heap => "Heap"
  | .pipelineState => "PipelineState"
  | .stateObject => "StateObject"
  | .commandAllocator => "CommandAllocator"
  | .descriptorHeap => "DescriptorHeap"
  | .metaCommand => "MetaCommand"
  | .invalid => "Invalid"

/-- The name of a memory group. -/
def locName : MemLoc → String
  | .vram => "vram"
  | .sys => "sys"
  | .unknown => "unknown"

/-- The name of a residency operation. -/
def residencyOpName : ResidencyOp → String
  | .pageIn => "page_in"
  | .pageOut => "page_out"
  | .evict => "evict"
  | .makeResident => "make_resident"

/-- `kKeys` of `EtwTick`. -/
def counterKey : CounterKind → String
  | .localBudget => "local_budget"
  | .localResident => "local_resident"
  | .localUsage => "local_usage"
  | .nonLocalBudget => "nonlocal_budget"
  | .nonLocalResident => "nonlocal_resident"
  | .nonLocalUsage => "nonlocal_usage"
  | .demotedMin => "demoted_min"
  | .demotedLow => "demoted_low"
  | .demotedNormal => "demoted_normal"
  | .demotedHigh => "demoted_high"
  | .demotedMax => "demoted_max"
  | .pagingLocalToNonLocal => "paging_local_to_nonlocal"
  | .pagingNonLocalToLocal => "paging_nonlocal_to_local"

/-- `kUnboundKeys` of `FinishEtw`. -/
def unboundKey : ObjType → String
  | .device => "unbound_device"
  | .resource => "unbound_resource"
  | .heap => "unbound_heap"
  | .pipelineState => "unbound_pipeline_state"
  | .stateObject => "unbound_state_object"
  | .commandAllocator => "unbound_command_allocator"
  | .descriptorHeap => "unbound_descriptor_heap"
  | .metaCommand => "unbound_meta_command"
  | .invalid => ""

/-- A field that is there only if there is a value. -/
def J.opt (k : String) (v : Option ℕ) (s : List UInt8) : List UInt8 := v.elim s fun v => J.u k v s

/-- What the calls of `SideLine` write. -/
def SideLine.text (toUtf8 : ToUtf8) : SideLine → List UInt8
  | .etwHello ts pid qpcFreq qpcStart session rundownIntervalMs mainLog =>
    J.new "etw_hello" ts |> J.u "etw_format" 1 |> J.u "pid" pid |> J.u "qpc_freq" qpcFreq
      |> J.u "qpc_start" qpcStart |> (J.wstr toUtf8 · "session" session)
      |> J.u "rundown_interval_ms" rundownIntervalMs
      |> J.u "pending_timeout_ms" kEtwPendingTimeoutMs |> (J.wstr toUtf8 · "main_log" mainLog)
      |> J.done
  | .etwObject ts libId type ptr size group =>
    J.new "etw_object" ts |> J.u "lib_id" libId |> J.str "type" (objTypeName type)
      |> J.hex "ptr" ptr |> J.u "size" size |> J.str "group" (locName group) |> J.done
  | .etwBind ts id libId type ptr late =>
    J.new "etw_bind" ts |> J.u "id" id |> J.u "lib_id" libId |> J.str "type" (objTypeName type)
      |> J.hex "ptr" ptr |> (fun s => if late then J.b "late" true s else s) |> J.done
  | .location ts id group viaHeap =>
    J.new "location" ts |> J.u "id" id |> J.str "group" (locName group)
      |> J.str "via" (if viaHeap then "heap" else "self") |> J.done
  | .driverSize ts id bytes =>
    J.new "driver_size" ts |> J.u "id" id |> J.u "bytes" bytes |> J.done
  | .residency ts id libId type op =>
    J.new "residency" ts |> J.u "id" id |> J.u "lib_id" libId |> J.str "type" (objTypeName type)
      |> J.str "op" (residencyOpName op) |> J.done
  | .etwObjectDestroyed ts libId =>
    J.new "etw_object_destroyed" ts |> J.u "lib_id" libId |> J.done
  | .counters ts values demoted pageIns pageOuts =>
    values.foldl (fun s x => J.u (counterKey x.1) x.2 s) (J.new "counters" ts)
      |> J.opt "demoted" demoted |> J.u "page_ins" pageIns |> J.u "page_outs" pageOuts |> J.done
  | .etwDiag ts error code msg =>
    J.new "etw_diag" ts |> J.str "severity" (if error then "error" else "warning")
      |> J.i "code" code |> (J.wstr toUtf8 · "msg" msg) |> J.done
  | .targetExiting ts detectedNs exitCode =>
    J.new "target_exiting" ts |> J.u "detected_ns" detectedNs |> J.opt "exit_code" exitCode
      |> J.done
  | .etwStats ts l =>
    let s := J.new "etw_stats" ts |> J.u "events" l.session.events
      |> J.u "events_lost" l.session.eventsLost |> J.u "buffers_lost" l.session.buffersLost
      |> J.u "exceptions" l.session.exceptions |> J.u "rundowns" l.session.rundowns
      |> J.u "rundown_failures" l.session.rundownFailures
      |> J.u "etw_objects_created" l.created |> J.u "rundown_duplicates" l.rundownDuplicates
      |> J.u "binds" l.binds |> J.u "late_matches" l.lateMatches |> J.u "bound_alive" l.bound
      |> J.u "unbound_alive" l.unbound |> J.u "pending_expired" l.pendingExpired
      |> J.u "group_changes" l.groupChanges |> J.u "make_resident" l.makeResident
      |> J.u "evict" l.evict |> J.u "page_ins" l.pageIns |> J.u "page_outs" l.pageOuts
      |> J.u "post_exit_ignored" l.postExitIgnored |> J.u "diagnostics" l.diagnostics
    J.done ((unboundTypes.zip l.unboundByType).foldl (fun s x => J.u (unboundKey x.1) x.2 s) s)

/-! ### The fields of a line -/

/-- A field with a signed number. -/
def intField (k : String) (v : ℤ) : Member := ⟨k.toList, intDigits v, .ofInt v⟩

/-- A field with a text of the system. -/
def wstrField (k : String) (v : WString) : Member :=
  ⟨k.toList, '"' :: v.flatMap escapedText ++ ['"'], .str (v.map Utf16.unit)⟩

/-- The mark of a binding after the death of the object. -/
def lateField : Member := ⟨"late".toList, ['t', 'r', 'u', 'e'], .bool true⟩

/-- A field that is only there with a value. -/
def optField (k : String) (v : Option ℕ) : List Member := (v.map (natField k)).toList

/-- The names of the lines. -/
inductive SideEvent
  | etwHello | etwObject | etwBind | location | driverSize | residency | etwObjectDestroyed
  | counters | etwDiag | targetExiting | etwStats
  deriving DecidableEq

/-- The text under `event`. -/
def SideEvent.name : SideEvent → String
  | .etwHello => "etw_hello"
  | .etwObject => "etw_object"
  | .etwBind => "etw_bind"
  | .location => "location"
  | .driverSize => "driver_size"
  | .residency => "residency"
  | .etwObjectDestroyed => "etw_object_destroyed"
  | .counters => "counters"
  | .etwDiag => "etw_diag"
  | .targetExiting => "target_exiting"
  | .etwStats => "etw_stats"

namespace SideLine

/-- What a line reports. -/
def event : SideLine → SideEvent
  | .etwHello .. => .etwHello
  | .etwObject .. => .etwObject
  | .etwBind .. => .etwBind
  | .location .. => .location
  | .driverSize .. => .driverSize
  | .residency .. => .residency
  | .etwObjectDestroyed .. => .etwObjectDestroyed
  | .counters .. => .counters
  | .etwDiag .. => .etwDiag
  | .targetExiting .. => .targetExiting
  | .etwStats .. => .etwStats

/-- The time of a line. -/
def tsNs : SideLine → ℕ
  | .etwHello ts .. | .etwObject ts .. | .etwBind ts .. | .location ts .. | .driverSize ts .. => ts
  | .residency ts .. | .etwObjectDestroyed ts .. | .counters ts .. | .etwDiag ts .. => ts
  | .targetExiting ts .. | .etwStats ts .. => ts

end SideLine

/-- The numbers of the last line, in their order. -/
def EtwStatsLine.numbers (l : EtwStatsLine) : List ℕ :=
  [l.session.events, l.session.eventsLost, l.session.buffersLost, l.session.exceptions,
    l.session.rundowns, l.session.rundownFailures, l.created, l.rundownDuplicates, l.binds,
    l.lateMatches, l.bound, l.unbound, l.pendingExpired, l.groupChanges, l.makeResident, l.evict,
    l.pageIns, l.pageOuts, l.postExitIgnored, l.diagnostics]

/-- Their keys. -/
def statsKeys : List String :=
  ["events", "events_lost", "buffers_lost", "exceptions", "rundowns", "rundown_failures",
    "etw_objects_created", "rundown_duplicates", "binds", "late_matches", "bound_alive",
    "unbound_alive", "pending_expired", "group_changes", "make_resident", "evict", "page_ins",
    "page_outs", "post_exit_ignored", "diagnostics"]

/-- Numbers under their keys. -/
def natFields (xs : List (String × ℕ)) : List Member := xs.map fun x => natField x.1 x.2

/-- The fields behind `ts_ns`. -/
def SideLine.payload : SideLine → List Member
  | .etwHello _ pid qpcFreq qpcStart session rundownIntervalMs mainLog =>
    [natField "etw_format" 1, natField "pid" pid, natField "qpc_freq" qpcFreq,
      natField "qpc_start" qpcStart, wstrField "session" session,
      natField "rundown_interval_ms" rundownIntervalMs,
      natField "pending_timeout_ms" kEtwPendingTimeoutMs, wstrField "main_log" mainLog]
  | .etwObject _ libId type ptr size group =>
    [natField "lib_id" libId, strField "type" (objTypeName type), hexField "ptr" ptr,
      natField "size" size, strField "group" (locName group)]
  | .etwBind _ id libId type ptr late =>
    [natField "id" id, natField "lib_id" libId, strField "type" (objTypeName type),
      hexField "ptr" ptr] ++ if late then [lateField] else []
  | .location _ id group viaHeap =>
    [natField "id" id, strField "group" (locName group),
      strField "via" (if viaHeap then "heap" else "self")]
  | .driverSize _ id bytes => [natField "id" id, natField "bytes" bytes]
  | .residency _ id libId type op =>
    [natField "id" id, natField "lib_id" libId, strField "type" (objTypeName type),
      strField "op" (residencyOpName op)]
  | .etwObjectDestroyed _ libId => [natField "lib_id" libId]
  | .counters _ values demoted pageIns pageOuts =>
    natFields (values.map fun x => (counterKey x.1, x.2)) ++ optField "demoted" demoted ++
      [natField "page_ins" pageIns, natField "page_outs" pageOuts]
  | .etwDiag _ error code msg =>
    [strField "severity" (if error then "error" else "warning"), intField "code" code,
      wstrField "msg" msg]
  | .targetExiting _ detectedNs exitCode =>
    natField "detected_ns" detectedNs :: optField "exit_code" exitCode
  | .etwStats _ l =>
    natFields (statsKeys.zip l.numbers) ++
      natFields ((unboundTypes.zip l.unboundByType).map fun x => (unboundKey x.1, x.2))

/-- All the fields of a line, in the order they are written. -/
def SideLine.fields (l : SideLine) : List Member :=
  strField "event" l.event.name :: natField "ts_ns" l.tsNs :: l.payload

/-! ### The text is the object of the fields -/

/-- A line that is not done. -/
def unclosed (event : String) (tsNs : ℕ) (fs : List Member) : List UInt8 :=
  Utf8.encode ('{' :: (strField "event" event).written ++ more (natField "ts_ns" tsNs :: fs))

namespace J

variable (event : String) (tsNs : ℕ) (fs : List Member)

/-- A value behind its key. -/
theorem append_field (s : List UInt8) (f : Member) {k : String} (hk : f.key = k.toList) :
    s ++ ascii ",\"" ++ ascii k ++ ascii "\":" ++ Utf8.encode f.text
      = s ++ Utf8.encode (more [f]) := by
  have hcomma : ascii ",\"" = ascii "," ++ ascii "\"" := by decide
  rw [← appendKey_append s f hk, hcomma]
  simp only [appendKey, List.append_assoc]

/-- A field is added. -/
theorem append_unclosed (gs : List Member) :
    unclosed event tsNs fs ++ Utf8.encode (more gs) = unclosed event tsNs (fs ++ gs) := by
  rw [unclosed, ← Utf8.encode_append, List.append_assoc, ← more_append]
  rfl

/-- A key and a value that are appended are one more field. -/
theorem field_unclosed (f : Member) {k : String} (hk : f.key = k.toList) :
    unclosed event tsNs fs ++ ascii ",\"" ++ ascii k ++ ascii "\":" ++ Utf8.encode f.text
      = unclosed event tsNs (fs ++ [f]) := by
  rw [append_field _ f hk, append_unclosed]

theorem u_unclosed (k : String) (v : ℕ) :
    u k v (unclosed event tsNs fs) = unclosed event tsNs (fs ++ [natField k v]) :=
  field_unclosed event tsNs fs (natField k v) rfl

theorem i_unclosed (k : String) (v : ℤ) :
    i k v (unclosed event tsNs fs) = unclosed event tsNs (fs ++ [intField k v]) :=
  field_unclosed event tsNs fs (intField k v) rfl

theorem late_unclosed :
    b "late" true (unclosed event tsNs fs) = unclosed event tsNs (fs ++ [lateField]) := by
  rw [← field_unclosed event tsNs fs lateField rfl]
  rfl

theorem str_unclosed (k v : String) :
    str k v (unclosed event tsNs fs) = unclosed event tsNs (fs ++ [strField k v]) := by
  have hopen : ascii "\":\"" = ascii "\":" ++ ascii "\"" := by decide
  have hvalue : ascii "\"" ++ ascii v ++ ascii "\"" = Utf8.encode (strField k v).text :=
    quoted_eq v.toList
  rw [← field_unclosed event tsNs fs (strField k v) rfl, ← hvalue, str, hopen]
  simp only [List.append_assoc]

theorem hex_unclosed (k : String) (v : ℕ) :
    hex k v (unclosed event tsNs fs) = unclosed event tsNs (fs ++ [hexField k v]) := by
  rw [hex, hexLiteral_eq]
  exact field_unclosed event tsNs fs (hexField k v) rfl

theorem wstr_unclosed {toUtf8 : ToUtf8} (h : Converts toUtf8) (k : String) (v : WString) :
    wstr toUtf8 (unclosed event tsNs fs) k v
      = unclosed event tsNs (fs ++ [wstrField k v]) := by
  have hopen : ascii "\":\"" = ascii "\":" ++ ascii "\"" := by decide
  have hvalue : ascii "\"" ++ Utf8.encode (v.flatMap escapedText) ++ ascii "\""
      = Utf8.encode (wstrField k v).text := quoted_eq _
  rw [← field_unclosed event tsNs fs (wstrField k v) rfl, ← hvalue, wstr, hopen, flatMap_escaped h]
  simp only [List.append_assoc]

theorem opt_unclosed (k : String) (v : Option ℕ) :
    opt k v (unclosed event tsNs fs) = unclosed event tsNs (fs ++ optField k v) := by
  cases v with
  | none => simp [opt, optField]
  | some v => exact u_unclosed event tsNs fs k v

/-- Some numbers, one after the other. -/
theorem foldl_unclosed {α : Type} (key : α → String) (xs : List (α × ℕ)) (fs : List Member) :
    xs.foldl (fun s x => u (key x.1) x.2 s) (unclosed event tsNs fs)
      = unclosed event tsNs (fs ++ natFields (xs.map fun x => (key x.1, x.2))) := by
  induction xs generalizing fs with
  | nil => simp [natFields]
  | cons x xs ih =>
    rw [List.foldl_cons, u_unclosed, ih, List.append_assoc]
    rfl

/-- `New` writes the first two fields. -/
theorem new_eq : new event tsNs = unclosed event tsNs [] := by
  have hopen : Utf8.encode ['{'] ++ ascii "\"event\":\""
      = Utf8.encode ('{' :: '"' :: "event".toList ++ ['"', ':', '"']) := by decide
  have hclose : ascii "\",\"ts_ns\":"
      = Utf8.encode ('"' :: ',' :: '"' :: "ts_ns".toList ++ ['"', ':']) := by decide
  have hevent : ascii event = Utf8.encode event.toList := rfl
  rw [new, hopen, hclose, hevent]
  simp only [← Utf8.encode_append]
  congr 1
  simp [Member.written, strField, natField, more]

/-- **What is written is the object of the fields**, and a line feed. -/
theorem done_unclosed :
    done (unclosed event tsNs fs)
      = Utf8.encode (object (strField "event" event :: natField "ts_ns" tsNs :: fs) ++ ['\n']) := by
  rw [done, unclosed, ← Utf8.encode_append, object_cons]
  congr 1
  simp

end J

/-- **The text is the object of the fields**, in UTF-8. -/
theorem text_eq {toUtf8 : ToUtf8} (h : Converts toUtf8) (l : SideLine) :
    l.text toUtf8 = Utf8.encode (object l.fields ++ ['\n']) := by
  cases l with
  | etwBind ts id libId type ptr late =>
    simp only [SideLine.text, J.new_eq, J.u_unclosed, J.str_unclosed, J.hex_unclosed]
    cases late with
    | false => exact J.done_unclosed ..
    | true =>
      simp only [if_true, J.late_unclosed]
      exact J.done_unclosed ..
  | etwStats ts l =>
    simp only [SideLine.text, J.new_eq, J.u_unclosed, J.foldl_unclosed, List.nil_append,
      List.cons_append, J.done_unclosed]
    rfl
  | _ =>
    simp only [SideLine.text, J.new_eq, J.u_unclosed, J.i_unclosed, J.str_unclosed,
      J.hex_unclosed, J.wstr_unclosed _ _ _ h, J.opt_unclosed, J.foldl_unclosed, J.done_unclosed,
      SideLine.fields, SideLine.payload, List.append_assoc, List.nil_append, List.cons_append,
      SideLine.event, SideEvent.name, SideLine.tsNs]

/-! ### The fields are well formed -/

theorem valid_intField {k : String} (hk : k.toList.all isPlain = true) (v : ℤ) :
    (intField k v).Valid := ⟨List.all_eq_true.mp hk, written_ofInt v⟩

/-- A text is escaped, so its field is well formed whatever the text. -/
theorem valid_wstrField {k : String} (hk : k.toList.all isPlain = true) (v : WString) :
    (wstrField k v).Valid :=
  ⟨List.all_eq_true.mp hk, written_str (chars_escapedText v)⟩

theorem valid_lateField : lateField.Valid := by
  have hkey : "late".toList.all isPlain = true := by decide
  have htext : lateField.text.all (fun c => decide (0x20 ≤ c.toNat)) = true := by decide
  exact ⟨List.all_eq_true.mp hkey, .trueWord,
    fun c hc => of_decide_eq_true (List.all_eq_true.mp htext c hc)⟩

theorem valid_optField {k : String} (hk : k.toList.all isPlain = true) (v : Option ℕ) :
    ∀ f ∈ optField k v, f.Valid := by
  cases v with
  | none => exact List.forall_mem_nil _
  | some v => exact List.forall_mem_singleton.mpr (valid_natField hk v)

theorem valid_natFields {xs : List (String × ℕ)}
    (h : ∀ x ∈ xs, x.1.toList.all isPlain = true) : ∀ f ∈ natFields xs, f.Valid := by
  intro f hf
  obtain ⟨x, hx, rfl⟩ := List.mem_map.mp hf
  exact valid_natField (h x hx) x.2

theorem isPlain_objTypeName (t : ObjType) : (objTypeName t).toList.all isPlain = true := by
  cases t <;> decide

theorem isPlain_locName (g : MemLoc) : (locName g).toList.all isPlain = true := by
  cases g <;> decide

theorem isPlain_residencyOpName (op : ResidencyOp) :
    (residencyOpName op).toList.all isPlain = true := by cases op <;> decide

theorem isPlain_counterKey (k : CounterKind) : (counterKey k).toList.all isPlain = true := by
  cases k <;> decide

theorem isPlain_unboundKey (t : ObjType) : (unboundKey t).toList.all isPlain = true := by
  cases t <;> decide

theorem isPlain_name (e : SideEvent) : e.name.toList.all isPlain = true := by cases e <;> decide

/-- **Every field is well formed.** -/
theorem SideLine.valid_payload (l : SideLine) : ∀ f ∈ l.payload, f.Valid := by
  cases l with
  | etwHello ts pid qpcFreq qpcStart session rundownIntervalMs mainLog =>
    simp only [payload, List.forall_mem_cons]
    exact ⟨valid_natField (by decide) _, valid_natField (by decide) _,
      valid_natField (by decide) _, valid_natField (by decide) _, valid_wstrField (by decide) _,
      valid_natField (by decide) _, valid_natField (by decide) _, valid_wstrField (by decide) _,
      List.forall_mem_nil _⟩
  | etwObject ts libId type ptr size group =>
    simp only [payload, List.forall_mem_cons]
    exact ⟨valid_natField (by decide) _, valid_strField (by decide) (isPlain_objTypeName _),
      valid_hexField (by decide) _, valid_natField (by decide) _,
      valid_strField (by decide) (isPlain_locName _), List.forall_mem_nil _⟩
  | etwBind ts id libId type ptr late =>
    simp only [payload, List.forall_mem_append, List.forall_mem_cons]
    exact ⟨⟨valid_natField (by decide) _, valid_natField (by decide) _,
      valid_strField (by decide) (isPlain_objTypeName _), valid_hexField (by decide) _,
      List.forall_mem_nil _⟩, valid_ite valid_lateField⟩
  | location ts id group viaHeap =>
    simp only [payload, List.forall_mem_cons]
    exact ⟨valid_natField (by decide) _, valid_strField (by decide) (isPlain_locName _),
      valid_strField (by decide) (by cases viaHeap <;> decide), List.forall_mem_nil _⟩
  | driverSize ts id bytes =>
    simp only [payload, List.forall_mem_cons]
    exact ⟨valid_natField (by decide) _, valid_natField (by decide) _, List.forall_mem_nil _⟩
  | residency ts id libId type op =>
    simp only [payload, List.forall_mem_cons]
    exact ⟨valid_natField (by decide) _, valid_natField (by decide) _,
      valid_strField (by decide) (isPlain_objTypeName _),
      valid_strField (by decide) (isPlain_residencyOpName _), List.forall_mem_nil _⟩
  | etwObjectDestroyed ts libId =>
    simp only [payload, List.forall_mem_cons]
    exact ⟨valid_natField (by decide) _, List.forall_mem_nil _⟩
  | counters ts values demoted pageIns pageOuts =>
    simp only [payload, List.forall_mem_append, List.forall_mem_cons]
    refine ⟨⟨valid_natFields fun x hx => ?_, valid_optField (by decide) _⟩,
      valid_natField (by decide) _, valid_natField (by decide) _, List.forall_mem_nil _⟩
    obtain ⟨y, -, rfl⟩ := List.mem_map.mp hx
    exact isPlain_counterKey y.1
  | etwDiag ts error code msg =>
    simp only [payload, List.forall_mem_cons]
    exact ⟨valid_strField (by decide) (by cases error <;> decide), valid_intField (by decide) _,
      valid_wstrField (by decide) _, List.forall_mem_nil _⟩
  | targetExiting ts detectedNs exitCode =>
    simp only [payload, List.forall_mem_cons]
    exact ⟨valid_natField (by decide) _, valid_optField (by decide) _⟩
  | etwStats ts l =>
    simp only [payload, List.forall_mem_append]
    refine ⟨valid_natFields fun x hx => ?_, valid_natFields fun x hx => ?_⟩
    · have hkeys : ∀ k ∈ statsKeys, k.toList.all isPlain = true := by decide
      exact hkeys x.1 (List.of_mem_zip hx).1
    · obtain ⟨y, -, rfl⟩ := List.mem_map.mp hx
      exact isPlain_unboundKey y.1

/-- **Every field of every line is well formed.** -/
theorem SideLine.valid_fields (l : SideLine) : ∀ f ∈ l.fields, f.Valid := by
  simp only [fields, List.forall_mem_cons]
  exact ⟨valid_strField (by decide) (isPlain_name l.event), valid_natField (by decide) _,
    l.valid_payload⟩

/-- **Every line is one line.** -/
theorem isLine_text {toUtf8 : ToUtf8} (h : Converts toUtf8) (l : SideLine) :
    LineFile.IsLine 0x0A (l.text toUtf8) := by
  obtain ⟨t, hbytes, hnone, -⟩ := objectLine_of_written (written_object l.valid_fields)
  exact ⟨Utf8.encode t, hnone, (text_eq h l).trans hbytes⟩

/-! ### Keys -/

@[simp] theorem key_intField (k : String) (v : ℤ) : (intField k v).key = k.toList := rfl
@[simp] theorem key_wstrField (k : String) (v : WString) : (wstrField k v).key = k.toList := rfl
@[simp] theorem key_lateField : lateField.key = "late".toList := rfl

/-- The keys of a group of numbers. -/
theorem keys_natFields (xs : List (String × ℕ)) :
    (natFields xs).map Member.key = (xs.map Prod.fst).map String.toList := by
  simp [natFields, Function.comp_def]

theorem keys_optField (k : String) (v : Option ℕ) :
    ((optField k v).map Member.key).Sublist [k.toList] := by
  cases v with
  | none => exact List.nil_sublist _
  | some v => exact List.Sublist.refl _

/-- What the lines of the model have: no counter twice, and a number for every kind of object. -/
def SideLine.Proper : SideLine → Prop
  | .counters _ values _ _ _ => (values.map Prod.fst).Sublist Model.counterKinds
  | .etwStats _ l => l.unboundByType.length = unboundTypes.length
  | _ => True

/-- The counters keep their kinds. -/
theorem map_fst_counters (values : List (CounterKind × ℕ)) :
    (values.map fun x => (counterKey x.1, x.2)).map Prod.fst
      = (values.map Prod.fst).map counterKey := by
  simp [Function.comp_def]

/-- There is a number for each kind. -/
theorem map_fst_unbound {ns : List ℕ} (h : ns.length = unboundTypes.length) :
    ((unboundTypes.zip ns).map fun x => (unboundKey x.1, x.2)).map Prod.fst
      = unboundTypes.map unboundKey := by
  rw [List.map_map]
  show (unboundTypes.zip ns).map (unboundKey ∘ Prod.fst) = _
  rw [← List.map_map, List.map_fst_zip (Nat.le_of_eq h.symm)]

/-- **No key is there twice.** -/
theorem SideLine.nodup_keys {l : SideLine} (h : l.Proper) : (l.fields.map Member.key).Nodup := by
  cases l with
  | counters ts values demoted pageIns pageOuts =>
    have hfull : ((["event", "ts_ns"] ++ Model.counterKinds.map counterKey ++
        ["demoted", "page_ins", "page_outs"]).map String.toList).Nodup := by decide
    refine hfull.sublist ?_
    simp only [fields, payload, List.map_cons, List.map_append, keys_natFields, map_fst_counters]
    refine .cons_cons _ (.cons_cons _ ?_)
    rw [List.append_assoc]
    exact ((h.map _).map _).append ((keys_optField _ _).append (List.Sublist.refl _))
  | etwStats ts l =>
    have hstats : (statsKeys.zip l.numbers).map Prod.fst = statsKeys := rfl
    simp only [fields, payload, List.map_cons, List.map_append, keys_natFields, hstats,
      map_fst_unbound h, key_strField, key_natField, event]
    decide
  | etwBind ts id libId type ptr late =>
    cases late <;>
      · simp only [fields, payload, List.map_cons, List.map_append, key_natField, key_strField,
          key_hexField]
        decide
  | targetExiting ts detectedNs exitCode =>
    have hfull : (["event", "ts_ns", "detected_ns", "exit_code"].map String.toList).Nodup := by
      decide
    refine hfull.sublist ?_
    simp only [fields, payload, List.map_cons]
    exact .cons_cons _ (.cons_cons _ (.cons_cons _ (keys_optField _ _)))
  | _ =>
    simp only [fields, payload, List.map_cons, key_natField, key_strField, key_hexField,
      key_intField, key_wstrField]
    decide

/-! ### Reading a line -/

/-- What is read of a string: a half of a pair was replaced. -/
def shownText (s : WString) : WString := Utf16.encode (s.map Utf16.unit)

/-- The line with its texts as they are read. -/
def SideLine.shown : SideLine → SideLine
  | .etwHello ts pid qpcFreq qpcStart session rundownIntervalMs mainLog =>
    .etwHello ts pid qpcFreq qpcStart (shownText session) rundownIntervalMs (shownText mainLog)
  | .etwDiag ts error code msg => .etwDiag ts error code (shownText msg)
  | l => l

/-- A number that may be negative. -/
def intAt (v : Json) (k : String) : Option ℤ := (v.get? k.toList).bind toInt?

/-- The kinds of objects that a line can name. -/
def objTypes : List ObjType := .invalid :: unboundTypes

def memLocs : List MemLoc := [.unknown, .vram, .sys]

def residencyOps : List ResidencyOp := [.makeResident, .evict, .pageIn, .pageOut]

def sideEvents : List SideEvent :=
  [.etwHello, .etwObject, .etwBind, .location, .driverSize, .residency, .etwObjectDestroyed,
    .counters, .etwDiag, .targetExiting, .etwStats]

/-- The last line, from its numbers. -/
def EtwStatsLine.ofNumbers (unbound : List ℕ) : List ℕ → Option EtwStatsLine
  | [events, eventsLost, buffersLost, exceptions, rundowns, rundownFailures, created,
      rundownDuplicates, binds, lateMatches, boundAlive, unboundAlive, pendingExpired,
      groupChanges, makeResident, evict, pageIns, pageOuts, postExitIgnored, diagnostics] =>
    some
      { session := ⟨events, eventsLost, buffersLost, exceptions, rundowns, rundownFailures⟩
        created := created
        rundownDuplicates := rundownDuplicates
        binds := binds
        lateMatches := lateMatches
        bound := boundAlive
        unbound := unboundAlive
        pendingExpired := pendingExpired
        groupChanges := groupChanges
        makeResident := makeResident
        evict := evict
        pageIns := pageIns
        pageOuts := pageOuts
        postExitIgnored := postExitIgnored
        diagnostics := diagnostics
        unboundByType := unbound }
  | _ => none

namespace SideLine

/-- The line of an object, by its event. -/
def ofFields (v : Json) (ts : ℕ) : SideEvent → Option SideLine
  | .etwHello => do
    return .etwHello ts (← natAt v "pid") (← natAt v "qpc_freq") (← natAt v "qpc_start")
      (← nameAt v "session") (← natAt v "rundown_interval_ms") (← nameAt v "main_log")
  | .etwObject => do
    return .etwObject ts (← natAt v "lib_id") (← enumAt v "type" objTypes objTypeName)
      (← hexAt v "ptr") (← natAt v "size") (← enumAt v "group" memLocs locName)
  | .etwBind => do
    return .etwBind ts (← natAt v "id") (← natAt v "lib_id")
      (← enumAt v "type" objTypes objTypeName) (← hexAt v "ptr") (v.get? "late".toList).isSome
  | .location => do
    return .location ts (← natAt v "id") (← enumAt v "group" memLocs locName)
      (← enumAt v "via" [false, true] fun b => if b then "heap" else "self")
  | .driverSize => do return .driverSize ts (← natAt v "id") (← natAt v "bytes")
  | .residency => do
    return .residency ts (← natAt v "id") (← natAt v "lib_id")
      (← enumAt v "type" objTypes objTypeName) (← enumAt v "op" residencyOps residencyOpName)
  | .etwObjectDestroyed => do return .etwObjectDestroyed ts (← natAt v "lib_id")
  | .counters => do
    return .counters ts
      (Model.counterKinds.filterMap fun k => (natAt v (counterKey k)).map fun n => (k, n))
      (natAt v "demoted") (← natAt v "page_ins") (← natAt v "page_outs")
  | .etwDiag => do
    return .etwDiag ts
      (← enumAt v "severity" [false, true] fun b => if b then "error" else "warning")
      (← intAt v "code") (← nameAt v "msg")
  | .targetExiting => do
    return .targetExiting ts (← natAt v "detected_ns") (natAt v "exit_code")
  | .etwStats => do
    let numbers ← statsKeys.mapM (natAt v)
    let unbound ← unboundTypes.mapM fun t => natAt v (unboundKey t)
    return .etwStats ts (← EtwStatsLine.ofNumbers unbound numbers)

/-- The line that the bytes are. -/
def read (bytes : List UInt8) : Option SideLine := do
  let text ← Utf8.decode bytes
  let v ← parse text
  let ts ← natAt v "ts_ns"
  let event ← enumAt v "event" sideEvents SideEvent.name
  ofFields v ts event

end SideLine

/-! ### What is read -/

section Reading

variable {fs : List Member} (hkeys : (fs.map Member.key).Nodup)

include hkeys

theorem intAt_field {k : String} {v : ℤ} (h : intField k v ∈ fs) :
    intAt (.obj (fs.map Member.pair)) k = some v := by
  have hget : get? k.toList (.obj (fs.map Member.pair)) = some (.ofInt v) := get?_member hkeys h
  rw [intAt, hget]
  exact toInt?_ofInt v

theorem wstrAt_field {k : String} {v : WString} (h : wstrField k v ∈ fs) :
    nameAt (.obj (fs.map Member.pair)) k = some (shownText v) := by
  have hget : get? k.toList (.obj (fs.map Member.pair)) = some (.str (v.map Utf16.unit)) :=
    get?_member hkeys h
  rw [nameAt, strAt, hget]
  rfl

/-- A field that may be missing. -/
theorem optAt_field {k : String} {v : Option ℕ} (gs hs : List Member)
    (h : fs = gs ++ optField k v ++ hs) (hother : ∀ f ∈ gs ++ hs, f.key ≠ k.toList) :
    natAt (.obj (fs.map Member.pair)) k = v := by
  cases v with
  | none =>
    refine natAt_none fun f hf => hother f ?_
    simpa [h, optField] using hf
  | some v => exact natAt_field hkeys (by simp [h, optField])

/-- Numbers under their keys. -/
theorem mapM_natAt (xs : List (String × ℕ)) (h : ∀ f ∈ natFields xs, f ∈ fs) :
    (xs.map Prod.fst).mapM (natAt (.obj (fs.map Member.pair))) = some (xs.map Prod.snd) := by
  induction xs with
  | nil => rfl
  | cons x xs ih =>
    have hx : natAt (.obj (fs.map Member.pair)) x.1 = some x.2 :=
      natAt_field hkeys (h _ List.mem_cons_self)
    rw [List.map_cons, List.map_cons, List.mapM_cons, hx,
      ih fun f hf => h f (List.mem_cons_of_mem _ hf)]
    rfl

end Reading

/-- What is there of a list of keys, in their order. -/
theorem filterMap_of_sublist {α β : Type} {ks : List α} (hks : ks.Nodup) {xs : List (α × β)}
    (h : (xs.map Prod.fst).Sublist ks) {f : α → Option β} (hsome : ∀ x ∈ xs, f x.1 = some x.2)
    (hnone : ∀ k ∈ ks, k ∉ xs.map Prod.fst → f k = none) :
    (ks.filterMap fun k => (f k).map fun b => (k, b)) = xs := by
  induction ks generalizing xs with
  | nil =>
    rw [List.sublist_nil, List.map_eq_nil_iff] at h
    rw [h]
    rfl
  | cons k ks ih =>
    obtain ⟨hk, hrest⟩ := List.nodup_cons.mp hks
    rcases List.sublist_cons_iff.mp h with hskip | ⟨ys, hys, hsub⟩
    · have hf : f k = none := hnone k List.mem_cons_self fun hmem => hk (hskip.mem hmem)
      rw [List.filterMap_cons, hf, Option.map_none]
      exact ih hrest hskip hsome fun k' hk' => hnone k' (List.mem_cons_of_mem k hk')
    · cases xs with
      | nil => cases hys
      | cons x xs =>
        obtain ⟨rfl, rfl⟩ := List.cons.inj hys
        rw [List.filterMap_cons, hsome x List.mem_cons_self, Option.map_some]
        refine congrArg _ (ih hrest hsub (fun y hy => hsome y (List.mem_cons_of_mem _ hy))
          fun k' hk' hmem => hnone k' (List.mem_cons_of_mem _ hk') ?_)
        rw [List.map_cons, List.mem_cons, not_or]
        exact ⟨fun heq => hk (heq ▸ hk'), hmem⟩

/-! ### Every line is read back -/

namespace SideLine

/-- The names tell the kinds apart. -/
theorem objTypeName_inj : ∀ t ∈ objTypes, ∀ t' ∈ objTypes,
    objTypeName t = objTypeName t' → t = t' := by decide

theorem objType_mem (t : ObjType) : t ∈ objTypes := by cases t <;> decide

/-- The names tell the groups apart. -/
theorem locName_inj : ∀ g ∈ memLocs, ∀ g' ∈ memLocs, locName g = locName g' → g = g' := by decide

theorem memLoc_mem (g : MemLoc) : g ∈ memLocs := by cases g <;> decide

/-- The names tell the operations apart. -/
theorem residencyOpName_inj : ∀ op ∈ residencyOps, ∀ op' ∈ residencyOps,
    residencyOpName op = residencyOpName op' → op = op' := by decide

theorem residencyOp_mem (op : ResidencyOp) : op ∈ residencyOps := by cases op <;> decide

/-- The names tell the lines apart. -/
theorem name_inj : ∀ e ∈ sideEvents, ∀ e' ∈ sideEvents, e.name = e'.name → e = e' := by decide

theorem sideEvent_mem (e : SideEvent) : e ∈ sideEvents := by cases e <;> decide

/-- The object. -/
def value (l : SideLine) : Json := .obj (l.fields.map Member.pair)

/-- The keys tell the counters apart. -/
theorem counterKey_inj : ∀ k ∈ Model.counterKinds, ∀ k' ∈ Model.counterKinds,
    counterKey k = counterKey k' → k = k' := by decide

theorem counterKind_mem (k : CounterKind) : k ∈ Model.counterKinds := by cases k <;> decide

/-- The keys of the `counters` line. -/
theorem key_counters {ts : ℕ} {values : List (CounterKind × ℕ)} {demoted : Option ℕ}
    {pageIns pageOuts : ℕ} {f : Member}
    (hf : f ∈ fields (.counters ts values demoted pageIns pageOuts)) :
    (∃ x ∈ values, f.key = (counterKey x.1).toList) ∨
      f.key ∈ ["event", "ts_ns", "demoted", "page_ins", "page_outs"].map String.toList := by
  simp only [fields, payload, natFields, optField, List.mem_append, List.mem_cons, List.mem_map,
    Option.mem_toList, Option.map_eq_some_iff, List.not_mem_nil, or_false] at hf
  rcases hf with rfl | rfl | (⟨y, ⟨x, hx, rfl⟩, rfl⟩ | ⟨n, -, rfl⟩) | rfl | rfl
  · exact Or.inr (by simp [event, SideEvent.name])
  · exact Or.inr (by simp)
  · exact Or.inl ⟨x, hx, rfl⟩
  · exact Or.inr (by simp)
  · exact Or.inr (by simp)
  · exact Or.inr (by simp)

/-! The fields of a line, each read back from its object. -/

section Values

variable {l : SideLine} (h : l.Proper)

include h

/-- A number. -/
theorem natAt_value {k : String} {n : ℕ} (hf : natField k n ∈ l.fields) :
    natAt l.value k = some n := natAt_field (nodup_keys h) hf

theorem intAt_value {k : String} {v : ℤ} (hf : intField k v ∈ l.fields) :
    intAt l.value k = some v := intAt_field (nodup_keys h) hf

/-- A pointer. -/
theorem hexAt_value {k : String} {n : ℕ} (hf : hexField k n ∈ l.fields) :
    hexAt l.value k = some n := hexAt_field (nodup_keys h) hf

/-- A text, as it is shown. -/
theorem wstrAt_value {k : String} {v : WString} (hf : wstrField k v ∈ l.fields) :
    nameAt l.value k = some (shownText v) := wstrAt_field (nodup_keys h) hf

/-- A kind of object. -/
theorem typeAt_value {t : ObjType} (hf : strField "type" (objTypeName t) ∈ l.fields) :
    enumAt l.value "type" objTypes objTypeName = some t :=
  enumAt_field (nodup_keys h) objTypeName_inj (objType_mem t) hf

/-- A memory group. -/
theorem groupAt_value {g : MemLoc} (hf : strField "group" (locName g) ∈ l.fields) :
    enumAt l.value "group" memLocs locName = some g :=
  enumAt_field (nodup_keys h) locName_inj (memLoc_mem g) hf

/-- A field with one of two texts. -/
theorem flagAt_value {k : String} {g : Bool → String} (hg : g false ≠ g true) {b : Bool}
    (hf : strField k (g b) ∈ l.fields) : enumAt l.value k [false, true] g = some b := by
  refine enumAt_field (nodup_keys h) ?_ (by cases b <;> simp) hf
  intro a _ b _ heq
  cases a <;> cases b <;> first | rfl | exact absurd heq hg | exact absurd heq.symm hg

end Values

/-- The object of the line gives the line back. -/
def ReadsBack (l : SideLine) : Prop := ofFields l.value l.tsNs l.event = some l.shown

theorem readsBack_etwHello (ts pid qpcFreq qpcStart : ℕ) (session : WString)
    (rundownIntervalMs : ℕ) (mainLog : WString) :
    (etwHello ts pid qpcFreq qpcStart session rundownIntervalMs mainLog).ReadsBack := by
  have hl : (etwHello ts pid qpcFreq qpcStart session rundownIntervalMs mainLog).Proper := trivial
  have hpid := natAt_value hl (k := "pid") (n := pid) (by simp [fields, payload])
  have hfreq := natAt_value hl (k := "qpc_freq") (n := qpcFreq) (by simp [fields, payload])
  have hstart := natAt_value hl (k := "qpc_start") (n := qpcStart) (by simp [fields, payload])
  have hsession := wstrAt_value hl (k := "session") (v := session) (by simp [fields, payload])
  have hms := natAt_value hl (k := "rundown_interval_ms") (n := rundownIntervalMs)
    (by simp [fields, payload])
  have hlog := wstrAt_value hl (k := "main_log") (v := mainLog) (by simp [fields, payload])
  simp only [ReadsBack, event, tsNs, ofFields, hpid, hfreq, hstart, hsession, hms, hlog]
  rfl

theorem readsBack_etwObject (ts libId : ℕ) (type : ObjType) (ptr size : ℕ) (group : MemLoc) :
    (etwObject ts libId type ptr size group).ReadsBack := by
  have hl : (etwObject ts libId type ptr size group).Proper := trivial
  have hlib := natAt_value hl (k := "lib_id") (n := libId) (by simp [fields, payload])
  have htype := typeAt_value hl (t := type) (by simp [fields, payload])
  have hptr := hexAt_value hl (k := "ptr") (n := ptr) (by simp [fields, payload])
  have hsize := natAt_value hl (k := "size") (n := size) (by simp [fields, payload])
  have hgroup := groupAt_value hl (g := group) (by simp [fields, payload])
  simp only [ReadsBack, event, tsNs, ofFields, hlib, htype, hptr, hsize, hgroup]
  rfl

/-- `late` is there or it is not. -/
theorem late_etwBind (ts id libId : ℕ) (type : ObjType) (ptr : ℕ) (late : Bool) :
    ((etwBind ts id libId type ptr late).value.get? "late".toList).isSome = late := by
  cases late with
  | true =>
    have hl : (etwBind ts id libId type ptr true).Proper := trivial
    have hget := get?_member (nodup_keys hl) (f := lateField) (by simp [fields, payload])
    exact congrArg Option.isSome hget
  | false =>
    have hall : ∀ k ∈ (fields (.etwBind ts id libId type ptr false)).map Member.key,
        k ≠ "late".toList := by
      simp only [fields, payload, Bool.false_eq_true, if_false, List.append_nil, List.map_cons,
        List.map_nil, key_strField, key_natField, key_hexField]
      decide
    exact congrArg Option.isSome (get?_none fun f hf => hall f.key (List.mem_map_of_mem hf))

theorem readsBack_etwBind (ts id libId : ℕ) (type : ObjType) (ptr : ℕ) (late : Bool) :
    (etwBind ts id libId type ptr late).ReadsBack := by
  have hl : (etwBind ts id libId type ptr late).Proper := trivial
  have hid := natAt_value hl (k := "id") (n := id) (by simp [fields, payload])
  have hlib := natAt_value hl (k := "lib_id") (n := libId) (by simp [fields, payload])
  have htype := typeAt_value hl (t := type) (by simp [fields, payload])
  have hptr := hexAt_value hl (k := "ptr") (n := ptr) (by simp [fields, payload])
  have hlate := late_etwBind ts id libId type ptr late
  simp only [ReadsBack, event, tsNs, ofFields, hid, hlib, htype, hptr, hlate]
  rfl

theorem readsBack_location (ts id : ℕ) (group : MemLoc) (viaHeap : Bool) :
    (location ts id group viaHeap).ReadsBack := by
  have hl : (location ts id group viaHeap).Proper := trivial
  have hid := natAt_value hl (k := "id") (n := id) (by simp [fields, payload])
  have hgroup := groupAt_value hl (g := group) (by simp [fields, payload])
  have hvia := flagAt_value hl (k := "via") (g := fun b => if b then "heap" else "self")
    (by decide) (b := viaHeap) (by simp [fields, payload])
  simp only [ReadsBack, event, tsNs, ofFields, hid, hgroup, hvia]
  rfl

theorem readsBack_driverSize (ts id bytes : ℕ) : (driverSize ts id bytes).ReadsBack := by
  have hl : (driverSize ts id bytes).Proper := trivial
  have hid := natAt_value hl (k := "id") (n := id) (by simp [fields, payload])
  have hbytes := natAt_value hl (k := "bytes") (n := bytes) (by simp [fields, payload])
  simp only [ReadsBack, event, tsNs, ofFields, hid, hbytes]
  rfl

theorem readsBack_residency (ts id libId : ℕ) (type : ObjType) (op : ResidencyOp) :
    (residency ts id libId type op).ReadsBack := by
  have hl : (residency ts id libId type op).Proper := trivial
  have hid := natAt_value hl (k := "id") (n := id) (by simp [fields, payload])
  have hlib := natAt_value hl (k := "lib_id") (n := libId) (by simp [fields, payload])
  have htype := typeAt_value hl (t := type) (by simp [fields, payload])
  have hop : enumAt _ "op" residencyOps residencyOpName = some op :=
    enumAt_field (nodup_keys hl) residencyOpName_inj (residencyOp_mem op)
      (by simp [fields, payload])
  rw [← value] at hop
  simp only [ReadsBack, event, tsNs, ofFields, hid, hlib, htype, hop]
  rfl

theorem readsBack_etwObjectDestroyed (ts libId : ℕ) :
    (etwObjectDestroyed ts libId).ReadsBack := by
  have hl : (etwObjectDestroyed ts libId).Proper := trivial
  have hlib := natAt_value hl (k := "lib_id") (n := libId) (by simp [fields, payload])
  simp only [ReadsBack, event, tsNs, ofFields, hlib]
  rfl

section Counters

variable (ts : ℕ) (values : List (CounterKind × ℕ)) (demoted : Option ℕ) (pageIns pageOuts : ℕ)

/-- The number of demoted bytes, if one was seen. -/
theorem demoted_counters (hl : (counters ts values demoted pageIns pageOuts).Proper) :
    natAt (counters ts values demoted pageIns pageOuts).value "demoted" = demoted := by
  refine optAt_field (nodup_keys hl) (strField "event" "counters" :: natField "ts_ns" ts ::
    natFields (values.map fun x => (counterKey x.1, x.2)))
    [natField "page_ins" pageIns, natField "page_outs" pageOuts] rfl fun f hf => ?_
  have hkey : ∀ k : CounterKind, (counterKey k).toList ≠ "demoted".toList := by
    intro k
    cases k <;> decide
  simp only [natFields, List.mem_append, List.mem_cons, List.mem_map, List.not_mem_nil,
    or_false] at hf
  rcases hf with (rfl | rfl | ⟨y, ⟨x, -, rfl⟩, rfl⟩) | rfl | rfl
  · rw [key_strField]
    decide
  · rw [key_natField]
    decide
  · exact hkey x.1
  · rw [key_natField]
    decide
  · rw [key_natField]
    decide

/-- The counters that were seen, in the order of their kinds. -/
theorem values_counters (hl : (counters ts values demoted pageIns pageOuts).Proper) :
    (Model.counterKinds.filterMap fun k =>
      (natAt (counters ts values demoted pageIns pageOuts).value (counterKey k)).map
        fun n => (k, n)) = values := by
  refine filterMap_of_sublist (by decide) hl (fun x hx => natAt_value hl ?_)
    fun k hk hmem => natAt_none fun f hf heq => ?_
  · have hin : natField (counterKey x.1) x.2 ∈
        natFields (values.map fun x => (counterKey x.1, x.2)) :=
      List.mem_map.mpr ⟨_, List.mem_map.mpr ⟨x, hx, rfl⟩, rfl⟩
    simp [fields, payload, hin]
  · -- a kind that was not seen has a key that no field of the line has
    rcases key_counters hf with ⟨x, hx, hkey⟩ | hkey
    · have hname := String.toList_inj.mp (hkey.symm.trans heq)
      have hsame := counterKey_inj x.1 (counterKind_mem x.1) k hk hname
      exact hmem (hsame ▸ List.mem_map_of_mem hx)
    · rw [heq] at hkey
      revert hkey
      cases k <;> decide

/-- The line of the counters, with the keys that are not there. -/
theorem readsBack_counters (hl : (counters ts values demoted pageIns pageOuts).Proper) :
    (counters ts values demoted pageIns pageOuts).ReadsBack := by
  have hins := natAt_value hl (k := "page_ins") (n := pageIns) (by simp [fields, payload])
  have houts := natAt_value hl (k := "page_outs") (n := pageOuts) (by simp [fields, payload])
  have hdemoted := demoted_counters ts values demoted pageIns pageOuts hl
  have hvalues := values_counters ts values demoted pageIns pageOuts hl
  simp only [ReadsBack, event, tsNs, ofFields, hvalues, hdemoted, hins, houts]
  rfl

end Counters

theorem readsBack_etwDiag (ts : ℕ) (error : Bool) (code : ℤ) (msg : WString) :
    (etwDiag ts error code msg).ReadsBack := by
  have hl : (etwDiag ts error code msg).Proper := trivial
  have hseverity := flagAt_value hl (k := "severity")
    (g := fun b => if b then "error" else "warning") (by decide) (b := error)
    (by simp [fields, payload])
  have hcode := intAt_value hl (k := "code") (v := code) (by simp [fields, payload])
  have hmsg := wstrAt_value hl (k := "msg") (v := msg) (by simp [fields, payload])
  simp only [ReadsBack, event, tsNs, ofFields, hseverity, hcode, hmsg]
  rfl

theorem readsBack_targetExiting (ts detectedNs : ℕ) (exitCode : Option ℕ) :
    (targetExiting ts detectedNs exitCode).ReadsBack := by
  have hl : (targetExiting ts detectedNs exitCode).Proper := trivial
  have hdetected := natAt_value hl (k := "detected_ns") (n := detectedNs)
    (by simp [fields, payload])
  have hcode : natAt (targetExiting ts detectedNs exitCode).value "exit_code" = exitCode := by
    refine optAt_field (nodup_keys hl) [strField "event" "target_exiting", natField "ts_ns" ts,
      natField "detected_ns" detectedNs] [] (List.append_nil _).symm ?_
    simp only [List.append_nil, List.forall_mem_cons, key_strField, key_natField]
    decide
  simp only [ReadsBack, event, tsNs, ofFields, hdetected, hcode]
  rfl

/-- The numbers of the last line, under their keys. -/
theorem numbers_etwStats {ts : ℕ} {l : EtwStatsLine} (hl : (etwStats ts l).Proper) :
    statsKeys.mapM (natAt (etwStats ts l).value) = some l.numbers :=
  mapM_natAt (nodup_keys hl) (statsKeys.zip l.numbers) fun f hf => by simp [fields, payload, hf]

/-- The objects that were never bound, by their kind. -/
theorem unbound_etwStats {ts : ℕ} {l : EtwStatsLine} (hl : (etwStats ts l).Proper) :
    (unboundTypes.mapM fun t => natAt (etwStats ts l).value (unboundKey t))
      = some l.unboundByType := by
  have hread := mapM_natAt (nodup_keys hl)
    ((unboundTypes.zip l.unboundByType).map fun x => (unboundKey x.1, x.2))
    fun f hf => by simp [fields, payload, hf]
  rw [map_fst_unbound hl, List.mapM_map, List.map_map] at hread
  change unboundTypes.mapM (natAt (value (.etwStats ts l)) ∘ unboundKey)
    = some ((unboundTypes.zip l.unboundByType).map Prod.snd) at hread
  rwa [List.map_snd_zip (Nat.le_of_eq hl)] at hread

/-- The last line. -/
theorem readsBack_etwStats {ts : ℕ} {l : EtwStatsLine} (hl : (etwStats ts l).Proper) :
    (etwStats ts l).ReadsBack := by
  simp only [ReadsBack, event, tsNs, ofFields, numbers_etwStats hl, unbound_etwStats hl]
  rfl

/-- **The line is read from its object.** -/
theorem ofFields_value {l : SideLine} (h : l.Proper) : l.ReadsBack := by
  cases l with
  | etwHello ts pid qpcFreq qpcStart session rundownIntervalMs mainLog =>
    exact readsBack_etwHello ts pid qpcFreq qpcStart session rundownIntervalMs mainLog
  | etwObject ts libId type ptr size group =>
    exact readsBack_etwObject ts libId type ptr size group
  | etwBind ts id libId type ptr late => exact readsBack_etwBind ts id libId type ptr late
  | location ts id group viaHeap => exact readsBack_location ts id group viaHeap
  | driverSize ts id bytes => exact readsBack_driverSize ts id bytes
  | residency ts id libId type op => exact readsBack_residency ts id libId type op
  | etwObjectDestroyed ts libId => exact readsBack_etwObjectDestroyed ts libId
  | counters ts values demoted pageIns pageOuts =>
    exact readsBack_counters ts values demoted pageIns pageOuts h
  | etwDiag ts error code msg => exact readsBack_etwDiag ts error code msg
  | targetExiting ts detectedNs exitCode => exact readsBack_targetExiting ts detectedNs exitCode
  | etwStats ts l => exact readsBack_etwStats h

end SideLine

/-- **Nothing is lost but halves of pairs.** -/
theorem read_text {toUtf8 : ToUtf8} (h : Converts toUtf8) {l : SideLine} (hl : l.Proper) :
    SideLine.read (l.text toUtf8) = some l.shown := by
  have hkeys := SideLine.nodup_keys hl
  have hparse := parse_of_isText (written_object l.valid_fields).isText
  have hts : natAt l.value "ts_ns" = some l.tsNs := natAt_field hkeys (by simp [SideLine.fields])
  have hevent : enumAt l.value "event" sideEvents SideEvent.name = some l.event :=
    enumAt_field hkeys SideLine.name_inj (SideLine.sideEvent_mem l.event) List.mem_cons_self
  change parse _ = some l.value at hparse
  simp only [SideLine.read, text_eq h, Utf8.decode_encode, hparse, hts, hevent,
    Option.bind_eq_bind, Option.bind_some]
  exact SideLine.ofFields_value hl

/-! ### The whole file -/

/-- The bytes that `fwrite` has been given. -/
def sidecarBytes (toUtf8 : ToUtf8) (ls : List SideLine) : List UInt8 :=
  (ls.map (·.text toUtf8)).flatten

/-- The lines of a file, as far as they are complete. -/
def readSidecar (bytes : List UInt8) : Option (List SideLine) :=
  (LineFile.lines 0x0A bytes).mapM SideLine.read

/-- What is given to `fwrite` are lines. -/
theorem isLine_map_text {toUtf8 : ToUtf8} (h : Converts toUtf8) (ls : List SideLine) :
    ∀ t ∈ ls.map (·.text toUtf8), LineFile.IsLine 0x0A t := by
  intro t ht
  obtain ⟨l, -, rfl⟩ := List.mem_map.mp ht
  exact isLine_text h l

/-- Every one of them is read back. -/
theorem mapM_read {toUtf8 : ToUtf8} (h : Converts toUtf8) {ls : List SideLine}
    (hls : ∀ l ∈ ls, l.Proper) :
    (ls.map (·.text toUtf8)).mapM SideLine.read = some (ls.map SideLine.shown) := by
  induction ls with
  | nil => rfl
  | cons l ls ih =>
    rw [List.map_cons, List.mapM_cons, read_text h (hls l List.mem_cons_self),
      ih fun l' hl' => hls l' (List.mem_cons_of_mem l hl')]
    rfl

/-- **A file that was cut off is read up to the last complete line.** -/
theorem readSidecar_take {toUtf8 : ToUtf8} (h : Converts toUtf8) {ls : List SideLine}
    (hls : ∀ l ∈ ls, l.Proper) (n : ℕ) :
    readSidecar ((sidecarBytes toUtf8 ls).take n)
      = some ((ls.map SideLine.shown).take (((sidecarBytes toUtf8 ls).take n).count 0x0A)) := by
  rw [readSidecar, sidecarBytes, LineFile.lines_take (isLine_map_text h ls), ← List.map_take,
    ← List.map_take]
  exact mapM_read h fun l hl => hls l (List.mem_of_mem_take hl)

/-! ### The lines of a session -/

namespace Model

variable {P : SideLine → Prop} {m n : Model}

/-- All lines so far have a property. -/
def AllLines (P : SideLine → Prop) (m : Model) : Prop := ∀ l ∈ m.sideFile ++ m.sidePrebuf, P l

/-- A call that only appends proper lines. -/
theorem AllLines.writes (h : m.AllLines P) (hw : m.Writes P n) : n.AllLines P := by
  intro l hl
  cases hside : m.side with
  | false =>
    obtain ⟨hfile, hpre⟩ := hw.closed hside
    rw [hfile, hpre] at hl
    exact h l hl
  | true =>
    obtain ⟨ls, hls, hfile, hpre, -⟩ := hw.grown hside
    rw [hfile, hpre] at hl
    have hcases : l ∈ m.sideFile ++ m.sidePrebuf ∨ l ∈ ls := by
      cases m.helloSeen <;> simp at hl ⊢ <;> tauto
    exact hcases.elim (h l) (hls l)

/-- What the lines of every kind have, the first ones, the last ones and the diagnostics too. -/
structure EveryLine (P : SideLine → Prop) : Prop extends BodyLines P where
  etwHello : ∀ ts pid qpcFreq qpcStart session rundownIntervalMs mainLog,
    P (.etwHello ts pid qpcFreq qpcStart session rundownIntervalMs mainLog)
  etwDiag : ∀ ts error code msg, P (.etwDiag ts error code msg)
  etwStats : ∀ ts (e : EtwSnapshot), P (.etwStats ts e.statsLine)

/-- The first line, and what was buffered for it. -/
theorem AllLines.onHello (h : m.AllLines P) (hP : EveryLine P) (ts : ℕ) (p : HelloPayload) :
    (m.onHello ts p).AllLines P := by
  unfold Model.onHello
  dsimp only
  -- a second hello writes nothing
  split
  · intro l hl
    simp only [List.append_nil, List.mem_append, List.mem_singleton] at hl
    rcases hl with (hl | rfl) | hl
    · exact h l (List.mem_append_left _ hl)
    · exact hP.etwHello ..
    · exact h l (List.mem_append_right _ hl)
  · exact h

/-- The last line. -/
theorem AllLines.finishEtw (h : m.AllLines P) (hP : EveryLine P) (env : Env) (st : Stats) :
    (m.finishEtw env st).AllLines P := by
  have hkept : ∀ {n : Model}, n.sideFile = m.sideFile → n.sidePrebuf = m.sidePrebuf →
      n.AllLines P := by
    intro n hfile hpre l hl
    rw [hfile, hpre] at hl
    exact h l hl
  by_cases hopen : m.etwEnabled = true ∧ m.side = true
  · obtain ⟨hfile, -⟩ := closes_finishEtw hopen.1 hopen.2 env st
    have hpre : (m.finishEtw env st).sidePrebuf = [] := by
      unfold Model.finishEtw
      simp [updStats, setSnapshot, refreshJoinStats, hopen.1, hopen.2, closeSide]
    intro l hl
    rw [hfile, hpre, List.append_nil] at hl
    simp only [List.mem_append, List.mem_singleton] at hl
    have hold : ∀ {c : Prop} [Decidable c], l ∈ (if c then m.sidePrebuf else []) ∨
        l ∈ (if c then [] else m.sidePrebuf) → P l := by
      intro c _ hl
      refine h l (List.mem_append_right _ ?_)
      split at hl <;> simpa using hl
    rcases hl with ((hl | hl) | rfl) | hl
    · exact h l (List.mem_append_left _ hl)
    · exact hold (Or.inr hl)
    · exact hP.etwStats _ _
    · exact hold (Or.inl hl)
  · unfold Model.finishEtw
    dsimp only
    split
    · exact hkept rfl rfl
    · next hetw =>
      split
      · next hside =>
        simp only [updStats, setSnapshot, refreshJoinStats] at hetw hside
        exact absurd ⟨by simpa using hetw, hside⟩ hopen
      · exact hkept rfl rfl

/-- **Every call keeps the property.** -/
theorem AllLines.step (h : m.AllLines P) (hP : EveryLine P) (x : Step) : (m.step x).AllLines P := by
  cases hx : x.turnsSide with
  | false => exact h.writes (writes_step hP.toBodyLines m hx fun _ _ _ _ _ _ => hP.etwDiag ..)
  | true =>
    cases x with
    | event ts r =>
      cases r with
      | hello p =>
        have hlatest : (m.setLatestNs ts).AllLines P := h
        exact hlatest.onHello hP ts p
      | _ => cases hx
    | finish env st => exact h.finishEtw hP env st
    | setChildProcess => exact h
    | _ => cases hx

end Model

namespace Session

variable {P : SideLine → Prop}

/-- The steps of the main thread. -/
theorem allLines_mainStep {s : Session} (h : s.model.AllLines P) (hP : Model.EveryLine P)
    (i : Input) : (s.mainStep i).model.AllLines P := by
  have hcall : ∀ (x : Step) (pc : MainPc), (s.call x pc).model.AllLines P := fun x _ => h.step hP x
  unfold mainStep
  split
  · exact hcall _ _
  · split
    · exact h
    · -- a sidecar that was opened in vain is empty again
      intro l hl
      have hfile : l ∈ if s.model.side then [] else s.model.sideFile := by
        simpa [Model.disableEtw] using hl
      split at hfile
      · cases hfile
      · exact h l (List.mem_append_left _ hfile)
  · exact hcall _ _
  · exact h
  · exact h
  · split
    · exact hcall _ _
    · exact h
  · split
    · exact h
    · split
      · exact hcall _ _
      · exact h
  · dsimp only
    split
    · exact hcall _ _
    · exact h
  · exact hcall _ _
  · split <;> exact h
  · split <;> exact h
  · exact hcall _ _
  · exact h

/-- **One step of a session**, of whichever thread. -/
theorem allLines_step {s : Session} (h : s.model.AllLines P) (hP : Model.EveryLine P)
    (a : SessionAct) : (s.step a).model.AllLines P := by
  cases a with
  | main i => exact allLines_mainStep h hP i
  | record ts r =>
    simp only [step]
    split
    · exact h.step hP _
    · exact h
  | sink x =>
    simp only [step]
    split
    · exact h.step hP _
    · exact h
  | readerEnds => exact h
  | consumerEnds => exact h
  | targetEnds => exact h

/-- **Every line of a session is proper.** -/
theorem allLines_run (hP : Model.EveryLine P) (etw : Option EtwOptions) (xs : List SessionAct) :
    (run etw xs).model.AllLines P := by
  induction xs using List.reverseRecOn with
  | nil => cases etw <;> exact List.forall_mem_nil _
  | append_singleton xs a ih =>
    rw [run, Machine.run_concat]
    exact allLines_step ih hP a

end Session

/-- The lines that the model makes. -/
theorem everyLine_proper : Model.EveryLine SideLine.Proper where
  etwObject _ _ _ _ _ _ := trivial
  etwBind _ _ _ _ _ _ := trivial
  location _ _ _ _ := trivial
  driverSize _ _ _ := trivial
  residency _ _ _ _ _ := trivial
  etwObjectDestroyed _ _ := trivial
  counters m ts := by
    show (List.map Prod.fst (List.map _ (Model.counterKinds.filter _))).Sublist Model.counterKinds
    rw [List.map_map]
    exact (List.map_id _).symm ▸ List.filter_sublist
  targetExiting _ _ _ := trivial
  etwHello _ _ _ _ _ _ _ := trivial
  etwDiag _ _ _ _ := trivial
  etwStats _ _ := List.length_map _

namespace Session

/-- **The sidecar of a session can be read.**  Wherever the file is cut off, its complete lines are
read, and they are the lines that the model has written, in their order; nothing of a line is lost
but the halves of pairs in its strings.  The whole file has all of them. -/
theorem sidecar_readable {toUtf8 : ToUtf8} (h : Converts toUtf8) (etw : Option EtwOptions)
    (xs : List SessionAct) (n : ℕ) :
    let ls := (run etw xs).model.sideFile
    let bytes := sidecarBytes toUtf8 ls
    readSidecar (bytes.take n) = some ((ls.map SideLine.shown).take ((bytes.take n).count 0x0A)) ∧
      bytes.count 0x0A = ls.length := by
  have hproper : ∀ l ∈ (run etw xs).model.sideFile, l.Proper := fun l hl =>
    allLines_run everyLine_proper etw xs l (List.mem_append_left _ hl)
  refine ⟨readSidecar_take h hproper n, ?_⟩
  rw [sidecarBytes, ← LineFile.length_lines, LineFile.lines_flatten (isLine_map_text h _),
    List.length_map]

/-- The sidecar of a short session, cut off in its second line. -/
theorem sidecar_readable_shortSession :
    let ls := (run (some ⟨true, [0x64, 0xD83D], [], 0⟩) shortSession).model.sideFile
    let bytes := sidecarBytes convert ls
    readSidecar (bytes.take 250)
        = some ((ls.map SideLine.shown).take ((bytes.take 250).count 0x0A)) ∧
      bytes.count 0x0A = ls.length :=
  sidecar_readable converts_convert _ _ _

end Session

end Dx12Track
