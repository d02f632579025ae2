import Mathlib.Data.List.Chain
import Dx12Track.Dll.Naming
import Dx12Track.Lib.Memory

/-!
# Debug names

`ID3D12Object::SetName` and two GUIDs of `SetPrivateData` set the debug name of an
object.  `src/dll/ObjectHooks.cpp` hooks both functions, and the real `SetName` calls
the hooked `SetPrivateData`.  What the `renamed` records of an object say is compared
with its debug name, after every sequence of calls on one thread.

* `extractDebugName` — the name that `SetPrivateData` carries.
* `hookSetPrivateData`, `hookSetName` — the hooks.
* `NameCall`, `named` — sequences of calls, with the records they send.
* `hookSetName_eq` — the nested call changes nothing.
* `Mirrors`, `Told` — the records show the debug name; the call can be shown.
* `mirrors_iff` — **they do after every call exactly if every call can be shown**.
-/

namespace Dx12Track

open Tracker (emitRenamed)
open Naming (unnamed nameA)

/-- The text up to its first NUL. -/
def upToNul (s : WString) : CWString :=
  ⟨s.takeWhile (· ≠ 0), fun _ hc => by simpa using List.mem_takeWhile_imp hc⟩

/-- The GUID of a `SetPrivateData`. -/
inductive DataGuid
  /-- `WKPDID_D3DDebugObjectNameW`. -/
  | debugObjectNameW
  /-- `WKPDID_D3DDebugObjectName`. -/
  | debugObjectName
  | other
  deriving DecidableEq

/-- The code units of a buffer; an odd byte at its end is none. -/
def codeUnits (data : List UInt8) : WString :=
  (Memory.ofUnits 2 (data.length / 2) data).map UInt16.ofNat

/-- `ExtractDebugName`, where `data` are the `DataSize` bytes at `pData` and `acp` is
`MultiByteToWideChar(CP_ACP, …)` on bytes without a NUL. -/
def extractDebugName (acp : List UInt8 → CWString) (guid : DataGuid) (data : Option (List UInt8)) :
    CWString :=
  match data with
  | none | some [] => upToNul []
  | some data =>
    match guid with
    | .debugObjectNameW => upToNul (codeUnits data)
    | .debugObjectName =>
      let a := data.takeWhile (· ≠ 0)
      if a = [] then upToNul [] else acp a
    | .other => upToNul []

/-- What the hooks call. -/
structure RealNames where
  acp : List UInt8 → CWString
  /-- What the real `SetName` passes on to `SetPrivateData(WKPDID_D3DDebugObjectNameW)`. -/
  forward : Option CWString → Option (List UInt8)
  /-- It passes on the name, with or without its terminator. -/
  forwards : ∀ name, (extractDebugName acp .debugObjectNameW (forward name)).1
    = (name.map Subtype.val).getD []

variable (real : RealNames)

/-- `Hook_SetPrivateData`, when the real function succeeds. -/
def hookSetPrivateData (t : Tracker) (self : ℕ) (guid : DataGuid) (data : Option (List UInt8)) :
    Tracker × List Record :=
  let name := extractDebugName real.acp guid data
  if name.1 = [] then (t, []) else t.onSetName self (some name)

/-- `Hook_SetName`, when the real function succeeds: that calls the other hook. -/
def hookSetName (t : Tracker) (self : ℕ) (name : Option CWString) : Tracker × List Record :=
  let nested := hookSetPrivateData real t self .debugObjectNameW (real.forward name)
  let outer := nested.1.onSetName self name
  (outer.1, nested.2 ++ outer.2)

/-- A successful call on the object. -/
inductive NameCall
  | setName (name : Option CWString)
  | setPrivateData (guid : DataGuid) (data : Option (List UInt8))

/-- One call, with the records it sends. -/
def nameStep (self : ℕ) (s : Tracker.Traced) : NameCall → Tracker.Traced
  | .setName name => ((hookSetName real s.1 self name).1, s.2 ++ (hookSetName real s.1 self name).2)
  | .setPrivateData guid data =>
    ((hookSetPrivateData real s.1 self guid data).1,
      s.2 ++ (hookSetPrivateData real s.1 self guid data).2)

/-- The calls, beginning with the table of `t`. -/
def named (t : Tracker) (self : ℕ) (calls : List NameCall) : Tracker.Traced :=
  Machine.run (nameStep real self) (t, []) calls

/-! ### The debug name -/

/-- The debug name that the call sets. -/
def NameCall.sets : NameCall → Option CWString
  | .setName name => some (name.getD (upToNul []))
  | .setPrivateData .other _ => none
  | .setPrivateData guid data => some (extractDebugName real.acp guid data)

/-- The debug name of the object, which has none in the beginning. -/
def debugName (calls : List NameCall) : CWString :=
  calls.foldl (fun name c => (c.sets real).getD name) (upToNul [])

/-- The names of the `renamed` records of an object. -/
def shownNames (es : List Record) (id : ℕ) : List WString :=
  es.filterMap fun r =>
    match r with
    | .renamed p => if p.id = id then some p.name.read else none
    | _ => none

/-- The records show the debug name: the last of them is it, as far as the field holds it, and no
name is shown twice in a row. -/
structure Mirrors (shown : List WString) (name : WString) : Prop where
  last : shown.getLast?.getD [] = name.take (kMaxNameChars - 1)
  collapsed : shown.IsChain (· ≠ ·)

/-- The call can be shown when the debug name is `name`: `SetPrivateData` does not clear it, and
a new name differs where the record shows it. -/
def Told (name : WString) (c : NameCall) : Prop :=
  match c.sets real with
  | none => True
  | some new => (∀ guid data, c = .setPrivateData guid data → new.1 = [] → name = []) ∧
      (new.1.take (kMaxNameChars - 1) = name.take (kMaxNameChars - 1) → new.1 = name)

variable {real}

/-! ### The hooks -/

/-- What reaches `OnSetName`. -/
theorem hookSetPrivateData_of_ne {t : Tracker} {self : ℕ} {guid : DataGuid}
    {data : Option (List UInt8)} (h : (extractDebugName real.acp guid data).1 ≠ []) :
    hookSetPrivateData real t self guid data
      = t.onSetName self (some (extractDebugName real.acp guid data)) := if_neg h

theorem hookSetPrivateData_of_eq {t : Tracker} {self : ℕ} {guid : DataGuid}
    {data : Option (List UInt8)} (h : (extractDebugName real.acp guid data).1 = []) :
    hookSetPrivateData real t self guid data = (t, []) := if_pos h

/-- A name that is in the table already is not stored again. -/
theorem onSetName_same {t : Tracker} {self : ℕ} {info : ObjectInfo}
    (hinfo : t.objects.lookup self = some info) (name : Option CWString)
    (hname : info.name = (name.map Subtype.val).getD []) : t.onSetName self name = (t, []) := by
  unfold Tracker.onSetName
  simp only [hinfo, hname, if_true]

theorem onSetName_new {t : Tracker} {self : ℕ} {info : ObjectInfo}
    (hinfo : t.objects.lookup self = some info) (name : Option CWString)
    (hname : info.name ≠ (name.map Subtype.val).getD []) :
    t.onSetName self name
      = (t.put self { info with name := (name.map Subtype.val).getD [] },
        [emitRenamed info.id ((name.map Subtype.val).getD [])]) := by
  unfold Tracker.onSetName
  simp only [hinfo, if_neg hname]

theorem onSetName_getD (t : Tracker) (self : ℕ) (name : Option CWString) :
    t.onSetName self name = t.onSetName self (some (name.getD (upToNul []))) := by
  cases name <;> rfl

/-- **The nested call changes nothing**: a `SetName` is one `OnSetName`. -/
theorem hookSetName_eq {t : Tracker} {self : ℕ} {info : ObjectInfo}
    (hinfo : t.objects.lookup self = some info) (name : Option CWString) :
    hookSetName real t self name = t.onSetName self name := by
  have hforward := real.forwards name
  unfold hookSetName
  by_cases hempty : (name.map Subtype.val).getD [] = []
  · rw [hookSetPrivateData_of_eq (hforward.trans hempty)]
    rfl
  · have hne : (extractDebugName real.acp .debugObjectNameW (real.forward name)).1 ≠ [] := by
      rw [hforward]
      exact hempty
    have hnested : hookSetPrivateData real t self .debugObjectNameW (real.forward name)
        = t.onSetName self name := by
      rw [hookSetPrivateData_of_ne hne]
      unfold Tracker.onSetName
      simp only [Option.map_some, Option.getD_some, hforward]
    rw [hnested]
    -- the outer call finds the name that the nested one has stored
    have hstored : ∃ info', (t.onSetName self name).1.objects.lookup self = some info' ∧
        info'.name = (name.map Subtype.val).getD [] := by
      by_cases hname : info.name = (name.map Subtype.val).getD []
      · rw [onSetName_same hinfo name hname]
        exact ⟨info, hinfo, hname⟩
      · rw [onSetName_new hinfo name hname]
        exact ⟨_, Finmap.lookup_insert _, rfl⟩
    obtain ⟨info', hinfo', hname'⟩ := hstored
    dsimp only
    rw [onSetName_same hinfo' name hname', List.append_nil]

/-! ### One call -/

/-- The names shown after one more is stored over `name`. -/
def storeShown (shown : List WString) (name new : WString) : List WString :=
  if name = new then shown else shown ++ [new.take (kMaxNameChars - 1)]

/-- A name of no characters is shown as one. -/
theorem eq_nil_of_take {name : WString} (h : name.take (kMaxNameChars - 1) = []) : name = [] := by
  rcases List.take_eq_nil_iff.mp h with h | h
  · cases h
  · exact h

/-- **A stored name is shown** if it differs from the one before where a record shows it. -/
theorem mirrors_storeShown {shown : List WString} {name : WString} (h : Mirrors shown name)
    (new : WString) :
    Mirrors (storeShown shown name new) new ↔
      (new.take (kMaxNameChars - 1) = name.take (kMaxNameChars - 1) → new = name) := by
  unfold storeShown
  by_cases hsame : name = new
  · rw [if_pos hsame]
    subst hsame
    exact iff_of_true h fun _ => rfl
  · rw [if_neg hsame]
    constructor
    · intro hm htake
      exfalso
      cases hlast : shown.getLast? with
      | none =>
        -- nothing was shown, so both names are empty
        have hname := h.last
        rw [hlast] at hname
        have hnil : name = [] := eq_nil_of_take hname.symm
        have hnew : new = [] := eq_nil_of_take (htake.trans hname.symm)
        exact hsame (hnil.trans hnew.symm)
      | some x =>
        have hx : x = name.take (kMaxNameChars - 1) := by
          have hname := h.last
          rwa [hlast] at hname
        have hne := (List.isChain_append.mp hm.collapsed).2.2 x hlast _ rfl
        exact hne (hx.trans htake.symm)
    · intro hdiff
      constructor
      · simp
      · refine List.isChain_append.mpr ⟨h.collapsed, List.isChain_singleton _, ?_⟩
        intro x hx y hy
        have hname := h.last
        rw [hx] at hname
        cases hy
        rw [show x = name.take (kMaxNameChars - 1) from hname]
        exact fun heq => hsame (hdiff heq.symm).symm

/-- What holds after calls that can all be shown: the table has the debug name, and it is shown. -/
structure InMirror (obj id : ℕ) (s : Tracker.Traced) (name : CWString) : Prop where
  entry : ∃ info, s.1.objects.lookup obj = some info ∧ info.id = id ∧ info.name = name.1
  mirrors : Mirrors (shownNames s.2 id) name.1

theorem read_emitRenamed (name : CWString) :
    (nameBuf name.1).read = name.1.take (kMaxNameChars - 1) := by
  unfold nameBuf
  rw [take_wcsnlen_of_nulFree name.2, read_copy_take name.2]

/-- The records after `OnSetName`. -/
theorem shownNames_onSetName {obj id : ℕ} {s : Tracker.Traced} {info : ObjectInfo}
    (hinfo : s.1.objects.lookup obj = some info) (hid : info.id = id) (new : CWString) :
    shownNames (s.2 ++ (s.1.onSetName obj (some new)).2) id
      = storeShown (shownNames s.2 id) info.name new.1 := by
  unfold storeShown
  by_cases hsame : info.name = new.1
  · rw [onSetName_same hinfo (some new) hsame, if_pos hsame, List.append_nil]
  · rw [onSetName_new hinfo (some new) hsame, if_neg hsame]
    unfold shownNames
    rw [List.filterMap_append, ← read_emitRenamed new]
    congr 1
    show List.filterMap _ [Record.renamed ⟨info.id, nameBuf new.1⟩] = _
    simp [hid]

/-- The entry after `OnSetName`. -/
theorem entry_onSetName {obj id : ℕ} {t : Tracker} {info : ObjectInfo}
    (hinfo : t.objects.lookup obj = some info) (hid : info.id = id) (new : CWString) :
    ∃ info', (t.onSetName obj (some new)).1.objects.lookup obj = some info' ∧ info'.id = id ∧
      info'.name = new.1 := by
  by_cases hsame : info.name = new.1
  · rw [onSetName_same hinfo (some new) hsame]
    exact ⟨info, hinfo, hid, hsame⟩
  · rw [onSetName_new hinfo (some new) hsame]
    exact ⟨_, Finmap.lookup_insert _, hid, rfl⟩

/-- A call that stores the name it sets. -/
theorem inMirror_store {obj id : ℕ} {s : Tracker.Traced} {name : CWString}
    (h : InMirror obj id s name) {c : NameCall} {new : CWString} (hsets : c.sets real = some new)
    (hstep : nameStep real obj s c = ((s.1.onSetName obj (some new)).1,
      s.2 ++ (s.1.onSetName obj (some new)).2))
    (hkeeps : ∀ guid data, c = .setPrivateData guid data → new.1 = [] → name.1 = []) :
    (Mirrors (shownNames (nameStep real obj s c).2 id) ((c.sets real).getD name).1 ↔
        Told real name.1 c) ∧
      (Told real name.1 c → InMirror obj id (nameStep real obj s c) ((c.sets real).getD name)) := by
  obtain ⟨info, hinfo, hid, hname⟩ := h.entry
  have hshown : shownNames (nameStep real obj s c).2 id
      = storeShown (shownNames s.2 id) name.1 new.1 := by
    rw [hstep, ← hname]
    exact shownNames_onSetName hinfo hid new
  have hiff : Mirrors (shownNames (nameStep real obj s c).2 id) new.1 ↔ Told real name.1 c := by
    rw [hshown, mirrors_storeShown h.mirrors]
    unfold Told
    rw [hsets]
    exact (and_iff_right hkeeps).symm
  rw [hsets, Option.getD_some]
  refine ⟨hiff, fun htold => ⟨?_, hiff.mpr htold⟩⟩
  rw [hstep]
  exact entry_onSetName hinfo hid new

/-- A call that clears the name, of which the tracker does not hear. -/
theorem inMirror_clear {obj id : ℕ} {s : Tracker.Traced} {name : CWString}
    (h : InMirror obj id s name) {c : NameCall} {new : CWString} (hsets : c.sets real = some new)
    (hempty : new.1 = []) (hstep : nameStep real obj s c = s)
    (hdata : ∃ guid data, c = .setPrivateData guid data) :
    (Mirrors (shownNames (nameStep real obj s c).2 id) ((c.sets real).getD name).1 ↔
        Told real name.1 c) ∧
      (Told real name.1 c → InMirror obj id (nameStep real obj s c) ((c.sets real).getD name)) := by
  have htold : Told real name.1 c ↔ name.1 = [] := by
    unfold Told
    rw [hsets]
    constructor
    · obtain ⟨guid, data, hc⟩ := hdata
      exact fun hkeeps => hkeeps.1 guid data hc hempty
    · intro hname
      exact ⟨fun _ _ _ _ => hname, fun _ => hempty.trans hname.symm⟩
  rw [hstep, hsets, Option.getD_some, htold]
  refine ⟨⟨fun hm => ?_, fun hname => ?_⟩, fun hname => ?_⟩
  · apply eq_nil_of_take
    rw [← h.mirrors.last, hm.last, hempty, List.take_nil]
  · rw [hempty, ← hname]
    exact h.mirrors
  · have hsame : new = name := Subtype.ext (hempty.trans hname.symm)
    rw [hsame]
    exact h

/-- **One call**: its record shows the debug name exactly if the call can be shown. -/
theorem inMirror_step {obj id : ℕ} {s : Tracker.Traced} {name : CWString}
    (h : InMirror obj id s name) (c : NameCall) :
    (Mirrors (shownNames (nameStep real obj s c).2 id) ((c.sets real).getD name).1 ↔
        Told real name.1 c) ∧
      (Told real name.1 c → InMirror obj id (nameStep real obj s c) ((c.sets real).getD name)) := by
  obtain ⟨info, hinfo, -, -⟩ := h.entry
  cases c with
  | setName new =>
    refine inMirror_store (c := .setName new) h rfl ?_ fun _ _ hc => by cases hc
    show ((hookSetName real s.1 obj new).1, s.2 ++ (hookSetName real s.1 obj new).2) = _
    rw [hookSetName_eq hinfo, onSetName_getD]
  | setPrivateData guid data =>
    -- each of the two name GUIDs sets the name, whatever the bytes
    have hsets : guid ≠ .other → (NameCall.setPrivateData guid data).sets real
        = some (extractDebugName real.acp guid data) := by
      cases guid with
      | other => exact fun hne => absurd rfl hne
      | _ => exact fun _ => rfl
    by_cases hempty : (extractDebugName real.acp guid data).1 = []
    · -- nothing reaches the tracker
      have hstep : nameStep real obj s (.setPrivateData guid data) = s := by
        show ((hookSetPrivateData real s.1 obj guid data).1,
          s.2 ++ (hookSetPrivateData real s.1 obj guid data).2) = _
        rw [hookSetPrivateData_of_eq hempty, List.append_nil]
      by_cases hother : guid = .other
      · subst hother
        rw [hstep]
        exact ⟨iff_of_true h.mirrors trivial, fun _ => h⟩
      · exact inMirror_clear h (hsets hother) hempty hstep ⟨guid, data, rfl⟩
    -- data under another GUID gives no name
    · have hother : guid ≠ .other := by
        rintro rfl
        apply hempty
        cases data with
        | none => rfl
        | some bytes => cases bytes <;> rfl
      refine inMirror_store h (hsets hother) ?_ fun _ _ _ hnil => absurd hnil hempty
      show ((hookSetPrivateData real s.1 obj guid data).1,
        s.2 ++ (hookSetPrivateData real s.1 obj guid data).2) = _
      rw [hookSetPrivateData_of_ne hempty]

/-! ### Runs -/

variable (real) in
/-- Every call can be shown when it is made. -/
def AllTold (calls : List NameCall) : Prop :=
  ∀ us c vs, calls = us ++ c :: vs → Told real (debugName real us).1 c

variable (real) in
/-- After every call the records of the object `id` at `obj` show its debug name. -/
def AlwaysMirrors (t : Tracker) (obj id : ℕ) (calls : List NameCall) : Prop :=
  ∀ us, us <+: calls →
    Mirrors (shownNames (named real t obj us).2 id) (debugName real us).1

theorem debugName_concat (us : List NameCall) (c : NameCall) :
    debugName real (us ++ [c]) = (c.sets real).getD (debugName real us) := by
  unfold debugName
  rw [List.foldl_concat]

theorem named_concat (t : Tracker) (obj : ℕ) (us : List NameCall) (c : NameCall) :
    named real t obj (us ++ [c]) = nameStep real obj (named real t obj us) c :=
  Machine.run_concat _ _ us c

theorem AllTold.init {us : List NameCall} {c : NameCall} (h : AllTold real (us ++ [c])) :
    AllTold real us := by
  rintro vs c' ws rfl
  exact h vs c' (ws ++ [c]) (by simp)

section Run

variable {t : Tracker} {obj : ℕ} {info : ObjectInfo} (hinfo : t.objects.lookup obj = some info)
  (hname : info.name = [])

include hinfo hname

/-- **Calls that can all be shown are shown.** -/
theorem inMirror_named {calls : List NameCall} (h : AllTold real calls) :
    InMirror obj info.id (named real t obj calls) (debugName real calls) := by
  induction calls using List.reverseRecOn with
  | nil => exact ⟨⟨info, hinfo, rfl, hname⟩, ⟨rfl, List.isChain_nil⟩⟩
  | append_singleton us c ih =>
    rw [named_concat, debugName_concat]
    exact (inMirror_step (ih h.init) c).2 (h us c [] rfl)

/-- **The records show the debug name after every call exactly if every call can be shown.** -/
theorem mirrors_iff (calls : List NameCall) :
    AlwaysMirrors real t obj info.id calls ↔ AllTold real calls := by
  constructor
  · intro h
    induction calls using List.reverseRecOn with
    | nil =>
      intro us c vs hsplit
      simp at hsplit
    | append_singleton us c ih =>
      have htold : AllTold real us := ih fun vs hvs => h vs (hvs.trans (List.prefix_append us [c]))
      have hlast := h (us ++ [c]) List.prefix_rfl
      rw [named_concat, debugName_concat] at hlast
      have hc := (inMirror_step (inMirror_named hinfo hname htold) c).1.mp hlast
      intro vs c' ws hsplit
      rcases List.eq_nil_or_concat ws with rfl | ⟨ws', x, rfl⟩
      · obtain ⟨rfl, heq⟩ := List.append_inj' hsplit rfl
        cases heq
        exact hc
      · refine htold vs c' ws' ?_
        have hsplit' : us ++ [c] = (vs ++ c' :: ws') ++ [x] := by simpa using hsplit
        exact (List.append_inj' hsplit' rfl).1
  · rintro h us ⟨vs, rfl⟩
    have htold : AllTold real us := by
      rintro ws c zs rfl
      exact h ws c (zs ++ vs) (by simp)
    exact (inMirror_named hinfo hname htold).mirrors

end Run

/-! ### An instance -/

theorem codeUnits_units (s : WString) : codeUnits (Memory.units 2 (s.map UInt16.toNat)) = s := by
  have hlt : ∀ v ∈ s.map UInt16.toNat, v < 256 ^ 2 := by
    intro v hv
    obtain ⟨c, -, rfl⟩ := List.mem_map.mp hv
    exact c.toNat_lt
  have hunits := Memory.ofUnits_units hlt
  rw [List.length_map] at hunits
  unfold codeUnits
  rw [Memory.length_units, List.length_map, Nat.mul_div_cancel_left _ (by decide), hunits,
    List.map_map]
  simp [Function.comp_def]

theorem extractDebugName_wide (acp : List UInt8 → CWString) (data : List UInt8) :
    extractDebugName acp .debugObjectNameW (some data) = upToNul (codeUnits data) := by
  cases data <;> rfl

/-- The real `SetName` passes the terminator on, and the code page is ASCII. -/
def plainNames : RealNames where
  acp a := upToNul (a.map UInt8.toUInt16)
  forward name := name.map fun s => Memory.units 2 ((s.1 ++ [0]).map UInt16.toNat)
  forwards := by
    intro name
    cases name with
    | none => rfl
    | some s =>
      rw [Option.map_some, extractDebugName_wide, codeUnits_units]
      exact takeWhile_append_zeros s.2 1

/-- `SetName("A")`, and then `B` with its terminator under the other GUID. -/
def renamedTwice : List NameCall :=
  [.setName (some nameA), .setPrivateData .debugObjectName (some [66, 0])]

/-- `SetName("A")`, and then the name is cleared. -/
def cleared : List NameCall :=
  [.setName (some nameA), .setPrivateData .debugObjectNameW (some [])]

theorem mirrors_iff_renamedTwice : AlwaysMirrors plainNames unnamed 4096 1 renamedTwice := by
  have hinfo : unnamed.objects.lookup 4096 = some { id := 1 } := rfl
  refine (mirrors_iff hinfo rfl renamedTwice).mpr ?_
  intro us c vs hsplit
  rcases us with _ | ⟨c₁, _ | ⟨c₂, us⟩⟩
  · obtain ⟨rfl, -⟩ := List.cons.inj hsplit
    exact ⟨fun _ _ h => (by cases h), by decide⟩
  · obtain ⟨rfl, hrest⟩ := List.cons.inj hsplit
    obtain ⟨rfl, -⟩ := List.cons.inj hrest
    exact ⟨fun _ _ _ h => absurd h (by decide), by decide⟩
  · simp [renamedTwice] at hsplit

/-- The object has no debug name any more, and the records still show `A`. -/
theorem not_mirrors_cleared :
    ¬∀ (real : RealNames) (t : Tracker) (obj : ℕ) (info : ObjectInfo) (calls : List NameCall),
      t.objects.lookup obj = some info → info.name = [] →
      Mirrors (shownNames (named real t obj calls).2 info.id) (debugName real calls).1 := by
  intro h
  have hlast := (h plainNames unnamed 4096 { id := 1 } cleared rfl rfl).last
  exact absurd hlast (by decide +kernel)

end Dx12Track
