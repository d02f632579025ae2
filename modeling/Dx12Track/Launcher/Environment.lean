import Dx12Track.Lib.StableSort
import Dx12Track.Launcher.Elevation

/-!
# The environment of the target

`ElevatedSession::BuildEnvironment`: the environment of the original launcher, without its
`DX12TRACK_` variables, and with those of this run, as a block in the order of the names.

* `envNameLen`, `buildEnvironment` — the code; `cmp` is `CompareStringOrdinal`, ignoring case.
* `Variable` — a variable of this run.
* `splitEnvBlock_joined` — a block is split into the entries it was joined from.
* `Environment`, `environment_buildEnvironment` — **what the block is**.
* `environment_handed` — the same for the environment that was handed over.
-/

namespace Dx12Track

namespace Handoff

/-- `EnvNameLen`: up to the first `=` that is not the first character. -/
def envNameLen (e : WString) : ℕ :=
  match (e.drop 1).findIdx? (· = 61) with
  | none => e.length
  | some i => i + 1

/-- The name of an entry. -/
def envName (e : WString) : WString := e.take (envNameLen e)

/-- `kPrefix`. -/
def kPrefix : WString := wliteral "DX12TRACK_"

/-- The condition of the `remove_if`. -/
def isTrackVar (cmp : WString → WString → Ordering) (e : WString) : Bool :=
  decide (kPrefix.length ≤ envNameLen e) && cmp (e.take kPrefix.length) kPrefix == .eq

/-- `kv.first + L"=" + kv.second`. -/
def assignment (kv : WString × WString) : WString := kv.1 ++ [61] ++ kv.2

/-- The loop that fills `block`, and what follows it. -/
def joinEnvBlock (entries : List WString) : WString :=
  let block := (entries.flatMap fun e => e ++ [0]) ++ [0]
  if block.length = 1 then block ++ [0] else block

/-- The block that is split; `own` is the result of `GetEnvironmentStringsW`, or `nullptr`. -/
def ElevatedSession.environmentBlock (s : ElevatedSession) (own : Option WString) : WString :=
  if s.originalEnv ≠ [] then s.originalEnv else own.getD []

/-- `BuildEnvironment`. -/
def ElevatedSession.buildEnvironment (cmp : WString → WString → Ordering) (s : ElevatedSession)
    (own : Option WString) (vars : List (WString × WString)) : WString :=
  let entries := splitEnvBlock (s.environmentBlock own)
  let entries := entries.filter fun e => !isTrackVar cmp e
  let entries := entries ++ vars.map assignment
  -- the comparison gets the counts of the two names, which are taken to fit an `int`
  joinEnvBlock (StableSort.sort cmp envName entries)

/-- A variable of this run. -/
structure Variable where
  name : WString
  value : WString
  starts : kPrefix <+: name
  name_nulFree : NulFree name
  value_nulFree : NulFree value

/-- Its entry. -/
def Variable.entry (v : Variable) : WString := v.name ++ [61] ++ v.value

/-- The name begins with `DX12TRACK_` under `cmp`. -/
def NameStarts (cmp : WString → WString → Ordering) (name : WString) : Prop :=
  kPrefix.length ≤ name.length ∧ cmp (name.take kPrefix.length) kPrefix = .eq

instance (cmp : WString → WString → Ordering) (name : WString) : Decidable (NameStarts cmp name) :=
  inferInstanceAs (Decidable (_ ∧ _))

/-! ### Names -/

theorem envNameLen_le (e : WString) : envNameLen e ≤ e.length := by
  unfold envNameLen
  split
  · exact Nat.le_refl _
  · next i hi =>
    have hlt := (List.findIdx?_eq_some_iff_getElem.mp hi).1
    rw [List.length_drop] at hlt
    omega

theorem length_envName (e : WString) : (envName e).length = envNameLen e := by
  rw [envName, List.length_take, Nat.min_eq_left (envNameLen_le e)]

/-- The code looks at the entry, but only as far as its name goes. -/
theorem isTrackVar_iff (cmp : WString → WString → Ordering) (e : WString) :
    isTrackVar cmp e = true ↔ NameStarts cmp (envName e) := by
  unfold isTrackVar NameStarts
  rw [length_envName, Bool.and_eq_true, decide_eq_true_iff, beq_iff_eq]
  refine and_congr_right fun hle => ?_
  rw [envName, List.take_take, Nat.min_eq_left hle]

/-! ### Blocks -/

/-- What a block can have as entries. -/
def IsEntry (e : WString) : Prop := NulFree e ∧ e ≠ []

/-- **A block is split into the entries that were joined.** -/
theorem splitEnvBlock_joined {entries : List WString} (h : ∀ e ∈ entries, IsEntry e) :
    splitEnvBlock (joinEnvBlock entries) = entries := by
  obtain ⟨es, rfl⟩ : ∃ es : List EnvEntry, es.map Subtype.val = entries :=
    ⟨entries.attachWith IsEntry h, List.attachWith_map_subtype_val h⟩
  have hjoin : (es.map Subtype.val).flatMap (fun e => e ++ [0]) = terminated es := by
    rw [List.flatMap_map]
    rfl
  unfold joinEnvBlock
  dsimp only
  rw [hjoin]
  split
  · rw [List.append_assoc]
    exact splitEnvBlock_terminated es _
  · exact splitEnvBlock_terminated es _

/-- What is split off a block is an entry, whatever the block is. -/
theorem isEntry_of_mem_splitEnvBlock (block : WString) : ∀ e ∈ splitEnvBlock block, IsEntry e := by
  induction block using splitEnvBlock.induct with
  | case1 =>
    rw [splitEnvBlock]
    exact fun e he => absurd he List.not_mem_nil
  | case2 s =>
    rw [splitEnvBlock_zero]
    exact fun e he => absurd he List.not_mem_nil
  | case3 c s hc ih =>
    intro e he
    rw [splitEnvBlock, if_neg hc] at he
    rcases List.mem_cons.mp he with rfl | he
    · have hnul : NulFree ((c :: s).takeWhile fun x => decide (x ≠ 0)) := by
        intro x hx
        have hne := List.mem_takeWhile_imp hx
        exact of_decide_eq_true hne
      refine ⟨hnul, ?_⟩
      simp [hc]
    · exact ih e he

/-- **Two NULs end a block**, also one without entries. -/
theorem joinEnvBlock_terminated (entries : List WString) : [0, 0] <:+ joinEnvBlock entries := by
  unfold joinEnvBlock
  dsimp only
  split
  · next hone =>
    have hnil : (entries.flatMap fun e => e ++ [0]) = [] := by
      rw [List.length_append, List.length_singleton] at hone
      exact List.length_eq_zero_iff.mp (by omega)
    rw [hnil]
    exact List.suffix_refl _
  · next hone =>
    rcases List.eq_nil_or_concat entries with rfl | ⟨front, e, rfl⟩
    · exact absurd rfl hone
    · refine ⟨(front.flatMap fun e => e ++ [0]) ++ e, ?_⟩
      simp

theorem Variable.isEntry (v : Variable) : IsEntry v.entry := by
  constructor
  · intro c hc
    unfold Variable.entry at hc
    rcases List.mem_append.mp hc with hc | hc
    · rcases List.mem_append.mp hc with hc | hc
      · exact v.name_nulFree c hc
      · rw [List.mem_singleton.mp hc]
        decide
    · exact v.value_nulFree c hc
  · simp [Variable.entry]

/-! ### The block -/

/-- The block of a target: what is kept of the environment of the original launcher, and the
variables of this run. -/
structure Environment (cmp : WString → WString → Ordering) (original : List WString)
    (vars : List Variable) (block : WString) : Prop where
  terminated : [0, 0] <:+ block
  /-- No entry is lost, added or changed. -/
  perm : (splitEnvBlock block).Perm
    (original.filter (fun e => ¬NameStarts cmp (envName e)) ++ vars.map Variable.entry)
  sorted : (splitEnvBlock block).Pairwise fun a b => (cmp (envName a) (envName b)).isLE = true
  /-- Entries of one name stay in their order. -/
  stable : ∀ name, (splitEnvBlock block).filter (fun e => cmp (envName e) name == .eq)
    = (original.filter (fun e => ¬NameStarts cmp (envName e)) ++ vars.map Variable.entry).filter
        fun e => cmp (envName e) name == .eq

/-- What the code makes of the block that it splits. -/
theorem environment_of_block (cmp : WString → WString → Ordering) [Std.TransCmp cmp]
    (s : ElevatedSession) (own : Option WString) (vars : List Variable) :
    Environment cmp (splitEnvBlock (s.environmentBlock own)) vars
      (s.buildEnvironment cmp own (vars.map fun v => (v.name, v.value))) := by
  -- the filter of the code is the one of the statement
  have hkept : ∀ l : List WString, (l.filter fun e => !isTrackVar cmp e)
      = l.filter fun e => ¬NameStarts cmp (envName e) := by
    intro l
    refine List.filter_congr fun e _ => ?_
    rw [decide_not, Bool.eq_iff_iff.mpr ((isTrackVar_iff cmp e).trans decide_eq_true_iff.symm)]
  have hvars : (vars.map fun v => (v.name, v.value)).map assignment = vars.map Variable.entry := by
    rw [List.map_map]
    rfl
  unfold ElevatedSession.buildEnvironment
  dsimp only
  rw [hkept, hvars]
  generalize hentries : (splitEnvBlock (s.environmentBlock own)).filter
    (fun e => ¬NameStarts cmp (envName e)) ++ vars.map Variable.entry = entries
  -- no entry is empty or has a NUL, so the joined block splits back
  have hall : ∀ e ∈ StableSort.sort cmp envName entries, IsEntry e := by
    intro e he
    have he := (StableSort.sort_perm cmp envName entries).mem_iff.mp he
    rw [← hentries] at he
    rcases List.mem_append.mp he with he | he
    · exact isEntry_of_mem_splitEnvBlock _ e (List.mem_filter.mp he).1
    · obtain ⟨v, -, rfl⟩ := List.mem_map.mp he
      exact v.isEntry
  have hsplit := splitEnvBlock_joined hall
  constructor
  · exact joinEnvBlock_terminated _
  · rw [hsplit, hentries]
    exact StableSort.sort_perm cmp envName entries
  · rw [hsplit]
    exact StableSort.pairwise_sort cmp envName entries
  · intro name
    rw [hsplit, hentries]
    exact StableSort.filter_sort cmp envName entries name

/-- **`BuildEnvironment` replaces the `DX12TRACK_` variables and sorts the block**, for every list
of entries that the original block may have, for every comparison that is a total preorder, and for
all variables. -/
theorem environment_buildEnvironment (cmp : WString → WString → Ordering) [Std.TransCmp cmp]
    {s : ElevatedSession} {own : Option WString} {entries : List EnvEntry} {rest : WString}
    (h : s.environmentBlock own = envBlock entries ++ rest) (vars : List Variable) :
    Environment cmp (entries.map Subtype.val) vars
      (s.buildEnvironment cmp own (vars.map fun v => (v.name, v.value))) := by
  have hsplit : splitEnvBlock (s.environmentBlock own) = entries.map Subtype.val := by
    have hblock : envBlock entries ++ rest = terminated entries ++ 0 :: rest := by
      simp [envBlock, terminated]
    rw [h, hblock, splitEnvBlock_terminated]
  rw [← hsplit]
  exact environment_of_block cmp s own vars

/-- **What was handed over is the environment of the target**, in the elevated instance. -/
theorem environment_handed {r : ElevationRequest} (hsize : r.handoffBytes < 2 ^ 32)
    {regionSize : ℕ} (hregion : r.handoffBytes ≤ regionSize) (m : Memory)
    (cmp : WString → WString → Ordering) [Std.TransCmp cmp] (own : Option WString)
    (vars : List Variable) :
    Environment cmp (r.entries.map Subtype.val) vars
      ((ElevatedSession.openHandoff (r.launch m) regionSize).buildEnvironment cmp own
        (vars.map fun v => (v.name, v.value))) := by
  have hopen := (ElevationRequest.handed_launch hsize m).openHandoff_eq hsize hregion
  have hblock : (ElevatedSession.openHandoff (r.launch m) regionSize).environmentBlock own
      = r.envChars ++ [0, 0] := by
    rw [hopen]
    exact if_pos (by simp)
  rw [← r.splitEnvBlock_envChars, ← hblock]
  exact environment_of_block cmp _ own vars

/-- `CompareStringOrdinal` with an upper-case table. -/
def compareUpper (upper : UInt16 → UInt16) : WString → WString → Ordering :=
  List.compareLex (compareOn upper)

instance (upper : UInt16 → UInt16) : Std.TransCmp (compareUpper upper) :=
  inferInstanceAs (Std.TransCmp (List.compareLex (compareOn upper)))

/-- The upper-case table of ASCII. -/
def asciiUpper (c : UInt16) : UInt16 := if 97 ≤ c ∧ c ≤ 122 then c - 32 else c

/-- A drive's directory, a variable of a run before, and a name in two spellings. -/
def oldEntries : List EnvEntry :=
  [⟨wliteral "=C:=C:\\", by decide, by decide⟩,
    ⟨wliteral "tmp=1", by decide, by decide⟩,
    ⟨wliteral "dx12track_pipe=old", by decide, by decide⟩,
    ⟨wliteral "TMP=2", by decide, by decide⟩,
    ⟨wliteral "alone", by decide, by decide⟩]

def pipeVariable : Variable where
  name := wliteral "DX12TRACK_PIPE"
  value := wliteral "p"
  starts := by decide
  name_nulFree := by decide
  value_nulFree := by decide

theorem environment_buildEnvironment_oldEntries :
    Environment (compareUpper asciiUpper) (oldEntries.map Subtype.val) [pipeVariable]
      (ElevatedSession.buildEnvironment (compareUpper asciiUpper)
        ⟨true, true, [], envBlock oldEntries ++ [0]⟩ none
        ([pipeVariable].map fun v => (v.name, v.value))) :=
  environment_buildEnvironment (compareUpper asciiUpper)
    (show _ = envBlock oldEntries ++ [0] from rfl) [pipeVariable]

end Handoff

end Dx12Track
