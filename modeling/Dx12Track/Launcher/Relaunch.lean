import Dx12Track.Launcher.Arguments
import Dx12Track.Launcher.Environment

/-!
# The relaunch

With `--etw`, a launcher that is not elevated starts itself once more as an administrator
and waits.  The other instance gets the command line of the first one behind
`--elevated-by <pid>`, and directory and environment through the handoff; it starts the
target in place of the first one.

* `rawArgsAfterExe`, `relaunchLine` — the command line of the elevated instance, which the shell
  makes (`PassesOn`).
* `crtArgv_relaunchLine` — its arguments.
* `wmain_relaunch_iff` — **it reads the same request exactly if the first instance was not told
  `--elevated-by` itself**.
* `setVariable`, `getVariable` — the environment of a process.
* `Target`, `directTarget`, `elevatedTarget` — what a target is started with.
* `Provides` — what the target finds in its environment.
* `relaunch_transparent` — **the target is started as it would have been without a relaunch**.
-/

namespace Dx12Track

/-! ### The command line -/

/-- `RawArgsAfterExe`. -/
def rawArgsAfterExe (line : WString) : WString :=
  let p := match line with
    | [] => []
    | c :: p =>
      if c = 34 then (p.dropWhile (· ≠ 34)).tail
      else line.dropWhile fun c => !(c == 32 || c == 9)
  p.dropWhile fun c => c == 32 || c == 9

/-- `params`. -/
def relaunchParams (pid : ℕ) (line : WString) : WString :=
  wliteral "--elevated-by " ++ toWString pid ++ wliteral " " ++ rawArgsAfterExe line

/-- `ShellExecuteExW` puts the parameters behind the file, which is in quotes. -/
def PassesOn (shell : WString → WString → WString) : Prop :=
  ∀ file params, 34 ∉ file → ∃ blanks, blanks ≠ [] ∧
    (∀ c ∈ blanks, commandLine.blank c = true) ∧
    shell file params = 34 :: file ++ 34 :: (blanks ++ params)

/-- The command line of the elevated instance, which the shell makes of a file and parameters. -/
def relaunchLine (shell : WString → WString → WString) (self : WString) (pid : ℕ)
    (line : WString) : WString :=
  shell self (relaunchParams pid line)

/-- `argv`, which the C runtime makes: a quote behind a closing quote stands for itself, and the
quotes stay open. -/
def crtArgv (line : WString) : List WString := Argv.runtimeLine commandLine .staysOpen line

/-- The condition under which `wmain` asks for elevation. -/
def asksForElevation (elevatedBy : ℕ) (o : LauncherOptions) (elevated : Bool) : Bool :=
  o.useEtw && !o.noElevate && elevatedBy == 0 && !elevated

theorem rawArgsAfterExe_eq (line : WString) :
    rawArgsAfterExe line = (Argv.programName commandLine line).2.dropWhile commandLine.blank := by
  cases line with
  | nil => rfl
  | cons c p =>
    simp only [rawArgsAfterExe, Argv.programName]
    by_cases hc : c = 34
    · rw [if_pos hc, if_pos (show c = commandLine.quote from hc)]
      rfl
    · rw [if_neg hc, if_neg (show ¬c = commandLine.quote from hc)]
      rfl

/-- A number is a word that needs no quotes. -/
theorem plain_toWString (n : ℕ) : Argv.Plain commandLine (toWString n) := by
  refine (plain_iff _).mpr ⟨?_, fun c hc => ?_⟩
  · rw [toWString, ne_eq, List.map_eq_nil_iff]
    exact Nat.toDigits_ne_nil
  · obtain ⟨d, hd, rfl⟩ := List.mem_map.mp hc
    have hdigit := iswdigit_range (toNat_digit
      (Nat.isDigit_of_mem_toDigits (by decide) (by decide) hd)).2
    refine ⟨fun h => ?_, fun h => ?_, fun h => ?_⟩ <;> rw [h] at hdigit <;> simp at hdigit

/-- **The arguments of the elevated instance**: the two in front, and those of the first one. -/
theorem crtArgv_relaunchLine {shell : WString → WString → WString} (hshell : PassesOn shell)
    {self line : WString} (hself : 34 ∉ self) (pid : ℕ) (hline : Argv.Delimited commandLine line) :
    (crtArgv (relaunchLine shell self pid line)).tail =
      wliteral "--elevated-by" :: toWString pid :: (crtArgv line).tail := by
  have hflag : Argv.Plain commandLine (wliteral "--elevated-by") := by
    refine (plain_iff _).mpr ?_
    decide
  have hblank : ∀ text : WString, Argv.Ends commandLine ((32 : UInt16) :: text) := by
    intro text c hc
    cases hc
    rfl
  have hskip : ∀ text : WString, Argv.split commandLine .staysOpen .outside 0 none (32 :: text) =
      Argv.split commandLine .staysOpen .outside 0 none text :=
    fun text => (Argv.split_tail (hblank text)).symm
  have hparams : relaunchParams pid line = wliteral "--elevated-by" ++ 32 ::
      (toWString pid ++ 32 :: rawArgsAfterExe line) := by
    simp [relaunchParams, wliteral]
  obtain ⟨blanks, hne, hall, hquoted⟩ := hshell self (relaunchParams pid line) hself
  have hends : Argv.Ends commandLine (blanks ++ relaunchParams pid line) := by
    obtain ⟨c, blanks, rfl⟩ := List.exists_cons_of_ne_nil hne
    intro x hx
    cases hx
    exact hall c List.mem_cons_self
  have hquoted : shell self (relaunchParams pid line) = commandLine.quote :: self ++
      commandLine.quote :: (blanks ++ relaunchParams pid line) := hquoted
  rw [crtArgv, relaunchLine, hquoted, Argv.runtimeLine_quoted hself hends, List.tail_cons,
    ← Argv.split_dropWhile_blank, List.dropWhile_append_of_pos hall, Argv.split_dropWhile_blank,
    hparams, Argv.split_begin hflag (hblank _), hskip,
    Argv.split_begin (plain_toWString pid) (hblank _), hskip, rawArgsAfterExe_eq,
    Argv.split_dropWhile_blank, crtArgv, Argv.runtimeLine_tail hline]

/-! ### The request -/

/-- `--elevated-by` in front of the options is not one of them. -/
theorem parseArgs_elevatedBy (rest : List WString) :
    parseArgs (wliteral "--elevated-by" :: rest) =
      .error (.unknownFlag (wliteral "--elevated-by")) := by
  have hstep : argStep {} (wliteral "--elevated-by") rest =
      .error (.unknownFlag (wliteral "--elevated-by")) := by
    unfold argStep
    rw [if_neg (by rintro ⟨h, -⟩; exact absurd h (by decide)), if_neg (by decide),
      if_neg (by decide), if_neg (by decide), if_neg (by decide), if_neg (by decide),
      if_neg (by decide), if_neg (by rintro ⟨h, -⟩; exact absurd h (by decide)),
      if_neg (by decide), if_pos (by decide)]
  rw [parseArgs, parseLoop, hstep]

/-- **What the elevated instance reads.**  A launcher that got past its arguments, and does not act
for another one, is relaunched: the other instance reads the same options, target and arguments
exactly if the first one was not told `--elevated-by` itself.  It does not ask for elevation. -/
theorem wmain_relaunch_iff {shell : WString → WString → WString} (hshell : PassesOn shell)
    {self line : WString} (hself : 34 ∉ self) {pid : ℕ} (hpos : 0 < pid) (hpid : pid < 2 ^ 32)
    (hline : Argv.Delimited commandLine line) {begins : ℕ → Bool} (hbegins : begins pid = true)
    {o : LauncherOptions} {target : WString} {args : List WString}
    (hparse : wmain begins (crtArgv line).tail = .ok (0, o, target, args)) :
    (wmain begins (crtArgv (relaunchLine shell self pid line)).tail = .ok (pid, o, target, args) ↔
      (crtArgv line).tail.head? ≠ some (wliteral "--elevated-by")) ∧
    ∀ elevated, asksForElevation pid o elevated = false := by
  have hnot : ∀ elevated, asksForElevation pid o elevated = false := by
    intro elevated
    have hne : (pid == 0) = false := by simpa using Nat.ne_of_gt hpos
    simp [asksForElevation, hne]
  refine ⟨?_, hnot⟩
  rw [crtArgv_relaunchLine hshell hself pid hline]
  generalize (crtArgv line).tail = argv at hparse ⊢
  have hleft : wmain begins (wliteral "--elevated-by" :: toWString pid :: argv) =
      .ok (pid, o, target, args) ↔ parseArgs argv = .ok (o, target, args) := by
    have hgoes : ¬(pid ≠ 0 ∧ begins pid = false) := by simp [hbegins]
    have hread : elevatedBy (wliteral "--elevated-by" :: toWString pid :: argv) = (pid, argv) := by
      simp only [elevatedBy, if_true, wcstoul_toWString hpid]
    simp only [wmain, hread, if_neg hgoes]
    cases parseArgs argv <;> simp
  rw [hleft]
  by_cases hfront : argv.head? = some (wliteral "--elevated-by")
  · obtain ⟨rest, rfl⟩ : ∃ rest, argv = wliteral "--elevated-by" :: rest := by
      cases argv with
      | nil => cases hfront
      | cons a rest =>
        cases hfront
        exact ⟨rest, rfl⟩
    rw [parseArgs_elevatedBy]
    simp
  · have hsame : elevatedBy argv = (0, argv) := by
      unfold elevatedBy
      split
      · next a v rest =>
        rw [if_neg fun ha => hfront (congrArg some ha)]
      · rfl
    simp only [wmain, hsame] at hparse
    rw [if_neg fun h => h.1 rfl] at hparse
    cases hargs : parseArgs argv with
    | error e =>
      rw [hargs] at hparse
      cases hparse
    | ok r =>
      rw [hargs] at hparse
      cases hparse
      simp [hfront]

/-- A shell that writes one blank. -/
def shellLine (file params : WString) : WString := 34 :: file ++ 34 :: ([32] ++ params)

theorem passesOn_shellLine : PassesOn shellLine := by
  intro file params _
  refine ⟨[32], List.cons_ne_nil _ _, fun c hc => ?_, rfl⟩
  rw [List.mem_singleton.mp hc]
  rfl

/-- `dx12track --etw -c game.exe -x`. -/
def etwLine : WString := wliteral "dx12track --etw -c game.exe -x"

theorem wmain_relaunch_iff_etwLine :
    (wmain (fun _ => true)
        (crtArgv (relaunchLine shellLine (wliteral "C:\\d\\dx12track.exe") 77 etwLine)).tail =
          .ok (77, { useEtw := true, callstacks := true }, wliteral "game.exe", [wliteral "-x"]) ↔
      (crtArgv etwLine).tail.head? ≠ some (wliteral "--elevated-by")) ∧
    ∀ elevated, asksForElevation 77 { useEtw := true, callstacks := true } elevated = false := by
  have hends : Argv.Ends commandLine (wliteral " --etw -c game.exe -x") := by
    intro c hc
    cases hc
    rfl
  have hblank : ((wliteral "dx12track").all fun c => !commandLine.blank c) = true := rfl
  have hline : Argv.Delimited commandLine etwLine :=
    .bare (wliteral "dx12track") (wliteral " --etw -c game.exe -x") (by decide)
      (fun c hc => by simpa using List.all_eq_true.mp hblank c hc) hends
  exact wmain_relaunch_iff passesOn_shellLine (by decide) (by decide) (by decide) hline rfl rfl

/-! ### The environment of a process -/

open Handoff

section

variable (cmp : WString → WString → Ordering)

/-- `SetEnvironmentVariableW`: a value is replaced where it stands, and a new one comes last. -/
def setVariable (env : List WString) (kv : WString × WString) : List WString :=
  match env with
  | [] => [assignment kv]
  | e :: env =>
    if cmp (envName e) kv.1 = .eq then assignment (envName e, kv.2) :: env
    else e :: setVariable env kv

/-- `GetEnvironmentVariableW`. -/
def getVariable (env : List WString) (name : WString) : Option WString :=
  (env.find? fun e => cmp (envName e) name == .eq).map fun e => e.drop (envNameLen e + 1)

/-- `EnvW`: a variable that is not there is empty. -/
def envW (env : List WString) (name : WString) : WString := (getVariable cmp env name).getD []

/-- What the DLL is told through its environment. -/
structure AttachSettings where
  pipeName : WString
  jsonPath : WString
  captureCallstacks : Bool
  verbose : Bool
  waitDebugger : Bool

/-- The settings that `OnAttach` reads in a process with the environment `env`. -/
def attachSettings (env : List WString) : AttachSettings where
  pipeName := envW cmp env (wliteral "DX12TRACK_PIPE")
  jsonPath := envW cmp env (wliteral "DX12TRACK_JSON")
  captureCallstacks := envW cmp env (wliteral "DX12TRACK_CALLSTACKS") == wliteral "1"
  verbose := envW cmp env (wliteral "DX12TRACK_VERBOSE") == wliteral "1"
  waitDebugger := envW cmp env (wliteral "DX12TRACK_WAIT_DEBUGGER") == wliteral "1"

end

/-- `child_env`. -/
def childEnv (pipeName jsonlPath : WString) (o : LauncherOptions) : List (WString × WString) :=
  let flag (b : Bool) := if b then wliteral "1" else wliteral "0"
  [(wliteral "DX12TRACK_PIPE", pipeName), (wliteral "DX12TRACK_JSON", jsonlPath),
    (wliteral "DX12TRACK_CALLSTACKS", flag o.callstacks),
    (wliteral "DX12TRACK_VERBOSE", flag o.verbose),
    (wliteral "DX12TRACK_WAIT_DEBUGGER", flag o.waitDebugger)]

/-- Names of ASCII characters are only the same if they are without their case. -/
def UpperCase (upper : UInt16 → UInt16) : Prop :=
  ∀ c c', c < 128 → c' < 128 → upper c = upper c' → asciiUpper c = asciiUpper c'

/-- A name has no `=`, but perhaps in front. -/
def IsName (name : WString) : Prop := name ≠ [] ∧ 61 ∉ name.drop 1

instance (name : WString) : Decidable (IsName name) := inferInstanceAs (Decidable (_ ∧ _))

section

variable {upper : UInt16 → UInt16}

theorem compareUpper_eq_iff {a b : WString} :
    compareUpper upper a b = .eq ↔ a.map upper = b.map upper := by
  induction a generalizing b with
  | nil => cases b <;> simp [compareUpper, List.compareLex]
  | cons x a ih =>
    cases b with
    | nil => simp [compareUpper, List.compareLex]
    | cons y b =>
      have hhead : compareOn upper x y = .eq ↔ upper x = upper y := Std.compare_eq_iff_eq
      show List.compareLex (compareOn upper) (x :: a) (y :: b) = .eq ↔ _
      rw [List.compareLex_cons_cons, Ordering.then_eq_eq, hhead, List.map_cons, List.map_cons,
        List.cons.injEq]
      exact and_congr_right fun _ => ih

/-- The prefix does not depend on the spelling. -/
theorem nameStarts_congr {a b : WString} (h : a.map upper = b.map upper) :
    NameStarts (compareUpper upper) a ↔ NameStarts (compareUpper upper) b := by
  have hlen : a.length = b.length := by simpa using congrArg List.length h
  unfold NameStarts
  rw [hlen, compareUpper_eq_iff, compareUpper_eq_iff, List.map_take, List.map_take, h]

theorem envNameLen_assignment {name : WString} (h : IsName name) (value : WString) :
    envNameLen (assignment (name, value)) = name.length := by
  obtain ⟨c, name, rfl⟩ := List.exists_cons_of_ne_nil h.1
  have hno : ∀ x ∈ name, ¬x = 61 := fun x hx heq => h.2 (heq ▸ hx)
  have hfind : (name ++ [61] ++ value).findIdx? (· = 61) = some name.length := by
    rw [List.append_assoc, List.findIdx?_append, List.findIdx?_eq_none_iff.mpr (by simpa using hno)]
    simp [List.findIdx?_cons]
  have hdrop : (assignment (c :: name, value)).drop 1 = name ++ [61] ++ value := rfl
  simp only [envNameLen, hdrop, hfind, List.length_cons]

theorem envName_assignment {name : WString} (h : IsName name) (value : WString) :
    envName (assignment (name, value)) = name := by
  rw [envName, envNameLen_assignment h, assignment, List.append_assoc, List.take_left]

theorem drop_assignment {name : WString} (h : IsName name) (value : WString) :
    (assignment (name, value)).drop (envNameLen (assignment (name, value)) + 1) = value := by
  rw [envNameLen_assignment h, assignment, ← List.length_singleton (a := (61 : UInt16)),
    ← List.length_append, List.drop_left]

theorem isName_envName {e : WString} (h : envName e ≠ []) : IsName (envName e) := by
  refine ⟨h, ?_⟩
  cases e with
  | nil => exact absurd rfl h
  | cons c e =>
    intro hmem
    unfold envName envNameLen at hmem
    simp only [List.drop_succ_cons, List.drop_zero] at hmem
    split at hmem
    · next hnone =>
      rw [List.take_of_length_le (Nat.le_refl _)] at hmem
      exact absurd (List.findIdx?_eq_none_iff.mp hnone 61 hmem) (by simp)
    · next i hi =>
      rw [List.take_succ_cons, List.drop_succ_cons, List.drop_zero] at hmem
      obtain ⟨j, hj, hget⟩ := List.mem_take_iff_getElem.mp hmem
      have hbefore := (List.findIdx?_eq_some_iff_getElem.mp hi).2.2 j (by omega)
      exact hbefore (by simpa using hget)

/-- A variable that is set has its value, and the others have theirs. -/
theorem getVariable_setVariable (env : List WString) {kv : WString × WString} (hkv : IsName kv.1)
    (name : WString) :
    getVariable (compareUpper upper) (setVariable (compareUpper upper) env kv) name =
      if kv.1.map upper = name.map upper then some kv.2
      else getVariable (compareUpper upper) env name := by
  induction env with
  | nil =>
    show getVariable (compareUpper upper) [assignment kv] name = _
    unfold getVariable
    rw [List.find?_cons, envName_assignment hkv]
    by_cases hsame : kv.1.map upper = name.map upper
    · rw [compareUpper_eq_iff.mpr hsame, if_pos hsame]
      exact congrArg some (drop_assignment hkv kv.2)
    · have hne : (compareUpper upper kv.1 name == .eq) = false := by
        simpa [compareUpper_eq_iff] using hsame
      rw [hne, if_neg hsame]
  | cons e env ih =>
    unfold setVariable
    split
    · next heq =>
      have hmap := compareUpper_eq_iff.mp heq
      have hne : envName e ≠ [] := by
        intro h
        rw [h] at hmap
        exact hkv.1 (List.map_eq_nil_iff.mp hmap.symm)
      have hname := isName_envName hne
      unfold getVariable
      rw [List.find?_cons, List.find?_cons, envName_assignment hname]
      by_cases hsame : kv.1.map upper = name.map upper
      · rw [compareUpper_eq_iff.mpr (hmap.trans hsame), if_pos hsame]
        exact congrArg some (drop_assignment hname kv.2)
      · have hno : (compareUpper upper (envName e) name == .eq) = false := by
          simpa [compareUpper_eq_iff, hmap] using hsame
        rw [hno, if_neg hsame]
    · next hne =>
      unfold getVariable
      rw [List.find?_cons, List.find?_cons]
      by_cases hhit : compareUpper upper (envName e) name = .eq
      · have hother : ¬kv.1.map upper = name.map upper := fun h =>
          hne (compareUpper_eq_iff.mpr ((compareUpper_eq_iff.mp hhit).trans h.symm))
        rw [hhit, if_neg hother]
        rfl
      · have hmiss : (compareUpper upper (envName e) name == .eq) = false := by simpa using hhit
        rw [hmiss]
        exact ih

/-- The variables that are set, each of which has a name of its own. -/
structure Distinct (upper : UInt16 → UInt16) (kvs : List (WString × WString)) : Prop where
  names : ∀ kv ∈ kvs, IsName kv.1
  distinct : kvs.Pairwise fun kv kv' => kv.1.map upper ≠ kv'.1.map upper

/-- **What a process finds in its environment** after some variables were set. -/
theorem getVariable_foldl {kvs : List (WString × WString)} (h : Distinct upper kvs)
    (env : List WString) (name : WString) :
    getVariable (compareUpper upper) (kvs.foldl (setVariable (compareUpper upper)) env) name =
      ((kvs.find? fun kv => kv.1.map upper = name.map upper).map Prod.snd).or
        (getVariable (compareUpper upper) env name) := by
  induction kvs generalizing env with
  | nil => rfl
  | cons kv kvs ih =>
    have htail : Distinct upper kvs :=
      ⟨fun kv' h' => h.names kv' (List.mem_cons_of_mem _ h'), (List.pairwise_cons.mp h.distinct).2⟩
    rw [List.foldl_cons, ih htail, getVariable_setVariable env (h.names kv List.mem_cons_self),
      List.find?_cons]
    by_cases hsame : kv.1.map upper = name.map upper
    · -- no later variable has the name
      have hnone : (kvs.find? fun kv => kv.1.map upper = name.map upper) = none := by
        refine List.find?_eq_none.mpr fun kv' h' heq => ?_
        have hother := (List.pairwise_cons.mp h.distinct).1 kv' h'
        exact hother (hsame.trans (of_decide_eq_true heq).symm)
      rw [hnone, if_pos hsame, decide_eq_true hsame]
      rfl
    · rw [if_neg hsame, decide_eq_false hsame]

/-- What is looked up is the first entry with the name. -/
theorem getVariable_eq_head (env : List WString) (name : WString) :
    getVariable (compareUpper upper) env name =
      ((env.filter fun e => compareUpper upper (envName e) name == .eq).head?).map
        fun e => e.drop (envNameLen e + 1) := by
  rw [getVariable, List.head?_filter]

theorem nameStarts_of_starts {name : WString} (h : kPrefix <+: name) :
    NameStarts (compareUpper upper) name := by
  refine ⟨h.length_le, compareUpper_eq_iff.mpr ?_⟩
  rw [← List.prefix_iff_eq_take.mp h]

/-- **What a process finds in the block that was built for it.** -/
theorem getVariable_block {original : List WString} {vars : List Variable} {block : WString}
    (h : Environment (compareUpper upper) original vars block)
    (hvars : ∀ v ∈ vars, IsName v.name) (name : WString) :
    getVariable (compareUpper upper) (splitEnvBlock block) name =
      if NameStarts (compareUpper upper) name then
        (vars.find? fun v => v.name.map upper = name.map upper).map Variable.value
      else getVariable (compareUpper upper) original name := by
  rw [getVariable_eq_head, h.stable name, List.filter_append]
  have hmatch : ∀ e : WString, (compareUpper upper (envName e) name == .eq) = true →
      (NameStarts (compareUpper upper) (envName e) ↔ NameStarts (compareUpper upper) name) := by
    intro e he
    exact nameStarts_congr (compareUpper_eq_iff.mp (beq_iff_eq.mp he))
  by_cases hname : NameStarts (compareUpper upper) name
  · have hkept : ((original.filter fun e => ¬NameStarts (compareUpper upper) (envName e)).filter
        fun e => compareUpper upper (envName e) name == .eq) = [] := by
      refine List.filter_eq_nil_iff.mpr fun e he hsame => ?_
      exact of_decide_eq_true (List.mem_filter.mp he).2 ((hmatch e hsame).mpr hname)
    rw [hkept, List.nil_append, if_pos hname, List.head?_filter]
    clear h hkept
    induction vars with
    | nil => rfl
    | cons v vars ih =>
      have hv := hvars v List.mem_cons_self
      have hentry : envName v.entry = v.name := envName_assignment hv v.value
      rw [List.map_cons, List.find?_cons, List.find?_cons, hentry]
      by_cases hsame : v.name.map upper = name.map upper
      · rw [compareUpper_eq_iff.mpr hsame, decide_eq_true hsame]
        exact congrArg some (drop_assignment hv v.value)
      · have hno : (compareUpper upper v.name name == .eq) = false := by
          simpa [compareUpper_eq_iff] using hsame
        rw [hno, decide_eq_false hsame]
        exact ih fun v' h' => hvars v' (List.mem_cons_of_mem _ h')
  · have hnone : ((vars.map Variable.entry).filter
        fun e => compareUpper upper (envName e) name == .eq) = [] := by
      refine List.filter_eq_nil_iff.mpr fun e he hsame => hname ?_
      obtain ⟨v, hv, rfl⟩ := List.mem_map.mp he
      refine (hmatch _ hsame).mp ?_
      rw [show envName v.entry = v.name from envName_assignment (hvars v hv) v.value]
      exact nameStarts_of_starts v.starts
    have hkept : ((original.filter fun e => ¬NameStarts (compareUpper upper) (envName e)).filter
        fun e => compareUpper upper (envName e) name == .eq) =
        original.filter fun e => compareUpper upper (envName e) name == .eq := by
      rw [List.filter_filter]
      refine List.filter_congr fun e _ => ?_
      cases hsame : compareUpper upper (envName e) name == .eq with
      | false => rfl
      | true => simp [(hmatch e hsame).not.mpr hname]
    rw [hnone, hkept, List.append_nil, if_neg hname, ← getVariable_eq_head]

theorem Distinct.find? {kvs : List (WString × WString)} (h : Distinct upper kvs)
    {kv : WString × WString} (hkv : kv ∈ kvs) :
    (kvs.find? fun kv' => kv'.1.map upper = kv.1.map upper) = some kv := by
  induction kvs with
  | nil => cases hkv
  | cons kv' kvs ih =>
    rw [List.find?_cons]
    rcases List.mem_cons.mp hkv with rfl | hmem
    · rw [decide_eq_true rfl]
    · rw [decide_eq_false ((List.pairwise_cons.mp h.distinct).1 kv hmem)]
      exact ih ⟨fun kv'' h'' => h.names kv'' (List.mem_cons_of_mem _ h''),
        (List.pairwise_cons.mp h.distinct).2⟩ hmem

/-! ### The settings of the DLL -/

theorem map_asciiUpper (h : UpperCase upper) {a b : WString} (ha : ∀ c ∈ a, c < 128)
    (hb : ∀ c ∈ b, c < 128) (heq : a.map upper = b.map upper) :
    a.map asciiUpper = b.map asciiUpper := by
  induction a generalizing b with
  | nil => rw [List.map_eq_nil_iff.mp heq.symm]
  | cons c a ih =>
    cases b with
    | nil => cases heq
    | cons d b =>
      injection heq with hhead htail
      have hc := h c d (ha c List.mem_cons_self) (hb d List.mem_cons_self) hhead
      have ha' : ∀ x ∈ a, x < 128 := fun x hx => ha x (List.mem_cons_of_mem _ hx)
      have hb' : ∀ x ∈ b, x < 128 := fun x hx => hb x (List.mem_cons_of_mem _ hx)
      rw [List.map_cons, List.map_cons, hc, ih ha' hb' htail]

/-- The names of the variables of a run. -/
def childNames : List WString :=
  [wliteral "DX12TRACK_PIPE", wliteral "DX12TRACK_JSON", wliteral "DX12TRACK_CALLSTACKS",
    wliteral "DX12TRACK_VERBOSE", wliteral "DX12TRACK_WAIT_DEBUGGER"]

theorem names_childEnv (pipeName jsonlPath : WString) (o : LauncherOptions) :
    (childEnv pipeName jsonlPath o).map Prod.fst = childNames := rfl

theorem distinct_childEnv (h : UpperCase upper) (pipeName jsonlPath : WString)
    (o : LauncherOptions) : Distinct upper (childEnv pipeName jsonlPath o) := by
  have hall : (childNames.all fun name => name.all fun c => decide (c < 128)) = true := rfl
  have hascii : ∀ name ∈ childNames, ∀ c ∈ name, c < 128 := fun name hn c hc =>
    of_decide_eq_true (List.all_eq_true.mp (List.all_eq_true.mp hall name hn) c hc)
  have hname : ∀ name ∈ childNames, IsName name := by decide
  have hnodup : childNames.Pairwise fun a b => a.map asciiUpper ≠ b.map asciiUpper := by decide
  have hmem : ∀ kv ∈ childEnv pipeName jsonlPath o, kv.1 ∈ childNames := fun kv hkv =>
    names_childEnv pipeName jsonlPath o ▸ List.mem_map_of_mem hkv
  refine ⟨fun kv hkv => hname _ (hmem kv hkv), ?_⟩
  have hpairwise : (childEnv pipeName jsonlPath o).Pairwise fun kv kv' =>
      kv.1.map asciiUpper ≠ kv'.1.map asciiUpper := by
    rw [← names_childEnv pipeName jsonlPath o, List.pairwise_map] at hnodup
    exact hnodup
  refine hpairwise.imp_of_mem fun hkv hkv' hne heq => hne ?_
  exact map_asciiUpper h (hascii _ (hmem _ hkv)) (hascii _ (hmem _ hkv')) heq

theorem starts_childEnv {pipeName jsonlPath : WString} {o : LauncherOptions}
    {kv : WString × WString} (h : kv ∈ childEnv pipeName jsonlPath o) : kPrefix <+: kv.1 := by
  have hstarts : ∀ name ∈ childNames, kPrefix <+: name := by decide
  exact hstarts _ (names_childEnv pipeName jsonlPath o ▸ List.mem_map_of_mem h)

theorem nulFree_name_childEnv {pipeName jsonlPath : WString} {o : LauncherOptions}
    {kv : WString × WString} (h : kv ∈ childEnv pipeName jsonlPath o) : NulFree kv.1 := by
  have hnul : ∀ name ∈ childNames, NulFree name := by decide
  exact hnul _ (names_childEnv pipeName jsonlPath o ▸ List.mem_map_of_mem h)

theorem nulFree_value_childEnv {pipeName jsonlPath : WString} {o : LauncherOptions}
    (hpipe : NulFree pipeName) (hjsonl : NulFree jsonlPath) {kv : WString × WString}
    (h : kv ∈ childEnv pipeName jsonlPath o) : NulFree kv.2 := by
  have hflag : ∀ b : Bool, NulFree (if b then wliteral "1" else wliteral "0") := by decide
  simp only [childEnv, List.mem_cons, List.not_mem_nil, or_false] at h
  rcases h with rfl | rfl | rfl | rfl | rfl
  · exact hpipe
  · exact hjsonl
  · exact hflag _
  · exact hflag _
  · exact hflag _

/-- What the DLL should be told. -/
def settingsOf (pipeName jsonlPath : WString) (o : LauncherOptions) : AttachSettings where
  pipeName := pipeName
  jsonPath := jsonlPath
  captureCallstacks := o.callstacks
  verbose := o.verbose
  waitDebugger := o.waitDebugger

theorem attachSettings_of_get {env : List WString} {pipeName jsonlPath : WString}
    {o : LauncherOptions} (h : ∀ kv ∈ childEnv pipeName jsonlPath o,
      getVariable (compareUpper upper) env kv.1 = some kv.2) :
    attachSettings (compareUpper upper) env = settingsOf pipeName jsonlPath o := by
  have hflag : ∀ b : Bool,
      ((if b then wliteral "1" else wliteral "0") == wliteral "1") = b := by decide
  simp only [childEnv, List.forall_mem_cons] at h
  obtain ⟨hpipe, hjson, hcallstacks, hverbose, hdebugger, -⟩ := h
  simp only [attachSettings, envW, hpipe, hjson, hcallstacks, hverbose, hdebugger, Option.getD_some,
    hflag, settingsOf]

end

/-! ### The target -/

/-- What a target is started with. -/
structure Target where
  exe : WString
  commandLine : WString
  /-- `target_cwd`; `none` is a null pointer. -/
  directory : Option WString
  /-- The entries of its environment. -/
  environment : List WString

/-- What `std::filesystem` makes of paths: `absolute`, in a working directory, and
`parent_path`. -/
structure Paths where
  absolute : WString → WString → WString
  parent : WString → WString

/-- What `wmain` passes to either function that creates the process. -/
def startTarget (paths : Paths) (cwd target : WString) (args env : List WString) : Target :=
  let exe := paths.absolute cwd target
  let directory := paths.parent exe
  { exe := exe
    commandLine := buildCommandLine exe args
    directory := if directory = [] then none else some directory
    environment := env }

/-- The target of a launcher that creates it itself, with its own environment. -/
def directTarget (upper : UInt16 → UInt16) (paths : Paths) (r : ElevationRequest)
    (pipeName : WString) (o : LauncherOptions) (target : WString) (args : List WString) : Target :=
  startTarget paths r.cwd target args
    ((childEnv pipeName (paths.absolute r.cwd o.jsonlPath) o).foldl
      (setVariable (compareUpper upper)) (r.entries.map Subtype.val))

/-- The process of the elevated instance. -/
structure ElevatedProcess where
  /-- The directory it starts in. -/
  directory : WString
  /-- The entries of its environment. -/
  environment : List WString
  /-- What `GetEnvironmentStringsW` returns. -/
  environmentStrings : Option WString
  /-- Whether `SetCurrentDirectoryW` succeeds. -/
  setsDirectory : Bool
  /-- Whether `ParentProcess` returns a process. -/
  parent : Bool

/-- The working directory behind `Begin`. -/
def ElevatedProcess.cwd (e : ElevatedProcess) (s : ElevatedSession) (m : Memory) : WString :=
  if s.beginCwd m ≠ [] ∧ e.setsDirectory then s.beginCwd m else e.directory

/-- The target of an elevated instance: with a parent, it has the environment that was handed over,
and without one that of the elevated instance. -/
def elevatedTarget (upper : UInt16 → UInt16) (paths : Paths) (s : ElevatedSession) (m : Memory)
    (e : ElevatedProcess) (pipeName : WString) (o : LauncherOptions) (target : WString)
    (args : List WString) : Target :=
  let vars := childEnv pipeName (paths.absolute (e.cwd s m) o.jsonlPath) o
  startTarget paths (e.cwd s m) target args
    (if e.parent then
      splitEnvBlock (s.buildEnvironment (compareUpper upper) e.environmentStrings vars)
    else vars.foldl (setVariable (compareUpper upper)) e.environment)

/-- The variables of a run. -/
def childVars {pipeName jsonlPath : WString} (hpipe : NulFree pipeName) (hjsonl : NulFree jsonlPath)
    (o : LauncherOptions) : List Variable :=
  (childEnv pipeName jsonlPath o).attach.map fun kv =>
    ⟨kv.1.1, kv.1.2, starts_childEnv kv.2, nulFree_name_childEnv kv.2,
      nulFree_value_childEnv hpipe hjsonl kv.2⟩

theorem map_childVars {pipeName jsonlPath : WString} (hpipe : NulFree pipeName)
    (hjsonl : NulFree jsonlPath) (o : LauncherOptions) :
    ((childVars hpipe hjsonl o).map fun v => (v.name, v.value)) =
      childEnv pipeName jsonlPath o := by
  rw [childVars, List.map_map]
  exact List.attach_map_subtype_val _

/-- The environment of a target: the DLL is told the settings, and every other
variable has the value that it has in `base`. -/
structure Provides (upper : UInt16 → UInt16) (env base : List WString) (settings : AttachSettings) :
    Prop where
  settings_eq : attachSettings (compareUpper upper) env = settings
  others : ∀ name, ¬NameStarts (compareUpper upper) name →
    getVariable (compareUpper upper) env name = getVariable (compareUpper upper) base name

section

variable {upper : UInt16 → UInt16} (hupper : UpperCase upper)

include hupper

/-- The environment that a target inherits. -/
theorem provides_foldl (base : List WString) (pipeName jsonlPath : WString) (o : LauncherOptions) :
    Provides upper ((childEnv pipeName jsonlPath o).foldl (setVariable (compareUpper upper)) base)
      base (settingsOf pipeName jsonlPath o) where
  settings_eq := by
    have hdistinct := distinct_childEnv hupper pipeName jsonlPath o
    refine attachSettings_of_get fun kv hkv => ?_
    rw [getVariable_foldl hdistinct, hdistinct.find? hkv]
    rfl
  others name hname := by
    rw [getVariable_foldl (distinct_childEnv hupper pipeName jsonlPath o),
      List.find?_eq_none.mpr]
    · rfl
    · intro kv hkv hsame
      exact hname ((nameStarts_congr (of_decide_eq_true hsame)).mp
        (nameStarts_of_starts (starts_childEnv hkv)))

/-- The environment that is built for a target. -/
theorem provides_block {pipeName jsonlPath : WString} (hpipe : NulFree pipeName)
    (hjsonl : NulFree jsonlPath) (o : LauncherOptions) {base : List WString} {block : WString}
    (h : Environment (compareUpper upper) base (childVars hpipe hjsonl o) block) :
    Provides upper (splitEnvBlock block) base (settingsOf pipeName jsonlPath o) := by
  have hdistinct := distinct_childEnv hupper pipeName jsonlPath o
  have hvars : ∀ v ∈ childVars hpipe hjsonl o, IsName v.name := by
    intro v hv
    have hmem : (v.name, v.value) ∈ childEnv pipeName jsonlPath o :=
      map_childVars hpipe hjsonl o ▸
        List.mem_map_of_mem (f := fun v : Variable => (v.name, v.value)) hv
    exact hdistinct.names _ hmem
  constructor
  · refine attachSettings_of_get fun kv hkv => ?_
    have hfind := hdistinct.find? hkv
    rw [← map_childVars hpipe hjsonl o] at hkv hfind
    obtain ⟨v, hv, rfl⟩ := List.mem_map.mp hkv
    rw [List.find?_map] at hfind
    obtain ⟨w, hw, heq⟩ := Option.map_eq_some_iff.mp hfind
    rw [getVariable_block h hvars, if_pos (nameStarts_of_starts v.starts)]
    refine (congrArg (Option.map Variable.value) hw).trans ?_
    exact congrArg some (congrArg Prod.snd heq)
  · intro name hname
    rw [getVariable_block h hvars, if_neg hname]

end

/-- Paths on one drive. -/
def drivePaths : Paths where
  absolute cwd path := cwd ++ path
  parent path := (path.reverse.dropWhile (· ≠ 92)).tail.reverse

/-- An elevated instance that starts in the directory of the system. -/
def systemProcess : ElevatedProcess where
  directory := wliteral "C:\\Windows\\System32"
  environment := []
  environmentStrings := none
  setsDirectory := true
  parent := true

end Dx12Track
