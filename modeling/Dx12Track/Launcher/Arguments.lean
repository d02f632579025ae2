import Mathlib.Data.List.TakeWhile
import Dx12Track.EventTypes
import Dx12Track.Lib.Argv
import Mathlib.Algebra.Group.Nat.Defs

/-!
# The arguments of the launcher and of its target

`wmain` of `src/launcher/Main.cpp`, from its arguments to the options, the target and the
target's own arguments: options first, then the target, and the rest is for the target.
These arguments are written into the command line of the target, which splits it again.

* `wcstoul` — the library function behind `--etw-rundown`.
* `argStep`, `parseLoop`, `parseArgs` — the loop, and what is checked after it.
* `Opt`, `Invocation` — the usage text: `[options] [--] <target.exe> [args...]`.
* `parseLoop_options` — options leave their values and nothing else.
* `wmain_iff` — **an invocation is read as documented iff it has no `--`**.
* `buildCommandLine` — the command line of the target.
* `splitLine_buildCommandLine` — **the target sees the arguments iff they need no quotes**.
-/

namespace Dx12Track

/-! ### `wcstoul` -/

/-- `iswspace` in the C locale. -/
def iswspace (c : UInt16) : Bool := c == 32 || (9 ≤ c && c ≤ 13)

def iswdigit (c : UInt16) : Bool := 48 ≤ c && c ≤ 57

/-- The number that decimal digits stand for. -/
def decimalValue (ds : WString) : ℕ := ds.foldl (fun n c => 10 * n + (c.toNat - 48)) 0

/-- `wcstoul(s, &end, 10)`: the value, and what `end` points to. -/
def wcstoul (s : WString) : ℕ × WString :=
  let t := s.dropWhile iswspace
  let negative := t.head? = some 45
  let t := if negative ∨ t.head? = some 43 then t.tail else t
  let digits := t.takeWhile iswdigit
  if digits = [] then (0, s)
  else
    -- `ULONG_MAX` when the number does not fit
    let n := decimalValue digits
    (if n ≥ 2 ^ 32 then 2 ^ 32 - 1 else if negative then (2 ^ 32 - n) % 2 ^ 32 else n,
      t.dropWhile iswdigit)

/-! ### The loop -/

/-- The variables of `wmain` that the options set. -/
structure LauncherOptions where
  jsonlPath : WString := wliteral "dx12track.jsonl"
  dumpConsolePath : WString := []
  callstacks : Bool := false
  verbose : Bool := false
  waitDebugger : Bool := false
  useEtw : Bool := false
  noElevate : Bool := false
  /-- 0 for no periodic rundowns. -/
  etwRundownMs : ℕ := 0
  deriving DecidableEq

/-- Why the arguments are refused: the usage text is printed, and the exit code is 1. -/
inductive ArgError
  | badRundown (v : WString)
  | unknownFlag (a : WString)
  | noTarget
  | rundownWithoutEtw
  deriving DecidableEq

def kMaxEtwRundownSeconds : ℕ := 86400

/-- What is printed to `stderr` before the usage text. -/
def ArgError.message : ArgError → WString
  | badRundown v => wliteral "--etw-rundown needs a number of seconds (1.." ++
      wliteral (toString kMaxEtwRundownSeconds) ++ wliteral "), got '" ++ v ++ wliteral "'\n"
  | unknownFlag a => wliteral "Unknown flag: " ++ a ++ wliteral "\n"
  | noTarget => []
  | rundownWithoutEtw => wliteral "--etw-rundown requires --etw\n"

/-- What one argument does. -/
inductive ArgStep
  /-- `++i`. -/
  | flag (st : LauncherOptions)
  /-- The next argument was used as a value. -/
  | value (st : LauncherOptions)
  /-- `--`: the loop is left. -/
  | separator
  /-- The target: the loop is left. -/
  | target (t : WString)
  | error (e : ArgError)
  deriving DecidableEq

/-- The body of the loop, at the argument `a` with `rest` behind it. -/
def argStep (st : LauncherOptions) (a : WString) (rest : List WString) : ArgStep :=
  if a = wliteral "-o" ∧ rest ≠ [] then .value { st with jsonlPath := rest.headD [] }
  else if a = wliteral "--callstacks" ∨ a = wliteral "-c" then .flag { st with callstacks := true }
  else if a = wliteral "--verbose" ∨ a = wliteral "-v" then .flag { st with verbose := true }
  else if a = wliteral "--debugger" then .flag { st with waitDebugger := true }
  else if a = wliteral "--etw" then .flag { st with useEtw := true }
  else if a = wliteral "--no-elevate" then .flag { st with noElevate := true }
  else if a = wliteral "--etw-rundown" then
    let v := rest.headD []
    let s := wcstoul v
    if v = [] ∨ s.2 ≠ [] ∨ v.head? = some 45 ∨ s.1 < 1 ∨ s.1 > kMaxEtwRundownSeconds then
      .error (.badRundown v)
    else .value { st with etwRundownMs := s.1 * 1000 }
  else if a = wliteral "--dump-console" ∧ rest ≠ [] then
    .value { st with dumpConsolePath := rest.headD [] }
  else if a = wliteral "--" then .separator
  else if a.head? = some 45 then .error (.unknownFlag a)
  else .target a

/-- The loop: the options, the target and the arguments that are left. -/
def parseLoop (st : LauncherOptions) :
    List WString → Except ArgError (LauncherOptions × WString × List WString)
  | [] => .ok (st, [], [])
  | a :: rest =>
    match argStep st a rest with
    | .flag st' => parseLoop st' rest
    | .value st' =>
      match rest with
      | [] => .ok (st', [], [])
      | _ :: rest => parseLoop st' rest
    | .separator => .ok (st, [], rest)
    | .target t => .ok (st, t, rest)
    | .error e => .error e

/-- The arguments after the name of the program, up to the checks after the loop. -/
def parseArgs (argv : List WString) : Except ArgError (LauncherOptions × WString × List WString) :=
  match parseLoop {} argv with
  | .error e => .error e
  | .ok (st, target, childArgs) =>
    if target = [] then .error .noTarget
    else if st.etwRundownMs ≠ 0 ∧ st.useEtw = false then .error .rundownWithoutEtw
    else .ok (st, target, childArgs)

/-- `--elevated-by <pid>`, which only counts in front. -/
def elevatedBy (argv : List WString) : ℕ × List WString :=
  match argv with
  | a :: v :: rest => if a = wliteral "--elevated-by" then ((wcstoul v).1, rest) else (0, argv)
  | _ => (0, argv)

/-- `wmain` up to the checks after the loop, or its exit code.  `begins` says whether
`ElevatedSession::Begin` succeeds. -/
def wmain (begins : ℕ → Bool) (argv : List WString) :
    Except ℕ (ℕ × LauncherOptions × WString × List WString) :=
  let s := elevatedBy argv
  if s.1 ≠ 0 ∧ begins s.1 = false then .error 6
  else
    match parseArgs s.2 with
    | .error _ => .error 1
    | .ok r => .ok (s.1, r)

/-! ### The usage text -/

/-- An option with its value. -/
inductive Opt
  | output (path : WString)
  | callstacks (short : Bool)
  | verbose (short : Bool)
  | debugger
  | etw
  | noElevate
  | etwRundown (seconds : WString)
  | dumpConsole (path : WString)
  deriving DecidableEq

namespace Opt

/-- What is written on the command line. -/
def words : Opt → List WString
  | output path => [wliteral "-o", path]
  | callstacks short => [if short then wliteral "-c" else wliteral "--callstacks"]
  | verbose short => [if short then wliteral "-v" else wliteral "--verbose"]
  | debugger => [wliteral "--debugger"]
  | etw => [wliteral "--etw"]
  | noElevate => [wliteral "--no-elevate"]
  | etwRundown seconds => [wliteral "--etw-rundown", seconds]
  | dumpConsole path => [wliteral "--dump-console", path]

/-- What the option says. -/
def apply (st : LauncherOptions) : Opt → LauncherOptions
  | output path => { st with jsonlPath := path }
  | callstacks _ => { st with callstacks := true }
  | verbose _ => { st with verbose := true }
  | debugger => { st with waitDebugger := true }
  | etw => { st with useEtw := true }
  | noElevate => { st with noElevate := true }
  | etwRundown seconds => { st with etwRundownMs := decimalValue seconds * 1000 }
  | dumpConsole path => { st with dumpConsolePath := path }

/-- The number of seconds is a number in its range. -/
def WellFormed : Opt → Prop
  | etwRundown seconds => seconds ≠ [] ∧ seconds.all iswdigit = true ∧
      1 ≤ decimalValue seconds ∧ decimalValue seconds ≤ kMaxEtwRundownSeconds
  | _ => True

end Opt

/-- `[options] [--] <target.exe> [args...]`. -/
structure Invocation where
  options : List Opt
  separator : Bool
  target : WString
  args : List WString
  deriving DecidableEq

namespace Invocation

/-- What is written on the command line. -/
def words (inv : Invocation) : List WString :=
  inv.options.flatMap Opt.words ++
    ((if inv.separator then [wliteral "--"] else []) ++ inv.target :: inv.args)

/-- What the options say. -/
def settings (inv : Invocation) : LauncherOptions := inv.options.foldl Opt.apply {}

structure WellFormed (inv : Invocation) : Prop where
  options : ∀ o ∈ inv.options, o.WellFormed
  /-- `--etw-rundown` belongs to `--etw`. -/
  nested : ∀ seconds, .etwRundown seconds ∈ inv.options → .etw ∈ inv.options
  target_ne : inv.target ≠ []
  /-- Only behind `--` a target begins with a dash. -/
  target_dash : inv.separator = false → inv.target.head? ≠ some 45

end Invocation

/-- `--elevated-by` is not an option. -/
theorem Opt.words_head (o : Opt) :
    ∃ w ws, o.words = w :: ws ∧ w ≠ wliteral "--elevated-by" := by
  cases o with
  | callstacks short => cases short <;> exact ⟨_, _, rfl, by decide⟩
  | verbose short => cases short <;> exact ⟨_, _, rfl, by decide⟩
  | _ => exact ⟨_, _, rfl, by decide⟩

/-! ### Options -/

theorem iswdigit_range {c : UInt16} (h : iswdigit c = true) : 48 ≤ c.toNat ∧ c.toNat ≤ 57 := by
  simp only [iswdigit, Bool.and_eq_true, decide_eq_true_eq, UInt16.le_iff_toNat_le] at h
  exact h

/-- A digit is neither a blank nor a sign. -/
theorem iswdigit_plain {c : UInt16} (h : iswdigit c = true) :
    iswspace c = false ∧ c ≠ 45 ∧ c ≠ 43 := by
  have hrange := iswdigit_range h
  refine ⟨?_, ?_, ?_⟩
  · simp only [iswspace, Bool.or_eq_false_iff, beq_eq_false_iff_ne, Bool.and_eq_false_imp,
      decide_eq_true_eq, decide_eq_false_iff_not, UInt16.le_iff_toNat_le, ne_eq]
    refine ⟨fun h32 => ?_, fun _ => ?_⟩
    · subst h32
      simp at hrange
    · show ¬c.toNat ≤ 13
      omega
  · rintro rfl
    simp at hrange
  · rintro rfl
    simp at hrange

/-- Digits are read to their end. -/
theorem wcstoul_digits {s : WString} (hne : s ≠ []) (hall : s.all iswdigit = true)
    (hlt : decimalValue s < 2 ^ 32) : wcstoul s = (decimalValue s, []) := by
  have hdigit : ∀ c ∈ s, iswdigit c = true := List.all_eq_true.mp hall
  have htake : s.takeWhile iswdigit = s := List.takeWhile_eq_self_iff.mpr hdigit
  have hdrop : s.dropWhile iswdigit = [] := List.dropWhile_eq_nil_iff.mpr hdigit
  obtain ⟨c, rest, rfl⟩ := List.exists_cons_of_ne_nil hne
  obtain ⟨hspace, hminus, hplus⟩ := iswdigit_plain (hdigit c List.mem_cons_self)
  have hskip : (c :: rest).dropWhile iswspace = c :: rest := by simp [hspace]
  have hm : ¬(c :: rest).head? = some 45 := by simpa using hminus
  have hp : ¬(c :: rest).head? = some 43 := by simpa using hplus
  unfold wcstoul
  simp only [hskip, hm, hp, or_self, if_false, htake, hdrop, List.cons_ne_nil]
  rw [if_neg (by omega)]

theorem toNat_digit {c : Char} (h : c.isDigit = true) :
    (c.toNat.toUInt16).toNat = c.toNat ∧ iswdigit c.toNat.toUInt16 = true := by
  simp only [Char.isDigit, Bool.and_eq_true, decide_eq_true_eq] at h
  have hlow : 48 ≤ c.toNat := h.1
  have hhigh : c.toNat ≤ 57 := h.2
  have hval : (c.toNat.toUInt16).toNat = c.toNat := by
    rw [Nat.toUInt16, UInt16.toNat_ofNat']
    exact Nat.mod_eq_of_lt (by omega)
  refine ⟨hval, ?_⟩
  simp only [iswdigit, Bool.and_eq_true, decide_eq_true_eq, UInt16.le_iff_toNat_le, hval]
  exact ⟨hlow, hhigh⟩

/-- A number that was written is read back. -/
theorem wcstoul_toWString {n : ℕ} (h : n < 2 ^ 32) : wcstoul (toWString n) = (n, []) := by
  have hdigit : ∀ c ∈ Nat.toDigits 10 n, c.isDigit = true :=
    fun c hc => Nat.isDigit_of_mem_toDigits (by decide) (by decide) hc
  have hvalue : decimalValue (toWString n) = n := by
    have hfold : ∀ (cs : List Char), (∀ c ∈ cs, c.isDigit = true) → ∀ k : ℕ,
        (cs.map fun c => c.toNat.toUInt16).foldl (fun n c => 10 * n + (c.toNat - 48)) k =
          Nat.ofDigitChars 10 cs k := by
      intro cs
      induction cs with
      | nil => exact fun _ _ => rfl
      | cons c cs ih =>
        intro hcs k
        rw [List.map_cons, List.foldl_cons, (toNat_digit (hcs c List.mem_cons_self)).1,
          ih fun d hd => hcs d (List.mem_cons_of_mem _ hd)]
        rfl
    exact (hfold _ hdigit 0).trans (Nat.ofDigitChars_toDigits (by decide) (by decide))
  have hall : (toWString n).all iswdigit = true := by
    rw [toWString, List.all_map, List.all_eq_true]
    exact fun c hc => (toNat_digit (hdigit c hc)).2
  have hne : toWString n ≠ [] := by
    rw [toWString, ne_eq, List.map_eq_nil_iff]
    exact Nat.toDigits_ne_nil
  rw [wcstoul_digits hne hall (by rwa [hvalue]), hvalue]

/-- A value is skipped. -/
theorem parseLoop_value {st st' : LauncherOptions} {a v : WString} {rest : List WString}
    (h : argStep st a (v :: rest) = .value st') :
    parseLoop st (a :: v :: rest) = parseLoop st' rest := by
  rw [parseLoop, h]

/-- **An option leaves its value and nothing else.** -/
theorem parseLoop_opt (st : LauncherOptions) {o : Opt} (h : o.WellFormed) (rest : List WString) :
    parseLoop st (o.words ++ rest) = parseLoop (o.apply st) rest := by
  cases o with
  | output path => rfl
  | callstacks short => cases short <;> rfl
  | verbose short => cases short <;> rfl
  | debugger => rfl
  | etw => rfl
  | noElevate => rfl
  | dumpConsole path => rfl
  | etwRundown seconds =>
    obtain ⟨hne, hall, hlow, hhigh⟩ := h
    have hmax : kMaxEtwRundownSeconds < 2 ^ 32 := by decide
    have hvalue : wcstoul seconds = (decimalValue seconds, []) :=
      wcstoul_digits hne hall (by omega)
    have hminus : seconds.head? ≠ some 45 := by
      obtain ⟨c, tail, rfl⟩ := List.exists_cons_of_ne_nil hne
      simpa using (iswdigit_plain (List.all_eq_true.mp hall c List.mem_cons_self)).2.1
    have hstep : argStep st (wliteral "--etw-rundown") (seconds :: rest)
        = if seconds = [] ∨ (wcstoul seconds).2 ≠ [] ∨ seconds.head? = some 45 ∨
            (wcstoul seconds).1 < 1 ∨ (wcstoul seconds).1 > kMaxEtwRundownSeconds then
            .error (.badRundown seconds)
          else .value { st with etwRundownMs := (wcstoul seconds).1 * 1000 } := rfl
    rw [hvalue, if_neg] at hstep
    · exact parseLoop_value hstep
    · rintro (hnil | hend | hdash | hzero | hlarge)
      · exact hne hnil
      · exact hend rfl
      · exact hminus hdash
      · exact absurd hzero (Nat.not_lt.mpr hlow)
      · exact absurd hlarge (Nat.not_lt.mpr hhigh)

theorem parseLoop_options (st : LauncherOptions) {opts : List Opt}
    (h : ∀ o ∈ opts, o.WellFormed) (rest : List WString) :
    parseLoop st (opts.flatMap Opt.words ++ rest) = parseLoop (opts.foldl Opt.apply st) rest := by
  induction opts generalizing st with
  | nil => rfl
  | cons o opts ih =>
    rw [List.flatMap_cons, List.append_assoc, parseLoop_opt st (h o List.mem_cons_self),
      ih _ fun o' ho' => h o' (List.mem_cons_of_mem o ho')]
    rfl

/-! ### The target -/

/-- Every literal of the loop begins with a dash. -/
theorem ne_of_head {a b : WString} (ha : a.head? ≠ some 45) (hb : b.head? = some 45) : a ≠ b := by
  rintro rfl
  exact ha hb

/-- **What does not begin with a dash is the target**, and the rest is for it. -/
theorem argStep_target (st : LauncherOptions) {t : WString} (h : t.head? ≠ some 45)
    (rest : List WString) : argStep st t rest = .target t := by
  have hne : ∀ s : WString, s.head? = some 45 → t ≠ s := fun s => ne_of_head h
  unfold argStep
  rw [if_neg fun ho => hne _ rfl ho.1, if_neg (not_or.mpr ⟨hne _ rfl, hne _ rfl⟩),
    if_neg (not_or.mpr ⟨hne _ rfl, hne _ rfl⟩), if_neg (hne _ rfl), if_neg (hne _ rfl),
    if_neg (hne _ rfl), if_neg (hne _ rfl), if_neg fun ho => hne _ rfl ho.1, if_neg (hne _ rfl),
    if_neg h]

theorem parseLoop_target (st : LauncherOptions) {t : WString} (h : t.head? ≠ some 45)
    (args : List WString) : parseLoop st (t :: args) = .ok (st, t, args) := by
  unfold parseLoop
  rw [argStep_target st h]

/-- **Behind `--` no target is looked for.** -/
theorem parseLoop_separator (st : LauncherOptions) (rest : List WString) :
    parseLoop st (wliteral "--" :: rest) = .ok (st, [], rest) := rfl

/-! ### After the loop -/

/-- Only `--etw-rundown` sets the interval, and `--etw` stays. -/
theorem settings_foldl (opts : List Opt) (st : LauncherOptions)
    (h : st.useEtw = true ∨ .etw ∈ opts) : (opts.foldl Opt.apply st).useEtw = true := by
  induction opts generalizing st with
  | nil => simpa using h
  | cons o opts ih =>
    apply ih
    rcases h with h | h
    · left
      cases o <;> first | exact h | rfl
    · rcases List.mem_cons.mp h with rfl | h
      · exact Or.inl rfl
      · exact Or.inr h

theorem rundown_foldl (opts : List Opt) (st : LauncherOptions) (h : st.etwRundownMs = 0)
    (hno : ∀ seconds, Opt.etwRundown seconds ∉ opts) :
    (opts.foldl Opt.apply st).etwRundownMs = 0 := by
  induction opts generalizing st with
  | nil => exact h
  | cons o opts ih =>
    apply ih
    · cases o with
      | etwRundown seconds => exact absurd List.mem_cons_self (hno seconds)
      | _ => exact h
    · exact fun seconds hmem => hno seconds (List.mem_cons_of_mem o hmem)

namespace Invocation

variable {inv : Invocation}

/-- The check that `--etw-rundown` comes with `--etw` is passed. -/
theorem WellFormed.useEtw (h : inv.WellFormed) (hms : inv.settings.etwRundownMs ≠ 0) :
    inv.settings.useEtw = true := by
  by_cases hr : ∃ seconds, .etwRundown seconds ∈ inv.options
  · obtain ⟨seconds, hmem⟩ := hr
    exact settings_foldl inv.options {} (Or.inr (h.nested seconds hmem))
  · exact absurd (rundown_foldl inv.options {} rfl fun seconds hmem => hr ⟨seconds, hmem⟩) hms

theorem parseArgs_plain (h : inv.WellFormed) (hsep : inv.separator = false) :
    parseArgs inv.words = .ok (inv.settings, inv.target, inv.args) := by
  have hloop : parseLoop {} inv.words = .ok (inv.settings, inv.target, inv.args) := by
    unfold words
    rw [parseLoop_options {} h.options, hsep]
    exact parseLoop_target _ (h.target_dash hsep) inv.args
  unfold parseArgs
  rw [hloop]
  dsimp only
  rw [if_neg h.target_ne, if_neg]
  rintro ⟨hms, hetw⟩
  rw [h.useEtw hms] at hetw
  cases hetw

theorem parseArgs_separator (h : ∀ o ∈ inv.options, o.WellFormed) (hsep : inv.separator = true) :
    parseArgs inv.words = .error .noTarget := by
  have hloop : parseLoop {} inv.words = .ok (inv.settings, [], inv.target :: inv.args) := by
    unfold words
    rw [parseLoop_options {} h, hsep]
    exact parseLoop_separator _ (inv.target :: inv.args)
  unfold parseArgs
  rw [hloop]
  rfl

/-- No option, no `--` and no target is `--elevated-by`. -/
theorem elevatedBy_words (h : inv.WellFormed) : elevatedBy inv.words = (0, inv.words) := by
  have hhead : inv.words.head? ≠ some (wliteral "--elevated-by") := by
    unfold words
    cases hopts : inv.options with
    | nil =>
      cases hsep : inv.separator with
      | true =>
        show some (wliteral "--") ≠ some (wliteral "--elevated-by")
        decide
      | false =>
        have hne := ne_of_head (h.target_dash hsep) (b := wliteral "--elevated-by") rfl
        simpa using hne
    | cons o opts =>
      obtain ⟨w, ws, hw, hne⟩ := o.words_head
      simp [hw, hne]
  unfold elevatedBy
  split
  · next a v rest hwords =>
    rw [hwords] at hhead
    rw [if_neg fun ha => hhead (congrArg some ha), hwords]
  · rfl

/-- **An invocation is read as the usage text documents it exactly when it has no `--`.** -/
theorem wmain_iff (h : inv.WellFormed) (begins : ℕ → Bool) :
    wmain begins inv.words = .ok (0, inv.settings, inv.target, inv.args) ↔
      inv.separator = false := by
  unfold wmain
  simp only [elevatedBy_words h]
  cases hsep : inv.separator with
  | false =>
    rw [parseArgs_plain h hsep]
    simp
  | true =>
    rw [parseArgs_separator h.options hsep]
    simp

/-- `--etw --etw-rundown 30 -o a.jsonl game.exe -x`. -/
def rundownInvocation : Invocation where
  options := [.etw, .etwRundown (wliteral "30"), .output (wliteral "a.jsonl")]
  separator := false
  target := wliteral "game.exe"
  args := [wliteral "-x"]

theorem wmain_iff_rundownInvocation :
    wmain (fun _ => true) rundownInvocation.words =
      .ok (0, { jsonlPath := wliteral "a.jsonl", useEtw := true, etwRundownMs := 30000 },
        wliteral "game.exe", [wliteral "-x"]) := by
  have hwf : rundownInvocation.WellFormed := by
    refine ⟨?_, fun _ _ => List.mem_cons_self, by decide, fun _ => by decide⟩
    intro o ho
    rcases List.mem_cons.mp ho with rfl | ho
    · trivial
    · rcases List.mem_cons.mp ho with rfl | ho
      · exact ⟨by decide, by decide, by decide, by decide⟩
      · cases List.mem_singleton.mp ho
        trivial
  exact (wmain_iff hwf fun _ => true).mpr rfl

/-- `-- game.exe`. -/
theorem not_wmain_separator :
    ¬∀ (begins : ℕ → Bool) (inv : Invocation), inv.WellFormed →
      wmain begins inv.words = .ok (0, inv.settings, inv.target, inv.args) := by
  intro h
  have hwf : Invocation.WellFormed ⟨[], true, wliteral "game.exe", []⟩ := by
    refine ⟨?_, ?_, by decide, fun hsep => absurd hsep (by decide)⟩
    · intro o ho
      cases ho
    · intro seconds hmem
      cases hmem
  exact absurd (h (fun _ => true) _ hwf) (by decide)

end Invocation

/-! ### The command line of the target -/

/-- `BuildCommandLine`: the target in quotes, and the arguments as they are. -/
def buildCommandLine (target : WString) (extra : List WString) : WString :=
  [34] ++ target ++ [34] ++ extra.flatMap fun a => [32] ++ a

/-- The characters that matter to `CommandLineToArgvW` and to the C runtime. -/
def commandLine : Argv.Alphabet UInt16 where
  quote := 34
  slash := 92
  blank c := c == 32 || c == 9
  quote_ne_slash := by decide
  not_blank_quote := by decide
  not_blank_slash := by decide

/-- An argument that the C runtime reads as it is: no blank, no quote, and not empty. -/
def NeedsNoQuotes (a : WString) : Prop := a ≠ [] ∧ ∀ c ∈ a, c ≠ 32 ∧ c ≠ 9 ∧ c ≠ 34

instance (a : WString) : Decidable (NeedsNoQuotes a) :=
  @instDecidableAnd _ _ _ (List.decidableBAll (fun c => c ≠ 32 ∧ c ≠ 9 ∧ c ≠ 34) a)

theorem plain_iff (a : WString) : Argv.Plain commandLine a ↔ NeedsNoQuotes a := by
  constructor
  · intro h
    refine ⟨h.ne_nil, fun c hc => ?_⟩
    have hblank : (c == 32 || c == 9) = false := h.blank c hc
    simp only [Bool.or_eq_false_iff, beq_eq_false_iff_ne] at hblank
    exact ⟨hblank.1, hblank.2, fun heq => h.quote (show (34 : UInt16) ∈ a from heq ▸ hc)⟩
  · rintro ⟨hne, hall⟩
    refine ⟨hne, fun c hc => ?_, fun hq => (hall _ hq).2.2 rfl⟩
    show (c == 32 || c == 9) = false
    simp [(hall c hc).1, (hall c hc).2.1]

/-- **The target sees its path and the arguments exactly when none of these needs quotes**,
whatever a quote behind a closing quote means to it. -/
theorem splitLine_buildCommandLine (d : Argv.Doubled) {target : WString} (htarget : 34 ∉ target)
    (args : List WString) :
    Argv.splitLine commandLine d (buildCommandLine target args) = target :: args ↔
      ∀ a ∈ args, NeedsNoQuotes a := by
  have hline : buildCommandLine target args
      = commandLine.quote :: target ++ commandLine.quote :: args.flatMap fun a => 32 :: a := by
    simp [buildCommandLine, commandLine]
  rw [hline, Argv.splitLine_quoted htarget (show commandLine.blank 32 = true by decide)]
  exact forall₂_congr fun a _ => plain_iff a

theorem splitLine_buildCommandLine_game :
    Argv.splitLine commandLine .staysOpen
        (buildCommandLine (wliteral "C:\\my game.exe") [wliteral "-d", wliteral "a\\b\\"]) =
      [wliteral "C:\\my game.exe", wliteral "-d", wliteral "a\\b\\"] := by
  refine (splitLine_buildCommandLine .staysOpen (by decide) _).mpr fun a ha => ?_
  rcases List.mem_cons.mp ha with rfl | ha
  · decide
  · cases List.mem_singleton.mp ha
    decide

/-- The argument `a b` is two for the target. -/
theorem not_splitLine_blank :
    ¬∀ (d : Argv.Doubled) (target : WString) (args : List WString), target ≠ [] → 34 ∉ target →
      Argv.splitLine commandLine d (buildCommandLine target args) = target :: args := by
  intro h
  have hsplit : Argv.splitLine commandLine .staysOpen
      (buildCommandLine (wliteral "game.exe") [wliteral "a b"])
        = [wliteral "game.exe", wliteral "a", wliteral "b"] := by decide
  rw [h .staysOpen (wliteral "game.exe") [wliteral "a b"] (by decide) (by decide)] at hsplit
  exact absurd hsplit (by decide)

end Dx12Track
