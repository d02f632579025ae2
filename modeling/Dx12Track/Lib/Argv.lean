import Mathlib.Data.List.Count

/-!
# Splitting a command line

How a program gets its arguments from one text: blanks separate them, quotes group,
and backslashes in front of a quote escape it.  The conventions only differ in what a
quote behind a closing quote means, which is a parameter here.  The text is over an
arbitrary type of characters.

* `Argv.Alphabet` — the characters that matter.
* `Argv.Doubled` — a quote behind a closing quote.
* `Argv.split`, `Argv.splitLine` — the arguments; the name of the program and the
  arguments.
* `Argv.runtimeName`, `Argv.runtimeLine` — the same where quotes may stand anywhere in the
  name of the program.
* `Argv.Delimited` — a command line whose name of the program ends where it seems to.
* `Argv.Plain` — a word that needs no quoting.
* `split_plain` — **plain words are split as they were joined**.
* `split_marks_lt` — splitting a text with a quote in it loses a quote or a backslash.
* `split_eq_iff`, `splitLine_quoted` — **no other words are**.
-/

namespace Argv

/-- The characters that matter. -/
structure Alphabet (α : Type) [DecidableEq α] where
  quote : α
  slash : α
  /-- What separates words. -/
  blank : α → Bool
  quote_ne_slash : quote ≠ slash
  not_blank_quote : blank quote = false
  not_blank_slash : blank slash = false

/-- What a quote right behind a closing quote means. -/
inductive Doubled
  /-- It opens. -/
  | opens
  /-- It stands for itself, and the quotes stay open. -/
  | staysOpen
  /-- It stands for itself, and the quotes are closed. -/
  | staysClosed
  deriving DecidableEq

inductive Mode
  | outside
  | quoted
  /-- Outside, right behind a closing quote. -/
  | closed
  deriving DecidableEq

section

variable {α : Type} [DecidableEq α] (A : Alphabet α) (d : Doubled)

/-- The word that ends: what was read of it, and the backslashes that were not in front of a
quote. -/
def word (slashes : ℕ) : Option (List α) → List (List α)
  | none => []
  | some w => [w ++ List.replicate slashes A.slash]

/-- A quote right behind a closing quote. -/
def Doubled.mode : Doubled → Mode
  | opens => .quoted
  | staysOpen => .quoted
  | staysClosed => .outside

/-- The words of a text, where `w` is the word that was begun and `slashes` backslashes were read
of it last. -/
def split (mode : Mode) (slashes : ℕ) (w : Option (List α)) : List α → List (List α)
  | [] => word A slashes w
  | c :: text =>
    if c = A.slash then
      split (if mode = .quoted then .quoted else .outside) (slashes + 1) (some (w.getD [])) text
    else if c = A.quote then
      let u := w.getD [] ++ List.replicate (slashes / 2) A.slash
      if slashes % 2 = 1 then split mode 0 (some (u ++ [A.quote])) text
      else
        match mode with
        | .outside => split .quoted 0 (some u) text
        | .quoted => split .closed 0 (some u) text
        | .closed =>
          split d.mode 0 (some (if d = .opens then u else u ++ [A.quote])) text
    else if A.blank c = true ∧ mode ≠ .quoted then word A slashes w ++ split .outside 0 none text
    else
      split (if mode = .quoted then .quoted else .outside) 0
        (some (w.getD [] ++ List.replicate slashes A.slash ++ [c])) text

/-- The name of the program and what is behind it: no backslash escapes in the name. -/
def programName (line : List α) : List α × List α :=
  match line with
  | [] => ([], [])
  | c :: rest =>
    if c = A.quote then
      (rest.takeWhile (· ≠ A.quote), (rest.dropWhile (· ≠ A.quote)).tail)
    else
      (line.takeWhile fun c => !A.blank c, line.dropWhile fun c => !A.blank c)

/-- The name of the program, and its arguments. -/
def splitLine (line : List α) : List (List α) :=
  (programName A line).1 :: split A d .outside 0 none (programName A line).2

/-- The name of the program, and what is behind it and the blank: every quote of the name begins or
ends a part in which blanks do not count; `inside` such a part. -/
def runtimeName (inside : Bool) : List α → List α × List α
  | [] => ([], [])
  | c :: text =>
    if c = A.quote then runtimeName (!inside) text
    else if inside = false ∧ A.blank c = true then ([], text)
    else (c :: (runtimeName inside text).1, (runtimeName inside text).2)

/-- The name of the program, and its arguments. -/
def runtimeLine (line : List α) : List (List α) :=
  (runtimeName A false line).1 :: split A d .outside 0 none (runtimeName A false line).2

/-- What is behind the name of the program begins with a blank. -/
def Ends (rest : List α) : Prop := ∀ c ∈ rest.head?, A.blank c = true

/-- A command line that begins with a name in quotes, or with one that has none, up to a blank. -/
inductive Delimited : List α → Prop
  | quoted (name rest : List α) (hname : A.quote ∉ name) (hrest : Ends A rest) :
      Delimited (A.quote :: name ++ A.quote :: rest)
  | bare (name rest : List α) (hname : A.quote ∉ name) (hblank : ∀ c ∈ name, A.blank c = false)
      (hrest : Ends A rest) : Delimited (name ++ rest)

/-- A word that needs no quoting. -/
structure Plain (w : List α) : Prop where
  ne_nil : w ≠ []
  blank : ∀ c ∈ w, A.blank c = false
  quote : A.quote ∉ w

/-- The number of quotes and backslashes. -/
def marks (w : List α) : ℕ := w.count A.quote + w.count A.slash

variable {A d}

@[simp] theorem split_nil (mode : Mode) (n : ℕ) (w : Option (List α)) :
    split A d mode n w [] = word A n w := rfl

theorem split_slash (mode : Mode) (n : ℕ) (w : Option (List α)) (text : List α) :
    split A d mode n w (A.slash :: text) =
      split A d (if mode = .quoted then .quoted else .outside) (n + 1) (some (w.getD [])) text := by
  simp [split]

/-- A character that is no mark and does not end the word. -/
theorem split_other {c : α} (hs : c ≠ A.slash) (hq : c ≠ A.quote) {mode : Mode}
    (hb : A.blank c = false ∨ mode = .quoted) (n : ℕ) (w : Option (List α)) (text : List α) :
    split A d mode n w (c :: text) =
      split A d (if mode = .quoted then .quoted else .outside) 0
        (some (w.getD [] ++ List.replicate n A.slash ++ [c])) text := by
  have hend : ¬(A.blank c = true ∧ mode ≠ .quoted) := by
    rintro ⟨hblank, hmode⟩
    rcases hb with hb | hb
    · simp [hb] at hblank
    · exact hmode hb
  simp only [split, if_neg hs, if_neg hq, if_neg hend]

theorem split_blank {c : α} (hb : A.blank c = true) {mode : Mode} (hmode : mode ≠ .quoted)
    (n : ℕ) (w : Option (List α)) (text : List α) :
    split A d mode n w (c :: text) = word A n w ++ split A d .outside 0 none text := by
  have hs : c ≠ A.slash := by
    rintro rfl
    simp [A.not_blank_slash] at hb
  have hq : c ≠ A.quote := by
    rintro rfl
    simp [A.not_blank_quote] at hb
  simp only [split, if_neg hs, if_neg hq, if_pos (And.intro hb hmode)]

/-! ### Plain words -/

/-- A plain word is read to its end, whatever backslashes are in it. -/
theorem split_word {v : List α} (hb : ∀ c ∈ v, A.blank c = false) (hq : A.quote ∉ v) (n : ℕ)
    (u : List α) {rest : List α} (hrest : ∀ c ∈ rest.head?, A.blank c = true) :
    split A d .outside n (some u) (v ++ rest) =
      (u ++ List.replicate n A.slash ++ v) :: split A d .outside 0 none rest := by
  induction v generalizing n u with
  | nil =>
    cases rest with
    | nil => simp [word]
    | cons c rest =>
      have hc : A.blank c = true := hrest c rfl
      rw [List.nil_append, split_blank hc (by decide), split_blank hc (by decide)]
      simp [word]
  | cons c v ih =>
    have hb' : ∀ c' ∈ v, A.blank c' = false := fun c' h => hb c' (List.mem_cons_of_mem c h)
    have hq' : A.quote ∉ v := fun h => hq (List.mem_cons_of_mem c h)
    rw [List.cons_append]
    by_cases hc : c = A.slash
    · -- the backslash stands for itself, as no quote follows
      subst hc
      rw [split_slash]
      simp [ih hb' hq', List.replicate_succ']
    · have hcq : c ≠ A.quote := fun h => hq (h ▸ List.mem_cons_self)
      rw [split_other hc hcq (Or.inl (hb c List.mem_cons_self))]
      simp [ih hb' hq']

/-- The first character of a plain word begins it. -/
theorem split_begin {v : List α} (h : Plain A v) {rest : List α}
    (hrest : ∀ c ∈ rest.head?, A.blank c = true) :
    split A d .outside 0 none (v ++ rest) = v :: split A d .outside 0 none rest := by
  obtain ⟨c, v, rfl⟩ := List.exists_cons_of_ne_nil h.ne_nil
  have hb : ∀ c' ∈ v, A.blank c' = false := fun c' hc => h.blank c' (List.mem_cons_of_mem c hc)
  have hq : A.quote ∉ v := fun hv => h.quote (List.mem_cons_of_mem c hv)
  rw [List.cons_append]
  by_cases hc : c = A.slash
  · subst hc
    rw [split_slash]
    simp [split_word hb hq _ _ hrest]
  · have hcq : c ≠ A.quote := fun hv => h.quote (hv ▸ List.mem_cons_self)
    rw [split_other hc hcq (Or.inl (h.blank c List.mem_cons_self))]
    simp [split_word hb hq _ _ hrest]

/-- **Plain words are split as they were joined.** -/
theorem split_plain {b : α} (hb : A.blank b = true) {ws : List (List α)}
    (h : ∀ w ∈ ws, Plain A w) :
    split A d .outside 0 none (ws.flatMap fun w => b :: w) = ws := by
  induction ws with
  | nil => rfl
  | cons w ws ih =>
    have hrest : ∀ c ∈ (ws.flatMap fun w => b :: w).head?, A.blank c = true := by
      cases ws with
      | nil => simp
      | cons w' ws => simp [hb]
    rw [List.flatMap_cons, List.cons_append, split_blank hb (by decide),
      split_begin (h w List.mem_cons_self) hrest, ih fun w' hw => h w' (List.mem_cons_of_mem w hw)]
    rfl

/-! ### Marks -/

@[simp] theorem marks_nil : marks A [] = 0 := rfl

@[simp] theorem marks_append (u v : List α) : marks A (u ++ v) = marks A u + marks A v := by
  unfold marks
  rw [List.count_append, List.count_append]
  omega

@[simp] theorem marks_slashes (n : ℕ) : marks A (List.replicate n A.slash) = n := by
  unfold marks
  rw [List.count_replicate_self, List.count_replicate, if_neg (by simp [A.quote_ne_slash.symm])]
  omega

@[simp] theorem marks_quote : marks A [A.quote] = 1 := by
  simp [marks, A.quote_ne_slash]

theorem marks_other {c : α} (hs : c ≠ A.slash) (hq : c ≠ A.quote) : marks A [c] = 0 := by
  simp [marks, hs, hq]

@[simp] theorem marks_flatten_word (n : ℕ) (w : Option (List α)) :
    marks A (word A n w).flatten ≤ marks A (w.getD []) + n := by
  cases w <;> simp [word]

/-- A quote is read.  Only one behind a closing quote may be kept without a loss. -/
theorem split_quote (mode : Mode) (n : ℕ) (w : Option (List α)) :
    ∃ mode' u, (∀ text, split A d mode n w (A.quote :: text) = split A d mode' 0 (some u) text) ∧
      marks A u ≤ marks A (w.getD []) + n + 1 ∧
      (mode ≠ .closed → marks A u ≤ marks A (w.getD []) + n) := by
  by_cases hodd : n % 2 = 1
  · refine ⟨mode, w.getD [] ++ List.replicate (n / 2) A.slash ++ [A.quote], fun text => ?_, ?_, ?_⟩
    · simp [split, A.quote_ne_slash, hodd]
    · simp
      omega
    · simp
      omega
  · cases mode with
    | outside =>
      refine ⟨.quoted, w.getD [] ++ List.replicate (n / 2) A.slash, fun text => ?_, ?_, ?_⟩
      · simp [split, A.quote_ne_slash, hodd]
      · simp
        omega
      · simp
        omega
    | quoted =>
      refine ⟨.closed, w.getD [] ++ List.replicate (n / 2) A.slash, fun text => ?_, ?_, ?_⟩
      · simp [split, A.quote_ne_slash, hodd]
      · simp
        omega
      · simp
        omega
    | closed =>
      let u := w.getD [] ++ List.replicate (n / 2) A.slash
      refine ⟨d.mode, if d = .opens then u else u ++ [A.quote], fun text => ?_, ?_, ?_⟩
      · simp [split, A.quote_ne_slash, hodd, u]
      · split <;> simp [u] <;> omega
      · exact fun h => absurd rfl h

/-- Every quote and backslash of the words was one of the text. -/
theorem split_marks_le (text : List α) (mode : Mode) (n : ℕ) (w : Option (List α)) :
    marks A (split A d mode n w text).flatten ≤ marks A (w.getD []) + n + marks A text := by
  induction text generalizing mode n w with
  | nil => simp
  | cons c text ih =>
    have hcons : marks A (c :: text) = marks A [c] + marks A text := marks_append [c] text
    rw [hcons]
    by_cases hs : c = A.slash
    · subst hs
      have hone : marks A [A.slash] = 1 := marks_slashes 1
      have hle := ih (if mode = .quoted then .quoted else .outside) (n + 1) (some (w.getD []))
      rw [split_slash]
      simp only [Option.getD_some] at hle
      omega
    · by_cases hq : c = A.quote
      · subst hq
        obtain ⟨mode', u, heq, hu, -⟩ := split_quote (A := A) (d := d) mode n w
        have hle := ih mode' 0 (some u)
        rw [heq, marks_quote]
        simp only [Option.getD_some] at hle
        omega
      · rw [marks_other hs hq]
        by_cases hend : A.blank c = true ∧ mode ≠ .quoted
        · have hle := ih .outside 0 none
          have hword := marks_flatten_word (A := A) n w
          rw [split_blank hend.1 hend.2, List.flatten_append, marks_append]
          simp only [Option.getD_none, marks_nil] at hle
          omega
        · have hin : A.blank c = false ∨ mode = .quoted := by
            rw [not_and_or, not_not] at hend
            exact hend.imp_left fun h => by simpa using h
          have hle := ih (if mode = .quoted then .quoted else .outside) 0
            (some (w.getD [] ++ List.replicate n A.slash ++ [c]))
          rw [split_other hs hq hin]
          simp only [Option.getD_some, marks_append, marks_slashes, marks_other hs hq] at hle
          omega

/-- **A quote of the text is lost, or a backslash with it.** -/
theorem split_marks_lt {text : List α} (hmem : A.quote ∈ text) {mode : Mode}
    (hmode : mode ≠ .closed) (n : ℕ) (w : Option (List α)) :
    marks A (split A d mode n w text).flatten < marks A (w.getD []) + n + marks A text := by
  induction text generalizing mode n w with
  | nil => simp at hmem
  | cons c text ih =>
    have hcons : marks A (c :: text) = marks A [c] + marks A text := marks_append [c] text
    have hopen : (if mode = .quoted then Mode.quoted else .outside) ≠ .closed := by
      split <;> decide
    rw [hcons]
    by_cases hq : c = A.quote
    · subst hq
      -- the quote itself is the mark that is lost
      obtain ⟨mode', u, heq, -, hu⟩ := split_quote (A := A) (d := d) mode n w
      have hle := split_marks_le (A := A) (d := d) text mode' 0 (some u)
      have hkept := hu hmode
      rw [heq, marks_quote]
      simp only [Option.getD_some] at hle
      omega
    · have hrest : A.quote ∈ text := by
        rcases List.mem_cons.mp hmem with h | h
        · exact absurd h.symm hq
        · exact h
      by_cases hs : c = A.slash
      · subst hs
        have hone : marks A [A.slash] = 1 := marks_slashes 1
        have hlt := ih hrest hopen (n + 1) (some (w.getD []))
        rw [split_slash]
        simp only [Option.getD_some] at hlt
        omega
      · rw [marks_other hs hq]
        by_cases hend : A.blank c = true ∧ mode ≠ .quoted
        -- the word ends here, and the quote is in what is left
        · have hlt := ih hrest (show Mode.outside ≠ .closed by decide) 0 none
          have hword := marks_flatten_word (A := A) n w
          rw [split_blank hend.1 hend.2, List.flatten_append, marks_append]
          simp only [Option.getD_none, marks_nil] at hlt
          omega
        · have hin : A.blank c = false ∨ mode = .quoted := by
            rw [not_and_or, not_not] at hend
            exact hend.imp_left fun h => by simpa using h
          have hlt := ih hrest hopen 0 (some (w.getD [] ++ List.replicate n A.slash ++ [c]))
          rw [split_other hs hq hin]
          simp only [Option.getD_some, marks_append, marks_slashes, marks_other hs hq] at hlt
          omega

/-! ### Texts without quotes -/

/-- Without quotes no word is empty, and none has a blank. -/
theorem split_of_not_quote {text : List α} (hq : A.quote ∉ text) {n : ℕ} {w : Option (List α)}
    (hw : ∀ u ∈ word A n w, u ≠ [] ∧ ∀ c ∈ u, A.blank c = false) :
    ∀ u ∈ split A d .outside n w text, u ≠ [] ∧ ∀ c ∈ u, A.blank c = false := by
  induction text generalizing n w with
  | nil => exact hw
  | cons c text ih =>
    have hcq : c ≠ A.quote := fun h => hq (h ▸ List.mem_cons_self)
    have hrest : A.quote ∉ text := fun h => hq (List.mem_cons_of_mem c h)
    have hbegun : ∀ c' ∈ w.getD [], A.blank c' = false := by
      cases w with
      | none => simp
      | some v => exact fun c' hc' => (hw _ List.mem_cons_self).2 c' (List.mem_append_left _ hc')
    have hslashes : ∀ k, ∀ c' ∈ List.replicate k A.slash, A.blank c' = false := by
      intro k c' hc'
      rw [List.eq_of_mem_replicate hc', A.not_blank_slash]
    by_cases hs : c = A.slash
    · subst hs
      rw [split_slash]
      apply ih hrest
      intro u hu
      cases List.mem_singleton.mp hu
      refine ⟨by simp, fun c' hc' => ?_⟩
      exact (List.mem_append.mp hc').elim (hbegun c') (hslashes _ c')
    · cases hb : A.blank c with
      | true =>
        rw [split_blank hb (by decide)]
        intro u hu
        rcases List.mem_append.mp hu with hu | hu
        · exact hw u hu
        · exact ih hrest (by simp [word]) u hu
      | false =>
        rw [split_other hs hcq (Or.inl hb)]
        apply ih hrest
        intro u hu
        cases List.mem_singleton.mp hu
        refine ⟨by simp, fun c' hc' => ?_⟩
        simp only [List.replicate_zero, List.append_nil, List.mem_append, List.mem_singleton] at hc'
        rcases hc' with (hc' | hc') | rfl
        · exact hbegun c' hc'
        · exact hslashes n c' hc'
        · exact hb

theorem marks_joined {b : α} (hb : A.blank b = true) (ws : List (List α)) :
    marks A (ws.flatMap fun w => b :: w) = marks A ws.flatten := by
  have hs : b ≠ A.slash := by
    rintro rfl
    simp [A.not_blank_slash] at hb
  have hq : b ≠ A.quote := by
    rintro rfl
    simp [A.not_blank_quote] at hb
  induction ws with
  | nil => rfl
  | cons w ws ih =>
    have hcons : marks A (b :: w) = marks A [b] + marks A w := marks_append [b] w
    rw [List.flatMap_cons, marks_append, hcons, ih, marks_other hs hq, List.flatten_cons,
      marks_append, Nat.zero_add]

/-- **Words that were joined with blanks come back exactly when they are plain.** -/
theorem split_eq_iff {b : α} (hb : A.blank b = true) (ws : List (List α)) :
    split A d .outside 0 none (ws.flatMap fun w => b :: w) = ws ↔ ∀ w ∈ ws, Plain A w := by
  refine ⟨fun h w hw => ?_, split_plain hb⟩
  have hquote : A.quote ∉ ws.flatMap fun w => b :: w := by
    intro hmem
    have hlt := split_marks_lt (A := A) (d := d) hmem (show Mode.outside ≠ .closed by decide) 0
      none
    rw [h, marks_joined hb] at hlt
    simp at hlt
  obtain ⟨hne, hblank⟩ := split_of_not_quote (d := d) hquote (n := 0) (w := none) (by simp [word])
    w (h.symm ▸ hw)
  refine ⟨hne, hblank, fun hq => hquote ?_⟩
  exact List.mem_flatMap.mpr ⟨w, hw, List.mem_cons_of_mem b hq⟩

/-! ### The name of the program -/

/-- A quoted name is read to its closing quote. -/
theorem programName_quoted {name : List α} (h : A.quote ∉ name) (rest : List α) :
    programName A (A.quote :: name ++ A.quote :: rest) = (name, rest) := by
  have hall : ∀ c ∈ name, decide (c ≠ A.quote) = true := by
    intro c hc
    exact decide_eq_true fun heq => h (heq ▸ hc)
  show (if A.quote = A.quote then _ else _) = _
  rw [if_pos rfl, List.append_eq, List.takeWhile_append_of_pos hall,
    List.dropWhile_append_of_pos hall]
  simp

/-- **A quoted name and words behind it come back exactly when the words are plain.** -/
theorem splitLine_quoted {name : List α} (h : A.quote ∉ name) {b : α} (hb : A.blank b = true)
    (ws : List (List α)) :
    splitLine A d (A.quote :: name ++ A.quote :: ws.flatMap fun w => b :: w) = name :: ws ↔
      ∀ w ∈ ws, Plain A w := by
  unfold splitLine
  rw [programName_quoted h, List.cons.injEq, split_eq_iff hb]
  exact and_iff_right rfl

/-! ### The name of the program, read by the other rule -/

/-- Blanks in front of the words do not matter. -/
theorem split_dropWhile_blank (text : List α) :
    split A d .outside 0 none (text.dropWhile A.blank) = split A d .outside 0 none text := by
  induction text with
  | nil => rfl
  | cons c text ih =>
    cases hb : A.blank c with
    | true =>
      rw [List.dropWhile_cons_of_pos hb, ih, split_blank hb (by decide)]
      rfl
    | false => rw [List.dropWhile_cons_of_neg (by simp [hb])]

theorem split_tail {rest : List α} (h : Ends A rest) :
    split A d .outside 0 none rest.tail = split A d .outside 0 none rest := by
  cases rest with
  | nil => rfl
  | cons c rest =>
    rw [split_blank (h c rfl) (by decide)]
    rfl

theorem runtimeName_ends {rest : List α} (h : Ends A rest) :
    runtimeName A false rest = ([], rest.tail) := by
  cases rest with
  | nil => rfl
  | cons c rest =>
    have hb : A.blank c = true := h c rfl
    have hq : c ≠ A.quote := by
      rintro rfl
      simp [A.not_blank_quote] at hb
    rw [runtimeName, if_neg hq, if_pos ⟨rfl, hb⟩]
    rfl

theorem runtimeName_bare {name rest : List α} (hname : A.quote ∉ name)
    (hblank : ∀ c ∈ name, A.blank c = false) (hrest : Ends A rest) :
    runtimeName A false (name ++ rest) = (name, rest.tail) := by
  induction name with
  | nil => exact runtimeName_ends hrest
  | cons c name ih =>
    have hq : c ≠ A.quote := fun h => hname (h ▸ List.mem_cons_self)
    have hb : A.blank c = false := hblank c List.mem_cons_self
    rw [List.cons_append, runtimeName, if_neg hq, if_neg (by simp [hb]),
      ih (fun h => hname (List.mem_cons_of_mem c h)) fun c' h =>
        hblank c' (List.mem_cons_of_mem c h)]

theorem runtimeName_quoted {name rest : List α} (hname : A.quote ∉ name) (hrest : Ends A rest) :
    runtimeName A false (A.quote :: name ++ A.quote :: rest) = (name, rest.tail) := by
  have hinside : runtimeName A true (name ++ A.quote :: rest) = (name, rest.tail) := by
    induction name with
    | nil =>
      rw [List.nil_append, runtimeName, if_pos rfl]
      exact runtimeName_ends hrest
    | cons c name ih =>
      have hq : c ≠ A.quote := fun h => hname (h ▸ List.mem_cons_self)
      rw [List.cons_append, runtimeName, if_neg hq, if_neg (by simp),
        ih fun h => hname (List.mem_cons_of_mem c h)]
  rw [List.cons_append, runtimeName, if_pos rfl]
  exact hinside

theorem runtimeLine_quoted {name rest : List α} (hname : A.quote ∉ name) (hrest : Ends A rest) :
    runtimeLine A d (A.quote :: name ++ A.quote :: rest) =
      name :: split A d .outside 0 none rest := by
  rw [runtimeLine, runtimeName_quoted hname hrest, split_tail hrest]

/-- **Both rules find the same arguments** in a line with a delimited name. -/
theorem runtimeLine_tail {line : List α} (h : Delimited A line) :
    (runtimeLine A d line).tail = split A d .outside 0 none (programName A line).2 := by
  cases h with
  | quoted name rest hname hrest =>
    rw [runtimeLine_quoted hname hrest, programName_quoted hname]
    rfl
  | bare name rest hname hblank hrest =>
    have hdrop : (programName A (name ++ rest)).2 = rest := by
      have hnot : (name ++ rest).dropWhile (fun c => !A.blank c) = rest := by
        rw [List.dropWhile_append_of_pos fun c hc => by simp [hblank c hc]]
        cases rest with
        | nil => rfl
        | cons c rest => rw [List.dropWhile_cons_of_neg (by simp [hrest c rfl])]
      cases hline : name ++ rest with
      | nil =>
        rw [(List.append_eq_nil_iff.mp hline).2]
        rfl
      | cons c text =>
        have hc : c ≠ A.quote := by
          rintro rfl
          cases name with
          | nil =>
            have hhead : A.quote ∈ rest.head? := by
              rw [← List.nil_append rest, hline]
              rfl
            have hb : A.blank A.quote = true := hrest A.quote hhead
            simp [A.not_blank_quote] at hb
          | cons c' name =>
            injection hline with hc'
            exact hname (hc' ▸ List.mem_cons_self)
        rw [programName, if_neg hc, ← hline]
        exact hnot
    rw [runtimeLine, runtimeName_bare hname hblank hrest, hdrop]
    exact split_tail hrest

end

end Argv
