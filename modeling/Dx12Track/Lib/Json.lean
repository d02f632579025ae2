import Mathlib.Data.List.TakeWhile
import Dx12Track.Lib.Digits

/-!
# JSON texts

The grammar of RFC 8259 as a relation between texts and values, and a reader that
finds the value of every text the grammar has.  A number is kept as its literal;
the members of an object are kept in their order, with repetitions.

* `Json` — values.
* `Json.Item`, `Json.Chars` — what stands between the quotes of a string.
* `Json.isNumber` — the literals of numbers.
* `Json.Derives` — values, elements of arrays and members of objects.
* `Json.readValue`, `Json.parse` — the reader.
* `Json.reads_of_derives`, `Json.parse_of_isText` — **the reader finds what the
  grammar derives**.
-/

inductive Json
  | null
  | bool (b : Bool)
  | num (literal : List Char)
  | str (s : List Char)
  | arr (elements : List Json)
  | obj (members : List (List Char × Json))

namespace Json

open Digits

/-! ### Grammar -/

/-- White space between tokens. -/
def isWs (c : Char) : Bool := c = ' ' || c = '\t' || c = '\n' || c = '\r'

/-- Only white space. -/
def Ws (t : List Char) : Prop := ∀ c ∈ t, isWs c = true

/-- The value of four hexadecimal digits. -/
def hex4? (a b c d : Char) : Option ℕ := do
  let a ← hexDigit? a
  let b ← hexDigit? b
  let c ← hexDigit? c
  let d ← hexDigit? d
  return ((a * 16 + b) * 16 + c) * 16 + d

/-- The escapes of one character. -/
def escape? (e : Char) : Option Char :=
  if e = '"' ∨ e = '\\' ∨ e = '/' then some e
  else if e = 'b' then some '\x08'
  else if e = 'f' then some '\x0c'
  else if e = 'n' then some '\n'
  else if e = 'r' then some '\r'
  else if e = 't' then some '\t'
  else none

/-- A character of a string, and how it is written. -/
inductive Item : List Char → Char → Prop
  | plain {c : Char} (hc : 0x20 ≤ c.toNat) (hquote : c ≠ '"') (hback : c ≠ '\\') : Item [c] c
  | escape {e c : Char} (h : escape? e = some c) : Item ['\\', e] c
  | unicode {a b c d : Char} {n : ℕ} (h : hex4? a b c d = some n)
    (hn : n < 0xD800 ∨ 0xE000 ≤ n) : Item ['\\', 'u', a, b, c, d] (Char.ofNat n)
  | pair {a b c d a' b' c' d' : Char} {n n' : ℕ} (h : hex4? a b c d = some n)
    (hn : 0xD800 ≤ n ∧ n < 0xDC00) (h' : hex4? a' b' c' d' = some n')
    (hn' : 0xDC00 ≤ n' ∧ n' < 0xE000) :
    Item ['\\', 'u', a, b, c, d, '\\', 'u', a', b', c', d']
      (Char.ofNat (0x10000 + (n - 0xD800) * 0x400 + (n' - 0xDC00)))

/-- The characters of a string. -/
inductive Chars : List Char → List Char → Prop
  | nil : Chars [] []
  | cons {t ts : List Char} {c : Char} {cs : List Char} (h : Item t c) (hs : Chars ts cs) :
    Chars (t ++ ts) (c :: cs)

/-- An integer without its sign: no leading zero. -/
def isInt : List Char → Bool
  | [] => false
  | c :: t => (c :: t).all Char.isDigit && (c ≠ '0' || t.isEmpty)

/-- Without a leading character, if it is one of these. -/
def strip (signs : List Char) : List Char → List Char
  | [] => []
  | c :: t => if c ∈ signs then t else c :: t

/-- Not the beginning of an exponent. -/
def notExp (c : Char) : Bool := c ≠ 'e' && c ≠ 'E'

/-- Not the beginning of a fraction. -/
def notDot (c : Char) : Bool := c ≠ '.'

/-- The literal of a number: a minus, an integer, a fraction, an exponent. -/
def isNumber (literal : List Char) : Bool :=
  let mantissa := literal.takeWhile notExp
  let exponent := literal.dropWhile notExp
  let int := mantissa.takeWhile notDot
  let fraction := mantissa.dropWhile notDot
  isInt (strip ['-'] int) && (fraction.isEmpty || isDigits fraction.tail) &&
    (exponent.isEmpty || isDigits (strip ['+', '-'] exponent.tail))

/-- What the grammar has names for. -/
inductive Phrase
  | value (v : Json)
  /-- The elements of an array, one or more. -/
  | elements (vs : List Json)
  /-- The members of an object, one or more. -/
  | members (ms : List (List Char × Json))

inductive Derives : List Char → Phrase → Prop
  | nullWord : Derives ['n', 'u', 'l', 'l'] (.value .null)
  | trueWord : Derives ['t', 'r', 'u', 'e'] (.value (.bool true))
  | falseWord : Derives ['f', 'a', 'l', 's', 'e'] (.value (.bool false))
  | num {t : List Char} (h : isNumber t = true) : Derives t (.value (.num t))
  | str {t s : List Char} (h : Chars t s) : Derives ('"' :: t ++ ['"']) (.value (.str s))
  | emptyArr {w : List Char} (hw : Ws w) : Derives ('[' :: w ++ [']']) (.value (.arr []))
  | arr {t : List Char} {vs : List Json} (h : Derives t (.elements vs)) :
    Derives ('[' :: t ++ [']']) (.value (.arr vs))
  | emptyObj {w : List Char} (hw : Ws w) : Derives ('{' :: w ++ ['}']) (.value (.obj []))
  | obj {t : List Char} {ms : List (List Char × Json)} (h : Derives t (.members ms)) :
    Derives ('{' :: t ++ ['}']) (.value (.obj ms))
  | element {w t w' : List Char} {v : Json} (hw : Ws w) (h : Derives t (.value v))
    (hw' : Ws w') : Derives (w ++ t ++ w') (.elements [v])
  | elements {w t w' ts : List Char} {v : Json} {vs : List Json} (hw : Ws w)
    (h : Derives t (.value v)) (hw' : Ws w') (hs : Derives ts (.elements vs)) :
    Derives (w ++ t ++ w' ++ ',' :: ts) (.elements (v :: vs))
  | member {w k w₁ w₂ t w' key : List Char} {v : Json} (hw : Ws w) (hk : Chars k key)
    (hw₁ : Ws w₁) (hw₂ : Ws w₂) (h : Derives t (.value v)) (hw' : Ws w') :
    Derives (w ++ '"' :: k ++ '"' :: w₁ ++ ':' :: w₂ ++ t ++ w') (.members [(key, v)])
  | members {w k w₁ w₂ t w' key ts : List Char} {v : Json} {ms : List (List Char × Json)}
    (hw : Ws w) (hk : Chars k key) (hw₁ : Ws w₁) (hw₂ : Ws w₂) (h : Derives t (.value v))
    (hw' : Ws w') (hs : Derives ts (.members ms)) :
    Derives (w ++ '"' :: k ++ '"' :: w₁ ++ ':' :: w₂ ++ t ++ w' ++ ',' :: ts)
      (.members ((key, v) :: ms))

/-- A JSON text: a value, with white space around it. -/
def IsText (t : List Char) (v : Json) : Prop :=
  ∃ w t' w', Ws w ∧ Derives t' (.value v) ∧ Ws w' ∧ t = w ++ t' ++ w'

/-! ### Reader -/

def skipWs (t : List Char) : List Char := t.dropWhile isWs

/-- What follows a token, and the white space before it. -/
def expect (c : Char) (t : List Char) : Option (List Char) :=
  match skipWs t with
  | [] => none
  | d :: t => if d = c then some t else none

/-- Four hexadecimal digits. -/
def readHex : List Char → Option (ℕ × List Char)
  | a :: b :: c :: d :: t => (hex4? a b c d).map fun n => (n, t)
  | _ => none

/-- The second half of a pair. -/
def readLow (n : ℕ) : List Char → Option (Char × List Char)
  | c :: e :: t =>
    if c = '\\' ∧ e = 'u' ∧ n < 0xDC00 then
      match readHex t with
      | none => none
      | some (n', t) =>
        if 0xDC00 ≤ n' ∧ n' < 0xE000 then
          some (Char.ofNat (0x10000 + (n - 0xD800) * 0x400 + (n' - 0xDC00)), t)
        else none
    else none
  | _ => none

/-- What is behind a backslash. -/
def readEscape : List Char → Option (Char × List Char)
  | [] => none
  | e :: t =>
    if e = 'u' then
      match readHex t with
      | none => none
      | some (n, t) => if n < 0xD800 ∨ 0xE000 ≤ n then some (Char.ofNat n, t) else readLow n t
    else (escape? e).map fun c => (c, t)

/-- A character of a string, and what follows it. -/
def readItem : List Char → Option (Char × List Char)
  | [] => none
  | c :: t =>
    if c = '\\' then readEscape t
    else if c = '"' then none
    else if 0x20 ≤ c.toNat then some (c, t)
    else none

/-- The characters of a string and its quote, and what follows. -/
def readChars : ℕ → List Char → Option (List Char × List Char)
  | 0, _ => none
  | n + 1, t =>
    if t.head? = some '"' then some ([], t.tail)
    else
      match readItem t with
      | none => none
      | some (c, t) => (readChars n t).map fun x => (c :: x.1, x.2)

/-- A character of a word or the literal of a number. -/
def isWordChar (c : Char) : Bool := c.isAlphanum || c = '-' || c = '+' || c = '.'

/-- A value that is written as one word. -/
def word? (w : List Char) : Option Json :=
  if w = ['n', 'u', 'l', 'l'] then some .null
  else if w = ['t', 'r', 'u', 'e'] then some (.bool true)
  else if w = ['f', 'a', 'l', 's', 'e'] then some (.bool false)
  else if isNumber w then some (.num w)
  else none

def readWord (t : List Char) : Option (Json × List Char) :=
  (word? (t.takeWhile isWordChar)).map fun v => (v, t.dropWhile isWordChar)

mutual

/-- A value, and what follows it. -/
def readValue : ℕ → List Char → Option (Json × List Char)
  | 0, _ => none
  | _, [] => none
  | n + 1, c :: t =>
    if c = '"' then (readChars n t).map fun x => (.str x.1, x.2)
    else if c = '[' then
      match expect ']' t with
      | some t => some (.arr [], t)
      | none => (readElements n t).map fun x => (.arr x.1, x.2)
    else if c = '{' then
      match expect '}' t with
      | some t => some (.obj [], t)
      | none => (readMembers n t).map fun x => (.obj x.1, x.2)
    else readWord (c :: t)

/-- The elements of an array and its bracket, and what follows. -/
def readElements : ℕ → List Char → Option (List Json × List Char)
  | 0, _ => none
  | n + 1, t =>
    match readValue n (skipWs t) with
    | none => none
    | some (v, t) =>
      match expect ',' t with
      | some t => (readElements n t).map fun x => (v :: x.1, x.2)
      | none => (expect ']' t).map fun t => ([v], t)

/-- The members of an object and its brace, and what follows. -/
def readMembers : ℕ → List Char → Option (List (List Char × Json) × List Char)
  | 0, _ => none
  | n + 1, t =>
    match (expect '"' t).bind (readChars n) with
    | none => none
    | some (key, t) =>
      match (expect ':' t).bind fun t => readValue n (skipWs t) with
      | none => none
      | some (v, t) =>
        match expect ',' t with
        | some t => (readMembers n t).map fun x => ((key, v) :: x.1, x.2)
        | none => (expect '}' t).map fun t => ([(key, v)], t)

end

/-- The value of a text. -/
def parse (t : List Char) : Option Json :=
  match readValue (2 * t.length + 2) (skipWs t) with
  | some (v, t) => if skipWs t = [] then some v else none
  | none => none

/-! ### White space and tokens -/

/-- What follows white space, if it is not white space itself. -/
theorem skipWs_append {w t : List Char} (hw : Ws w) (ht : ∀ c ∈ t.head?, isWs c = false) :
    skipWs (w ++ t) = t := by
  induction w with
  | nil =>
    cases t with
    | nil => rfl
    | cons c t => exact List.dropWhile_cons_of_neg (by simp [ht c rfl])
  | cons c w ih =>
    have hc : isWs c = true := hw c List.mem_cons_self
    rw [List.cons_append, skipWs, List.dropWhile_cons_of_pos hc]
    exact ih fun d hd => hw d (List.mem_cons_of_mem c hd)

theorem ws_nil : Ws [] := fun c hc => by cases hc

/-- The token is there. -/
theorem expect_self {c : Char} (hc : isWs c = false) {w : List Char} (hw : Ws w) (t : List Char) :
    expect c (w ++ c :: t) = some t := by
  rw [expect, skipWs_append hw (by simp [hc])]
  exact if_pos rfl

/-- Another one is there. -/
theorem expect_other {c d : Char} (hd : isWs d = false) (hne : d ≠ c) {w : List Char} (hw : Ws w)
    (t : List Char) : expect c (w ++ d :: t) = none := by
  rw [expect, skipWs_append hw (by simp [hd])]
  exact if_neg hne

/-! ### Strings -/

theorem readItem_of_item {t : List Char} {c : Char} (h : Item t c) (rest : List Char) :
    readItem (t ++ rest) = some (c, rest) := by
  cases h with
  | plain hc hquote hback => simp [readItem, hc, hquote, hback]
  | @escape e c h =>
    have hu : e ≠ 'u' := by
      rintro rfl
      simp [escape?] at h
    simp [readItem, readEscape, hu, h]
  | unicode h hn => simp [readItem, readEscape, readHex, h, hn]
  | @pair a b c d a' b' c' d' n n' h hn h' hn' =>
    have hnot : ¬(n < 0xD800 ∨ 0xE000 ≤ n) := by omega
    simp [readItem, readEscape, readHex, readLow, h, h', hn, hn', hnot]

/-- An item does not begin with a quote. -/
theorem Item.head {t : List Char} {c : Char} (h : Item t c) :
    ∃ d t', t = d :: t' ∧ d ≠ '"' ∧ 0x20 ≤ d.toNat := by
  cases h with
  | plain hc hquote _ => exact ⟨_, _, rfl, hquote, hc⟩
  | escape h => exact ⟨_, _, rfl, by decide, by decide⟩
  | unicode h hn => exact ⟨_, _, rfl, by decide, by decide⟩
  | pair h hn h' hn' => exact ⟨_, _, rfl, by decide, by decide⟩

theorem readChars_of_chars {t s : List Char} (h : Chars t s) :
    ∀ n rest, t.length < n → readChars n (t ++ '"' :: rest) = some (s, rest) := by
  induction h with
  | nil =>
    intro n rest hn
    obtain ⟨n, rfl⟩ := Nat.exists_eq_succ_of_ne_zero (Nat.ne_of_gt hn)
    rfl
  | @cons t ts c cs h hs ih =>
    intro n rest hn
    obtain ⟨n, rfl⟩ := Nat.exists_eq_succ_of_ne_zero (Nat.ne_of_gt (Nat.zero_lt_of_lt hn))
    obtain ⟨d, t', rfl, hd, -⟩ := h.head
    have hlen : ts.length < n := by
      simp only [List.length_append, List.length_cons] at hn
      omega
    have hitem := readItem_of_item h (ts ++ '"' :: rest)
    rw [readChars, if_neg, List.append_assoc, hitem]
    · simp [ih n rest hlen]
    · simpa using hd

/-- A string has one content. -/
theorem Chars.unique {t s s' : List Char} (h : Chars t s) (h' : Chars t s') : s = s' := by
  have hread := readChars_of_chars h (t.length + 1) [] (Nat.lt_succ_self _)
  rw [readChars_of_chars h' (t.length + 1) [] (Nat.lt_succ_self _)] at hread
  exact (congrArg Prod.fst (Option.some.inj hread)).symm

theorem le_of_hexDigit? {c : Char} {n : ℕ} (h : hexDigit? c = some n) : 0x20 ≤ c.toNat := by
  have hle : ∀ d : Char, 0x20 ≤ d.toNat → d ≤ c → 0x20 ≤ c.toNat :=
    fun d hd hdc => Nat.le_trans hd hdc
  unfold hexDigit? at h
  split at h
  · next hc => exact hle _ (by decide) hc.1
  · split at h
    · next hc => exact hle _ (by decide) hc.1
    · split at h
      · next hc => exact hle _ (by decide) hc.1
      · cases h

theorem le_of_hex4? {a b c d : Char} {n : ℕ} (h : hex4? a b c d = some n) :
    ∀ e ∈ [a, b, c, d], 0x20 ≤ e.toNat := by
  simp only [hex4?, Option.bind_eq_bind, Option.bind_eq_some_iff] at h
  obtain ⟨_, ha, _, hb, _, hc, _, hd, -⟩ := h
  intro e he
  simp only [List.mem_cons, List.not_mem_nil, or_false] at he
  rcases he with rfl | rfl | rfl | rfl
  · exact le_of_hexDigit? ha
  · exact le_of_hexDigit? hb
  · exact le_of_hexDigit? hc
  · exact le_of_hexDigit? hd

theorem le_of_escape? {e c : Char} (h : escape? e = some c) : 0x20 ≤ e.toNat := by
  by_contra hlt
  have hne : ∀ d : Char, 0x20 ≤ d.toNat → e ≠ d := by
    rintro d hd rfl
    exact hlt hd
  have hnone : escape? e = none := by
    simp [escape?, hne]
  rw [hnone] at h
  cases h

/-- There are no control characters in a string as it is written. -/
theorem Item.printable {t : List Char} {c : Char} (h : Item t c) : ∀ d ∈ t, 0x20 ≤ d.toNat := by
  intro d hd
  cases h with
  | plain hc _ _ => rwa [List.mem_singleton.mp hd]
  | escape h =>
    simp only [List.mem_cons, List.not_mem_nil, or_false] at hd
    rcases hd with rfl | rfl
    · decide
    · exact le_of_escape? h
  | unicode h _ =>
    rcases List.mem_cons.mp hd with rfl | hd
    · decide
    · rcases List.mem_cons.mp hd with rfl | hd
      · decide
      · exact le_of_hex4? h d hd
  | @pair a b c d' a' b' c' d'' n n' h _ h' _ =>
    have hmem : d = '\\' ∨ d = 'u' ∨ d ∈ [a, b, c, d'] ∨ d ∈ [a', b', c', d''] := by
      simp only [List.mem_cons, List.not_mem_nil, or_false] at hd ⊢
      tauto
    rcases hmem with rfl | rfl | hd | hd
    · decide
    · decide
    · exact le_of_hex4? h d hd
    · exact le_of_hex4? h' d hd

theorem Chars.printable {t s : List Char} (h : Chars t s) : ∀ d ∈ t, 0x20 ≤ d.toNat := by
  induction h with
  | nil => exact fun d hd => by cases hd
  | cons h hs ih =>
    intro d hd
    rcases List.mem_append.mp hd with hd | hd
    · exact h.printable d hd
    · exact ih d hd

/-! ### Words -/

theorem isWordChar_of_isDigit {c : Char} (h : c.isDigit = true) : isWordChar c = true := by
  simp [isWordChar, Char.isAlphanum, h]

theorem isWordChar_of_isDigits {t : List Char} (h : isDigits t = true) :
    ∀ c ∈ t, isWordChar c = true := by
  intro c hc
  simp only [isDigits, Bool.and_eq_true, List.all_eq_true] at h
  exact isWordChar_of_isDigit (h.2 c hc)

theorem mem_strip (signs : List Char) {t : List Char} {c : Char} (h : c ∈ t) :
    c ∈ signs ∨ c ∈ strip signs t := by
  cases t with
  | nil => cases h
  | cons d t =>
    simp only [strip]
    split
    · next hd =>
      rcases List.mem_cons.mp h with rfl | h
      · exact .inl hd
      · exact .inr h
    · exact .inr h

/-- What a scan stopped at, and what is behind it. -/
theorem mem_dropWhile {p : Char → Bool} {t : List Char} {c : Char} (h : c ∈ t.dropWhile p) :
    p c = false ∨ c ∈ (t.dropWhile p).tail := by
  have hhead := List.head?_dropWhile_not p t
  cases hdrop : t.dropWhile p with
  | nil =>
    rw [hdrop] at h
    cases h
  | cons d rest =>
    rw [hdrop] at h hhead
    rcases List.mem_cons.mp h with rfl | h
    · exact .inl (by simpa using hhead)
    · exact .inr h

theorem isWordChar_of_isInt {t : List Char} (h : isInt t = true) :
    ∀ c ∈ t, isWordChar c = true := by
  cases t with
  | nil => exact fun c hc => by cases hc
  | cons d t =>
    intro c hc
    simp only [isInt, Bool.and_eq_true, List.all_eq_true] at h
    exact isWordChar_of_isDigit (h.1 c hc)

/-- The literal of a number has only such characters. -/
theorem isWordChar_of_isNumber {t : List Char} (h : isNumber t = true) :
    ∀ c ∈ t, isWordChar c = true := by
  simp only [isNumber, Bool.and_eq_true, Bool.or_eq_true, List.isEmpty_iff] at h
  obtain ⟨⟨hint, hfraction⟩, hexponent⟩ := h
  intro c hc
  rw [← List.takeWhile_append_dropWhile (p := notExp) (l := t)] at hc
  rcases List.mem_append.mp hc with hc | hc
  · rw [← List.takeWhile_append_dropWhile (p := notDot) (l := t.takeWhile notExp)] at hc
    rcases List.mem_append.mp hc with hc | hc
    · rcases mem_strip ['-'] hc with hc | hc
      · rw [List.mem_singleton.mp hc]
        decide
      · exact isWordChar_of_isInt hint c hc
    · rcases mem_dropWhile hc with hdot | htail
      · have hdot : c = '.' := by simpa [notDot] using hdot
        rw [hdot]
        decide
      · rcases hfraction with hnil | hdigits
        · rw [hnil] at hc
          cases hc
        · exact isWordChar_of_isDigits hdigits c htail
  · rcases mem_dropWhile hc with he | htail
    · have he : c = 'e' ∨ c = 'E' := by
        by_contra hne
        push Not at hne
        simp [notExp, hne] at he
      rcases he with rfl | rfl <;> decide
    · rcases hexponent with hnil | hdigits
      · rw [hnil] at hc
        cases hc
      · rcases mem_strip ['+', '-'] htail with hsign | hdigit
        · simp only [List.mem_cons, List.not_mem_nil, or_false] at hsign
          rcases hsign with rfl | rfl <;> decide
        · exact isWordChar_of_isDigits hdigits c hdigit

theorem readWord_append {w : List Char} {v : Json} (h : word? w = some v)
    (hw : ∀ c ∈ w, isWordChar c = true) {rest : List Char}
    (hrest : ∀ c ∈ rest.head?, isWordChar c = false) :
    readWord (w ++ rest) = some (v, rest) := by
  have htake : (w ++ rest).takeWhile isWordChar = w := by
    rw [List.takeWhile_append_of_pos hw]
    cases rest with
    | nil => simp
    | cons c rest => simp [hrest c rfl]
  have hdrop : (w ++ rest).dropWhile isWordChar = rest := by
    rw [List.dropWhile_append_of_pos hw]
    cases rest with
    | nil => rfl
    | cons c rest => simp [hrest c rfl]
  rw [readWord, htake, hdrop, h]
  rfl

theorem ne_of_isWordChar {c d : Char} (h : isWordChar c = true) (hd : isWordChar d = false) :
    c ≠ d := by
  rintro rfl
  rw [h] at hd
  cases hd

theorem isWs_of_isWordChar {c : Char} (h : isWordChar c = true) : isWs c = false := by
  simp [isWs, ne_of_isWordChar h (d := ' ') (by decide), ne_of_isWordChar h (d := '\t') (by decide),
    ne_of_isWordChar h (d := '\n') (by decide), ne_of_isWordChar h (d := '\r') (by decide)]

theorem word?_num {t : List Char} (h : isNumber t = true) : word? t = some (.num t) := by
  have hne : ∀ w, isNumber w = false → t ≠ w := by
    rintro w hw rfl
    rw [h] at hw
    cases hw
  simp [word?, hne ['n', 'u', 'l', 'l'] (by decide), hne ['t', 'r', 'u', 'e'] (by decide),
    hne ['f', 'a', 'l', 's', 'e'] (by decide), h]

theorem readValue_word {w : List Char} {v : Json} (h : word? w = some v) (hne : w ≠ [])
    (hw : ∀ c ∈ w, isWordChar c = true) {rest : List Char}
    (hrest : ∀ c ∈ rest.head?, isWordChar c = false) (n : ℕ) :
    readValue (n + 1) (w ++ rest) = some (v, rest) := by
  obtain ⟨c, w', rfl⟩ := List.exists_cons_of_ne_nil hne
  have hc := hw c List.mem_cons_self
  rw [List.cons_append, readValue, if_neg (ne_of_isWordChar hc (by decide)),
    if_neg (ne_of_isWordChar hc (by decide)), if_neg (ne_of_isWordChar hc (by decide)),
    ← List.cons_append]
  exact readWord_append h hw hrest

/-! ### What the grammar derives -/

/-- What a value begins with. -/
theorem Derives.head {t : List Char} {v : Json} (h : Derives t (.value v)) :
    ∃ c t', t = c :: t' ∧ isWs c = false ∧ c ≠ ']' ∧ c ≠ '}' := by
  cases h with
  | nullWord => exact ⟨_, _, rfl, by decide, by decide, by decide⟩
  | trueWord => exact ⟨_, _, rfl, by decide, by decide, by decide⟩
  | falseWord => exact ⟨_, _, rfl, by decide, by decide, by decide⟩
  | num h =>
    cases t with
    | nil => cases h
    | cons c t =>
      have hc := isWordChar_of_isNumber h c List.mem_cons_self
      exact ⟨c, t, rfl, isWs_of_isWordChar hc, ne_of_isWordChar hc (by decide),
        ne_of_isWordChar hc (by decide)⟩
  | str h => exact ⟨_, _, rfl, by decide, by decide, by decide⟩
  | emptyArr h => exact ⟨_, _, rfl, by decide, by decide, by decide⟩
  | arr h => exact ⟨_, _, rfl, by decide, by decide, by decide⟩
  | emptyObj h => exact ⟨_, _, rfl, by decide, by decide, by decide⟩
  | obj h => exact ⟨_, _, rfl, by decide, by decide, by decide⟩

/-- The elements of an array do not begin with its bracket, nor the members of an object with its
brace. -/
theorem Derives.expect_none {t : List Char} {p : Phrase} (h : Derives t p) (rest : List Char) :
    (∀ vs, p = .elements vs → expect ']' (t ++ rest) = none) ∧
      ∀ ms, p = .members ms → expect '}' (t ++ rest) = none := by
  have hvalue : ∀ {w t v} (more : List Char), Ws w → Derives t (.value v) →
      expect ']' (w ++ t ++ more) = none := by
    intro w t v more hw h
    obtain ⟨c, t', rfl, hc, hne, -⟩ := h.head
    rw [List.append_assoc]
    exact expect_other hc hne hw _
  have hmember : ∀ {w} (more : List Char), Ws w → expect '}' (w ++ '"' :: more) = none :=
    fun more hw => expect_other (by decide) (by decide) hw _
  cases h with
  | element hw h hw' =>
    refine ⟨fun vs _ => ?_, fun ms hms => Phrase.noConfusion hms⟩
    rw [List.append_assoc]
    exact hvalue _ hw h
  | elements hw h hw' hs =>
    refine ⟨fun vs _ => ?_, fun ms hms => Phrase.noConfusion hms⟩
    rw [List.append_assoc, List.append_assoc]
    exact hvalue _ hw h
  | member hw hk hw₁ hw₂ h hw' =>
    refine ⟨fun vs hvs => Phrase.noConfusion hvs, fun ms _ => ?_⟩
    simp only [List.append_assoc, List.cons_append]
    exact hmember _ hw
  | members hw hk hw₁ hw₂ h hw' hs =>
    refine ⟨fun vs hvs => Phrase.noConfusion hvs, fun ms _ => ?_⟩
    simp only [List.append_assoc, List.cons_append]
    exact hmember _ hw
  | _ => exact ⟨fun vs hvs => Phrase.noConfusion hvs, fun ms hms => Phrase.noConfusion hms⟩

/-- What the reader does with a phrase, with fuel enough. -/
def Reads (t : List Char) : Phrase → Prop
  | .value v => ∀ n rest, 2 * t.length < n → (∀ c ∈ rest.head?, isWordChar c = false) →
    readValue n (t ++ rest) = some (v, rest)
  | .elements vs => ∀ n rest, 2 * t.length + 1 < n →
    readElements n (t ++ ']' :: rest) = some (vs, rest)
  | .members ms => ∀ n rest, 2 * t.length + 1 < n →
    readMembers n (t ++ '}' :: rest) = some (ms, rest)

/-- **The reader finds what the grammar derives.** -/
theorem reads_of_derives {t : List Char} {p : Phrase} (h : Derives t p) : Reads t p := by
  have succ : ∀ {m n : ℕ}, m < n → ∃ k, n = k + 1 :=
    fun hmn => Nat.exists_eq_succ_of_ne_zero (Nat.ne_of_gt (Nat.zero_lt_of_lt hmn))
  -- behind a value stands white space or the token that follows
  have hafter : ∀ {w : List Char} {c : Char} {more : List Char}, Ws w → isWordChar c = false →
      ∀ d ∈ (w ++ c :: more).head?, isWordChar d = false := by
    intro w c more hw hc d hd
    cases w with
    | nil => rwa [← Option.some.inj hd]
    | cons e w =>
      have he := hw e List.mem_cons_self
      rw [← Option.some.inj hd]
      by_contra hword
      rw [isWs_of_isWordChar (by simpa using hword)] at he
      cases he
  have hvalue : ∀ {w t w' r : List Char} {v : Json} {c : Char} {n : ℕ}, Ws w →
      Derives t (.value v) → Ws w' → isWordChar c = false → Reads t (.value v) →
        2 * t.length < n →
          readValue n (skipWs (w ++ (t ++ (w' ++ c :: r)))) = some (v, w' ++ c :: r) := by
    intro w t w' r v c n hw h hw' hc hreads hn
    have hhead : ∀ d ∈ (t ++ (w' ++ c :: r)).head?, isWs d = false := by
      obtain ⟨d, t', rfl, hd, -⟩ := h.head
      intro e he
      rwa [← Option.some.inj he]
    rw [skipWs_append hw hhead]
    exact hreads n _ hn (hafter hw' hc)
  induction h with
  | nullWord =>
    intro n rest hn hrest
    obtain ⟨n, rfl⟩ := succ hn
    exact readValue_word rfl (by decide) (List.all_eq_true.mp (by decide)) hrest n
  | trueWord =>
    intro n rest hn hrest
    obtain ⟨n, rfl⟩ := succ hn
    exact readValue_word rfl (by decide) (List.all_eq_true.mp (by decide)) hrest n
  | falseWord =>
    intro n rest hn hrest
    obtain ⟨n, rfl⟩ := succ hn
    exact readValue_word rfl (by decide) (List.all_eq_true.mp (by decide)) hrest n
  | @num t h =>
    intro n rest hn hrest
    obtain ⟨n, rfl⟩ := succ hn
    refine readValue_word (word?_num h) ?_ (isWordChar_of_isNumber h) hrest n
    rintro rfl
    cases h
  | @str t s h =>
    intro n rest hn hrest
    obtain ⟨n, rfl⟩ := succ hn
    simp only [List.length_append, List.length_cons, List.length_nil] at hn
    have hread := readChars_of_chars h n rest (by omega)
    simp [readValue, hread]
  | @emptyArr w hw =>
    intro n rest hn hrest
    obtain ⟨n, rfl⟩ := succ hn
    have htoken := expect_self (c := ']') (by decide) hw rest
    simp [readValue, htoken]
  | @emptyObj w hw =>
    intro n rest hn hrest
    obtain ⟨n, rfl⟩ := succ hn
    have htoken := expect_self (c := '}') (by decide) hw rest
    simp [readValue, htoken]
  | @arr t vs h ih =>
    intro n rest hn hrest
    obtain ⟨n, rfl⟩ := succ hn
    simp only [List.length_append, List.length_cons, List.length_nil] at hn
    have htoken := (h.expect_none (']' :: rest)).1 vs rfl
    have hread := ih n rest (by omega)
    simp [readValue, htoken, hread]
  | @obj t ms h ih =>
    intro n rest hn hrest
    obtain ⟨n, rfl⟩ := succ hn
    simp only [List.length_append, List.length_cons, List.length_nil] at hn
    have htoken := (h.expect_none ('}' :: rest)).2 ms rfl
    have hread := ih n rest (by omega)
    simp [readValue, htoken, hread]
  | @element w t w' v hw h hw' ih =>
    intro n rest hn
    obtain ⟨n, rfl⟩ := succ hn
    simp only [List.length_append] at hn
    have hread := hvalue (r := rest) (c := ']') hw h hw' (by decide) ih (n := n) (by omega)
    have hother := expect_other (c := ',') (d := ']') (by decide) (by decide) hw' rest
    have htoken := expect_self (c := ']') (by decide) hw' rest
    simp only [List.append_assoc, readElements, hread, hother, htoken]
    rfl
  | @elements w t w' ts v vs hw h hw' hs ih ihs =>
    intro n rest hn
    obtain ⟨n, rfl⟩ := succ hn
    simp only [List.length_append, List.length_cons] at hn
    have hread := hvalue (r := ts ++ ']' :: rest) (c := ',') hw h hw' (by decide) ih (n := n)
      (by omega)
    have htoken := expect_self (c := ',') (by decide) hw' (ts ++ ']' :: rest)
    have hmore := ihs n rest (by omega)
    simp only [List.append_assoc, List.cons_append, readElements, hread, htoken, hmore]
    rfl
  | @member w k w₁ w₂ t w' key v hw hk hw₁ hw₂ h hw' ih =>
    intro n rest hn
    obtain ⟨n, rfl⟩ := succ hn
    simp only [List.length_append, List.length_cons] at hn
    have hquote := expect_self (c := '"') (by decide) hw
      (k ++ '"' :: (w₁ ++ ':' :: (w₂ ++ (t ++ (w' ++ '}' :: rest)))))
    have hkey := readChars_of_chars hk n (w₁ ++ ':' :: (w₂ ++ (t ++ (w' ++ '}' :: rest))))
      (by omega)
    have hcolon := expect_self (c := ':') (by decide) hw₁ (w₂ ++ (t ++ (w' ++ '}' :: rest)))
    have hread := hvalue (r := rest) (c := '}') hw₂ h hw' (by decide) ih (n := n) (by omega)
    have hother := expect_other (c := ',') (d := '}') (by decide) (by decide) hw' rest
    have htoken := expect_self (c := '}') (by decide) hw' rest
    simp only [List.append_assoc, List.cons_append, readMembers, hquote, Option.bind_some, hkey,
      hcolon, hread, hother, htoken]
    rfl
  | @members w k w₁ w₂ t w' key ts v ms hw hk hw₁ hw₂ h hw' hs ih ihs =>
    intro n rest hn
    obtain ⟨n, rfl⟩ := succ hn
    simp only [List.length_append, List.length_cons] at hn
    have hquote := expect_self (c := '"') (by decide) hw
      (k ++ '"' :: (w₁ ++ ':' :: (w₂ ++ (t ++ (w' ++ ',' :: (ts ++ '}' :: rest))))))
    have hkey := readChars_of_chars hk n
      (w₁ ++ ':' :: (w₂ ++ (t ++ (w' ++ ',' :: (ts ++ '}' :: rest))))) (by omega)
    have hcolon := expect_self (c := ':') (by decide) hw₁
      (w₂ ++ (t ++ (w' ++ ',' :: (ts ++ '}' :: rest))))
    have hread := hvalue (r := ts ++ '}' :: rest) (c := ',') hw₂ h hw' (by decide) ih (n := n)
      (by omega)
    have htoken := expect_self (c := ',') (by decide) hw' (ts ++ '}' :: rest)
    have hmore := ihs n rest (by omega)
    simp only [List.append_assoc, List.cons_append, readMembers, hquote, Option.bind_some, hkey,
      hcolon, hread, htoken, hmore]
    rfl

/-- The reader accepts every text. -/
theorem parse_of_isText {t : List Char} {v : Json} (h : IsText t v) : parse t = some v := by
  obtain ⟨w, t', w', hw, h, hw', rfl⟩ := h
  have hhead : ∀ c ∈ (t' ++ w').head?, isWs c = false := by
    obtain ⟨d, t'', rfl, hd, -⟩ := h.head
    intro c hc
    rwa [← Option.some.inj hc]
  have hrest : ∀ c ∈ w'.head?, isWordChar c = false := by
    intro c hc
    by_contra hword
    have hws := hw' c (List.mem_of_mem_head? hc)
    rw [isWs_of_isWordChar (by simpa using hword)] at hws
    cases hws
  have hread := reads_of_derives h (2 * (w ++ t' ++ w').length + 2) w'
    (by simp only [List.length_append]; omega) hrest
  have hend : skipWs w' = [] := by
    have hskip := skipWs_append (t := []) hw' (fun c hc => by cases hc)
    rwa [List.append_nil] at hskip
  rw [parse, List.append_assoc, skipWs_append hw hhead, ← List.append_assoc, hread]
  exact if_pos hend

/-! ### Natural numbers -/

/-- A number without a sign, a fraction or an exponent. -/
def ofNat (n : ℕ) : Json := .num (Nat.toDigits 10 n)

theorem isNumber_toDigits (n : ℕ) : isNumber (Nat.toDigits 10 n) = true := by
  have hall : ∀ c ∈ Nat.toDigits 10 n, c.isDigit = true :=
    fun c hc => Nat.isDigit_of_mem_toDigits (by decide) (by decide) hc
  have hne : ∀ d : Char, d.isDigit = false → ∀ c ∈ Nat.toDigits 10 n, c ≠ d := by
    rintro d hd c hc rfl
    rw [hall c hc] at hd
    cases hd
  have hexp : ∀ c ∈ Nat.toDigits 10 n, notExp c = true := fun c hc => by
    simp [notExp, hne 'e' (by decide) c hc, hne 'E' (by decide) c hc]
  have hdot : ∀ c ∈ Nat.toDigits 10 n, notDot c = true := fun c hc => by
    simp [notDot, hne '.' (by decide) c hc]
  have hint : isInt (Nat.toDigits 10 n) = true := by
    cases n with
    | zero => decide
    | succ n =>
      have hhead := head_toDigits (Nat.succ_pos n)
      cases hcs : Nat.toDigits 10 (n + 1) with
      | nil => exact absurd hcs Nat.toDigits_ne_nil
      | cons c cs =>
        rw [hcs] at hhead hall
        have hc : c ≠ '0' := fun hc => hhead (by rw [hc]; rfl)
        simp only [isInt, Bool.and_eq_true, List.all_eq_true, Bool.or_eq_true]
        exact ⟨hall, .inl (decide_eq_true hc)⟩
  have hstrip : strip ['-'] (Nat.toDigits 10 n) = Nat.toDigits 10 n := by
    cases hcs : Nat.toDigits 10 n with
    | nil => rfl
    | cons c cs =>
      have hc := hne '-' (by decide) c (hcs ▸ List.mem_cons_self)
      simp [strip, hc]
  simp only [isNumber, List.takeWhile_eq_self_iff.mpr hexp, List.takeWhile_eq_self_iff.mpr hdot,
    hstrip, hint, List.dropWhile_eq_nil_iff.mpr hexp, List.dropWhile_eq_nil_iff.mpr hdot]
  rfl

theorem derives_ofNat (n : ℕ) : Derives (Nat.toDigits 10 n) (.value (ofNat n)) :=
  .num (isNumber_toDigits n)

/-! ### Integers -/

/-- The digits of an integer, with its sign. -/
def intDigits : ℤ → List Char
  | .ofNat n => Nat.toDigits 10 n
  | .negSucc n => '-' :: Nat.toDigits 10 (n + 1)

/-- A number without a fraction or an exponent. -/
def ofInt (v : ℤ) : Json := .num (intDigits v)

theorem ne_minus_of_mem {n : ℕ} {c : Char} (h : c ∈ Nat.toDigits 10 n) : c ≠ '-' := by
  rintro rfl
  exact absurd (Nat.isDigit_of_mem_toDigits (by decide) (by decide) h) (by decide)

/-- A minus may stand before a number that has none. -/
theorem isNumber_minus {t : List Char} (h : isNumber t = true) (hsign : '-' ∉ t) :
    isNumber ('-' :: t) = true := by
  have hexp : notExp '-' = true := by decide
  have hdot : notDot '-' = true := by decide
  have hstrip : ∀ u : List Char, (∀ c ∈ u, c ∈ t) → strip ['-'] u = u := by
    intro u hu
    cases u with
    | nil => rfl
    | cons c u =>
      have hc : c ≠ '-' := fun heq => hsign (heq ▸ hu c List.mem_cons_self)
      simp [strip, hc]
  have hint : strip ['-'] ((t.takeWhile notExp).takeWhile notDot)
      = (t.takeWhile notExp).takeWhile notDot :=
    hstrip _ fun c hc => (List.takeWhile_sublist _).mem ((List.takeWhile_sublist _).mem hc)
  simp only [isNumber, List.takeWhile_cons, List.dropWhile_cons, hexp, hdot, if_true] at h ⊢
  rw [hint] at h
  simpa [strip] using h

theorem isNumber_intDigits (v : ℤ) : isNumber (intDigits v) = true := by
  cases v with
  | ofNat n => exact isNumber_toDigits n
  | negSucc n => exact isNumber_minus (isNumber_toDigits (n + 1)) fun h => ne_minus_of_mem h rfl

/-! ### Values without white space -/

/-- A value as a writer puts it on one line. -/
structure Written (t : List Char) (v : Json) : Prop where
  derives : Derives t (.value v)
  printable : ∀ c ∈ t, 0x20 ≤ c.toNat

theorem written_ofNat (n : ℕ) : Written (Nat.toDigits 10 n) (ofNat n) where
  derives := derives_ofNat n
  printable := by
    intro c hc
    have hdigit : c.isDigit = true := Nat.isDigit_of_mem_toDigits (by decide) (by decide) hc
    simp only [Char.isDigit, Bool.and_eq_true, decide_eq_true_eq] at hdigit
    have hle : 48 ≤ c.toNat := hdigit.1
    omega

theorem written_ofInt (v : ℤ) : Written (intDigits v) (ofInt v) where
  derives := .num (isNumber_intDigits v)
  printable := by
    cases v with
    | ofNat n => exact (written_ofNat n).printable
    | negSucc n =>
      intro c hc
      rcases List.mem_cons.mp hc with rfl | hc
      · decide
      · exact (written_ofNat (n + 1)).printable c hc

theorem written_str {t s : List Char} (h : Chars t s) : Written ('"' :: t ++ ['"']) (.str s) where
  derives := .str h
  printable := by
    intro c hc
    simp only [List.cons_append, List.mem_cons, List.mem_append, List.not_mem_nil, or_false] at hc
    rcases hc with rfl | hc | rfl
    · decide
    · exact h.printable c hc
    · decide

/-- A character that a string has as it is. -/
def isPlain (c : Char) : Bool := 0x20 ≤ c.toNat && c ≠ '"' && c ≠ '\\'

theorem chars_plain {t : List Char} (h : ∀ c ∈ t, isPlain c = true) : Chars t t := by
  induction t with
  | nil => exact .nil
  | cons c t ih =>
    have hc := h c List.mem_cons_self
    simp only [isPlain, Bool.and_eq_true, decide_eq_true_eq] at hc
    exact .cons (.plain hc.1.1 hc.1.2 hc.2) (ih fun d hd => h d (List.mem_cons_of_mem c hd))

/-- Texts with commas between them. -/
def joined : List (List Char) → List Char
  | [] => []
  | t :: ts => t ++ ts.flatMap fun t => ',' :: t

theorem printable_joined {ts : List (List Char)} (h : ∀ t ∈ ts, ∀ c ∈ t, 0x20 ≤ c.toNat) :
    ∀ c ∈ joined ts, 0x20 ≤ c.toNat := by
  intro c hc
  cases ts with
  | nil => cases hc
  | cons t ts =>
    rcases List.mem_append.mp hc with hc | hc
    · exact h t List.mem_cons_self c hc
    · obtain ⟨t', ht', hc⟩ := List.mem_flatMap.mp hc
      rcases List.mem_cons.mp hc with rfl | hc
      · decide
      · exact h t' (List.mem_cons_of_mem t ht') c hc

theorem derives_joined {x : List Char × Json} {xs : List (List Char × Json)}
    (h : ∀ y ∈ x :: xs, Derives y.1 (.value y.2)) :
    Derives (joined ((x :: xs).map Prod.fst)) (.elements ((x :: xs).map Prod.snd)) := by
  induction xs generalizing x with
  | nil =>
    have hx := Derives.element ws_nil (h x List.mem_cons_self) ws_nil
    simpa [joined] using hx
  | cons y ys ih =>
    have hx := Derives.elements ws_nil (h x List.mem_cons_self) ws_nil
      (ih fun z hz => h z (List.mem_cons_of_mem x hz))
    simpa [joined] using hx

/-- An array of written values. -/
theorem written_arr {xs : List (List Char × Json)} (h : ∀ x ∈ xs, Written x.1 x.2) :
    Written ('[' :: joined (xs.map Prod.fst) ++ [']']) (.arr (xs.map Prod.snd)) where
  derives := by
    cases xs with
    | nil => exact .emptyArr ws_nil
    | cons x xs => exact .arr (derives_joined fun y hy => (h y hy).derives)
  printable := by
    have hjoined : ∀ c ∈ joined (xs.map Prod.fst), 0x20 ≤ c.toNat := by
      refine printable_joined fun t ht => ?_
      obtain ⟨x, hx, rfl⟩ := List.mem_map.mp ht
      exact (h x hx).printable
    intro c hc
    simp only [List.cons_append, List.mem_cons, List.mem_append, List.not_mem_nil, or_false] at hc
    rcases hc with rfl | hc | rfl
    · decide
    · exact hjoined c hc
    · decide

/-- A member of an object, and how its value is written: the key has no escapes. -/
structure Member where
  key : List Char
  text : List Char
  value : Json

namespace Member

/-- The key has no escapes. -/
structure Valid (f : Member) : Prop where
  key : ∀ c ∈ f.key, isPlain c = true
  value : Written f.text f.value

def written (f : Member) : List Char := '"' :: f.key ++ '"' :: ':' :: f.text

def pair (f : Member) : List Char × Json := (f.key, f.value)

theorem Valid.printable {f : Member} (h : f.Valid) : ∀ c ∈ f.written, 0x20 ≤ c.toNat := by
  intro c hc
  simp only [written, List.cons_append, List.mem_cons, List.mem_append] at hc
  rcases hc with rfl | hc | rfl | rfl | hc
  · decide
  · exact (chars_plain h.key).printable c hc
  · decide
  · decide
  · exact h.value.printable c hc

end Member

theorem derives_members {f : Member} {fs : List Member} (h : ∀ g ∈ f :: fs, g.Valid) :
    Derives (joined ((f :: fs).map Member.written)) (.members ((f :: fs).map Member.pair)) := by
  induction fs generalizing f with
  | nil =>
    have hf := h f List.mem_cons_self
    have hmember := Derives.member ws_nil (chars_plain hf.key) ws_nil ws_nil hf.value.derives ws_nil
    simpa [joined, Member.written, Member.pair] using hmember
  | cons g gs ih =>
    have hf := h f List.mem_cons_self
    have hmembers := Derives.members ws_nil (chars_plain hf.key) ws_nil ws_nil hf.value.derives
      ws_nil (ih fun g' hg => h g' (List.mem_cons_of_mem f hg))
    simpa [joined, Member.written, Member.pair] using hmembers

/-- An object of written values. -/
def object (fs : List Member) : List Char := '{' :: joined (fs.map Member.written) ++ ['}']

/-- **An object is written by its fields.** -/
theorem written_object {fs : List Member} (h : ∀ f ∈ fs, f.Valid) :
    Written (object fs) (.obj (fs.map Member.pair)) where
  derives := by
    cases fs with
    | nil => exact .emptyObj ws_nil
    | cons f fs => exact .obj (derives_members h)
  printable := by
    have hjoined : ∀ c ∈ joined (fs.map Member.written), 0x20 ≤ c.toNat := by
      refine printable_joined fun t ht => ?_
      obtain ⟨f, hf, rfl⟩ := List.mem_map.mp ht
      exact (h f hf).printable
    intro c hc
    simp only [object, List.cons_append, List.mem_cons, List.mem_append, List.not_mem_nil,
      or_false] at hc
    rcases hc with rfl | hc | rfl
    · decide
    · exact hjoined c hc
    · decide

/-- A value and the end of its line. -/
theorem Written.isText {t : List Char} {v : Json} (h : Written t v) : IsText (t ++ ['\n']) v := by
  refine ⟨[], t, ['\n'], ws_nil, h.derives, ?_, rfl⟩
  intro c hc
  rw [List.mem_singleton.mp hc]
  decide

theorem Written.not_mem {t : List Char} {v : Json} (h : Written t v) : '\n' ∉ t :=
  fun hmem => absurd (h.printable _ hmem) (by decide)

/-! ### Members -/

/-- The value of a key. -/
def get? (key : List Char) : Json → Option Json
  | .obj ms => (ms.find? fun m => decide (m.1 = key)).map Prod.snd
  | _ => none

def toNat? : Json → Option ℕ
  | .num literal => ofDecimal? literal
  | _ => none

def toInt? : Json → Option ℤ
  | .num ('-' :: literal) => (ofDecimal? literal).map fun n => -(n : ℤ)
  | .num literal => (ofDecimal? literal).map fun n => (n : ℤ)
  | _ => none

def toStr? : Json → Option (List Char)
  | .str s => some s
  | _ => none

def toArr? : Json → Option (List Json)
  | .arr vs => some vs
  | _ => none

theorem toNat?_ofNat (n : ℕ) : (ofNat n).toNat? = some n := ofDecimal?_toDigits n

theorem toInt?_ofInt (v : ℤ) : (ofInt v).toInt? = some v := by
  cases v with
  | ofNat n =>
    have hread : ofDecimal? (Nat.toDigits 10 n) = some n := ofDecimal?_toDigits n
    cases hcs : Nat.toDigits 10 n with
    | nil => exact absurd hcs Nat.toDigits_ne_nil
    | cons c t =>
      have hc : c ≠ '-' := ne_minus_of_mem (hcs ▸ List.mem_cons_self)
      rw [hcs] at hread
      simp only [ofInt, intDigits, hcs]
      rw [toInt?, hread]
      · rfl
      · rintro u heq
        exact hc (List.cons.inj heq).1
  | negSucc n =>
    have hread : ofDecimal? (Nat.toDigits 10 (n + 1)) = some (n + 1) := ofDecimal?_toDigits (n + 1)
    simp only [ofInt, intDigits, toInt?, hread]
    rfl

/-- A key that is there once has its value. -/
theorem get?_member {fs : List Member} (hkeys : (fs.map Member.key).Nodup) {f : Member}
    (hf : f ∈ fs) :
    get? f.key (.obj (fs.map Member.pair)) = some f.value := by
  induction fs with
  | nil => cases hf
  | cons g fs ih =>
    rw [List.map_cons, List.nodup_cons] at hkeys
    rcases List.mem_cons.mp hf with rfl | hf
    · simp [get?, Member.pair]
    · have hne : g.key ≠ f.key := fun heq => hkeys.1 (heq ▸ List.mem_map_of_mem hf)
      have hget := ih hkeys.2 hf
      simpa [get?, Member.pair, hne] using hget

/-- A key that is not there has none. -/
theorem get?_none {fs : List Member} {key : List Char} (h : ∀ f ∈ fs, f.key ≠ key) :
    get? key (.obj (fs.map Member.pair)) = none := by
  have hfind : (fs.map Member.pair).find? (fun m => decide (m.1 = key)) = none := by
    rw [List.find?_eq_none]
    intro m hm
    obtain ⟨f, hf, rfl⟩ := List.mem_map.mp hm
    exact fun hkey => h f hf (of_decide_eq_true hkey)
  rw [get?, hfind]
  rfl

end Json
