import Dx12Track.Lib.Json
import Dx12Track.Lib.Unicode
import Dx12Track.EventTypes

/-!
# Strings in the logs

The DLL's log and the launcher's sidecar are JSON, and both write the strings of
the process, which are UTF-16, one code unit at a time.  A character that has two
code units is taken apart: each half is converted alone.

* `Converts` — what is known of `WideCharToMultiByte`.
* `escaped` — the loop body that `AppendJsonString` and `J::wstr` have in common.
* `appendJsonString`, `J.wstr` — the two encoders.
* `escaped_eq` — a code unit is written as a JSON string writes its character.
* `encoded_iff` — **both write the text as it is exactly if it has no pairs**.
-/

namespace Dx12Track

open Json Digits

/-! ### Bytes -/

/-- A string literal of the source, which is ASCII. -/
def ascii (s : String) : List UInt8 := Utf8.encode s.toList

theorem ascii_append (s s' : String) : ascii (s ++ s') = ascii s ++ ascii s' := by
  simp [ascii]

/-- `WideCharToMultiByte(CP_UTF8, 0, …)`, with room for what it writes. -/
abbrev ToUtf8 := WString → List UInt8

/-- It converts a text, and a half of a pair that stands alone to U+FFFD. -/
structure Converts (toUtf8 : ToUtf8) : Prop where
  text : ∀ text, toUtf8 (Utf16.encode text) = Utf8.encode text
  half : ∀ c, Utf16.IsSurrogate c → toUtf8 [c] = Utf8.encode [Char.ofNat 0xFFFD]

/-- Such a conversion. -/
def convert : ToUtf8 := fun s => Utf8.encode (Utf16.decode s)

theorem converts_convert : Converts convert where
  text := fun text => by rw [convert, Utf16.decode_encode]
  half := fun c hc => by rw [convert, Utf16.decode, Utf16.unit, if_pos hc]

/-! ### Encoders -/

/-- What the loops of `AppendJsonString` and `J::wstr` write for a code unit. -/
def escaped (toUtf8 : ToUtf8) (c : UInt16) : List UInt8 :=
  if c = 0x5C then ascii "\\\\"
  else if c = 0x22 then ascii "\\\""
  else if c = 0x0A then ascii "\\n"
  else if c = 0x0D then ascii "\\r"
  else if c = 0x09 then ascii "\\t"
  else if c < 0x20 then ascii "\\u" ++ Utf8.encode (hexPad 4 c.toNat)
  else toUtf8 [c]

/-- `AppendJsonString`, which stops at a NUL. -/
def appendJsonString (toUtf8 : ToUtf8) (out : List UInt8) (s : WString) (maxChars : ℕ) :
    List UInt8 :=
  out ++ ascii "\"" ++ ((s.take maxChars).takeWhile (· ≠ 0)).flatMap (escaped toUtf8) ++ ascii "\""

/-- `J::wstr`, which writes the whole `std::wstring`. -/
def J.wstr (toUtf8 : ToUtf8) (s : List UInt8) (k : String) (v : WString) : List UInt8 :=
  s ++ ascii ",\"" ++ ascii k ++ ascii "\":\"" ++ v.flatMap (escaped toUtf8) ++ ascii "\""

/-! ### What they write -/

/-- The same as a text. -/
def escapedText (c : UInt16) : List Char :=
  if c = 0x5C then ['\\', '\\']
  else if c = 0x22 then ['\\', '"']
  else if c = 0x0A then ['\\', 'n']
  else if c = 0x0D then ['\\', 'r']
  else if c = 0x09 then ['\\', 't']
  else if c < 0x20 then '\\' :: 'u' :: hexPad 4 c.toNat
  else [Utf16.unit c]

theorem toUtf8_unit {toUtf8 : ToUtf8} (h : Converts toUtf8) (c : UInt16) :
    toUtf8 [c] = Utf8.encode [Utf16.unit c] := by
  by_cases hc : Utf16.IsSurrogate c
  · rw [h.half c hc, Utf16.unit, if_pos hc]
  · have hmap : Utf16.encode ([c].map Utf16.unit) = [c] :=
      Utf16.encode_map_unit fun d hd => List.mem_singleton.mp hd ▸ hc
    rw [← h.text, ← hmap]
    rfl

theorem escaped_eq {toUtf8 : ToUtf8} (h : Converts toUtf8) (c : UInt16) :
    escaped toUtf8 c = Utf8.encode (escapedText c) := by
  unfold escaped escapedText
  split
  · decide
  · split
    · decide
    · split
      · decide
      · split
        · decide
        · split
          · decide
          · split
            · rw [show ascii "\\u" = Utf8.encode ['\\', 'u'] by decide, ← Utf8.encode_append]
              rfl
            · exact toUtf8_unit h c

/-- The control characters, one by one. -/
theorem item_control {n : ℕ} (h : n < 0x20) :
    Json.Item ('\\' :: 'u' :: hexPad 4 n) (Char.ofNat n) := by
  have hpad : ∀ n < 0x20, hexPad 4 n = ['0', '0', Nat.digitChar (n / 16), Nat.digitChar (n % 16)] :=
    by decide
  have hhex : ∀ n < 0x20,
      hex4? '0' '0' (Nat.digitChar (n / 16)) (Nat.digitChar (n % 16)) = some n := by decide
  rw [hpad n h]
  exact .unicode (hhex n h) (.inl (by omega))

theorem unit_ne {c : UInt16} {d : Char} (hd : d.toNat < 0x80) (h : c.toNat ≠ d.toNat) :
    Utf16.unit c ≠ d := by
  intro heq
  have hnat : (Utf16.unit c).toNat = d.toNat := congrArg Char.toNat heq
  by_cases hc : Utf16.IsSurrogate c
  · have hfffd : (Utf16.unit c).toNat = 0xFFFD := by
      rw [Utf16.unit, if_pos hc]
      rfl
    omega
  · rw [Utf16.unit_of_not hc] at hnat
    exact h hnat

theorem le_unit {c : UInt16} (h : 0x20 ≤ c.toNat) : 0x20 ≤ (Utf16.unit c).toNat := by
  by_cases hc : Utf16.IsSurrogate c
  · rw [Utf16.unit, if_pos hc]
    decide
  · rwa [Utf16.unit_of_not hc]

/-- **A code unit is written as its character.** -/
theorem item_escapedText (c : UInt16) : Json.Item (escapedText c) (Utf16.unit c) := by
  unfold escapedText
  split
  · next hc => exact hc ▸ .escape (by decide)
  · next hback =>
    split
    · next hc => exact hc ▸ .escape (by decide)
    · next hquote =>
      split
      · next hc => exact hc ▸ .escape (by decide)
      · split
        · next hc => exact hc ▸ .escape (by decide)
        · split
          · next hc => exact hc ▸ .escape (by decide)
          · split
            · next hlt =>
              have hlt : c.toNat < 0x20 := hlt
              have hunit : Utf16.unit c = Char.ofNat c.toNat := by
                rw [Utf16.unit, if_neg]
                rintro ⟨hle, -⟩
                omega
              rw [hunit]
              exact item_control hlt
            · next hle =>
              have hle : ¬c.toNat < 0x20 := hle
              refine .plain (le_unit (by omega)) (unit_ne (by decide) ?_) (unit_ne (by decide) ?_)
              · exact fun h => hquote (UInt16.toNat_inj.mp h)
              · exact fun h => hback (UInt16.toNat_inj.mp h)

theorem chars_escapedText (s : WString) : Chars (s.flatMap escapedText) (s.map Utf16.unit) := by
  induction s with
  | nil => exact .nil
  | cons c s ih => exact .cons (item_escapedText c) ih

theorem flatMap_escaped {toUtf8 : ToUtf8} (h : Converts toUtf8) (s : WString) :
    s.flatMap (escaped toUtf8) = Utf8.encode (s.flatMap escapedText) := by
  induction s with
  | nil => rfl
  | cons c s ih =>
    rw [List.flatMap_cons, List.flatMap_cons, escaped_eq h, ih, Utf8.encode_append]

/-! ### Literals -/

/-- The bytes are a string literal, in UTF-8, for a text. -/
def LiteralOf (bytes : List UInt8) (text : List Char) : Prop :=
  ∃ t, Chars t text ∧ bytes = Utf8.encode ('"' :: t ++ ['"'])

/-- A literal has one text. -/
theorem LiteralOf.unique {bytes : List UInt8} {text text' : List Char} (h : LiteralOf bytes text)
    (h' : LiteralOf bytes text') : text = text' := by
  obtain ⟨t, ht, rfl⟩ := h
  obtain ⟨t', ht', heq⟩ := h'
  have heq := Utf8.encode_injective heq
  rw [List.cons_append, List.cons_append, List.cons.injEq] at heq
  rw [← List.append_cancel_right heq.2] at ht'
  exact ht.unique ht'

/-- The literal of code units. -/
def literal (toUtf8 : ToUtf8) (s : WString) : List UInt8 :=
  ascii "\"" ++ s.flatMap (escaped toUtf8) ++ ascii "\""

theorem literalOf_literal {toUtf8 : ToUtf8} (h : Converts toUtf8) (s : WString) :
    LiteralOf (literal toUtf8 s) (s.map Utf16.unit) := by
  refine ⟨s.flatMap escapedText, chars_escapedText s, ?_⟩
  rw [literal, flatMap_escaped h, show ascii "\"" = Utf8.encode ['"'] by decide,
    ← Utf8.encode_append, ← Utf8.encode_append]
  rfl

theorem appendJsonString_eq (toUtf8 : ToUtf8) (out : List UInt8) (s : WString) (maxChars : ℕ) :
    appendJsonString toUtf8 out s maxChars
      = out ++ literal toUtf8 ((s.take maxChars).takeWhile (· ≠ 0)) := by
  simp only [appendJsonString, literal, List.append_assoc]

/-- A terminated string is written up to its NUL. -/
theorem appendJsonString_terminated (toUtf8 : ToUtf8) (out : List UInt8) {s : WString}
    (hnul : NulFree s) {maxChars : ℕ} (hlen : s.length < maxChars) (rest : WString) :
    appendJsonString toUtf8 out (s ++ 0 :: rest) maxChars = out ++ literal toUtf8 s := by
  have htake : ((s ++ 0 :: rest).take maxChars).takeWhile (· ≠ 0) = s := by
    obtain ⟨k, hk⟩ := Nat.exists_eq_add_of_lt hlen
    have hall : ∀ c ∈ s, decide (c ≠ 0) = true := fun c hc => decide_eq_true (hnul c hc)
    rw [List.take_append, List.take_of_length_le (Nat.le_of_lt hlen),
      show maxChars - s.length = k + 1 by omega, List.take_succ_cons,
      List.takeWhile_append_of_pos hall]
    simp
  rw [appendJsonString_eq, htake]

theorem J.wstr_eq (toUtf8 : ToUtf8) (s : List UInt8) (k : String) (v : WString) :
    J.wstr toUtf8 s k v = s ++ ascii (",\"" ++ k ++ "\":") ++ literal toUtf8 v := by
  have hascii : ascii "\":\"" = ascii "\":" ++ ascii "\"" := by decide
  simp only [J.wstr, literal, ascii_append, hascii, List.append_assoc]

/-- The two encoders write the text as a JSON string in UTF-8. -/
def Encoded (toUtf8 : ToUtf8) (text : List Char) : Prop :=
  ∃ bytes, LiteralOf bytes text ∧
    (∀ out rest, appendJsonString toUtf8 out (Utf16.encode text ++ 0 :: rest) kMaxNameChars
      = out ++ bytes) ∧
    ∀ s k, J.wstr toUtf8 s k (Utf16.encode text) = s ++ ascii (",\"" ++ k ++ "\":") ++ bytes

theorem appendJsonString_encode (toUtf8 : ToUtf8) {text : List Char}
    (hnul : NulFree (Utf16.encode text)) (hlen : (Utf16.encode text).length ≤ 255)
    (out : List UInt8) (rest : WString) :
    appendJsonString toUtf8 out (Utf16.encode text ++ 0 :: rest) kMaxNameChars
      = out ++ literal toUtf8 (Utf16.encode text) :=
  appendJsonString_terminated toUtf8 out hnul (Nat.lt_of_le_of_lt hlen (by decide)) rest

/-- The literal has a character for each code unit. -/
theorem not_surrogate_of_encoded {toUtf8 : ToUtf8} (h : Converts toUtf8) {text : List Char}
    (hnul : NulFree (Utf16.encode text)) (hlen : (Utf16.encode text).length ≤ 255)
    (hencoded : Encoded toUtf8 text) : ∀ c ∈ Utf16.encode text, ¬Utf16.IsSurrogate c := by
  obtain ⟨bytes, hbytes, hdll, -⟩ := hencoded
  have heq : literal toUtf8 (Utf16.encode text) = bytes := by
    have hdll := hdll [] []
    rwa [appendJsonString_encode toUtf8 hnul hlen] at hdll
  rw [← heq] at hbytes
  have htext := congrArg List.length (hbytes.unique (literalOf_literal h _))
  rw [List.length_map] at htext
  exact (Utf16.length_encode text).2 htext.symm

/-- **A text is written as it is exactly if it has no pairs.** -/
theorem encoded_iff {toUtf8 : ToUtf8} (h : Converts toUtf8) {text : List Char}
    (hnul : NulFree (Utf16.encode text)) (hlen : (Utf16.encode text).length ≤ 255) :
    Encoded toUtf8 text ↔ ∀ c ∈ Utf16.encode text, ¬Utf16.IsSurrogate c := by
  constructor
  · exact not_surrogate_of_encoded h hnul hlen
  · intro hnone
    refine ⟨_, ?_, appendJsonString_encode toUtf8 hnul hlen, fun s k => J.wstr_eq toUtf8 s k _⟩
    have hwritten := literalOf_literal h (Utf16.encode text)
    have hmap : (Utf16.encode text).map Utf16.unit = text := by
      rw [← Utf16.decode_eq_map hnone, Utf16.decode_encode]
    rwa [hmap] at hwritten

/-- A name with an accent, a quotation mark and a line feed. -/
theorem encoded_iff_accent :
    Encoded convert "é\"\n".toList ↔ ∀ c ∈ Utf16.encode "é\"\n".toList, ¬Utf16.IsSurrogate c :=
  encoded_iff converts_convert (by decide) (by decide)

/-- U+1F600 is taken apart. -/
theorem not_encoded_pair :
    ¬∀ toUtf8, Converts toUtf8 → ∀ text, NulFree (Utf16.encode text) →
      (Utf16.encode text).length ≤ 255 → Encoded toUtf8 text := by
  intro h
  have hnul : NulFree (Utf16.encode [Char.ofNat 0x1F600]) := by decide
  have hlen : (Utf16.encode [Char.ofNat 0x1F600]).length ≤ 255 := by decide
  have hencoded := h convert converts_convert _ hnul hlen
  exact not_surrogate_of_encoded converts_convert hnul hlen hencoded 0xD83D (by decide) (by decide)

end Dx12Track
