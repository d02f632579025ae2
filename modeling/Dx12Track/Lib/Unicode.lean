import Mathlib.Data.List.Basic

/-!
# UTF-8 and UTF-16

A text is a list of characters.  Its UTF-8 bytes are those of the core library;
its UTF-16 code units, which `wchar_t` strings are made of, are defined here.

* `Utf8.encode`, `Utf8.decode`, `Utf8.Valid` — bytes of a text.
* `Utf8.split_ascii`, `Utf8.valid_append_cons` — an ASCII byte is a character wherever
  it occurs.
* `Utf16.encode`, `Utf16.decode` — code units of a text; `decode` reads a unit of
  an incomplete pair as U+FFFD.
* `Utf16.decode_encode` — a text is read back from its units.
* `Utf16.unit` — the character of a unit that stands alone.
-/

namespace Utf8

/-- The bytes of a text. -/
def encode (text : List Char) : List UInt8 := text.flatMap String.utf8EncodeChar

/-- The bytes are those of some text. -/
def Valid (bytes : List UInt8) : Prop := ∃ text, encode text = bytes

/-- The text of the bytes, if they are valid. -/
def decode (bytes : List UInt8) : Option (List Char) :=
  bytes.toByteArray.utf8Decode?.map Array.toList

@[simp] theorem encode_nil : encode [] = [] := rfl

@[simp] theorem encode_cons (c : Char) (text : List Char) :
    encode (c :: text) = String.utf8EncodeChar c ++ encode text := rfl

@[simp] theorem encode_append (text text' : List Char) :
    encode (text ++ text') = encode text ++ encode text' := List.flatMap_append

/-- **Bytes are read back.** -/
@[simp] theorem decode_encode (text : List Char) : decode (encode text) = some text := by
  have harray : (encode text).toByteArray = text.utf8Encode := rfl
  rw [decode, harray, List.utf8Decode?_utf8Encode]
  rfl

theorem encode_injective {text text' : List Char} (h : encode text = encode text') :
    text = text' := by
  have hdecode := congrArg decode h
  rw [decode_encode, decode_encode] at hdecode
  exact Option.some.inj hdecode

/-! ### ASCII -/

theorem encodeChar_of_lt {c : Char} (h : c.toNat < 128) :
    String.utf8EncodeChar c = [UInt8.ofNat c.toNat] := by
  have hle : c.toNat ≤ 127 := by omega
  simp [String.utf8EncodeChar, hle]

/-- The bytes of other characters are not ASCII. -/
theorem le_of_mem_encodeChar {c : Char} (h : 128 ≤ c.toNat) {b : UInt8}
    (hb : b ∈ String.utf8EncodeChar c) : 128 ≤ b.toNat := by
  have hc : 128 ≤ c.val.toNat := h
  have hvalid : c.val.toNat < 1114112 := by
    have hc := c.valid
    rcases hc with hc | hc
    · have hc : c.val.toNat < 55296 := hc
      omega
    · exact hc.2
  unfold String.utf8EncodeChar at hb
  dsimp only at hb
  split at hb
  · omega
  · split at hb
    · simp only [List.mem_cons, List.not_mem_nil, or_false] at hb
      rcases hb with rfl | rfl
      · simp
        omega
      · simp
        omega
    · split at hb
      · simp only [List.mem_cons, List.not_mem_nil, or_false] at hb
        rcases hb with rfl | rfl | rfl
        · simp
          omega
        · simp
          omega
        · simp
          omega
      · simp only [List.mem_cons, List.not_mem_nil, or_false] at hb
        rcases hb with rfl | rfl | rfl | rfl
        · simp
          omega
        · simp
          omega
        · simp
          omega
        · simp
          omega

/-- **An ASCII byte is a character**, and the text is split where it stands. -/
theorem split_ascii {text : List Char} {before after : List UInt8} {b : UInt8}
    (hb : b.toNat < 128) (h : encode text = before ++ b :: after) :
    ∃ left right, text = left ++ Char.ofNat b.toNat :: right ∧
      encode left = before ∧ encode right = after := by
  induction text generalizing before with
  | nil => simp at h
  | cons c text ih =>
    rw [encode_cons] at h
    by_cases hc : c.toNat < 128
    -- a character of one byte: it is `b`, or `b` comes later
    · rw [encodeChar_of_lt hc] at h
      cases before with
      | nil =>
        rw [List.singleton_append, List.nil_append, List.cons.injEq] at h
        refine ⟨[], text, ?_, rfl, h.2⟩
        rw [← h.1, UInt8.toNat_ofNat_of_lt' (show c.toNat < 256 by omega), Char.ofNat_toNat]
        rfl
      | cons b' before =>
        rw [List.singleton_append, List.cons_append, List.cons.injEq] at h
        obtain ⟨left, right, rfl, hleft, hright⟩ := ih h.2
        refine ⟨c :: left, right, rfl, ?_, hright⟩
        rw [encode_cons, encodeChar_of_lt hc, hleft, h.1]
        rfl
    · -- the byte is none of those of the first character
      have hpre : String.utf8EncodeChar c <+: before := by
        rcases List.prefix_or_prefix_of_prefix (List.prefix_append _ (encode text))
          (h ▸ List.prefix_append before (b :: after)) with hpre | hpre
        · exact hpre
        · obtain ⟨more, hmore⟩ := hpre
          cases more with
          | nil =>
            rw [List.append_nil] at hmore
            exact hmore ▸ List.prefix_refl _
          | cons b' more =>
            rw [← hmore, List.append_assoc, List.append_cancel_left_eq, List.cons_append,
              List.cons.injEq] at h
            have hmem : b' ∈ String.utf8EncodeChar c := by
              rw [← hmore]
              exact List.mem_append_right _ List.mem_cons_self
            have hle := le_of_mem_encodeChar (by omega) hmem
            rw [h.1] at hle
            omega
      obtain ⟨before, rfl⟩ := hpre
      rw [List.append_assoc, List.append_cancel_left_eq] at h
      obtain ⟨left, right, rfl, hleft, hright⟩ := ih h
      exact ⟨c :: left, right, rfl, by rw [encode_cons, hleft], hright⟩

theorem encode_ofNat {b : UInt8} (hb : b.toNat < 128) : encode [Char.ofNat b.toNat] = [b] := by
  have hc : (Char.ofNat b.toNat).toNat = b.toNat := by
    rw [Char.ofNat, dif_pos (.inl (by omega))]
    rfl
  rw [encode_cons, encodeChar_of_lt (by omega), hc, UInt8.ofNat_toNat]
  rfl

/-- **Around an ASCII byte, both sides have to be valid.** -/
theorem valid_append_cons {before after : List UInt8} {b : UInt8} (hb : b.toNat < 128) :
    Valid (before ++ b :: after) ↔ Valid before ∧ Valid after := by
  constructor
  · rintro ⟨text, htext⟩
    obtain ⟨left, right, -, hleft, hright⟩ := split_ascii hb htext
    exact ⟨⟨left, hleft⟩, ⟨right, hright⟩⟩
  · rintro ⟨⟨left, rfl⟩, ⟨right, rfl⟩⟩
    refine ⟨left ++ Char.ofNat b.toNat :: right, ?_⟩
    have hchar := encode_ofNat hb
    rw [encode_cons, encode_nil, List.append_nil] at hchar
    rw [encode_append, encode_cons, hchar]
    rfl

theorem valid_nil : Valid [] := ⟨[], rfl⟩

theorem valid_encode (text : List Char) : Valid (encode text) := ⟨text, rfl⟩

theorem valid_ascii_append {ascii after : List UInt8} (h : ∀ b ∈ ascii, b.toNat < 128) :
    Valid (ascii ++ after) ↔ Valid after := by
  induction ascii with
  | nil => exact Iff.rfl
  | cons b ascii ih =>
    have hb : Valid ([] ++ b :: (ascii ++ after)) ↔ Valid [] ∧ Valid (ascii ++ after) :=
      valid_append_cons (h b List.mem_cons_self)
    have htail := ih fun d hd => h d (List.mem_cons_of_mem b hd)
    rw [List.nil_append, htail] at hb
    exact hb.trans (and_iff_right valid_nil)

/-- A byte of a longer character is not valid alone. -/
theorem not_valid_singleton {b : UInt8} (hb : 128 ≤ b.toNat) : ¬Valid [b] := by
  rintro ⟨text, htext⟩
  cases text with
  | nil => cases htext
  | cons c text =>
    rw [encode_cons] at htext
    by_cases hc : c.toNat < 128
    · rw [encodeChar_of_lt hc, List.singleton_append, List.cons.injEq] at htext
      have hnat := congrArg UInt8.toNat htext.1
      rw [UInt8.toNat_ofNat_of_lt' (show c.toNat < 256 by omega)] at hnat
      omega
    · have hlen := congrArg List.length htext
      have hpos := c.utf8Size_pos
      have hsize : c.utf8Size ≠ 1 := fun h => hc (Nat.lt_succ_of_le (Char.utf8Size_eq_one_iff.mp h))
      rw [List.length_append, String.length_utf8EncodeChar, List.length_singleton] at hlen
      omega

end Utf8

namespace Utf16

/-- The first half of a pair. -/
def IsHigh (c : UInt16) : Prop := 0xD800 ≤ c.toNat ∧ c.toNat < 0xDC00

/-- The second half of a pair. -/
def IsLow (c : UInt16) : Prop := 0xDC00 ≤ c.toNat ∧ c.toNat < 0xE000

/-- Either half. -/
def IsSurrogate (c : UInt16) : Prop := 0xD800 ≤ c.toNat ∧ c.toNat < 0xE000

instance (c : UInt16) : Decidable (IsHigh c) := inferInstanceAs (Decidable (_ ∧ _))
instance (c : UInt16) : Decidable (IsLow c) := inferInstanceAs (Decidable (_ ∧ _))
instance (c : UInt16) : Decidable (IsSurrogate c) := inferInstanceAs (Decidable (_ ∧ _))

/-- The code units of a character. -/
def encodeChar (c : Char) : List UInt16 :=
  if c.toNat < 0x10000 then [UInt16.ofNat c.toNat]
  else
    [UInt16.ofNat (0xD800 + (c.toNat - 0x10000) / 0x400),
      UInt16.ofNat (0xDC00 + (c.toNat - 0x10000) % 0x400)]

/-- The code units of a text. -/
def encode (text : List Char) : List UInt16 := text.flatMap encodeChar

/-- The character of a unit that stands alone. -/
def unit (c : UInt16) : Char := if IsSurrogate c then Char.ofNat 0xFFFD else Char.ofNat c.toNat

/-- The character of a pair. -/
def pair (c d : UInt16) : Char :=
  Char.ofNat (0x10000 + (c.toNat - 0xD800) * 0x400 + (d.toNat - 0xDC00))

/-- The text of code units. -/
def decode : List UInt16 → List Char
  | [] => []
  | [c] => [unit c]
  | c :: d :: rest =>
    if IsHigh c ∧ IsLow d then pair c d :: decode rest else unit c :: decode (d :: rest)

@[simp] theorem encode_nil : encode [] = [] := rfl

@[simp] theorem encode_cons (c : Char) (text : List Char) :
    encode (c :: text) = encodeChar c ++ encode text := rfl

theorem decode_cons {c : UInt16} (h : ¬IsHigh c) (cs : List UInt16) :
    decode (c :: cs) = unit c :: decode cs := by
  cases cs with
  | nil => rfl
  | cons d cs => rw [decode, if_neg fun hc => h hc.1]

/-- Without pairs the units are read one by one. -/
theorem decode_eq_map {cs : List UInt16} (h : ∀ c ∈ cs, ¬IsSurrogate c) :
    decode cs = cs.map unit := by
  induction cs with
  | nil => rfl
  | cons c cs ih =>
    have hc : ¬IsHigh c := fun hc => h c List.mem_cons_self ⟨hc.1, Nat.lt_trans hc.2 (by decide)⟩
    rw [decode_cons hc, ih fun d hd => h d (List.mem_cons_of_mem c hd), List.map_cons]

/-- A character is not one of the halves. -/
theorem toNat_valid (c : Char) : c.toNat < 0xD800 ∨ (0xE000 ≤ c.toNat ∧ c.toNat < 0x110000) := by
  have hc := c.valid
  rcases hc with hc | hc
  · exact .inl hc
  · exact .inr ⟨hc.1, hc.2⟩

theorem unit_of_not {c : UInt16} (h : ¬IsSurrogate c) : (unit c).toNat = c.toNat := by
  have hlt := c.toNat_lt
  have hvalid : c.toNat.isValidChar := by
    by_cases hc : c.toNat < 0xD800
    · exact .inl hc
    · refine .inr ⟨?_, by omega⟩
      by_contra hle
      exact h ⟨by omega, by omega⟩
  rw [unit, if_neg h, Char.ofNat, dif_pos hvalid]
  rfl

theorem unit_eq_of_toNat {c : Char} (h : c.toNat < 0x10000) : unit (UInt16.ofNat c.toNat) = c := by
  have hc : (UInt16.ofNat c.toNat).toNat = c.toNat := UInt16.toNat_ofNat_of_lt' h
  have hvalid := toNat_valid c
  have hnot : ¬IsSurrogate (UInt16.ofNat c.toNat) := by
    rintro ⟨hle, hlt⟩
    omega
  rw [unit, if_neg hnot, hc, Char.ofNat_toNat]

/-- A unit that is no half of a pair is the only one of its character. -/
theorem encode_map_unit {cs : List UInt16} (h : ∀ c ∈ cs, ¬IsSurrogate c) :
    encode (cs.map unit) = cs := by
  induction cs with
  | nil => rfl
  | cons c cs ih =>
    have hc := unit_of_not (h c List.mem_cons_self)
    have hlt := c.toNat_lt
    rw [List.map_cons, encode_cons, encodeChar, if_pos (by omega), hc, UInt16.ofNat_toNat,
      ih fun d hd => h d (List.mem_cons_of_mem c hd)]
    rfl

/-- **A text is read back from its units.** -/
@[simp] theorem decode_encode (text : List Char) : decode (encode text) = text := by
  induction text with
  | nil => rfl
  | cons c text ih =>
    have hvalid := toNat_valid c
    rw [encode_cons, encodeChar]
    split
    · next hlt =>
      have hc : (UInt16.ofNat c.toNat).toNat = c.toNat := UInt16.toNat_ofNat_of_lt' hlt
      have hnot : ¬IsHigh (UInt16.ofNat c.toNat) := by
        rintro ⟨hle, hlt⟩
        omega
      rw [List.singleton_append, decode_cons hnot, unit_eq_of_toNat hlt, ih]
    · next hlt =>
      have hhigh : (UInt16.ofNat (0xD800 + (c.toNat - 0x10000) / 0x400)).toNat
          = 0xD800 + (c.toNat - 0x10000) / 0x400 :=
        UInt16.toNat_ofNat_of_lt' (show _ < 65536 by omega)
      have hlow : (UInt16.ofNat (0xDC00 + (c.toNat - 0x10000) % 0x400)).toNat
          = 0xDC00 + (c.toNat - 0x10000) % 0x400 :=
        UInt16.toNat_ofNat_of_lt' (show _ < 65536 by omega)
      have hpair : pair (UInt16.ofNat (0xD800 + (c.toNat - 0x10000) / 0x400))
          (UInt16.ofNat (0xDC00 + (c.toNat - 0x10000) % 0x400)) = c := by
        have hnat : 0x10000 + (0xD800 + (c.toNat - 0x10000) / 0x400 - 0xD800) * 0x400
            + (0xDC00 + (c.toNat - 0x10000) % 0x400 - 0xDC00) = c.toNat := by omega
        rw [pair, hhigh, hlow, hnat, Char.ofNat_toNat]
      rw [List.cons_append, List.cons_append, List.nil_append, decode, if_pos, hpair, ih]
      refine ⟨⟨?_, ?_⟩, ?_, ?_⟩ <;> omega

/-! ### Pairs -/

/-- The characters with two code units. -/
theorem length_encodeChar (c : Char) :
    (encodeChar c).length = if c.toNat < 0x10000 then 1 else 2 := by
  unfold encodeChar
  split <;> rfl

theorem not_surrogate_of_lt {c : Char} (h : c.toNat < 0x10000) :
    ∀ u ∈ encodeChar c, ¬IsSurrogate u := by
  intro u hu
  rw [encodeChar, if_pos h] at hu
  obtain rfl := List.mem_singleton.mp hu
  have hc : (UInt16.ofNat c.toNat).toNat = c.toNat := UInt16.toNat_ofNat_of_lt' h
  have hvalid := toNat_valid c
  rintro ⟨hle, hlt⟩
  omega

/-- There are as many units as characters exactly if there are no pairs. -/
theorem length_encode (text : List Char) :
    text.length ≤ (encode text).length ∧
      ((encode text).length = text.length → ∀ u ∈ encode text, ¬IsSurrogate u) := by
  induction text with
  | nil => exact ⟨Nat.le_refl _, fun _ u hu => by cases hu⟩
  | cons c text ih =>
    have hc := length_encodeChar c
    rw [encode_cons, List.length_append, List.length_cons]
    constructor
    · split at hc <;> omega
    · intro hlen u hu
      have hlt : c.toNat < 0x10000 := by
        by_contra hle
        rw [if_neg hle] at hc
        have := ih.1
        omega
      rw [if_pos hlt] at hc
      rcases List.mem_append.mp hu with hu | hu
      · exact not_surrogate_of_lt hlt u hu
      · exact ih.2 (by omega) u hu

end Utf16
