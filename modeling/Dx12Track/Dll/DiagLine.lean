import Dx12Track.Dll.JsonLog

/-!
# Diagnostics in the JSON log

`DiagF` formats its message with the C library, in the bytes of the locale, and
the log escapes these bytes as if they were ASCII: the others go to the file as
they are.

* `diagF` — the payload for a formatted message.
* `valid_escaped_iff` — escaping neither makes bytes valid UTF-8 nor spoils them.
* `valid_line_iff` — the line is UTF-8 exactly if the message is.
* `msgLine_iff` — **so a diagnostic is written as it should be exactly if its
  message is UTF-8**.
-/

namespace Dx12Track

open Json Digits

/-! ### Messages -/

/-- `_vsnprintf_s` with `_TRUNCATE` into a zeroed payload: what it leaves of the bytes `out`
that the format stands for. -/
def diagF (out : List UInt8) : DiagnosticPayload where
  message := (out ++ List.replicate kMaxDiagnosticChars 0).take (kMaxDiagnosticChars - 1) ++ [0]
  length_eq := by
    have hle : kMaxDiagnosticChars - 1 ≤ out.length + kMaxDiagnosticChars := by omega
    rw [List.length_append, List.length_take, List.length_append, List.length_replicate,
      Nat.min_eq_left hle]
    rfl

/-- A message that fits is kept. -/
theorem bytes_diagF {out : List UInt8} (h : out.all (· ≠ 0) = true) (hlen : out.length < 512) :
    (diagF out).bytes = out := by
  have hmessage : (diagF out).message = out ++ List.replicate (512 - out.length) 0 := by
    have hzeros : List.replicate (512 - out.length) (0 : UInt8)
        = List.replicate (511 - out.length) 0 ++ [0] := by
      rw [← List.replicate_succ', show 511 - out.length + 1 = 512 - out.length by omega]
    have htake : (out ++ List.replicate 512 (0 : UInt8)).take 511
        = out ++ List.replicate (511 - out.length) 0 := by
      rw [List.take_append, List.take_of_length_le (by omega), List.take_replicate,
        Nat.min_eq_left (by omega)]
    show (out ++ List.replicate 512 0).take 511 ++ [0] = _
    rw [htake, hzeros, List.append_assoc]
  have hfull : (diagF out).message.take kMaxDiagnosticChars = (diagF out).message :=
    List.take_of_length_le (Nat.le_of_eq (diagF out).length_eq)
  rw [DiagnosticPayload.bytes, hfull, hmessage]
  exact takeWhile_append_zeros (fun b hb => of_decide_eq_true (List.all_eq_true.mp h b hb)) _

/-! ### Escapes -/

/-- What the loop writes for an ASCII byte is ASCII. -/
theorem ascii_escapedByte {b : UInt8} (hb : b.toNat < 128) :
    escapedByte b ≠ [] ∧ ∀ d ∈ escapedByte b, d.toNat < 128 := by
  have hall : ∀ n < 128, escapedByte (UInt8.ofNat n) ≠ [] ∧
      (escapedByte (UInt8.ofNat n)).all (fun d => d.toNat < 128) = true := by decide
  obtain ⟨hne, hascii⟩ := hall b.toNat hb
  rw [UInt8.ofNat_toNat] at hne hascii
  exact ⟨hne, fun d hd => of_decide_eq_true (List.all_eq_true.mp hascii d hd)⟩

/-- The other bytes are copied. -/
theorem escapedByte_of_le {b : UInt8} (hb : 128 ≤ b.toNat) : escapedByte b = [b] := by
  have hne : ∀ d : UInt8, d.toNat < 128 → b ≠ d := by
    rintro d hd rfl
    omega
  have hle : ¬b < 0x20 := by
    intro hlt
    have hlt : b.toNat < 32 := hlt
    omega
  rw [escapedByte, if_neg (hne _ (by decide)), if_neg (hne _ (by decide)),
    if_neg (hne _ (by decide)), if_neg (hne _ (by decide)), if_neg (hne _ (by decide)), if_neg hle]

/-- **Escaping does not change whether bytes are UTF-8.** -/
theorem valid_escaped_iff (high bytes : List UInt8) :
    Utf8.Valid (high ++ bytes.flatMap escapedByte) ↔ Utf8.Valid (high ++ bytes) := by
  induction bytes generalizing high with
  | nil => exact Iff.rfl
  | cons b bytes ih =>
    rw [List.flatMap_cons]
    by_cases hb : b.toNat < 128
    · -- an ASCII byte and its escape both divide what is around them
      obtain ⟨hne, hascii⟩ := ascii_escapedByte hb
      obtain ⟨d, ds, hds⟩ := List.exists_cons_of_ne_nil hne
      rw [hds] at hascii ⊢
      have hrest := ih []
      rw [List.nil_append, List.nil_append] at hrest
      rw [List.cons_append, Utf8.valid_append_cons (hascii d List.mem_cons_self),
        Utf8.valid_append_cons hb,
        Utf8.valid_ascii_append fun b hb => hascii b (List.mem_cons_of_mem d hb), hrest]
    · have hcopy := ih (high ++ [b])
      rw [List.append_assoc, List.append_assoc] at hcopy
      rw [escapedByte_of_le (by omega)]
      exact hcopy

/-- How a character of a message is written. -/
def escapedChar (c : Char) : List Char :=
  if c.toNat < 128 then escapedText (UInt16.ofNat c.toNat) else [c]

theorem item_escapedChar (c : Char) : Json.Item (escapedChar c) c := by
  unfold escapedChar
  split
  · next hc =>
    have hitem := item_escapedText (UInt16.ofNat c.toNat)
    rwa [Utf16.unit_eq_of_toNat (by omega)] at hitem
  · next hc =>
    refine .plain (by omega) ?_ ?_
    · rintro rfl
      exact hc (by decide)
    · rintro rfl
      exact hc (by decide)

theorem chars_escapedChar (text : List Char) : Chars (text.flatMap escapedChar) text := by
  induction text with
  | nil => exact .nil
  | cons c text ih => exact .cons (item_escapedChar c) ih

theorem flatMap_escapedByte_char (c : Char) :
    (String.utf8EncodeChar c).flatMap escapedByte = Utf8.encode (escapedChar c) := by
  by_cases hc : c.toNat < 128
  · have hall : ∀ n < 128, escapedByte (UInt8.ofNat n)
        = Utf8.encode (escapedText (UInt16.ofNat n)) := by decide
    rw [Utf8.encodeChar_of_lt hc, List.flatMap_singleton, hall c.toNat hc, escapedChar, if_pos hc]
  · have hcopy : ∀ bytes : List UInt8, (∀ b ∈ bytes, 128 ≤ b.toNat) →
        bytes.flatMap escapedByte = bytes := by
      intro bytes hbytes
      induction bytes with
      | nil => rfl
      | cons b bytes ih =>
        rw [List.flatMap_cons, escapedByte_of_le (hbytes b List.mem_cons_self),
          ih fun d hd => hbytes d (List.mem_cons_of_mem b hd)]
        rfl
    rw [hcopy _ fun b hb => Utf8.le_of_mem_encodeChar (by omega) hb, escapedChar, if_neg hc,
      Utf8.encode_cons, Utf8.encode_nil, List.append_nil]

theorem flatMap_escapedByte (text : List Char) :
    (Utf8.encode text).flatMap escapedByte = Utf8.encode (text.flatMap escapedChar) := by
  induction text with
  | nil => rfl
  | cons c text ih =>
    rw [Utf8.encode_cons, List.flatMap_append, flatMap_escapedByte_char, ih, List.flatMap_cons,
      Utf8.encode_append]

/-! ### The line -/

def msgField (text : List Char) : Member :=
  ⟨"msg".toList, '"' :: text.flatMap escapedChar ++ ['"'], .str text⟩

theorem valid_msgField (text : List Char) : (msgField text).Valid where
  key := List.all_eq_true.mp (show "msg".toList.all isPlain = true by decide)
  value := written_str (chars_escapedChar text)

def diagFields (text : List Char) (tsNs : ℕ) : List Member :=
  [strField "event" EventKind.diagnostic.event, natField "ts_ns" tsNs, msgField text]

theorem valid_diagFields (text : List Char) (tsNs : ℕ) : ∀ f ∈ diagFields text tsNs, f.Valid := by
  simp only [diagFields, List.forall_mem_cons]
  exact ⟨valid_strField (by decide) (isPlain_event _), valid_natField (by decide) _,
    valid_msgField text, List.forall_mem_nil _⟩

/-- The line of a message that is UTF-8. -/
theorem diag_line_eq (toUtf8 : ToUtf8) {p : DiagnosticPayload} {text : List Char}
    (htext : Utf8.encode text = p.bytes) (tsNs : ℕ) :
    line toUtf8 (.diagnostic (some p)) tsNs
      = Utf8.encode (object (diagFields text tsNs) ++ ['\n']) := by
  refine line_of_payload (fun out => ?_) tsNs
  have hvalue : ascii "\"" ++ p.bytes.flatMap escapedByte ++ ascii "\""
      = Utf8.encode (msgField text).text := by
    rw [← htext, flatMap_escapedByte]
    exact quoted_eq _
  rw [← appendKey_append out (msgField text) rfl, ← hvalue]
  simp only [appendPayload, List.append_assoc]

/-- **The line is UTF-8 exactly if the message is.** -/
theorem valid_line_iff (toUtf8 : ToUtf8) (p : DiagnosticPayload) (tsNs : ℕ) :
    Utf8.Valid (line toUtf8 (.diagnostic (some p)) tsNs) ↔ Utf8.Valid p.bytes := by
  obtain ⟨start, hstart⟩ : ∃ start, line toUtf8 (.diagnostic (some p)) tsNs
      = Utf8.encode start ++ (0x22 : UInt8) :: (p.bytes.flatMap escapedByte ++
        (0x22 : UInt8) :: Utf8.encode ['}', '\n']) := by
    have hquote : ascii "\"" = [0x22] := by decide
    have hend : Utf8.encode ['}'] ++ ascii "\n" = Utf8.encode ['}', '\n'] := by decide
    unfold line
    dsimp only [appendPayload]
    rw [event_eq, commaKvU64_eq, ← Utf8.encode_append, appendKey_eq, ← Utf8.encode_append, hquote,
      List.append_assoc _ (Utf8.encode ['}']), hend]
    exact ⟨_, by simp only [List.append_assoc]; rfl⟩
  have hmessage := valid_escaped_iff [] p.bytes
  rw [List.nil_append, List.nil_append] at hmessage
  rw [hstart, Utf8.valid_append_cons (by decide), Utf8.valid_append_cons (by decide), hmessage]
  exact ⟨fun h => h.2.1, fun h => ⟨Utf8.valid_encode _, h, Utf8.valid_encode _⟩⟩

/-- The diagnostic is an object on a line of its own, and its `msg` is the message. -/
def MsgLine (toUtf8 : ToUtf8) (p : DiagnosticPayload) (tsNs : ℕ) : Prop :=
  ∃ members text, ObjectLine (line toUtf8 (.diagnostic (some p)) tsNs) members ∧
    get? "msg".toList (.obj members) = some (.str text) ∧ Utf8.encode text = p.bytes

theorem valid_of_msgLine {toUtf8 : ToUtf8} {p : DiagnosticPayload} {tsNs : ℕ}
    (h : MsgLine toUtf8 p tsNs) : Utf8.Valid p.bytes := by
  obtain ⟨members, -, ⟨text, hline, -, -⟩, -, -⟩ := h
  rw [← valid_line_iff toUtf8 p tsNs, hline]
  exact ⟨text ++ ['\n'], Utf8.encode_append text ['\n']⟩

/-- **A diagnostic is written as it should be exactly if its message is UTF-8.** -/
theorem msgLine_iff (toUtf8 : ToUtf8) (p : DiagnosticPayload) (tsNs : ℕ) :
    MsgLine toUtf8 p tsNs ↔ Utf8.Valid p.bytes := by
  constructor
  · exact valid_of_msgLine
  · rintro ⟨text, htext⟩
    have hkeys : ((diagFields text tsNs).map Member.key).Nodup :=
      show (["event", "ts_ns", "msg"].map String.toList).Nodup by decide
    have hmsg : msgField text ∈ diagFields text tsNs := by simp [diagFields]
    refine ⟨(diagFields text tsNs).map Member.pair, text, ?_, get?_member hkeys hmsg, htext⟩
    rw [diag_line_eq toUtf8 htext]
    exact objectLine_of_written (written_object (valid_diagFields text tsNs))

/-- The first diagnostic, with a log in a directory whose name has an accent: in the "C" locale
`%ls` converts U+00E9 to one byte. -/
def attached : DiagnosticPayload :=
  diagF (ascii "dx12track DllMain attached, pid=4242, pipe=(none), json=C:\\" ++ (0xE9 : UInt8) ::
    ascii "\\log.jsonl, callstacks=1")

theorem bytes_attached : attached.bytes
    = ascii "dx12track DllMain attached, pid=4242, pipe=(none), json=C:" ++ (0x5C : UInt8) ::
      ([0xE9] ++ (0x5C : UInt8) :: ascii "log.jsonl, callstacks=1") := by
  rw [attached, bytes_diagF (by decide) (by decide)]
  decide

theorem not_msgLine_attached : ¬∀ toUtf8 p tsNs, MsgLine toUtf8 p tsNs := by
  intro h
  have hvalid := valid_of_msgLine (h convert attached 0)
  rw [bytes_attached, Utf8.valid_append_cons (by decide),
    Utf8.valid_append_cons (by decide)] at hvalid
  exact Utf8.not_valid_singleton (by decide) hvalid.2.1

end Dx12Track
