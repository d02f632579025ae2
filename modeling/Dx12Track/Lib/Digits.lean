import Mathlib.Data.List.Basic

/-!
# Numbers in decimal and in hexadecimal

The digits of a number are `Nat.toDigits` of the core library; this module reads
them back.

* `Digits.ofDecimal?`, `Digits.ofHex?` — the number that digits stand for.
* `Digits.hexPad` — hexadecimal digits, with zeros in front of them.
* `ofDecimal?_toDigits`, `ofHex?_toDigits`, `ofHex?_hexPad` — **digits are read
  back**.
-/

namespace Digits

/-- The value of a hexadecimal digit. -/
def hexDigit? (c : Char) : Option ℕ :=
  if '0' ≤ c ∧ c ≤ '9' then some (c.toNat - '0'.toNat)
  else if 'a' ≤ c ∧ c ≤ 'f' then some (c.toNat - 'a'.toNat + 10)
  else if 'A' ≤ c ∧ c ≤ 'F' then some (c.toNat - 'A'.toNat + 10)
  else none

/-- One digit or more. -/
def isDigits (t : List Char) : Bool := !t.isEmpty && t.all Char.isDigit

/-- The number of decimal digits. -/
def ofDecimal? (t : List Char) : Option ℕ :=
  if isDigits t then some (Nat.ofDigitChars 10 t 0) else none

/-- The number of hexadecimal digits. -/
def ofHex? (t : List Char) : Option ℕ :=
  t.foldlM (fun n c => (hexDigit? c).map fun d => 16 * n + d) 0

/-- `width` hexadecimal digits, or more if the number has more. -/
def hexPad (width n : ℕ) : List Char :=
  List.replicate (width - (Nat.toDigits 16 n).length) '0' ++ Nat.toDigits 16 n

/-! ### Decimal -/

theorem isDigits_toDigits (n : ℕ) : isDigits (Nat.toDigits 10 n) = true := by
  have hall : ∀ c ∈ Nat.toDigits 10 n, c.isDigit = true :=
    fun c hc => Nat.isDigit_of_mem_toDigits (by decide) (by decide) hc
  simp only [isDigits, Bool.and_eq_true, Bool.not_eq_true', List.all_eq_true]
  refine ⟨?_, hall⟩
  rw [List.isEmpty_eq_false_iff]
  exact Nat.toDigits_ne_nil

/-- **Decimal digits are read back.** -/
theorem ofDecimal?_toDigits (n : ℕ) : ofDecimal? (Nat.toDigits 10 n) = some n := by
  rw [ofDecimal?, if_pos (isDigits_toDigits n),
    Nat.ofDigitChars_toDigits (by decide) (by decide)]

/-- Only zero begins with a zero. -/
theorem head_toDigits {n : ℕ} (hn : 0 < n) : (Nat.toDigits 10 n).head? ≠ some '0' := by
  induction n using Nat.strongRecOn with
  | _ n ih =>
    by_cases hlt : n < 10
    · rw [Nat.toDigits_of_lt_base hlt]
      have hall : ∀ d < 10, 0 < d → [Nat.digitChar d].head? ≠ some '0' := by decide
      exact hall n hlt hn
    · rw [Nat.toDigits_of_base_le (by decide) (by omega)]
      have hih := ih (n / 10) (by omega) (by omega)
      rwa [List.head?_append_of_ne_nil _ Nat.toDigits_ne_nil]

/-! ### Hexadecimal -/

theorem hexDigit?_digitChar {d : ℕ} (hd : d < 16) : hexDigit? (Nat.digitChar d) = some d := by
  have hall : ∀ d < 16, hexDigit? (Nat.digitChar d) = some d := by decide
  exact hall d hd

theorem ofHex?_concat {t : List Char} {n d : ℕ} {c : Char} (ht : ofHex? t = some n)
    (hc : hexDigit? c = some d) : ofHex? (t ++ [c]) = some (16 * n + d) := by
  rw [ofHex?, List.foldlM_append]
  have ht : t.foldlM (fun n c => (hexDigit? c).map fun d => 16 * n + d) 0 = some n := ht
  simp [ht, hc]

/-- **Hexadecimal digits are read back.** -/
theorem ofHex?_toDigits (n : ℕ) : ofHex? (Nat.toDigits 16 n) = some n := by
  induction n using Nat.strongRecOn with
  | _ n ih =>
    by_cases hlt : n < 16
    · rw [Nat.toDigits_of_lt_base hlt]
      have hread := ofHex?_concat (t := []) rfl (hexDigit?_digitChar hlt)
      simpa using hread
    · rw [Nat.toDigits_of_base_le (by decide) (by omega),
        ofHex?_concat (ih (n / 16) (by omega)) (hexDigit?_digitChar (Nat.mod_lt n (by decide)))]
      congr 1
      omega

theorem ofHex?_zeros (k : ℕ) (t : List Char) :
    ofHex? (List.replicate k '0' ++ t) = ofHex? t := by
  induction k with
  | zero => rfl
  | succ k ih => exact ih

/-- Zeros in front do not matter. -/
theorem ofHex?_hexPad (width n : ℕ) : ofHex? (hexPad width n) = some n := by
  rw [hexPad, ofHex?_zeros, ofHex?_toDigits]

/-- A byte has two digits. -/
theorem hexPad_two {n : ℕ} (hn : n < 256) :
    hexPad 2 n = [Nat.digitChar (n / 16), Nat.digitChar (n % 16)] := by
  by_cases hlt : n < 16
  · rw [hexPad, Nat.toDigits_of_lt_base hlt, Nat.div_eq_of_lt hlt, Nat.mod_eq_of_lt hlt]
    rfl
  · rw [hexPad, Nat.toDigits_of_base_le (by decide) (by omega),
      Nat.toDigits_of_lt_base (show n / 16 < 16 by omega)]
    rfl

/-- The digits are those of the numbers below sixteen. -/
theorem mem_toDigits {n : ℕ} {c : Char} (h : c ∈ Nat.toDigits 16 n) :
    ∃ d < 16, c = Nat.digitChar d := by
  induction n using Nat.strongRecOn with
  | _ n ih =>
    by_cases hlt : n < 16
    · rw [Nat.toDigits_of_lt_base hlt] at h
      exact ⟨n, hlt, List.mem_singleton.mp h⟩
    · rw [Nat.toDigits_of_base_le (by decide) (by omega)] at h
      rcases List.mem_append.mp h with h | h
      · exact ih (n / 16) (by omega) h
      · exact ⟨n % 16, Nat.mod_lt n (by decide), List.mem_singleton.mp h⟩

theorem mem_hexPad {width n : ℕ} {c : Char} (h : c ∈ hexPad width n) :
    ∃ d < 16, c = Nat.digitChar d := by
  rcases List.mem_append.mp h with h | h
  · exact ⟨0, by decide, List.eq_of_mem_replicate h⟩
  · exact mem_toDigits h

end Digits
