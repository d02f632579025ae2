import Mathlib.Order.Monotone.Basic
import Mathlib.Data.Nat.ModEq

/-!
# Scaling by a fraction

Counts of one unit are turned into counts of another by a multiplication and a
division that rounds down.  Rounding two counts and subtracting is not the same
as rounding their difference; it is off by one at most.

* `scale` — the scaled count; `scale_mono`, `scale_add`.
* `longDiv` — a dividend of two words over one word, saturated where the quotient
  does not fit a word; `longDiv_eq_min`.
-/

/-- `t` units, `den` of which make what `num` new ones make, in new ones. -/
def scale (num den t : ℕ) : ℕ := t * num / den

section Scale

variable {num den : ℕ}

theorem scale_mono (num den : ℕ) : Monotone (scale num den) := fun _ _ hst =>
  Nat.div_le_div_right (Nat.mul_le_mul_right num hst)

/-- A sum scales to the sum of the scaled counts, or to one more. -/
theorem scale_add (num : ℕ) (hden : 0 < den) (s t : ℕ) :
    scale num den (s + t) = scale num den s + scale num den t ∨
      scale num den (s + t) = scale num den s + scale num den t + 1 := by
  unfold scale
  rw [Nat.add_mul, Nat.add_div hden]
  split
  · exact .inr rfl
  · exact .inl rfl

/-- The scaled counts differ by the scaled difference, or by one more. -/
theorem scale_sub (hden : 0 < den) {s t : ℕ} (hst : s ≤ t) :
    scale num den t - scale num den s = scale num den (t - s) ∨
      scale num den t - scale num den s = scale num den (t - s) + 1 := by
  obtain ⟨d, rfl⟩ := Nat.exists_eq_add_of_le hst
  rw [Nat.add_sub_cancel_left]
  rcases scale_add num hden s d with h | h
  · left
    omega
  · right
    omega

end Scale

/-! ### Division of two words by one -/

section LongDiv

variable {base hi lo d : ℕ}

/-- The quotient fits a word when the high word is less than the divisor. -/
theorem longDiv_lt (hlo : lo < base) (h : hi < d) : (hi * base + lo) / d < base := by
  refine (Nat.div_lt_iff_lt_mul (by omega)).mpr ?_
  calc hi * base + lo < (hi + 1) * base := by rw [Nat.add_mul]; omega
    _ ≤ d * base := Nat.mul_le_mul_right _ h
    _ = base * d := Nat.mul_comm _ _

/-- Otherwise it does not. -/
theorem le_longDiv (hd : 0 < d) (h : d ≤ hi) : base ≤ (hi * base + lo) / d := by
  refine (Nat.le_div_iff_mul_le hd).mpr ?_
  calc base * d ≤ base * hi := Nat.mul_le_mul_left _ h
    _ = hi * base := Nat.mul_comm _ _
    _ ≤ hi * base + lo := Nat.le_add_right _ _

/-- The quotient, or the greatest word. -/
def longDiv (base hi lo d : ℕ) : ℕ := if hi ≥ d then base - 1 else (hi * base + lo) / d

theorem longDiv_eq_min (hlo : lo < base) (hd : 0 < d) :
    longDiv base hi lo d = min ((hi * base + lo) / d) (base - 1) := by
  unfold longDiv
  split
  · next h =>
    have : base ≤ (hi * base + lo) / d := le_longDiv hd h
    omega
  · next h =>
    have := longDiv_lt hlo (Nat.lt_of_not_ge h)
    omega

end LongDiv
