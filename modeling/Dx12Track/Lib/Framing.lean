import Mathlib.Algebra.Group.Nat.Defs
import Mathlib.Data.List.Basic

/-!
# Framed byte streams

Records are written one after another into a stream that may end anywhere, and
read back one at a time.  A framing is an encoding whose records mark their own
end: a reader needs nothing but the bytes so far to tell a complete record from
one that was cut off.

* `Bytes.le`, `Bytes.ofLE` — fixed-width little-endian numbers.
* `Framing` — the encoding of one record, its decoder, and their two laws.
* `encAll`, `decAll` — streams of records.
* `decAll_isPrefix`, `decAll_encAll` — what a reader gets from a stream cut anywhere,
  and from a whole one.
* `le_length_decAll_iff` — how many records it gets.
-/

namespace Bytes

/-- The `n` low bytes of `v`, lowest first. -/
def le : ℕ → ℕ → List UInt8
  | 0, _ => []
  | n + 1, v => UInt8.ofNat (v % 256) :: le n (v / 256)

/-- The number that the bytes `bs` make, lowest first. -/
def ofLE : List UInt8 → ℕ
  | [] => 0
  | b :: bs => b.toNat + 256 * ofLE bs

@[simp] theorem length_le (n v : ℕ) : (le n v).length = n := by
  induction n generalizing v with
  | zero => rfl
  | succ n ih => simp [le, ih]

theorem ofLE_le {n v : ℕ} (hv : v < 256 ^ n) : ofLE (le n v) = v := by
  induction n generalizing v with
  | zero =>
    simp only [Nat.pow_zero, Nat.lt_one_iff] at hv
    simp [le, ofLE, hv]
  | succ n ih =>
    have hdiv : v / 256 < 256 ^ n := by
      rw [Nat.pow_succ] at hv
      exact Nat.div_lt_of_lt_mul (by omega)
    have hmod : (UInt8.ofNat (v % 256)).toNat = v % 256 := by
      simp
    rw [le, ofLE, ih hdiv, hmod]
    omega

end Bytes

/-- An encoding of records `α` as lists over `β`, with the decoder of the first record
of a stream. -/
structure Framing (α β : Type*) where
  enc : α → List β
  dec : List β → Option (α × List β)
  enc_pos : ∀ x, 0 < (enc x).length
  /-- A complete record is read back, and nothing after it is touched. -/
  dec_enc : ∀ x rest, dec (enc x ++ rest) = some (x, rest)
  /-- A record that was cut off is refused. -/
  dec_cut : ∀ x bs, bs <+: enc x → bs.length < (enc x).length → dec bs = none

namespace Framing

variable {α β : Type*} (F : Framing α β)

/-- The stream of some records. -/
def encAll (xs : List α) : List β := xs.flatMap F.enc

/-- The records at the front of a stream, `n` at most. -/
def decAll : ℕ → List β → List α
  | 0, _ => []
  | n + 1, bs =>
    match F.dec bs with
    | none => []
    | some (x, rest) => x :: decAll n rest

@[simp] theorem encAll_nil : F.encAll [] = [] := rfl

@[simp] theorem encAll_cons (x : α) (xs : List α) :
    F.encAll (x :: xs) = F.enc x ++ F.encAll xs := rfl

theorem encAll_append (xs ys : List α) : F.encAll (xs ++ ys) = F.encAll xs ++ F.encAll ys :=
  List.flatMap_append

theorem encAll_concat (xs : List α) (x : α) : F.encAll (xs ++ [x]) = F.encAll xs ++ F.enc x := by
  simp [encAll_append]

theorem encAll_isPrefix {xs ys : List α} (h : xs <+: ys) : F.encAll xs <+: F.encAll ys := by
  obtain ⟨zs, rfl⟩ := h
  rw [encAll_append]
  exact List.prefix_append _ _

theorem dec_nil : F.dec [] = none := by
  cases hd : F.dec [] with
  | none => rfl
  | some p =>
    have hcut := F.dec_cut p.1 [] List.nil_prefix (F.enc_pos p.1)
    rw [hd] at hcut
    exact hcut

theorem decAll_of_none {bs : List β} (h : F.dec bs = none) (n : ℕ) : F.decAll n bs = [] := by
  cases n with
  | zero => rfl
  | succ n => rw [decAll, h]

theorem decAll_of_some {bs rest : List β} {x : α} (h : F.dec bs = some (x, rest)) (n : ℕ) :
    F.decAll (n + 1) bs = x :: F.decAll n rest := by
  rw [decAll, h]

/-- **Cut streams.**  Whatever part of a stream has arrived, the reader gets a prefix of
the records, and only complete ones. -/
theorem decAll_isPrefix {bs : List β} {xs : List α} (h : bs <+: F.encAll xs) (n : ℕ) :
    F.decAll n bs <+: xs ∧ F.encAll (F.decAll n bs) <+: bs := by
  induction n generalizing bs xs with
  | zero => exact ⟨List.nil_prefix, List.nil_prefix⟩
  | succ n ih =>
    cases xs with
    | nil =>
      have hbs : bs = [] := List.prefix_nil.mp h
      subst hbs
      rw [F.decAll_of_none F.dec_nil]
      exact ⟨List.nil_prefix, List.nil_prefix⟩
    | cons x xs =>
      rw [encAll_cons] at h
      rcases Nat.lt_or_ge bs.length (F.enc x).length with hlt | hge
      · -- the first record is cut off
        have hcut : bs <+: F.enc x :=
          List.prefix_of_prefix_length_le h (List.prefix_append _ _)
            (Nat.le_of_lt hlt)
        rw [F.decAll_of_none (F.dec_cut x bs hcut hlt)]
        exact ⟨List.nil_prefix, List.nil_prefix⟩
      · obtain ⟨rest, rfl⟩ := List.prefix_of_prefix_length_le (List.prefix_append _ _) h hge
        have hrest : rest <+: F.encAll xs := (List.prefix_append_right_inj _).mp h
        obtain ⟨h₁, h₂⟩ := ih hrest
        rw [F.decAll_of_some (F.dec_enc x rest), encAll_cons]
        exact ⟨(List.prefix_cons_inj x).mpr h₁, (List.prefix_append_right_inj _).mpr h₂⟩

/-- **Whole streams.**  A stream that arrived completely is read back. -/
theorem decAll_encAll {xs : List α} {n : ℕ} (h : xs.length ≤ n) :
    F.decAll n (F.encAll xs) = xs := by
  induction xs generalizing n with
  | nil => exact F.decAll_of_none F.dec_nil n
  | cons x xs ih =>
    obtain ⟨m, rfl⟩ : ∃ m, n = m + 1 := ⟨n - 1, by simp at h; omega⟩
    rw [encAll_cons, F.decAll_of_some (F.dec_enc x _), ih (by simpa using h)]

/-- The complete records at the front of a stream are read first. -/
theorem decAll_append (xs : List α) (bs : List β) (n : ℕ) :
    F.decAll (xs.length + n) (F.encAll xs ++ bs) = xs ++ F.decAll n bs := by
  induction xs with
  | nil => simp
  | cons x xs ih =>
    rw [encAll_cons, List.append_assoc, List.length_cons, Nat.add_right_comm,
      F.decAll_of_some (F.dec_enc x _), ih, List.cons_append]

/-- **The records that have arrived** are those whose last byte has. -/
theorem le_length_decAll_iff {xs : List α} {bs : List β} (h : bs <+: F.encAll xs) {n j : ℕ}
    (hj : j ≤ xs.length) (hn : j ≤ n) :
    j ≤ (F.decAll n bs).length ↔ (F.encAll (xs.take j)).length ≤ bs.length := by
  obtain ⟨hxs, hbs⟩ := F.decAll_isPrefix h n
  constructor
  · intro hle
    have hpart : xs.take j <+: F.decAll n bs := by
      refine List.prefix_of_prefix_length_le (List.take_prefix _ _) hxs ?_
      exact Nat.le_trans (List.length_take_le _ _) hle
    exact ((F.encAll_isPrefix hpart).trans hbs).length_le
  · intro hle
    obtain ⟨rest, hrest⟩ := List.prefix_of_prefix_length_le
      (F.encAll_isPrefix (List.take_prefix j xs)) h hle
    have hlen : (xs.take j).length = j := List.length_take_of_le hj
    have hdec := F.decAll_append (xs.take j) rest (n - j)
    rw [hlen, Nat.add_sub_cancel' hn, hrest] at hdec
    rw [hdec, List.length_append, hlen]
    exact Nat.le_add_right _ _

end Framing
