import Mathlib.Algebra.Group.Nat.Defs
import Mathlib.Data.List.Basic

/-!
# Bytes in memory

A memory gives the byte at each address.  A text of bytes that stands somewhere
stays there under writes that do not meet it, which is all that the users of this
module need to know of two writes.

* `Memory.read`, `Memory.write` — several bytes.
* `Memory.Holds` — bytes that stand at an address.
* `Memory.Holds.write` — **a write elsewhere leaves them**.
* `le`, `ofLe` — numbers, the low byte first; `units`, `ofUnits` — arrays of them.
-/

/-- The byte at each address. -/
abbrev Memory := ℕ → UInt8

namespace Memory

/-- `n` bytes from the address `a` on. -/
def read (m : Memory) (a n : ℕ) : List UInt8 := (List.range' a n).map m

/-- The bytes from the address `a` on are replaced. -/
def write (m : Memory) (a : ℕ) (bytes : List UInt8) : Memory :=
  fun i => if i < a then m i else (bytes[i - a]?).getD (m i)

@[simp] theorem length_read (m : Memory) (a n : ℕ) : (m.read a n).length = n := by
  rw [read, List.length_map, List.length_range']

theorem read_add (m : Memory) (a n k : ℕ) :
    m.read a (n + k) = m.read a n ++ m.read (a + n) k := by
  rw [read, read, read, ← List.map_append, List.range'_append_1]

theorem write_of_lt {m : Memory} {a i : ℕ} {bytes : List UInt8} (h : i < a) :
    m.write a bytes i = m i := if_pos h

theorem write_of_le {m : Memory} {a i : ℕ} {bytes : List UInt8} (h : a + bytes.length ≤ i) :
    m.write a bytes i = m i := by
  rw [write, if_neg (by omega), List.getElem?_eq_none (by omega), Option.getD_none]

/-- What is read elsewhere does not change. -/
theorem read_write_of_disjoint {m : Memory} {a b n : ℕ} {bytes : List UInt8}
    (h : b + n ≤ a ∨ a + bytes.length ≤ b) : (m.write a bytes).read b n = m.read b n := by
  refine List.map_congr_left fun i hi => ?_
  obtain ⟨hle, hlt⟩ := List.mem_range'_1.mp hi
  rcases h with h | h
  · exact write_of_lt (by omega)
  · exact write_of_le (by omega)

theorem read_congr {m m' : Memory} {a n : ℕ} (h : ∀ i, a ≤ i → i < a + n → m' i = m i) :
    m'.read a n = m.read a n :=
  List.map_congr_left fun i hi => h i (List.mem_range'_1.mp hi).1 (List.mem_range'_1.mp hi).2

theorem eq_of_read_eq {m m' : Memory} {a n i : ℕ} (h : m'.read a n = m.read a n) (hle : a ≤ i)
    (hlt : i < a + n) : m' i = m i :=
  List.map_inj_left.mp h i (List.mem_range'_1.mpr ⟨hle, hlt⟩)

/-- **What is written is read.** -/
theorem read_write (m : Memory) (a : ℕ) (bytes : List UInt8) :
    (m.write a bytes).read a bytes.length = bytes := by
  refine List.ext_getElem (length_read _ _ _) fun i hi hi' => ?_
  have hget : ((m.write a bytes).read a bytes.length)[i] = m.write a bytes (a + i) := by
    simp [read]
  rw [hget, write, if_neg (by omega), Nat.add_sub_cancel_left, List.getElem?_eq_getElem hi',
    Option.getD_some]

/-- The bytes stand at the address. -/
def Holds (m : Memory) (a : ℕ) (bytes : List UInt8) : Prop := m.read a bytes.length = bytes

theorem Holds.self (m : Memory) (a : ℕ) (bytes : List UInt8) : (m.write a bytes).Holds a bytes :=
  read_write m a bytes

/-- **Bytes stay where they are when another place is written.** -/
theorem Holds.write {m : Memory} {a : ℕ} {bytes : List UInt8} (h : m.Holds a bytes) {b : ℕ}
    {bytes' : List UInt8} (hdisjoint : a + bytes.length ≤ b ∨ b + bytes'.length ≤ a) :
    (m.write b bytes').Holds a bytes :=
  (read_write_of_disjoint hdisjoint).trans h

theorem Holds.congr {m m' : Memory} {a : ℕ} {bytes : List UInt8} (h : m.Holds a bytes)
    (heq : ∀ i, a ≤ i → i < a + bytes.length → m' i = m i) : m'.Holds a bytes :=
  (read_congr heq).trans h

theorem holds_append {m : Memory} {a : ℕ} {bytes bytes' : List UInt8} :
    m.Holds a (bytes ++ bytes') ↔ m.Holds a bytes ∧ m.Holds (a + bytes.length) bytes' := by
  rw [Holds, Holds, Holds, List.length_append, read_add]
  constructor
  · intro h
    exact List.append_inj h (length_read _ _ _)
  · rintro ⟨h, h'⟩
    rw [h, h']

theorem Holds.nil (m : Memory) (a : ℕ) : m.Holds a [] := rfl

/-! ### Numbers -/

/-- The `width` low bytes of a number, the lowest first. -/
def le : ℕ → ℕ → List UInt8
  | 0, _ => []
  | width + 1, v => UInt8.ofNat v :: le width (v / 256)

/-- The number of bytes. -/
def ofLe : List UInt8 → ℕ
  | [] => 0
  | b :: bytes => b.toNat + 256 * ofLe bytes

@[simp] theorem length_le (width v : ℕ) : (le width v).length = width := by
  induction width generalizing v with
  | zero => rfl
  | succ width ih => rw [le, List.length_cons, ih]

theorem ofLe_le {width v : ℕ} (h : v < 256 ^ width) : ofLe (le width v) = v := by
  induction width generalizing v with
  | zero =>
    rw [Nat.pow_zero] at h
    rw [le, ofLe]
    omega
  | succ width ih =>
    have hdiv : v / 256 < 256 ^ width := by
      rw [Nat.div_lt_iff_lt_mul (by decide), ← Nat.pow_succ]
      exact h
    rw [le, ofLe, ih hdiv, UInt8.toNat_ofNat']
    exact Nat.mod_add_div v 256

theorem ofLe_lt (bytes : List UInt8) : ofLe bytes < 256 ^ bytes.length := by
  induction bytes with
  | nil => exact Nat.one_pos
  | cons b bytes ih =>
    have hb : b.toNat < 256 := b.toNat_lt
    rw [ofLe, List.length_cons, Nat.pow_succ]
    omega

/-- Bytes are known by their number. -/
theorem ofLe_inj {bytes bytes' : List UInt8} (hlen : bytes.length = bytes'.length)
    (h : ofLe bytes = ofLe bytes') : bytes = bytes' := by
  induction bytes generalizing bytes' with
  | nil => exact (List.length_eq_zero_iff.mp hlen.symm).symm
  | cons b bytes ih =>
    obtain ⟨b', bytes', rfl⟩ :=
      List.exists_cons_of_length_pos (by rw [← hlen]; exact Nat.succ_pos _)
    have hb : b.toNat < 256 := b.toNat_lt
    have hb' : b'.toNat < 256 := b'.toNat_lt
    rw [ofLe, ofLe] at h
    rw [UInt8.toNat_inj.mp (show b.toNat = b'.toNat by omega),
      ih (Nat.succ.inj hlen) (by omega)]

/-- The bytes of numbers of the same width. -/
def units (width : ℕ) (vs : List ℕ) : List UInt8 := vs.flatMap (le width)

/-- `n` numbers of the same width. -/
def ofUnits (width : ℕ) : ℕ → List UInt8 → List ℕ
  | 0, _ => []
  | n + 1, bytes => ofLe (bytes.take width) :: ofUnits width n (bytes.drop width)

theorem units_append (width : ℕ) (vs vs' : List ℕ) :
    units width (vs ++ vs') = units width vs ++ units width vs' := List.flatMap_append

@[simp] theorem length_units (width : ℕ) (vs : List ℕ) :
    (units width vs).length = width * vs.length := by
  induction vs with
  | nil => rfl
  | cons v vs ih =>
    rw [units, List.flatMap_cons, List.length_append, length_le, List.length_cons, Nat.mul_succ,
      Nat.add_comm]
    exact congrArg (· + width) ih

/-- **Arrays are read back.** -/
theorem ofUnits_units {width : ℕ} {vs : List ℕ} (h : ∀ v ∈ vs, v < 256 ^ width) :
    ofUnits width vs.length (units width vs) = vs := by
  induction vs with
  | nil => rfl
  | cons v vs ih =>
    have htake : (units width (v :: vs)).take width = le width v := List.take_left' (length_le _ _)
    have hdrop : (units width (v :: vs)).drop width = units width vs :=
      List.drop_left' (length_le _ _)
    rw [List.length_cons, ofUnits, htake, hdrop, ofLe_le (h v List.mem_cons_self),
      ih fun v' hv' => h v' (List.mem_cons_of_mem v hv')]

end Memory
