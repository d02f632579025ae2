import Dx12Track.Lib.Memory
import Mathlib.Algebra.Ring.Int.Defs
import Mathlib.Logic.Relation

/-!
# Jumps in x64 code

The three jumps that code is patched with: by 32 or 8 bits from where it stands, and
through an address that stands behind it.

* `jmpRel`, `jmpShort`, `jmpAbs` — the bytes.
* `jump` — where the processor goes from a jump.
* `jump_jmpRel`, `jump_jmpShort`, `jump_jmpAbs` — **it goes where the bytes were made for**, if that
  is not too far.
* `Memory.Jumps` — where a run of jumps leads.
-/

namespace Jumps

/-- A displacement of `n` bytes. -/
def displacement (m : Memory) (a n : ℕ) : ℤ :=
  (BitVec.ofNat (8 * n) (Memory.ofLe (m.read a n))).toInt

/-- The address `d` bytes from `a`. -/
def offset (a : ℕ) (d : ℤ) : ℕ := (BitVec.ofInt 64 (a + d)).toNat

/-- `JMP` with 32 bits, at `a`. -/
def jmpRel (a dest : ℕ) : List UInt8 :=
  0xE9 :: Memory.le 4 (BitVec.ofInt 32 (dest - (a + 5 : ℕ))).toNat

/-- `JMP` with 8 bits. -/
def jmpShort (d : ℤ) : List UInt8 := 0xEB :: Memory.le 1 (BitVec.ofInt 8 d).toNat

/-- `JMP` through the address behind it. -/
def jmpAbs (dest : ℕ) : List UInt8 := [0xFF, 0x25] ++ Memory.le 4 0 ++ Memory.le 8 dest

@[simp] theorem length_jmpRel (a dest : ℕ) : (jmpRel a dest).length = 5 := by
  rw [jmpRel, List.length_cons, Memory.length_le]

@[simp] theorem length_jmpShort (d : ℤ) : (jmpShort d).length = 2 := by
  rw [jmpShort, List.length_cons, Memory.length_le]

@[simp] theorem length_jmpAbs (dest : ℕ) : (jmpAbs dest).length = 14 := by
  rw [jmpAbs, List.length_append, List.length_append, Memory.length_le, Memory.length_le]
  rfl

/-- Where the processor goes from a jump at `ip`. -/
def jump (m : Memory) (ip : ℕ) : Option ℕ :=
  if m ip = 0xE9 then some (offset (ip + 5) (displacement m (ip + 1) 4))
  else if m ip = 0xEB then some (offset (ip + 2) (displacement m (ip + 1) 1))
  else if m ip = 0xFF ∧ m (ip + 1) = 0x25 then
    some (Memory.ofLe (m.read (offset (ip + 6) (displacement m (ip + 2) 4)) 8))
  else none

/-! ### Displacements -/

theorem offset_eq {a dest : ℕ} {d : ℤ} (h : (a : ℤ) + d = dest) (hdest : dest < 2 ^ 64) :
    offset a d = dest := by
  rw [offset, h, BitVec.ofInt_natCast, BitVec.toNat_ofNat, Nat.mod_eq_of_lt hdest]

/-- A displacement is read as it was written. -/
theorem displacement_of_holds {m : Memory} {a n : ℕ} (hn : 0 < n) {d : ℤ}
    (h : m.Holds a (Memory.le n (BitVec.ofInt (8 * n) d).toNat)) (hle : -2 ^ (8 * n - 1) ≤ d)
    (hlt : d < 2 ^ (8 * n - 1)) : displacement m a n = d := by
  have hbytes : m.read a n = Memory.le n (BitVec.ofInt (8 * n) d).toNat := by
    have hread := h
    rw [Memory.Holds, Memory.length_le] at hread
    exact hread
  have hsize : (BitVec.ofInt (8 * n) d).toNat < 256 ^ n := by
    rw [show 256 = 2 ^ 8 from rfl, ← Nat.pow_mul]
    exact (BitVec.ofInt (8 * n) d).isLt
  rw [displacement, hbytes, Memory.ofLe_le hsize, BitVec.ofNat_toNat, BitVec.setWidth_eq]
  exact BitVec.toInt_ofInt_eq_self (by omega) hle hlt

/-! ### The jumps -/

/-- The bytes that stand behind the first one. -/
theorem holds_cons {m : Memory} {a : ℕ} {b : UInt8} {bytes : List UInt8}
    (h : m.Holds a (b :: bytes)) : m a = b ∧ m.Holds (a + 1) bytes := by
  obtain ⟨hhead, htail⟩ := Memory.holds_append.mp (show m.Holds a ([b] ++ bytes) from h)
  exact ⟨List.head_eq_of_cons_eq hhead, htail⟩

/-- **A jump with 32 bits.** -/
theorem jump_jmpRel {m : Memory} {a dest : ℕ} (h : m.Holds a (jmpRel a dest))
    (hle : (a : ℤ) + 5 ≤ dest + 2 ^ 31) (hlt : (dest : ℤ) < a + 5 + 2 ^ 31)
    (hdest : dest < 2 ^ 64) : jump m a = some dest := by
  obtain ⟨hop, hrel⟩ := holds_cons h
  have hd : displacement m (a + 1) 4 = dest - (a + 5 : ℕ) :=
    displacement_of_holds (by decide) hrel (by omega) (by omega)
  rw [jump, if_pos hop, hd]
  exact congrArg some (offset_eq (by omega) hdest)

/-- **A jump with 8 bits.** -/
theorem jump_jmpShort {m : Memory} {a dest : ℕ} {d : ℤ} (h : m.Holds a (jmpShort d))
    (hle : -128 ≤ d) (hlt : d < 128) (heq : (a : ℤ) + 2 + d = dest) (hdest : dest < 2 ^ 64) :
    jump m a = some dest := by
  obtain ⟨hop, hrel⟩ := holds_cons h
  have hd : displacement m (a + 1) 1 = d :=
    displacement_of_holds (by decide) hrel (by omega) (by omega)
  have hne : m a ≠ 0xE9 := by
    rw [hop]
    decide
  rw [jump, if_neg hne, if_pos hop, hd]
  exact congrArg some (offset_eq (by omega) hdest)

/-- **A jump through an address.** -/
theorem jump_jmpAbs {m : Memory} {a dest : ℕ} (h : m.Holds a (jmpAbs dest)) (ha : a + 6 < 2 ^ 64)
    (hdest : dest < 2 ^ 64) : jump m a = some dest := by
  rw [jmpAbs, List.append_assoc] at h
  obtain ⟨hop, hrest⟩ := holds_cons h
  obtain ⟨hop', hrest⟩ := holds_cons hrest
  have hboth : m.Holds (a + 2) (Memory.le 4 0 ++ Memory.le 8 dest) := hrest
  obtain ⟨hrel, haddr⟩ := Memory.holds_append.mp hboth
  rw [Memory.length_le] at haddr
  have hd : displacement m (a + 2) 4 = 0 :=
    displacement_of_holds (d := 0) (by decide) hrel (by decide) (by decide)
  have hplace : offset (a + 6) 0 = a + 6 := offset_eq (by omega) ha
  have hbytes : m.read (a + 6) 8 = Memory.le 8 dest := by
    have hread := haddr
    rw [Memory.Holds, Memory.length_le] at hread
    exact hread
  have hne : m a ≠ 0xE9 := by
    rw [hop]
    decide
  have hne' : m a ≠ 0xEB := by
    rw [hop]
    decide
  rw [jump, if_neg hne, if_neg hne', if_pos ⟨hop, hop'⟩, hd, hplace, hbytes]
  exact congrArg some (Memory.ofLe_le (Nat.lt_of_lt_of_le hdest (by decide)))

end Jumps

/-- Jumps lead from `a` to `b`. -/
def Memory.Jumps (m : Memory) : ℕ → ℕ → Prop :=
  Relation.ReflTransGen fun a b => Jumps.jump m a = some b
