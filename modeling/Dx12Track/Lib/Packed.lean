import Dx12Track.Lib.Framing

/-!
# Packed structures

A packed structure is its members one behind the other, each little-endian in its own
width.  A member is read back at its offset, which is the size of those before it.

* `Packed` — the widths and values of the members.
* `bytes`, `size`, `read` — the memory of a structure, its size, and one member.
* `read_cell` — a member by its index.
* `read_array` — an element of an array member.
-/

/-- The members of a packed structure, with the width and the value of each. -/
abbrev Packed := List (ℕ × ℕ)

namespace Packed

/-- The memory of a structure. -/
def bytes (ms : Packed) : List UInt8 := ms.flatMap fun m => Bytes.le m.1 m.2

/-- `sizeof`. -/
def size : Packed → ℕ
  | [] => 0
  | m :: ms => m.1 + size ms

/-- An array of numbers of `width` bytes. -/
def array (width : ℕ) (vs : List ℕ) : Packed := vs.map fun v => (width, v)

/-- The number of `width` bytes at `off`. -/
def read (bs : List UInt8) (off width : ℕ) : ℕ := Bytes.ofLE ((bs.drop off).take width)

/-- Every value fits its member. -/
def Fits (ms : Packed) : Prop := ∀ m ∈ ms, m.2 < 256 ^ m.1

instance (ms : Packed) : Decidable ms.Fits :=
  inferInstanceAs (Decidable (∀ m ∈ ms, m.2 < 256 ^ m.1))

theorem fits_append {ms ns : Packed} : Fits (ms ++ ns) ↔ Fits ms ∧ Fits ns := List.forall_mem_append

theorem fits_array {width : ℕ} {vs : List ℕ} :
    Fits (array width vs) ↔ ∀ v ∈ vs, v < 256 ^ width := by
  simp [Fits, array]

theorem bytes_append (ms ns : Packed) : bytes (ms ++ ns) = bytes ms ++ bytes ns :=
  List.flatMap_append

theorem size_append (ms ns : Packed) : size (ms ++ ns) = size ms + size ns := by
  induction ms with
  | nil => exact (Nat.zero_add _).symm
  | cons m ms ih => rw [List.cons_append, size, size, ih, Nat.add_assoc]

theorem size_array (width : ℕ) (vs : List ℕ) : size (array width vs) = width * vs.length := by
  induction vs with
  | nil => rfl
  | cons v vs ih =>
    show width + size (array width vs) = _
    rw [ih, List.length_cons, Nat.mul_succ, Nat.add_comm]

@[simp] theorem length_bytes (ms : Packed) : (bytes ms).length = size ms := by
  induction ms with
  | nil => rfl
  | cons m ms ih =>
    show (Bytes.le m.1 m.2 ++ bytes ms).length = _
    rw [List.length_append, Bytes.length_le, ih, size]

/-- The bytes at the end of `ms` are those of what follows. -/
theorem read_append (ms : Packed) (bs : List UInt8) (off width : ℕ) :
    read (bytes ms ++ bs) (size ms + off) width = read bs off width := by
  unfold read
  rw [← length_bytes ms, List.drop_append, List.drop_eq_nil_of_le (Nat.le_add_right _ _),
    List.nil_append, Nat.add_sub_cancel_left]

/-- The first member. -/
theorem read_zero {width v : ℕ} (hv : v < 256 ^ width) (bs : List UInt8) :
    read (Bytes.le width v ++ bs) 0 width = v := by
  have htake : (Bytes.le width v ++ bs).take width = Bytes.le width v := by
    rw [List.take_append_of_le_length (Nat.le_of_eq (Bytes.length_le _ _).symm),
      List.take_of_length_le (Nat.le_of_eq (Bytes.length_le _ _))]
  rw [read, List.drop_zero, htake, Bytes.ofLE_le hv]

/-- **A member is read back** at its offset. -/
theorem read_cell {ms : Packed} (h : Fits ms) {i width v : ℕ} (hi : ms[i]? = some (width, v)) :
    read (bytes ms) (size (ms.take i)) width = v := by
  obtain ⟨hlt, hget⟩ := List.getElem?_eq_some_iff.mp hi
  have hsplit : ms = ms.take i ++ (width, v) :: ms.drop (i + 1) := by
    rw [← hget, ← List.drop_eq_getElem_cons hlt, List.take_append_drop]
  have hv : v < 256 ^ width := h (width, v) (List.mem_of_getElem? hi)
  have hbytes : bytes ms = bytes (ms.take i) ++ (Bytes.le width v ++ bytes (ms.drop (i + 1))) := by
    conv_lhs => rw [hsplit]
    rw [bytes_append]
    rfl
  rw [hbytes]
  exact (read_append (ms.take i) _ 0 width).trans (read_zero hv _)

/-- **An array is read back**, behind the members `ms` and whatever follows it. -/
theorem read_array {width : ℕ} {vs : List ℕ} (hvs : ∀ v ∈ vs, v < 256 ^ width) (ms : Packed)
    (bs : List UInt8) {off : ℕ} (hoff : off = size ms) :
    ((List.range vs.length).map fun j =>
      read (bytes ms ++ (bytes (array width vs) ++ bs)) (off + width * j) width) = vs := by
  subst hoff
  refine List.ext_getElem (by simp) fun j hj hj' => ?_
  have hfits : Fits (array width vs) := fits_array.mpr hvs
  have hcell : (array width vs)[j]? = some (width, vs[j]) := by
    simp [array, List.getElem?_eq_getElem hj']
  have hsize : size ((array width vs).take j) = width * j := by
    rw [array, ← List.map_take]
    show size (array width (vs.take j)) = _
    rw [size_array, List.length_take, Nat.min_eq_left (Nat.le_of_lt hj')]
  have hread := read_cell hfits hcell
  rw [hsize] at hread
  rw [List.getElem_map, List.getElem_range, read_append]
  have hle : width * j + width ≤ size (array width vs) := by
    rw [size_array, ← Nat.mul_succ]
    exact Nat.mul_le_mul_left _ hj'
  -- the element lies within the array
  have hin : read (bytes (array width vs) ++ bs) (width * j) width =
      read (bytes (array width vs)) (width * j) width := by
    unfold read
    rw [List.drop_append_of_le_length (by rw [length_bytes]; omega),
      List.take_append_of_le_length (by rw [List.length_drop, length_bytes]; omega)]
  exact hin.trans hread

end Packed
