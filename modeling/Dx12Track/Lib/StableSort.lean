import Mathlib.Data.List.Basic

/-!
# Stable sorting by a key

A list is sorted by a key under a comparison that need not tell different keys apart:
what it takes for equal stays in its order.

* `StableSort.sort` — the sort.
* `StableSort.sort_perm`, `pairwise_sort` — a sorted permutation.
* `filter_sort` — **the elements of one class of keys keep their order**.
-/

namespace StableSort

variable {α κ : Type} (cmp : κ → κ → Ordering) (key : α → κ)

/-- `l` sorted, where `a` comes before `b` if `cmp` says that its key is less. -/
def sort (l : List α) : List α := l.mergeSort fun a b => cmp (key b) (key a) != .lt

theorem sort_perm (l : List α) : (sort cmp key l).Perm l := List.mergeSort_perm l _

section Laws

variable [Std.TransCmp cmp]

theorem bne_lt_iff (x y : κ) : (cmp y x != .lt) = true ↔ (cmp x y).isLE = true := by
  rw [@Std.OrientedCmp.eq_swap κ cmp _ y x]
  cases cmp x y <;> decide

theorem bne_lt_trans (a b c : α) (hab : (cmp (key b) (key a) != .lt) = true)
    (hbc : (cmp (key c) (key b) != .lt) = true) : (cmp (key c) (key a) != .lt) = true := by
  rw [bne_lt_iff] at hab hbc ⊢
  exact Std.TransCmp.isLE_trans hab hbc

theorem bne_lt_total (a b : α) :
    ((cmp (key b) (key a) != .lt) || (cmp (key a) (key b) != .lt)) = true := by
  rw [@Std.OrientedCmp.eq_swap κ cmp _ (key b) (key a)]
  cases cmp (key a) (key b) <;> decide

/-- The result is sorted. -/
theorem pairwise_sort (l : List α) :
    (sort cmp key l).Pairwise fun a b => (cmp (key a) (key b)).isLE = true := by
  have hsorted := List.pairwise_mergeSort (bne_lt_trans cmp key) (bne_lt_total cmp key) l
  exact hsorted.imp fun {a b} h => (bne_lt_iff cmp (key a) (key b)).mp h

/-- **Elements with equal keys keep their order.** -/
theorem filter_sort (l : List α) (k : κ) :
    (sort cmp key l).filter (fun a => cmp (key a) k == .eq)
      = l.filter fun a => cmp (key a) k == .eq := by
  have hclass : (l.filter fun a => cmp (key a) k == .eq).Pairwise
      fun a b => (cmp (key b) (key a) != .lt) = true := by
    refine List.pairwise_of_forall_mem_list fun a ha b hb => ?_
    have hak : cmp (key a) k = .eq := by simpa using (List.mem_filter.mp ha).2
    have hbk : cmp (key b) k = .eq := by simpa using (List.mem_filter.mp hb).2
    rw [Std.TransCmp.congr_left hbk, @Std.OrientedCmp.eq_swap κ cmp _ k, hak]
    decide
  -- the class is a sorted part of the list, so it is a part of the result, and all of its class
  have hsub : (l.filter fun a => cmp (key a) k == .eq).Sublist (sort cmp key l) :=
    List.sublist_mergeSort (bne_lt_trans cmp key) (bne_lt_total cmp key) hclass
      (List.filter_sublist)
  have hpart := hsub.filter fun a => cmp (key a) k == .eq
  rw [List.filter_filter] at hpart
  simp only [Bool.and_self] at hpart
  refine (hpart.eq_of_length ?_).symm
  exact ((sort_perm cmp key l).filter _).length_eq.symm

end Laws

end StableSort
