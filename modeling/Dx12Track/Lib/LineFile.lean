import Mathlib.Data.List.Basic

/-!
# Files of lines

A writer appends whole lines to a file.  A file that is cut off anywhere still has the
lines before the cut, and a reader finds them without knowing where the cut is.

* `IsLine` — a line: its end stands at the end of it, and nowhere else.
* `lines` — the complete lines of a text.
* `lines_flatten` — **lines that were written are found again**.
* `lines_take` — **of a text that was cut off, the lines before the cut**.
-/

namespace LineFile

variable {α : Type*} [DecidableEq α] (nl : α)

/-- The complete lines, each with its end.  What stands behind the last end is left out. -/
def lines : List α → List (List α)
  | [] => []
  | c :: t =>
    if c = nl then [nl] :: lines t
    else
      match lines t with
      | [] => []
      | l :: ls => (c :: l) :: ls

def IsLine (l : List α) : Prop := ∃ t, nl ∉ t ∧ l = t ++ [nl]

variable {nl}

theorem lines_append {l : List α} (h : IsLine nl l) (t : List α) :
    lines nl (l ++ t) = l :: lines nl t := by
  obtain ⟨u, hu, rfl⟩ := h
  induction u with
  | nil => simp [lines]
  | cons c u ih =>
    rw [List.mem_cons, not_or] at hu
    rw [List.cons_append, List.cons_append, lines, if_neg (Ne.symm hu.1), ih hu.2]

/-- **Lines that were written are found again.** -/
theorem lines_flatten {ls : List (List α)} (h : ∀ l ∈ ls, IsLine nl l) :
    lines nl ls.flatten = ls := by
  induction ls with
  | nil => rfl
  | cons l ls ih =>
    rw [List.flatten_cons, lines_append (h l List.mem_cons_self),
      ih fun l' hl' => h l' (List.mem_cons_of_mem l hl')]

theorem length_lines (t : List α) : (lines nl t).length = t.count nl := by
  induction t with
  | nil => rfl
  | cons c t ih =>
    rw [lines]
    split
    · next hc => rw [List.length_cons, ih, hc, List.count_cons_self]
    · next hc =>
      rw [List.count_cons_of_ne hc, ← ih]
      cases lines nl t <;> rfl

/-- A longer text has the same lines first. -/
theorem lines_prefix {t u : List α} (h : t <+: u) : lines nl t <+: lines nl u := by
  induction t generalizing u with
  | nil => exact List.nil_prefix
  | cons c t ih =>
    obtain ⟨v, rfl⟩ := h
    have hrest : lines nl t <+: lines nl (t ++ v) := ih (List.prefix_append t v)
    rw [List.cons_append, lines, lines]
    split
    · exact List.cons_prefix_cons.mpr ⟨rfl, hrest⟩
    · cases ht : lines nl t with
      | nil => exact List.nil_prefix
      | cons l ls =>
        obtain ⟨ms, hms⟩ := hrest
        rw [ht, List.cons_append] at hms
        rw [← hms]
        exact List.cons_prefix_cons.mpr ⟨rfl, List.prefix_append ls ms⟩

/-- **Of a text that was cut off, the lines before the cut.** -/
theorem lines_take {ls : List (List α)} (h : ∀ l ∈ ls, IsLine nl l) (n : ℕ) :
    lines nl (ls.flatten.take n) = ls.take ((ls.flatten.take n).count nl) := by
  have hprefix : lines nl (ls.flatten.take n) <+: lines nl ls.flatten :=
    lines_prefix (List.take_prefix _ _)
  rw [lines_flatten h] at hprefix
  rw [List.prefix_iff_eq_take.mp hprefix, length_lines]

end LineFile
