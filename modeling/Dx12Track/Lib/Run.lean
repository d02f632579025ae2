import Mathlib.Data.List.Induction

/-!
# Runs of a deterministic machine

A machine is a step function `σ → α → σ`; a run feeds it a list of inputs.  An
invariant of a run may speak about the inputs seen so far, and the inputs may be
restricted by a condition that every prefix of a legal run meets as well: both
are what `run_induction` asks for.

* `run` — the state after a list of inputs.
* `run_append`, `run_concat` — runs compose.
* `run_induction` — the induction rule for invariants with history.
-/

namespace Machine

variable {σ α : Type*}

/-- The state a machine reaches from `s` on the inputs `xs`. -/
def run (step : σ → α → σ) (s : σ) (xs : List α) : σ := xs.foldl step s

@[simp] theorem run_nil (step : σ → α → σ) (s : σ) : run step s [] = s := rfl

@[simp] theorem run_cons (step : σ → α → σ) (s : σ) (x : α) (xs : List α) :
    run step s (x :: xs) = run step (step s x) xs := rfl

theorem run_append (step : σ → α → σ) (s : σ) (xs ys : List α) :
    run step s (xs ++ ys) = run step (run step s xs) ys := List.foldl_append

theorem run_concat (step : σ → α → σ) (s : σ) (xs : List α) (x : α) :
    run step s (xs ++ [x]) = step (run step s xs) x := by
  rw [run_append]; rfl

/-- **Invariants with history.**  `Inv xs s` relates the inputs seen so far to the
state; it holds after every legal run if it holds initially and every legal
further input of a run preserves it. -/
theorem run_induction (step : σ → α → σ) (s₀ : σ) (Legal : List α → Prop)
    (Inv : List α → σ → Prop) (hlegal : ∀ xs x, Legal (xs ++ [x]) → Legal xs)
    (hinit : Inv [] s₀)
    (hstep : ∀ xs x, Legal (xs ++ [x]) → Inv xs (run step s₀ xs) →
      Inv (xs ++ [x]) (step (run step s₀ xs) x)) :
    ∀ xs, Legal xs → Inv xs (run step s₀ xs) := by
  intro xs
  induction xs using List.reverseRecOn with
  | nil => intro _; exact hinit
  | append_singleton xs x ih =>
    intro hl
    rw [run_concat]
    exact hstep xs x hl (ih (hlegal xs x hl))

/-! ### Single steps of a run -/

/-- A condition on a step and the steps before it, checked at every position. -/
theorem exists_split_iff (P : List α → α → Prop) (xs : List α) :
    (∃ us x vs, xs = us ++ x :: vs ∧ P us x) ↔
      ∃ n ∈ List.range xs.length, ∃ x ∈ xs[n]?, P (xs.take n) x := by
  constructor
  · rintro ⟨us, x, vs, rfl, hx⟩
    refine ⟨us.length, by simp, x, by simp, ?_⟩
    rwa [List.take_left]
  · rintro ⟨n, -, x, hn, hx⟩
    obtain ⟨hlt, hget⟩ := List.getElem?_eq_some_iff.mp hn
    refine ⟨xs.take n, x, xs.drop (n + 1), ?_, hx⟩
    rw [← hget, ← List.drop_eq_getElem_cons hlt, List.take_append_drop]

end Machine
