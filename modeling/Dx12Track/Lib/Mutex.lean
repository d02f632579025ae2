import Mathlib.Logic.Function.Basic

/-!
# A mutex and its critical sections

A mutex is free, or some thread has it.  It does its work if the thread that has
it is the one in a critical section, and there is no other.

* `Mutex.Held` — the mutex is held by the thread that is in a critical section.
* `Held.unique`, `Held.none_inside` — mutual exclusion.
* `Held.keep`, `Held.acquire`, `Held.release` — a thread stays, enters, leaves.
-/

namespace Mutex

variable {T : Type*}

/-- `lock` names the thread that is inside a critical section. -/
def Held (lock : Option T) (inside : T → Prop) : Prop := ∀ t, lock = some t ↔ inside t

variable {lock : Option T} {inside inside' : T → Prop}

theorem Held.unique (h : Held lock inside) {t t' : T} (ht : inside t) (ht' : inside t') :
    t = t' := by
  have hlock := (h t).mpr ht
  rw [(h t').mpr ht'] at hlock
  exact (Option.some.inj hlock).symm

theorem Held.none_inside (h : Held none inside) (t : T) : ¬inside t := by
  intro ht
  have hlock := (h t).mpr ht
  cases hlock

/-- No thread enters or leaves. -/
theorem Held.keep (h : Held lock inside) (hsame : ∀ t, inside' t ↔ inside t) :
    Held lock inside' := fun t => (h t).trans (hsame t).symm

/-- A thread enters; the mutex was free. -/
theorem Held.acquire (h : Held none inside) {t : T} (ht : inside' t)
    (hothers : ∀ t', t' ≠ t → (inside' t' ↔ inside t')) : Held (some t) inside' := by
  intro t'
  constructor
  · intro heq
    cases heq
    exact ht
  · intro ht'
    by_contra hne
    have hne' : t' ≠ t := fun heq => hne (congrArg some heq.symm)
    exact h.none_inside t' ((hothers t' hne').mp ht')

/-- The thread that has it leaves. -/
theorem Held.release {t : T} (h : Held (some t) inside) (ht : ¬inside' t)
    (hothers : ∀ t', t' ≠ t → (inside' t' ↔ inside t')) : Held none inside' := by
  intro t'
  constructor
  · intro heq
    cases heq
  · intro ht'
    have hne : t' ≠ t := by
      rintro rfl
      exact ht ht'
    have hlock := (h t').mpr ((hothers t' hne).mp ht')
    exact absurd (Option.some.inj hlock).symm hne

end Mutex
