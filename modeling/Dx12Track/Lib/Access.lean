import Dx12Track.Lib.Memory

/-!
# Memory accesses

A computation over memory that records every byte it reads or writes, together with
the pointer it reached the byte by.  What may be touched is a predicate of both, and
is shown for a computation step by step: a read and a write touch what they span,
and a sequence touches what its parts do.

* `Access` — the computations; `Access.read`, `Access.write`.
* `Access.Only` — everything touched satisfies a predicate.
* `Access.only_bind` — **a sequence touches what its parts touch**.
* `Access.Span` — the bytes from an address on, which a read or a write touches.
* `Access.ReadsOnly` — the memory is left as it is.
-/

/-- What a computation gives: a value, the memory, and what it touched, in order. -/
structure Access.Outcome (κ α : Type) where
  value : α
  mem : Memory
  touched : List (κ × ℕ)

/-- A computation over memory; `κ` says by which pointer a byte is reached. -/
def Access (κ α : Type) : Type := Memory → Access.Outcome κ α

namespace Access

open Memory

variable {κ α β : Type}

instance : Monad (Access κ) where
  pure a m := ⟨a, m, []⟩
  bind r f m :=
    let o := r m
    let o' := f o.value o.mem
    ⟨o'.value, o'.mem, o.touched ++ o'.touched⟩

/-- `n` bytes from `a` on. -/
def read (via : κ) (a n : ℕ) : Access κ (List UInt8) :=
  fun m => ⟨m.read a n, m, (List.range' a n).map (via, ·)⟩

/-- The bytes from `a` on are replaced. -/
def write (via : κ) (a : ℕ) (bytes : List UInt8) : Access κ Unit :=
  fun m => ⟨(), m.write a bytes, (List.range' a bytes.length).map (via, ·)⟩

/-- A number of `width` bytes. -/
def readLe (via : κ) (a width : ℕ) : Access κ ℕ := do
  let bytes ← read via a width
  return ofLe bytes

/-! ### Values and memory -/

@[simp] theorem pure_apply (a : α) (m : Memory) : (pure a : Access κ α) m = ⟨a, m, []⟩ := rfl

@[simp] theorem value_bind (r : Access κ α) (f : α → Access κ β) (m : Memory) :
    ((r >>= f) m).value = (f (r m).value (r m).mem).value := rfl

@[simp] theorem mem_bind (r : Access κ α) (f : α → Access κ β) (m : Memory) :
    ((r >>= f) m).mem = (f (r m).value (r m).mem).mem := rfl

@[simp] theorem ite_run (p : Prop) [Decidable p] (r s : Access κ α) (m : Memory) :
    (if p then r else s) m = if p then r m else s m := by
  split <;> rfl

theorem touched_bind (r : Access κ α) (f : α → Access κ β) (m : Memory) :
    ((r >>= f) m).touched = (r m).touched ++ (f (r m).value (r m).mem).touched := rfl

@[simp] theorem value_read (via : κ) (a n : ℕ) (m : Memory) :
    (read via a n m).value = m.read a n := rfl

@[simp] theorem mem_read (via : κ) (a n : ℕ) (m : Memory) : (read via a n m).mem = m := rfl

@[simp] theorem mem_write (via : κ) (a : ℕ) (bytes : List UInt8) (m : Memory) :
    (write via a bytes m).mem = m.write a bytes := rfl

@[simp] theorem value_readLe (via : κ) (a width : ℕ) (m : Memory) :
    (readLe via a width m).value = ofLe (m.read a width) := rfl

@[simp] theorem mem_readLe (via : κ) (a width : ℕ) (m : Memory) :
    (readLe via a width m).mem = m := rfl

/-! ### What is touched -/

/-- Every byte that `r` touches, when it runs on `m`, satisfies `P`. -/
def Only (P : κ → ℕ → Prop) (r : Access κ α) (m : Memory) : Prop :=
  ∀ t ∈ (r m).touched, P t.1 t.2

variable {P : κ → ℕ → Prop}

@[simp] theorem only_pure (a : α) (m : Memory) : Only P (pure a) m := by
  intro t ht
  cases ht

/-- **A sequence touches what its parts touch.** -/
@[simp] theorem only_bind (r : Access κ α) (f : α → Access κ β) (m : Memory) :
    Only P (r >>= f) m ↔ Only P r m ∧ Only P (f (r m).value) (r m).mem := by
  unfold Only
  rw [touched_bind]
  exact List.forall_mem_append

/-- The bytes from `a` on, `n` of them, satisfy `P`. -/
def Span (P : κ → ℕ → Prop) (via : κ) (a n : ℕ) : Prop := ∀ i, a ≤ i → i < a + n → P via i

/-- A branch touches what the computation that is taken touches. -/
theorem only_ite (p : Prop) [Decidable p] (r s : Access κ α) (m : Memory) :
    Only P (if p then r else s) m ↔ (p → Only P r m) ∧ (¬p → Only P s m) := by
  by_cases h : p
  · simp [h]
  · simp [h]

theorem forall_mem_span {via : κ} {a n : ℕ} :
    (∀ t ∈ (List.range' a n).map (via, ·), P t.1 t.2) ↔ Span P via a n := by
  rw [List.forall_mem_map]
  refine forall_congr' fun i => ?_
  rw [List.mem_range'_1, and_imp]

/-- A read touches the bytes it gives. -/
@[simp] theorem only_read (via : κ) (a n : ℕ) (m : Memory) :
    Only P (read via a n) m ↔ Span P via a n := forall_mem_span

/-- A write touches the bytes it replaces. -/
@[simp] theorem only_write (via : κ) (a : ℕ) (bytes : List UInt8) (m : Memory) :
    Only P (write via a bytes) m ↔ Span P via a bytes.length := forall_mem_span

@[simp] theorem only_readLe (via : κ) (a width : ℕ) (m : Memory) :
    Only P (readLe via a width) m ↔ Span P via a width := by
  unfold readLe
  rw [only_bind, only_read, and_iff_left (only_pure _ _)]

/-- A span lies below a bound. -/
theorem span_lt {via : κ} {a n k : ℕ} (hn : 0 < n) :
    Span (fun _ i => i < k) via a n ↔ a + n ≤ k := by
  constructor
  · intro h
    have hlast := h (a + n - 1) (by omega) (by omega)
    omega
  · intro h i _ hi
    omega

/-- A span that may be empty. -/
theorem span_of_le {via : κ} {a n k : ℕ} (h : a + n ≤ k) : Span (fun _ i => i < k) via a n := by
  intro i _ hi
  omega

/-! ### Computations that only read -/

/-- The memory is left as it is. -/
def ReadsOnly (r : Access κ α) : Prop := ∀ m, (r m).mem = m

theorem readsOnly_pure (a : α) : ReadsOnly (pure a : Access κ α) := fun _ => rfl

theorem readsOnly_read (via : κ) (a n : ℕ) : ReadsOnly (read via a n) := fun _ => rfl

theorem readsOnly_readLe (via : κ) (a width : ℕ) : ReadsOnly (readLe via a width) := fun _ => rfl

theorem ReadsOnly.bind {r : Access κ α} {f : α → Access κ β} (hr : ReadsOnly r)
    (hf : ∀ a, ReadsOnly (f a)) : ReadsOnly (r >>= f) := by
  intro m
  rw [mem_bind, hf, hr]

theorem ReadsOnly.ite {p : Prop} [Decidable p] {r s : Access κ α} (hr : ReadsOnly r)
    (hs : ReadsOnly s) : ReadsOnly (if p then r else s) := by
  split
  · exact hr
  · exact hs

end Access
