import Mathlib.Data.Finmap
import Mathlib.Algebra.BigOperators.Group.Finset.Basic
import Mathlib.Algebra.Order.BigOperators.Group.Finset

/-!
# Finite tables

A `Table κ α` is a finite map with keys in `κ` and values in `α`: Mathlib's
`Finmap` at a constant family.  What is added here is what a program that keeps
hash tables needs on top of lookup, insert and erase: changing the value under a
key in place, and totals over all values.

## Main definitions

* `Finmap.modify` — apply a function to the value under a key, if there is one.
* `Finmap.mapVal`, `Finmap.restrict` — change every value; keep some of the keys.
* `Finmap.sum` — the sum of a function over all values.
* `Finmap.sumBy` — the sums over the classes of a classification.

## Main results

* `lookup_insert_eq`, `lookup_erase_eq`, `lookup_modify` — lookup after an
  update, as one case distinction on the key.
* `sum_insert_of_lookup_none`, `sum_erase_add`, `sum_modify_add` — how a total
  moves with an update.
* `sumBy_insert`, `sumBy_erase_add`, `sumBy_modify_add` — the same by class.
* `sum_eq_of_view` — a total of a projection only depends on the projected table.
-/

/-- A finite map from `κ` to `α`. -/
abbrev Table (κ α : Type*) := Finmap fun _ : κ => α

namespace Finmap

variable {κ α β M : Type*} [DecidableEq κ]

/-! ### Lookup after an update -/

theorem lookup_insert_eq (k k' : κ) (v : α) (t : Table κ α) :
    (t.insert k v).lookup k' = if k' = k then some v else t.lookup k' := by
  split
  · next h => subst h; exact lookup_insert t
  · next h => exact lookup_insert_of_ne t h

theorem lookup_erase_eq (k k' : κ) (t : Table κ α) :
    (t.erase k).lookup k' = if k' = k then none else t.lookup k' := by
  split
  · next h => subst h; exact lookup_erase k' t
  · next h => exact lookup_erase_ne h

/-- What is left was there, under another key. -/
theorem lookup_erase_some {k k' : κ} {v : α} {t : Table κ α}
    (h : (t.erase k).lookup k' = some v) : k' ≠ k ∧ t.lookup k' = some v := by
  rw [lookup_erase_eq] at h
  split at h
  · cases h
  · next hne => exact ⟨hne, h⟩

/-- Apply `f` to the value stored under `k`; a missing key stays missing. -/
def modify (k : κ) (f : α → α) (t : Table κ α) : Table κ α :=
  match t.lookup k with
  | none => t
  | some v => t.insert k (f v)

theorem modify_of_lookup_some {k : κ} {f : α → α} {t : Table κ α} {v : α}
    (h : t.lookup k = some v) : modify k f t = t.insert k (f v) := by
  simp [modify, h]

theorem modify_of_lookup_none {k : κ} {f : α → α} {t : Table κ α}
    (h : t.lookup k = none) : modify k f t = t := by
  simp [modify, h]

theorem lookup_modify (k k' : κ) (f : α → α) (t : Table κ α) :
    (modify k f t).lookup k' = if k' = k then (t.lookup k').map f else t.lookup k' := by
  cases h : t.lookup k with
  | none =>
    rw [modify_of_lookup_none h]
    split
    · next hk => subst hk; rw [h]; rfl
    · rfl
  | some v =>
    rw [modify_of_lookup_some h, lookup_insert_eq]
    split
    · next hk => subst hk; rw [h]; rfl
    · rfl

@[simp] theorem lookup_modify_self (k : κ) (f : α → α) (t : Table κ α) :
    (modify k f t).lookup k = (t.lookup k).map f := by
  rw [lookup_modify]; simp

theorem lookup_modify_of_ne {k k' : κ} (h : k' ≠ k) (f : α → α) (t : Table κ α) :
    (modify k f t).lookup k' = t.lookup k' := by
  rw [lookup_modify, if_neg h]

@[simp] theorem keys_modify (k : κ) (f : α → α) (t : Table κ α) :
    (modify k f t).keys = t.keys := by
  ext k'
  rw [mem_keys, mem_keys, ← lookup_isSome, ← lookup_isSome, lookup_modify]
  split <;> simp

/-- Changing an entry by a function that fixes it changes nothing. -/
theorem modify_eq_self {k : κ} {f : α → α} {t : Table κ α}
    (h : ∀ v, t.lookup k = some v → f v = v) : modify k f t = t := by
  refine ext_lookup fun k' => ?_
  rw [lookup_modify]
  split
  · next hk =>
    subst hk
    cases hv : t.lookup k' with
    | none => rfl
    | some v => rw [Option.map_some, h v hv]
  · rfl

/-- A projection that `f` does not touch reads the same in the changed table. -/
theorem map_lookup_modify (k k' : κ) {f : α → α} {g : α → β} (hg : ∀ v, g (f v) = g v)
    (t : Table κ α) : ((modify k f t).lookup k').map g = (t.lookup k').map g := by
  rw [lookup_modify]
  split
  · rw [Option.map_map]; congr 1; funext v; exact hg v
  · rfl

/-- A new entry that is taken away again. -/
theorem erase_insert_of_none {k : κ} {t : Table κ α} (h : t.lookup k = none) (v : α) :
    (t.insert k v).erase k = t := by
  refine ext_lookup fun k' => ?_
  rw [lookup_erase_eq, lookup_insert_eq]
  by_cases hk : k' = k
  · rw [if_pos hk, hk, h]
  · rw [if_neg hk, if_neg hk]

/-! ### Tables made from tables -/

/-- Apply `f` to every value. -/
def mapVal (f : α → β) (t : Table κ α) : Table κ β :=
  ⟨t.entries.map fun e => ⟨e.1, f e.2⟩, by
    rw [← Multiset.nodup_keys, Multiset.keys, Multiset.map_map]
    exact Multiset.nodup_keys.mpr t.nodupKeys⟩

theorem lookup_mapVal (f : α → β) (t : Table κ α) (k : κ) :
    (t.mapVal f).lookup k = (t.lookup k).map f := by
  refine Option.ext fun b => ?_
  have hl : (t.mapVal f).lookup k = some b ↔
      ∃ e ∈ t.entries, (⟨e.1, f e.2⟩ : (_ : κ) × β) = ⟨k, b⟩ :=
    mem_lookup_iff.trans Multiset.mem_map
  refine hl.trans ?_
  rw [Option.map_eq_some_iff]
  constructor
  · rintro ⟨⟨k', a⟩, hmem, heq⟩
    cases heq
    exact ⟨a, mem_lookup_iff.mpr hmem, rfl⟩
  · rintro ⟨a, ha, rfl⟩
    exact ⟨⟨k, a⟩, mem_lookup_iff.mp ha, rfl⟩

/-- Keep the entries whose key satisfies `p`. -/
def restrict (p : κ → Bool) (t : Table κ α) : Table κ α :=
  ⟨t.entries.filter fun e => p e.1,
    Multiset.nodup_keys.mp (Multiset.nodup_of_le (Multiset.map_le_map (Multiset.filter_le _ _))
      (Multiset.nodup_keys.mpr t.nodupKeys))⟩

theorem lookup_restrict (p : κ → Bool) (t : Table κ α) (k : κ) :
    (t.restrict p).lookup k = if p k then t.lookup k else none := by
  refine Option.ext fun b => ?_
  have hl : (t.restrict p).lookup k = some b ↔
      (⟨k, b⟩ : (_ : κ) × α) ∈ t.entries ∧ p k = true :=
    mem_lookup_iff.trans Multiset.mem_filter
  have ht : t.lookup k = some b ↔ (⟨k, b⟩ : (_ : κ) × α) ∈ t.entries := mem_lookup_iff
  rw [hl, ← ht]
  split
  · next h => simp [h]
  · next h => simp [h]

theorem mapVal_insert (f : α → β) (k : κ) (v : α) (t : Table κ α) :
    (t.insert k v).mapVal f = (t.mapVal f).insert k (f v) := by
  refine ext_lookup fun k' => ?_
  rw [lookup_mapVal, lookup_insert_eq, lookup_insert_eq, lookup_mapVal]
  split <;> rfl

theorem mapVal_erase (f : α → β) (k : κ) (t : Table κ α) :
    (t.erase k).mapVal f = (t.mapVal f).erase k := by
  refine ext_lookup fun k' => ?_
  rw [lookup_mapVal, lookup_erase_eq, lookup_erase_eq, lookup_mapVal]
  split <;> rfl

theorem mapVal_modify {f : α → β} {g : α → α} {h : β → β} (hf : ∀ v, f (g v) = h (f v)) (k : κ)
    (t : Table κ α) : (modify k g t).mapVal f = modify k h (t.mapVal f) := by
  refine ext_lookup fun k' => ?_
  rw [lookup_mapVal, lookup_modify, lookup_modify, lookup_mapVal]
  split
  · rw [Option.map_map, Option.map_map]
    exact congrArg (fun g => (t.lookup k').map g) (funext hf)
  · rfl

theorem restrict_insert {p : κ → Bool} {k : κ} (hk : p k = true) (v : α) (t : Table κ α) :
    (t.insert k v).restrict p = (t.restrict p).insert k v := by
  refine ext_lookup fun k' => ?_
  rw [lookup_restrict, lookup_insert_eq, lookup_insert_eq, lookup_restrict]
  by_cases h : k' = k
  · rw [if_pos h, if_pos h, h, if_pos hk]
  · rw [if_neg h, if_neg h]

/-- An entry that is not kept leaves no trace. -/
theorem restrict_insert_of_not {p : κ → Bool} {k : κ} (hk : p k = false) (v : α)
    (t : Table κ α) : (t.insert k v).restrict p = t.restrict p := by
  refine ext_lookup fun k' => ?_
  rw [lookup_restrict, lookup_restrict, lookup_insert_eq]
  by_cases h : k' = k
  · rw [h, hk, if_neg Bool.false_ne_true, if_neg Bool.false_ne_true]
  · rw [if_neg h]

/-! ### Totals -/

variable [AddCommMonoid M]

/-- The sum of `f` over the values of a table. -/
def sum (f : α → M) (t : Table κ α) : M := (t.entries.map fun e => f e.2).sum

/-- What the total `f` counts for the key `k`. -/
def valueAt (f : α → M) (t : Table κ α) (k : κ) : M := ((t.lookup k).map f).getD 0

theorem sum_eq_finset_sum (f : α → M) (t : Table κ α) :
    t.sum f = ∑ k ∈ t.keys, t.valueAt f k := by
  have hval : t.keys.val = t.entries.map Sigma.fst := rfl
  rw [Finset.sum, hval, Multiset.map_map, sum]
  congr 1
  refine Multiset.map_congr rfl fun e he => ?_
  have hl : t.lookup e.1 = some e.2 := mem_lookup_iff.mpr he
  simp [valueAt, hl]

omit [DecidableEq κ] in
theorem sum_mapVal (f : β → M) (g : α → β) (t : Table κ α) :
    (t.mapVal g).sum f = t.sum fun v => f (g v) := by
  unfold sum mapVal
  rw [Multiset.map_map]
  rfl

theorem sum_insert_of_lookup_none {k : κ} {v : α} {t : Table κ α} (f : α → M)
    (h : t.lookup k = none) : (t.insert k v).sum f = f v + t.sum f := by
  rw [sum, entries_insert_of_notMem (lookup_eq_none.mp h), Multiset.map_cons,
    Multiset.sum_cons, sum]

theorem sum_erase_add {k : κ} {v : α} {t : Table κ α} (f : α → M)
    (h : t.lookup k = some v) : f v + (t.erase k).sum f = t.sum f := by
  have hback : (t.erase k).insert k v = t := by
    refine ext_lookup fun k' => ?_
    rw [lookup_insert_eq, lookup_erase_eq]
    split
    · next hk => subst hk; exact h.symm
    · rfl
  rw [← sum_insert_of_lookup_none f (lookup_erase k t), hback]

theorem sum_modify_add {k : κ} {v : α} {t : Table κ α} (f : α → M) (g : α → α)
    (h : t.lookup k = some v) : f v + (modify k g t).sum f = f (g v) + t.sum f := by
  have herase : (modify k g t).erase k = t.erase k := by
    refine ext_lookup fun k' => ?_
    rw [lookup_erase_eq, lookup_erase_eq]
    split
    · rfl
    · next hk => exact lookup_modify_of_ne hk g t
  have hnew : (modify k g t).lookup k = some (g v) := by rw [lookup_modify_self, h]; rfl
  have h1 := sum_erase_add f hnew
  have h2 := sum_erase_add f h
  rw [herase] at h1
  rw [← h1, ← h2, ← add_assoc, ← add_assoc, add_comm (f v)]

omit [DecidableEq κ] in
theorem card_keys_eq_sum (t : Table κ α) : t.keys.card = t.sum fun _ => 1 := by
  have hkeys : t.keys.val = t.entries.map Sigma.fst := rfl
  rw [Finset.card, hkeys, Multiset.card_map, sum, Multiset.map_const', Multiset.sum_replicate]
  simp

theorem card_keys_insert {k : κ} {t : Table κ α} (h : t.lookup k = none) (v : α) :
    (t.insert k v).keys.card = t.keys.card + 1 := by
  rw [card_keys_eq_sum, card_keys_eq_sum, sum_insert_of_lookup_none _ h, add_comm]

theorem card_keys_erase {k : κ} {v : α} {t : Table κ α} (h : t.lookup k = some v) :
    (t.erase k).keys.card + 1 = t.keys.card := by
  rw [card_keys_eq_sum, card_keys_eq_sum, ← sum_erase_add _ h, add_comm]

/-- Two tables with the same projection have the same keys. -/
theorem keys_eq_of_view {g : α → β} {t t' : Table κ α}
    (h : ∀ k, (t.lookup k).map g = (t'.lookup k).map g) : t.keys = t'.keys := by
  ext k
  rw [mem_keys, mem_keys, ← lookup_isSome, ← lookup_isSome]
  simpa using congrArg Option.isSome (h k)

/-- A total over a projection of the values only depends on the projected table. -/
theorem sum_eq_of_view {f : β → M} {g : α → β} {t t' : Table κ α}
    (h : ∀ k, (t.lookup k).map g = (t'.lookup k).map g) :
    t.sum (fun v => f (g v)) = t'.sum fun v => f (g v) := by
  have hkeys : t.keys = t'.keys := keys_eq_of_view h
  have hat : ∀ k, t.valueAt (fun v => f (g v)) k = t'.valueAt (fun v => f (g v)) k := by
    intro k
    have := congrArg (Option.map f) (h k)
    simp only [Option.map_map] at this
    exact congrArg (fun x : Option M => x.getD 0) this
  rw [sum_eq_finset_sum, sum_eq_finset_sum, hkeys]
  exact Finset.sum_congr rfl fun k _ => hat k

theorem sum_congr {f g : α → M} {t : Table κ α}
    (h : ∀ k v, t.lookup k = some v → f v = g v) : t.sum f = t.sum g := by
  rw [sum, sum]
  congr 1
  exact Multiset.map_congr rfl fun e he => h e.1 e.2 (mem_lookup_iff.mpr he)

/-- One entry counts for at most the total. -/
theorem le_sum {k : κ} {v : α} {t : Table κ α} (f : α → ℕ) (h : t.lookup k = some v) :
    f v ≤ t.sum f := by
  rw [← sum_erase_add f h]; exact Nat.le_add_right _ _

/-- A total of a smaller function is smaller. -/
theorem sum_le_sum {f g : α → ℕ} {t : Table κ α}
    (h : ∀ k v, t.lookup k = some v → f v ≤ g v) : t.sum f ≤ t.sum g := by
  rw [sum, sum]
  exact Multiset.sum_map_le_sum_map _ _ fun e he => h e.1 e.2 (mem_lookup_iff.mpr he)

omit [DecidableEq κ] in
theorem sum_add (f g : α → M) (t : Table κ α) :
    t.sum (fun v => f v + g v) = t.sum f + t.sum g := by
  rw [sum, sum, sum, Multiset.sum_map_add]

/-! ### Totals by class -/

variable {ι : Type*} [DecidableEq ι]

/-- The total weight of the values of class `i`. -/
def sumBy (cls : α → ι) (w : α → ℕ) (t : Table κ α) (i : ι) : ℕ :=
  t.sum fun v => if cls v = i then w v else 0

theorem sumBy_insert {k : κ} {v : α} {t : Table κ α} (cls : α → ι) (w : α → ℕ)
    (h : t.lookup k = none) (i : ι) :
    (t.insert k v).sumBy cls w i = (if cls v = i then w v else 0) + t.sumBy cls w i :=
  sum_insert_of_lookup_none _ h

theorem sumBy_erase_add {k : κ} {v : α} {t : Table κ α} (cls : α → ι) (w : α → ℕ)
    (h : t.lookup k = some v) (i : ι) :
    (if cls v = i then w v else 0) + (t.erase k).sumBy cls w i = t.sumBy cls w i :=
  sum_erase_add (fun v => if cls v = i then w v else 0) h

theorem sumBy_modify_add {k : κ} {v : α} {t : Table κ α} (cls : α → ι) (w : α → ℕ) (g : α → α)
    (h : t.lookup k = some v) (i : ι) :
    (if cls v = i then w v else 0) + (modify k g t).sumBy cls w i =
      (if cls (g v) = i then w (g v) else 0) + t.sumBy cls w i :=
  sum_modify_add (fun v => if cls v = i then w v else 0) g h

/-- Totals by class of a projection only depend on the projected table. -/
theorem sumBy_eq_of_view (cls : β → ι) (w : β → ℕ) {g : α → β} {t t' : Table κ α}
    (h : ∀ k, (t.lookup k).map g = (t'.lookup k).map g) (i : ι) :
    t.sumBy (fun v => cls (g v)) (fun v => w (g v)) i =
      t'.sumBy (fun v => cls (g v)) (fun v => w (g v)) i :=
  sum_eq_of_view (f := fun v => if cls v = i then w v else 0) h

/-- A value counts in its class. -/
theorem le_sumBy {k : κ} {v : α} {t : Table κ α} (cls : α → ι) (w : α → ℕ)
    (h : t.lookup k = some v) : w v ≤ t.sumBy cls w (cls v) := by
  have hle := le_sum (fun v' => if cls v' = cls v then w v' else 0) h
  rwa [if_pos rfl] at hle

/-- A class is part of the whole. -/
theorem sumBy_le_sum (cls : α → ι) (w : α → ℕ) (t : Table κ α) (i : ι) :
    t.sumBy cls w i ≤ t.sum w := by
  refine sum_le_sum fun k v _ => ?_
  split
  · exact le_rfl
  · exact Nat.zero_le _

end Finmap
