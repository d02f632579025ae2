import Dx12Track.Launcher.Steps

/-!
# The counters of the snapshot

The counters are kept by guarded additions and subtractions, one record at a
time.  Here they are compared with sums over the table of live objects, and that
table with the records that made it.

## Main definitions

* `registry` — the objects created and not yet destroyed, from the records alone.
* `tally` — the counters, as sums over a table.

## Main results

* `registry_isSome_iff` — what is in the registry.
* `tally_insert`, `tally_erase` — how the counters move with the table.
* `Model.aggregates_after` — **the counters are the sums, after every run**.
* `Model.aggregates_eq` — they only depend on the live set.
-/

namespace Dx12Track

open Finmap
open Model (liveOfCreated countCreated countDestroyed)

/-! ### The registry -/

/-- What a call does to the set of live objects. -/
def register (t : Table ℕ LiveObject) : Step → Table ℕ LiveObject
  | .event tsNs (.created p) => t.insert p.id (liveOfCreated tsNs p)
  | .event _ (.renamed p) => t.modify p.id (·.setName p.name.read)
  | .event _ (.destroyed p) => t.erase p.id
  | _ => t

/-- The objects created and not yet destroyed in a run. -/
def registry (xs : List Step) : Table ℕ LiveObject := Machine.run register ∅ xs

/-- `id` was created, and not destroyed after that. -/
def CreatedNotDestroyed (xs : List Step) (id : ℕ) : Prop :=
  ∃ us vs ts p, xs = us ++ .event ts (.created p) :: vs ∧ p.id = id ∧
    ∀ ts', .event ts' (.destroyed ⟨id⟩) ∉ vs

theorem registry_concat (xs : List Step) (x : Step) :
    registry (xs ++ [x]) = register (registry xs) x := Machine.run_concat register ∅ xs x

/-- Whether an id is live after a call. -/
theorem register_isSome (t : Table ℕ LiveObject) (x : Step) (id : ℕ) :
    ((register t x).lookup id).isSome ↔
      (∃ ts p, x = .event ts (.created p) ∧ p.id = id) ∨
      ((t.lookup id).isSome ∧ ∀ ts, x ≠ .event ts (.destroyed ⟨id⟩)) := by
  cases x with
  | event ts r =>
    cases r with
    | created p =>
      show ((t.insert p.id _).lookup id).isSome ↔ _
      rw [lookup_insert_eq]
      by_cases h : id = p.id
      · simp [h]
      · simp [h, Ne.symm h]
    | renamed p =>
      show ((t.modify p.id _).lookup id).isSome ↔ _
      rw [lookup_modify]
      split <;> simp
    | destroyed p =>
      show ((t.erase p.id).lookup id).isSome ↔ _
      rw [lookup_erase_eq]
      obtain ⟨pid⟩ := p
      by_cases h : id = pid
      · simp [h]
      · simp [h, Ne.symm h]
    | _ => simp [register]
  | _ => simp [register]

/-- **The registry holds exactly the ids created and not yet destroyed.** -/
theorem registry_isSome_iff (xs : List Step) (id : ℕ) :
    ((registry xs).lookup id).isSome ↔ CreatedNotDestroyed xs id := by
  induction xs using List.reverseRecOn with
  | nil =>
    have hnone : (registry []).lookup id = none := rfl
    rw [hnone]
    constructor
    · intro h; cases h
    · rintro ⟨us, vs, ts, p, h, -, -⟩
      simp at h
  | append_singleton xs x ih =>
    rw [registry_concat, register_isSome, ih]
    constructor
    · rintro (⟨ts, p, rfl, hid⟩ | ⟨⟨us, vs, ts, p, rfl, hid, hvs⟩, hx⟩)
      · exact ⟨xs, [], ts, p, rfl, hid, by simp⟩
      · refine ⟨us, vs ++ [x], ts, p, by simp, hid, fun ts' hmem => ?_⟩
        rcases List.mem_append.mp hmem with hmem | hmem
        · exact hvs ts' hmem
        · exact hx ts' (List.mem_singleton.mp hmem).symm
    · rintro ⟨us, vs, ts, p, heq, hid, hvs⟩
      rcases List.eq_nil_or_concat vs with rfl | ⟨vs, v, rfl⟩
      · -- the record is the last call
        obtain ⟨-, hx⟩ := List.append_inj' heq rfl
        exact .inl ⟨ts, p, List.singleton_inj.mp hx, hid⟩
      · have heq' : xs ++ [x] = (us ++ .event ts (.created p) :: vs) ++ [v] := by
          rw [heq]; simp
        obtain ⟨hxs, hx⟩ := List.append_inj' heq' rfl
        have hxv : x = v := List.singleton_inj.mp hx
        refine .inr ⟨⟨us, vs, ts, p, hxs, hid, fun ts' hmem => hvs ts' ?_⟩,
          fun ts' hx' => hvs ts' ?_⟩
        · simp [hmem]
        · simp [← hxv, hx']

/-! ### The counters as sums -/

/-- The cell of `MemoryTotals` an object counts in. -/
def bucket (o : LiveObject) : ℕ × ℕ := (heapBucket o.heapType, allocBucket o.alloc)

/-- The counters, as sums over the live objects. -/
def tally (t : Table ℕ LiveObject) : Snapshot where
  totals.bytes := fun h a => t.sumBy bucket (·.sizeBytes) (h, a)
  totals.counts := fun h a => t.sumBy bucket (fun _ => 1) (h, a)
  liveCount := t.keys.card
  liveBytes := t.sum (·.sizeBytes)
  perTypeCounts := t.sumBy (·.type.index) fun _ => 1

theorem add64_of_lt {a b : ℕ} (h : a + b < 2 ^ 64) : add64 a b = a + b := Nat.mod_eq_of_lt h

section Cells

variable {α ι κ : Type} [DecidableEq ι] [DecidableEq κ] {t : Table ℕ α} {k : ℕ} {v : α}

/-- A new value is added to the cell of its class. -/
theorem setAt_sumBy_insert (cls : α → ι) (w : α → ℕ) (hnew : t.lookup k = none) :
    setAt (t.sumBy cls w) (cls v) (t.sumBy cls w (cls v) + w v) = (t.insert k v).sumBy cls w := by
  funext i
  rw [sumBy_insert cls w hnew, setAt]
  split
  · next hi => rw [if_pos hi.symm, hi, add_comm]
  · next hi => rw [if_neg (Ne.symm hi), zero_add]

/-- An old value is taken from the cell of its class. -/
theorem setAt_sumBy_erase (cls : α → ι) (w : α → ℕ) (hv : t.lookup k = some v) :
    setAt (t.sumBy cls w) (cls v) (t.sumBy cls w (cls v) - w v) = (t.erase k).sumBy cls w := by
  funext i
  have hsum := sumBy_erase_add cls w hv i
  rw [setAt]
  split
  · next hi =>
    subst hi
    rw [if_pos rfl] at hsum
    omega
  · next hi =>
    rw [if_neg (Ne.symm hi), zero_add] at hsum
    exact hsum.symm

theorem setCell_eq_setAt (f : ℕ × κ → ℕ) (x : ℕ × κ) (n : ℕ) :
    setCell (fun h k => f (h, k)) x.1 x.2 n = fun h k => setAt f x n (h, k) := by
  funext h k
  simp only [setCell, setAt, Prod.ext_iff]

/-- The same in two dimensions. -/
theorem setCell_sumBy_insert (cls : α → ℕ × κ) (w : α → ℕ) (hnew : t.lookup k = none) :
    setCell (fun h k => t.sumBy cls w (h, k)) (cls v).1 (cls v).2 (t.sumBy cls w (cls v) + w v)
      = fun h k' => (t.insert k v).sumBy cls w (h, k') := by
  rw [setCell_eq_setAt, setAt_sumBy_insert cls w hnew]

theorem setCell_sumBy_erase (cls : α → ℕ × κ) (w : α → ℕ) (hv : t.lookup k = some v) :
    setCell (fun h k => t.sumBy cls w (h, k)) (cls v).1 (cls v).2 (t.sumBy cls w (cls v) - w v)
      = fun h k' => (t.erase k).sumBy cls w (h, k') := by
  rw [setCell_eq_setAt, setAt_sumBy_erase cls w hv]

end Cells

/-- A new object enters every sum it belongs to. -/
theorem tally_insert {t : Table ℕ LiveObject} {id : ℕ} {o : LiveObject}
    (hnew : t.lookup id = none) (hsize : (t.insert id o).sum (·.sizeBytes) < 2 ^ 64) :
    countCreated (tally t) o (t.insert id o).keys.card = tally (t.insert id o) := by
  have hinsert := sum_insert_of_lookup_none (v := o) (fun o : LiveObject => o.sizeBytes) hnew
  have htotal : t.sum (·.sizeBytes) + o.sizeBytes < 2 ^ 64 := by omega
  have hcell := sumBy_le_sum bucket (·.sizeBytes) t (bucket o)
  have hbytes : setCell (tally t).totals.bytes (heapBucket o.heapType) (allocBucket o.alloc)
      (add64 (t.sumBy bucket (·.sizeBytes) (bucket o)) o.sizeBytes)
      = (tally (t.insert id o)).totals.bytes := by
    rw [add64_of_lt (by omega)]
    exact setCell_sumBy_insert bucket (·.sizeBytes) hnew
  have hcounts : setCell (tally t).totals.counts (heapBucket o.heapType) (allocBucket o.alloc)
      (t.sumBy bucket (fun _ => 1) (bucket o) + 1) = (tally (t.insert id o)).totals.counts :=
    setCell_sumBy_insert bucket (fun _ => 1) hnew
  refine Snapshot.ext rfl rfl rfl rfl rfl rfl rfl ?_ ?_ (MemoryTotals.ext hbytes hcounts) rfl rfl
  · exact (add64_of_lt htotal).trans ((add_comm _ _).trans hinsert.symm)
  · exact setAt_sumBy_insert (fun o : LiveObject => o.type.index) (fun _ => 1) hnew

/-- A dead object leaves every sum it belonged to; no guard skips a subtraction. -/
theorem tally_erase {t : Table ℕ LiveObject} {id : ℕ} {o : LiveObject}
    (ho : t.lookup id = some o) :
    { countDestroyed (tally t) o with liveCount := (t.erase id).keys.card }
      = tally (t.erase id) := by
  have hbytes : (countDestroyed (tally t) o).totals.bytes = (tally (t.erase id)).totals.bytes :=
    (if_pos (le_sumBy bucket (·.sizeBytes) ho)).trans
      (setCell_sumBy_erase bucket (·.sizeBytes) ho)
  have hcounts : (countDestroyed (tally t) o).totals.counts = (tally (t.erase id)).totals.counts :=
    (if_pos (le_sumBy bucket (fun _ => 1) ho)).trans
      (setCell_sumBy_erase bucket (fun _ => 1) ho)
  refine Snapshot.ext rfl rfl rfl rfl rfl rfl rfl ?_ ?_ (MemoryTotals.ext hbytes hcounts) rfl rfl
  · have hsum := sum_erase_add (fun o : LiveObject => o.sizeBytes) ho
    refine (if_pos (le_sum _ ho)).trans ?_
    show t.sum (fun o => o.sizeBytes) - o.sizeBytes = (t.erase id).sum fun o => o.sizeBytes
    omega
  · exact (if_pos (le_sumBy (fun o : LiveObject => o.type.index) (fun _ => 1) ho)).trans
      (setAt_sumBy_erase (fun o : LiveObject => o.type.index) (fun _ => 1) ho)

/-- What an object adds to the counters. -/
def weight (o : LiveObject) : ℕ × (ℕ × ℕ) × ℕ := (o.sizeBytes, bucket o, o.type.index)

/-- The counters only see the weights of the live objects. -/
theorem tally_of_weight {t t' : Table ℕ LiveObject}
    (h : ∀ id, (t.lookup id).map weight = (t'.lookup id).map weight) : tally t = tally t' := by
  refine Snapshot.ext rfl rfl rfl rfl rfl rfl ?_ ?_ ?_ (MemoryTotals.ext ?_ ?_) rfl rfl
  · exact congrArg Finset.card (keys_eq_of_view h)
  · exact sum_eq_of_view (f := fun x : ℕ × (ℕ × ℕ) × ℕ => x.1) h
  · exact funext fun i => sumBy_eq_of_view (fun x : ℕ × (ℕ × ℕ) × ℕ => x.2.2)
      (fun _ => 1) h i
  · exact funext fun b => funext fun a => sumBy_eq_of_view
      (fun x : ℕ × (ℕ × ℕ) × ℕ => x.2.1) (fun x => x.1) h (b, a)
  · exact funext fun b => funext fun a => sumBy_eq_of_view
      (fun x : ℕ × (ℕ × ℕ) × ℕ => x.2.1) (fun _ => 1) h (b, a)

theorem map_weight_of_payload {x y : Option LiveObject}
    (h : x.map LiveObject.payload = y.map LiveObject.payload) : x.map weight = y.map weight := by
  have := congrArg (Option.map weight) h
  rwa [Option.map_map, Option.map_map] at this

/-! ### Runs -/

namespace Model

/-- The live table and the counters after the records of a run. -/
structure Counted (xs : List Step) (m : Model) : Prop where
  live : ∀ id, m.core.live id = ((registry xs).lookup id).map LiveObject.payload
  counts : m.core.counts = tally (registry xs)

/-- The sizes of the objects that are live together fit 64 bits, at any time. -/
def SizesFit (xs : List Step) : Prop := ∀ ys, ys <+: xs → (registry ys).sum (·.sizeBytes) < 2 ^ 64

instance (xs : List Step) : Decidable (SizesFit xs) :=
  decidable_of_iff (∀ ys ∈ xs.inits, (registry ys).sum (·.sizeBytes) < 2 ^ 64)
    (by simp only [SizesFit, List.mem_inits])

theorem SizesFit.of_append {xs ys : List Step} (h : SizesFit (xs ++ ys)) : SizesFit xs :=
  fun zs hzs => h zs (hzs.trans (List.prefix_append xs ys))

theorem Counted.lookup {xs : List Step} {m : Model} (h : Counted xs m) (id : ℕ) :
    (m.live.lookup id).map LiveObject.payload
      = ((registry xs).lookup id).map LiveObject.payload := by
  rw [← h.live id]
  exact (sansJoin_live m id).symm

/-- A registered id was created. -/
theorem createdIds_of_registry {xs : List Step} {id : ℕ}
    (h : ((registry xs).lookup id).isSome) : id ∈ createdIds xs := by
  obtain ⟨us, vs, ts, p, rfl, rfl, -⟩ := (registry_isSome_iff xs id).mp h
  rw [createdIds_append]
  exact List.mem_append_right _ (by simp [createdIds, Step.createdId])

section Records

variable {xs : List Step} {m : Model}

theorem Counted.unchanged (h : Counted xs m) {x : Step} (hc : (m.step x).core = m.core)
    (hr : registry (xs ++ [x]) = registry xs) : Counted (xs ++ [x]) (m.step x) where
  live := by
    rw [hc, hr]
    exact h.live
  counts := by
    rw [hc, hr]
    exact h.counts

theorem Counted.created (h : Counted xs m) (ts : ℕ) {p : CreatedPayload}
    (hfresh : (createdIds (xs ++ [.event ts (.created p)])).Nodup)
    (hsize : SizesFit (xs ++ [.event ts (.created p)])) :
    Counted (xs ++ [.event ts (.created p)]) (m.step (.event ts (.created p))) := by
  have hnew : (registry xs).lookup p.id = none := by
    by_contra hsome
    have hmem := createdIds_of_registry (Option.isSome_iff_ne_none.mpr hsome)
    rw [createdIds_append] at hfresh
    exact (List.nodup_append.mp hfresh).2.2 p.id hmem p.id
      (by simp [createdIds, Step.createdId]) rfl
  have hr : registry (xs ++ [.event ts (.created p)])
      = (registry xs).insert p.id (liveOfCreated ts p) := registry_concat xs _
  have hfit := hsize _ (List.prefix_refl _)
  rw [hr] at hfit
  have hcore : (m.step (.event ts (.created p))).core = _ :=
    core_onCreated (m.setLatestNs ts) ts p
  have hkeys : (m.live.insert p.id (liveOfCreated ts p)).keys
      = ((registry xs).insert p.id (liveOfCreated ts p)).keys := by
    refine keys_eq_of_view (g := LiveObject.payload) fun id => ?_
    rw [lookup_insert_eq, lookup_insert_eq]
    split
    · rfl
    · exact h.lookup id
  constructor
  · intro id
    rw [hcore, hr, lookup_insert_eq]
    dsimp only
    rw [Function.update_apply]
    split
    · rfl
    · exact h.live id
  · rw [hcore, hr, ← tally_insert hnew hfit, ← hkeys, ← h.counts]
    rfl

theorem Counted.renamed (h : Counted xs m) (ts : ℕ) (p : RenamedPayload) :
    Counted (xs ++ [.event ts (.renamed p)]) (m.step (.event ts (.renamed p))) := by
  have hr : registry (xs ++ [.event ts (.renamed p)])
      = (registry xs).modify p.id (·.setName p.name.read) := registry_concat xs _
  have hcore : (m.step (.event ts (.renamed p))).core = _ := core_onRenamed (m.setLatestNs ts) p
  constructor
  · intro id
    rw [hcore, hr, lookup_modify]
    dsimp only
    rw [Function.update_apply]
    split
    · next hid =>
      subst hid
      rw [core_setLatestNs, h.live, Option.map_map, Option.map_map]
      rfl
    · exact h.live id
  · -- a name has no weight
    rw [hcore, hr]
    refine h.counts.trans (tally_of_weight fun id => ?_)
    exact (map_lookup_modify p.id id (g := weight)
      (f := fun o : LiveObject => o.setName p.name.read) (fun _ => rfl) _).symm

theorem Counted.destroyed (h : Counted xs m) (ts : ℕ) (p : DestroyedPayload) :
    Counted (xs ++ [.event ts (.destroyed p)]) (m.step (.event ts (.destroyed p))) := by
  have hr : registry (xs ++ [.event ts (.destroyed p)]) = (registry xs).erase p.id :=
    registry_concat xs _
  cases ho : m.live.lookup p.id with
  | none =>
    have hm : m.step (.event ts (.destroyed p)) = m.setLatestNs ts :=
      onDestroyed_of_none (m := m.setLatestNs ts) ts ho
    have hnone : (registry xs).lookup p.id = none := by
      have hlookup := h.lookup p.id
      rw [ho] at hlookup
      exact Option.map_eq_none_iff.mp hlookup.symm
    refine h.unchanged (by rw [hm, core_setLatestNs]) (hr.trans ?_)
    refine ext_lookup fun id => ?_
    rw [lookup_erase_eq]
    split
    · next hid => rw [hid, hnone]
    · rfl
  | some o =>
    have hcore : (m.step (.event ts (.destroyed p))).core = _ :=
      core_onDestroyed (m := m.setLatestNs ts) ts ho
    obtain ⟨o', ho', hoo⟩ : ∃ o', (registry xs).lookup p.id = some o' ∧
        o'.payload = o.payload := by
      have hlookup := h.lookup p.id
      rw [ho] at hlookup
      exact Option.map_eq_some_iff.mp hlookup.symm
    have hkeys : (m.live.erase p.id).keys = ((registry xs).erase p.id).keys := by
      refine keys_eq_of_view (g := LiveObject.payload) fun id => ?_
      rw [lookup_erase_eq, lookup_erase_eq]
      split
      · rfl
      · exact h.lookup id
    -- the object in the table counts as the registered one
    have hcount : ∀ s, countDestroyed s o = countDestroyed s o' := by
      intro s
      have h₁ : countDestroyed s o.payload = countDestroyed s o := rfl
      have h₂ : countDestroyed s o'.payload = countDestroyed s o' := rfl
      rw [← h₁, ← h₂, hoo]
    constructor
    · intro id
      rw [hcore, hr, lookup_erase_eq]
      dsimp only
      rw [Function.update_apply]
      split
      · rfl
      · exact h.live id
    · rw [hcore, hr, ← tally_erase ho', ← hkeys]
      show ({ countDestroyed m.core.counts o with liveCount := _ } : Snapshot) = _
      rw [h.counts, hcount]
      rfl

/-- **One call keeps the counters equal to the sums.** -/
theorem counted_step (h : Counted xs m) (x : Step)
    (hfresh : (createdIds (xs ++ [x])).Nodup) (hsize : SizesFit (xs ++ [x])) :
    Counted (xs ++ [x]) (m.step x) := by
  cases x with
  | event ts r =>
    cases r with
    | created p => exact h.created ts hfresh hsize
    | renamed p => exact h.renamed ts p
    | destroyed p => exact h.destroyed ts p
    | hello p =>
      exact h.unchanged (core_onEvent_other m ts (by simp) (by simp) (by simp))
        (registry_concat xs _)
    | goodbye p => exact h.unchanged rfl (registry_concat xs _)
    | other => exact h.unchanged rfl (registry_concat xs _)
  | _ => exact h.unchanged (core_step_of_not_event m (by simp)) (registry_concat xs _)

end Records

theorem counted_after (etw : Option EtwOptions) (xs : List Step) (hfresh : (createdIds xs).Nodup)
    (hsize : SizesFit xs) : Counted xs ((launch etw).after xs) := by
  refine Machine.run_induction step (launch etw)
    (fun xs => (createdIds xs).Nodup ∧ SizesFit xs) Counted ?_ ?_ ?_ xs ⟨hfresh, hsize⟩
  · intro xs x hl
    rw [createdIds_append] at hl
    exact ⟨(List.nodup_append.mp hl.1).1, hl.2.of_append⟩
  · cases etw with
    | none => exact ⟨fun _ => rfl, rfl⟩
    | some etw => exact ⟨fun _ => rfl, rfl⟩
  · exact fun xs x hl h => counted_step h x hl.1 hl.2

/-- **The counters of the snapshot are the sums over the live objects**, after
every run in which ids are not reused and the live sizes fit 64 bits; the live
objects are those created and not yet destroyed; and two runs that end with the
same live set end with the same counters. -/
theorem aggregates_after (etw : Option EtwOptions) (xs : List Step)
    (hfresh : (createdIds xs).Nodup) (hsize : SizesFit xs) :
    let m := (launch etw).after xs
    (∀ h a, m.s.totals.bytes h a = m.live.sumBy bucket (·.sizeBytes) (h, a)) ∧
    (∀ h a, m.s.totals.counts h a = m.live.sumBy bucket (fun _ => 1) (h, a)) ∧
    m.s.liveBytes = m.live.sum (·.sizeBytes) ∧
    m.s.liveCount = m.live.keys.card ∧
    (∀ i, m.s.perTypeCounts i = m.live.sumBy (·.type.index) (fun _ => 1) i) ∧
    (∀ id, (m.live.lookup id).isSome ↔ CreatedNotDestroyed xs id) ∧
    ∀ (etw' : Option EtwOptions) (ys : List Step), (createdIds ys).Nodup → SizesFit ys →
      (∀ id, (m.live.lookup id).map weight = (((launch etw').after ys).live.lookup id).map weight) →
      m.s.counters = ((launch etw').after ys).s.counters := by
  intro m
  -- the counters are a function of the live table
  have htally : ∀ (etw : Option EtwOptions) (xs : List Step), (createdIds xs).Nodup →
      SizesFit xs → ((launch etw).after xs).core.counts = tally ((launch etw).after xs).live := by
    intro etw xs hfresh hsize
    have h := counted_after etw xs hfresh hsize
    rw [h.counts]
    exact tally_of_weight fun id => map_weight_of_payload (h.lookup id).symm
  have hm : m.s.counters = tally m.live := htally etw xs hfresh hsize
  refine ⟨fun b a => ?_, fun b a => ?_, ?_, ?_, fun i => ?_, fun id => ?_, ?_⟩
  · exact congrArg (fun s => s.totals.bytes b a) hm
  · exact congrArg (fun s => s.totals.counts b a) hm
  · exact congrArg Snapshot.liveBytes hm
  · exact congrArg Snapshot.liveCount hm
  · exact congrArg (fun s => s.perTypeCounts i) hm
  · rw [← registry_isSome_iff]
    have := congrArg Option.isSome ((counted_after etw xs hfresh hsize).lookup id)
    rw [Option.isSome_map, Option.isSome_map] at this
    rw [this]
  · intro etw' ys hfresh' hsize' hsame
    have hm' : ((launch etw').after ys).s.counters = tally ((launch etw').after ys).live :=
      htally etw' ys hfresh' hsize'
    rw [hm, hm']
    exact tally_of_weight hsame

/-- Two objects in two orders, the first of them destroyed again, with a record
for an unknown id in between. -/
def churnRun : List Step :=
  [.event 10 (.created (plainCreated 1 .heap .heap 4096 65536 0)),
    .event 11 (.destroyed ⟨9⟩),
    .event 12 (.created (plainCreated 2 .resource .placed 8192 1024 1)),
    .event 13 (.destroyed ⟨1⟩)]

theorem aggregates_after_churnRun :
    ((launch none).after churnRun).s.totals.bytes 1 2 = 1024 ∧
    ((launch none).after churnRun).s.totals.bytes 1 4 = 0 ∧
    ((launch none).after churnRun).s.liveBytes = 1024 ∧
    CreatedNotDestroyed churnRun 2 ∧ ¬CreatedNotDestroyed churnRun 1 ∧
    ((launch none).after churnRun).s.counters = ((launch none).after
      [.event 5 (.created (plainCreated 2 .resource .placed 8192 1024 1))]).s.counters := by
  obtain ⟨hbytes, -, hlive, -, -, hids, hsame⟩ :=
    aggregates_after none churnRun (by decide) (by decide)
  refine ⟨(hbytes 1 2).trans (by decide), (hbytes 1 4).trans (by decide),
    hlive.trans (by decide), (hids 2).mp (by decide), fun h => ?_, ?_⟩
  · exact absurd ((hids 1).mpr h) (by decide)
  · refine hsame none _ (by decide) (by decide) fun id => ?_
    have hlast : ∀ (xs : List Step) (ts : ℕ), ((launch none).after xs).live
        = (∅ : Table ℕ LiveObject).insert 2 (liveOfCreated ts
          (plainCreated 2 .resource .placed 8192 1024 1)) →
        (((launch none).after xs).live.lookup id).map weight = if id = 2 then
          some (weight (liveOfCreated 0 (plainCreated 2 .resource .placed 8192 1024 1)))
          else none := by
      intro xs ts h
      rw [h, lookup_insert_eq]
      split <;> rfl
    rw [hlast churnRun 12 (by decide), hlast _ 5 (by decide)]

end Model

end Dx12Track
