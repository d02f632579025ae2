import Dx12Track.Launcher.Aggregates

/-!
# Locations

A live object's `effLoc` caches what `Model.effLoc` computes from the object and
its parent heap, and `locBytes` is the sum of the live sizes by heap bucket and
cached location.  Both are maintained where something changes: a new or changed
`ownLoc` is followed by the recomputation of the object and, for a heap, of the
objects placed in it.

* `Model.places` — the part of a model that this bookkeeping reads and writes.
* `Model.Located` — the invariant, up to a set of objects whose cached location
  is stale for the moment.
* `located_moveLoc`, `located_setOwnLoc`, `located_relocate` — staleness comes
  with a write to `ownLoc` and goes with the recomputations behind it.
* `located_created`, `located_destroyed`, `located_step`, `located_after`.
* `locBytes_after` — **the table of bytes by location is the sum over the live
  objects**, after every run.
-/

namespace Dx12Track

open Etw (ObjType Group ResidencyOp CounterKind GroupChange Stats)
open Finmap (lookup_insert_eq lookup_erase_eq lookup_erase_some lookup_modify)

/-! ### What the bookkeeping reads and writes -/

/-- What the location bookkeeping reads of an object. -/
def LiveObject.spot (o : LiveObject) : LiveObject :=
  { o with
    dimension := 0
    format := 0
    createdNs := 0
    objectPtr := 0
    name := []
    prevDestroyNs := 0
    etwKey := 0
    locReported := false
    driverSize := 0 }

namespace LiveObject

/-- A name, a key and the driver's size say nothing about where an object is. -/
theorem spot_setName (o : LiveObject) (s : WString) : (o.setName s).spot = o.spot := rfl
theorem spot_setPrevDestroyNs (o : LiveObject) (t : ℕ) :
    (o.setPrevDestroyNs t).spot = o.spot := rfl
theorem spot_setEtwKey (o : LiveObject) (k : ℕ) : (o.setEtwKey k).spot = o.spot := rfl
theorem spot_setLocReported (o : LiveObject) (b : Bool) :
    (o.setLocReported b).spot = o.spot := rfl
theorem spot_setDriverSize (o : LiveObject) (n : ℕ) : (o.setDriverSize n).spot = o.spot := rfl

/-- What two objects at one spot have in common. -/
theorem spot_inj {o o' : LiveObject} (h : o.spot = o'.spot) :
    o.id = o'.id ∧ o.type = o'.type ∧ o.alloc = o'.alloc ∧ o.parentHeapId = o'.parentHeapId ∧
      o.ownLoc = o'.ownLoc ∧ o.effLoc = o'.effLoc := by
  simp only [spot, LiveObject.mk.injEq] at h
  tauto

end LiveObject

/-- The bytes `AddLoc` counts for an object. -/
def memSize (o : LiveObject) : ℕ := if o.alloc = .none then 0 else o.sizeBytes

/-- The cell of `locBytes` an object is counted in. -/
def locCell (o : LiveObject) : ℕ × MemLoc := (heapBucket o.heapType, o.effLoc)

/-- A placed resource whose heap is known. -/
def LiveObject.Placed (o : LiveObject) : Prop := o.alloc = .placed ∧ o.parentHeapId ≠ 0

instance (o : LiveObject) : Decidable o.Placed := inferInstanceAs (Decidable (_ ∧ _))

/-- No object counts for more than its size. -/
theorem memSize_le (o : LiveObject) : memSize o ≤ o.sizeBytes := by
  unfold memSize
  split <;> omega

/-- The part of a model that the location bookkeeping reads and writes. -/
@[ext] structure Places where
  live : ℕ → Option LiveObject
  kids : ℕ → List ℕ
  locBytes : ℕ → MemLoc → ℕ

namespace Model

/-- The ids placed in the heap `p`. -/
def kids (m : Model) (p : ℕ) : List ℕ := (m.children.lookup p).getD []

/-- What the bookkeeping sees of a model. -/
def places (m : Model) : Places where
  live := fun id => (m.live.lookup id).map LiveObject.spot
  kids := m.kids
  locBytes := m.s.etw.locBytes

/-- The live objects, seen by the bookkeeping. -/
theorem places_live (m : Model) (id : ℕ) :
    m.places.live id = (m.live.lookup id).map LiveObject.spot := rfl

section Unseen

variable {m : Model}

/-- A line moves nothing. -/
@[simp] theorem places_sideLine (l : SideLine) : (m.sideLine l).places = m.places := by
  unfold sideLine
  split_ifs <;> rfl

/-- A write to a live object that moves nothing. -/
theorem places_updLive (id : ℕ) {f : LiveObject → LiveObject} (hf : ∀ o, (f o).spot = o.spot) :
    (m.updLive id f).places = m.places := by
  refine Places.ext ?_ rfl rfl
  funext i
  exact Finmap.map_lookup_modify id i hf m.live

/-- The entries are not seen: an object keeps a copy of its group in
`ownLoc`. -/
@[simp] theorem places_updEtw (key : ℕ) (f : EtwObj → EtwObj) :
    (m.updEtw key f).places = m.places := rfl

/-- The totals of the driver's objects are another table. -/
@[simp] theorem places_driverAgg (e : EtwObj) (sign : ℤ) :
    (m.driverAgg e sign).places = m.places := by
  unfold driverAgg
  dsimp only
  split_ifs <;> rfl

/-- Who loses its partner keeps its group. -/
@[simp] theorem places_unbindOther (key : ℕ) (o : LiveObject) :
    (m.unbindOther key o).places = m.places := by
  unfold unbindOther
  split <;> rfl

/-- The dead are not counted. -/
@[simp] theorem places_attributeLate (key ts : ℕ) (e : EtwObj) (x : DeadObj) :
    (m.attributeLate key ts e x).places = m.places := by
  unfold attributeLate
  rw [places_sideLine]
  rfl

/-- An entry that waits has no object to move. -/
@[simp] theorem places_waitForObject (env : Env) (key : ℕ) (e : EtwObj) :
    (m.waitForObject env key e).places = m.places := by
  unfold waitForObject
  split <;> rfl

/-- The driver's size is not what the table sums up. -/
@[simp] theorem places_applySize (key size ts : ℕ) :
    (m.applySize key size ts).places = m.places := by
  unfold applySize
  cases m.etwObjs.lookup key with
  | none => rfl
  | some e =>
    dsimp only
    have hsize : (((m.driverAgg e (-1)).updEtw key (·.setSize size)).driverAgg
        (e.setSize size) 1).places = m.places := by simp
    -- a size that is ignored, one that only the entry takes, and one that the partner
    -- takes
    split_ifs
    · rfl
    · exact hsize
    · split
      · exact hsize
      · split_ifs
        · exact hsize
        · rw [places_sideLine, places_updLive _ fun o => o.spot_setDriverSize size, hsize]

/-- The index of the addresses is not seen. -/
@[simp] theorem places_indexOccupant (id : ℕ) (o : LiveObject) :
    (m.indexOccupant id o).places = m.places := by
  unfold indexOccupant
  split_ifs
  · rfl
  · exact places_updLive id fun o' => o'.spot_setPrevDestroyNs (m.prevDeath o)

@[simp] theorem places_forgetOccupant (o : LiveObject) (ts : ℕ) :
    (m.forgetOccupant o ts).places = m.places := by
  unfold forgetOccupant
  dsimp only
  split_ifs <;> rfl

/-- Nor is the partner of a dying object. -/
@[simp] theorem places_orphanBound (id : ℕ) (o : LiveObject) (ts : ℕ) :
    (m.orphanBound id o ts).places = m.places := by
  unfold orphanBound
  split
  · rfl
  · dsimp only
    rw [places_updLive _ fun o => o.spot_setEtwKey 0]
    split
    · rfl
    · split <;> rfl

/-- A new entry is bound to nothing yet. -/
@[simp] theorem places_storeEtw (libId : ℕ) (e : EtwObj) :
    (m.storeEtw libId e).places = m.places := by
  unfold storeEtw
  dsimp only
  split_ifs <;> rfl

theorem places_onEtwObjectCreated (ts : ℤ) (libId : ℕ) (type : ObjType) (size : ℕ)
    (group : Group) : (m.onEtwObjectCreated ts libId type size group).places = m.places := by
  unfold onEtwObjectCreated
  split
  · rfl
  · refine (places_storeEtw libId _).trans ?_
    exact places_driverAgg _ 1

/-- An object whose entry goes away keeps its location. -/
@[simp] theorem places_unkey (key : ℕ) (e : EtwObj) : (m.unkey key e).places = m.places := by
  rcases m.unkey_cases key e with hsame | hcut
  · rw [hsame]
  · rw [hcut, places_updLive _ fun o => o.spot_setEtwKey 0]

@[simp] theorem places_dropEtw (key : ℕ) (e : EtwObj) : (m.dropEtw key e).places = m.places := by
  unfold dropEtw
  dsimp only
  split_ifs
  · exact places_driverAgg e (-1)
  · exact places_driverAgg e (-1)

/-- The state of the process is not seen. -/
@[simp] theorem places_pollChildLocked (env : Env) : (m.pollChildLocked env).places = m.places := by
  have hmark : ∀ now code, (m.markExiting now code).places = m.places := by
    intro now code
    exact places_sideLine _
  unfold pollChildLocked
  dsimp only
  split_ifs
  · rfl
  · split
    · rfl
    · split_ifs
      · rfl
      · exact hmark _ _
  · exact hmark _ _

@[simp] theorem places_afterChildExitLocked (env : Env) (ts : ℕ) :
    (m.afterChildExitLocked env ts).2.places = m.places := by
  unfold afterChildExitLocked
  dsimp only
  split_ifs
  · exact places_pollChildLocked env
  · rfl

@[simp] theorem places_residencyLine (ts libId : ℕ) (type : ObjType) (op : ResidencyOp) :
    (m.residencyLine ts libId type op).places = m.places := by
  unfold residencyLine
  split <;> exact places_sideLine _

/-- Paging is counted, and moves no object to another group. -/
@[simp] theorem places_countResidency (ts libId : ℕ) (type : ObjType) (op : ResidencyOp) :
    (m.countResidency ts libId type op).places = m.places := by
  cases op with
  | makeResident => rfl
  | evict => rfl
  | pageIn => exact places_residencyLine ts libId type _
  | pageOut => exact places_residencyLine ts libId type _

/-- What expires is a wait. -/
theorem places_expirePending (nowMs : ℕ) (q : List ℕ) (m : Model) :
    (expirePending nowMs q m).places = m.places := by
  induction q generalizing m with
  | nil => rfl
  | cons k q ih =>
    unfold expirePending
    split
    · exact ih m
    · split_ifs
      · exact ih m
      · rfl
      · exact ih _

/-- What is forgotten is dead already. -/
theorem places_forgetDead (nowTs : ℕ) (q : List (ℕ × ℕ)) (m : Model) :
    (forgetDead nowTs q m).places = m.places := by
  induction q generalizing m with
  | nil => rfl
  | cons x q ih =>
    unfold forgetDead
    split_ifs
    · dsimp only
      split
      · exact ih m
      · exact ih _
    · rfl

/-- **A tick moves nothing.** -/
@[simp] theorem places_etwTick (env : Env) (st : Stats) : (m.etwTick env st).places = m.places := by
  have hqueues : ∀ r : Model, (forgetDead (nowTsLocked r env) r.destroyHist r).places = r.places :=
    fun r => places_forgetDead _ _ r
  unfold etwTick
  dsimp only
  split_ifs
  · rfl
  · rw [hqueues, places_expirePending]
    rfl
  · rw [places_sideLine]
    exact (hqueues _).trans (places_expirePending _ _ _)
  · exact (hqueues _).trans (places_expirePending _ _ _)

/-- Neither does the last line. -/
@[simp] theorem places_finishEtw (env : Env) (st : Stats) :
    (m.finishEtw env st).places = m.places := by
  unfold finishEtw
  dsimp only
  split_ifs
  · rfl
  · exact places_sideLine _
  · rfl

end Unseen

end Model

/-! ### The invariant -/

/-- The payload of a `created` record. -/
def Step.createdPayload : Step → Option CreatedPayload
  | .event _ (.created p) => some p
  | _ => none

/-- The payloads of the `created` records of a run. -/
def createdPayloads (xs : List Step) : List CreatedPayload := xs.filterMap Step.createdPayload

/-- The payloads of a run and of the run after it. -/
theorem createdPayloads_append (xs ys : List Step) :
    createdPayloads (xs ++ ys) = createdPayloads xs ++ createdPayloads ys := List.filterMap_append

/-- Their ids are the created ids. -/
theorem map_id_createdPayloads (xs : List Step) :
    (createdPayloads xs).map CreatedPayload.id = createdIds xs := by
  have hid : ∀ x : Step, x.createdPayload.map CreatedPayload.id = x.createdId := by
    intro x
    cases x with
    | event ts r => cases r <;> rfl
    | _ => rfl
  unfold createdPayloads createdIds
  rw [List.map_filterMap]
  exact congrArg (fun f => xs.filterMap f) (funext hid)

/-- The parent of a placed resource, if it is ever created, is a heap. -/
def ParentsAreHeaps (ps : List CreatedPayload) : Prop :=
  ∀ p ∈ ps, p.alloc = .placed → p.parentHeapId ≠ 0 →
    ∀ q ∈ ps, q.id = p.parentHeapId → q.type = .heap

instance (ps : List CreatedPayload) : Decidable (ParentsAreHeaps ps) :=
  inferInstanceAs (Decidable (∀ p ∈ ps, _ → _ → ∀ q ∈ ps, _ → _))

/-- What holds of all the records holds of the first ones. -/
theorem ParentsAreHeaps.of_append {ps qs : List CreatedPayload} (h : ParentsAreHeaps (ps ++ qs)) :
    ParentsAreHeaps ps := fun p hp halloc hne q hq =>
  h p (List.mem_append_left qs hp) halloc hne q (List.mem_append_left qs hq)

/-- No allocation is the kind with index 0. -/
theorem AllocationKind.eq_none_iff (a : AllocationKind) : a = .none ↔ a.index = 0 := by
  constructor
  · rintro rfl
    rfl
  · intro h
    have hraw : a.raw = 0 := UInt8.toNat_inj.mp h
    cases a
    rw [AllocationKind.none, ← hraw]

namespace Model

/-- **The location bookkeeping is right**, but for the cached locations of the
objects in `stale`; `ps` are the payloads of the `created` records so far. -/
structure Located (ps : List CreatedPayload) (stale : Set ℕ) (m : Model) : Prop where
  live_id : ∀ id o, m.live.lookup id = some o → o.id = id
  origin : ∀ id o, m.live.lookup id = some o →
    ∃ p ∈ ps, p.id = id ∧ p.type = o.type ∧ p.alloc = o.alloc ∧ p.parentHeapId = o.parentHeapId
  cached : ∀ id o, id ∉ stale → m.live.lookup id = some o → o.effLoc = (m.effLoc o).1
  counted : ∀ h l, m.s.etw.locBytes h l = m.live.sumBy locCell memSize (h, l)
  fits : m.live.sum (·.sizeBytes) < 2 ^ 64
  /-- The index of a heap's children lists only objects placed in it. -/
  kids_of : ∀ p c, c ∈ m.kids p → c ∈ ps.map CreatedPayload.id ∧
    ∀ o, m.live.lookup c = some o → o.Placed ∧ o.parentHeapId = p
  /-- It lists all of them, unless the heap is dead. -/
  kids_mem : ∀ c o, m.live.lookup c = some o → o.Placed →
    (o.parentHeapId ∈ ps.map CreatedPayload.id → (m.live.lookup o.parentHeapId).isSome) →
    c ∈ m.kids o.parentHeapId

/-- The own location of the object `q`, unknown if it is not live. -/
def ownAt (m : Model) (q : ℕ) : MemLoc := ((m.live.lookup q).map LiveObject.ownLoc).getD .unknown

/-- A placed resource is where its heap is, as soon as that is known; everything
else is where its own group says. -/
theorem effLoc_eq (m : Model) (o : LiveObject) :
    m.effLoc o = if o.Placed ∧ m.ownAt o.parentHeapId ≠ .unknown
      then (m.ownAt o.parentHeapId, true) else (o.ownLoc, false) := by
  unfold effLoc ownAt
  by_cases hp : o.Placed
  · have hp' : o.alloc = .placed ∧ o.parentHeapId ≠ 0 := hp
    rw [if_pos hp']
    cases m.live.lookup o.parentHeapId with
    | none => simp
    | some a => simp [hp]
  · have hnot : ¬(o.alloc = .placed ∧ o.parentHeapId ≠ 0) := hp
    rw [if_neg hnot, if_neg fun h => hp h.1]

/-- The location of an object depends on the own locations only. -/
theorem effLoc_congr {m n : Model} {o o' : LiveObject}
    (hown : o'.Placed → n.ownAt o'.parentHeapId = m.ownAt o'.parentHeapId)
    (ho : o'.alloc = o.alloc ∧ o'.parentHeapId = o.parentHeapId ∧ o'.ownLoc = o.ownLoc) :
    n.effLoc o' = m.effLoc o := by
  obtain ⟨halloc, hparent, hloc⟩ := ho
  have hplaced : o'.Placed ↔ o.Placed := by
    unfold LiveObject.Placed
    rw [halloc, hparent]
  rw [effLoc_eq, effLoc_eq]
  by_cases hp : o'.Placed
  · have hq := hown hp
    rw [hparent] at hq
    simp only [hp, hplaced.mp hp, hparent, hq, hloc]
  · rw [if_neg fun h => hp h.1, if_neg fun h => hp (hplaced.mpr h.1), hloc]

/-- The own location of an object that was not written to. -/
theorem ownAt_congr {m m' : Model} {q : ℕ}
    (h : (m'.live.lookup q).map LiveObject.ownLoc = (m.live.lookup q).map LiveObject.ownLoc) :
    m'.ownAt q = m.ownAt q := by
  unfold ownAt
  rw [h]

/-- Two models with the same places have the same objects, but for what is not
seen. -/
theorem lookup_of_places {m m' : Model} (hp : m'.places = m.places) {id : ℕ} {o' : LiveObject}
    (h : m'.live.lookup id = some o') :
    ∃ o, m.live.lookup id = some o ∧ o.spot = o'.spot := by
  have hid : m'.places.live id = m.places.live id := by rw [hp]
  rw [places_live, places_live, h] at hid
  exact Option.map_eq_some_iff.mp hid.symm

/-- In particular the own locations. -/
theorem own_of_places {m m' : Model} (hp : m'.places = m.places) (q : ℕ) :
    (m'.live.lookup q).map LiveObject.ownLoc = (m.live.lookup q).map LiveObject.ownLoc := by
  have hq : m'.places.live q = m.places.live q := by rw [hp]
  have := congrArg (Option.map LiveObject.ownLoc) hq
  rwa [places_live, places_live, Option.map_map, Option.map_map] at this

/-- And the same ids are alive. -/
theorem lookup_isSome_of_places {m m' : Model} (hp : m'.places = m.places) (q : ℕ) :
    (m'.live.lookup q).isSome = (m.live.lookup q).isSome := by
  have := congrArg Option.isSome (own_of_places hp q)
  rwa [Option.isSome_map, Option.isSome_map] at this

/-- The invariant reads the places only. -/
theorem Located.of_places {ps : List CreatedPayload} {stale : Set ℕ} {m m' : Model}
    (h : Located ps stale m) (hp : m'.places = m.places) : Located ps stale m' := by
  have hkids : m'.kids = m.kids := congrArg Places.kids hp
  have hbytes : m'.s.etw.locBytes = m.s.etw.locBytes := congrArg Places.locBytes hp
  have hview : ∀ q, (m'.live.lookup q).map LiveObject.spot
      = (m.live.lookup q).map LiveObject.spot := fun q => congrFun (congrArg Places.live hp) q
  constructor
  case live_id =>
    intro id o' ho'
    obtain ⟨o, ho, hs⟩ := lookup_of_places hp ho'
    rw [← (LiveObject.spot_inj hs).1]
    exact h.live_id id o ho
  case origin =>
    intro id o' ho'
    obtain ⟨o, ho, hs⟩ := lookup_of_places hp ho'
    obtain ⟨-, htype, halloc, hparent, -, -⟩ := LiveObject.spot_inj hs
    rw [← htype, ← halloc, ← hparent]
    exact h.origin id o ho
  case cached =>
    intro id o' hid ho'
    obtain ⟨o, ho, hs⟩ := lookup_of_places hp ho'
    obtain ⟨-, -, halloc, hparent, hown, heff⟩ := LiveObject.spot_inj hs
    have hloc := effLoc_congr (fun _ => ownAt_congr (own_of_places hp _))
      ⟨halloc.symm, hparent.symm, hown.symm⟩
    rw [← heff, hloc]
    exact h.cached id o hid ho
  case counted =>
    intro b l
    rw [hbytes, h.counted b l]
    exact (Finmap.sumBy_eq_of_view locCell memSize hview (b, l)).symm
  case fits =>
    have hsum : m'.live.sum (fun o => o.sizeBytes) = m.live.sum fun o => o.sizeBytes :=
      Finmap.sum_eq_of_view (f := fun o : LiveObject => o.sizeBytes) (g := LiveObject.spot) hview
    rw [hsum]
    exact h.fits
  case kids_of =>
    intro p c hc
    rw [hkids] at hc
    obtain ⟨hmem, hall⟩ := h.kids_of p c hc
    refine ⟨hmem, fun o' ho' => ?_⟩
    obtain ⟨o, ho, hs⟩ := lookup_of_places hp ho'
    obtain ⟨-, -, halloc, hparent, -, -⟩ := LiveObject.spot_inj hs
    have hplaced := hall o ho
    rwa [LiveObject.Placed, halloc, hparent] at hplaced
  case kids_mem =>
    intro c o' ho' hplaced hheap
    obtain ⟨o, ho, hs⟩ := lookup_of_places hp ho'
    obtain ⟨-, -, halloc, hparent, -, -⟩ := LiveObject.spot_inj hs
    rw [lookup_isSome_of_places hp] at hheap
    rw [LiveObject.Placed, ← halloc, ← hparent] at hplaced
    rw [← hparent] at hheap ⊢
    rw [hkids]
    exact h.kids_mem c o ho hplaced hheap

/-- Fewer objects are stale than is claimed. -/
theorem Located.mono {ps : List CreatedPayload} {stale stale' : Set ℕ} {m : Model}
    (h : Located ps stale m)
    (hsub : ∀ id o, m.live.lookup id = some o → id ∈ stale → id ∉ stale' →
      o.effLoc = (m.effLoc o).1) : Located ps stale' m where
  live_id := h.live_id
  origin := h.origin
  cached := by
    intro id o hid ho
    by_cases hs : id ∈ stale
    · exact hsub id o ho hs hid
    · exact h.cached id o hs ho
  counted := h.counted
  fits := h.fits
  kids_of := h.kids_of
  kids_mem := h.kids_mem

/-! ### Counting an object -/

/-- To count an object changes no object. -/
@[simp] theorem live_addLoc (m : Model) (o : LiveObject) (sign : ℤ) :
    (m.addLoc o sign).live = m.live := by
  unfold addLoc
  split_ifs <;> rfl

@[simp] theorem kids_addLoc (m : Model) (o : LiveObject) (sign : ℤ) :
    (m.addLoc o sign).kids = m.kids := by
  unfold addLoc
  split_ifs <;> rfl

/-- A cell of the table that is set. -/
theorem setCell_apply (t : ℕ → MemLoc → ℕ) (c : ℕ × MemLoc) (v b : ℕ) (l : MemLoc) :
    setCell t c.1 c.2 v b l = if c = (b, l) then v else t b l := by
  unfold setCell
  by_cases hc : c = (b, l)
  · rw [if_pos hc, if_pos (by simp [hc])]
  · rw [if_neg hc, if_neg]
    rintro ⟨h₁, h₂⟩
    exact hc (Prod.ext h₁.symm h₂.symm)

/-- An object leaves its cell; the subtraction stops at zero. -/
theorem locBytes_addLoc_sub (m : Model) (o : LiveObject) (b : ℕ) (l : MemLoc) :
    (m.addLoc o (-1)).s.etw.locBytes b l
      = m.s.etw.locBytes b l - if locCell o = (b, l) then memSize o else 0 := by
  unfold addLoc memSize
  by_cases ha : o.alloc = .none
  · simp [ha]
  · rw [if_neg ha, if_neg ha]
    refine (setCell_apply m.s.etw.locBytes (locCell o) _ b l).trans ?_
    by_cases hc : locCell o = (b, l)
    · have hcell : m.s.etw.locBytes (heapBucket o.heapType) o.effLoc = m.s.etw.locBytes b l := by
        obtain ⟨hb, hl⟩ := Prod.mk.inj hc
        rw [hb, hl]
      rw [if_pos hc, if_pos hc, if_neg (by omega), hcell]
      unfold subClamped
      split <;> omega
    · rw [if_neg hc, if_neg hc]
      rfl

/-- An object enters its cell, if there is room in 64 bits. -/
theorem locBytes_addLoc_add (m : Model) (o : LiveObject) (b : ℕ) (l : MemLoc)
    (hfit : m.s.etw.locBytes (heapBucket o.heapType) o.effLoc + memSize o < 2 ^ 64) :
    (m.addLoc o 1).s.etw.locBytes b l
      = m.s.etw.locBytes b l + if locCell o = (b, l) then memSize o else 0 := by
  unfold addLoc
  unfold memSize at hfit ⊢
  by_cases ha : o.alloc = .none
  · simp [ha]
  · rw [if_neg ha] at hfit
    rw [if_neg ha, if_neg ha]
    refine (setCell_apply m.s.etw.locBytes (locCell o) _ b l).trans ?_
    by_cases hc : locCell o = (b, l)
    · have hcell : m.s.etw.locBytes (heapBucket o.heapType) o.effLoc = m.s.etw.locBytes b l := by
        obtain ⟨hb, hl⟩ := Prod.mk.inj hc
        rw [hb, hl]
      rw [if_pos hc, if_pos hc, if_pos (by omega), add64_of_lt hfit, hcell]
    · rw [if_neg hc, if_neg hc]
      rfl

/-! ### Moving an object to its location -/

/-- A move changes one cached location. -/
theorem live_moveLoc (m : Model) (id : ℕ) (o : LiveObject) (l : MemLoc) :
    (m.moveLoc id o l).live = m.live.modify id (·.setEffLoc l) := by
  unfold moveLoc
  rw [live_addLoc]
  show ((m.addLoc o (-1)).live).modify id _ = _
  rw [live_addLoc]

/-- It changes no parent. -/
theorem kids_moveLoc (m : Model) (id : ℕ) (o : LiveObject) (l : MemLoc) :
    (m.moveLoc id o l).kids = m.kids := by
  unfold moveLoc
  rw [kids_addLoc]
  exact kids_addLoc m o (-1)

/-- It changes no own location, so nothing else becomes stale. -/
theorem own_moveLoc (m : Model) (id : ℕ) (o : LiveObject) (l : MemLoc) (q : ℕ) :
    ((m.moveLoc id o l).live.lookup q).map LiveObject.ownLoc
      = (m.live.lookup q).map LiveObject.ownLoc := by
  rw [live_moveLoc]
  exact Finmap.map_lookup_modify (f := (·.setEffLoc l)) (g := LiveObject.ownLoc) id q
    (fun _ => rfl) m.live

/-- The sum over the live objects moves from one cell to another. -/
theorem counted_moveLoc {m : Model} {id : ℕ} {o : LiveObject} (ho : m.live.lookup id = some o)
    (hcounted : ∀ b l, m.s.etw.locBytes b l = m.live.sumBy locCell memSize (b, l))
    (hfits : m.live.sum (·.sizeBytes) < 2 ^ 64) (l' : MemLoc) (b : ℕ) (l : MemLoc) :
    (m.moveLoc id o l').s.etw.locBytes b l
      = (m.moveLoc id o l').live.sumBy locCell memSize (b, l) := by
  have hmove : ∀ b l, (if locCell o = (b, l) then memSize o else 0)
      + (m.live.modify id (·.setEffLoc l')).sumBy locCell memSize (b, l)
      = (if locCell (o.setEffLoc l') = (b, l) then memSize o else 0)
        + m.live.sumBy locCell memSize (b, l) :=
    fun b l => Finmap.sumBy_modify_add locCell memSize (·.setEffLoc l') ho (b, l)
  have hout : ∀ b l, (if locCell o = (b, l) then memSize o else 0)
      ≤ m.live.sumBy locCell memSize (b, l) := fun b l =>
    Nat.le.intro (Finmap.sumBy_erase_add locCell memSize ho (b, l))
  -- a move keeps the sum over all cells
  have hall : (m.live.modify id (·.setEffLoc l')).sum memSize < 2 ^ 64 := by
    have hsame := Finmap.sum_modify_add memSize (·.setEffLoc l') ho
    have hw : memSize (o.setEffLoc l') = memSize o := rfl
    have hle := Finmap.sum_le_sum (f := memSize) (g := fun o => o.sizeBytes) (t := m.live)
      fun _ v _ => memSize_le v
    omega
  -- the cell the object moves to holds at most the sum of all sizes afterwards
  have hfit : (m.addLoc o (-1)).s.etw.locBytes (heapBucket o.heapType) l' + memSize o < 2 ^ 64 := by
    have hcell := Finmap.sumBy_le_sum locCell memSize (m.live.modify id (·.setEffLoc l'))
      (heapBucket o.heapType, l')
    have hm := hmove (heapBucket o.heapType) l'
    have ho' := hout (heapBucket o.heapType) l'
    rw [if_pos (show locCell (o.setEffLoc l') = (heapBucket o.heapType, l') from rfl)] at hm
    rw [locBytes_addLoc_sub, hcounted]
    omega
  rw [live_moveLoc]
  refine (locBytes_addLoc_add ((m.addLoc o (-1)).updLive id (·.setEffLoc l'))
    (o.setEffLoc l') b l hfit).trans ?_
  have hsub : ((m.addLoc o (-1)).updLive id (·.setEffLoc l')).s.etw.locBytes b l
      = m.live.sumBy locCell memSize (b, l) - if locCell o = (b, l) then memSize o else 0 :=
    (locBytes_addLoc_sub m o b l).trans (by rw [hcounted])
  have hw : memSize (o.setEffLoc l') = memSize o := rfl
  have hm := hmove b l
  have ho' := hout b l
  rw [hsub, hw]
  omega

/-- **Moving an object to its location** makes its cached location right. -/
theorem located_moveLoc {ps : List CreatedPayload} {stale : Set ℕ} {m : Model}
    (h : Located ps stale m) {id : ℕ} {o : LiveObject} (ho : m.live.lookup id = some o)
    {l : MemLoc} (hl : (m.effLoc o).1 = l) :
    Located ps (stale \ {id}) (m.moveLoc id o l) := by
  have hlook : ∀ i o', (m.moveLoc id o l).live.lookup i = some o' →
      ∃ a, m.live.lookup i = some a ∧ o' = if i = id then a.setEffLoc l else a := by
    intro i o' ho'
    rw [live_moveLoc, lookup_modify] at ho'
    split at ho'
    · next hi =>
      subst hi
      obtain ⟨a, ha, rfl⟩ := Option.map_eq_some_iff.mp ho'
      exact ⟨a, ha, (if_pos rfl).symm⟩
    · next hi => exact ⟨o', ho', (if_neg hi).symm⟩
  have hsome : ∀ q, ((m.moveLoc id o l).live.lookup q).isSome = (m.live.lookup q).isSome := by
    intro q
    have := congrArg Option.isSome (own_moveLoc m id o l q)
    rwa [Option.isSome_map, Option.isSome_map] at this
  constructor
  case live_id =>
    intro i o' ho'
    obtain ⟨a, ha, rfl⟩ := hlook i o' ho'
    rw [← h.live_id i a ha]
    split <;> rfl
  case origin =>
    intro i o' ho'
    obtain ⟨a, ha, rfl⟩ := hlook i o' ho'
    have horig := h.origin i a ha
    split <;> exact horig
  case cached =>
    intro i o' hi ho'
    obtain ⟨a, ha, rfl⟩ := hlook i o' ho'
    by_cases hid : i = id
    · subst hid
      have hao : a = o := Option.some.inj (ha.symm.trans ho)
      subst hao
      -- a location depends on own locations only, which a move keeps
      have hsame : (m.moveLoc i a l).effLoc (a.setEffLoc l) = m.effLoc a :=
        effLoc_congr (fun _ => ownAt_congr (own_moveLoc m i a l _)) ⟨rfl, rfl, rfl⟩
      rw [if_pos rfl, hsame, hl]
      rfl
    · have hsame : (m.moveLoc id o l).effLoc a = m.effLoc a :=
        effLoc_congr (fun _ => ownAt_congr (own_moveLoc m id o l _)) ⟨rfl, rfl, rfl⟩
      rw [if_neg hid, hsame]
      exact h.cached i a (fun hs => hi ⟨hs, hid⟩) ha
  -- one cell loses the object, the other gains it
  case counted => exact counted_moveLoc ho h.counted h.fits l
  case fits =>
    have hsame := Finmap.sum_modify_add (fun o => o.sizeBytes) (·.setEffLoc l) ho
    have hw : (o.setEffLoc l).sizeBytes = o.sizeBytes := rfl
    have hfits := h.fits
    rw [live_moveLoc]
    omega
  case kids_of =>
    intro p c hc
    rw [kids_moveLoc] at hc
    obtain ⟨hmem, hof⟩ := h.kids_of p c hc
    refine ⟨hmem, fun o' ho' => ?_⟩
    obtain ⟨a, ha, rfl⟩ := hlook c o' ho'
    have hplaced := hof a ha
    split <;> exact hplaced
  case kids_mem =>
    intro c o' ho' hplaced hheap
    obtain ⟨a, ha, rfl⟩ := hlook c o' ho'
    have hparent : (if c = id then a.setEffLoc l else a).parentHeapId = a.parentHeapId := by
      split <;> rfl
    have hplaced' : a.Placed := by
      split at hplaced <;> exact hplaced
    rw [hparent, hsome] at hheap
    rw [hparent, kids_moveLoc]
    exact h.kids_mem c a ha hplaced' hheap

/-- The recomputation of a location is at most a move. -/
theorem places_recomputeLoc {m : Model} {id : ℕ} {o : LiveObject}
    (ho : m.live.lookup id = some o) (ts : ℕ) (force : Bool) :
    (m.recomputeLoc id ts force).places =
      if (m.effLoc o).1 = o.effLoc then m.places else (m.moveLoc id o (m.effLoc o).1).places := by
  have hline : ∀ (r : Model) (c : Bool) (l : SideLine),
      (if c then (r.updLive id (·.setLocReported true)).sideLine l else r).places = r.places := by
    intro r c l
    split
    · rw [places_sideLine, places_updLive _ fun o => o.spot_setLocReported true]
    · rfl
  unfold recomputeLoc
  rw [ho]
  dsimp only
  rw [hline]
  by_cases hc : (m.effLoc o).1 = o.effLoc
  · simp [hc]
  · simp [hc]

/-- **Recomputing a location makes the cached one right.** -/
theorem located_recomputeLoc {ps : List CreatedPayload} {stale : Set ℕ} {m : Model}
    (h : Located ps stale m) (id ts : ℕ) (force : Bool) :
    Located ps (stale \ {id}) (m.recomputeLoc id ts force) := by
  cases ho : m.live.lookup id with
  | none =>
    have hnop : m.recomputeLoc id ts force = m := by
      unfold recomputeLoc
      rw [ho]
    rw [hnop]
    refine h.mono fun i o hi hs hns => ?_
    have hid : i = id := by
      by_contra hne
      exact hns ⟨hs, hne⟩
    rw [hid, ho] at hi
    cases hi
  | some o =>
    have hp := places_recomputeLoc ho ts force
    by_cases hc : (m.effLoc o).1 = o.effLoc
    · rw [if_pos hc] at hp
      refine Located.of_places (h.mono fun i a hi hs hns => ?_) hp
      have hid : i = id := by
        by_contra hne
        exact hns ⟨hs, hne⟩
      subst hid
      rw [ho] at hi
      cases hi
      exact hc.symm
    · rw [if_neg hc] at hp
      exact (located_moveLoc h ho rfl).of_places hp

/-- **The children of a heap are made right one by one.** -/
theorem located_recomputeChildren {ps : List CreatedPayload} {stale : Set ℕ} {m : Model}
    (h : Located ps stale m) (p ts : ℕ) :
    Located ps (stale \ {c | c ∈ m.kids p}) (m.recomputeChildren p ts) := by
  have hfold : ∀ (kids : List ℕ) (stale : Set ℕ) (r : Model), Located ps stale r →
      Located ps (stale \ {c | c ∈ kids})
        (kids.foldl (fun m c => m.recomputeLoc c ts false) r) := by
    intro kids
    induction kids with
    | nil =>
      intro stale r hr
      simpa using hr
    | cons c kids ih =>
      intro stale r hr
      have hnext := ih _ _ (located_recomputeLoc hr c ts false)
      have hset : (stale \ {c}) \ {x | x ∈ kids} = stale \ {x | x ∈ c :: kids} := by
        ext x
        simp only [Set.mem_sdiff, Set.mem_singleton_iff, Set.mem_ofPred_eq, List.mem_cons]
        tauto
      rw [hset] at hnext
      exact hnext
  exact hfold (m.kids p) stale m h

/-- A recomputation changes no parent. -/
theorem kids_recomputeLoc (m : Model) (id ts : ℕ) (force : Bool) :
    (m.recomputeLoc id ts force).kids = m.kids := by
  have hchildren : (m.recomputeLoc id ts force).children = m.children :=
    congrArg (fun v => v.rest.children) (sansLoc_recomputeLoc m id ts force)
  unfold kids
  rw [hchildren]

/-! ### A new own location -/

/-- The objects placed in `id`. -/
def PlacedIn (m : Model) (id : ℕ) : Set ℕ :=
  {c | ∃ o, m.live.lookup c = some o ∧ o.Placed ∧ o.parentHeapId = id}

/-- A new own location makes the object and what is placed in it stale. -/
theorem located_setOwnLoc {ps : List CreatedPayload} {m : Model} (h : Located ps ∅ m)
    (id : ℕ) (g : MemLoc) :
    Located ps ({id} ∪ m.PlacedIn id) (m.updLive id (·.setOwnLoc g)) := by
  have hlook : ∀ i o', (m.updLive id (·.setOwnLoc g)).live.lookup i = some o' →
      ∃ a, m.live.lookup i = some a ∧ o' = if i = id then a.setOwnLoc g else a := by
    intro i o' ho'
    change (m.live.modify id (·.setOwnLoc g)).lookup i = some o' at ho'
    rw [lookup_modify] at ho'
    split at ho'
    · next hi =>
      subst hi
      obtain ⟨a, ha, rfl⟩ := Option.map_eq_some_iff.mp ho'
      exact ⟨a, ha, (if_pos rfl).symm⟩
    · next hi => exact ⟨o', ho', (if_neg hi).symm⟩
  have hview : ∀ i, ((m.updLive id (·.setOwnLoc g)).live.lookup i).map
      (fun o => (o.id, o.sizeBytes, locCell o, memSize o))
      = (m.live.lookup i).map fun o => (o.id, o.sizeBytes, locCell o, memSize o) := by
    intro i
    exact Finmap.map_lookup_modify (f := (·.setOwnLoc g))
      (g := fun o : LiveObject => (o.id, o.sizeBytes, locCell o, memSize o)) id i (fun _ => rfl)
      m.live
  have hsome : ∀ q, ((m.updLive id (·.setOwnLoc g)).live.lookup q).isSome
      = (m.live.lookup q).isSome := by
    intro q
    have := congrArg Option.isSome (hview q)
    rwa [Option.isSome_map, Option.isSome_map] at this
  constructor
  case live_id =>
    intro i o' ho'
    obtain ⟨a, ha, rfl⟩ := hlook i o' ho'
    rw [← h.live_id i a ha]
    split <;> rfl
  case origin =>
    intro i o' ho'
    obtain ⟨a, ha, rfl⟩ := hlook i o' ho'
    have horig := h.origin i a ha
    split <;> exact horig
  case cached =>
    intro i o' hi ho'
    obtain ⟨a, ha, rfl⟩ := hlook i o' ho'
    have hid : i ≠ id := fun heq => hi (Or.inl heq)
    rw [if_neg hid, h.cached i a (Set.notMem_empty i) ha]
    -- the parent heap of an object that is not stale is not `id`
    refine congrArg Prod.fst (effLoc_congr (fun hp => ?_) ⟨rfl, rfl, rfl⟩)
    have hne : a.parentHeapId ≠ id := fun heq => hi (Or.inr ⟨a, ha, hp, heq⟩)
    have hsame : (m.updLive id (·.setOwnLoc g)).live.lookup a.parentHeapId
        = m.live.lookup a.parentHeapId := Finmap.lookup_modify_of_ne hne _ m.live
    unfold ownAt
    rw [hsame]
  case counted =>
    intro b l
    refine (h.counted b l).trans (Finmap.sumBy_eq_of_view
      (fun x : ℕ × ℕ × (ℕ × MemLoc) × ℕ => x.2.2.1) (fun x => x.2.2.2) hview (b, l)).symm
  case fits =>
    have hsum := Finmap.sum_eq_of_view (f := fun x : ℕ × ℕ × (ℕ × MemLoc) × ℕ => x.2.1) hview
    have hfits := h.fits
    dsimp only at hsum
    omega
  case kids_of =>
    intro p c hc
    obtain ⟨hmem, hof⟩ := h.kids_of p c hc
    refine ⟨hmem, fun o' ho' => ?_⟩
    obtain ⟨a, ha, rfl⟩ := hlook c o' ho'
    have hplaced := hof a ha
    split <;> exact hplaced
  case kids_mem =>
    intro c o' ho' hplaced hheap
    obtain ⟨a, ha, rfl⟩ := hlook c o' ho'
    have hparent : (if c = id then a.setOwnLoc g else a).parentHeapId = a.parentHeapId := by
      split <;> rfl
    have hplaced' : a.Placed := by
      split at hplaced <;> exact hplaced
    rw [hparent, hsome] at hheap
    rw [hparent]
    exact h.kids_mem c a ha hplaced' hheap

/-- What is placed in a live object is placed in a heap, and indexed. -/
theorem Located.placedIn {ps : List CreatedPayload} {stale : Set ℕ} {m : Model}
    (h : Located ps stale m) (hheaps : ParentsAreHeaps ps) {id c : ℕ} {o : LiveObject}
    (ho : m.live.lookup id = some o) (hc : c ∈ m.PlacedIn id) :
    o.type = .heap ∧ c ∈ m.kids id := by
  obtain ⟨a, ha, hplaced, hparent⟩ := hc
  obtain ⟨q, hq, hqid, hqtype, -, -⟩ := h.origin id o ho
  obtain ⟨p, hp, -, -, hpalloc, hpparent⟩ := h.origin c a ha
  have hne : p.parentHeapId ≠ 0 := hpparent.trans_ne hplaced.2
  have hpq : q.id = p.parentHeapId := hqid.trans (hpparent.trans hparent).symm
  have htype := hheaps p hp (hpalloc.trans hplaced.1) hne q hq hpq
  refine ⟨hqtype.symm.trans htype, ?_⟩
  have hmem := h.kids_mem c a ha hplaced (by rw [hparent, ho]; exact fun _ => rfl)
  rwa [hparent] at hmem

/-- **A new own location followed by the recomputations** leaves nothing stale. -/
theorem located_relocate {ps : List CreatedPayload} {m : Model} (h : Located ps ∅ m)
    (hheaps : ParentsAreHeaps ps) {id : ℕ} {o : LiveObject} (ho : m.live.lookup id = some o)
    (g : MemLoc) (ts : ℕ) (force : Bool) :
    Located ps ∅
      (if o.type = .heap then
        ((m.updLive id (·.setOwnLoc g)).recomputeLoc id ts force).recomputeChildren o.id ts
      else (m.updLive id (·.setOwnLoc g)).recomputeLoc id ts force) := by
  have hself := located_recomputeLoc (located_setOwnLoc h id g) id ts force
  have hoid : o.id = id := h.live_id id o ho
  -- the object itself is right again, and a heap's children are recomputed as well
  split
  · have hkids := located_recomputeChildren hself o.id ts
    refine hkids.mono fun i a _ hs _ => ?_
    rw [kids_recomputeLoc, hoid] at hs
    obtain ⟨⟨hi | hi, hne⟩, hnk⟩ := hs
    · exact absurd hi hne
    · exact absurd (h.placedIn hheaps ho hi).2 hnk
  · next hheap =>
    refine hself.mono fun i a _ hs _ => ?_
    obtain ⟨hi | hi, hne⟩ := hs
    · exact absurd hi hne
    · exact absurd (h.placedIn hheaps ho hi).1 hheap

/-! ### The join -/

section Join

variable {ps : List CreatedPayload} {m : Model}

/-- **A binding leaves nothing stale.** -/
theorem located_bind (h : Located ps ∅ m) (hheaps : ParentsAreHeaps ps) (key id ts : ℕ) :
    Located ps ∅ (m.bind key id ts) := by
  unfold bind
  cases he : m.etwObjs.lookup key with
  | none => exact h
  | some e =>
    cases ho : m.live.lookup id with
    | none => exact h
    | some o =>
      dsimp only
      -- the object takes the group of its ETW object, and moves
      have hmove : ∀ r : Model, r.places = m.places → Located ps ∅
          (if o.type = .heap then
            ((r.updLive id (·.setOwnLoc e.group)).recomputeLoc id ts
              (!o.locReported)).recomputeChildren o.id ts
          else (r.updLive id (·.setOwnLoc e.group)).recomputeLoc id ts (!o.locReported)) := by
        intro r hr
        obtain ⟨o₁, ho₁, hs⟩ := lookup_of_places hr.symm ho
        obtain ⟨hid, htype, -⟩ := LiveObject.spot_inj hs
        have hrel := located_relocate (h.of_places hr) hheaps ho₁ e.group ts (!o.locReported)
        rwa [hid, htype] at hrel
      -- the binding itself is no change of place
      have hbound : ((((((m.unbindOther key o).updEtw key fun e =>
          (e.setBoundId o.id).setPending 0).updLive id (·.setEtwKey key)).updStats fun t =>
            { t with binds := t.binds + 1 }).sideLine
              (.etwBind ts o.id key e.type o.objectPtr false))).places = m.places := by
        rw [places_sideLine]
        refine (places_updLive id fun o => o.spot_setEtwKey key).trans ?_
        rw [places_updEtw, places_unbindOther]
      have hsize : ∀ r : Model, (if isDriverType e.type then
          if e.size ≠ 0 then
            (r.updLive id (·.setDriverSize e.size)).sideLine (.driverSize ts o.id e.size)
          else r.updLive id (·.setDriverSize e.size)
          else r).places = r.places := by
        intro r
        split_ifs
        · rw [places_sideLine, places_updLive _ fun o => o.spot_setDriverSize e.size]
        · rw [places_updLive _ fun o => o.spot_setDriverSize e.size]
        · rfl
      exact (hmove _ hbound).of_places (hsize _)

/-- An attempt to bind moves something only if it binds. -/
theorem located_tryBindEtw (h : Located ps ∅ m) (hheaps : ParentsAreHeaps ps) (env : Env)
    (key ts : ℕ) : Located ps ∅ (m.tryBindEtw env key ts) := by
  rcases m.tryBindEtw_cases env key ts with hsame | ⟨e, -, ⟨id, -, hbind⟩ | ⟨x, hlate⟩ | hwait⟩
  · rw [hsame]
    exact h
  · rw [hbind]
    exact located_bind h hheaps key id ts
  · rw [hlate]
    exact h.of_places (places_attributeLate key ts e x)
  · rw [hwait]
    exact h.of_places (places_waitForObject env key e)

/-- **A new group moves the partner**, and what is placed in it. -/
theorem located_applyGroup (h : Located ps ∅ m) (hheaps : ParentsAreHeaps ps) (key : ℕ)
    (g : MemLoc) (ts : ℕ) : Located ps ∅ (m.applyGroup key g ts) := by
  have hg : Located ps ∅ (m.updEtw key (·.setGroup g)) := h.of_places rfl
  unfold applyGroup
  split
  · exact h
  · next e _ =>
    dsimp only
    split
    · exact hg
    · split
      · exact hg
      · next o ho => exact located_relocate hg hheaps ho g ts false

/-- A re-report brings its group along, and may bind. -/
theorem located_foldRundown (h : Located ps ∅ m) (hheaps : ParentsAreHeaps ps) (env : Env)
    (key : ℕ) (e : EtwObj) (into : ℕ) (old : EtwObj) :
    Located ps ∅ (m.foldRundown env key e into old) := by
  have hsize : ∀ r : Model, Located ps ∅ r →
      Located ps ∅ (if e.size ≠ 0 then r.applySize into e.size e.createdTs else r) := by
    intro r hr
    split
    · exact hr.of_places (places_applySize into e.size e.createdTs)
    · exact hr
  have hgroup : ∀ r : Model, Located ps ∅ r →
      Located ps ∅ (if e.group ≠ .unknown ∧ e.group ≠ old.group then
        r.applyGroup into e.group e.createdTs else r) := by
    intro r hr
    split
    · exact located_applyGroup hr hheaps into e.group e.createdTs
    · exact hr
  have hagg : ∀ r : Model, Located ps ∅ r → Located ps ∅ (r.driverAgg e (-1)) :=
    fun r hr => hr.of_places (places_driverAgg e (-1))
  have hfolded : ∀ r : Model, Located ps ∅ r → Located ps ∅
      (((r.setEtwObjs (r.etwObjs.erase key)).updEtw into (·.addAlias key)).setEtwAlias
        (r.etwAlias.insert key into)) := fun r hr => hr.of_places rfl
  unfold foldRundown
  refine located_tryBindEtw ?_ hheaps env into e.createdTs
  exact hfolded _ (hagg _ (hgroup _ (hsize _ (h.of_places rfl))))

/-- An address may bind. -/
theorem located_takeAddress (h : Located ps ∅ m) (hheaps : ParentsAreHeaps ps) (env : Env)
    (key : ℕ) (e : EtwObj) (address : ℕ) : Located ps ∅ (m.takeAddress env key e address) := by
  unfold takeAddress
  refine located_tryBindEtw (h.of_places ?_) hheaps env key e.createdTs
  exact places_sideLine _

/-- **An address leaves nothing stale.** -/
theorem located_onEtwObjectAddress (h : Located ps ∅ m) (hheaps : ParentsAreHeaps ps) (env : Env)
    (libId address : ℕ) : Located ps ∅ (m.onEtwObjectAddress env libId address) := by
  rcases m.onEtwObjectAddress_cases env libId address with
    hsame | ⟨key, e, -, -, -, htake | ⟨into, old, -, -, -, -, hfold⟩⟩
  · rw [hsame]
    exact h
  · rw [htake]
    exact located_takeAddress h hheaps env key e address
  · rw [hfold]
    exact located_foldRundown h hheaps env key e into old

/-- The partner of a destroyed entry stays where it was seen last. -/
theorem located_onEtwObjectDestroyed (h : Located ps ∅ m) (ts : ℤ) (libId : ℕ) :
    Located ps ∅ (m.onEtwObjectDestroyed ts libId) := by
  refine h.of_places ?_
  unfold onEtwObjectDestroyed
  split
  · rfl
  · split
    · rfl
    · dsimp only
      rw [places_dropEtw, places_unkey]
      split
      · exact places_sideLine _
      · rfl

/-- A size moves nothing. -/
theorem located_onEtwObjectSize (h : Located ps ∅ m) (ts : ℤ) (libId size : ℕ) :
    Located ps ∅ (m.onEtwObjectSize ts libId size) := by
  refine h.of_places ?_
  unfold onEtwObjectSize
  split
  · rfl
  · split
    · rfl
    · exact places_applySize _ size _

/-- A group change is a new group, unless it is ignored. -/
theorem located_onEtwGroupChange (h : Located ps ∅ m) (hheaps : ParentsAreHeaps ps)
    (c : GroupChange) (env : Env) : Located ps ∅ (m.onEtwGroupChange c env) := by
  have hafter : Located ps ∅ (m.afterChildExitLocked env (m.convTs c.ts)).2 :=
    h.of_places (places_afterChildExitLocked env _)
  unfold onEtwGroupChange
  dsimp only
  split
  · exact hafter.of_places rfl
  · unfold regroup
    dsimp only
    split
    · exact hafter.of_places rfl
    · split
      · refine located_applyGroup ?_ hheaps _ _ _
        exact hafter.of_places rfl
      · exact hafter.of_places rfl

/-- A batch, one by one. -/
theorem located_onEtwGroupChanges (h : Located ps ∅ m) (hheaps : ParentsAreHeaps ps)
    (changes : List (GroupChange × Env)) : Located ps ∅ (m.onEtwGroupChanges changes) := by
  have hfold : ∀ r : Model, Located ps ∅ r →
      Located ps ∅ (changes.foldl (fun m c => m.onEtwGroupChange c.1 c.2) r) := by
    induction changes with
    | nil => exact fun r hr => hr
    | cons c cs ih =>
      intro r hr
      exact ih _ (located_onEtwGroupChange hr hheaps c.1 c.2)
  unfold onEtwGroupChanges
  split
  · exact h
  · exact hfold m h

end Join

/-! ### A new object -/

/-- A placed resource is listed under its heap. -/
theorem kids_addChild (m : Model) (o : LiveObject) (q : ℕ) :
    (m.addChild o).kids q
      = if o.Placed ∧ q = o.parentHeapId then (m.kids q).insert o.id else m.kids q := by
  unfold addChild
  by_cases hp : o.Placed
  · rw [if_pos (show o.alloc = .placed ∧ o.parentHeapId ≠ 0 from hp)]
    show ((m.children.insert o.parentHeapId _).lookup q).getD [] = _
    rw [lookup_insert_eq]
    by_cases hq : q = o.parentHeapId
    · rw [if_pos hq, if_pos ⟨hp, hq⟩, hq]
      rfl
    · rw [if_neg hq, if_neg fun h => hq h.2]
      rfl
  · rw [if_neg (show ¬(o.alloc = .placed ∧ o.parentHeapId ≠ 0) from hp), if_neg fun h => hp h.1]

/-- From `m` to `r` there is one more live object, `o` of the record `p`, which
has no location of its own, and stands in the index of its heap. -/
structure Admitted (m r : Model) (p : CreatedPayload) (o : LiveObject) : Prop where
  dead : m.live.lookup p.id = none
  self : r.live.lookup p.id = some o
  other : ∀ i, i ≠ p.id →
    (r.live.lookup i).map LiveObject.spot = (m.live.lookup i).map LiveObject.spot
  id_eq : o.id = p.id
  type_eq : o.type = p.type
  alloc_eq : o.alloc = p.alloc
  parent_eq : o.parentHeapId = p.parentHeapId
  size_eq : o.sizeBytes = p.sizeBytes
  own : o.ownLoc = .unknown
  kids : ∀ q, r.kids q =
    if o.Placed ∧ q = p.parentHeapId then (m.kids q).insert p.id else m.kids q

namespace Admitted

variable {ps : List CreatedPayload} {m r : Model} {p : CreatedPayload} {o : LiveObject}

/-- The others are what they were, but for the ETW key and the like. -/
theorem lookup_of_ne (ha : Admitted m r p o) {i : ℕ} {a' : LiveObject} (hi : i ≠ p.id)
    (ha' : r.live.lookup i = some a') : ∃ a, m.live.lookup i = some a ∧ a.spot = a'.spot := by
  have := ha.other i hi
  rw [ha'] at this
  exact Option.map_eq_some_iff.mp this.symm

/-- Without the new object the live objects are the old ones. -/
theorem lookup_erase (ha : Admitted m r p o) (i : ℕ) :
    ((r.live.erase p.id).lookup i).map LiveObject.spot
      = (m.live.lookup i).map LiveObject.spot := by
  rw [lookup_erase_eq]
  split
  · next hi => rw [hi, ha.dead]
  · next hi => exact ha.other i hi

/-- A heap that is created after what is placed in it starts with no location. -/
theorem ownAt_eq (ha : Admitted m r p o) (q : ℕ) : r.ownAt q = m.ownAt q := by
  by_cases hq : q = p.id
  · unfold ownAt
    rw [hq, ha.self, ha.dead]
    exact ha.own
  · refine ownAt_congr ?_
    have := congrArg (Option.map LiveObject.ownLoc) (ha.other q hq)
    rwa [Option.map_map, Option.map_map] at this

/-- The new object has its record, the others have theirs. -/
theorem origin (ha : Admitted m r p o) (h : Located ps ∅ m) (i : ℕ) (a' : LiveObject)
    (ha' : r.live.lookup i = some a') : ∃ q ∈ ps ++ [p], q.id = i ∧ q.type = a'.type ∧
      q.alloc = a'.alloc ∧ q.parentHeapId = a'.parentHeapId := by
  by_cases hi : i = p.id
  · rw [hi, ha.self] at ha'
    cases ha'
    exact ⟨p, List.mem_append_right ps (List.mem_singleton.mpr rfl), hi.symm, ha.type_eq.symm,
      ha.alloc_eq.symm, ha.parent_eq.symm⟩
  · obtain ⟨a, hold, hs⟩ := ha.lookup_of_ne hi ha'
    obtain ⟨-, htype, halloc, hparent, -, -⟩ := LiveObject.spot_inj hs
    obtain ⟨q, hq, horig⟩ := h.origin i a hold
    rw [← htype, ← halloc, ← hparent]
    exact ⟨q, List.mem_append_left [p] hq, horig⟩

/-- What is cached stays right, if the location of the new object is. -/
theorem cached (ha : Admitted m r p o) (h : Located ps ∅ m) (ho : o.effLoc = (r.effLoc o).1) (i : ℕ)
    (a' : LiveObject) (ha' : r.live.lookup i = some a') : a'.effLoc = (r.effLoc a').1 := by
  by_cases hi : i = p.id
  · rw [hi, ha.self] at ha'
    cases ha'
    exact ho
  · obtain ⟨a, hold, hs⟩ := ha.lookup_of_ne hi ha'
    obtain ⟨-, -, halloc, hparent, hloc, heff⟩ := LiveObject.spot_inj hs
    have hsame : r.effLoc a' = m.effLoc a :=
      effLoc_congr (fun _ => ha.ownAt_eq _) ⟨halloc.symm, hparent.symm, hloc.symm⟩
    rw [← heff, hsame]
    exact h.cached i a (Set.notMem_empty i) hold

/-- The new object is counted where it is. -/
theorem counted (ha : Admitted m r p o) (h : Located ps ∅ m) (b : ℕ) (l : MemLoc)
    (hadd : r.s.etw.locBytes b l =
      m.s.etw.locBytes b l + if locCell o = (b, l) then memSize o else 0) :
    r.s.etw.locBytes b l = r.live.sumBy locCell memSize (b, l) := by
  have hold : (r.live.erase p.id).sumBy locCell memSize (b, l)
      = m.live.sumBy locCell memSize (b, l) :=
    Finmap.sumBy_eq_of_view locCell memSize ha.lookup_erase (b, l)
  have hnow : (if locCell o = (b, l) then memSize o else 0)
      + (r.live.erase p.id).sumBy locCell memSize (b, l)
      = r.live.sumBy locCell memSize (b, l) :=
    Finmap.sumBy_erase_add locCell memSize ha.self (b, l)
  rw [hadd, h.counted, ← hnow, hold]
  exact Nat.add_comm _ _

/-- The room that was asked for is enough for the new object. -/
theorem fits (ha : Admitted m r p o)
    (hfit : m.live.sum (·.sizeBytes) + p.sizeBytes < 2 ^ 64) :
    r.live.sum (·.sizeBytes) < 2 ^ 64 := by
  have hold : (r.live.erase p.id).sum (fun o => o.sizeBytes) = m.live.sum fun o => o.sizeBytes :=
    Finmap.sum_eq_of_view (f := fun o : LiveObject => o.sizeBytes) (g := LiveObject.spot)
      ha.lookup_erase
  have hnow := Finmap.sum_erase_add (fun o => o.sizeBytes) ha.self
  have hsize := ha.size_eq
  omega

/-- A child that was indexed before. -/
theorem kids_of_old (ha : Admitted m r p o) (h : Located ps ∅ m)
    (hnew : p.id ∉ ps.map CreatedPayload.id) {q c : ℕ} (hc : c ∈ m.kids q) :
    c ∈ (ps ++ [p]).map CreatedPayload.id ∧
      ∀ a', r.live.lookup c = some a' → a'.Placed ∧ a'.parentHeapId = q := by
  obtain ⟨hmem, hof⟩ := h.kids_of q c hc
  rw [List.map_append]
  refine ⟨List.mem_append_left _ hmem, fun a' ha' => ?_⟩
  obtain ⟨a, hold, hs⟩ := ha.lookup_of_ne (fun heq => hnew (heq ▸ hmem)) ha'
  obtain ⟨-, -, halloc, hparent, -, -⟩ := LiveObject.spot_inj hs
  have hplaced := hof a hold
  rwa [LiveObject.Placed, halloc, hparent] at hplaced

/-- What is listed under a heap is placed in it, the new object too. -/
theorem kids_of (ha : Admitted m r p o) (h : Located ps ∅ m)
    (hnew : p.id ∉ ps.map CreatedPayload.id) (q c : ℕ) (hc : c ∈ r.kids q) :
    c ∈ (ps ++ [p]).map CreatedPayload.id ∧
      ∀ a', r.live.lookup c = some a' → a'.Placed ∧ a'.parentHeapId = q := by
  rw [ha.kids] at hc
  split at hc
  · next hq =>
    rcases List.mem_insert_iff.mp hc with rfl | hold
    · refine ⟨by simp, fun a' ha' => ?_⟩
      rw [ha.self] at ha'
      cases ha'
      exact ⟨hq.1, ha.parent_eq.trans hq.2.symm⟩
    · exact ha.kids_of_old h hnew hold
  · exact ha.kids_of_old h hnew hc

/-- What is placed in a heap that lives, or that was never created, is listed
there. -/
theorem kids_mem (ha : Admitted m r p o) (h : Located ps ∅ m)
    (hnew : p.id ∉ ps.map CreatedPayload.id) (c : ℕ) (a' : LiveObject)
    (ha' : r.live.lookup c = some a') (hplaced : a'.Placed)
    (hheap : a'.parentHeapId ∈ (ps ++ [p]).map CreatedPayload.id →
      (r.live.lookup a'.parentHeapId).isSome) : c ∈ r.kids a'.parentHeapId := by
  rw [ha.kids]
  by_cases hi : c = p.id
  · rw [hi, ha.self] at ha'
    cases ha'
    rw [if_pos ⟨hplaced, ha.parent_eq⟩]
    exact List.mem_insert_iff.mpr (Or.inl hi)
  · obtain ⟨a, hold, hs⟩ := ha.lookup_of_ne hi ha'
    obtain ⟨-, -, halloc, hparent, -, -⟩ := LiveObject.spot_inj hs
    rw [LiveObject.Placed, ← halloc, ← hparent] at hplaced
    rw [← hparent] at hheap ⊢
    have hmem : c ∈ m.kids a.parentHeapId := by
      refine h.kids_mem c a hold hplaced fun hq => ?_
      have hne : a.parentHeapId ≠ p.id := fun heq => hnew (heq ▸ hq)
      have hsome := hheap (by rw [List.map_append]; exact List.mem_append_left _ hq)
      have := congrArg Option.isSome (ha.other _ hne)
      rw [Option.isSome_map, Option.isSome_map] at this
      rwa [← this]
    split
    · exact List.mem_insert_iff.mpr (Or.inr hmem)
    · exact hmem

/-- **The bookkeeping with one more object**, if it is located and counted. -/
theorem located (ha : Admitted m r p o) (h : Located ps ∅ m)
    (hnew : p.id ∉ ps.map CreatedPayload.id)
    (hfit : m.live.sum (·.sizeBytes) + p.sizeBytes < 2 ^ 64) (ho : o.effLoc = (r.effLoc o).1)
    (hadd : ∀ b l, r.s.etw.locBytes b l =
      m.s.etw.locBytes b l + if locCell o = (b, l) then memSize o else 0) :
    Located (ps ++ [p]) ∅ r where
  live_id i a' ha' := by
    by_cases hi : i = p.id
    · rw [hi, ha.self] at ha'
      cases ha'
      exact ha.id_eq.trans hi.symm
    · obtain ⟨a, hold, hs⟩ := ha.lookup_of_ne hi ha'
      rw [← (LiveObject.spot_inj hs).1]
      exact h.live_id i a hold
  origin := ha.origin h
  cached i a' _ ha' := ha.cached h ho i a' ha'
  counted b l := ha.counted h b l (hadd b l)
  fits := ha.fits hfit
  kids_of := ha.kids_of h hnew
  kids_mem := ha.kids_mem h hnew

end Admitted

/-- **A new object is indexed, located and counted.** -/
theorem located_admit {ps : List CreatedPayload} {m m₂ : Model} (h : Located ps ∅ m) (ts : ℕ)
    {p : CreatedPayload} (hnew : p.id ∉ ps.map CreatedPayload.id)
    (hlive : ∀ i, m₂.places.live i =
      if i = p.id then some (liveOfCreated ts p).spot else m.places.live i)
    (hkids : ∀ q, m₂.kids q = if (liveOfCreated ts p).Placed ∧ q = p.parentHeapId
      then (m.kids q).insert p.id else m.kids q)
    (hbytes : m₂.s.etw.locBytes = m.s.etw.locBytes)
    (hfit : m.live.sum (·.sizeBytes) + p.sizeBytes < 2 ^ 64)
    {o : LiveObject} (ho : m₂.live.lookup p.id = some o) :
    Located (ps ++ [p]) ∅
      ((m₂.updLive p.id (·.setEffLoc (m₂.effLoc o).1)).addLoc
        (o.setEffLoc (m₂.effLoc o).1) 1) := by
  set l := (m₂.effLoc o).1
  set r := (m₂.updLive p.id (·.setEffLoc l)).addLoc (o.setEffLoc l) 1 with hr
  have hspot : o.spot = (liveOfCreated ts p).spot := by
    have := hlive p.id
    rw [places_live, ho, if_pos rfl] at this
    exact Option.some.inj this
  obtain ⟨hoid, hotype, hoalloc, hoparent, hoown, -⟩ := LiveObject.spot_inj hspot
  have hrlive : r.live = m₂.live.modify p.id (·.setEffLoc l) := live_addLoc _ _ 1
  have ha : Admitted m r p (o.setEffLoc l) :=
    { dead := by
        cases hm : m.live.lookup p.id with
        | none => rfl
        | some a =>
          obtain ⟨q, hq, hqid, -⟩ := h.origin p.id a hm
          exact absurd (hqid ▸ List.mem_map_of_mem hq) hnew
      self := by
        rw [hrlive, Finmap.lookup_modify_self, ho]
        rfl
      other := by
        intro i hi
        have := hlive i
        rw [if_neg hi, places_live, places_live] at this
        rw [hrlive, Finmap.lookup_modify_of_ne hi, this]
      id_eq := hoid
      type_eq := hotype
      alloc_eq := hoalloc
      parent_eq := hoparent
      size_eq := congrArg LiveObject.sizeBytes hspot
      own := hoown
      kids := by
        intro q
        have hplaced : (o.setEffLoc l).Placed ↔ (liveOfCreated ts p).Placed := by
          rw [LiveObject.Placed, LiveObject.Placed, ← hoalloc, ← hoparent]
          rfl
        rw [show r.kids = m₂.kids from kids_addLoc _ _ 1, hkids]
        exact if_congr (and_congr_left' hplaced.symm) rfl rfl }
  refine ha.located h hnew hfit ?_ fun b l' => ?_
  · refine congrArg Prod.fst (effLoc_congr (n := m₂) (m := r) (fun _ => ?_) ⟨rfl, rfl, rfl⟩)
    refine (ownAt_congr ?_).symm
    rw [hrlive]
    exact Finmap.map_lookup_modify (f := (·.setEffLoc l)) (g := LiveObject.ownLoc) p.id _
      (fun _ => rfl) m₂.live
  · have hcell : m₂.s.etw.locBytes (heapBucket o.heapType) l + memSize o < 2 ^ 64 := by
      have h₁ := Finmap.sumBy_le_sum locCell memSize m.live (heapBucket o.heapType, l)
      have h₂ := Finmap.sum_le_sum (f := memSize) (g := fun o => o.sizeBytes) (t := m.live)
        fun _ v _ => memSize_le v
      have h₃ := memSize_le o
      have hosize : o.sizeBytes = p.sizeBytes := congrArg LiveObject.sizeBytes hspot
      rw [hbytes, h.counted]
      omega
    have hadd : r.s.etw.locBytes b l' = m₂.s.etw.locBytes b l' +
        if locCell (o.setEffLoc l) = (b, l') then memSize o else 0 :=
      locBytes_addLoc_add (m₂.updLive p.id (·.setEffLoc l)) (o.setEffLoc l) b l' hcell
    rw [hadd, hbytes]
    rfl

/-- **A `created` record leaves nothing stale.** -/
theorem located_onCreated {ps : List CreatedPayload} {m : Model} (h : Located ps ∅ m)
    (hetw : m.etwEnabled = true) (ts : ℕ) {p : CreatedPayload}
    (hnew : p.id ∉ ps.map CreatedPayload.id) (hheaps : ParentsAreHeaps (ps ++ [p]))
    (hfit : m.live.sum (·.sizeBytes) + p.sizeBytes < 2 ^ 64) :
    Located (ps ++ [p]) ∅ (m.onCreated ts p) := by
  unfold onCreated
  dsimp only
  set o := liveOfCreated ts p with hodef
  set m₀ := (m.setLive (m.live.insert o.id o)).setSnapshot
    (countCreated (m.setLive (m.live.insert o.id o)).s o
      (m.setLive (m.live.insert o.id o)).live.keys.card) with hm₀
  have hetw₀ : m₀.etwEnabled = true := hetw
  have ho₀ : m₀.live.lookup p.id = some o := Finmap.lookup_insert m.live
  have hlive₀ : ∀ i, m₀.places.live i = if i = p.id then some o.spot else m.places.live i := by
    intro i
    rw [places_live, places_live]
    show ((m.live.insert p.id o).lookup i).map LiveObject.spot = _
    rw [lookup_insert_eq]
    split <;> rfl
  rw [if_pos hetw₀]
  refine Located.of_places (m := m₀.etwOnCreated p.id ts) ?_ rfl
  unfold etwOnCreated
  rw [ho₀]
  dsimp only
  -- the occupant index and the child list first, both blind to locations
  set m₂ := (m₀.indexOccupant p.id o).addChild o with hm₂
  have hplaces : (m₀.indexOccupant p.id o).places = m₀.places := places_indexOccupant p.id o
  have hchild : m₂.places.live = (m₀.indexOccupant p.id o).places.live ∧
      m₂.s.etw.locBytes = (m₀.indexOccupant p.id o).places.locBytes := by
    rw [hm₂]
    unfold addChild
    split <;> exact ⟨rfl, rfl⟩
  rw [hplaces] at hchild
  have hkids : ∀ q, m₂.kids q = if o.Placed ∧ q = p.parentHeapId then (m.kids q).insert p.id
      else m.kids q := by
    intro q
    have hk : (m₀.indexOccupant p.id o).kids = m₀.kids := congrArg Places.kids hplaces
    rw [hm₂, kids_addChild, hk]
    rfl
  have hlive : ∀ i, m₂.places.live i = if i = p.id then some o.spot else m.places.live i :=
    fun i => (congrFun hchild.1 i).trans (hlive₀ i)
  obtain ⟨o₂, ho₂⟩ : ∃ o₂, m₂.live.lookup p.id = some o₂ := by
    have := hlive p.id
    rw [places_live, if_pos rfl] at this
    obtain ⟨o₂, ho₂, -⟩ := Option.map_eq_some_iff.mp this
    exact ⟨o₂, ho₂⟩
  have hadmit := located_admit h ts hnew hlive hkids (hchild.2.trans rfl) hfit ho₂
  -- the first location settles the object that was admitted stale
  have hfirst : Located (ps ++ [p]) ∅ (m₂.firstLoc p.id ts) := by
    unfold firstLoc
    rw [ho₂]
    dsimp only
    split
    · exact (located_recomputeLoc hadmit p.id ts true).mono fun i a _ hs _ => absurd hs.1 (by simp)
    · exact hadmit
  -- an ETW object may have waited for this one
  rcases (m₂.firstLoc p.id ts).bindReported_cases p.id ts with
    hsame | ⟨o, key, e, -, -, -, -, -, hbind⟩
  · rw [hsame]
    exact hfirst
  · rw [hbind]
    exact located_bind hfirst hheaps key p.id ts

/-! ### A dead object -/

/-- The model with the object `id` gone from the live table. -/
def without (m : Model) (id : ℕ) : Model := m.setLive (m.live.erase id)

/-- A dead resource is no longer listed under its heap. -/
theorem kids_removeChild (m : Model) (o : LiveObject) (q : ℕ) :
    (m.removeChild o).kids q
      = if o.Placed ∧ q = o.parentHeapId then (m.kids q).erase o.id else m.kids q := by
  unfold removeChild
  by_cases hp : o.Placed
  · rw [if_pos (show o.alloc = .placed ∧ o.parentHeapId ≠ 0 from hp)]
    by_cases hq : q = o.parentHeapId
    · rw [if_pos ⟨hp, hq⟩, hq]
      cases hk : m.children.lookup o.parentHeapId with
      | none =>
        unfold kids
        rw [hk]
        rfl
      | some ks =>
        have hkids : m.kids o.parentHeapId = ks := by
          unfold kids
          rw [hk]
          rfl
        rw [hkids]
        dsimp only
        split
        · next hempty =>
          show ((m.children.erase o.parentHeapId).lookup o.parentHeapId).getD [] = _
          rw [Finmap.lookup_erase, List.isEmpty_iff.mp hempty]
          rfl
        · show ((m.children.insert o.parentHeapId _).lookup o.parentHeapId).getD [] = _
          rw [Finmap.lookup_insert]
          rfl
    · rw [if_neg fun h => hq h.2]
      cases m.children.lookup o.parentHeapId with
      | none => rfl
      | some ks =>
        dsimp only
        split
        · show ((m.children.erase o.parentHeapId).lookup q).getD [] = _
          rw [Finmap.lookup_erase_ne hq]
          rfl
        · show ((m.children.insert o.parentHeapId _).lookup q).getD [] = _
          rw [Finmap.lookup_insert_of_ne _ hq]
          rfl
  · rw [if_neg (show ¬(o.alloc = .placed ∧ o.parentHeapId ≠ 0) from hp), if_neg fun h => hp h.1]

/-- **A dead object is no longer counted**; what was placed in it is stale. -/
theorem located_expel {ps : List CreatedPayload} {m m₁ : Model} (h : Located ps ∅ m) {id : ℕ}
    {o : LiveObject} (ho : m.live.lookup id = some o) (hlive : m₁.places.live = m.places.live)
    (hkids : ∀ q, m₁.kids q = if o.Placed ∧ q = o.parentHeapId then (m.kids q).erase o.id
      else m.kids q)
    (hbytes : ∀ b l, m₁.s.etw.locBytes b l
      = m.s.etw.locBytes b l - if locCell o = (b, l) then memSize o else 0) :
    Located ps (m.PlacedIn id) (m₁.without id) := by
  have hoid : o.id = id := h.live_id id o ho
  -- the table without the object, seen through what locations depend on
  have hview : ∀ i, ((m₁.without id).live.lookup i).map LiveObject.spot
      = ((m.live.erase id).lookup i).map LiveObject.spot := by
    intro i
    show ((m₁.live.erase id).lookup i).map LiveObject.spot = _
    rw [lookup_erase_eq, lookup_erase_eq]
    split
    · rfl
    · exact congrFun hlive i
  have hlook : ∀ i a', (m₁.without id).live.lookup i = some a' →
      i ≠ id ∧ ∃ a, m.live.lookup i = some a ∧ a.spot = a'.spot := by
    intro i a' ha'
    have hv := hview i
    rw [ha', lookup_erase_eq] at hv
    split at hv
    · cases hv
    · next hi => exact ⟨hi, Option.map_eq_some_iff.mp hv.symm⟩
  have hsome : ∀ q, q ≠ id → ((m₁.without id).live.lookup q).isSome = (m.live.lookup q).isSome := by
    intro q hq
    have := congrArg Option.isSome (hview q)
    rwa [Option.isSome_map, Option.isSome_map, Finmap.lookup_erase_ne hq] at this
  have hsub : ∀ q c, c ∈ m₁.kids q → c ∈ m.kids q := by
    intro q c hc
    rw [hkids] at hc
    split at hc
    · exact List.mem_of_mem_erase hc
    · exact hc
  constructor
  case live_id =>
    intro i a' ha'
    obtain ⟨-, a, ha, hs⟩ := hlook i a' ha'
    rw [← (LiveObject.spot_inj hs).1]
    exact h.live_id i a ha
  case origin =>
    intro i a' ha'
    obtain ⟨-, a, ha, hs⟩ := hlook i a' ha'
    obtain ⟨-, htype, halloc, hparent, -, -⟩ := LiveObject.spot_inj hs
    rw [← htype, ← halloc, ← hparent]
    exact h.origin i a ha
  case cached =>
    intro i a' hi ha'
    obtain ⟨-, a, ha, hs⟩ := hlook i a' ha'
    obtain ⟨-, -, halloc, hparent, hown, heff⟩ := LiveObject.spot_inj hs
    rw [← heff, h.cached i a (Set.notMem_empty i) ha]
    -- a cached location is still right unless its parent is the object that left
    refine congrArg Prod.fst (effLoc_congr (m := m₁.without id) (n := m) (fun hp => ?_)
      ⟨halloc, hparent, hown⟩)
    have hne : a.parentHeapId ≠ id := fun heq => hi ⟨a, ha, hp, heq⟩
    refine ownAt_congr ?_
    have hv := congrArg (Option.map LiveObject.ownLoc) (hview a.parentHeapId)
    rw [Option.map_map, Option.map_map, Finmap.lookup_erase_ne hne] at hv
    exact hv.symm
  case counted =>
    intro b l
    -- what the object counted for was taken from its own cell
    have hout := Finmap.sumBy_erase_add locCell memSize ho (b, l)
    have hrest : (m₁.without id).live.sumBy locCell memSize (b, l)
        = (m.live.erase id).sumBy locCell memSize (b, l) :=
      Finmap.sumBy_eq_of_view locCell memSize hview (b, l)
    show m₁.s.etw.locBytes b l = _
    rw [hbytes, h.counted, hrest]
    omega
  case fits =>
    have hout := Finmap.sum_erase_add (fun o => o.sizeBytes) ho
    have hrest : (m₁.without id).live.sum (fun o => o.sizeBytes)
        = (m.live.erase id).sum fun o => o.sizeBytes :=
      Finmap.sum_eq_of_view (f := fun o : LiveObject => o.sizeBytes) (g := LiveObject.spot) hview
    have hfits := h.fits
    omega
  case kids_of =>
    intro q c hc
    obtain ⟨hmem, hof⟩ := h.kids_of q c (hsub q c hc)
    refine ⟨hmem, fun a' ha' => ?_⟩
    obtain ⟨-, a, ha, hs⟩ := hlook c a' ha'
    obtain ⟨-, -, halloc, hparent, -, -⟩ := LiveObject.spot_inj hs
    have hold := hof a ha
    rwa [LiveObject.Placed, halloc, hparent] at hold
  case kids_mem =>
    intro c a' ha' hplaced hheap
    obtain ⟨hne, a, ha, hs⟩ := hlook c a' ha'
    obtain ⟨-, -, halloc, hparent, -, -⟩ := LiveObject.spot_inj hs
    rw [LiveObject.Placed, ← halloc, ← hparent] at hplaced
    rw [← hparent] at hheap ⊢
    have hmem : c ∈ m.kids a.parentHeapId := by
      -- a heap with an entry in the table, or the one that is leaving
      refine h.kids_mem c a ha hplaced fun hq => ?_
      by_cases hp : a.parentHeapId = id
      · rw [hp, ho]
        rfl
      · rw [← hsome _ hp]
        exact hheap hq
    show c ∈ m₁.kids a.parentHeapId
    rw [hkids]
    split
    · exact (List.mem_erase_of_ne (hoid.symm ▸ hne)).mpr hmem
    · exact hmem

/-- A child of a dead heap falls back to its own location. -/
theorem located_dropToOwnLoc {ps : List CreatedPayload} {stale : Set ℕ} {m : Model}
    (h : Located ps stale m) {c : ℕ} (ts : ℕ)
    (hdead : ∀ a, m.live.lookup c = some a → m.live.lookup a.parentHeapId = none) :
    Located ps (stale \ {c}) (m.dropToOwnLoc c ts) := by
  have hnop : (∀ a, m.live.lookup c = some a → a.effLoc = (m.effLoc a).1) →
      Located ps (stale \ {c}) m := by
    intro heff
    refine h.mono fun i a ha hs hns => ?_
    have hi : i = c := by
      by_contra hne
      exact hns ⟨hs, hne⟩
    exact heff a (hi ▸ ha)
  unfold dropToOwnLoc
  cases hc : m.live.lookup c with
  | none => exact hnop fun a ha => by rw [hc] at ha; cases ha
  | some a =>
    have hloc : (m.effLoc a).1 = a.ownLoc := by
      rw [effLoc_eq, if_neg]
      intro hp
      apply hp.2
      unfold ownAt
      rw [hdead a hc]
      rfl
    dsimp only
    split
    · exact (located_moveLoc h hc hloc).of_places (places_sideLine _)
    · next heff =>
      refine hnop fun a' ha' => ?_
      rw [hc] at ha'
      cases ha'
      rw [hloc]
      exact not_not.mp heff

/-- Counting and erasing commute. -/
theorem without_addLoc (m : Model) (o : LiveObject) (sign : ℤ) (id : ℕ) :
    (m.addLoc o sign).without id = (m.without id).addLoc o sign := by
  unfold addLoc
  split <;> rfl

/-- A write to another object and erasing commute. -/
theorem without_updLive (m : Model) {id c : ℕ} (hne : c ≠ id) (f : LiveObject → LiveObject) :
    (m.updLive c f).without id = (m.without id).updLive c f := by
  have hlive : (m.live.modify c f).erase id = (m.live.erase id).modify c f := by
    refine Finmap.ext_lookup fun i => ?_
    rw [lookup_erase_eq, lookup_modify, lookup_modify, lookup_erase_eq]
    by_cases hi : i = id
    · rw [if_pos hi, if_pos hi, if_neg fun hc => hne (hc.symm.trans hi)]
    · rw [if_neg hi, if_neg hi]
  exact congrArg (Model.setLive m) hlive

/-- A line and erasing commute. -/
theorem without_sideLine (m : Model) (l : SideLine) (id : ℕ) :
    (m.sideLine l).without id = (m.without id).sideLine l := by
  unfold sideLine
  show Model.without (if !m.side then m else _) id = if !m.side then m.without id else _
  split
  · rfl
  · show Model.without (if !m.helloSeen then _ else _) id = if !m.helloSeen then _ else _
    split <;> rfl

/-- The children of a dying heap do not see whether it is still in the table. -/
theorem without_dropToOwnLoc (m : Model) {id c : ℕ} (ts : ℕ)
    (hself : c = id → ∀ a, m.live.lookup c = some a → a.effLoc = a.ownLoc) :
    (m.dropToOwnLoc c ts).without id = (m.without id).dropToOwnLoc c ts := by
  have hlook : (m.without id).live.lookup c = if c = id then none else m.live.lookup c :=
    lookup_erase_eq id c m.live
  unfold dropToOwnLoc
  rw [hlook]
  by_cases hc : c = id
  · rw [if_pos hc]
    cases ha : m.live.lookup c with
    | none => rfl
    | some a =>
      dsimp only
      rw [if_neg (not_not.mpr (hself hc a ha))]
  · rw [if_neg hc]
    cases ha : m.live.lookup c with
    | none => rfl
    | some a =>
      dsimp only
      split
      · unfold moveLoc
        rw [without_sideLine, without_addLoc, without_updLive _ hc, without_addLoc]
      · rfl

/-- A child that falls back is the only object that moves. -/
theorem lookup_dropToOwnLoc (m : Model) (c ts : ℕ) {i : ℕ} (hi : i ≠ c) :
    (m.dropToOwnLoc c ts).live.lookup i = m.live.lookup i := by
  unfold dropToOwnLoc
  split
  · rfl
  · next child _ =>
    split
    · have hlive : ((m.moveLoc c child child.ownLoc).sideLine
          (.location ts child.id child.ownLoc false)).live = m.live.modify c
            (·.setEffLoc child.ownLoc) := by
        rw [← live_moveLoc]
        unfold sideLine
        split_ifs <;> rfl
      rw [hlive, Finmap.lookup_modify_of_ne hi]
    · rfl

/-- It keeps its parent, dead as it is. -/
theorem parent_dropToOwnLoc (m : Model) (c ts i : ℕ) :
    ((m.dropToOwnLoc c ts).live.lookup i).map LiveObject.parentHeapId
      = (m.live.lookup i).map LiveObject.parentHeapId := by
  have hview : (m.dropToOwnLoc c ts).sansLoc.live i = m.sansLoc.live i := by
    rw [sansLoc_dropToOwnLoc]
  have := congrArg (Option.map LiveObject.parentHeapId) hview
  simp only [sansLoc, Option.map_map] at this
  exact this

/-- **The children of a dead heap fall back one by one.** -/
theorem located_dropAll {ps : List CreatedPayload} {id : ℕ} (ts : ℕ) (ks : List ℕ)
    {stale : Set ℕ} {r : Model} (h : Located ps stale (r.without id))
    (hparent : ∀ c ∈ ks, ∀ q, (r.live.lookup c).map LiveObject.parentHeapId = some q → q = id)
    (hself : id ∈ ks → ∀ a, r.live.lookup id = some a → a.effLoc = a.ownLoc) :
    Located ps (stale \ {c | c ∈ ks})
      ((ks.foldl (fun m c => m.dropToOwnLoc c ts) r).without id) := by
  induction ks generalizing stale r with
  | nil => simpa using h
  | cons c ks ih =>
    -- the heap may be listed among its own children
    have hc : c = id → ∀ a, r.live.lookup c = some a → a.effLoc = a.ownLoc := by
      intro hcid a ha
      exact hself (hcid ▸ List.mem_cons_self) a (hcid ▸ ha)
    have hnext : Located ps (stale \ {c}) ((r.dropToOwnLoc c ts).without id) := by
      rw [without_dropToOwnLoc r ts hc]
      -- its parent has left the table, so its own location is what counts
      refine located_dropToOwnLoc h ts fun a ha => ?_
      have hid : a.parentHeapId = id := by
        have hlive : r.live.lookup c = some a := (lookup_erase_some ha).2
        exact hparent c List.mem_cons_self _ (by rw [hlive]; rfl)
      rw [hid]
      exact Finmap.lookup_erase id r.live
    have hrest := ih hnext
      (fun c' hc' q hq => hparent c' (List.mem_cons_of_mem c hc') q
        (by rw [← hq, parent_dropToOwnLoc]))
      (fun hmem a ha => by
        by_cases hcid : id = c
        · -- the heap itself does not move
          have hnop : r.dropToOwnLoc c ts = r := by
            unfold dropToOwnLoc
            cases hl : r.live.lookup c with
            | none => rfl
            | some b =>
              dsimp only
              rw [if_neg (not_not.mpr (hc hcid.symm b hl))]
          rw [hnop] at ha
          exact hself (List.mem_cons_of_mem c hmem) a ha
        · rw [lookup_dropToOwnLoc r c ts hcid] at ha
          exact hself (List.mem_cons_of_mem c hmem) a ha)
    have hset : (stale \ {c}) \ {x | x ∈ ks} = stale \ {x | x ∈ c :: ks} := by
      ext x
      simp only [Set.mem_sdiff, Set.mem_singleton_iff, Set.mem_ofPred_eq, List.mem_cons]
      tauto
    rwa [hset] at hrest

/-- The index of a dead heap's children is not needed. -/
theorem Located.forgetKids {ps : List CreatedPayload} {stale : Set ℕ} {m : Model}
    (h : Located ps stale m) {p : ℕ} (hmem : p ∈ ps.map CreatedPayload.id)
    (hdead : m.live.lookup p = none) :
    Located ps stale (m.setChildren (m.children.erase p)) := by
  have hkids : ∀ q, (m.setChildren (m.children.erase p)).kids q
      = if q = p then [] else m.kids q := by
    intro q
    show ((m.children.erase p).lookup q).getD [] = _
    rw [lookup_erase_eq]
    split <;> rfl
  constructor
  case live_id => exact h.live_id
  case origin => exact h.origin
  case cached => exact h.cached
  case counted => exact h.counted
  case fits => exact h.fits
  case kids_of =>
    intro q c hc
    rw [hkids] at hc
    split at hc
    · cases hc
    · exact h.kids_of q c hc
  case kids_mem =>
    intro c a ha hplaced hheap
    rw [hkids, if_neg]
    · exact h.kids_mem c a ha hplaced hheap
    · intro hq
      have hsome : (m.live.lookup a.parentHeapId).isSome := hheap (hq ▸ hmem)
      rw [hq, hdead] at hsome
      cases hsome

/-- The children of a dying heap follow their own locations. -/
theorem located_dropChildren {ps : List CreatedPayload} {m m₁ : Model} (h : Located ps ∅ m)
    (hheaps : ParentsAreHeaps ps) {id : ℕ} {o : LiveObject} (ho : m.live.lookup id = some o)
    (hlive : m₁.places.live = m.places.live)
    (hkids : ∀ q, m₁.kids q
      = if o.Placed ∧ q = o.parentHeapId then (m.kids q).erase o.id else m.kids q)
    (hexpel : Located ps (m.PlacedIn id) (m₁.without id)) (ts : ℕ) :
    Located ps ∅ ((m₁.dropChildren o ts).without id) := by
  have hoid : o.id = id := h.live_id id o ho
  unfold dropChildren
  split
  · next hheap =>
    -- the object has left the table already
    have hgone : ∀ (r : Model) a, (r.without id).live.lookup id ≠ some a := by
      intro r a ha
      rw [show (r.without id).live.lookup id = none from
        Finmap.lookup_erase id r.live] at ha
      cases ha
    -- whatever is stale is the object itself or one of its children
    have hplaced : ∀ c ∈ m.PlacedIn id, c = id ∨ c ∈ m₁.kids o.id := by
      intro c hc
      by_cases hcp : c = id
      · exact Or.inl hcp
      · right
        have hmem := (h.placedIn hheaps ho hc).2
        rw [hkids, hoid]
        split
        · exact (List.mem_erase_of_ne hcp).mpr hmem
        · exact hmem
    cases hk : m₁.children.lookup o.id with
    | none =>
      -- no children on record, so nothing was stale
      have hnone : m₁.kids o.id = [] := by
        unfold kids
        rw [hk]
        rfl
      refine hexpel.mono fun i a ha hs _ => ?_
      rcases hplaced i hs with hdead | hmem
      · exact absurd ha (hdead ▸ hgone m₁ a)
      · rw [hnone] at hmem
        cases hmem
    | some ks =>
      have hks : m₁.kids o.id = ks := by
        unfold kids
        rw [hk]
        rfl
      dsimp only
      have hofks : ∀ c ∈ ks, ∀ a, m.live.lookup c = some a →
          a.Placed ∧ a.parentHeapId = id := by
        intro c hc a ha
        rw [← hks, hkids, hoid] at hc
        refine (h.kids_of id c ?_).2 a ha
        split at hc
        · exact List.mem_of_mem_erase hc
        · exact hc
      have hlook : ∀ c a', m₁.live.lookup c = some a' →
          ∃ a, m.live.lookup c = some a ∧ a.spot = a'.spot := by
        intro c a' ha'
        have hc := congrFun hlive c
        rw [places_live, places_live, ha'] at hc
        exact Option.map_eq_some_iff.mp hc.symm
      have hmem : o.id ∈ ps.map CreatedPayload.id := by
        obtain ⟨q, hq, hqid, -⟩ := h.origin id o ho
        rw [hoid, ← hqid]
        exact List.mem_map_of_mem hq
      have hstart : Located ps (m.PlacedIn id)
          ((m₁.setChildren (m₁.children.erase o.id)).without id) :=
        hexpel.forgetKids hmem (hoid ▸ Finmap.lookup_erase id m₁.live)
      -- each child falls back to its own location, and leaves the stale set
      refine (located_dropAll ts ks hstart ?_ ?_).mono fun i a ha hs _ => ?_
      · intro c hc q hq
        obtain ⟨a', ha', rfl⟩ := Option.map_eq_some_iff.mp hq
        obtain ⟨a, ha, hs⟩ := hlook c a' ha'
        rw [← (LiveObject.spot_inj hs).2.2.2.1]
        exact (hofks c hc a ha).2
      · -- a heap placed in itself follows its own location already
        intro hc a' ha'
        obtain ⟨a, ha, hs⟩ := hlook id a' ha'
        obtain ⟨-, -, -, -, hown, heff⟩ := LiveObject.spot_inj hs
        have hin := (hofks id hc a ha).2
        rw [← hown, ← heff, h.cached id a (Set.notMem_empty _) ha, effLoc_eq, hin]
        unfold ownAt
        rw [ha]
        dsimp only [Option.map_some, Option.getD_some]
        split <;> rfl
      · obtain ⟨hin, hnk⟩ := hs
        rcases hplaced i hin with hdead | hk'
        · exact absurd ha (hdead ▸ hgone _ a)
        · exact absurd (hks ▸ hk') hnk
  · next hheap =>
    refine hexpel.mono fun i a _ hs _ => ?_
    exact absurd (h.placedIn hheaps ho hs).1 hheap

/-- **A `destroyed` record leaves nothing stale.** -/
theorem located_onDestroyed {ps : List CreatedPayload} {m : Model} (h : Located ps ∅ m)
    (hetw : m.etwEnabled = true) (hheaps : ParentsAreHeaps ps) (ts : ℕ) (p : DestroyedPayload) :
    Located ps ∅ (m.onDestroyed ts p) := by
  unfold onDestroyed
  cases ho : m.live.lookup p.id with
  | none => exact h
  | some o =>
    dsimp only
    rw [if_pos hetw]
    refine Located.of_places (m := (m.etwOnDestroyed p.id ts).without p.id) ?_ rfl
    unfold etwOnDestroyed
    rw [ho]
    dsimp only
    set d := ((m.addLoc o (-1)).forgetOccupant o ts).orphanBound p.id o ts with hd
    have hplaces : d.places = (m.addLoc o (-1)).places := by
      rw [hd, places_orphanBound, places_forgetOccupant]
    have hremove : (d.removeChild o).places.live = d.places.live ∧
        (d.removeChild o).s.etw.locBytes = d.s.etw.locBytes := by
      unfold removeChild
      split
      · split
        · exact ⟨rfl, rfl⟩
        · dsimp only
          split <;> exact ⟨rfl, rfl⟩
      · exact ⟨rfl, rfl⟩
    have hlive : (d.removeChild o).places.live = m.places.live := by
      rw [hremove.1, hplaces]
      funext i
      rw [places_live, places_live, live_addLoc]
    have hkids : ∀ q, (d.removeChild o).kids q
        = if o.Placed ∧ q = o.parentHeapId then (m.kids q).erase o.id else m.kids q := by
      intro q
      have hk : d.kids = (m.addLoc o (-1)).kids := congrArg Places.kids hplaces
      rw [kids_removeChild, hk, kids_addLoc]
    have hbytes : ∀ b l, (d.removeChild o).s.etw.locBytes b l
        = m.s.etw.locBytes b l - if locCell o = (b, l) then memSize o else 0 := by
      intro b l
      have hb : d.s.etw.locBytes = (m.addLoc o (-1)).s.etw.locBytes :=
        congrArg Places.locBytes hplaces
      rw [hremove.2, hb, locBytes_addLoc_sub]
    have hexpel := located_expel h ho hlive hkids hbytes
    exact located_dropChildren h hheaps ho hlive hkids hexpel ts

/-! ### Runs -/

/-- The payloads after one more call. -/
theorem createdPayloads_concat (xs : List Step) (x : Step) :
    createdPayloads (xs ++ [x]) = createdPayloads xs ++ x.createdPayload.toList := by
  rw [createdPayloads_append]
  cases hx : x.createdPayload with
  | none => simp [createdPayloads, hx]
  | some p => simp [createdPayloads, hx]

/-- The live sizes are those of the objects the records left alive. -/
theorem Counted.sum_sizeBytes {xs : List Step} {m : Model} (h : Counted xs m) :
    m.live.sum (fun o => o.sizeBytes) = (registry xs).sum fun o => o.sizeBytes :=
  Finmap.sum_eq_of_view (f := fun o : LiveObject => o.sizeBytes) (g := LiveObject.payload) h.lookup

/-- A call that creates no object keeps the location bookkeeping right. -/
theorem located_step_of_not_created {ps : List CreatedPayload} {m : Model} (h : Located ps ∅ m)
    (hetw : m.etwEnabled = true) (hheaps : ParentsAreHeaps ps) {x : Step}
    (hx : x.createdPayload = none) : Located ps ∅ (m.step x) := by
  cases x with
  | event ts r =>
    have hl : Located ps ∅ (m.setLatestNs ts) := h.of_places rfl
    cases r with
    | created p => cases hx
    | renamed p => exact hl.of_places (places_updLive p.id fun o => o.spot_setName _)
    | destroyed p => exact located_onDestroyed hl hetw hheaps ts p
    | hello p =>
      refine hl.of_places ?_
      show (Model.onHello _ ts p).places = _
      unfold onHello
      dsimp only
      split <;> rfl
    | goodbye p => exact hl.of_places rfl
    | other => exact hl
  | objectCreated ts libId type size group =>
    exact h.of_places (places_onEtwObjectCreated ts libId type size group)
  | objectAddress env libId address => exact located_onEtwObjectAddress h hheaps env libId address
  | objectDestroyed ts libId => exact located_onEtwObjectDestroyed h ts libId
  | objectSize ts libId size => exact located_onEtwObjectSize h ts libId size
  | groupChanges changes => exact located_onEtwGroupChanges h hheaps changes
  | residency env ts libId type op =>
    refine h.of_places ?_
    show (m.onEtwResidency env ts libId type op).places = _
    unfold onEtwResidency
    dsimp only
    split_ifs
    · rfl
    · exact places_afterChildExitLocked env _
    · rw [places_countResidency, places_afterChildExitLocked]
  | counter env ts counterId kind bytes =>
    refine h.of_places ?_
    show (m.onEtwCounter env ts counterId kind bytes).places = _
    unfold onEtwCounter
    dsimp only
    split_ifs
    · rfl
    · rfl
    · exact places_afterChildExitLocked env _
    · exact places_afterChildExitLocked env _
  | diagnostic env error code msg =>
    refine h.of_places ?_
    show (m.onEtwDiagnostic env error code msg).places = _
    unfold onEtwDiagnostic
    split
    · rfl
    · exact places_sideLine _
  | tick env st => exact h.of_places (places_etwTick env st)
  | pollChild env => exact h.of_places (places_pollChildLocked env)
  | setChildProcess => exact h.of_places rfl
  | setChildExitQpc exitQpc =>
    refine h.of_places ?_
    show (m.setChildExitQpc exitQpc).places = _
    unfold setChildExitQpc
    split <;> rfl
  | markChildExited exitCode => exact h.of_places rfl
  | setEtwRunning running => exact h.of_places rfl
  | finish env st => exact h.of_places (places_finishEtw env st)

/-- **One call keeps the location bookkeeping right.** -/
theorem located_step {xs : List Step} {m : Model} (h : Located (createdPayloads xs) ∅ m)
    (hetw : m.etwEnabled = true) (hcounted : Counted xs m) (x : Step)
    (hfresh : (createdIds (xs ++ [x])).Nodup)
    (hheaps : ParentsAreHeaps (createdPayloads (xs ++ [x]))) (hsize : SizesFit (xs ++ [x])) :
    Located (createdPayloads (xs ++ [x])) ∅ (m.step x) := by
  rw [createdPayloads_concat] at hheaps ⊢
  cases hx : x.createdPayload with
  | none =>
    rw [hx, Option.toList_none, List.append_nil] at hheaps
    rw [Option.toList_none, List.append_nil]
    exact located_step_of_not_created h hetw hheaps hx
  | some p =>
    obtain ⟨ts, rfl⟩ : ∃ ts, x = .event ts (.created p) := by
      cases x with
      | event ts r =>
        cases r with
        | created q =>
          cases hx
          exact ⟨ts, rfl⟩
        | _ => cases hx
      | _ => cases hx
    have hnew : p.id ∉ createdIds xs := by
      intro hmem
      rw [createdIds_append] at hfresh
      exact (List.nodup_append.mp hfresh).2.2 p.id hmem p.id
        (by simp [createdIds, Step.createdId]) rfl
    have hfit : m.live.sum (fun o => o.sizeBytes) + p.sizeBytes < 2 ^ 64 := by
      have hafter := hsize _ (List.prefix_refl _)
      have hr : registry (xs ++ [.event ts (.created p)])
          = (registry xs).insert p.id (liveOfCreated ts p) := registry_concat xs _
      have hnone : (registry xs).lookup p.id = none := by
        by_contra hsome
        exact hnew (createdIds_of_registry (Option.isSome_iff_ne_none.mpr hsome))
      have hinsert := Finmap.sum_insert_of_lookup_none (v := liveOfCreated ts p)
        (fun o : LiveObject => o.sizeBytes) hnone
      have hw : (liveOfCreated ts p).sizeBytes = p.sizeBytes := rfl
      rw [hr] at hafter
      rw [hcounted.sum_sizeBytes]
      omega
    rw [hx] at hheaps
    rw [← map_id_createdPayloads] at hnew
    have hl : Located (createdPayloads xs) ∅ (m.setLatestNs ts) := h.of_places rfl
    exact located_onCreated hl hetw ts hnew hheaps hfit

/-- At first there is nothing to count. -/
theorem located_start (etw : EtwOptions) : Located [] ∅ (start etw) where
  live_id := fun id o ho => by cases ho
  origin := fun id o ho => by cases ho
  cached := fun id o _ ho => by cases ho
  counted := fun _ _ => rfl
  fits := show 0 < 2 ^ 64 by decide
  kids_of := fun p c hc => by cases hc
  kids_mem := fun c o ho => by cases ho

/-- **The location bookkeeping is right after every run.** -/
theorem located_after (etw : EtwOptions) (xs : List Step) (hfresh : (createdIds xs).Nodup)
    (hheaps : ParentsAreHeaps (createdPayloads xs)) (hsize : SizesFit xs) :
    Located (createdPayloads xs) ∅ ((start etw).after xs) := by
  refine Machine.run_induction step (start etw)
    (fun xs => (createdIds xs).Nodup ∧ ParentsAreHeaps (createdPayloads xs) ∧ SizesFit xs)
    (fun xs m => Located (createdPayloads xs) ∅ m) ?_ (located_start etw) ?_ xs
    ⟨hfresh, hheaps, hsize⟩
  · intro xs x hl
    rw [createdIds_append, createdPayloads_append] at hl
    exact ⟨(List.nodup_append.mp hl.1).1, hl.2.1.of_append, hl.2.2.of_append⟩
  · intro xs x hl h
    have hl' : (createdIds xs).Nodup ∧ SizesFit xs := by
      refine ⟨?_, hl.2.2.of_append⟩
      have := hl.1
      rw [createdIds_append] at this
      exact (List.nodup_append.mp this).1
    have hetw : ((start etw).after xs).etwEnabled = true :=
      etwEnabled_start etw xs
    exact located_step h hetw (counted_after (some etw) xs hl'.1 hl'.2) x hl.1 hl.2.1 hl.2.2

/-- The four columns of a row of the totals that bear memory. -/
def rowTotal (s : Snapshot) (h : ℕ) : ℕ :=
  s.totals.bytes h (allocBucket .heap) + s.totals.bytes h (allocBucket .committed)
    + s.totals.bytes h (allocBucket .placed) + s.totals.bytes h (allocBucket .reserved)

/-- An allocation kind in range is counted in exactly one of the four columns,
or bears no memory. -/
theorem memSize_eq_columns (o : LiveObject) (hrange : o.alloc.InRange) (h : ℕ) :
    (if bucket o = (h, allocBucket .heap) then o.sizeBytes else 0)
      + (if bucket o = (h, allocBucket .committed) then o.sizeBytes else 0)
      + (if bucket o = (h, allocBucket .placed) then o.sizeBytes else 0)
      + (if bucket o = (h, allocBucket .reserved) then o.sizeBytes else 0)
    = if heapBucket o.heapType = h then memSize o else 0 := by
  have hlt : o.alloc.index < 5 := hrange
  have hheap : allocBucket .heap = 4 := rfl
  have hcommitted : allocBucket .committed = 1 := rfl
  have hplaced : allocBucket .placed = 2 := rfl
  have hreserved : allocBucket .reserved = 3 := rfl
  simp only [bucket, Prod.mk.injEq, hheap, hcommitted, hplaced, hreserved, memSize,
    AllocationKind.eq_none_iff]
  unfold allocBucket
  by_cases hb : heapBucket o.heapType = h
  · simp only [hb, true_and, if_true]
    split_ifs <;> omega
  · simp only [hb, false_and, if_false]

/-- **The table of bytes by location equals its definition**: after every run,
each cached location is the one recomputed now, each cell of `locBytes` is the
sum over the live objects counted in it, and the locations of a row add up to its
allocation columns. -/
theorem locBytes_after (etw : EtwOptions) (xs : List Step) (hfresh : (createdIds xs).Nodup)
    (hheaps : ParentsAreHeaps (createdPayloads xs)) (hsize : SizesFit xs) :
    let m := (start etw).after xs
    (∀ id o, m.live.lookup id = some o → o.effLoc = (m.effLoc o).1) ∧
    (∀ h l, m.s.etw.locBytes h l = m.live.sum fun o =>
      if o.alloc ≠ .none ∧ heapBucket o.heapType = h ∧ (m.effLoc o).1 = l then o.sizeBytes else 0) ∧
    ((∀ p ∈ createdPayloads xs, p.alloc.InRange) → ∀ h,
      m.s.etw.locBytes h .vram + m.s.etw.locBytes h .sys + m.s.etw.locBytes h .unknown
        = rowTotal m.s h) := by
  intro m
  have hloc : Located (createdPayloads xs) ∅ m := located_after etw xs hfresh hheaps hsize
  have hcached : ∀ id o, m.live.lookup id = some o → o.effLoc = (m.effLoc o).1 :=
    fun id o ho => hloc.cached id o (Set.notMem_empty id) ho
  refine ⟨hcached, ?_, ?_⟩
  · intro h l
    rw [hloc.counted]
    refine Finmap.sum_congr fun id o ho => ?_
    -- cell by cell, with the cached location for the computed one
    have hcell : locCell o = (h, l) ↔ heapBucket o.heapType = h ∧ (m.effLoc o).1 = l := by
      rw [← hcached id o ho]
      exact Prod.mk_inj
    unfold memSize
    by_cases ha : o.alloc = .none
    · simp [ha]
    · simp [ha, hcell]
  · intro hrange h
    -- the other side of the sum is the row of the totals
    have htotals : ∀ a, m.s.totals.bytes h a = m.live.sumBy bucket (·.sizeBytes) (h, a) := by
      intro a
      have hc := counted_after (some etw) xs hfresh hsize
      have htally : m.s.counters = tally m.live :=
        hc.counts.trans (tally_of_weight fun id => map_weight_of_payload (hc.lookup id).symm)
      exact congrArg (fun s => s.totals.bytes h a) htally
    unfold rowTotal
    rw [htotals, htotals, htotals, htotals, hloc.counted, hloc.counted, hloc.counted]
    unfold Finmap.sumBy
    rw [← Finmap.sum_add, ← Finmap.sum_add, ← Finmap.sum_add, ← Finmap.sum_add, ← Finmap.sum_add]
    refine Finmap.sum_congr fun id o ho => ?_
    obtain ⟨p, hp, -, -, halloc, -⟩ := hloc.origin id o ho
    rw [memSize_eq_columns o (halloc ▸ hrange p hp)]
    unfold locCell
    by_cases hb : heapBucket o.heapType = h
    · cases o.effLoc <;> simp [hb]
    · simp [hb]

/-- A resource is reported before the heap it is placed in; the heap is bound,
moves to system memory, and dies before the resource. -/
def heapMoveRun : List Step :=
  [.event 10 (.created (plainCreated 2 .resource .placed 8192 1024 1)),
    .event 11 (.created (plainCreated 1 .heap .heap 4096 65536 0)),
    .objectCreated 0 7 .heap 65536 .local, .objectAddress {} 7 4096,
    .groupChanges [(⟨0, 7, .heap, .nonLocal⟩, {})]]

/-- Both are in system memory while the heap lives; the resource is nowhere
afterwards. -/
theorem locBytes_after_heapMoveRun :
    ((start ⟨true, [], [], 5000⟩).after heapMoveRun).s.etw.locBytes 1 .sys = 66560 ∧
    ((start ⟨true, [], [], 5000⟩).after
      (heapMoveRun ++ [.event 20 (.destroyed ⟨1⟩)])).s.etw.locBytes 1 .unknown = 1024 ∧
    rowTotal ((start ⟨true, [], [], 5000⟩).after
      (heapMoveRun ++ [.event 20 (.destroyed ⟨1⟩)])).s 1 = 1024 := by
  obtain ⟨-, hbytes, -⟩ :=
    locBytes_after ⟨true, [], [], 5000⟩ heapMoveRun (by decide) (by decide) (by decide)
  obtain ⟨-, hbytes', hrow⟩ :=
    locBytes_after ⟨true, [], [], 5000⟩ (heapMoveRun ++ [.event 20 (.destroyed ⟨1⟩)])
      (by decide) (by decide) (by decide)
  refine ⟨(hbytes 1 .sys).trans (by decide), (hbytes' 1 .unknown).trans (by decide), ?_⟩
  exact (hrow (by decide) 1).symm.trans (by decide)

end Model

end Dx12Track
