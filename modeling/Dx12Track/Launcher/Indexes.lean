import Dx12Track.Launcher.Steps
import Dx12Track.Pipe.Payload
import Dx12Track.Pipe.Server

/-!
# The table indexes of `OnEvent`

The counters of the snapshot are arrays, indexed by the heap type, the allocation kind
and the type of an object.  These come from the bytes of a `created` record, and once
more from the live object when it is destroyed; whoever has connected to the pipe writes
the bytes.

* `Model.indexed` — the object that the indexes are taken from.
* `onEvent_elsewhere` — no other cell is changed.
* `LiveObject.InTables`, `Model.AlwaysInTables` — the indexes are below the sizes.
* `live_origin` — where the type and the allocation kind of a live object come from.
* `alwaysInTables_iff` — **the indexes are in bounds exactly if the bytes are enumerators**.
-/

namespace Dx12Track

open Model (liveOfCreated)

def kHeapBuckets : ℕ := 6
def kAllocBuckets : ℕ := 5

/-- The indexes taken from `o` are below the sizes of the tables. -/
structure LiveObject.InTables (o : LiveObject) : Prop where
  heap : heapBucket o.heapType < kHeapBuckets
  alloc : allocBucket o.alloc < kAllocBuckets
  type : o.type.index < ObjectType.count

/-- An unknown heap type has the bucket 0. -/
theorem heapBucket_lt (t : ℕ) : heapBucket t < kHeapBuckets := by
  unfold heapBucket kHeapBuckets
  split <;> decide

theorem LiveObject.inTables_iff (o : LiveObject) :
    o.InTables ↔ o.type.index < ObjectType.count ∧ o.alloc.index < kAllocBuckets :=
  ⟨fun h => ⟨h.type, h.alloc⟩, fun h => ⟨heapBucket_lt _, h.2, h.1⟩⟩

/-- The arguments of a call of `OnEvent`. -/
def Step.eventArgs : Step → Option (ℕ × Record)
  | .event tsNs r => some (tsNs, r)
  | _ => none

namespace Model

/-- The object whose members are the table indexes of `OnEvent`. -/
def indexed (m : Model) (tsNs : ℕ) : Record → Option LiveObject
  | .created p => some (liveOfCreated tsNs p)
  | .destroyed p => m.live.lookup p.id
  | _ => none

/-- The cells of two snapshots agree, those of `o` apart. -/
structure SameElsewhere (o : Option LiveObject) (s s' : Snapshot) : Prop where
  bytes : ∀ h a, (∀ x, o = some x → ¬(h = heapBucket x.heapType ∧ a = allocBucket x.alloc)) →
    s'.totals.bytes h a = s.totals.bytes h a
  counts : ∀ h a, (∀ x, o = some x → ¬(h = heapBucket x.heapType ∧ a = allocBucket x.alloc)) →
    s'.totals.counts h a = s.totals.counts h a
  perType : ∀ i, (∀ x, o = some x → i ≠ x.type.index) → s'.perTypeCounts i = s.perTypeCounts i

theorem SameElsewhere.refl (o : Option LiveObject) (s : Snapshot) : SameElsewhere o s s :=
  ⟨fun _ _ _ => rfl, fun _ _ _ => rfl, fun _ _ => rfl⟩

theorem sameElsewhere_countCreated (s : Snapshot) (o : LiveObject) (n : ℕ) :
    SameElsewhere (some o) s (countCreated s o n) where
  bytes := fun _ _ hne => if_neg (hne o rfl)
  counts := fun _ _ hne => if_neg (hne o rfl)
  perType := fun _ hne => if_neg (hne o rfl)

theorem sameElsewhere_countDestroyed (s : Snapshot) (o : LiveObject) (n : ℕ) :
    SameElsewhere (some o) s { countDestroyed s o with liveCount := n } where
  bytes := by
    intro h a hne
    show (if _ then _ else _ : ℕ → ℕ → ℕ) h a = _
    split
    · exact if_neg (hne o rfl)
    · rfl
  counts := by
    intro h a hne
    show (if _ then _ else _ : ℕ → ℕ → ℕ) h a = _
    split
    · exact if_neg (hne o rfl)
    · rfl
  perType := by
    intro i hne
    show (if _ then _ else _ : ℕ → ℕ) i = _
    split
    · exact if_neg (hne o rfl)
    · rfl

theorem SameElsewhere.of_core {o : Option LiveObject} {m m' : Model}
    (h : SameElsewhere o m.core.counts m'.core.counts) : SameElsewhere o m.s m'.s :=
  ⟨h.bytes, h.counts, h.perType⟩

/-- **`OnEvent` changes no cell but those that the indexed object names.** -/
theorem onEvent_elsewhere (m : Model) (tsNs : ℕ) (r : Record) :
    SameElsewhere (m.indexed tsNs r) m.s (m.onEvent tsNs r).s := by
  refine SameElsewhere.of_core ?_
  cases r with
  | created p =>
    have hcore : (m.onEvent tsNs (.created p)).core = _ :=
      core_onCreated (m.setLatestNs tsNs) tsNs p
    rw [hcore]
    exact sameElsewhere_countCreated _ _ _
  | destroyed p =>
    cases ho : m.live.lookup p.id with
    | none =>
      have hsame : m.onEvent tsNs (.destroyed p) = m.setLatestNs tsNs :=
        onDestroyed_of_none (m := m.setLatestNs tsNs) tsNs ho
      rw [hsame]
      exact SameElsewhere.refl _ _
    | some o =>
      have hcore : (m.onEvent tsNs (.destroyed p)).core = _ :=
        core_onDestroyed (m := m.setLatestNs tsNs) tsNs ho
      rw [hcore, indexed, ho]
      exact sameElsewhere_countDestroyed _ o _
  | renamed p =>
    have hcore : (m.onEvent tsNs (.renamed p)).core = _ := core_onRenamed (m.setLatestNs tsNs) p
    rw [hcore]
    exact SameElsewhere.refl _ _
  | _ =>
    rw [core_onEvent_other m tsNs (by simp) (by simp) (by simp)]
    exact SameElsewhere.refl _ _

/-- The indexes of every call of `OnEvent` in a run are below the sizes of the tables. -/
def AlwaysInTables (m : Model) (xs : List Step) : Prop :=
  ∀ us tsNs r vs, xs = us ++ .event tsNs r :: vs →
    ∀ o, (m.after us).indexed tsNs r = some o → o.InTables

/-! ### Where the indexes come from -/

/-- The type and the allocation kind of a live object are those of a `created` record. -/
def Originates (xs : List Step) (m : Model) : Prop :=
  ∀ id o, m.core.live id = some o →
    ∃ tsNs p, Step.event tsNs (.created p) ∈ xs ∧ o.type = p.type ∧ o.alloc = p.alloc

theorem originates_step {xs : List Step} {m : Model} (h : Originates xs m) (x : Step) :
    Originates (xs ++ [x]) (m.step x) := by
  -- what was created before is created in the longer run
  have old : ∀ {o : LiveObject}, (∃ tsNs p, Step.event tsNs (.created p) ∈ xs ∧
      o.type = p.type ∧ o.alloc = p.alloc) → ∃ tsNs p, Step.event tsNs (.created p) ∈ xs ++ [x] ∧
      o.type = p.type ∧ o.alloc = p.alloc := by
    rintro o ⟨tsNs, p, hmem, heq⟩
    exact ⟨tsNs, p, List.mem_append_left _ hmem, heq⟩
  -- all but three events keep the core of the model
  have unchanged : (m.step x).core = m.core → Originates (xs ++ [x]) (m.step x) := by
    intro hcore id o ho
    rw [hcore] at ho
    exact old (h id o ho)
  cases x with
  | event tsNs r =>
    cases r with
    | created p =>
      intro id o ho
      have hcore : (m.step (.event tsNs (.created p))).core = _ :=
        core_onCreated (m.setLatestNs tsNs) tsNs p
      rw [hcore] at ho
      dsimp only at ho
      rw [Function.update_apply] at ho
      split at ho
      · cases ho
        exact ⟨tsNs, p, by simp, rfl, rfl⟩
      · exact old (h id o ho)
    | renamed p =>
      intro id o ho
      have hcore : (m.step (.event tsNs (.renamed p))).core = _ :=
        core_onRenamed (m.setLatestNs tsNs) p
      rw [hcore] at ho
      dsimp only at ho
      rw [Function.update_apply] at ho
      split at ho
      · obtain ⟨o', ho', rfl⟩ := Option.map_eq_some_iff.mp ho
        exact old (h p.id o' ho')
      · exact old (h id o ho)
    | destroyed p =>
      cases hp : m.live.lookup p.id with
      | none =>
        refine unchanged ?_
        have hsame : m.step (.event tsNs (.destroyed p)) = m.setLatestNs tsNs :=
          onDestroyed_of_none (m := m.setLatestNs tsNs) tsNs hp
        rw [hsame, core_setLatestNs]
      | some _ =>
        intro id o ho
        have hcore : (m.step (.event tsNs (.destroyed p))).core = _ :=
          core_onDestroyed (m := m.setLatestNs tsNs) tsNs hp
        rw [hcore] at ho
        dsimp only at ho
        rw [Function.update_apply] at ho
        split at ho
        · cases ho
        · exact old (h id o ho)
    | _ => exact unchanged (core_onEvent_other m tsNs (by simp) (by simp) (by simp))
  | _ => exact unchanged (core_step_of_not_event m (by simp))

theorem originates_after (etw : Option EtwOptions) (xs : List Step) :
    Originates xs ((launch etw).after xs) := by
  refine Machine.run_induction step (launch etw) (fun _ => True) Originates (fun _ _ _ => trivial)
    ?_ (fun xs x _ h => originates_step h x) xs trivial
  intro id o ho
  cases etw with
  | none => cases ho
  | some etw => cases ho

/-- **A live object has its type and its allocation kind from a record of the run.** -/
theorem live_origin (etw : Option EtwOptions) {xs : List Step} {id : ℕ} {o : LiveObject}
    (ho : ((launch etw).after xs).live.lookup id = some o) :
    ∃ tsNs p, Step.event tsNs (.created p) ∈ xs ∧ o.type = p.type ∧ o.alloc = p.alloc := by
  have hlive : ((launch etw).after xs).core.live id = some o.payload := by
    show ((launch etw).after xs).sansJoin.live id = _
    rw [sansJoin_live, ho]
    rfl
  exact originates_after etw xs id o.payload hlive

/-! ### Streams -/

/-- The arguments of the call of `OnEvent` that a delivery makes. -/
def eventArgs (d : Delivery) : ℕ × Record := (d.1.tsNs.toNat, Record.ofPayload d.1.kind d.2)

/-- A run whose records are the first of those delivered; the other calls may come in between. -/
def FedBy (ds : List Delivery) (xs : List Step) : Prop :=
  xs.filterMap Step.eventArgs <+: ds.map eventArgs

/-- The bytes that a `created` record has for its type and its allocation kind are enumerators. -/
def Enumerators (d : Delivery) : Prop :=
  d.1.kind = EventKind.raw .created → Payload.createdBytes ≤ d.2.length →
    Payload.createdType d.2 < ObjectType.count ∧ Payload.createdAlloc d.2 < kAllocBuckets

theorem mem_of_fedBy {ds : List Delivery} {xs : List Step} (h : FedBy ds xs) {tsNs : ℕ} {r : Record}
    (hmem : Step.event tsNs r ∈ xs) : ∃ d ∈ ds, eventArgs d = (tsNs, r) := by
  have hargs : (tsNs, r) ∈ xs.filterMap Step.eventArgs :=
    List.mem_filterMap.mpr ⟨_, hmem, rfl⟩
  exact List.mem_map.mp (h.subset hargs)

/-- The bytes of the records delivered decide on the `created` records of the run. -/
theorem created_inTables {ds : List Delivery} (h : ∀ d ∈ ds, Enumerators d) {xs : List Step}
    (hfed : FedBy ds xs) {tsNs : ℕ} {p : CreatedPayload}
    (hmem : Step.event tsNs (.created p) ∈ xs) :
    p.type.index < ObjectType.count ∧ p.alloc.index < kAllocBuckets := by
  obtain ⟨d, hd, heq⟩ := mem_of_fedBy hfed hmem
  obtain ⟨hkind, hlen, rfl⟩ := (Record.ofPayload_created_iff _ _ _).mp (congrArg Prod.snd heq)
  rw [Payload.index_createdType, Payload.index_createdAlloc]
  exact h d hd hkind hlen

/-- **The indexes are in bounds in every run on what was delivered exactly if the bytes are
enumerators.** -/
theorem alwaysInTables_iff (etw : Option EtwOptions) (ds : List Delivery) :
    (∀ xs, FedBy ds xs → (launch etw).AlwaysInTables xs) ↔ ∀ d ∈ ds, Enumerators d := by
  constructor
  · intro h d hd hkind hlen
    obtain ⟨us, vs, rfl⟩ := List.append_of_mem hd
    -- the run without any other call gets to the record
    have hfed : FedBy (us ++ d :: vs)
        ((us ++ d :: vs).map fun d => Step.event (eventArgs d).1 (eventArgs d).2) := by
      unfold FedBy
      rw [List.filterMap_map]
      simp [Function.comp_def, Step.eventArgs]
    have hrec : Record.ofPayload d.1.kind d.2 = .created (Payload.created d.2) :=
      (Record.ofPayload_created_iff _ _ _).mpr ⟨hkind, hlen, rfl⟩
    have hin := h _ hfed (us.map fun d => Step.event (eventArgs d).1 (eventArgs d).2)
      (eventArgs d).1 (eventArgs d).2 (vs.map fun d => Step.event (eventArgs d).1 (eventArgs d).2)
      (by simp) (liveOfCreated (eventArgs d).1 (Payload.created d.2))
      (by rw [eventArgs, hrec]; rfl)
    rw [← Payload.index_createdType, ← Payload.index_createdAlloc]
    exact ⟨hin.type, hin.alloc⟩
  · rintro h xs hfed us tsNs r vs rfl o ho
    have hus : FedBy ds us := by
      refine List.IsPrefix.trans ?_ hfed
      rw [List.filterMap_append]
      exact List.prefix_append _ _
    rw [LiveObject.inTables_iff]
    cases r with
    | created p =>
      cases ho
      have hmem : Step.event tsNs (.created p) ∈ us ++ Step.event tsNs (.created p) :: vs := by simp
      exact created_inTables h hfed hmem
    | destroyed p =>
      -- the object was created by a record before
      obtain ⟨tsNs', p', hmem, htype, halloc⟩ := live_origin etw ho
      rw [htype, halloc]
      exact created_inTables h hus hmem
    | _ => cases ho

/-- **For every byte stream**, the reader stops, and the indexes are in bounds in every run on what
it delivers exactly if the type and the allocation kind of each complete `created` record that it
delivers are enumerators. -/
theorem stream_alwaysInTables_iff (etw : Option EtwOptions) (chunk : ℕ → ℕ) (stop : ℕ → Bool)
    (bytes : List UInt8) {fuel : ℕ} (hfuel : bytes.length + 2 ≤ fuel) :
    ∃ ds, PipeEnd.readerLoop chunk stop fuel 0 { bytes := bytes } [] = some ds ∧
      ((∀ xs, FedBy ds xs → (launch etw).AlwaysInTables xs) ↔ ∀ d ∈ ds, Enumerators d) := by
  obtain ⟨n, hn, -⟩ := PipeEnd.readerLoop_eq chunk stop 0 (p := { bytes := bytes }) [] hfuel
  exact ⟨_, hn, alwaysInTables_iff etw _⟩

/-- The bytes of a `CreatedPayload` of zeros, with the allocation kind `alloc`. -/
def allocPayload (alloc : UInt8) : List UInt8 :=
  List.replicate 61 0 ++ alloc :: List.replicate 770 0

theorem length_allocPayload (alloc : UInt8) : (allocPayload alloc).length = 832 := by
  rw [allocPayload, List.length_append, List.length_cons, List.length_replicate,
    List.length_replicate]

/-- Its record. -/
def allocMessage (alloc : UInt8) : Message :=
  ⟨({ magic := kProtocolMagic, payloadBytes := 832, tsNs := 0, kind := EventKind.raw .created },
    allocPayload alloc), rfl, (length_allocPayload alloc).symm⟩

theorem stream_alwaysInTables_iff_committed :
    let bytes := Message.wire.encAll [allocMessage 1]
    ∃ ds, PipeEnd.readerLoop (fun _ => 100) (fun _ => false) (bytes.length + 2) 0
        { bytes := bytes } [] = some ds ∧
      ((∀ xs, FedBy ds xs → (launch none).AlwaysInTables xs) ↔ ∀ d ∈ ds, Enumerators d) :=
  stream_alwaysInTables_iff none _ _ _ (Nat.le_refl _)

/-- The allocation kind 200 is an index of a table with 5 columns. -/
theorem not_stream_alwaysInTables :
    ¬∀ (etw : Option EtwOptions) (chunk : ℕ → ℕ) (stop : ℕ → Bool) (bytes : List UInt8)
      (fuel : ℕ) (ds : List Delivery),
      PipeEnd.readerLoop chunk stop fuel 0 { bytes := bytes } [] = some ds →
      ∀ xs, FedBy ds xs → (launch etw).AlwaysInTables xs := by
  intro h
  have hopen : ∀ i : ℕ, (fun _ => false) i = false := fun _ => rfl
  have hread := PipeEnd.readerLoop_encAll (fun _ => 100) hopen [allocMessage 200] (Nat.le_refl _)
  have henum := (alwaysInTables_iff none _).mp (h none _ _ _ _ _ hread)
    (allocMessage 200).val (by simp) rfl
    (Nat.le_of_eq (length_allocPayload 200).symm)
  exact absurd henum.2 (by decide +kernel)

end Model

end Dx12Track
