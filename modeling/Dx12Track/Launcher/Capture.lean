import Dx12Track.Dll.DeviceHooks
import Dx12Track.Launcher.Delivery

/-!
# From the device hooks to the launcher

The records that the hooks of a target make, and the launcher that is told of them, in a
run of its own: whatever part of the stream has arrived, and whatever calls of ETW, of
the timer and of the window come in between.

* `fits_run` — what is sent fits its structure.
* `Model.Knows`, `knows_after` — **the launcher knows what it has been told**.
* `placed_after_heap` — **a placed resource comes after its heap**, in every such run.
* `hooks_inTables` — **the indexes of the tables are in bounds**, in every such run.
-/

namespace Dx12Track

open Model (eventArgs FedBy launch Enumerators created_inTables live_origin)

/-! ### Records that fit -/

/-- What a hook registers is in the ranges of the C types. -/
theorem Registered.fits {t : Tracker} {heap : Option HeapRef} {obj : ℕ} {info : ObjectInfo}
    (h : Registered t heap obj info) (hids : ∀ o i, t.objects.lookup o = some i → i.id < 256 ^ 8) :
    obj < 256 ^ 8 ∧ info.Fits := by
  obtain ⟨o, -, rfl⟩ := h.object
  obtain ⟨base, frames, hbase, hlen, rfl⟩ := h.stack
  have hlookup : ∀ heap, lookupHeapId t heap < 256 ^ 8 := by
    intro heap
    by_cases hzero : lookupHeapId t heap = 0
    · rw [hzero]
      decide
    · cases heap with
      | none => exact absurd rfl hzero
      | some heap =>
        obtain ⟨info, hinfo, hid⟩ := exists_of_lookupId hzero
        exact hid.symm.trans_lt (hids _ info hinfo)
  have hframes : ∀ f ∈ frames.map UInt64.toNat, f < 256 ^ 8 := by
    intro f hf
    obtain ⟨x, -, rfl⟩ := List.mem_map.mp hf
    exact x.toNat_lt
  have hcaptured : frames.length ≤ (frames.map UInt64.toNat).length :=
    Nat.le_of_eq (List.length_map _).symm
  have hname : NulFree [] := by simp [NulFree]
  refine ⟨o.toNat_lt, ?_⟩
  have h8 : 0 < 256 ^ 8 := by decide
  have h4 : 0 < 256 ^ 4 := by decide
  cases hbase with
  | simple type =>
    exact ⟨h8, h8, h8, h8, h4, h4, h4, hlen, hcaptured, hframes, hname⟩
  | heap desc =>
    exact ⟨desc.sizeInBytes.toNat_lt, h8, h8, h8, desc.heapType.toNat_lt, h4, h4, hlen, hcaptured,
      hframes, hname⟩
  | free r desc alloc heapType =>
    exact ⟨UInt64.toNat_lt _, h8, h8, h8, heapType.toNat_lt, desc.dimension.toNat_lt,
      desc.format.toNat_lt, hlen, hcaptured, hframes, hname⟩
  | placed r desc heapType heapOffset =>
    exact ⟨UInt64.toNat_lt _, hlookup heap, UInt64.toNat_lt _, heapOffset.toNat_lt,
      heapType.toNat_lt, desc.dimension.toNat_lt, desc.format.toNat_lt, hlen, hcaptured, hframes,
      hname⟩

namespace Capture

/-- What is sent fits its structure, as long as the counter of the tracker does. -/
structure Bounded (n : ℕ) (s : Capture) : Prop where
  next : s.tracker.nextId ≤ 1 + n
  fits : ∀ r ∈ s.stream, r.Fits

/-- Records that fit are sent. -/
theorem bounded_send {n : ℕ} {s : Capture} (h : Bounded n s) {rs : List LogRecord}
    (hrs : ∀ r ∈ rs, r.Fits) : Bounded (n + 1) (s.send rs) := by
  refine ⟨h.next.trans (Nat.le_succ _), fun r hr => ?_⟩
  rcases List.mem_append.mp hr with hold | hnew
  · exact h.fits r hold
  · exact hrs r hnew

/-- One more call of the tracker, and one more id at most. -/
theorem bounded_call {n : ℕ} (hn : n < 256 ^ 8 - 1) {named : Prop} {s : Capture}
    (hinv : Inv named s) (h : Bounded n s) {x : Tracker.Call}
    (hx : ∀ obj info, x = .register obj info → ∃ heap, Registered s.tracker heap obj info) :
    Bounded (n + 1) (s.call x) := by
  have hnext : s.tracker.nextId < 256 ^ 8 := by
    have := h.next
    omega
  have hids : ∀ o i, s.tracker.objects.lookup o = some i → i.id < 256 ^ 8 :=
    fun o i hi => (hinv.entry o i hi).2.trans hnext
  have hlegal : (Doing.call x).Legal := by
    cases x with
    | register obj info =>
      obtain ⟨heap, hreg⟩ := hx obj info rfl
      exact hreg.fits hids
    | setName => trivial
    | releaseToZero => trivial
  refine ⟨?_, fun r hr => ?_⟩
  · exact (nextId_step s.tracker x).trans (Nat.add_le_add_right h.next 1)
  · rcases List.mem_append.mp hr with hold | hnew
    · exact h.fits r hold
    · obtain ⟨r', hr', rfl⟩ := List.mem_map.mp hnew
      exact fits_call hlegal hnext hids r' hr'

/-- A message is cut to its buffer. -/
theorem fits_diagF (line : List UInt8) : (LogRecord.diagnostic (some (diagF line))).Fits := by
  refine ⟨Packed.fits_array.mpr fun v hv => ?_, trivial⟩
  obtain ⟨b, -, rfl⟩ := List.mem_map.mp hv
  exact b.toNat_lt

/-- What a call of the device sends by itself. -/
theorem fits_sends {t : Tracker} (hids : ∀ o i, t.objects.lookup o = some i → i.id < 256 ^ 8)
    (c : DeviceCall) : ∀ r ∈ c.sends t, r.Fits := by
  intro r hr
  cases c with
  | setResidencyPriority objects hres =>
    change r ∈ hookSetResidencyPriority t objects hres at hr
    unfold hookSetResidencyPriority at hr
    split at hr
    · obtain ⟨x, -, rfl⟩ := List.mem_map.mp hr
      have hid : t.lookupId x.1.toNat < 256 ^ 8 := by
        by_cases hzero : t.lookupId x.1.toNat = 0
        · rw [hzero]
          decide
        · obtain ⟨info, hinfo, hid⟩ := exists_of_lookupId hzero
          exact hid.symm.trans_lt (hids _ info hinfo)
      refine ⟨?_, trivial⟩
      simp only [LogRecord.members, ResidencyPriorityPayload.members, Packed.Fits,
        List.forall_mem_cons]
      exact ⟨hid, x.1.toNat_lt, x.2.toNat_lt, by decide, by simp⟩
    · cases hr
  | _ => cases hr

/-- **One call of the hooks.** -/
theorem bounded_step {n : ℕ} (hn : n < 256 ^ 8 - 1) {named : Prop} {s : Capture}
    (hinv : Inv named s) (h : Bounded n s) {x : HookAct} (hx : x.Legal) :
    Bounded (n + 1) (s.step x) := by
  cases x with
  | enter c =>
    show Bounded (n + 1) (s.noteFire c.name)
    unfold noteFire
    split
    · exact ⟨h.next.trans (Nat.le_succ _), h.fits⟩
    · have hfired : Bounded n { s with fired := c.name :: s.fired } := ⟨h.next, h.fits⟩
      refine bounded_send hfired fun r hr => ?_
      rw [List.mem_singleton.mp hr]
      exact fits_diagF _
  | leave c =>
    unfold step
    dsimp only
    split
    · next obj info hreg =>
      refine bounded_call hn hinv h fun obj' info' heq => ?_
      cases heq
      exact ⟨c.heap, registered_of_registers hreg⟩
    · refine bounded_send h (fits_sends (fun o i hi => ?_) c)
      have := (hinv.entry o i hi).2
      have := h.next
      omega
  | setName obj name => exact bounded_call hn hinv h fun _ _ heq => by cases heq
  | releaseToZero obj => exact bounded_call hn hinv h fun _ _ heq => by cases heq
  | startLogging callstacks => exact ⟨h.next.trans (Nat.le_succ _), h.fits⟩
  | other r =>
    refine bounded_send h fun r' hr => ?_
    rw [List.mem_singleton.mp hr]
    exact hx.2

/-- **Whatever the hooks send fits into its record.** -/
theorem fits_run (verbose callstacks : Bool) {xs : List HookAct} (hxs : ∀ x ∈ xs, x.Legal)
    (hlen : xs.length < 256 ^ 8) : ∀ r ∈ (run verbose callstacks xs).stream, r.Fits := by
  suffices h : Bounded xs.length (run verbose callstacks xs) from h.fits
  induction xs using List.reverseRecOn with
  | nil => exact ⟨Nat.le_refl _, fun r hr => by cases hr⟩
  | append_singleton xs x ih =>
    have hold : ∀ y ∈ xs, y.Legal := fun y hy => hxs y (List.mem_append_left _ hy)
    rw [List.length_append, List.length_singleton] at hlen ⊢
    rw [run, Machine.run_concat]
    exact bounded_step (by omega) (inv_run verbose callstacks hold False.elim) (ih hold (by omega))
      (hxs x (by simp))

end Capture

/-! ### What the launcher knows -/

/-- The live objects of the launcher, with their addresses and types. -/
def Model.Knows (m : Model) (f : ℕ → Option (ℕ × ObjectType)) : Prop :=
  ∀ id, (m.trackedLive id).map (fun o => (o.objectPtr, o.type)) = f id

/-- A record tells the launcher about its object. -/
theorem Model.knows_event {m : Model} {f : ℕ → Option (ℕ × ObjectType)} (h : m.Knows f) (ts : ℕ)
    (r : LogRecord) : (m.onEvent ts r.record).Knows (knows f r) := by
  have hother : (∀ p, r.record ≠ .created p) → (∀ p, r.record ≠ .renamed p) →
      (∀ p, r.record ≠ .destroyed p) → (m.onEvent ts r.record).Knows f := by
    intro hc hr hd id
    rw [Model.trackedLive, core_onEvent_other m ts hc hr hd]
    exact h id
  cases r with
  | created p =>
    cases p with
    | none => exact hother nofun nofun nofun
    | some p =>
      intro id
      show ((m.onEvent ts (.created p)).trackedLive id).map _ = Function.update f p.id _ id
      rw [Model.trackedLive_created, Function.update_apply]
      split
      · rfl
      · exact h id
  | renamed p =>
    cases p with
    | none => exact hother nofun nofun nofun
    | some p =>
      intro id
      show ((m.onEvent ts (.renamed p)).trackedLive id).map _ = f id
      rw [Model.trackedLive_renamed]
      split
      · rw [Option.map_map]
        exact h id
      · exact h id
  | destroyed p =>
    cases p with
    | none => exact hother nofun nofun nofun
    | some p =>
      intro id
      show ((m.onEvent ts (.destroyed p)).trackedLive id).map _ = Function.update f p.id _ id
      rw [Model.trackedLive_destroyed, Function.update_apply]
      split
      · rfl
      · exact h id
  | hello p => cases p <;> exact hother nofun nofun nofun
  | goodbye p => cases p <;> exact hother nofun nofun nofun
  | _ => exact hother nofun nofun nofun

/-- Nothing else does. -/
theorem Model.knows_not_event {m : Model} {f : ℕ → Option (ℕ × ObjectType)} (h : m.Knows f)
    {x : Step} (hx : x.eventArgs = none) : (m.step x).Knows f := by
  intro id
  rw [Model.trackedLive, Model.core_step_of_not_event m fun ts r heq => by rw [heq] at hx; cases hx]
  exact h id

/-- **The launcher knows what it has been told**, whatever other calls come in between. -/
theorem Model.knows_after {us : List Step} {ds : List (UInt64 × LogRecord)} {m : Model}
    {f : ℕ → Option (ℕ × ObjectType)} (h : m.Knows f)
    (hus : us.filterMap Step.eventArgs = ds.map fun d => (d.1.toNat, d.2.record)) :
    (m.after us).Knows ((ds.map Prod.snd).foldl knows f) := by
  induction us generalizing m f ds with
  | nil =>
    cases ds with
    | nil => exact h
    | cons d ds => cases hus
  | cons x us ih =>
    cases hx : x.eventArgs with
    | none =>
      rw [List.filterMap_cons_none hx] at hus
      exact ih (Model.knows_not_event h hx) hus
    | some args =>
      rw [List.filterMap_cons_some hx] at hus
      cases ds with
      | nil => cases hus
      | cons d ds =>
        injection hus with hargs hus
        have hevent : x = .event d.1.toNat d.2.record := by
          cases x with
          | event ts r =>
            cases hx
            cases hargs
            rfl
          | _ => cases hx
        rw [hevent]
        show ((m.onEvent d.1.toNat d.2.record).after us).Knows
          ((ds.map Prod.snd).foldl knows (knows f d.2))
        exact ih (Model.knows_event h _ d.2) hus

/-- At first the launcher knows nothing. -/
theorem knows_launch (etw : Option EtwOptions) : (launch etw).Knows fun _ => none := by
  intro id
  cases etw <;> rfl

/-! ### Runs of the launcher on what the hooks send -/

section Fed

variable {verbose callstacks : Bool} {xs : List HookAct} (hxs : ∀ x ∈ xs, x.Legal)
  (hlen : xs.length < 256 ^ 8) {ds : List (UInt64 × LogRecord)}
  (hds : ds.map Prod.snd <+: (Capture.run verbose callstacks xs).stream)

include hxs hlen hds

/-- What is delivered is what was sent. -/
theorem map_eventArgs : (ds.map deliveryOf).map eventArgs =
    ds.map fun d => (d.1.toNat, d.2.record) := by
  rw [List.map_map]
  refine List.map_congr_left fun d hd => Prod.ext rfl ?_
  exact ofPayload_memory (Capture.fits_run verbose callstacks hxs hlen d.2
    (hds.subset (List.mem_map_of_mem hd)))

/-- A `created` record that `OnEvent` is called with is one of the stream. -/
theorem split_of_fedBy {us vs : List Step} {ts : ℕ} {p : CreatedPayload}
    (hfed : FedBy (ds.map deliveryOf) (us ++ .event ts (.created p) :: vs)) :
    ∃ (ds₁ : List (UInt64 × LogRecord)) (rs : List LogRecord),
      us.filterMap Step.eventArgs = ds₁.map (fun d => (d.1.toNat, d.2.record)) ∧
      (Capture.run verbose callstacks xs).stream =
        ds₁.map Prod.snd ++ .created (some p) :: rs := by
  obtain ⟨rest, hrest⟩ := hfed
  rw [map_eventArgs hxs hlen hds, List.filterMap_append,
    List.filterMap_cons_some (show Step.eventArgs (.event ts (.created p)) = some _ from rfl),
    List.append_assoc] at hrest
  obtain ⟨ds₁, ds', hsplit, hus, hds'⟩ := List.map_eq_append_iff.mp hrest.symm
  obtain ⟨d, ds₂, rfl, hd, -⟩ := List.map_eq_cons_iff.mp hds'
  have hrecord : d.2 = .created (some p) := by
    have hrec : d.2.record = .created p := congrArg Prod.snd hd
    generalize d.2 = r at hrec
    cases r with
    | created q => cases q <;> cases hrec; rfl
    | hello q => cases q <;> cases hrec
    | renamed q => cases q <;> cases hrec
    | destroyed q => cases q <;> cases hrec
    | goodbye q => cases q <;> cases hrec
    | _ => cases hrec
  obtain ⟨rs, hrs⟩ := hds
  refine ⟨ds₁, ds₂.map Prod.snd ++ rs, hus.symm, ?_⟩
  rw [← hrs, hsplit, List.map_append, List.map_cons, hrecord, List.append_assoc, List.cons_append]

end Fed

/-- **A placed resource comes after its heap**, where the heap arguments are heaps. -/
theorem placed_after_heap {verbose callstacks : Bool} {xs : List HookAct} (hxs : ∀ x ∈ xs, x.Legal)
    (hnamed : Capture.NamesHeaps verbose callstacks xs) (hlen : xs.length < 256 ^ 8)
    {ds : List (UInt64 × LogRecord)}
    (hds : ds.map Prod.snd <+: (Capture.run verbose callstacks xs).stream)
    (etw : Option EtwOptions) {us vs : List Step} {ts : ℕ} {p : CreatedPayload}
    (hfed : FedBy (ds.map deliveryOf) (us ++ .event ts (.created p) :: vs)) :
    Described p ∧ (p.parentHeapId ≠ 0 →
      ∃ o, ((launch etw).after us).live.lookup p.parentHeapId = some o ∧
        o.objectPtr = p.parentHeapPtr ∧ o.type = .heap) := by
  obtain ⟨ds₁, rs, hus, hstream⟩ := split_of_fedBy hxs hlen hds hfed
  obtain ⟨hdescribed, hheap⟩ :=
    (Capture.inv_run verbose callstacks hxs fun _ => hnamed).told _ p rs hstream
  refine ⟨hdescribed, fun hid => ?_⟩
  obtain ⟨type, htold, htype⟩ := hheap hid
  have hknows := Model.knows_after (knows_launch etw) hus p.parentHeapId
  rw [show (ds₁.map Prod.snd).foldl knows _ _ = _ from htold, Model.trackedLive_eq,
    Option.map_map] at hknows
  obtain ⟨o, ho, hpair⟩ := Option.map_eq_some_iff.mp hknows
  obtain ⟨hptr, htypeOf⟩ := Prod.mk.inj hpair
  exact ⟨o, ho, hptr, htypeOf.trans (htype trivial)⟩

/-- A buffer of 256 bytes. -/
def bufferDesc : ResourceDesc where
  dimension := kDimensionBuffer
  alignment := 0
  width := 256
  height := 1
  depthOrArraySize := 1
  mipLevels := 1
  format := 0
  sampleDesc := (1, 0)
  layout := 1
  flags := 0

/-- The heap of the run. -/
def bufferHeap : HeapRef := ⟨4096, ⟨65536, 1⟩⟩

/-- A module is unloaded, a heap is created, and a buffer placed in it. -/
def placedRun : List HookAct :=
  [.other (.moduleUnloaded (some ⟨0x7ff600000000⟩)),
    .leave (.createHeap (some bufferHeap.desc) { hr := 0, object := some 4096 }),
    .leave (.createPlacedResource1 (some bufferHeap) 512 (some ⟨bufferDesc, 0, 0, 0⟩)
      { hr := 0, object := some 8192 })]

/-- What else the DLL sends in it describes no object. -/
theorem legal_placedRun : ∀ x ∈ placedRun, x.Legal := by
  simp only [placedRun, List.forall_mem_cons]
  exact ⟨⟨⟨by decide, by decide⟩, by decide, trivial⟩, trivial, trivial, by simp⟩

/-- The buffer is placed when the heap, and nothing else, is in the table. -/
theorem namesHeaps_placedRun : Capture.NamesHeaps false false placedRun := by
  intro us c vs heq heap info harg hlookup
  rcases us with _ | ⟨a, _ | ⟨b, us⟩⟩
  · cases heq
  · cases heq
    cases harg
  · cases us with
    | nil =>
      cases heq
      cases harg
      cases hlookup
      rfl
    | cons x us => cases us <;> cases heq

/-- The records, all of one time. -/
def placedStream : List (UInt64 × LogRecord) :=
  (Capture.run false false placedRun).stream.map fun r => (5, r)

/-- What is delivered is the beginning of what was sent. -/
theorem placedStream_isPrefix :
    placedStream.map Prod.snd <+: (Capture.run false false placedRun).stream := by
  rw [placedStream, List.map_map]
  show (Capture.run false false placedRun).stream.map id <+: _
  rw [List.map_id]

/-- The record of the heap. -/
def heapPayload : CreatedPayload :=
  createdPayload (Tracker.stamp (makeHeapInfo bufferHeap.desc) 4096 1)

/-- The record of the buffer in it. -/
def bufferPayload : CreatedPayload :=
  createdPayload (Tracker.stamp (makeResourceInfo { hr := 0, object := some 8192 } bufferDesc
    .placed 1 1 4096 512) 8192 2)

/-- The launcher looks at the child between the records. -/
def placedSteps : List Step :=
  [.event 5 .other, .setChildProcess, .event 5 (.created heapPayload), .markChildExited 0]

/-- The launcher is fed by the stream. -/
theorem fedBy_placedSteps : FedBy (placedStream.map deliveryOf)
    (placedSteps ++ .event 5 (.created bufferPayload) :: []) := by
  unfold Model.FedBy
  rw [map_eventArgs legal_placedRun (by decide) placedStream_isPrefix]
  exact ⟨[], rfl⟩

/-- The heap is in the table when the buffer arrives. -/
theorem placed_after_heap_placedSteps :
    Described bufferPayload ∧ (bufferPayload.parentHeapId ≠ 0 →
      ∃ o, ((launch none).after placedSteps).live.lookup bufferPayload.parentHeapId = some o ∧
        o.objectPtr = bufferPayload.parentHeapPtr ∧ o.type = .heap) :=
  placed_after_heap legal_placedRun namesHeaps_placedRun (by decide) placedStream_isPrefix none
    fedBy_placedSteps

/-- **The indexes of the tables are in bounds.** -/
theorem hooks_inTables {verbose callstacks : Bool} {xs : List HookAct} (hxs : ∀ x ∈ xs, x.Legal)
    (hlen : xs.length < 256 ^ 8) {ds : List (UInt64 × LogRecord)}
    (hds : ds.map Prod.snd <+: (Capture.run verbose callstacks xs).stream)
    (etw : Option EtwOptions) {us : List Step} (hfed : FedBy (ds.map deliveryOf) us) :
    (launch etw).AlwaysInTables us := by
  have hcreated : ∀ {vs : List Step} {ts : ℕ} {p : CreatedPayload},
      FedBy (ds.map deliveryOf) vs → Step.event ts (.created p) ∈ vs → Described p := by
    intro vs ts p hvs hmem
    obtain ⟨vs₁, vs₂, rfl⟩ := List.append_of_mem hmem
    obtain ⟨ds₁, rs, -, hstream⟩ := split_of_fedBy hxs hlen hds hvs
    exact ((Capture.inv_run verbose callstacks hxs False.elim).told _ p rs hstream).1
  intro us' ts r vs heq o ho
  have hus' : FedBy (ds.map deliveryOf) us' := by
    refine List.IsPrefix.trans ?_ hfed
    rw [heq, List.filterMap_append]
    exact List.prefix_append _ _
  rw [LiveObject.inTables_iff]
  cases r with
  | created p =>
    cases ho
    have hp := hcreated hfed (show Step.event ts (.created p) ∈ us by simp [heq])
    exact ⟨hp.type, hp.alloc⟩
  | destroyed p =>
    obtain ⟨ts', p', hmem, htype, halloc⟩ := live_origin etw ho
    rw [htype, halloc]
    have hp := hcreated hus' hmem
    exact ⟨hp.type, hp.alloc⟩
  | _ => cases ho

theorem hooks_inTables_placedSteps :
    (launch none).AlwaysInTables (placedSteps ++ .event 5 (.created bufferPayload) :: []) :=
  hooks_inTables legal_placedRun (by decide) placedStream_isPrefix none fedBy_placedSteps

end Dx12Track
