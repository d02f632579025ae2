import Dx12Track.Launcher.Replay
import Dx12Track.Launcher.Indexes
import Dx12Track.Pipe.Layout

/-!
# From the tracker's table to the launcher's

The whole way of a record: the tracker changes its table and hands `Send` the memory
of a payload; the clients put headers and payloads into the pipe until a write fails;
the reader gets what has arrived in pieces of any size, and casts each payload to the
structure it came from.  Other records of the DLL travel between those of the tracker.

The sends take the lock of the pipe in the order of the calls they belong to.

* `Doing`, `Source` — what the DLL does, and what it hands to `Send`.
* `Source.Inv` — the records fit their structures, and a launcher that is told all of
  them has a copy of the tracker's table.
* `source_take` — a part of the stream is the stream of a part of the run.
* `records_arrive` — **which records arrive** of a stream that is cut off anywhere.
* `launcher_lags` — **the launcher's table is the tracker's at an earlier moment**.
-/

namespace Dx12Track

open Tracker (Call)
open Model (eventArgs)

/-- A call of the tracker, or another record for the pipe. -/
inductive Doing
  | call (x : Call)
  | send (r : LogRecord)

/-- The tracker, and what has been handed to `Send` so far, with the time of each record. -/
structure Source where
  tracker : Tracker := {}
  stream : List (UInt64 × LogRecord) := []

namespace Source

def step (s : Source) (x : UInt64 × Doing) : Source :=
  match x.2 with
  | .call c =>
    { tracker := (s.tracker.step c).1
      stream := s.stream ++ (s.tracker.step c).2.map fun r => (x.1, r.payload) }
  | .send r => { s with stream := s.stream ++ [(x.1, r)] }

def run (xs : List (UInt64 × Doing)) : Source := Machine.run step {} xs

theorem run_concat (xs : List (UInt64 × Doing)) (x : UInt64 × Doing) :
    run (xs ++ [x]) = (run xs).step x := Machine.run_concat step {} xs x

end Source

/-- What the reader hands to `OnEvent` for a record of the DLL. -/
def deliveryOf (d : UInt64 × LogRecord) : Delivery :=
  ({ magic := kProtocolMagic
     payloadBytes := UInt32.ofNat d.2.memory.length
     tsNs := d.1
     kind := d.2.kind.raw }, d.2.memory)

/-- `OnEvent` for one record after the other. -/
def Model.deliver (m : Model) (ds : List Delivery) : Model :=
  ds.foldl (fun m d => m.onEvent (eventArgs d).1 (eventArgs d).2) m

/-! ### What the DLL hands over -/

/-- The members of the structure are in the ranges of their C types. -/
structure ObjectInfo.Fits (info : ObjectInfo) : Prop where
  sizeBytes : info.sizeBytes < 256 ^ 8
  parentHeapId : info.parentHeapId < 256 ^ 8
  parentHeapPtr : info.parentHeapPtr < 256 ^ 8
  heapOffset : info.heapOffset < 256 ^ 8
  heapType : info.heapType < 256 ^ 4
  dimension : info.dimension < 256 ^ 4
  format : info.format < 256 ^ 4
  frameCount : info.frameCount ≤ kMaxCallstackFrames
  captured : info.frameCount ≤ info.frames.length
  frames : ∀ f ∈ info.frames, f < 256 ^ 8
  name : NulFree info.name

/-- What the rest of the DLL promises: objects are described in range, and the other records are
not about objects. -/
def Doing.Legal : Doing → Prop
  | .call (.register obj info) => obj < 256 ^ 8 ∧ info.Fits
  | .call _ => True
  | .send r => r.Fits ∧ r.kind ≠ .created ∧ r.kind ≠ .renamed ∧ r.kind ≠ .destroyed

/-- The calls of the tracker in a run. -/
def trackerCalls (xs : List (UInt64 × Doing)) : List Call :=
  xs.filterMap fun x => match x.2 with
    | .call c => some c
    | .send _ => none

/-- The ids that a run gives out do not exhaust a 64-bit counter. -/
structure Legal (xs : List (UInt64 × Doing)) : Prop where
  each : ∀ x ∈ xs, x.2.Legal
  once : ¬Tracker.Reregisters (trackerCalls xs)
  ids : (trackerCalls xs).length < 256 ^ 8 - 1

theorem trackerCalls_concat (xs : List (UInt64 × Doing)) (x : UInt64 × Doing) :
    trackerCalls (xs ++ [x]) = trackerCalls xs ++ match x.2 with
      | .call c => [c]
      | .send _ => [] := by
  unfold trackerCalls
  rw [List.filterMap_append]
  cases hx : x.2 <;> simp [hx]

theorem Legal.of_append {xs ys : List (UInt64 × Doing)} (h : Legal (xs ++ ys)) : Legal xs := by
  have hcalls : trackerCalls (xs ++ ys) = trackerCalls xs ++ trackerCalls ys :=
    List.filterMap_append
  refine ⟨fun x hx => h.each x (List.mem_append_left _ hx), fun hre => h.once ?_, ?_⟩
  · obtain ⟨us, c, vs, heq, hc⟩ := hre
    exact ⟨us, c, vs ++ trackerCalls ys, by rw [hcalls, heq]; simp, hc⟩
  · have hids := h.ids
    rw [hcalls, List.length_append] at hids
    omega

/-! ### Records that fit -/

theorem fits_emitCreated {info : ObjectInfo} (h : info.Fits) {obj id : ℕ} (hobj : obj < 256 ^ 8)
    (hid : id < 256 ^ 8) : (Tracker.emitCreated (Tracker.stamp info obj id)).payload.Fits := by
  refine ⟨fits_created.mpr ⟨?_, ?_⟩, ?_⟩
  · have hcount : info.frameCount < 256 ^ 1 := by
      have := h.frameCount
      have hmax : kMaxCallstackFrames = 32 := rfl
      omega
    have htype : info.type.index < 256 ^ 1 := info.type.raw.toNat_lt
    have halloc : info.alloc.index < 256 ^ 1 := info.alloc.raw.toNat_lt
    simp only [Packed.Fits, CreatedPayload.scalars, Tracker.stamp, List.forall_mem_cons]
    exact ⟨hid, h.sizeBytes, h.parentHeapId, h.parentHeapPtr, hobj, h.heapOffset, h.heapType,
      h.dimension, h.format, htype, halloc, hcount, by decide, by simp⟩
  · intro v hv
    rcases List.mem_append.mp hv with hframe | hzero
    · exact h.frames v (List.mem_of_mem_take hframe)
    · rw [(List.mem_replicate.mp hzero).2]
      decide
  · show (info.frames.take info.frameCount
      ++ List.replicate (kMaxCallstackFrames - info.frameCount) 0).length = kMaxCallstackFrames
    rw [List.length_append, List.length_take, List.length_replicate, Nat.min_eq_left h.captured]
    exact Nat.add_sub_cancel' h.frameCount

theorem fits_emitRenamed {id : ℕ} (hid : id < 256 ^ 8) (name : WString) :
    (Tracker.emitRenamed id name).payload.Fits := ⟨fits_renamed.mpr hid, trivial⟩

theorem fits_emitDestroyed {id : ℕ} (hid : id < 256 ^ 8) :
    (Tracker.emitDestroyed id).payload.Fits := by
  refine ⟨?_, trivial⟩
  show Packed.Fits [(8, id)]
  simpa [Packed.Fits] using hid

/-- What a call hands to `Send` fits its structure. -/
theorem fits_call {t : Tracker} {c : Call} (hc : (Doing.call c).Legal) (hnext : t.nextId < 256 ^ 8)
    (hids : ∀ obj info, t.objects.lookup obj = some info → info.id < 256 ^ 8) :
    ∀ r ∈ (t.step c).2, r.payload.Fits := by
  have heff := Tracker.step_effect t c
  generalize t.step c = out at heff ⊢
  cases heff with
  | idle => simp
  | registered obj info =>
    simpa using fits_emitCreated hc.2 hc.1 hnext
  | renamed obj name info hinfo => simpa using fits_emitRenamed (hids obj info hinfo) _
  | destroyed obj info hinfo => simpa using fits_emitDestroyed (hids obj info hinfo)

theorem nextId_step (t : Tracker) (c : Call) : (t.step c).1.nextId ≤ t.nextId + 1 := by
  have heff := Tracker.step_effect t c
  generalize t.step c = out at heff ⊢
  cases heff with
  | idle => exact Nat.le_succ _
  | registered => exact Nat.le_refl _
  | renamed => exact Nat.le_succ _
  | destroyed => exact Nat.le_succ _

theorem length_step (t : Tracker) (c : Call) : (t.step c).2.length ≤ 1 := by
  have heff := Tracker.step_effect t c
  generalize t.step c = out at heff ⊢
  cases heff <;> simp

/-! ### A launcher that is told everything -/

/-- The launcher after the records of a stream. -/
def Model.told (m : Model) (ds : List (UInt64 × LogRecord)) : Model :=
  ds.foldl (fun m d => m.onEvent d.1.toNat d.2.record) m

theorem Model.told_append (m : Model) (ds es : List (UInt64 × LogRecord)) :
    m.told (ds ++ es) = (m.told ds).told es := List.foldl_append

/-- Bytes and casts do not matter for records that fit. -/
theorem Model.deliver_map (m : Model) {ds : List (UInt64 × LogRecord)}
    (hfits : ∀ d ∈ ds, d.2.Fits) : m.deliver (ds.map deliveryOf) = m.told ds := by
  induction ds generalizing m with
  | nil => rfl
  | cons d ds ih =>
    have hargs : eventArgs (deliveryOf d) = (d.1.toNat, d.2.record) :=
      Prod.ext rfl (ofPayload_memory (hfits d List.mem_cons_self))
    show (m.onEvent (eventArgs (deliveryOf d)).1 (eventArgs (deliveryOf d)).2).deliver _ = _
    rw [hargs, ih _ fun e he => hfits e (List.mem_cons_of_mem _ he)]
    rfl

/-- A record that is not about an object leaves the table alone. -/
theorem live_send (m : Model) (ts : ℕ) {r : LogRecord} (hcreated : r.kind ≠ .created)
    (hrenamed : r.kind ≠ .renamed) (hdestroyed : r.kind ≠ .destroyed) :
    (m.onEvent ts r.record).live = m.live := by
  have hhello : ∀ p, (m.onEvent ts (.hello p)).live = m.live := by
    intro p
    show ((m.setLatestNs ts).onHello ts p).live = m.live
    unfold Model.onHello
    dsimp only
    split <;> rfl
  cases r with
  | hello p =>
    cases p with
    | none => rfl
    | some p => exact hhello p
  | created => exact absurd rfl hcreated
  | renamed => exact absurd rfl hrenamed
  | destroyed => exact absurd rfl hdestroyed
  | goodbye p => cases p <;> rfl
  | moduleLoaded => rfl
  | moduleUnloaded => rfl
  | residencyPriority => rfl
  | diagnostic => rfl

theorem Sim.of_live {t : Tracker} {m m' : Model} (h : Sim t m) (hlive : m'.live = m.live) :
    Sim t m' := by
  have htracked : ∀ id, m'.trackedLive id = m.trackedLive id := by
    intro id
    rw [Model.trackedLive_eq, Model.trackedLive_eq, hlive]
  refine ⟨fun obj info hinfo => ?_, fun id hid => ?_, h.nulFree⟩
  · rw [htracked]
    exact h.entry obj info hinfo
  · rw [htracked] at hid
    exact h.only id hid

namespace Source

/-- **The invariant** of a run `xs`: the records fit, and a launcher that starts as `m` and is told
all of them has a copy of the table. -/
structure Inv (m : Model) (xs : List (UInt64 × Doing)) (s : Source) : Prop where
  tracker : s.tracker = (Tracker.traced (trackerCalls xs)).1
  next : s.tracker.nextId ≤ 1 + (trackerCalls xs).length
  fits : ∀ d ∈ s.stream, d.2.Fits
  sim : Sim s.tracker (m.told s.stream)

theorem inv_step {m : Model} {xs : List (UInt64 × Doing)} {x : UInt64 × Doing} {s : Source}
    (hlegal : Legal (xs ++ [x])) (h : Inv m xs s) : Inv m (xs ++ [x]) (s.step x) := by
  obtain ⟨ts, d⟩ := x
  have hd : d.Legal := hlegal.each (ts, d) (by simp)
  have hcalls := trackerCalls_concat xs (ts, d)
  have hids := hlegal.ids
  cases d with
  | send r =>
    obtain ⟨hfits, hcreated, hrenamed, hdestroyed⟩ := hd
    have hcalls : trackerCalls (xs ++ [(ts, .send r)]) = trackerCalls xs :=
      hcalls.trans (List.append_nil _)
    refine ⟨hcalls ▸ h.tracker, hcalls ▸ h.next, fun d hd => ?_, ?_⟩
    · rcases List.mem_append.mp hd with hold | hnew
      · exact h.fits d hold
      · rw [List.mem_singleton.mp hnew]
        exact hfits
    · show Sim s.tracker (m.told (s.stream ++ [(ts, r)]))
      rw [Model.told_append]
      exact h.sim.of_live (live_send _ _ hcreated hrenamed hdestroyed)
  | call c =>
    have hcalls : trackerCalls (xs ++ [(ts, .call c)]) = trackerCalls xs ++ [c] := hcalls
    have hno : ¬Tracker.Reregisters (trackerCalls xs) := hlegal.of_append.once
    have hinv : Tracker.Inv (s.tracker, (Tracker.traced (trackerCalls xs)).2) := by
      rw [h.tracker]
      exact Tracker.inv_traced hno
    have hnext : s.tracker.nextId < 256 ^ 8 := by
      have := h.next
      rw [hcalls, List.length_append, List.length_singleton] at hids
      omega
    have hc : ¬c.Reregisters s.tracker := by
      intro hre
      rw [h.tracker] at hre
      exact hlegal.once ⟨trackerCalls xs, c, [], hcalls, hre⟩
    have hname : c.NameNulFree := by
      cases c with
      | register obj info => exact hd.2.name
      | setName => trivial
      | releaseToZero => trivial
    refine ⟨?_, ?_, fun d hd' => ?_, ?_⟩
    · rw [hcalls, Tracker.traced_concat, Tracker.tracedStep, ← h.tracker]
      rfl
    · rw [hcalls, List.length_append, List.length_singleton]
      have := h.next
      have := nextId_step s.tracker c
      show (s.tracker.step c).1.nextId ≤ _
      omega
    · rcases List.mem_append.mp hd' with hold | hnew
      · exact h.fits d hold
      · obtain ⟨r, hr, rfl⟩ := List.mem_map.mp hnew
        exact fits_call hd hnext (fun obj info hinfo => (hinv.id_lt hinfo).trans hnext) r hr
    · have hsim := sim_step h.sim hinv ts.toNat c hc hname
      have htold : (m.told s.stream).told ((s.tracker.step c).2.map fun r => (ts, r.payload)) =
          (s.tracker.step c).2.foldl (fun m r => m.onEvent ts.toNat r) (m.told s.stream) := by
        rw [Model.told, List.foldl_map]
        simp only [record_payload]
      show Sim (s.tracker.step c).1 (m.told (s.stream ++ _))
      rw [Model.told_append, htold]
      exact hsim

theorem inv_run {m : Model} (hm : m.live = ∅) {xs : List (UInt64 × Doing)} (h : Legal xs) :
    Inv m xs (run xs) := by
  refine Machine.run_induction step {} Legal (Inv m) (fun xs x => Legal.of_append) ?_
    (fun xs x hl hi => inv_step hl hi) xs h
  refine ⟨rfl, Nat.le_refl _, by simp, fun obj info h => ?_, fun id h => ?_, fun obj info h => ?_⟩
  · cases h
  · rw [Model.trackedLive_eq] at h
    replace h : ((m.live.lookup id).map LiveObject.tracked).isSome := h
    rw [hm] at h
    cases h
  · cases h

/-- A run hands over one record after the other. -/
theorem length_stream_step (s : Source) (x : UInt64 × Doing) :
    ∃ ds, (s.step x).stream = s.stream ++ ds ∧ ds.length ≤ 1 := by
  unfold step
  cases x.2 with
  | call c =>
    refine ⟨_, rfl, ?_⟩
    rw [List.length_map]
    exact length_step s.tracker c
  | send r => exact ⟨_, rfl, Nat.le_refl _⟩

/-- **A part of the stream is the stream of a part of the run.** -/
theorem source_take (xs : List (UInt64 × Doing)) {ds : List (UInt64 × LogRecord)}
    (h : ds <+: (run xs).stream) : ∃ k ≤ xs.length, (run (xs.take k)).stream = ds := by
  induction xs using List.reverseRecOn with
  | nil => exact ⟨0, Nat.le_refl _, (List.prefix_nil.mp h).symm⟩
  | append_singleton xs x ih =>
    rw [run_concat] at h
    obtain ⟨new, hnew, hlen⟩ := length_stream_step (run xs) x
    rw [hnew] at h
    by_cases hold : ds.length ≤ (run xs).stream.length
    · obtain ⟨k, hk, hrun⟩ :=
        ih (List.prefix_of_prefix_length_le h (List.prefix_append _ _) hold)
      refine ⟨k, by rw [List.length_append]; omega, ?_⟩
      rw [List.take_append_of_le_length hk]
      exact hrun
    · have hall : ds = (run xs).stream ++ new := by
        refine h.eq_of_length_le ?_
        rw [List.length_append]
        omega
      refine ⟨xs.length + 1, by simp, ?_⟩
      rw [List.take_of_length_le (by simp), run_concat, hnew, hall]

end Source

/-- The reader stops, and has delivered a part of what was sent: all of it, if nothing failed. -/
theorem delivered_sent {T : Type*} [DecidableEq T] (acts : List (PipeClient.Act T))
    (chunk : ℕ → ℕ) (stop : ℕ → Bool) {cut fuel : ℕ}
    (hfuel : ((PipeClient.run acts).written.take cut).length + 2 ≤ fuel) :
    ∃ ms : List Message, PipeEnd.delivered chunk stop acts cut fuel = some (ms.map Subtype.val) ∧
      ms <+: (PipeClient.run acts).sent ∧
      ((PipeClient.run acts).failed = false → (PipeClient.run acts).written.length ≤ cut →
        (∀ i, stop i = false) → ms = (PipeClient.run acts).sent) := by
  obtain ⟨n, hn, hstable⟩ := PipeEnd.readerLoop_eq chunk stop 0
    (p := { bytes := (PipeClient.run acts).written.take cut }) [] hfuel
  have hcut : (PipeClient.run acts).written.take cut
      <+: Message.wire.encAll (PipeClient.run acts).sent :=
    (List.take_prefix _ _).trans (PipeClient.written_isPrefix acts)
  refine ⟨_, hn, (Message.wire.decAll_isPrefix hcut n).1, fun hfailed hlen hstop => ?_⟩
  rw [← hstable hstop (max n (PipeClient.run acts).sent.length) (Nat.le_max_left _ _)]
  show Message.wire.decAll _ ((PipeClient.run acts).written.take cut) = _
  rw [List.take_of_length_le hlen, PipeClient.written_eq hfailed]
  exact Message.wire.decAll_encAll (Nat.le_max_right _ _)

/-- A copy of the tracker's table, in the words of the two tables. -/
theorem Sim.copy {t : Tracker} {m : Model} (h : Sim t m) :
    (∀ id, (m.live.lookup id).isSome ↔
      ∃ obj info, t.objects.lookup obj = some info ∧ info.id = id) ∧
    ∀ obj info, t.objects.lookup obj = some info →
      ∃ o, m.live.lookup info.id = some o ∧ o.tracked = info.tracked := by
  have hentry : ∀ obj info, t.objects.lookup obj = some info →
      ∃ o, m.live.lookup info.id = some o ∧ o.tracked = info.tracked := by
    intro obj info hinfo
    have hlive := h.entry obj info hinfo
    rw [Model.trackedLive_eq] at hlive
    exact Option.map_eq_some_iff.mp hlive
  refine ⟨fun id => ⟨fun hid => h.only id ?_, ?_⟩, hentry⟩
  · rwa [Model.trackedLive_eq, Option.isSome_map]
  · rintro ⟨obj, info, hinfo, rfl⟩
    obtain ⟨o, ho, -⟩ := hentry obj info hinfo
    rw [ho]
    rfl

/-! ### The bytes of a stream -/

/-- The call of `Send` for a record. -/
def sendCallOf (d : UInt64 × LogRecord) (h : d.2.Fits) : SendCall where
  kind := d.2.kind.raw
  payload := d.2.memory
  tsNs := d.1
  fits := length_memory_lt h

/-- The messages of some records. -/
def messagesOf (ds : List (UInt64 × LogRecord)) (hfits : ∀ d ∈ ds, d.2.Fits) : List Message :=
  ds.pmap (fun d h => (sendCallOf d h).message) hfits

/-- The number of bytes that some records have in the pipe. -/
def wireLength : List (UInt64 × LogRecord) → ℕ
  | [] => 0
  | d :: ds => EventHeader.size + d.2.memory.length + wireLength ds

theorem messagesOf_take (ds : List (UInt64 × LogRecord)) (hfits : ∀ d ∈ ds, d.2.Fits) (j : ℕ) :
    (messagesOf ds hfits).take j =
      messagesOf (ds.take j) fun d hd => hfits d (List.mem_of_mem_take hd) := by
  induction ds generalizing j with
  | nil => cases j <;> rfl
  | cons d ds ih =>
    cases j with
    | zero => rfl
    | succ j => exact congrArg (_ :: ·) (ih (fun e he => hfits e (List.mem_cons_of_mem _ he)) j)

theorem length_encAll_messagesOf (ds : List (UInt64 × LogRecord)) (hfits : ∀ d ∈ ds, d.2.Fits) :
    (Message.wire.encAll (messagesOf ds hfits)).length = wireLength ds := by
  induction ds with
  | nil => rfl
  | cons d ds ih =>
    have htail := ih fun e he => hfits e (List.mem_cons_of_mem _ he)
    show (Message.enc (sendCallOf d _).message ++ Message.wire.encAll _).length = _
    rw [List.length_append]
    refine (congrArg (_ + ·) htail).trans ?_
    show ((sendCallOf d _).header.bytes ++ d.2.memory).length + _ = _
    rw [List.length_append, EventHeader.length_bytes]
    rfl

theorem eventArgs_messagesOf {ds : List (UInt64 × LogRecord)} (hfits : ∀ d ∈ ds, d.2.Fits) :
    ((messagesOf ds hfits).map Subtype.val).map eventArgs =
      ds.map fun d => (d.1.toNat, d.2.record) := by
  rw [messagesOf, List.map_pmap, List.map_pmap, ← List.pmap_eq_map (p := fun d => d.2.Fits) hfits]
  refine List.pmap_congr_left _ fun d hd h _ => ?_
  exact Prod.ext rfl (ofPayload_memory h)

/-- **Which records arrive.**  Records are written into a pipe that is cut off anywhere, and read in
pieces of any size: the reader stops, and the launcher is told the first of the records with what
was written into them.  If the reader is not told to stop, they are all whose last byte is
there. -/
theorem records_arrive {ds : List (UInt64 × LogRecord)} (hfits : ∀ d ∈ ds, d.2.Fits)
    (chunk : ℕ → ℕ) (stop : ℕ → Bool) {cut fuel : ℕ} (hfuel : cut + 2 ≤ fuel) :
    ∃ (out : List Delivery) (k : ℕ),
      PipeEnd.readerLoop chunk stop fuel 0
        { bytes := (Message.wire.encAll (messagesOf ds hfits)).take cut } [] = some out ∧
      k ≤ ds.length ∧
      out.map eventArgs = (ds.take k).map (fun d => (d.1.toNat, d.2.record)) ∧
      ((∀ i, stop i = false) → ∀ j ≤ ds.length, j ≤ k ↔ wireLength (ds.take j) ≤ cut) := by
  obtain ⟨part, hpart⟩ : ∃ part, part = (Message.wire.encAll (messagesOf ds hfits)).take cut :=
    ⟨_, rfl⟩
  have hprefix : part <+: Message.wire.encAll (messagesOf ds hfits) :=
    hpart ▸ List.take_prefix _ _
  have hlength : part.length ≤ cut := hpart ▸ List.length_take_le _ _
  obtain ⟨n, hn, hstable⟩ := PipeEnd.readerLoop_eq chunk stop 0 (p := { bytes := part }) []
    (show part.length + 2 ≤ fuel by omega)
  have hall : (messagesOf ds hfits).length = ds.length := List.length_pmap
  obtain ⟨hmessages, -⟩ := Message.wire.decAll_isPrefix hprefix n
  have hk : (Message.wire.decAll n part).length ≤ ds.length := hall ▸ hmessages.length_le
  have htake : Message.wire.decAll n part =
      (messagesOf ds hfits).take (Message.wire.decAll n part).length :=
    List.prefix_iff_eq_take.mp hmessages
  rw [← hpart]
  refine ⟨_, (Message.wire.decAll n part).length, hn, hk, ?_, fun hstop j hj => ?_⟩
  · show ((Message.wire.decAll n part).map Subtype.val).map eventArgs = _
    conv_lhs => rw [htake]
    rw [messagesOf_take, eventArgs_messagesOf]
  · -- the reader goes on until the bytes end
    have hsame := hstable hstop (max n j) (Nat.le_max_left _ _)
    change Message.wire.decAll (max n j) part = Message.wire.decAll n part at hsame
    rw [← hsame, Message.wire.le_length_decAll_iff hprefix (hall ▸ hj) (Nat.le_max_right _ _),
      messagesOf_take, length_encAll_messagesOf, hpart, List.length_take,
      length_encAll_messagesOf]
    have hpartial : wireLength (ds.take j) ≤ wireLength ds := by
      rw [← length_encAll_messagesOf ds hfits, ← length_encAll_messagesOf (ds.take j)
        fun d hd => hfits d (List.mem_of_mem_take hd), ← messagesOf_take]
      exact (Message.wire.encAll_isPrefix (List.take_prefix _ _)).length_le
    exact ⟨fun h => h.trans (Nat.min_le_left _ _), fun h => le_min h hpartial⟩

/-- A module is unloaded, and an object destroyed. -/
def twoRecords : List (UInt64 × LogRecord) :=
  [(3, .moduleUnloaded (some ⟨0x7ff600000000⟩)), (9, .destroyed (some ⟨7⟩))]

theorem fits_twoRecords : ∀ d ∈ twoRecords, d.2.Fits := by
  simp only [twoRecords, List.forall_mem_cons]
  exact ⟨⟨by decide, trivial⟩, ⟨by decide, trivial⟩, by simp⟩

/-- The pipe breaks in the payload of the second record. -/
theorem records_arrive_twoRecords :
    ∃ (out : List Delivery) (k : ℕ),
      PipeEnd.readerLoop (fun _ => 10) (fun _ => false) 60 0
        { bytes := (Message.wire.encAll (messagesOf twoRecords fits_twoRecords)).take 58 } [] =
          some out ∧
      k ≤ twoRecords.length ∧
      out.map eventArgs = (twoRecords.take k).map (fun d => (d.1.toNat, d.2.record)) ∧
      ((∀ _ : ℕ, false = false) → ∀ j ≤ twoRecords.length,
        j ≤ k ↔ wireLength (twoRecords.take j) ≤ 58) :=
  records_arrive fits_twoRecords (fun _ => 10) (fun _ => false) (Nat.le_refl _)

/-! ### A DLL with one thread -/

/-- One thread makes the calls one after the other; the writes of each do as they please. -/
def sendAll (calls : List (SendCall × Write × Write)) : List (PipeClient.Act Unit) :=
  calls.flatMap fun c => [.enter () c.1, .locked () c.2.1 c.2.2]

theorem sent_sendLocked {T : Type*} (c : PipeClient T) (s : SendCall) (w₁ w₂ : Write) :
    (c.sendLocked s w₁ w₂).sent = c.sent ++ [s.message] ∧
      (c.sendLocked s w₁ w₂).waiting = c.waiting := by
  unfold PipeClient.sendLocked
  dsimp only
  split_ifs <;> exact ⟨rfl, rfl⟩

/-- Nothing goes through a closed pipe. -/
theorem run_closed (calls : List (SendCall × Write × Write)) {c : PipeClient Unit}
    (hopen : c.isOpen ≠ true) (hc : c.waiting = fun _ => none) :
    Machine.run PipeClient.step c (sendAll calls) = c := by
  induction calls with
  | nil => rfl
  | cons x calls ih =>
    obtain ⟨s, w₁, w₂⟩ := x
    have hstep : (c.step (.enter () s)).step (.locked () w₁ w₂) = c := by
      simp [PipeClient.step, hopen, hc]
    show Machine.run PipeClient.step ((c.step (.enter () s)).step (.locked () w₁ w₂))
      (sendAll calls) = c
    rw [hstep]
    exact ih

/-- The messages of one thread are sent in order, up to the first failure. -/
theorem sent_sendAll (calls : List (SendCall × Write × Write)) {c : PipeClient Unit}
    (hc : c.waiting = fun _ => none) :
    ∃ ms, ms <+: calls.map (fun x => x.1.message) ∧
      (Machine.run PipeClient.step c (sendAll calls)).sent = c.sent ++ ms := by
  induction calls generalizing c with
  | nil => exact ⟨[], List.nil_prefix, (List.append_nil _).symm⟩
  | cons x calls ih =>
    obtain ⟨s, w₁, w₂⟩ := x
    by_cases hopen : c.isOpen = true
    · obtain ⟨c₁, hc₁⟩ : ∃ c₁ : PipeClient Unit, c₁ = (({ c with
          waiting := Function.update (Function.update c.waiting () (some s)) () none } :
          PipeClient Unit).sendLocked s w₁ w₂) := ⟨_, rfl⟩
      have hstep : (c.step (.enter () s)).step (.locked () w₁ w₂) = c₁ := by
        simp [PipeClient.step, hopen, hc, hc₁]
      obtain ⟨hsent, hwait⟩ := sent_sendLocked ({ c with
          waiting := Function.update (Function.update c.waiting () (some s)) () none } :
          PipeClient Unit) s w₁ w₂
      rw [← hc₁] at hsent hwait
      obtain ⟨ms, hms, hrun⟩ := ih (c := c₁) (by rw [hwait]; funext u; simp)
      refine ⟨s.message :: ms, (List.prefix_cons_inj _).mpr hms, ?_⟩
      show (Machine.run PipeClient.step ((c.step (.enter () s)).step (.locked () w₁ w₂))
        (sendAll calls)).sent = _
      rw [hstep, hrun, hsent, List.append_assoc]
      rfl
    · refine ⟨[], List.nil_prefix, ?_⟩
      rw [run_closed _ hopen hc, List.append_nil]

/-- A DLL with one thread sends in the order of the calls. -/
theorem order_sendAll {xs : List (UInt64 × Doing)} (hfits : ∀ d ∈ (Source.run xs).stream, d.2.Fits)
    {calls : List (SendCall × Write × Write)}
    (hcalls : calls.map Prod.fst = (Source.run xs).stream.pmap sendCallOf hfits) :
    (PipeClient.run (sendAll calls)).sent.map Subtype.val <+:
      (Source.run xs).stream.map deliveryOf := by
  obtain ⟨ms, hms, hrun⟩ := sent_sendAll calls (c := {}) rfl
  have hsent : (PipeClient.run (sendAll calls)).sent = ms := hrun
  have hmap : (calls.map fun x => x.1.message).map Subtype.val =
      (Source.run xs).stream.map deliveryOf := by
    have hfst : (calls.map fun x => x.1.message) = (calls.map Prod.fst).map SendCall.message := by
      rw [List.map_map]
      rfl
    rw [hfst, hcalls, List.map_map, List.map_pmap]
    exact List.pmap_eq_map (f := deliveryOf) hfits
  rw [hsent, ← hmap]
  exact hms.map Subtype.val

/-- **The launcher's table is the tracker's at an earlier moment.**  Whatever writes fail, however
much of the stream arrives and in whatever pieces, and whenever the reader is told to stop: it
stops, and the launcher then holds exactly the objects that were in the tracker's table after some
part of the run, with the same description and the same name as far as its field holds it.  If
nothing went wrong, that is the whole run. -/
theorem launcher_lags {T : Type*} [DecidableEq T] {m : Model} (hm : m.live = ∅)
    {xs : List (UInt64 × Doing)} (hlegal : Legal xs) {acts : List (PipeClient.Act T)}
    (horder : (PipeClient.run acts).sent.map Subtype.val <+: (Source.run xs).stream.map deliveryOf)
    (chunk : ℕ → ℕ) (stop : ℕ → Bool) {cut fuel : ℕ}
    (hfuel : ((PipeClient.run acts).written.take cut).length + 2 ≤ fuel) :
    ∃ (ds : List Delivery) (k : ℕ), PipeEnd.delivered chunk stop acts cut fuel = some ds ∧
      k ≤ xs.length ∧
      (∀ id, ((m.deliver ds).live.lookup id).isSome ↔
        ∃ obj info, (Source.run (xs.take k)).tracker.objects.lookup obj = some info ∧
          info.id = id) ∧
      (∀ obj info, (Source.run (xs.take k)).tracker.objects.lookup obj = some info →
        ∃ o, (m.deliver ds).live.lookup info.id = some o ∧ o.tracked = info.tracked) ∧
      ((PipeClient.run acts).failed = false → (PipeClient.run acts).written.length ≤ cut →
        (∀ i, stop i = false) →
        (PipeClient.run acts).sent.map Subtype.val = (Source.run xs).stream.map deliveryOf →
        k = xs.length) := by
  obtain ⟨ms, hds, hms, hall⟩ := delivered_sent acts chunk stop hfuel
  -- what is delivered was handed to `Send` in a part of the run
  obtain ⟨part, hpart, hmap⟩ := List.prefix_map_iff.mp ((hms.map Subtype.val).trans horder)
  obtain ⟨k, hk, hrun, hwhole⟩ : ∃ k ≤ xs.length, (Source.run (xs.take k)).stream = part ∧
      (part = (Source.run xs).stream → k = xs.length) := by
    by_cases hwhole : part = (Source.run xs).stream
    · exact ⟨xs.length, Nat.le_refl _, by rw [List.take_length, hwhole], fun _ => rfl⟩
    · obtain ⟨k, hk, hrun⟩ := Source.source_take xs hpart
      exact ⟨k, hk, hrun, fun h => absurd h hwhole⟩
  have hlegal : Legal (xs.take k ++ xs.drop k) := by rwa [List.take_append_drop]
  have hinv : Source.Inv m (xs.take k) (Source.run (xs.take k)) :=
    Source.inv_run hm hlegal.of_append
  have hsim : Sim (Source.run (xs.take k)).tracker (m.deliver (ms.map Subtype.val)) := by
    rw [hmap, ← hrun, m.deliver_map hinv.fits]
    exact hinv.sim
  obtain ⟨hids, hentries⟩ := hsim.copy
  refine ⟨_, k, hds, hk, hids, hentries, fun hfailed hlen hstop hsent => hwhole ?_⟩
  rw [hall hfailed hlen hstop, hsent] at hmap
  refine hpart.eq_of_length ?_
  have hlength := congrArg List.length hmap
  rw [List.length_map, List.length_map] at hlength
  exact hlength.symm

theorem nulFree_nip : NulFree [78, 105, 112] := by decide

/-- A resource is created, named and destroyed; the write of the last record is cut short. -/
def shortRun : List (UInt64 × Doing) :=
  [(3, .send (.moduleUnloaded (some ⟨0x7ff600000000⟩))),
    (10, .call (.register 4096 { type := .resource, alloc := .committed, sizeBytes := 65536 })),
    (11, .call (.setName 4096 (some ⟨[78, 105, 112], nulFree_nip⟩))),
    (12, .call (.releaseToZero 4096))]

theorem legal_shortRun : Legal shortRun := by
  refine ⟨?_, by decide, by decide⟩
  simp only [shortRun, List.forall_mem_cons]
  refine ⟨⟨⟨by decide, trivial⟩, by decide, by decide, by decide⟩, ⟨by decide, ?_⟩, trivial,
    trivial, by simp⟩
  constructor <;> simp [kMaxCallstackFrames, NulFree]

theorem fits_shortRun : ∀ d ∈ (Source.run shortRun).stream, d.2.Fits :=
  (Source.inv_run (m := {}) rfl legal_shortRun).fits

/-- The calls of `Send`; the last payload does not get into the pipe. -/
def shortCalls : List (SendCall × Write × Write) :=
  ((Source.run shortRun).stream.pmap sendCallOf fits_shortRun).zip
    [(⟨true, 24⟩, ⟨true, 900⟩), (⟨true, 24⟩, ⟨true, 900⟩), (⟨true, 24⟩, ⟨true, 900⟩),
      (⟨true, 24⟩, ⟨false, 3⟩)]

theorem launcher_lags_shortRun :
    ∃ (ds : List Delivery) (k : ℕ),
      PipeEnd.delivered (fun _ => 100) (fun _ => false) (sendAll shortCalls) 5000 5002 = some ds ∧
      k ≤ shortRun.length ∧
      (∀ id, ((({} : Model).deliver ds).live.lookup id).isSome ↔
        ∃ obj info, (Source.run (shortRun.take k)).tracker.objects.lookup obj = some info ∧
          info.id = id) ∧
      (∀ obj info, (Source.run (shortRun.take k)).tracker.objects.lookup obj = some info →
        ∃ o, (({} : Model).deliver ds).live.lookup info.id = some o ∧ o.tracked = info.tracked) ∧
      ((PipeClient.run (sendAll shortCalls)).failed = false →
        (PipeClient.run (sendAll shortCalls)).written.length ≤ 5000 →
        (∀ _ : ℕ, false = false) →
        (PipeClient.run (sendAll shortCalls)).sent.map Subtype.val =
          (Source.run shortRun).stream.map deliveryOf →
        k = shortRun.length) := by
  refine launcher_lags rfl legal_shortRun (order_sendAll fits_shortRun ?_) (fun _ => 100)
    (fun _ => false) ?_
  · rw [shortCalls, List.map_fst_zip]
    rw [List.length_pmap]
    decide
  · rw [List.length_take]
    omega

end Dx12Track
