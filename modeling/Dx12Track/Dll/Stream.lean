import Dx12Track.Dll.Tracker

/-!
# The table and the stream

Every consumer of the stream rebuilds the tracker's table from it: an id is live
between its `created` and its `destroyed` record.  That works as long as no
pointer is registered while it is tracked.  `Tracker.h` says that `Register` then
updates the existing record; what it does is take a fresh id and overwrite the
entry, and the `destroyed` record of the old id never comes.

* `InStep` — the stream and the table agree.
* `Reregisters` — some call registers a pointer that is tracked.
* `inStep_iff` — **the two agree after a run exactly if it has no such call**.
-/

namespace Dx12Track

open Finmap (lookup_insert_eq lookup_erase_eq lookup_erase_some)

/-- The id a `created` record introduces. -/
def Record.createdId : Record → Option ℕ
  | .created p => some p.id
  | _ => none

def Record.renamedId : Record → Option ℕ
  | .renamed p => some p.id
  | _ => none

def Record.destroyedId : Record → Option ℕ
  | .destroyed p => some p.id
  | _ => none

namespace Tracker

/-- The ids of the `created` records of a stream. -/
def created (es : List Record) : List ℕ := es.filterMap Record.createdId

/-- The ids of the `destroyed` records of a stream. -/
def destroyed (es : List Record) : List ℕ := es.filterMap Record.destroyedId

/-- **The stream and the table are in step.** -/
structure InStep (t : Tracker) (es : List Record) : Prop where
  /-- The ids that were created and not destroyed are the ids in the table. -/
  live : ∀ id, (id ∈ created es ∧ id ∉ destroyed es) ↔
    ∃ obj info, t.objects.lookup obj = some info ∧ info.id = id
  /-- Two addresses have two ids. -/
  one_id : ∀ obj obj' info info', t.objects.lookup obj = some info →
    t.objects.lookup obj' = some info' → info.id = info'.id → obj = obj'
  created_once : (created es).Nodup
  destroyed_once : (destroyed es).Nodup
  /-- A record about an id comes after its creation and not after its destruction. -/
  ordered : ∀ us e vs, es = us ++ e :: vs → ∀ id,
    e.renamedId = some id ∨ e.destroyedId = some id → id ∈ created us ∧ id ∉ destroyed us

/-- The call registers a pointer that is tracked. -/
def Call.Reregisters (t : Tracker) : Call → Prop
  | .register obj _ => obj ≠ 0 ∧ (t.objects.lookup obj).isSome
  | _ => False

instance (t : Tracker) : (x : Call) → Decidable (x.Reregisters t)
  | .register obj _ => inferInstanceAs (Decidable (obj ≠ 0 ∧ (t.objects.lookup obj).isSome))
  | .setName _ _ => .isFalse id
  | .releaseToZero _ => .isFalse id

/-- Some call of the run registers a pointer that is tracked when it is made. -/
def Reregisters (xs : List Call) : Prop :=
  ∃ us x vs, xs = us ++ x :: vs ∧ x.Reregisters (traced us).1

instance (xs : List Call) : Decidable (Reregisters xs) :=
  decidable_of_iff _ (Machine.exists_split_iff (fun us x => x.Reregisters (traced us).1) xs).symm

/-! ### Streams that grow by one record -/

section Append

variable {es : List Record} {r : Record}

theorem created_concat (es : List Record) (r : Record) :
    created (es ++ [r]) = created es ++ r.createdId.toList := by
  unfold created
  rw [List.filterMap_append]
  cases hr : r.createdId <;> simp [hr]

theorem destroyed_concat (es : List Record) (r : Record) :
    destroyed (es ++ [r]) = destroyed es ++ r.destroyedId.toList := by
  unfold destroyed
  rw [List.filterMap_append]
  cases hr : r.destroyedId <;> simp [hr]

/-- The order of a stream that grows by one record. -/
theorem ordered_concat
    (h : ∀ us e vs, es = us ++ e :: vs → ∀ id,
      e.renamedId = some id ∨ e.destroyedId = some id → id ∈ created us ∧ id ∉ destroyed us)
    (hr : ∀ id, r.renamedId = some id ∨ r.destroyedId = some id →
      id ∈ created es ∧ id ∉ destroyed es) :
    ∀ us e vs, es ++ [r] = us ++ e :: vs → ∀ id,
      e.renamedId = some id ∨ e.destroyedId = some id → id ∈ created us ∧ id ∉ destroyed us := by
  intro us e vs heq id hid
  rcases List.eq_nil_or_concat vs with rfl | ⟨vs', x, rfl⟩
  · obtain ⟨rfl, he⟩ := List.append_inj' heq rfl
    cases he
    exact hr id hid
  · rw [List.concat_eq_append, ← List.cons_append, ← List.append_assoc] at heq
    obtain ⟨hes, -⟩ := List.append_inj' heq rfl
    exact h us e vs' hes id hid

end Append

/-! ### Runs without re-registration -/

/-- The invariant of runs: the stream and the table are in step, and the next id
is a new one. -/
structure Inv (s : Traced) : Prop extends InStep s.1 s.2 where
  fresh : ∀ id ∈ created s.2, id < s.1.nextId

theorem inv_start : Inv ({}, []) where
  live := by
    intro id
    constructor
    · rintro ⟨h, -⟩
      cases h
    · rintro ⟨obj, info, h, -⟩
      cases h
  one_id := fun obj obj' info info' h => by cases h
  created_once := List.nodup_nil
  destroyed_once := List.nodup_nil
  ordered := fun us e vs h => by simp at h
  fresh := fun id h => by cases h

theorem Inv.id_lt {s : Traced} (h : Inv s) {obj : ℕ} {info : ObjectInfo}
    (hinfo : s.1.objects.lookup obj = some info) : info.id < s.1.nextId :=
  h.fresh info.id ((h.live info.id).mpr ⟨obj, info, hinfo, rfl⟩).1

/-- What was destroyed had been created. -/
theorem InStep.created_of_destroyed {t : Tracker} {es : List Record} (h : InStep t es) {id : ℕ}
    (hmem : id ∈ destroyed es) : id ∈ created es := by
  obtain ⟨e, he, hid⟩ := List.mem_filterMap.mp hmem
  obtain ⟨us, vs, rfl⟩ := List.append_of_mem he
  have hus := (h.ordered us e vs rfl id (Or.inr hid)).1
  unfold created
  rw [List.filterMap_append]
  exact List.mem_append_left _ hus

section Calls

variable {t : Tracker} {es : List Record} {obj : ℕ}

theorem Inv.registered (h : Inv (t, es)) (info : ObjectInfo)
    (hnone : t.objects.lookup obj = none) :
    Inv (t.takeId.put obj (stamp info obj t.nextId),
      es ++ [emitCreated (stamp info obj t.nextId)]) := by
  have hnew : t.nextId ∉ created es := fun hmem => Nat.lt_irrefl _ (h.fresh _ hmem)
  -- what is destroyed was created, and the id is new
  have hnotDestroyed : t.nextId ∉ destroyed es := fun hmem =>
    hnew (h.toInStep.created_of_destroyed hmem)
  have hcreated : created (es ++ [emitCreated (stamp info obj t.nextId)])
      = created es ++ [t.nextId] := created_concat es _
  have hdestroyed : destroyed (es ++ [emitCreated (stamp info obj t.nextId)])
      = destroyed es := (destroyed_concat es _).trans (List.append_nil _)
  have hlook : ∀ obj', ((t.takeId.put obj (stamp info obj t.nextId)).objects).lookup obj'
      = if obj' = obj then some (stamp info obj t.nextId) else t.objects.lookup obj' :=
    fun obj' => lookup_insert_eq obj obj' _ t.objects
  refine ⟨⟨?live, ?one_id, ?created_once, ?destroyed_once, ?ordered⟩, ?fresh⟩
  case live =>
    intro id
    rw [hcreated, hdestroyed]
    constructor
    · rintro ⟨hmem, hnd⟩
      rcases List.mem_append.mp hmem with hold | hlast
      · obtain ⟨obj', info', hinfo', hid⟩ := (h.live id).mp ⟨hold, hnd⟩
        have hne : obj' ≠ obj := by
          rintro rfl
          rw [hnone] at hinfo'
          cases hinfo'
        exact ⟨obj', info', (hlook obj').trans ((if_neg hne).trans hinfo'), hid⟩
      · rw [List.mem_singleton] at hlast
        exact ⟨obj, stamp info obj t.nextId, (hlook obj).trans (if_pos rfl), hlast.symm⟩
    · rintro ⟨obj', info', hinfo', hid⟩
      rw [hlook] at hinfo'
      split at hinfo'
      · cases hinfo'
        have hid' : t.nextId = id := hid
        rw [← hid']
        exact ⟨List.mem_append_right _ (List.mem_singleton.mpr rfl), hnotDestroyed⟩
      · obtain ⟨hold, hnd⟩ := (h.live id).mpr ⟨obj', info', hinfo', hid⟩
        exact ⟨List.mem_append_left _ hold, hnd⟩
  case one_id =>
    -- the new id is above all that are in the table
    intro o o' i i' hi hi' hid
    rw [hlook] at hi hi'
    split at hi
    · next ho =>
      cases hi
      split at hi'
      · next ho' => rw [ho, ho']
      · have hlt : i'.id < t.nextId := h.id_lt hi'
        have hid' : t.nextId = i'.id := hid
        omega
    · split at hi'
      · cases hi'
        have hlt : i.id < t.nextId := h.id_lt hi
        have hid' : i.id = t.nextId := hid
        omega
      · exact h.one_id o o' i i' hi hi' hid
  case created_once =>
    rw [hcreated, List.nodup_append]
    refine ⟨h.created_once, List.nodup_singleton _, ?_⟩
    intro a ha b hb
    rw [List.mem_singleton] at hb
    rw [hb]
    exact fun hab => hnew (hab ▸ ha)
  case destroyed_once =>
    rw [hdestroyed]
    exact h.destroyed_once
  -- a create is neither a rename nor a destroy
  case ordered =>
    refine ordered_concat h.ordered fun id hid => ?_
    rcases hid with hid | hid <;> cases hid
  case fresh =>
    intro id hmem
    rw [hcreated] at hmem
    show id < t.nextId + 1
    rcases List.mem_append.mp hmem with hold | hlast
    · have hlt : id < t.nextId := h.fresh id hold
      omega
    · rw [List.mem_singleton] at hlast
      omega

theorem Inv.renamed (h : Inv (t, es)) {info : ObjectInfo}
    (hinfo : t.objects.lookup obj = some info) (name : WString) :
    Inv (t.put obj { info with name := name }, es ++ [emitRenamed info.id name]) := by
  have hcreated : created (es ++ [emitRenamed info.id name]) = created es :=
    (created_concat es _).trans (List.append_nil _)
  have hdestroyed : destroyed (es ++ [emitRenamed info.id name]) = destroyed es :=
    (destroyed_concat es _).trans (List.append_nil _)
  -- the ids of the table are those that were there
  have hids : ∀ obj', ((t.put obj { info with name := name }).objects.lookup obj').map
      ObjectInfo.id = (t.objects.lookup obj').map ObjectInfo.id := by
    intro obj'
    show ((t.objects.insert obj { info with name := name }).lookup obj').map ObjectInfo.id = _
    rw [lookup_insert_eq]
    split
    · next ho => rw [ho, hinfo]; rfl
    · rfl
  have hlook : ∀ obj' i, (t.put obj { info with name := name }).objects.lookup obj' = some i →
      ∃ i₀, t.objects.lookup obj' = some i₀ ∧ i₀.id = i.id := by
    intro obj' i hi
    have hmap := hids obj'
    rw [hi] at hmap
    exact Option.map_eq_some_iff.mp hmap.symm
  refine ⟨⟨?live, ?one_id, ?created_once, ?destroyed_once, ?ordered⟩, ?fresh⟩
  case live =>
    intro id
    rw [hcreated, hdestroyed, h.live id]
    constructor
    · rintro ⟨obj', i, hi, hid⟩
      have hmap := hids obj'
      rw [hi] at hmap
      obtain ⟨i', hi', hid'⟩ := Option.map_eq_some_iff.mp hmap
      exact ⟨obj', i', hi', hid'.trans hid⟩
    · rintro ⟨obj', i, hi, hid⟩
      obtain ⟨i₀, hi₀, hid₀⟩ := hlook obj' i hi
      exact ⟨obj', i₀, hi₀, hid₀.trans hid⟩
  case one_id =>
    intro o o' i i' hi hi' hid
    obtain ⟨a, ha, haid⟩ := hlook o i hi
    obtain ⟨b, hb, hbid⟩ := hlook o' i' hi'
    exact h.one_id o o' a b ha hb (haid.trans (hid.trans hbid.symm))
  case created_once =>
    rw [hcreated]
    exact h.created_once
  case destroyed_once =>
    rw [hdestroyed]
    exact h.destroyed_once
  case ordered =>
    refine ordered_concat h.ordered fun id hid => ?_
    rcases hid with hid | hid
    · cases hid
      exact (h.live info.id).mpr ⟨obj, info, hinfo, rfl⟩
    · cases hid
  case fresh =>
    rw [hcreated]
    exact h.fresh

theorem Inv.destroyed (h : Inv (t, es)) {info : ObjectInfo}
    (hinfo : t.objects.lookup obj = some info) :
    Inv ({ t with objects := t.objects.erase obj }, es ++ [emitDestroyed info.id]) := by
  have hcreated : created (es ++ [emitDestroyed info.id]) = created es :=
    (created_concat es _).trans (List.append_nil _)
  have hdestroyed : Tracker.destroyed (es ++ [emitDestroyed info.id])
      = Tracker.destroyed es ++ [info.id] := destroyed_concat es _
  -- the id of the entry is live in the stream
  have hmine := (h.live info.id).mpr ⟨obj, info, hinfo, rfl⟩
  have hlook : ∀ obj' i, (t.objects.erase obj).lookup obj' = some i →
      obj' ≠ obj ∧ t.objects.lookup obj' = some i := fun obj' i hi => lookup_erase_some hi
  refine ⟨⟨?live, ?one_id, ?created_once, ?destroyed_once, ?ordered⟩, ?fresh⟩
  case live =>
    intro id
    rw [hcreated, hdestroyed, List.mem_append, List.mem_singleton, not_or]
    constructor
    · rintro ⟨hmem, hnd, hne⟩
      obtain ⟨obj', i, hi, hid⟩ := (h.live id).mp ⟨hmem, hnd⟩
      refine ⟨obj', i, ?_, hid⟩
      show (t.objects.erase obj).lookup obj' = some i
      rw [lookup_erase_eq, if_neg, hi]
      rintro rfl
      rw [hinfo] at hi
      cases hi
      exact hne hid.symm
    · -- another entry has another id
      rintro ⟨obj', i, hi, hid⟩
      obtain ⟨hne, hi₀⟩ := hlook obj' i hi
      obtain ⟨hmem, hnd⟩ := (h.live id).mpr ⟨obj', i, hi₀, hid⟩
      refine ⟨hmem, hnd, fun heq => hne ?_⟩
      exact h.one_id obj' obj i info hi₀ hinfo (hid.trans heq)
  case one_id =>
    intro o o' i i' hi hi' hid
    exact h.one_id o o' i i' (hlook o i hi).2 (hlook o' i' hi').2 hid
  case created_once =>
    rw [hcreated]
    exact h.created_once
  case destroyed_once =>
    rw [hdestroyed, List.nodup_append]
    refine ⟨h.destroyed_once, List.nodup_singleton _, ?_⟩
    intro a ha b hb
    rw [List.mem_singleton] at hb
    rw [hb]
    exact fun hab => hmine.2 (hab ▸ ha)
  case ordered =>
    refine ordered_concat h.ordered fun id hid => ?_
    rcases hid with hid | hid
    · cases hid
    · cases hid
      exact hmine
  case fresh =>
    rw [hcreated]
    exact h.fresh

end Calls

/-- **One call keeps the stream and the table in step**, unless it registers a
pointer that is tracked. -/
theorem inv_step {s : Traced} (h : Inv s) (x : Call) (hx : ¬x.Reregisters s.1) :
    Inv (tracedStep s x) := by
  obtain ⟨t, es⟩ := s
  have heff := step_effect t x
  unfold tracedStep
  dsimp only at h hx ⊢
  generalize t.step x = out at heff ⊢
  cases heff with
  | idle x hidle =>
    rw [List.append_nil]
    exact h
  | registered obj info hobj =>
    have hnone : t.objects.lookup obj = none := by
      by_contra hsome
      exact hx ⟨hobj, Option.isSome_iff_ne_none.mpr hsome⟩
    exact h.registered info hnone
  | renamed obj name info hinfo => exact h.renamed hinfo _
  | destroyed obj info hinfo => exact h.destroyed hinfo

theorem inv_traced {xs : List Call} (h : ¬Reregisters xs) : Inv (traced xs) := by
  refine Machine.run_induction tracedStep ({}, []) (fun xs => ¬Reregisters xs)
    (fun _ s => Inv s) ?_ inv_start ?_ xs h
  · rintro xs x hall ⟨us, y, vs, rfl, hy⟩
    exact hall ⟨us, y, vs ++ [x], by simp, hy⟩
  · intro xs x hall hinv
    refine inv_step hinv x fun hx => hall ⟨xs, x, [], rfl, hx⟩

/-! ### Runs with one -/

/-- An id that was created, was not destroyed, and is in no entry. -/
structure Leaked (id : ℕ) (s : Traced) : Prop where
  old : id < s.1.nextId
  created : id ∈ created s.2
  not_destroyed : id ∉ destroyed s.2
  lost : ∀ obj info, s.1.objects.lookup obj = some info → info.id ≠ id

/-- A leaked id stays leaked. -/
theorem Leaked.step {id : ℕ} {s : Traced} (h : Leaked id s) (x : Call) :
    Leaked id (tracedStep s x) := by
  obtain ⟨t, es⟩ := s
  obtain ⟨hold, hcreated, hnd, hlost⟩ := h
  have heff := step_effect t x
  unfold tracedStep
  dsimp only at hold hcreated hnd hlost ⊢
  generalize t.step x = out at heff ⊢
  -- a created id stays created
  have hgrow : ∀ r, id ∈ Tracker.created (es ++ [r]) := fun r => by
    rw [created_concat]
    exact List.mem_append_left _ hcreated
  cases heff with
  | idle x hidle =>
    rw [List.append_nil]
    exact ⟨hold, hcreated, hnd, hlost⟩
  | registered obj info hobj =>
    refine ⟨Nat.lt_succ_of_lt hold, hgrow _, ?_, fun o i hi => ?_⟩
    · rw [destroyed_concat]
      simpa [emitCreated, Record.destroyedId] using hnd
    · change (t.objects.insert obj _).lookup o = some i at hi
      rw [lookup_insert_eq] at hi
      split at hi
      · cases hi
        exact (Nat.ne_of_lt hold).symm
      · exact hlost o i hi
  | renamed obj name info hinfo =>
    refine ⟨hold, hgrow _, ?_, fun o i hi => ?_⟩
    · rw [destroyed_concat]
      simpa [emitRenamed, Record.destroyedId] using hnd
    · change (t.objects.insert obj _).lookup o = some i at hi
      rw [lookup_insert_eq] at hi
      split at hi
      · cases hi
        exact hlost obj info hinfo
      · exact hlost o i hi
  | destroyed obj info hinfo =>
    refine ⟨hold, hgrow _, ?_, fun o i hi => ?_⟩
    · rw [destroyed_concat]
      have hne := hlost obj info hinfo
      simp [emitDestroyed, Record.destroyedId, hnd, hne.symm]
    · exact hlost o i (lookup_erase_some hi).2

theorem Leaked.run {id : ℕ} {s : Traced} (h : Leaked id s) (xs : List Call) :
    Leaked id (Machine.run tracedStep s xs) := by
  induction xs generalizing s with
  | nil => exact h
  | cons x xs ih => exact ih (h.step x)

/-- Registering a tracked pointer leaks the id it had. -/
theorem leaked_of_reregister {s : Traced} (h : Inv s) {obj : ℕ} {old : ObjectInfo}
    (hobj : obj ≠ 0) (hold : s.1.objects.lookup obj = some old) (info : ObjectInfo) :
    Leaked old.id (tracedStep s (.register obj info)) := by
  obtain ⟨t, es⟩ := s
  have hlive := (h.live old.id).mpr ⟨obj, old, hold, rfl⟩
  have hlt : old.id < t.nextId := h.id_lt hold
  have hstep : t.step (.register obj info)
      = (t.takeId.put obj (stamp info obj t.nextId), [emitCreated (stamp info obj t.nextId)]) := by
    simp [step, register, hobj]
  unfold tracedStep
  rw [hstep]
  refine ⟨Nat.lt_succ_of_lt hlt, ?_, ?_, fun o i hi => ?_⟩
  · rw [created_concat]
    exact List.mem_append_left _ hlive.1
  · rw [destroyed_concat]
    simpa [emitCreated, Record.destroyedId] using hlive.2
  · change (t.objects.insert obj _).lookup o = some i at hi
    rw [lookup_insert_eq] at hi
    split at hi
    · cases hi
      exact (Nat.ne_of_lt hlt).symm
    · next hne =>
      exact fun hid => hne (h.one_id o obj i old hi hold hid)

/-- A run with a re-registration has a first one. -/
theorem Reregisters.first {xs : List Call} (h : Reregisters xs) :
    ∃ us x vs, xs = us ++ x :: vs ∧ ¬Reregisters us ∧ x.Reregisters (traced us).1 := by
  induction xs using List.reverseRecOn with
  | nil =>
    obtain ⟨us, x, vs, heq, -⟩ := h
    simp at heq
  | append_singleton xs x ih =>
    by_cases hxs : Reregisters xs
    · obtain ⟨us, y, vs, rfl, hno, hy⟩ := ih hxs
      exact ⟨us, y, vs ++ [x], by simp, hno, hy⟩
    · obtain ⟨us, y, vs, heq, hy⟩ := h
      rcases List.eq_nil_or_concat vs with rfl | ⟨vs', z, rfl⟩
      · obtain ⟨rfl, hxy⟩ := List.append_inj' heq rfl
        cases hxy
        exact ⟨xs, x, [], rfl, hxs, hy⟩
      · rw [List.concat_eq_append, ← List.cons_append, ← List.append_assoc] at heq
        obtain ⟨hxs', -⟩ := List.append_inj' heq rfl
        exact absurd ⟨us, y, vs', hxs', hy⟩ hxs

/-- **The stream and the table are in step after a run exactly if no call of it
registers a pointer that is tracked.** -/
theorem inStep_iff (xs : List Call) :
    InStep (traced xs).1 (traced xs).2 ↔ ¬Reregisters xs := by
  constructor
  · intro hstep hre
    obtain ⟨us, x, vs, rfl, hno, hx⟩ := hre.first
    have hinv := inv_traced hno
    cases x with
    | setName obj name => exact hx
    | releaseToZero obj => exact hx
    | register obj info =>
      obtain ⟨hobj, hsome⟩ := hx
      obtain ⟨old, hold⟩ := Option.isSome_iff_exists.mp hsome
      have hleak : Leaked old.id (traced (us ++ .register obj info :: vs)) := by
        have hrun : traced (us ++ .register obj info :: vs)
            = Machine.run tracedStep (tracedStep (traced us) (.register obj info)) vs := by
          unfold traced
          rw [Machine.run_append]
          rfl
        rw [hrun]
        exact (leaked_of_reregister hinv hobj hold info).run vs
      obtain ⟨obj', info', hinfo', hid⟩ :=
        (hstep.live old.id).mp ⟨hleak.created, hleak.not_destroyed⟩
      exact hleak.lost obj' info' hinfo' hid
  · exact fun h => (inv_traced h).toInStep

/-- The same pointer, registered twice. -/
def doubleRegister : List Call :=
  [.register 4096 { type := .resource }, .register 4096 { type := .rootSignature }]

/-- Two ids are live on the stream for the one entry of the table. -/
theorem not_inStep_doubleRegister :
    ¬InStep (traced doubleRegister).1 (traced doubleRegister).2 := by
  intro h
  obtain ⟨obj, info, hinfo, hid⟩ := (h.live 1).mp (by decide)
  have htable : (traced doubleRegister).1.objects
      = (∅ : Table ℕ ObjectInfo).insert 4096
        { id := 2, type := .rootSignature, objectPtr := 4096 } := by decide
  rw [htable, lookup_insert_eq] at hinfo
  split at hinfo
  · cases hinfo
    exact absurd hid (by decide)
  · cases hinfo

end Tracker

end Dx12Track
