import Mathlib.Data.Fintype.Basic
import Dx12Track.Dll.Stream

/-!
# Releases and creations on many threads

An object's address is free as soon as the real `Release` has dropped its last
reference, and only then does `Hook_Release` tell the tracker.  In between,
another thread's `Create*` can be given the address and register it.

A world has any number of threads.  A `Create*` hook is the real create, which
returns a new object at any free address, followed by the steps of `Register`: an
id is taken, the entry is written under the lock, the record is sent.  A
`Hook_Release` is the real release, followed by the steps of `OnReleaseToZero`:
the entry is removed under the lock, the record is sent.

* `Pc`, `World`, `Act`, `World.step` — threads and their steps.
* `Faithful` — every death is reported once, under the id of the object that
  died, and no living object loses its entry.
* `Overtakes` — an entry is written while the release of the previous object at
  that address has not yet removed its own.
* `faithful_of_orderly` — **without such a step, every state is faithful**.
* `not_faithful_overtaken` — with one, a living object is reported dead.
-/

namespace Dx12Track

open Finmap (lookup_insert_eq lookup_erase_eq lookup_erase_some)
open Tracker (stamp emitCreated emitDestroyed destroyed)

/-- Where a thread is in a hook, and for which object at which address. -/
inductive Pc
  | idle
  /-- The real create has returned the object `n` at `p`. -/
  | created (n p : ℕ) (info : ObjectInfo)
  /-- `Register` has taken an id, which `info` carries. -/
  | numbered (n p : ℕ) (info : ObjectInfo)
  /-- `Register` has written the entry. -/
  | entered (n p : ℕ) (info : ObjectInfo)
  /-- The real release has dropped the last reference to `n`; `p` is free. -/
  | released (n p : ℕ)
  /-- `OnReleaseToZero` has removed an entry, which had the number `id`. -/
  | removed (n p id : ℕ)

/-- The object a thread is at work on. -/
def Pc.object : Pc → Option ℕ
  | .idle => none
  | .created n _ _ | .numbered n _ _ | .entered n _ _ | .released n _ | .removed n _ _ => some n

/-- The address whose entry the thread is about to write. -/
def Pc.writing : Pc → Option ℕ
  | .numbered _ p _ => some p
  | _ => none

/-- The address whose entry the thread is about to remove. -/
def Pc.removing : Pc → Option ℕ
  | .released _ p => some p
  | _ => none

/-- The target process: its threads, its objects and the tracker. -/
structure World (T : Type) where
  tracker : Tracker := {}
  /-- The living object at each address. -/
  heap : ℕ → Option ℕ := fun _ => none
  /-- The number of objects that were ever created. -/
  born : ℕ := 0
  pc : T → Pc := fun _ => .idle
  /-- The id that `Register` gave an object. -/
  idOf : ℕ → Option ℕ := fun _ => none
  /-- The object's `Create*` hook has returned it to the app. -/
  handed : ℕ → Bool := fun _ => false
  /-- The records sent, each with the object it was sent for. -/
  sent : List (ℕ × Record) := []

/-- A step of the thread `t`. -/
inductive Act (T : Type)
  /-- The real create returns a new object at the free address `p`. -/
  | create (t : T) (p : ℕ) (info : ObjectInfo)
  /-- `next_id_.fetch_add`. -/
  | number (t : T)
  /-- The locked section of `Register`. -/
  | enter (t : T)
  /-- `EmitCreated`; the hook returns. -/
  | announce (t : T)
  /-- The real release drops the last reference to the object at `p`. -/
  | release (t : T) (p : ℕ)
  /-- The locked section of `OnReleaseToZero`. -/
  | remove (t : T)
  /-- `EmitDestroyed`; the hook returns. -/
  | report (t : T)

namespace World

variable {T : Type} [DecidableEq T]

def setPc (w : World T) (t : T) (pc : Pc) : World T := { w with pc := Function.update w.pc t pc }

/-- The stream, without the objects. -/
def stream (w : World T) : List Record := w.sent.map Prod.snd

/-- One step; an action that is not possible changes nothing. -/
def step (w : World T) : Act T → World T
  | .create t p info =>
    match w.pc t with
    | .idle =>
      if p ≠ 0 ∧ w.heap p = none then
        setPc { w with heap := Function.update w.heap p (some w.born), born := w.born + 1 } t
          (.created w.born p info)
      else w
    | _ => w
  | .number t =>
    match w.pc t with
    | .created n p info =>
      setPc { w with
        tracker := w.tracker.takeId
        idOf := Function.update w.idOf n (some w.tracker.nextId) } t
        (.numbered n p (stamp info p w.tracker.nextId))
    | _ => w
  | .enter t =>
    match w.pc t with
    | .numbered n p info => setPc { w with tracker := w.tracker.put p info } t (.entered n p info)
    | _ => w
  | .announce t =>
    match w.pc t with
    | .entered n _ info =>
      setPc { w with
        handed := Function.update w.handed n true
        sent := w.sent ++ [(n, emitCreated info)] } t .idle
    | _ => w
  | .release t p =>
    match w.pc t, w.heap p with
    | .idle, some n =>
      if w.handed n then
        setPc { w with heap := Function.update w.heap p none } t (.released n p)
      else w
    | _, _ => w
  | .remove t =>
    match w.pc t with
    | .released n p =>
      match w.tracker.take p with
      | none => setPc w t .idle
      | some (id, tr) => setPc { w with tracker := tr } t (.removed n p id)
    | _ => w
  | .report t =>
    match w.pc t with
    | .removed n _ id => setPc { w with sent := w.sent ++ [(n, emitDestroyed id)] } t .idle
    | _ => w

def run (xs : List (Act T)) : World T := Machine.run step {} xs

/-- The object has died. -/
def Dead (w : World T) (n : ℕ) : Prop := ∀ p, w.heap p ≠ some n

/-- `Register` has written the object's entry. -/
def Registered (w : World T) (n : ℕ) : Prop :=
  w.handed n = true ∨ ∃ t p info, w.pc t = .entered n p info

/-- No thread is in a hook for the object. -/
def Settled (w : World T) (n : ℕ) : Prop := ∀ t, (w.pc t).object ≠ some n

/-- **The stream is faithful to the objects.** -/
structure Faithful (w : World T) : Prop where
  /-- A death is reported under the id of the object whose release reported it. -/
  own : ∀ x ∈ w.sent, ∀ id, x.2.destroyedId = some id → w.idOf x.1 = some id
  /-- Once the last release of a registered object has returned, its death has
  been reported exactly once. -/
  once : ∀ n id, w.idOf n = some id → w.Dead n → w.Settled n →
    (destroyed w.stream).count id = 1
  /-- No death is reported twice, and none of an object that lives. -/
  at_most : ∀ id, (destroyed w.stream).count id ≤ 1
  not_early : ∀ n id, w.idOf n = some id → ¬w.Dead n → id ∉ destroyed w.stream
  /-- A living object that was registered has its entry. -/
  kept : ∀ p n, w.heap p = some n → w.Registered n → ∃ info,
    w.tracker.objects.lookup p = some info ∧ w.idOf n = some info.id

/-- The step writes the entry of an address for which a release is pending. -/
def Overtakes (w : World T) : Act T → Prop
  | .enter t => (w.pc t).writing.isSome ∧ ∃ t', (w.pc t').removing = (w.pc t).writing
  | _ => False

/-- No step of the run overtakes a pending release. -/
def Orderly (xs : List (Act T)) : Prop :=
  ¬∃ us a vs, xs = us ++ a :: vs ∧ (run us).Overtakes a

instance [Fintype T] (w : World T) : (a : Act T) → Decidable (w.Overtakes a)
  | .enter _ => inferInstanceAs (Decidable (_ ∧ _))
  | .create _ _ _ | .number _ | .announce _ | .release _ _ | .remove _ | .report _ => .isFalse id

instance [Fintype T] (xs : List (Act T)) : Decidable (Orderly xs) :=
  decidable_of_iff _
    (not_congr (Machine.exists_split_iff (fun us a => (run us).Overtakes a) xs)).symm

/-! ### What a step can do -/

inductive Move (w : World T) : Act T → World T → Prop
  | stay (a : Act T) : Move w a w
  | create (t : T) (p : ℕ) (info : ObjectInfo) (hpc : w.pc t = .idle) (hp : p ≠ 0)
      (hfree : w.heap p = none) :
      Move w (.create t p info)
        (setPc { w with heap := Function.update w.heap p (some w.born), born := w.born + 1 } t
          (.created w.born p info))
  | number (t : T) (n p : ℕ) (info : ObjectInfo) (hpc : w.pc t = .created n p info) :
      Move w (.number t)
        (setPc { w with
          tracker := w.tracker.takeId
          idOf := Function.update w.idOf n (some w.tracker.nextId) } t
          (.numbered n p (stamp info p w.tracker.nextId)))
  | enter (t : T) (n p : ℕ) (info : ObjectInfo) (hpc : w.pc t = .numbered n p info) :
      Move w (.enter t)
        (setPc { w with tracker := w.tracker.put p info } t (.entered n p info))
  | announce (t : T) (n p : ℕ) (info : ObjectInfo) (hpc : w.pc t = .entered n p info) :
      Move w (.announce t)
        (setPc { w with
          handed := Function.update w.handed n true
          sent := w.sent ++ [(n, emitCreated info)] } t .idle)
  | release (t : T) (n p : ℕ) (hpc : w.pc t = .idle) (hheap : w.heap p = some n)
      (hhanded : w.handed n = true) :
      Move w (.release t p)
        (setPc { w with heap := Function.update w.heap p none } t (.released n p))
  | missing (t : T) (n p : ℕ) (hpc : w.pc t = .released n p)
      (hnone : w.tracker.objects.lookup p = none) : Move w (.remove t) (setPc w t .idle)
  | remove (t : T) (n p : ℕ) (info : ObjectInfo) (hpc : w.pc t = .released n p)
      (hinfo : w.tracker.objects.lookup p = some info) :
      Move w (.remove t)
        (setPc { w with tracker := { w.tracker with objects := w.tracker.objects.erase p } } t
          (.removed n p info.id))
  | report (t : T) (n p id : ℕ) (hpc : w.pc t = .removed n p id) :
      Move w (.report t)
        (setPc { w with sent := w.sent ++ [(n, emitDestroyed id)] } t .idle)

theorem step_move (w : World T) (a : Act T) : Move w a (w.step a) := by
  cases a with
  | create t p info =>
    unfold step
    dsimp only
    split
    · next hpc =>
      split
      · next hp => exact .create t p info hpc hp.1 hp.2
      · exact .stay _
    · exact .stay _
  | number t =>
    unfold step
    dsimp only
    split
    · next n p info hpc => exact .number t n p info hpc
    · exact .stay _
  | enter t =>
    unfold step
    dsimp only
    split
    · next n p info hpc => exact .enter t n p info hpc
    · exact .stay _
  | announce t =>
    unfold step
    dsimp only
    split
    · next n p info hpc => exact .announce t n p info hpc
    · exact .stay _
  | release t p =>
    unfold step
    dsimp only
    split
    · next n hpc hheap =>
      split
      · next hhanded => exact .release t n p hpc hheap hhanded
      · exact .stay _
    · exact .stay _
  | remove t =>
    unfold step
    dsimp only
    split
    · next n p hpc =>
      unfold Tracker.take
      cases hinfo : w.tracker.objects.lookup p with
      | none => exact .missing t n p hpc hinfo
      | some info => exact .remove t n p info hpc hinfo
    · exact .stay _
  | report t =>
    unfold step
    dsimp only
    split
    · next n p id hpc => exact .report t n p id hpc
    · exact .stay _

/-! ### The invariant -/

/-- What holds of a thread, by where it is. -/
def PcOk (w : World T) : Pc → Prop
  | .idle => True
  | .created n p _ => w.heap p = some n ∧ w.idOf n = none
  | .numbered n p info => w.heap p = some n ∧ w.idOf n = some info.id ∧ w.handed n = false
  | .entered n p info => w.heap p = some n ∧ w.idOf n = some info.id ∧ w.handed n = false ∧
      w.tracker.objects.lookup p = some info
  | .released n p => w.Dead n ∧ ∃ info,
      w.tracker.objects.lookup p = some info ∧ w.idOf n = some info.id
  | .removed n _ id => w.Dead n ∧ w.idOf n = some id ∧
      ∀ q info, w.tracker.objects.lookup q = some info → info.id ≠ id

omit [DecidableEq T] in
/-- What holds of a thread still holds when a change has left its object alone. -/
theorem PcOk.mono {w w' : World T} {pc : Pc} (h : w.PcOk pc)
    (hheap : ∀ n p, pc.object = some n → w.heap p = some n → w'.heap p = some n)
    (hdead : ∀ n, pc.object = some n → w.Dead n → w'.Dead n)
    (hid : ∀ n, pc.object = some n → w'.idOf n = w.idOf n)
    (hhanded : ∀ n, pc.object = some n → w'.handed n = w.handed n)
    (hkept : ∀ n p info, pc.object = some n → w.idOf n = some info.id →
      w.tracker.objects.lookup p = some info → w'.tracker.objects.lookup p = some info)
    (hgone : ∀ n p info, pc.object = some n → w.Dead n → w.idOf n = some info.id →
      w'.tracker.objects.lookup p = some info → w.tracker.objects.lookup p = some info) :
    w'.PcOk pc := by
  cases pc with
  | idle => trivial
  | created n p info => exact ⟨hheap n p rfl h.1, (hid n rfl).trans h.2⟩
  | numbered n p info =>
    exact ⟨hheap n p rfl h.1, (hid n rfl).trans h.2.1, (hhanded n rfl).trans h.2.2⟩
  | entered n p info =>
    exact ⟨hheap n p rfl h.1, (hid n rfl).trans h.2.1, (hhanded n rfl).trans h.2.2.1,
      hkept n p info rfl h.2.1 h.2.2.2⟩
  | released n p =>
    obtain ⟨hd, info, hinfo, hnid⟩ := h
    exact ⟨hdead n rfl hd, info, hkept n p info rfl hnid hinfo, (hid n rfl).trans hnid⟩
  | removed n p id =>
    refine ⟨hdead n rfl h.1, (hid n rfl).trans h.2.1, fun q info hinfo heq => ?_⟩
    exact h.2.2 q info (hgone n q info rfl h.1 (heq ▸ h.2.1) hinfo) heq

/-- The object whose entry stands at `p`: it lives there and was entered, or its
release is pending. -/
def Owns (w : World T) (p n : ℕ) : Prop :=
  (w.heap p = some n ∧ (w.handed n = true ∨ ∃ t info, w.pc t = .entered n p info)) ∨
    ∃ t, w.pc t = .released n p

structure Inv (w : World T) : Prop where
  one_thread : ∀ t t' n, (w.pc t).object = some n → (w.pc t').object = some n → t = t'
  one_place : ∀ p q n, w.heap p = some n → w.heap q = some n → p = q
  heap_born : ∀ p n, w.heap p = some n → n < w.born
  id_born : ∀ n id, w.idOf n = some id → n < w.born ∧ id < w.tracker.nextId
  one_object : ∀ n n' id, w.idOf n = some id → w.idOf n' = some id → n = n'
  handed_id : ∀ n, w.handed n = true → ∃ id, w.idOf n = some id
  pc_ok : ∀ t, w.PcOk (w.pc t)
  entry : ∀ p info, w.tracker.objects.lookup p = some info →
    ∃ n, w.idOf n = some info.id ∧ w.Owns p n
  kept : ∀ p n, w.heap p = some n → w.handed n = true → ∃ info,
    w.tracker.objects.lookup p = some info ∧ w.idOf n = some info.id
  told : ∀ n id, w.idOf n = some id →
    (id ∈ destroyed w.stream ↔ w.Dead n ∧ w.Settled n)
  once : (destroyed w.stream).Nodup
  own : ∀ x ∈ w.sent, ∀ id, x.2.destroyedId = some id → w.idOf x.1 = some id

omit [DecidableEq T] in
theorem inv_start : Inv ({} : World T) where
  one_thread := fun _ _ _ h => by cases h
  one_place := fun _ _ _ h => by cases h
  heap_born := fun _ _ h => by cases h
  id_born := fun _ _ h => by cases h
  one_object := fun _ _ _ h => by cases h
  handed_id := fun _ h => by cases h
  pc_ok := fun _ => trivial
  entry := fun _ _ h => by cases h
  kept := fun _ _ h => by cases h
  told := fun _ _ h => by cases h
  once := List.nodup_nil
  own := fun _ h => by cases h

theorem pc_setPc (w : World T) (t t' : T) (pc : Pc) :
    (w.setPc t pc).pc t' = if t' = t then pc else w.pc t' := Function.update_apply w.pc t pc t'

/-- A thread that is elsewhere stays there. -/
theorem pc_setPc_stay {w : World T} {t t' : T} {pc pc₀ : Pc} (new : Pc) (ht : w.pc t = pc₀)
    (ht' : w.pc t' = pc) (hne : pc ≠ pc₀) : (w.setPc t new).pc t' = pc := by
  rw [pc_setPc, if_neg, ht']
  rintro rfl
  exact hne (ht'.symm.trans ht)

/-- A thread that goes on with its object changes nobody's object. -/
theorem object_setPc {w : World T} {t : T} {pc : Pc} (h : pc.object = (w.pc t).object) (t' : T) :
    ((w.setPc t pc).pc t').object = (w.pc t').object := by
  rw [pc_setPc]
  split
  · next heq => rw [h, heq]
  · rfl

omit [DecidableEq T] in
/-- The owner of an entry stays the owner if it stays where it is. -/
theorem Owns.mono {w w' : World T} {p n : ℕ} (h : w.Owns p n)
    (hheap : w.heap p = some n → w'.heap p = some n)
    (hhanded : w.handed n = true → w'.handed n = true)
    (hentered : ∀ t info, w.pc t = .entered n p info → w'.pc t = .entered n p info)
    (hreleased : ∀ t, w.pc t = .released n p → w'.pc t = .released n p) : w'.Owns p n := by
  rcases h with ⟨hp, hh | ⟨t, info, ht⟩⟩ | ⟨t, ht⟩
  · exact Or.inl ⟨hheap hp, Or.inl (hhanded hh)⟩
  · exact Or.inl ⟨hheap hp, Or.inr ⟨t, info, hentered t info ht⟩⟩
  · exact Or.inr ⟨t, hreleased t ht⟩

omit [DecidableEq T] in
theorem settled_of_object {w w' : World T} (h : ∀ t, (w'.pc t).object = (w.pc t).object) (n : ℕ) :
    w'.Settled n ↔ w.Settled n := by
  unfold Settled
  simp only [h]

/-- A thread that neither had `n` nor gets it changes no hook in progress for `n`. -/
theorem settled_setPc {w : World T} {t : T} {pc pc₀ : Pc} {n : ℕ} (ht : w.pc t = pc₀)
    (hold : pc₀.object ≠ some n) (hnew : pc.object ≠ some n) :
    (w.setPc t pc).Settled n ↔ w.Settled n := by
  subst ht
  unfold Settled
  refine forall_congr' fun t' => not_congr ?_
  rw [pc_setPc]
  split
  · next heq =>
    rw [heq]
    exact iff_of_false hnew hold
  · exact Iff.rfl

namespace Inv

variable {w : World T}

omit [DecidableEq T] in
theorem object_lt (h : Inv w) {t : T} {n : ℕ} (ht : (w.pc t).object = some n) : n < w.born := by
  have hok := h.pc_ok t
  cases hpc : w.pc t with
  | idle => rw [hpc] at ht; cases ht
  | created n' p info =>
    rw [hpc] at ht hok
    cases ht
    exact h.heap_born p n hok.1
  | numbered n' p info =>
    rw [hpc] at ht hok
    cases ht
    exact h.heap_born p n hok.1
  | entered n' p info =>
    rw [hpc] at ht hok
    cases ht
    exact h.heap_born p n hok.1
  | released n' p =>
    rw [hpc] at ht hok
    cases ht
    obtain ⟨-, info, -, hid⟩ := hok
    exact (h.id_born n _ hid).1
  | removed n' p id =>
    rw [hpc] at ht hok
    cases ht
    exact (h.id_born n _ hok.2.1).1

omit [DecidableEq T] in
/-- A reported id is one that was given out. -/
theorem told_known (h : Inv w) {id : ℕ} (hid : id ∈ destroyed w.stream) :
    ∃ n, w.idOf n = some id := by
  obtain ⟨e, he, heid⟩ := List.mem_filterMap.mp hid
  obtain ⟨x, hx, rfl⟩ := List.mem_map.mp he
  exact ⟨x.1, h.own x hx id heid⟩

theorem create (h : Inv w) {t : T} {p : ℕ} (info : ObjectInfo) (hpc : w.pc t = .idle)
    (hfree : w.heap p = none) :
    Inv (setPc { w with heap := Function.update w.heap p (some w.born), born := w.born + 1 } t
      (.created w.born p info)) := by
  set w' := setPc { w with heap := Function.update w.heap p (some w.born), born := w.born + 1 } t
    (.created w.born p info)
  have hpc' : ∀ t', w'.pc t' = if t' = t then .created w.born p info else w.pc t' :=
    fun t' => pc_setPc _ t t' _
  have hheap : ∀ q, w'.heap q = if q = p then some w.born else w.heap q :=
    Function.update_apply w.heap p (some w.born)
  -- the place was free, so no object is displaced
  have hold : ∀ q n, w.heap q = some n → w'.heap q = some n := by
    intro q n hq
    rw [hheap, if_neg, hq]
    rintro rfl
    rw [hfree] at hq
    cases hq
  have hdead : ∀ n, n ≠ w.born → (w'.Dead n ↔ w.Dead n) := by
    intro n hn
    constructor
    · exact fun hd q hq => hd q (hold q n hq)
    · intro hd q hq
      rw [hheap] at hq
      split at hq
      · cases hq
        exact hn rfl
      · exact hd q hq
  have hsettled : ∀ n, n ≠ w.born → (w'.Settled n ↔ w.Settled n) := by
    intro n hn
    exact settled_setPc hpc (by simp [Pc.object]) (by simp [Pc.object, hn.symm])
  -- the new number is past every number in use, so it has no identifier yet
  have hne : ∀ n id, w.idOf n = some id → n ≠ w.born := by
    intro n id hid
    have := (h.id_born n id hid).1
    omega
  constructor
  -- only `t` holds the new object: the others hold older ones
  case one_thread =>
    intro a b n ha hb
    rw [hpc'] at ha hb
    split at ha
    · next hat =>
      split at hb
      · next hbt => rw [hat, hbt]
      · cases ha
        exact absurd (h.object_lt hb) (Nat.lt_irrefl _)
    · split at hb
      · cases hb
        exact absurd (h.object_lt ha) (Nat.lt_irrefl _)
      · exact h.one_thread a b n ha hb
  -- a new object at one place, an older one at any other
  case one_place =>
    intro q q' n hq hq'
    rw [hheap] at hq hq'
    split at hq
    · next hqp =>
      split at hq'
      · next hqp' => rw [hqp, hqp']
      · cases hq
        exact absurd (h.heap_born q' _ hq') (Nat.lt_irrefl _)
    · split at hq'
      · cases hq'
        exact absurd (h.heap_born q _ hq) (Nat.lt_irrefl _)
      · exact h.one_place q q' n hq hq'
  case heap_born =>
    intro q n hq
    show n < w.born + 1
    rw [hheap] at hq
    split at hq
    · cases hq
      omega
    · have := h.heap_born q n hq
      omega
  case id_born =>
    intro n id hid
    obtain ⟨hb, hn⟩ := h.id_born n id hid
    exact ⟨Nat.lt_succ_of_lt hb, hn⟩
  case one_object => exact h.one_object
  case handed_id => exact h.handed_id
  case pc_ok =>
    intro t'
    rw [hpc']
    split
    · refine ⟨(hheap p).trans (if_pos rfl), ?_⟩
      show w.idOf w.born = none
      cases hid : w.idOf w.born with
      | none => rfl
      | some id => exact absurd rfl (hne w.born id hid)
    · refine (h.pc_ok t').mono (fun n q _ hq => hold q n hq) (fun n hn hd => ?_) (fun _ _ => rfl)
        (fun _ _ => rfl) (fun _ _ _ _ _ hi => hi) fun _ _ _ _ _ _ hi => hi
      have hlt := h.object_lt hn
      exact (hdead n (Nat.ne_of_lt hlt)).mpr hd
  case entry =>
    intro q i hi
    obtain ⟨n, hid, howns⟩ := h.entry q i hi
    exact ⟨n, hid, howns.mono (hold q n) (fun hh => hh)
      (fun t' i' ht' => pc_setPc_stay _ hpc ht' (by simp))
      fun t' ht' => pc_setPc_stay _ hpc ht' (by simp)⟩
  case kept =>
    intro q n hq hh
    obtain ⟨id, hid⟩ := h.handed_id n hh
    rw [hheap] at hq
    split at hq
    · cases hq
      exact absurd rfl (hne w.born id hid)
    · exact h.kept q n hq hh
  case told =>
    intro n id hid
    have hn := hne n id hid
    rw [hdead n hn, hsettled n hn]
    exact h.told n id hid
  case once => exact h.once
  case own => exact h.own

theorem number (h : Inv w) {t : T} {n p : ℕ} {info : ObjectInfo}
    (hpc : w.pc t = .created n p info) :
    Inv (setPc { w with
      tracker := w.tracker.takeId
      idOf := Function.update w.idOf n (some w.tracker.nextId) } t
      (.numbered n p (stamp info p w.tracker.nextId))) := by
  set w' := setPc { w with
      tracker := w.tracker.takeId
      idOf := Function.update w.idOf n (some w.tracker.nextId) } t
      (.numbered n p (stamp info p w.tracker.nextId))
  have hok : w.heap p = some n ∧ w.idOf n = none := by
    have := h.pc_ok t
    rwa [hpc] at this
  obtain ⟨hlives, hnone⟩ := hok
  have hpc' : ∀ t', w'.pc t' = if t' = t then .numbered n p (stamp info p w.tracker.nextId)
      else w.pc t' := fun t' => pc_setPc _ t t' _
  have hid : ∀ m, w'.idOf m = if m = n then some w.tracker.nextId else w.idOf m :=
    Function.update_apply w.idOf n (some w.tracker.nextId)
  have hobj : ∀ t', (w'.pc t').object = (w.pc t').object :=
    object_setPc (show some n = (w.pc t).object by rw [hpc]; rfl)
  have hold : ∀ m id, w.idOf m = some id → w'.idOf m = some id := by
    intro m id hm
    rw [hid, if_neg, hm]
    rintro rfl
    rw [hnone] at hm
    cases hm
  have hother : ∀ t', t' ≠ t → (w.pc t').object ≠ some n := by
    intro t' hne ho
    exact hne (h.one_thread t' t n ho (by rw [hpc]; rfl))
  constructor
  case one_thread =>
    intro a b m ha hb
    rw [hobj] at ha hb
    exact h.one_thread a b m ha hb
  case one_place => exact h.one_place
  case heap_born => exact h.heap_born
  case id_born =>
    intro m id hm
    show m < w.born ∧ id < w.tracker.nextId + 1
    rw [hid] at hm
    split at hm
    · next heq =>
      cases hm
      exact ⟨heq ▸ h.heap_born p n hlives, Nat.lt_succ_self _⟩
    · obtain ⟨hb, hn⟩ := h.id_born m id hm
      exact ⟨hb, Nat.lt_succ_of_lt hn⟩
  case one_object =>
    intro m m' id hm hm'
    rw [hid] at hm hm'
    split at hm
    · next heq =>
      split at hm'
      · next heq' => rw [heq, heq']
      · cases hm
        exact absurd (h.id_born m' _ hm').2 (Nat.lt_irrefl _)
    · split at hm'
      · cases hm'
        exact absurd (h.id_born m _ hm).2 (Nat.lt_irrefl _)
      · exact h.one_object m m' id hm hm'
  case handed_id =>
    intro m hm
    obtain ⟨id, hmid⟩ := h.handed_id m hm
    exact ⟨id, hold m id hmid⟩
  case pc_ok =>
    intro t'
    rw [hpc']
    split
    · refine ⟨hlives, (hid n).trans (if_pos rfl), ?_⟩
      show w.handed n = false
      cases hh : w.handed n with
      | false => rfl
      | true =>
        obtain ⟨id, hmid⟩ := h.handed_id n hh
        rw [hnone] at hmid
        cases hmid
    · next hne =>
      refine (h.pc_ok t').mono (fun _ _ _ hq => hq) (fun _ _ hd => hd) (fun m hm => ?_)
        (fun _ _ => rfl) (fun _ _ _ _ _ hi => hi) fun _ _ _ _ _ _ hi => hi
      rw [hid, if_neg]
      rintro rfl
      exact hother t' hne hm
  case entry =>
    intro q i hi
    obtain ⟨m, hmid, howns⟩ := h.entry q i hi
    exact ⟨m, hold m _ hmid, howns.mono (fun hq => hq) (fun hh => hh)
      (fun t' i' ht' => pc_setPc_stay _ hpc ht' (by simp))
      fun t' ht' => pc_setPc_stay _ hpc ht' (by simp)⟩
  case kept =>
    intro q m hq hh
    obtain ⟨i, hi, hmid⟩ := h.kept q m hq hh
    exact ⟨i, hi, hold m _ hmid⟩
  case told =>
    intro m id hm
    have hsettled := settled_of_object hobj m
    have hdead : w'.Dead m ↔ w.Dead m := Iff.rfl
    rw [hsettled, hdead]
    rw [hid] at hm
    split at hm
    · next heq =>
      -- the new id has not been reported, and its object lives
      cases hm
      constructor
      · intro htold
        obtain ⟨m', hm'⟩ := h.told_known htold
        exact absurd (h.id_born m' _ hm').2 (Nat.lt_irrefl _)
      · rintro ⟨hd, -⟩
        exact absurd (heq ▸ hlives) (hd p)
    · exact h.told m id hm
  case once => exact h.once
  case own => exact fun x hx id hxid => hold x.1 id (h.own x hx id hxid)

theorem enter (h : Inv w) {t : T} {n p : ℕ} {info : ObjectInfo}
    (hpc : w.pc t = .numbered n p info) (hno : ∀ t' n', w.pc t' ≠ .released n' p) :
    Inv (setPc { w with tracker := w.tracker.put p info } t (.entered n p info)) := by
  set w' := setPc { w with tracker := w.tracker.put p info } t (.entered n p info)
  have hok : w.heap p = some n ∧ w.idOf n = some info.id ∧ w.handed n = false := by
    have := h.pc_ok t
    rwa [hpc] at this
  obtain ⟨hlives, hnid, hnh⟩ := hok
  have hpc' : ∀ t', w'.pc t' = if t' = t then .entered n p info else w.pc t' :=
    fun t' => pc_setPc _ t t' _
  have hlook : ∀ q, w'.tracker.objects.lookup q
      = if q = p then some info else w.tracker.objects.lookup q :=
    fun q => lookup_insert_eq p q info w.tracker.objects
  have hobj : ∀ t', (w'.pc t').object = (w.pc t').object :=
    object_setPc (show some n = (w.pc t).object by rw [hpc]; rfl)
  -- the previous object at `p` has been removed, and this one is new
  have hempty : w.tracker.objects.lookup p = none := by
    cases hi : w.tracker.objects.lookup p with
    | none => rfl
    | some i =>
      obtain ⟨m, -, ⟨hq, hh⟩ | ⟨t', ht'⟩⟩ := h.entry p i hi
      · rw [hlives] at hq
        cases hq
        rcases hh with hh | ⟨t', i', ht'⟩
        · rw [hnh] at hh
          cases hh
        · have hsame : t' = t := h.one_thread t' t n (by rw [ht']; rfl) (by rw [hpc]; rfl)
          rw [hsame, hpc] at ht'
          cases ht'
      · exact absurd ht' (hno t' m)
  have hold : ∀ q i, w.tracker.objects.lookup q = some i →
      w'.tracker.objects.lookup q = some i := by
    intro q i hi
    rw [hlook, if_neg, hi]
    rintro rfl
    rw [hempty] at hi
    cases hi
  constructor
  case one_thread =>
    intro a b m ha hb
    rw [hobj] at ha hb
    exact h.one_thread a b m ha hb
  case one_place => exact h.one_place
  case heap_born => exact h.heap_born
  case id_born => exact h.id_born
  case one_object => exact h.one_object
  case handed_id => exact h.handed_id
  case pc_ok =>
    intro t'
    rw [hpc']
    split
    · exact ⟨hlives, hnid, hnh, (hlook p).trans (if_pos rfl)⟩
    · refine (h.pc_ok t').mono (fun _ _ _ hq => hq) (fun _ _ hd => hd) (fun _ _ => rfl)
        (fun _ _ => rfl) (fun _ q i _ _ hi => hold q i hi) fun m q i _ hd hm hi => ?_
      rw [hlook] at hi
      split at hi
      · -- the new entry is not that of an object that has died
        cases hi
        have hmn : m = n := h.one_object m n _ hm hnid
        exact absurd (hmn ▸ hlives) (hd p)
      · exact hi
  case entry =>
    intro q i hi
    rw [hlook] at hi
    split at hi
    · next heq =>
      cases hi
      exact ⟨n, hnid, Or.inl ⟨heq ▸ hlives, Or.inr ⟨t, info, by rw [hpc', if_pos rfl, heq]⟩⟩⟩
    · obtain ⟨m, hmid, howns⟩ := h.entry q i hi
      exact ⟨m, hmid, howns.mono (fun hq => hq) (fun hh => hh)
        (fun t' i' ht' => pc_setPc_stay _ hpc ht' (by simp))
        fun t' ht' => pc_setPc_stay _ hpc ht' (by simp)⟩
  case kept =>
    intro q m hq hh
    obtain ⟨i, hi, hmid⟩ := h.kept q m hq hh
    exact ⟨i, hold q i hi, hmid⟩
  case told =>
    intro m id hm
    have hsettled := settled_of_object hobj m
    rw [hsettled]
    exact h.told m id hm
  case once => exact h.once
  case own => exact h.own

theorem announce (h : Inv w) {t : T} {n p : ℕ} {info : ObjectInfo}
    (hpc : w.pc t = .entered n p info) :
    Inv (setPc { w with
      handed := Function.update w.handed n true
      sent := w.sent ++ [(n, emitCreated info)] } t .idle) := by
  set w' := setPc { w with
      handed := Function.update w.handed n true
      sent := w.sent ++ [(n, emitCreated info)] } t .idle
  have hok : w.heap p = some n ∧ w.idOf n = some info.id ∧ w.handed n = false ∧
      w.tracker.objects.lookup p = some info := by
    have := h.pc_ok t
    rwa [hpc] at this
  obtain ⟨hlives, hnid, -, hentry⟩ := hok
  have hpc' : ∀ t', w'.pc t' = if t' = t then .idle else w.pc t' := fun t' => pc_setPc _ t t' _
  have hhanded : ∀ m, w'.handed m = if m = n then true else w.handed m :=
    Function.update_apply w.handed n true
  -- a create message adds nothing to the destroyed identifiers
  have hstream : destroyed w'.stream = destroyed w.stream := by
    show destroyed ((w.sent ++ [(n, emitCreated info)]).map Prod.snd) = _
    rw [List.map_append]
    exact (Tracker.destroyed_concat _ _).trans (List.append_nil _)
  have hobj : ∀ t' m, (w'.pc t').object = some m → t' ≠ t ∧ (w.pc t').object = some m := by
    intro t' m ht'
    rw [hpc'] at ht'
    split at ht'
    · cases ht'
    · next hne => exact ⟨hne, ht'⟩
  constructor
  case one_thread =>
    intro a b m ha hb
    exact h.one_thread a b m (hobj a m ha).2 (hobj b m hb).2
  case one_place => exact h.one_place
  case heap_born => exact h.heap_born
  case id_born => exact h.id_born
  case one_object => exact h.one_object
  case handed_id =>
    intro m hm
    rw [hhanded] at hm
    split at hm
    · next heq => exact ⟨info.id, heq ▸ hnid⟩
    · exact h.handed_id m hm
  case pc_ok =>
    intro t'
    rw [hpc']
    split
    · trivial
    · next hne =>
      have hno : (w.pc t').object ≠ some n := fun ho =>
        hne (h.one_thread t' t n ho (by rw [hpc]; rfl))
      refine (h.pc_ok t').mono (fun _ _ _ hq => hq) (fun _ _ hd => hd) (fun _ _ => rfl)
        (fun m hm => ?_) (fun _ _ _ _ _ hi => hi) fun _ _ _ _ _ _ hi => hi
      rw [hhanded, if_neg]
      rintro rfl
      exact hno hm
  -- an entry that `t` was entering is now one of a handed object
  case entry =>
    intro q i hi
    obtain ⟨m, hmid, howns⟩ := h.entry q i hi
    refine ⟨m, hmid, ?_⟩
    have hkeep : w.handed m = true → w'.handed m = true := by
      intro hm
      rw [hhanded]
      split
      · rfl
      · exact hm
    rcases howns with ⟨hq, hh | ⟨t', i', ht'⟩⟩ | ⟨t', ht'⟩
    · exact Or.inl ⟨hq, Or.inl (hkeep hh)⟩
    · refine Or.inl ⟨hq, ?_⟩
      by_cases hsame : t' = t
      · rw [hsame, hpc] at ht'
        cases ht'
        exact Or.inl ((hhanded n).trans (if_pos rfl))
      · exact Or.inr ⟨t', i', by rw [hpc', if_neg hsame, ht']⟩
    · exact Or.inr ⟨t', pc_setPc_stay _ hpc ht' (by simp)⟩
  case kept =>
    intro q m hq hh
    rw [hhanded] at hh
    split at hh
    · next heq =>
      have hqp : q = p := h.one_place q p n (heq ▸ hq) hlives
      exact ⟨info, hqp ▸ hentry, heq ▸ hnid⟩
    · exact h.kept q m hq hh
  -- the object lives, so neither side of the equivalence is true of it
  case told =>
    intro m id hm
    rw [hstream]
    by_cases hmn : m = n
    · subst hmn
      have hdead : ¬w.Dead m := fun hd => hd p hlives
      rw [h.told m id hm]
      exact ⟨fun hd => absurd hd.1 hdead, fun hd => absurd hd.1 hdead⟩
    · have hsettled : w'.Settled m ↔ w.Settled m :=
        settled_setPc hpc (by simp [Pc.object, Ne.symm hmn]) (by simp [Pc.object])
      rw [hsettled]
      exact h.told m id hm
  case once =>
    rw [hstream]
    exact h.once
  case own =>
    intro x hx id hxid
    rcases List.mem_append.mp hx with hx | hx
    · exact h.own x hx id hxid
    · rw [List.mem_singleton] at hx
      rw [hx] at hxid
      cases hxid

theorem release (h : Inv w) {t : T} {n p : ℕ} (hpc : w.pc t = .idle) (hlives : w.heap p = some n)
    (hhanded : w.handed n = true) :
    Inv (setPc { w with heap := Function.update w.heap p none } t (.released n p)) := by
  set w' := setPc { w with heap := Function.update w.heap p none } t (.released n p)
  have hpc' : ∀ t', w'.pc t' = if t' = t then .released n p else w.pc t' :=
    fun t' => pc_setPc _ t t' _
  have hheap : ∀ q, w'.heap q = if q = p then none else w.heap q :=
    Function.update_apply w.heap p none
  obtain ⟨info, hentry, hnid⟩ := h.kept p n hlives hhanded
  have hold : ∀ q m, w'.heap q = some m → q ≠ p ∧ w.heap q = some m := by
    intro q m hq
    rw [hheap] at hq
    split at hq
    · cases hq
    · next hne => exact ⟨hne, hq⟩
  have hother : ∀ m, m ≠ n → ∀ q, w.heap q = some m → w'.heap q = some m := by
    intro m hmn q hq
    rw [hheap, if_neg, hq]
    rintro rfl
    rw [hlives] at hq
    cases hq
    exact hmn rfl
  have hdeadn : w'.Dead n := by
    intro q hq
    obtain ⟨hne, hq'⟩ := hold q n hq
    exact hne (h.one_place q p n hq' hlives)
  have hdead : ∀ m, w.Dead m → w'.Dead m := fun m hd q hq => hd q (hold q m hq).2
  -- no hook is in progress for a living object that the app holds
  have hfree : ∀ t', (w.pc t').object ≠ some n := by
    intro t' ht'
    have hok := h.pc_ok t'
    cases hpt : w.pc t' with
    | idle => rw [hpt] at ht'; cases ht'
    | created m q i =>
      rw [hpt] at ht' hok
      cases ht'
      rw [hok.2] at hnid
      cases hnid
    | numbered m q i =>
      rw [hpt] at ht' hok
      cases ht'
      rw [hok.2.2] at hhanded
      cases hhanded
    | entered m q i =>
      rw [hpt] at ht' hok
      cases ht'
      rw [hok.2.2.1] at hhanded
      cases hhanded
    | released m q =>
      rw [hpt] at ht' hok
      cases ht'
      exact hok.1 p hlives
    | removed m q id =>
      rw [hpt] at ht' hok
      cases ht'
      exact hok.1 p hlives
  constructor
  case one_thread =>
    intro a b m ha hb
    rw [hpc'] at ha hb
    split at ha
    · next hat =>
      split at hb
      · next hbt => rw [hat, hbt]
      · cases ha
        exact absurd hb (hfree b)
    · split at hb
      · cases hb
        exact absurd ha (hfree a)
      · exact h.one_thread a b m ha hb
  case one_place => exact fun q q' m hq hq' => h.one_place q q' m (hold q m hq).2 (hold q' m hq').2
  case heap_born => exact fun q m hq => h.heap_born q m (hold q m hq).2
  case id_born => exact h.id_born
  case one_object => exact h.one_object
  case handed_id => exact h.handed_id
  case pc_ok =>
    intro t'
    rw [hpc']
    split
    · exact ⟨hdeadn, info, hentry, hnid⟩
    · refine (h.pc_ok t').mono (fun m q hm hq => ?_) (fun m _ hd => hdead m hd) (fun _ _ => rfl)
        (fun _ _ => rfl) (fun _ _ _ _ _ hi => hi) fun _ _ _ _ _ _ hi => hi
      refine hother m ?_ q hq
      rintro rfl
      exact hfree t' hm
  case entry =>
    intro q i hi
    obtain ⟨m, hmid, howns⟩ := h.entry q i hi
    refine ⟨m, hmid, ?_⟩
    rcases howns with ⟨hq, hh | ⟨t', i', ht'⟩⟩ | ⟨t', ht'⟩
    · by_cases hmn : m = n
      · have hqp : q = p := h.one_place q p n (hmn ▸ hq) hlives
        exact Or.inr ⟨t, by rw [hpc', if_pos rfl, hmn, hqp]⟩
      · exact Or.inl ⟨hother m hmn q hq, Or.inl hh⟩
    · have hmn : m ≠ n := by
        rintro rfl
        exact hfree t' (by rw [ht']; rfl)
      exact Or.inl ⟨hother m hmn q hq,
        Or.inr ⟨t', i', pc_setPc_stay _ hpc ht' (by simp)⟩⟩
    · exact Or.inr ⟨t', pc_setPc_stay _ hpc ht' (by simp)⟩
  case kept => exact fun q m hq hh => h.kept q m (hold q m hq).2 hh
  case told =>
    intro m id hm
    show id ∈ destroyed w.stream ↔ _
    rw [h.told m id hm]
    by_cases hmn : m = n
    · subst hmn
      constructor
      · exact fun hd => absurd hlives (hd.1 p)
      · exact fun hd => absurd (by rw [hpc', if_pos rfl]; rfl) (hd.2 t)
    · have hsettled : w'.Settled m ↔ w.Settled m :=
        settled_setPc hpc (by simp [Pc.object]) (by simp [Pc.object, Ne.symm hmn])
      rw [hsettled]
      refine and_congr_left fun _ => ⟨hdead m, fun hd q hq => hd q (hother m hmn q hq)⟩
  case once => exact h.once
  case own => exact h.own

theorem remove (h : Inv w) {t : T} {n p : ℕ} {info : ObjectInfo}
    (hpc : w.pc t = .released n p) (hinfo : w.tracker.objects.lookup p = some info) :
    Inv (setPc { w with tracker := { w.tracker with objects := w.tracker.objects.erase p } } t
      (.removed n p info.id)) := by
  set w' := setPc { w with tracker := { w.tracker with objects := w.tracker.objects.erase p } } t
    (.removed n p info.id)
  have hok : w.Dead n ∧ ∃ i, w.tracker.objects.lookup p = some i ∧ w.idOf n = some i.id := by
    have := h.pc_ok t
    rwa [hpc] at this
  obtain ⟨hdead, i₀, hi₀, hnid⟩ := hok
  -- the entry that is removed is the dead object's own
  rw [hinfo] at hi₀
  cases hi₀
  have hpc' : ∀ t', w'.pc t' = if t' = t then .removed n p info.id else w.pc t' :=
    fun t' => pc_setPc _ t t' _
  have hlook : ∀ q, w'.tracker.objects.lookup q
      = if q = p then none else w.tracker.objects.lookup q :=
    fun q => lookup_erase_eq p q w.tracker.objects
  have hobj : ∀ t', (w'.pc t').object = (w.pc t').object :=
    object_setPc (show some n = (w.pc t).object by rw [hpc]; rfl)
  have hkeep : ∀ q i m, w.tracker.objects.lookup q = some i → w.idOf m = some i.id → m ≠ n →
      w'.tracker.objects.lookup q = some i := by
    intro q i m hi hm hmn
    rw [hlook, if_neg, hi]
    rintro rfl
    rw [hinfo] at hi
    cases hi
    exact hmn (h.one_object m n _ hm hnid)
  constructor
  case one_thread =>
    intro a b m ha hb
    rw [hobj] at ha hb
    exact h.one_thread a b m ha hb
  case one_place => exact h.one_place
  case heap_born => exact h.heap_born
  case id_born => exact h.id_born
  case one_object => exact h.one_object
  case handed_id => exact h.handed_id
  case pc_ok =>
    intro t'
    rw [hpc']
    split
    · refine ⟨hdead, hnid, fun q i hi heq => ?_⟩
      rw [hlook] at hi
      split at hi
      · cases hi
      · next hqp =>
        obtain ⟨m, hmid, howns⟩ := h.entry q i hi
        have hmn : m = n := h.one_object m n _ (heq ▸ hmid) hnid
        rcases howns with ⟨hq, -⟩ | ⟨t₁, ht₁⟩
        · exact hdead q (hmn ▸ hq)
        · have hsame : t₁ = t := h.one_thread t₁ t n (by rw [ht₁, hmn]; rfl) (by rw [hpc]; rfl)
          rw [hsame, hpc] at ht₁
          cases ht₁
          exact hqp rfl
    · next hne =>
      refine (h.pc_ok t').mono (fun _ _ _ hq => hq) (fun _ _ hd => hd) (fun _ _ => rfl)
        (fun _ _ => rfl) (fun m q i hm hmid hi => ?_) fun m q i _ _ _ hi => (lookup_erase_some hi).2
      refine hkeep q i m hi hmid ?_
      rintro rfl
      exact hne (h.one_thread t' t m hm (by rw [hpc]; rfl))
  case entry =>
    intro q i hi
    rw [hlook] at hi
    split at hi
    · cases hi
    · next hqp =>
      obtain ⟨m, hmid, howns⟩ := h.entry q i hi
      refine ⟨m, hmid, howns.mono (fun hq => hq) (fun hh => hh)
        (fun t' i' ht' => pc_setPc_stay _ hpc ht' (by simp))
        fun t' ht' => pc_setPc_stay _ hpc ht' ?_⟩
      intro heq
      cases heq
      exact hqp rfl
  case kept =>
    intro q m hq hh
    obtain ⟨i, hi, hmid⟩ := h.kept q m hq hh
    refine ⟨i, hkeep q i m hi hmid ?_, hmid⟩
    rintro rfl
    exact hdead q hq
  case told =>
    intro m id hm
    have hsettled := settled_of_object hobj m
    rw [hsettled]
    exact h.told m id hm
  case once => exact h.once
  case own => exact h.own

theorem report (h : Inv w) {t : T} {n p id : ℕ} (hpc : w.pc t = .removed n p id) :
    Inv (setPc { w with sent := w.sent ++ [(n, emitDestroyed id)] } t .idle) := by
  set w' := setPc { w with sent := w.sent ++ [(n, emitDestroyed id)] } t .idle
  have hok : w.Dead n ∧ w.idOf n = some id ∧
      ∀ q info, w.tracker.objects.lookup q = some info → info.id ≠ id := by
    have := h.pc_ok t
    rwa [hpc] at this
  obtain ⟨hdead, hnid, -⟩ := hok
  have hpc' : ∀ t', w'.pc t' = if t' = t then .idle else w.pc t' := fun t' => pc_setPc _ t t' _
  have hstream : destroyed w'.stream = destroyed w.stream ++ [id] := by
    show destroyed ((w.sent ++ [(n, emitDestroyed id)]).map Prod.snd) = _
    rw [List.map_append]
    exact Tracker.destroyed_concat _ _
  have hobj : ∀ t' m, (w'.pc t').object = some m → t' ≠ t ∧ (w.pc t').object = some m := by
    intro t' m ht'
    rw [hpc'] at ht'
    split at ht'
    · cases ht'
    · next hne => exact ⟨hne, ht'⟩
  -- `t` itself still holds the object, so its report is not in the stream
  have hnew : id ∉ destroyed w.stream := by
    rw [h.told n id hnid]
    exact fun hd => hd.2 t (by rw [hpc]; rfl)
  constructor
  case one_thread =>
    intro a b m ha hb
    exact h.one_thread a b m (hobj a m ha).2 (hobj b m hb).2
  case one_place => exact h.one_place
  case heap_born => exact h.heap_born
  case id_born => exact h.id_born
  case one_object => exact h.one_object
  case handed_id => exact h.handed_id
  case pc_ok =>
    intro t'
    rw [hpc']
    split
    · trivial
    · exact h.pc_ok t'
  case entry =>
    intro q i hi
    obtain ⟨m, hmid, howns⟩ := h.entry q i hi
    exact ⟨m, hmid, howns.mono (fun hq => hq) (fun hh => hh)
      (fun t' i' ht' => pc_setPc_stay _ hpc ht' (by simp))
      fun t' ht' => pc_setPc_stay _ hpc ht' (by simp)⟩
  case kept => exact h.kept
  case told =>
    intro m id' hm
    rw [hstream, List.mem_append, List.mem_singleton]
    -- the reported object is settled from here on; of the others nothing changes
    by_cases hmn : m = n
    · subst hmn
      cases hnid.symm.trans hm
      refine ⟨fun _ => ⟨hdead, fun t' ht' => ?_⟩, fun _ => Or.inr rfl⟩
      obtain ⟨hne, ho⟩ := hobj t' m ht'
      exact hne (h.one_thread t' t m ho (by rw [hpc]; rfl))
    · have hid : id' ≠ id := by
        rintro rfl
        exact hmn (h.one_object m n id' hm hnid)
      have hsettled : w'.Settled m ↔ w.Settled m :=
        settled_setPc hpc (by simp [Pc.object, Ne.symm hmn]) (by simp [Pc.object])
      rw [hsettled, or_iff_left hid]
      exact h.told m id' hm
  case once =>
    rw [hstream, List.nodup_append]
    refine ⟨h.once, List.nodup_singleton _, ?_⟩
    intro a ha b hb
    rw [List.mem_singleton] at hb
    rw [hb]
    exact fun hab => hnew (hab ▸ ha)
  case own =>
    intro x hx id' hxid
    rcases List.mem_append.mp hx with hx | hx
    · exact h.own x hx id' hxid
    · rw [List.mem_singleton] at hx
      rw [hx] at hxid ⊢
      cases hxid
      exact hnid

omit [DecidableEq T] in
theorem faithful (h : Inv w) : Faithful w where
  own := h.own
  once := by
    intro n id hid hdead hsettled
    exact List.count_eq_one_of_mem h.once ((h.told n id hid).mpr ⟨hdead, hsettled⟩)
  at_most := fun id => List.nodup_iff_count_le_one.mp h.once id
  not_early := fun n id hid hlives htold => hlives ((h.told n id hid).mp htold).1
  kept := by
    rintro p n hlives (hhanded | ⟨t, q, info, hpc⟩)
    · exact h.kept p n hlives hhanded
    · have hok := h.pc_ok t
      rw [hpc] at hok
      have hqp : q = p := h.one_place q p n hok.1 hlives
      exact ⟨info, hqp ▸ hok.2.2.2, hok.2.1⟩

end Inv

/-- **A step that overtakes no release keeps the invariant.** -/
theorem inv_step {w : World T} (h : Inv w) (a : Act T) (ha : ¬w.Overtakes a) : Inv (w.step a) := by
  have hmove := step_move w a
  generalize w.step a = w' at hmove ⊢
  cases hmove with
  | stay => exact h
  | create t p info hpc hp hfree => exact h.create info hpc hfree
  | number t n p info hpc => exact h.number hpc
  | enter t n p info hpc =>
    refine h.enter hpc fun t' n' ht' => ha ?_
    show (w.pc t).writing.isSome ∧ ∃ t', (w.pc t').removing = (w.pc t).writing
    rw [hpc]
    exact ⟨rfl, t', by rw [ht']; rfl⟩
  | announce t n p info hpc => exact h.announce hpc
  | release t n p hpc hlives hhanded => exact h.release hpc hlives hhanded
  | missing t n p hpc hnone =>
    -- the entry of a pending release is there
    have hok := h.pc_ok t
    rw [hpc] at hok
    obtain ⟨-, i, hi, -⟩ := hok
    rw [hnone] at hi
    cases hi
  | remove t n p info hpc hinfo => exact h.remove hpc hinfo
  | report t n p id hpc => exact h.report hpc

/-- **Every state of a run that overtakes no pending release is faithful.** -/
theorem faithful_of_orderly {xs : List (Act T)} (h : Orderly xs) : Faithful (run xs) := by
  have hinv : Inv (run xs) := by
    refine Machine.run_induction step {} Orderly (fun _ w => Inv w) ?_ inv_start ?_ xs h
    · rintro xs x hall ⟨us, a, vs, rfl, ha⟩
      exact hall ⟨us, a, vs ++ [x], by simp, ha⟩
    · intro xs x hall hinv
      exact inv_step hinv x fun hx => hall ⟨xs, x, [], rfl, hx⟩
  exact hinv.faithful

/-! ### Two threads and one address -/

/-- Thread 0 creates an object, registers it and releases it. -/
def firstLife : List (Act (Fin 2)) :=
  [.create 0 4096 { type := .resource }, .number 0, .enter 0, .announce 0, .release 0 4096]

/-- Thread 1 creates an object at the same address, but the release removes its
entry first. -/
def orderlyReuse : List (Act (Fin 2)) :=
  firstLife ++ [.create 1 4096 { type := .heap }, .number 1, .remove 0, .enter 1, .report 0,
    .announce 1]

/-- Thread 1 creates an object at the same address and registers it, before the
release removes the entry it finds there. -/
def overtakenReuse : List (Act (Fin 2)) :=
  firstLife ++ [.create 1 4096 { type := .heap }, .number 1, .enter 1, .announce 1, .remove 0,
    .report 0]

theorem faithful_of_orderly_orderlyReuse :
    (run orderlyReuse).sent.filterMap (fun x => x.2.destroyedId.map fun id => (x.1, id))
      = [(0, 1)] ∧
    ∃ info, (run orderlyReuse).tracker.objects.lookup 4096 = some info ∧ info.id = 2 := by
  have horderly : Orderly orderlyReuse := by decide
  have h := faithful_of_orderly horderly
  refine ⟨by decide, ?_⟩
  obtain ⟨info, hinfo, hid⟩ := h.kept 4096 1 (by decide) (Or.inl (by decide))
  have hid' : (run orderlyReuse).idOf 1 = some 2 := by decide
  rw [hid'] at hid
  exact ⟨info, hinfo, (Option.some.inj hid).symm⟩

/-- The living object is reported dead, on behalf of the dead one. -/
theorem not_faithful_overtaken : ¬Faithful (run overtakenReuse) := by
  intro h
  have hmem : ∃ x ∈ (run overtakenReuse).sent, (x.1, x.2.destroyedId) = (0, some 2) := by
    refine List.mem_map.mp ?_
    decide
  obtain ⟨x, hx, heq⟩ := hmem
  obtain ⟨hn, hid⟩ := Prod.mk.inj heq
  have hown := h.own x hx 2 hid
  rw [hn] at hown
  exact absurd hown (by decide)

end World

end Dx12Track
