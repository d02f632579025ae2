import Mathlib.Data.Fintype.Basic
import Dx12Track.Dll.Stream

/-!
# Names on many threads

`OnSetName` decides under the tracker's lock that a name is new, and stores it.  It is
published after the lock is released, on the pipe first and in the log after that, each
under a lock of its own.  So two threads that name one object may publish in another
order than they stored.

* `NamePc`, `Naming`, `NameAct`, `Naming.step` — threads and their critical sections.
* `Naming.Shows` — what a sink says of an object is what the table says.
* `Naming.Outdates` — a name is published over the one in the table.
* `shows_of_timely` — **without such a step, both sinks show the table** once all calls
  have returned.
* `not_shows_crossed` — with one, they need not.
-/

namespace Dx12Track

open Finmap (lookup_insert_eq)
open Tracker (emitRenamed)

/-- Where `EmitRenamed` writes. -/
inductive Sink
  | pipe
  | log
  deriving DecidableEq

/-- The name field of a `renamed` record. -/
def nameBuf (name : WString) : NameBuf :=
  NameBuf.copy (name.take (wcsnlen name (kMaxNameChars - 1)))

/-- Where a thread is in `OnSetName` of the object `obj`, which has the number `id`. -/
inductive NamePc
  | idle
  /-- The name is stored, and the lock released. -/
  | sending (obj id : ℕ) (name : WString)
  /-- The record is on the pipe. -/
  | appending (obj id : ℕ) (name : WString)

/-- The thread will still write the name field `b` of `obj` to the sink. -/
def NamePc.Owes : NamePc → Sink → ℕ → NameBuf → Prop
  | .idle, _, _, _ => False
  | .sending o _ name, _, obj, b => o = obj ∧ nameBuf name = b
  | .appending o _ name, .log, obj, b => o = obj ∧ nameBuf name = b
  | .appending _ _ _, .pipe, _, _ => False

instance : (pc : NamePc) → (s : Sink) → (obj : ℕ) → (b : NameBuf) → Decidable (pc.Owes s obj b)
  | .idle, _, _, _ => .isFalse id
  | .sending _ _ _, _, _, _ => inferInstanceAs (Decidable (_ ∧ _))
  | .appending _ _ _, .log, _, _ => inferInstanceAs (Decidable (_ ∧ _))
  | .appending _ _ _, .pipe, _, _ => .isFalse id

/-- The object and the name that the thread writes to the sink next. -/
def NamePc.next : NamePc → Sink → Option (ℕ × WString)
  | .sending obj _ name, .pipe => some (obj, name)
  | .appending obj _ name, .log => some (obj, name)
  | _, _ => none

/-- The tracker, the threads that name objects, and what they wrote. -/
structure Naming (T : Type) where
  tracker : Tracker
  pc : T → NamePc := fun _ => .idle
  pipe : List Record := []
  log : List Record := []

/-- A critical section of the thread `t`. -/
inductive NameAct (T : Type)
  /-- `OnSetName` up to its release of `mu_`. -/
  | store (t : T) (obj : ℕ) (name : Option CWString)
  /-- `GlobalPipe().Send`. -/
  | send (t : T)
  /-- `GlobalLog().Append`; the call returns. -/
  | append (t : T)

namespace Naming

variable {T : Type} [DecidableEq T]

def setPc (w : Naming T) (t : T) (pc : NamePc) : Naming T :=
  { w with pc := Function.update w.pc t pc }

/-- What was written to a sink. -/
def out (w : Naming T) : Sink → List Record
  | .pipe => w.pipe
  | .log => w.log

/-- One step; an action that is not possible changes nothing. -/
def step (w : Naming T) : NameAct T → Naming T
  | .store t obj name =>
    match w.pc t with
    | .idle =>
      match w.tracker.objects.lookup obj with
      | none => w
      | some info =>
        let incoming : WString := (name.map Subtype.val).getD []
        if info.name = incoming then w
        else
          setPc { w with tracker := w.tracker.put obj { info with name := incoming } } t
            (.sending obj info.id incoming)
    | _ => w
  | .send t =>
    match w.pc t with
    | .sending obj id name =>
      setPc { w with pipe := w.pipe ++ [emitRenamed id name] } t (.appending obj id name)
    | _ => w
  | .append t =>
    match w.pc t with
    | .appending _ id name => setPc { w with log := w.log ++ [emitRenamed id name] } t .idle
    | _ => w

/-- A run that begins with the table of `tr`, and no call in progress. -/
def run (tr : Tracker) (xs : List (NameAct T)) : Naming T :=
  Machine.run step { tracker := tr } xs

/-- The name that `obj` has in the table is not published yet. -/
def Pending (w : Naming T) (s : Sink) (obj : ℕ) (b : NameBuf) : Prop := ∃ t, (w.pc t).Owes s obj b

/-- The name is not that of the table, and nobody will publish that of the table. -/
def Outdated (w : Naming T) (s : Sink) (obj : ℕ) (name : WString) : Prop :=
  (w.tracker.objects.lookup obj).elim False fun info =>
    nameBuf name ≠ nameBuf info.name ∧ ¬w.Pending s obj (nameBuf info.name)

/-- The thread publishes a name over that of the table. -/
def OutdatesAt (w : Naming T) (s : Sink) (t : T) : Prop :=
  ((w.pc t).next s).elim False fun x => w.Outdated s x.1 x.2

/-- The step publishes a name over that of the table. -/
def Outdates (w : Naming T) : NameAct T → Prop
  | .store _ _ _ => False
  | .send t => w.OutdatesAt .pipe t
  | .append t => w.OutdatesAt .log t

/-- No step of the run publishes a name over that of the table. -/
def Timely (tr : Tracker) (xs : List (NameAct T)) : Prop :=
  ¬∃ us a vs, xs = us ++ a :: vs ∧ (run tr us).Outdates a

/-- The `renamed` records of one id. -/
def renames (es : List Record) (id : ℕ) : List Record :=
  es.filter fun r => r.renamedId = some id

/-- The sink says of the object at `obj` what the table says: its last name is that of the table,
and it is silent only if that name was there from the beginning. -/
structure Shows (tr : Tracker) (w : Naming T) (s : Sink) (obj : ℕ) (info : ObjectInfo) : Prop where
  last : ∀ r ∈ (renames (w.out s) info.id).getLast?, r = emitRenamed info.id info.name
  silent : renames (w.out s) info.id = [] →
    (tr.objects.lookup obj).map ObjectInfo.name = some info.name

/-- All calls have returned. -/
def Returned (w : Naming T) : Prop := ∀ t, w.pc t = .idle

/-! ### Decidability -/

instance {α : Type} (o : Option α) (p : α → Prop) [∀ a, Decidable (p a)] :
    Decidable (o.elim False p) :=
  match o with
  | none => .isFalse id
  | some a => inferInstanceAs (Decidable (p a))

instance [Fintype T] (w : Naming T) (s : Sink) (obj : ℕ) (b : NameBuf) :
    Decidable (w.Pending s obj b) := inferInstanceAs (Decidable (∃ t, (w.pc t).Owes s obj b))

instance [Fintype T] (w : Naming T) (s : Sink) (obj : ℕ) (name : WString) :
    Decidable (w.Outdated s obj name) := inferInstanceAs (Decidable (Option.elim _ _ _))

instance [Fintype T] (w : Naming T) (s : Sink) (t : T) : Decidable (w.OutdatesAt s t) :=
  inferInstanceAs (Decidable (Option.elim _ _ _))

instance [Fintype T] (w : Naming T) : (a : NameAct T) → Decidable (w.Outdates a)
  | .store _ _ _ => .isFalse id
  | .send t => inferInstanceAs (Decidable (w.OutdatesAt .pipe t))
  | .append t => inferInstanceAs (Decidable (w.OutdatesAt .log t))

instance [Fintype T] (tr : Tracker) (xs : List (NameAct T)) : Decidable (Timely tr xs) :=
  decidable_of_iff _
    (not_congr (Machine.exists_split_iff (fun us a => (run tr us).Outdates a) xs)).symm

/-! ### What a step can do -/

inductive Move (w : Naming T) : NameAct T → Naming T → Prop
  | stay (a : NameAct T) : Move w a w
  | store (t : T) (obj : ℕ) (name : Option CWString) (info : ObjectInfo) (incoming : WString)
      (hpc : w.pc t = .idle) (hinfo : w.tracker.objects.lookup obj = some info) :
      Move w (.store t obj name)
        (setPc { w with tracker := w.tracker.put obj { info with name := incoming } } t
          (.sending obj info.id incoming))
  | send (t : T) (obj id : ℕ) (name : WString) (hpc : w.pc t = .sending obj id name) :
      Move w (.send t)
        (setPc { w with pipe := w.pipe ++ [emitRenamed id name] } t (.appending obj id name))
  | append (t : T) (obj id : ℕ) (name : WString) (hpc : w.pc t = .appending obj id name) :
      Move w (.append t) (setPc { w with log := w.log ++ [emitRenamed id name] } t .idle)

theorem step_move (w : Naming T) (a : NameAct T) : Move w a (w.step a) := by
  cases a with
  | store t obj name =>
    unfold step
    dsimp only
    split
    · next hpc =>
      split
      · exact .stay _
      · next info hinfo =>
        split
        · exact .stay _
        · exact .store t obj name info _ hpc hinfo
    · exact .stay _
  | send t =>
    unfold step
    dsimp only
    split
    · next obj id name hpc => exact .send t obj id name hpc
    · exact .stay _
  | append t =>
    unfold step
    dsimp only
    split
    · next obj id name hpc => exact .append t obj id name hpc
    · exact .stay _

/-! ### The invariant -/

/-- A sink shows the name of `obj`, or will. -/
def Follows (tr : Tracker) (w : Naming T) (s : Sink) (obj : ℕ) (info : ObjectInfo) : Prop :=
  w.Pending s obj (nameBuf info.name) ∨
    (renames (w.out s) info.id).getLast? = some (emitRenamed info.id info.name) ∨
    (renames (w.out s) info.id = [] ∧ (∀ b, ¬w.Pending s obj b) ∧
      (tr.objects.lookup obj).map ObjectInfo.name = some info.name)

structure Inv (tr : Tracker) (w : Naming T) : Prop where
  /-- Two addresses have two ids. -/
  one_id : ∀ obj obj' info info', w.tracker.objects.lookup obj = some info →
    w.tracker.objects.lookup obj' = some info' → info.id = info'.id → obj = obj'
  /-- A thread publishes under the id of its object. -/
  own : ∀ t obj id name, w.pc t = .sending obj id name ∨ w.pc t = .appending obj id name →
    ∃ info, w.tracker.objects.lookup obj = some info ∧ info.id = id
  follows : ∀ s obj info, w.tracker.objects.lookup obj = some info → Follows tr w s obj info

variable {tr : Tracker} {w w' : Naming T} {s : Sink}

omit [DecidableEq T] in
/-- What a sink shows depends on what was written to it and on who will write. -/
theorem Follows.frame {obj : ℕ} {info : ObjectInfo} (h : Follows tr w s obj info)
    (hout : w'.out s = w.out s) (howes : ∀ t b, (w'.pc t).Owes s obj b ↔ (w.pc t).Owes s obj b) :
    Follows tr w' s obj info := by
  have hpending : ∀ b, w'.Pending s obj b ↔ w.Pending s obj b :=
    fun b => exists_congr fun t => howes t b
  unfold Follows
  rw [hout, hpending]
  refine h.imp_right (Or.imp_right fun hsilent => ?_)
  exact ⟨hsilent.1, fun b hb => hsilent.2.1 b ((hpending b).mp hb), hsilent.2.2⟩

theorem renames_concat_self (es : List Record) (id : ℕ) (name : WString) :
    renames (es ++ [emitRenamed id name]) id = renames es id ++ [emitRenamed id name] := by
  simp [renames, emitRenamed, Record.renamedId]

theorem renames_concat_of_ne (es : List Record) {id id' : ℕ} (h : id ≠ id') (name : WString) :
    renames (es ++ [emitRenamed id name]) id' = renames es id' := by
  simp [renames, emitRenamed, Record.renamedId, h]

/-- **A name is published** that is that of the table, or over which that of the table will be
published. -/
theorem Follows.write (hinv : Inv tr w) {t : T} {obj id : ℕ} {name : WString} {info : ObjectInfo}
    (hinfo : w.tracker.objects.lookup obj = some info) (hid : info.id = id)
    (hfresh : ¬w.Outdated s obj name) (hout : w'.out s = w.out s ++ [emitRenamed id name])
    (hothers : ∀ t', t' ≠ t → w'.pc t' = w.pc t')
    (howed : ∀ obj' b, (w.pc t).Owes s obj' b → obj = obj' ∧ nameBuf name = b)
    (hdone : ∀ obj' b, ¬(w'.pc t).Owes s obj' b) {obj' : ℕ} {info' : ObjectInfo}
    (hinfo' : w.tracker.objects.lookup obj' = some info') : Follows tr w' s obj' info' := by
  -- who owes another name, or the name of another object, still owes it
  have hstill : ∀ obj₁ b, (obj = obj₁ → nameBuf name ≠ b) → w.Pending s obj₁ b →
      w'.Pending s obj₁ b := by
    rintro obj₁ b hne ⟨t', ht'⟩
    have htt : t' ≠ t := by
      rintro rfl
      obtain ⟨hobj, hb⟩ := howed obj₁ b ht'
      exact hne hobj hb
    exact ⟨t', (hothers t' htt).symm ▸ ht'⟩
  by_cases hobj : obj = obj'
  · subst hobj
    cases hinfo.symm.trans hinfo'
    by_cases hname : nameBuf name = nameBuf info.name
    · right
      left
      rw [hout, ← hid, renames_concat_self, List.getLast?_concat]
      show some (Record.renamed ⟨info.id, nameBuf name⟩) = _
      rw [hname]
      rfl
    · left
      refine hstill obj _ (fun _ => hname) ?_
      by_contra hpending
      exact hfresh (by simpa [Outdated, hinfo] using ⟨hname, hpending⟩)
  · have hids : id ≠ info'.id := fun h => hobj (hinv.one_id _ _ _ _ hinfo hinfo' (hid.trans h))
    unfold Follows
    rw [hout, renames_concat_of_ne _ hids]
    rcases hinv.follows s obj' info' hinfo' with hpending | hlast | ⟨hsilent, hnone, hname⟩
    · exact Or.inl (hstill obj' _ (fun h => absurd h hobj) hpending)
    · exact Or.inr (Or.inl hlast)
    · refine Or.inr (Or.inr ⟨hsilent, ?_, hname⟩)
      rintro b ⟨t', ht'⟩
      by_cases htt : t' = t
      · exact hdone obj' b (htt ▸ ht')
      · exact hnone b ⟨t', hothers t' htt ▸ ht'⟩

omit [DecidableEq T] in
theorem inv_start (tr : Tracker)
    (hid : ∀ obj obj' info info', tr.objects.lookup obj = some info →
      tr.objects.lookup obj' = some info' → info.id = info'.id → obj = obj') :
    Inv tr ({ tracker := tr } : Naming T) where
  one_id := hid
  own := by
    rintro t obj id name (h | h) <;> cases h
  follows := by
    intro s obj info hinfo
    refine Or.inr (Or.inr ⟨by cases s <;> rfl, ?_, ?_⟩)
    · rintro b ⟨t, ht⟩
      exact ht
    · exact congrArg (Option.map ObjectInfo.name) hinfo

theorem inv_store (h : Inv tr w) {t : T} {obj : ℕ} {info : ObjectInfo} (incoming : WString)
    (hpc : w.pc t = .idle) (hinfo : w.tracker.objects.lookup obj = some info) :
    Inv tr (setPc { w with tracker := w.tracker.put obj { info with name := incoming } } t
      (.sending obj info.id incoming)) := by
  have hlookup : ∀ obj', (w.tracker.put obj { info with name := incoming }).objects.lookup obj'
      = if obj' = obj then some { info with name := incoming }
        else w.tracker.objects.lookup obj' := fun obj' => lookup_insert_eq obj obj' _ _
  -- the entries keep their ids
  have hids : ∀ obj' info', (w.tracker.put obj { info with name := incoming }).objects.lookup obj'
      = some info' → ∃ old, w.tracker.objects.lookup obj' = some old ∧ old.id = info'.id := by
    intro obj' info' hl
    rw [hlookup] at hl
    split at hl
    · next heq =>
      cases hl
      exact ⟨info, heq ▸ hinfo, rfl⟩
    · exact ⟨info', hl, rfl⟩
  constructor
  · intro obj₁ obj₂ info₁ info₂ h₁ h₂ heq
    obtain ⟨old₁, hold₁, hid₁⟩ := hids obj₁ info₁ h₁
    obtain ⟨old₂, hold₂, hid₂⟩ := hids obj₂ info₂ h₂
    exact h.one_id obj₁ obj₂ old₁ old₂ hold₁ hold₂ (by omega)
  · intro t' obj' id name hpc'
    show ∃ info', (w.tracker.put obj _).objects.lookup obj' = some info' ∧ info'.id = id
    have hentry : ∃ old, w.tracker.objects.lookup obj' = some old ∧ old.id = id := by
      by_cases ht : t' = t
      · subst ht
        simp only [setPc, Function.update_self] at hpc'
        rcases hpc' with hpc' | hpc' <;> cases hpc'
        exact ⟨info, hinfo, rfl⟩
      · simp only [setPc, Function.update_of_ne ht] at hpc'
        exact h.own t' obj' id name hpc'
    obtain ⟨old, hold, hid⟩ := hentry
    rw [hlookup]
    split
    · next heq =>
      subst heq
      cases hinfo.symm.trans hold
      exact ⟨_, rfl, hid⟩
    · exact ⟨old, hold, hid⟩
  · intro s obj' info' hl
    rw [show (setPc { w with tracker := w.tracker.put obj { info with name := incoming } } t
      (.sending obj info.id incoming)).tracker = w.tracker.put obj { info with name := incoming }
      from rfl, hlookup] at hl
    split at hl
    · next heq =>
      cases hl
      subst heq
      refine Or.inl ⟨t, ?_⟩
      simp [setPc, NamePc.Owes]
    · next hne =>
      refine (h.follows s obj' info' hl).frame (by cases s <;> rfl) fun t' b => ?_
      by_cases ht : t' = t
      · subst ht
        simp [setPc, hpc, NamePc.Owes, Ne.symm hne]
      · simp [setPc, Function.update_of_ne ht]

/-- A step that leaves the table alone, of a thread that stays with its object or returns. -/
theorem own_write (h : Inv tr w) {t : T} {obj id : ℕ} {name : WString} {pc : NamePc}
    (hpc : w.pc t = .sending obj id name ∨ w.pc t = .appending obj id name)
    (hnew : pc = .idle ∨ pc = .appending obj id name) {t' : T} {obj' id' : ℕ} {name' : WString}
    (hpc' : Function.update w.pc t pc t' = .sending obj' id' name' ∨
      Function.update w.pc t pc t' = .appending obj' id' name') :
    ∃ info, w.tracker.objects.lookup obj' = some info ∧ info.id = id' := by
  by_cases ht : t' = t
  · subst ht
    rw [Function.update_self] at hpc'
    rcases hnew with rfl | rfl
    · rcases hpc' with hpc' | hpc' <;> cases hpc'
    · rcases hpc' with hpc' | hpc' <;> cases hpc'
      exact h.own t' obj id name hpc
  · rw [Function.update_of_ne ht] at hpc'
    exact h.own t' obj' id' name' hpc'

theorem inv_send (h : Inv tr w) {t : T} {obj id : ℕ} {name : WString}
    (hpc : w.pc t = .sending obj id name) (hfresh : ¬w.Outdated .pipe obj name) :
    Inv tr (setPc { w with pipe := w.pipe ++ [emitRenamed id name] } t
      (.appending obj id name)) := by
  obtain ⟨info, hinfo, hid⟩ := h.own t obj id name (Or.inl hpc)
  refine ⟨h.one_id, fun t' obj' id' name' hpc' => own_write h (Or.inl hpc) (Or.inr rfl) hpc', ?_⟩
  intro s obj' info' hinfo'
  cases s with
  | pipe =>
    refine Follows.write (t := t) h hinfo hid hfresh rfl (fun t' ht => ?_) ?_ ?_ hinfo'
    · exact Function.update_of_ne ht _ _
    · intro obj₁ b howes
      rwa [hpc] at howes
    · intro obj₁ b howes
      rw [show (setPc _ t (.appending obj id name) : Naming T).pc t = .appending obj id name from
        Function.update_self ..] at howes
      exact howes
  | log =>
    -- the log still waits for the record
    refine (h.follows .log obj' info' hinfo').frame rfl fun t' b => ?_
    by_cases ht : t' = t
    · subst ht
      simp [setPc, hpc, NamePc.Owes]
    · simp [setPc, Function.update_of_ne ht]

theorem inv_append (h : Inv tr w) {t : T} {obj id : ℕ} {name : WString}
    (hpc : w.pc t = .appending obj id name) (hfresh : ¬w.Outdated .log obj name) :
    Inv tr (setPc { w with log := w.log ++ [emitRenamed id name] } t .idle) := by
  obtain ⟨info, hinfo, hid⟩ := h.own t obj id name (Or.inr hpc)
  refine ⟨h.one_id, fun t' obj' id' name' hpc' => own_write h (Or.inr hpc) (Or.inl rfl) hpc', ?_⟩
  intro s obj' info' hinfo'
  cases s with
  | pipe =>
    refine (h.follows .pipe obj' info' hinfo').frame rfl fun t' b => ?_
    by_cases ht : t' = t
    · subst ht
      simp [setPc, hpc, NamePc.Owes]
    · simp [setPc, Function.update_of_ne ht]
  | log =>
    refine Follows.write (t := t) h hinfo hid hfresh rfl (fun t' ht => ?_) ?_ ?_ hinfo'
    · exact Function.update_of_ne ht _ _
    · intro obj₁ b howes
      rwa [hpc] at howes
    · intro obj₁ b howes
      rw [show (setPc _ t .idle : Naming T).pc t = .idle from Function.update_self ..] at howes
      exact howes

theorem inv_step (h : Inv tr w) (a : NameAct T) (hfresh : ¬w.Outdates a) : Inv tr (w.step a) := by
  have hmove := step_move w a
  generalize w.step a = w' at hmove
  cases hmove with
  | stay => exact h
  | store t obj name info incoming hpc hinfo => exact inv_store h incoming hpc hinfo
  | send t obj id name hpc =>
    have hfresh' : ¬w.OutdatesAt .pipe t := hfresh
    rw [OutdatesAt, hpc] at hfresh'
    exact inv_send h hpc hfresh'
  | append t obj id name hpc =>
    have hfresh' : ¬w.OutdatesAt .log t := hfresh
    rw [OutdatesAt, hpc] at hfresh'
    exact inv_append h hpc hfresh'

/-! ### Runs -/

omit [DecidableEq T] in
/-- When nobody is at work, what the sinks follow they show. -/
theorem Inv.shows (h : Inv tr w) (hidle : w.Returned) (s : Sink) {obj : ℕ} {info : ObjectInfo}
    (hinfo : w.tracker.objects.lookup obj = some info) : Shows tr w s obj info := by
  rcases h.follows s obj info hinfo with ⟨t, ht⟩ | hlast | ⟨hsilent, -, hname⟩
  · rw [hidle t] at ht
    exact absurd ht id
  · constructor
    · intro r hr
      exact (Option.some.inj (hlast.symm.trans hr)).symm
    · intro hnil
      rw [hnil] at hlast
      cases hlast
  · constructor
    · intro r hr
      rw [hsilent] at hr
      cases hr
    · exact fun _ => hname

/-- **In a run without an outdated name both sinks show the table**, in every state in which all
calls have returned. -/
theorem shows_of_timely (tr : Tracker)
    (hid : ∀ obj obj' info info', tr.objects.lookup obj = some info →
      tr.objects.lookup obj' = some info' → info.id = info'.id → obj = obj')
    {xs : List (NameAct T)} (h : Timely tr xs) (hidle : (run tr xs).Returned) (s : Sink)
    {obj : ℕ} {info : ObjectInfo} (hinfo : (run tr xs).tracker.objects.lookup obj = some info) :
    Shows tr (run tr xs) s obj info := by
  have hinv : Inv tr (run tr xs) := by
    refine Machine.run_induction step _ (Timely tr) (fun _ w => Inv tr w) ?_ (inv_start tr hid) ?_
      xs h
    · rintro xs x hall ⟨us, y, vs, rfl, hy⟩
      exact hall ⟨us, y, vs ++ [x], by simp, hy⟩
    · intro xs x hall hinv
      exact inv_step hinv x fun hx => hall ⟨xs, x, [], rfl, hx⟩
  exact hinv.shows hidle s hinfo

/-- One object at 4096, with the number 1 and no name. -/
def unnamed : Tracker :=
  { nextId := 2, objects := (∅ : Table ℕ ObjectInfo).insert 4096 { id := 1 } }

theorem unnamed_one_id : ∀ obj obj' info info', unnamed.objects.lookup obj = some info →
    unnamed.objects.lookup obj' = some info' → info.id = info'.id → obj = obj' := by
  have hlookup : ∀ obj info, unnamed.objects.lookup obj = some info → obj = 4096 := by
    intro obj info h
    by_contra hne
    simp [unnamed, hne] at h
  intro obj obj' info info' h h' _
  rw [hlookup obj info h, hlookup obj' info' h']

def nameA : CWString := ⟨[65], by decide⟩
def nameB : CWString := ⟨[66], by decide⟩

/-- The calls overlap, and publish in the order in which they stored. -/
def overlappingNames : List (NameAct Bool) :=
  [.store false 4096 (some nameA), .send false, .store true 4096 (some nameB), .append false,
    .send true, .append true]

/-- The second call has published before the first has sent its name. -/
def crossedNames : List (NameAct Bool) :=
  [.store false 4096 (some nameA), .store true 4096 (some nameB), .send true, .send false,
    .append true, .append false]

theorem shows_of_timely_overlappingNames :
    Shows unnamed (run unnamed overlappingNames) .pipe 4096 { id := 1, name := [66] } :=
  shows_of_timely unnamed unnamed_one_id (by decide +kernel) (fun t => by cases t <;> rfl) .pipe rfl

/-- The table says `B`, the pipe and the log say `A` last. -/
theorem not_shows_crossed :
    ¬∀ (tr : Tracker) (xs : List (NameAct Bool)),
      (∀ obj obj' info info', tr.objects.lookup obj = some info →
        tr.objects.lookup obj' = some info' → info.id = info'.id → obj = obj') →
      (run tr xs).Returned → ∀ s obj info,
        (run tr xs).tracker.objects.lookup obj = some info → Shows tr (run tr xs) s obj info := by
  intro h
  have hidle : (run unnamed crossedNames).Returned := fun t => by cases t <;> rfl
  have hshows := h unnamed crossedNames unnamed_one_id hidle .pipe 4096 _ rfl
  have hlast := hshows.last (emitRenamed 1 [65]) rfl
  injection hlast with hpayload
  injection hpayload with _ hname
  exact absurd hname (by decide)

end Naming

end Dx12Track
