import Mathlib.Data.List.Infix
import Dx12Track.Dll.Logging

/-!
# The modules of a stack

An address in a stack can be resolved when the file has a `module_loaded` line
for the module it lies in.  The lines come from one enumeration, and after it from
the loader's notifications.  Nothing ties the two together, and the enumeration
happens once in a process.

* `LogFile.Resolvable` — every module of every stack of the file has its line.
* `LogWorld.ToCome` — the enumeration is still to come.
* `LogWorld.Misses` — a step that can lose a module: a file with stacks is opened
  after the enumeration, or switched off before its lines are written, or modules
  come and go around the enumeration.
* `Covering` — a module that is wanted has its line, or will get it.
* `resolvable_of_tracked` — **without such a step, every file with stacks is
  resolvable** when no thread has anything left to do.
-/

namespace Dx12Track

/-- The modules that were loaded when the stack of a record was captured. -/
def LogEvent.stack : LogEvent → List Load
  | .created (some loaded) => loaded
  | _ => []

namespace LogFile

/-- The file has the line of a module. -/
def Tells (f : LogFile) (m : Load) : Prop :=
  ∃ l ∈ f.lines, l.event = .moduleLoaded m.base (some m)

/-- A file that was opened to have stacks has the lines of all their modules. -/
def Resolvable (f : LogFile) : Prop :=
  f.withStacks = true → ∀ l ∈ f.lines, ∀ m ∈ l.event.stack, f.Tells m

instance (f : LogFile) (m : Load) : Decidable (f.Tells m) :=
  inferInstanceAs (Decidable (∃ l ∈ f.lines, _))
instance (f : LogFile) : Decidable f.Resolvable :=
  inferInstanceAs (Decidable (f.withStacks = true → ∀ l ∈ f.lines, ∀ m ∈ l.event.stack, f.Tells m))

end LogFile

namespace LogAct

/-- The record that will be written, as far as it is known. -/
def carries : LogAct → Option LogEvent
  | .emit e | .append _ e | .write _ e => some e
  | _ => none

/-- The modules of a stack that is on its way to the log. -/
def stack (a : LogAct) : List Load := (a.carries.map LogEvent.stack).getD []

/-- The line of a module is on its way. -/
def withModule : LogAct → Bool
  | .inspect _ => true
  | .emit (.moduleLoaded _ _) | .append _ (.moduleLoaded _ _) | .write _ (.moduleLoaded _ _) => true
  | _ => false

/-- It is the enumeration, or on the way to it. -/
def asks : LogAct → Bool
  | .trackModules | .startTracking | .enumerate => true
  | _ => false

/-- Whoever opens a file for stacks goes on to `StartModuleTracking`. -/
def Tracks : List LogAct → Prop
  | [] => True
  | a :: rest => (a = .openLog true true → .trackModules ∈ rest) ∧ Tracks rest

theorem tracks_append {as rest : List LogAct} (has : ∀ a ∈ as, a ≠ .openLog true true)
    (h : Tracks rest) : Tracks (as ++ rest) := by
  induction as with
  | nil => exact h
  | cons a as ih =>
    exact ⟨fun ha => absurd ha (has a List.mem_cons_self),
      ih fun b hb => has b (List.mem_cons_of_mem a hb)⟩

theorem tracks_of_forall {as : List LogAct} (has : ∀ a ∈ as, a ≠ .openLog true true) :
    Tracks as := by
  have h := tracks_append has (show Tracks [] from trivial)
  rwa [List.append_nil] at h

/-- No function begins with a stack that is already on its way. -/
theorem stack_acts (c : LogCall) : ∀ a ∈ c.acts, a.stack = [] := by
  intro a ha
  cases c with
  | attach path callstacks diags =>
    have ha : a ∈ onAttach path callstacks diags := ha
    simp only [onAttach, sendHello, List.mem_append, List.mem_cons, List.mem_map,
      List.mem_replicate, List.not_mem_nil, or_false] at ha
    rcases ha with ((((rfl | ⟨ok, -, rfl⟩) | rfl) | ⟨-, rfl⟩) | rfl) | ⟨-, rfl⟩ <;> rfl
  | detach =>
    have ha : a ∈ onDetach := ha
    simp only [onDetach, List.mem_cons, List.not_mem_nil, or_false] at ha
    rcases ha with rfl | rfl | rfl <;> rfl
  | startLogging captureCallstacks ok =>
    have ha : a ∈ dx12TrackStartLogging captureCallstacks ok := ha
    simp only [dx12TrackStartLogging, sendHello, List.mem_cons] at ha
    rcases ha with rfl | rfl | ha
    · rfl
    · rfl
    · split at ha
      · simp only [List.mem_append, List.mem_cons, List.not_mem_nil, or_false] at ha
        rcases ha with rfl | rfl <;> rfl
      · cases ha
  | _ =>
    obtain rfl := List.mem_singleton.mp ha
    rfl

theorem tracks_acts (c : LogCall) : Tracks c.acts := by
  cases c with
  | attach path callstacks diags =>
    apply tracks_of_forall
    intro a ha
    have ha : a ∈ onAttach path callstacks diags := ha
    simp only [onAttach, sendHello, List.mem_append, List.mem_cons, List.mem_map,
      List.mem_replicate, List.not_mem_nil, or_false] at ha
    rcases ha with ((((rfl | ⟨ok, -, rfl⟩) | rfl) | ⟨-, rfl⟩) | rfl) | ⟨-, rfl⟩ <;>
      · intro h
        cases h
  | startLogging captureCallstacks ok =>
    cases ok with
    | true =>
      refine ⟨fun h => LogAct.noConfusion h, fun _ => ?_, fun h => LogAct.noConfusion h,
        fun h => LogAct.noConfusion h, trivial⟩
      exact List.mem_cons_of_mem _ List.mem_cons_self
    | false =>
      refine ⟨fun h => LogAct.noConfusion h, fun h => ?_, trivial⟩
      cases h
  | detach =>
    apply tracks_of_forall
    intro a ha
    have ha : a ∈ onDetach := ha
    simp only [onDetach, List.mem_cons, List.not_mem_nil, or_false] at ha
    rcases ha with rfl | rfl | rfl <;> exact fun h => LogAct.noConfusion h
  | _ => exact ⟨fun h => LogAct.noConfusion h, trivial⟩

end LogAct

/-- There is one module at a base. -/
theorem moduleAt_base {d : Dll} (h : (d.loaded.map Load.base).Nodup) {m : Load}
    (hm : m ∈ d.loaded) : d.moduleAt m.base = some m := by
  cases hfound : d.moduleAt m.base with
  | none =>
    have hno := List.find?_eq_none.mp hfound m hm
    simp at hno
  | some m' =>
    have hbase : m'.base = m.base := by simpa using List.find?_some hfound
    rw [List.inj_on_of_nodup_map h (List.mem_of_find?_eq_some hfound) hm hbase]

/-- No action has the opening of a file as its consequence. -/
theorem exec_ne_openLog {d : Dll} {a b : LogAct} (hb : b ∈ (d.exec a).2) :
    b ≠ .openLog true true := by
  cases Dll.follows_of_mem hb <;> exact fun h => LogAct.noConfusion h

open LogAct

namespace LogWorld

variable {T : Type}

/-! ### What threads have still to do -/

/-- Some thread has such an action to do. -/
def Awaits (w : LogWorld T) (P : LogAct → Prop) : Prop := ∃ t, ∃ a ∈ w.todo t, P a

/-- No thread has anything to do. -/
def Idle (w : LogWorld T) : Prop := ∀ t, w.todo t = []

/-- The enumeration of the modules is still to come. -/
def ToCome (w : LogWorld T) : Prop :=
  w.Awaits (· = .enumerate) ∨
    (w.dll.started = false ∧ w.Awaits fun a => a = .trackModules ∨ a = .startTracking)

/-- There is a file that is to have stacks. -/
def Stacking (w : LogWorld T) : Prop := ∃ f ∈ w.dll.file, f.withStacks = true

/-- A step that can lose the line of a module. -/
def MissesAct (w : LogWorld T) : LogAct → Prop
  | .openLog withStacks ok =>
    -- the file is switched while lines for it are on their way, or the enumeration has been
    (w.Stacking ∧ (w.ToCome ∨ w.Awaits fun a => a.withModule = true)) ∨
      (withStacks = true ∧ ok = true ∧
        (w.dll.started = true ∨ w.Awaits fun a => a.stack ≠ []))
  | .closeLog _ => w.Stacking ∧ (w.ToCome ∨ w.Awaits fun a => a.withModule = true)
  | .trackModules => w.Stacking ∧ w.dll.captureCallstacks = false ∧ w.dll.started = false
  | .load _ => w.Stacking ∧ w.dll.registered = false ∧ ¬w.ToCome
  | .unload base => w.Stacking ∧ (w.ToCome ∨ w.Awaits (· = .inspect base))
  | _ => False

variable [DecidableEq T]

def Misses (w : LogWorld T) : LogMove T → Prop
  | .step t => ∃ a ∈ w.next t, w.MissesAct a
  | _ => False

/-- No move of the run does so. -/
def Tracked (bases : List ℕ) (xs : List (LogMove T)) : Prop :=
  ¬∃ us x vs, xs = us ++ x :: vs ∧ (run bases us).Misses x

/-- There are never more modules than `EnumerateExistingModules` has room for. -/
def Fits (bases : List ℕ) (xs : List (LogMove T)) : Prop :=
  ∀ us vs, xs = us ++ vs → (run bases us).dll.loaded.length ≤ maxModules

section Decidable

instance (bases : List ℕ) (xs : List (LogMove T)) : Decidable (Fits bases xs) :=
  decidable_of_iff (∀ us ∈ xs.inits, (run bases us).dll.loaded.length ≤ maxModules) <| by
    constructor
    · rintro h us vs rfl
      exact h us ((List.mem_inits _ _).mpr (List.prefix_append us vs))
    · intro h us hus
      obtain ⟨vs, hvs⟩ := (List.mem_inits _ _).mp hus
      exact h us vs hvs.symm

variable [Fintype T]

instance (w : LogWorld T) (P : LogAct → Prop) [DecidablePred P] : Decidable (w.Awaits P) :=
  inferInstanceAs (Decidable (∃ t, ∃ a ∈ w.todo t, P a))
instance (w : LogWorld T) : Decidable w.Idle := inferInstanceAs (Decidable (∀ t, w.todo t = []))
instance (w : LogWorld T) : Decidable w.ToCome := inferInstanceAs (Decidable (_ ∨ _ ∧ _))
instance (w : LogWorld T) : Decidable w.Stacking :=
  inferInstanceAs (Decidable (∃ f ∈ w.dll.file, _))
instance (w : LogWorld T) : (a : LogAct) → Decidable (w.MissesAct a)
  | .openLog withStacks ok =>
    inferInstanceAs
      (Decidable ((w.Stacking ∧ (w.ToCome ∨ _)) ∨ (withStacks = true ∧ ok = true ∧ _)))
  | .closeLog _ => inferInstanceAs (Decidable (w.Stacking ∧ (w.ToCome ∨ _)))
  | .trackModules => inferInstanceAs (Decidable (w.Stacking ∧ _ ∧ _))
  | .load _ => inferInstanceAs (Decidable (w.Stacking ∧ _ ∧ ¬w.ToCome))
  | .unload _ => inferInstanceAs (Decidable (w.Stacking ∧ (w.ToCome ∨ _)))
  | .capture | .emit _ | .append _ _ | .write _ _ | .setCapture _ | .startTracking | .enumerate
  | .inspect _ | .register | .unregister => .isFalse id
instance (w : LogWorld T) : (x : LogMove T) → Decidable (w.Misses x)
  | .step t => inferInstanceAs (Decidable (∃ a ∈ w.next t, w.MissesAct a))
  | .call _ _ | .tick _ => .isFalse id
instance (bases : List ℕ) (xs : List (LogMove T)) : Decidable (Tracked bases xs) :=
  decidable_of_iff _
    (not_congr (Machine.exists_split_iff (fun us x => (run bases us).Misses x) xs)).symm

end Decidable

/-! ### What a step does to them -/

/-- What a thread had to do is still to be done, if what it has to do now has the same. -/
theorem Awaits.setTodo {w : LogWorld T} {P : LogAct → Prop} (h : w.Awaits P) {t : T} {d : Dll}
    {acts : List LogAct} (hacts : ∀ a ∈ w.todo t, P a → ∃ b ∈ acts, P b) :
    (LogWorld.setTodo { w with dll := d } t acts).Awaits P := by
  obtain ⟨t', b, hb, hPb⟩ := h
  by_cases ht : t' = t
  · subst ht
    obtain ⟨c, hc, hPc⟩ := hacts b hb hPb
    exact ⟨t', c, by rw [todo_setTodo_self]; exact hc, hPc⟩
  · exact ⟨t', b, by rw [todo_setTodo_of_ne _ ht]; exact hb, hPb⟩

/-- Only the action that is done can be missing afterwards, unless its consequences are like it. -/
theorem Awaits.step {w : LogWorld T} {P : LogAct → Prop} (h : w.Awaits P) {t : T} {a : LogAct}
    {rest : List LogAct} (hnext : w.todo t = a :: rest) {d : Dll} {more : List LogAct}
    (ha : P a → ∃ b ∈ more, P b) :
    (LogWorld.setTodo { w with dll := d } t (more ++ rest)).Awaits P := by
  refine h.setTodo fun b hb hPb => ?_
  rw [hnext] at hb
  rcases List.mem_cons.mp hb with rfl | hb
  · obtain ⟨c, hc, hPc⟩ := ha hPb
    exact ⟨c, List.mem_append_left _ hc, hPc⟩
  · exact ⟨b, List.mem_append_right _ hb, hPb⟩

theorem awaits_new {w : LogWorld T} {P : LogAct → Prop} {t : T} {b : LogAct} {acts : List LogAct}
    (hb : b ∈ acts) (hPb : P b) : (w.setTodo t acts).Awaits P :=
  ⟨t, b, by rw [todo_setTodo_self]; exact hb, hPb⟩

theorem of_awaits_setTodo {w : LogWorld T} {P : LogAct → Prop} {t : T} {d : Dll}
    {acts : List LogAct} (h : (setTodo { w with dll := d } t acts).Awaits P) :
    (∃ b ∈ acts, P b) ∨ w.Awaits P := by
  obtain ⟨t', b, hb, hPb⟩ := h
  by_cases ht : t' = t
  · subst ht
    rw [todo_setTodo_self] at hb
    exact .inl ⟨b, hb, hPb⟩
  · rw [todo_setTodo_of_ne _ ht] at hb
    exact .inr ⟨t', b, hb, hPb⟩

/-- What is to be done was to be done, or is a consequence of the action. -/
theorem of_awaits_step {w : LogWorld T} {P : LogAct → Prop} {t : T} {a : LogAct}
    {rest : List LogAct} (hnext : w.todo t = a :: rest) {d : Dll} {more : List LogAct}
    (h : (setTodo { w with dll := d } t (more ++ rest)).Awaits P) :
    (∃ b ∈ more, P b) ∨ w.Awaits P := by
  rcases of_awaits_setTodo h with ⟨b, hb, hPb⟩ | h
  · rcases List.mem_append.mp hb with hb | hb
    · exact .inl ⟨b, hb, hPb⟩
    · exact .inr ⟨t, b, by rw [hnext]; exact List.mem_cons_of_mem a hb, hPb⟩
  · exact .inr h

/-- The enumeration stays to come through everything but itself, and the questions before it. -/
theorem ToCome.step {w : LogWorld T} (h : w.ToCome) {t : T} {a : LogAct} {rest : List LogAct}
    (hnext : w.todo t = a :: rest) (henum : a ≠ .enumerate) (htrack : a ≠ .trackModules)
    (hstart : a ≠ .startTracking) {d : Dll} (hstarted : d.started = w.dll.started)
    {more : List LogAct} : (setTodo { w with dll := d } t (more ++ rest)).ToCome := by
  rcases h with h | ⟨hnot, h⟩
  · exact .inl (h.step hnext fun ha => absurd ha henum)
  · refine .inr ⟨hstarted.trans hnot, h.step hnext fun ha => ?_⟩
    rcases ha with ha | ha
    · exact absurd ha htrack
    · exact absurd ha hstart

/-! ### Coverage -/

/-- A module whose line must be in the file: it is loaded, or a stack has it that is in the file or
on its way. -/
def Wants (w : LogWorld T) (f : LogFile) (m : Load) : Prop :=
  m ∈ w.dll.loaded ∨ (∃ l ∈ f.lines, m ∈ l.event.stack) ∨ w.Awaits fun a => m ∈ a.stack

/-- Its line is in the file, or on its way, or will be when the module is looked at. -/
def Gets (w : LogWorld T) (f : LogFile) (m : Load) : Prop :=
  f.Tells m ∨ (w.Awaits fun a => a.carries = some (.moduleLoaded m.base (some m))) ∨
    (m ∈ w.dll.loaded ∧ (w.Awaits (· = .inspect m.base) ∨ w.ToCome))

/-- What is wanted in the open file is there or will be. -/
structure Covering (w : LogWorld T) : Prop where
  nodup : (w.dll.loaded.map Load.base).Nodup
  tracks : ∀ t, Tracks (w.todo t)
  closed : ∀ f ∈ w.dll.closed, f.Resolvable
  covered : ∀ f ∈ w.dll.file, f.withStacks = true → ∀ m, w.Wants f m → w.Gets f m

theorem tracks_step {w : LogWorld T} (h : ∀ t, Tracks (w.todo t)) {t : T} {a : LogAct}
    {rest : List LogAct} (hnext : w.todo t = a :: rest) {d : Dll} {more : List LogAct}
    (hmore : ∀ b ∈ more, b ≠ .openLog true true) (t' : T) :
    Tracks ((setTodo { w with dll := d } t (more ++ rest)).todo t') := by
  by_cases ht : t' = t
  · subst ht
    have hacts := h t'
    rw [hnext] at hacts
    rw [todo_setTodo_self]
    exact tracks_append hmore hacts.2
  · rw [todo_setTodo_of_ne _ ht]
    exact h t'

/-- **A step that leaves files and modules alone** keeps the coverage, if it brings in no stack but
one with the modules of now, drops no line of a module, and answers for every module it looks at. -/
theorem Covering.quiet {w : LogWorld T} (h : Covering w) {t : T} {a : LogAct} {rest : List LogAct}
    (hnext : w.todo t = a :: rest) {d : Dll} {more : List LogAct}
    (hfile : d.file = w.dll.file) (hclosed : d.closed = w.dll.closed)
    (hloaded : d.loaded = w.dll.loaded) (hmore : ∀ b ∈ more, b ≠ .openLog true true)
    (hstack : ∀ b ∈ more, ∀ m ∈ b.stack, m ∈ a.stack ∨ m ∈ w.dll.loaded)
    (hcarry : w.dll.file.isSome → ∀ e, a.carries = some e → ∃ b ∈ more, b.carries = some e)
    (hlook : ∀ m ∈ w.dll.loaded, a = .inspect m.base →
      ∃ b ∈ more, b.carries = some (.moduleLoaded m.base (some m)))
    (hcome : w.Stacking → w.ToCome → (setTodo { w with dll := d } t (more ++ rest)).ToCome ∨
      ∀ m ∈ w.dll.loaded, LogAct.inspect m.base ∈ more) :
    Covering (setTodo { w with dll := d } t (more ++ rest)) := by
  refine ⟨?_, tracks_step h.tracks hnext hmore, ?_, ?_⟩
  · show (d.loaded.map Load.base).Nodup
    rw [hloaded]
    exact h.nodup
  · intro f hf
    have hf : f ∈ d.closed := hf
    exact h.closed f (hclosed ▸ hf)
  · intro f hf hstacks m hwants
    have hf : f ∈ w.dll.file := by
      have hf : f ∈ d.file := hf
      rwa [hfile] at hf
    have hopen : w.dll.file.isSome := Option.isSome_iff_exists.mpr ⟨f, hf⟩
    have hwants : w.Wants f m := by
      rcases hwants with hm | hshows | hway
      · have hm : m ∈ d.loaded := hm
        exact .inl (hloaded ▸ hm)
      · exact .inr (.inl hshows)
      · rcases of_awaits_step hnext hway with ⟨b, hb, hms⟩ | hway
        · rcases hstack b hb m hms with ha | hm
          · exact .inr (.inr ⟨t, a, by rw [hnext]; exact List.mem_cons_self, ha⟩)
          · exact .inl hm
        · exact .inr (.inr hway)
    -- told already, on its way, or still to be looked at
    rcases h.covered f hf hstacks m hwants with htells | hway | ⟨hm, hway⟩
    · exact .inl htells
    · exact .inr (.inl (hway.step hnext fun ha => hcarry hopen _ ha))
    · have hm' : m ∈ d.loaded := hloaded.symm ▸ hm
      rcases hway with hlooked | hlater
      -- this very step may be the look at the module
      · by_cases ha : a = .inspect m.base
        · obtain ⟨b, hb, hcarries⟩ := hlook m hm ha
          exact .inr (.inl (awaits_new (List.mem_append_left _ hb) hcarries))
        · exact .inr (.inr ⟨hm', .inl (hlooked.step hnext fun h => absurd h ha)⟩)
      · rcases hcome ⟨f, hf, hstacks⟩ hlater with hlater | hall
        · exact .inr (.inr ⟨hm', .inr hlater⟩)
        · exact .inr (.inr ⟨hm',
            .inl (awaits_new (List.mem_append_left _ (hall m hm)) rfl)⟩)

/-- A line is written: what was on its way is in the file. -/
theorem Covering.write {w : LogWorld T} (h : Covering w) {t : T} {stamp : Option ℕ} {e : LogEvent}
    {rest : List LogAct} (hnext : w.todo t = .write stamp e :: rest) :
    Covering (setTodo { w with dll := w.dll.writeLine ⟨stamp.getD 0, e⟩ } t ([] ++ rest)) := by
  refine ⟨h.nodup, tracks_step h.tracks hnext (List.forall_mem_nil _), h.closed, ?_⟩
  intro g hg hstacks m hwants
  obtain ⟨f, hf, rfl⟩ := Option.map_eq_some_iff.mp hg
  -- the file has the old lines and the one just written
  have hmem : ∀ l, l ∈ f.lines ++ [⟨stamp.getD 0, e⟩] → l ∈ f.lines ∨ l.event = e := by
    intro l hl
    rcases List.mem_append.mp hl with hl | hl
    · exact .inl hl
    · rw [List.mem_singleton.mp hl]
      exact .inr rfl
  have hwants : w.Wants f m := by
    rcases hwants with hm | ⟨l, hl, hml⟩ | hway
    · exact .inl hm
    · rcases hmem l hl with hl | hle
      · exact .inr (.inl ⟨l, hl, hml⟩)
      · refine .inr (.inr ⟨t, .write stamp e, by rw [hnext]; exact List.mem_cons_self, ?_⟩)
        rw [hle] at hml
        exact hml
    · rcases of_awaits_step hnext hway with ⟨b, hb, -⟩ | hway
      · cases hb
      · exact .inr (.inr hway)
  rcases h.covered f hf hstacks m hwants with ⟨l, hl, hle⟩ | hway | ⟨hm, hway⟩
  · exact .inl ⟨l, List.mem_append_left _ hl, hle⟩
  -- the line that was on its way may be this one
  · by_cases he : e = .moduleLoaded m.base (some m)
    · exact .inl ⟨⟨stamp.getD 0, e⟩, List.mem_append_right _ List.mem_cons_self, he⟩
    · exact .inr (.inl (hway.step hnext fun ha => absurd (Option.some.inj ha) he))
  · refine .inr (.inr ⟨hm, ?_⟩)
    rcases hway with hlooked | hlater
    · exact .inl (hlooked.step hnext fun ha => LogAct.noConfusion ha)
    · exact .inr (hlater.step hnext (fun h => LogAct.noConfusion h) (fun h => LogAct.noConfusion h)
        (fun h => LogAct.noConfusion h) rfl)

omit [DecidableEq T] in
/-- When nothing is on its way, the file that is closed has all it needs. -/
theorem Covering.resolvable {w : LogWorld T} (h : Covering w) {f : LogFile} (hf : f ∈ w.dll.file)
    (hnone : w.Stacking → ¬(w.ToCome ∨ w.Awaits fun a => a.withModule = true)) :
    f.Resolvable := by
  intro hstacks l hl m hm
  have hnone := hnone ⟨f, hf, hstacks⟩
  rcases h.covered f hf hstacks m (.inr (.inl ⟨l, hl, hm⟩)) with
    htells | hway | ⟨-, hlooked | hlater⟩
  · exact htells
  · obtain ⟨t, a, ha, hcarries⟩ := hway
    refine absurd (.inr ⟨t, a, ha, ?_⟩) hnone
    cases a with
    | emit e | append stamp e | write stamp e =>
      obtain rfl := Option.some.inj hcarries
      rfl
    | _ => cases hcarries
  · obtain ⟨t, a, ha, rfl⟩ := hlooked
    exact absurd (.inr ⟨t, _, ha, rfl⟩) hnone
  · exact absurd (.inl hlater) hnone

omit [DecidableEq T] in
/-- So do all the files then. -/
theorem Covering.resolvable_files {w : LogWorld T} (h : Covering w)
    (hnone : w.Stacking → ¬(w.ToCome ∨ w.Awaits fun a => a.withModule = true)) :
    ∀ f ∈ w.dll.files, f.Resolvable := by
  intro f hf
  rcases List.mem_append.mp hf with hf | hf
  · exact h.closed f hf
  · exact h.resolvable (Option.mem_toList.mp hf) hnone

/-- A new file, for stacks, wants the modules of now, and they are to be enumerated. -/
theorem Covering.openFile {w : LogWorld T} (h : Covering w) {t : T} {withStacks ok : Bool}
    {rest : List LogAct} (hnext : w.todo t = .openLog withStacks ok :: rest)
    (hmiss : ¬w.MissesAct (.openLog withStacks ok)) :
    Covering (setTodo { w with dll := w.dll.openFile withStacks ok } t ([] ++ rest)) := by
  have hall := h.resolvable_files fun hs hway => hmiss (.inl ⟨hs, hway⟩)
  have htracks := tracks_step h.tracks hnext (d := w.dll.openFile withStacks ok)
    (List.forall_mem_nil _)
  cases ok with
  | false => exact ⟨h.nodup, htracks, hall, fun f hf => by cases hf⟩
  | true =>
    refine ⟨h.nodup, htracks, hall, fun f hf hstacks m hwants => ?_⟩
    obtain rfl := Option.some.inj hf
    obtain rfl : withStacks = true := hstacks
    have hfresh : w.dll.started = false := by
      by_contra hne
      exact hmiss (.inr ⟨rfl, rfl, .inl (Bool.eq_true_of_not_eq_false hne)⟩)
    have hnoStack : ¬w.Awaits fun a => a.stack ≠ [] :=
      fun hway => hmiss (.inr ⟨rfl, rfl, .inr hway⟩)
    have htrack : LogAct.trackModules ∈ rest := by
      have hacts := h.tracks t
      rw [hnext] at hacts
      exact hacts.1 rfl
    have hm : m ∈ w.dll.loaded := by
      rcases hwants with hm | ⟨l, hl, -⟩ | hway
      · exact hm
      · cases hl
      · rcases of_awaits_step hnext hway with ⟨b, hb, -⟩ | ⟨t', a, ha, hm⟩
        · cases hb
        · exact absurd ⟨t', a, ha, List.ne_nil_of_mem hm⟩ hnoStack
    exact .inr (.inr ⟨hm, .inr (.inr ⟨hfresh, awaits_new htrack (.inl rfl)⟩)⟩)

/-- The loader brings a module in; either it is noticed, or it will be enumerated. -/
theorem Covering.load {w : LogWorld T} (h : Covering w) {t : T} {base : ℕ} {rest : List LogAct}
    (hnext : w.todo t = .load base :: rest) (hmiss : ¬w.MissesAct (.load base)) :
    Covering (setTodo { w with dll := (w.dll.exec (.load base)).1 } t
      ((w.dll.exec (.load base)).2 ++ rest)) := by
  unfold Dll.exec
  dsimp only
  -- a base in use: the loader refuses
  split
  · exact h.quiet hnext rfl rfl rfl (List.forall_mem_nil _) (fun b hb => by cases hb)
      (fun _ e he => by cases he) (fun m _ hm => by cases hm)
      (fun _ hlater => .inl (hlater.step hnext (fun h => LogAct.noConfusion h)
        (fun h => LogAct.noConfusion h) (fun h => LogAct.noConfusion h) rfl))
  · next hfree =>
    have hfree : ∀ m ∈ w.dll.loaded, m.base ≠ base := by
      intro m hm heq
      refine hfree ?_
      rw [Dll.moduleAt, List.find?_isSome]
      exact ⟨m, hm, by simpa using heq⟩
    have hnew : ∀ m ∈ w.dll.loaded ++ [⟨base, w.dll.loads⟩],
        m ∈ w.dll.loaded ∨ m = ⟨base, w.dll.loads⟩ := by
      intro m hm
      rcases List.mem_append.mp hm with hm | hm
      · exact .inl hm
      · exact .inr (List.mem_singleton.mp hm)
    have hmore : ∀ b ∈ (if w.dll.registered then
        [LogAct.emit (.moduleLoaded base (some ⟨base, w.dll.loads⟩))] else []),
        b = .emit (.moduleLoaded base (some ⟨base, w.dll.loads⟩)) := by
      intro b hb
      split at hb
      · exact List.mem_singleton.mp hb
      · cases hb
    refine ⟨?_, tracks_step h.tracks hnext fun b hb => ?_, h.closed,
      fun f hf hstacks m hwants => ?_⟩
    · show ((w.dll.loaded ++ [(⟨base, w.dll.loads⟩ : Load)]).map Load.base).Nodup
      rw [List.map_append, List.nodup_append]
      refine ⟨h.nodup, List.nodup_singleton _, ?_⟩
      intro b hb c hc
      obtain ⟨m, hm, rfl⟩ := List.mem_map.mp hb
      rw [List.mem_singleton.mp hc]
      exact hfree m hm
    · rw [hmore b hb]
      exact fun h => LogAct.noConfusion h
    -- either the new module or one that was wanted before
    · have hold : m = ⟨base, w.dll.loads⟩ ∨ w.Wants f m := by
        rcases hwants with hm | hshows | hway
        · rcases hnew m hm with hm | hm
          · exact .inr (.inl hm)
          · exact .inl hm
        · exact .inr (.inr (.inl hshows))
        · rcases of_awaits_step hnext hway with ⟨b, hb, hmb⟩ | hway
          · rw [hmore b hb] at hmb
            cases hmb
          · exact .inr (.inr (.inr hway))
      rcases hold with rfl | hold
      -- the notification tells of it, or else the enumeration is still to come
      · by_cases hreg : w.dll.registered = true
        · refine .inr (.inl ⟨t, .emit (.moduleLoaded base (some ⟨base, w.dll.loads⟩)), ?_, rfl⟩)
          rw [todo_setTodo_self, if_pos hreg]
          exact List.mem_cons_self
        · have hlater : w.ToCome := by
            by_contra hnot
            exact hmiss ⟨⟨f, hf, hstacks⟩, Bool.eq_false_of_not_eq_true hreg, hnot⟩
          exact .inr (.inr ⟨List.mem_append_right _ List.mem_cons_self,
            .inr (hlater.step hnext (fun h => LogAct.noConfusion h)
              (fun h => LogAct.noConfusion h) (fun h => LogAct.noConfusion h) rfl)⟩)
      · rcases h.covered f hf hstacks m hold with htells | hway | ⟨hm, hway⟩
        · exact .inl htells
        · exact .inr (.inl (hway.step hnext fun ha => by cases ha))
        · refine .inr (.inr ⟨List.mem_append_left _ hm, ?_⟩)
          rcases hway with hlooked | hlater
          · exact .inl (hlooked.step hnext fun ha => LogAct.noConfusion ha)
          · exact .inr (hlater.step hnext (fun h => LogAct.noConfusion h)
              (fun h => LogAct.noConfusion h) (fun h => LogAct.noConfusion h) rfl)

/-- A module goes, when its line is already made. -/
theorem Covering.unload {w : LogWorld T} (h : Covering w) {t : T} {base : ℕ} {rest : List LogAct}
    (hnext : w.todo t = .unload base :: rest) (hmiss : ¬w.MissesAct (.unload base)) :
    Covering (setTodo { w with dll := (w.dll.exec (.unload base)).1 } t
      ((w.dll.exec (.unload base)).2 ++ rest)) := by
  have hmore : ∀ b ∈ (w.dll.exec (.unload base)).2, b = .emit (.moduleUnloaded base) := by
    intro b hb
    cases Dll.follows_of_mem hb
    rfl
  refine ⟨h.nodup.sublist (List.filter_sublist.map _),
    tracks_step h.tracks hnext fun b hb => ?_, h.closed, fun f hf hstacks m hwants => ?_⟩
  · rw [hmore b hb]
    exact fun h => LogAct.noConfusion h
  · have hold : w.Wants f m := by
      rcases hwants with hm | hshows | hway
      · exact .inl (List.mem_of_mem_filter hm)
      · exact .inr (.inl hshows)
      · rcases of_awaits_step hnext hway with ⟨b, hb, hmb⟩ | hway
        · rw [hmore b hb] at hmb
          cases hmb
        · exact .inr (.inr hway)
    have hnot : ¬(w.ToCome ∨ w.Awaits (· = .inspect base)) :=
      fun hway => hmiss ⟨⟨f, hf, hstacks⟩, hway⟩
    rcases h.covered f hf hstacks m hold with htells | hway | ⟨hm, hlooked | hlater⟩
    · exact .inl htells
    · exact .inr (.inl (hway.step hnext fun ha => by cases ha))
    · have hbase : m.base ≠ base := by
        intro heq
        exact hnot (.inr (heq ▸ hlooked))
      refine .inr (.inr ⟨List.mem_filter.mpr ⟨hm, decide_eq_true hbase⟩, .inl ?_⟩)
      exact hlooked.step hnext fun ha => LogAct.noConfusion ha
    · exact absurd (.inl hlater) hnot

omit [DecidableEq T] in
theorem covering_start {bases : List ℕ} (h : bases.Nodup) :
    Covering (start bases : LogWorld T) where
  nodup := by
    show ((bases.zipIdx.map fun x => (⟨x.1, x.2⟩ : Load)).map Load.base).Nodup
    rw [List.map_map, show (Load.base ∘ fun x : ℕ × ℕ => (⟨x.1, x.2⟩ : Load)) = Prod.fst from rfl,
      List.zipIdx_map_fst]
    exact h
  tracks := fun _ => trivial
  closed := fun f hf => by cases hf
  covered := fun f hf => by cases hf

/-- A thread that begins a call has lines and modules on their way, and takes none off it. -/
theorem Covering.call {w : LogWorld T} (h : Covering w) {t : T} (c : LogCall)
    (hidle : w.todo t = []) : Covering (w.setTodo t c.acts) := by
  have hnone : ∀ {P : LogAct → Prop}, ∀ a ∈ w.todo t, P a → ∃ b ∈ c.acts, P b := by
    intro P a ha
    rw [hidle] at ha
    cases ha
  refine ⟨h.nodup, fun t' => ?_, h.closed, fun f hf hstacks m hwants => ?_⟩
  · by_cases ht : t' = t
    · rw [ht, todo_setTodo_self]
      exact tracks_acts c
    · rw [todo_setTodo_of_ne _ ht]
      exact h.tracks t'
  · have hwants : w.Wants f m := by
      rcases hwants with hm | hshows | hway
      · exact .inl hm
      · exact .inr (.inl hshows)
      · rcases of_awaits_setTodo hway with ⟨b, hb, hmb⟩ | hway
        · rw [stack_acts c b hb] at hmb
          cases hmb
        · exact .inr (.inr hway)
    rcases h.covered f hf hstacks m hwants with htells | hway | ⟨hm, hlooked | hlater | hlater⟩
    · exact .inl htells
    · exact .inr (.inl (hway.setTodo hnone))
    · exact .inr (.inr ⟨hm, .inl (hlooked.setTodo hnone)⟩)
    · exact .inr (.inr ⟨hm, .inr (.inl (hlater.setTodo hnone))⟩)
    · exact .inr (.inr ⟨hm, .inr (.inr ⟨hlater.1, hlater.2.setTodo hnone⟩)⟩)

section Acts

variable {w : LogWorld T} {t : T} {rest : List LogAct}

/-- Modules that are still to come are so behind an action that does not ask for them. -/
theorem ToCome.stays (hlater : w.ToCome) {a : LogAct} (hnext : w.todo t = a :: rest)
    (hasks : asks a = false) {d : Dll} (hstarted : d.started = w.dll.started)
    (more : List LogAct) : (setTodo { w with dll := d } t (more ++ rest)).ToCome := by
  refine hlater.step hnext ?_ ?_ ?_ hstarted <;>
    · rintro rfl
      cases hasks

/-- **An action that neither carries a line nor looks at modules.** -/
theorem Covering.plain (h : Covering w) {a : LogAct} (hnext : w.todo t = a :: rest)
    (hcarries : a.carries = none) (hinspect : ∀ base, a ≠ .inspect base)
    (hfile : (w.dll.exec a).1.file = w.dll.file) (hclosed : (w.dll.exec a).1.closed = w.dll.closed)
    (hloaded : (w.dll.exec a).1.loaded = w.dll.loaded)
    (hmore : ∀ b ∈ (w.dll.exec a).2, b.carries = none)
    (hcome : w.Stacking → w.ToCome →
      (setTodo { w with dll := (w.dll.exec a).1 } t ((w.dll.exec a).2 ++ rest)).ToCome ∨
        ∀ m ∈ w.dll.loaded, LogAct.inspect m.base ∈ (w.dll.exec a).2) :
    Covering (setTodo { w with dll := (w.dll.exec a).1 } t ((w.dll.exec a).2 ++ rest)) := by
  refine h.quiet hnext hfile hclosed hloaded (fun b hb => exec_ne_openLog hb) ?_ ?_ ?_ hcome
  · intro b hb m hm
    have hnil : b.stack = [] := by
      unfold LogAct.stack
      rw [hmore b hb]
      rfl
    rw [hnil] at hm
    cases hm
  · intro _ e he
    rw [hcarries] at he
    cases he
  · exact fun m _ hm => absurd hm (hinspect m.base)

/-- A flag or the notification is set. -/
theorem Covering.flag (h : Covering w) {a : LogAct} (hnext : w.todo t = a :: rest)
    (ha : (∃ b, a = .setCapture b) ∨ a = .register ∨ a = .unregister) :
    Covering (setTodo { w with dll := (w.dll.exec a).1 } t ((w.dll.exec a).2 ++ rest)) := by
  rcases ha with ⟨b, rfl⟩ | rfl | rfl <;>
    exact h.plain hnext rfl (fun _ h => LogAct.noConfusion h) rfl rfl rfl (List.forall_mem_nil _)
      fun _ hlater => .inl (ToCome.stays hlater hnext rfl rfl _)

/-- A stack has the modules that are loaded. -/
theorem Covering.capture (h : Covering w) (hnext : w.todo t = .capture :: rest) :
    Covering (setTodo { w with dll := (w.dll.exec .capture).1 } t
      ((w.dll.exec .capture).2 ++ rest)) := by
  refine h.quiet hnext rfl rfl rfl (fun b hb => exec_ne_openLog hb) ?_ (fun _ e he => by cases he)
    (fun m _ hm => LogAct.noConfusion hm) fun _ hlater => .inl (ToCome.stays hlater hnext rfl rfl _)
  intro b hb m hm
  rw [List.mem_singleton.mp hb] at hm
  have hm : m ∈ (LogEvent.created
      (if w.dll.captureCallstacks then some w.dll.loaded else none)).stack := hm
  split at hm
  · exact .inr hm
  · cases hm

theorem Covering.emit (h : Covering w) {e : LogEvent} (hnext : w.todo t = .emit e :: rest) :
    Covering (setTodo { w with dll := (w.dll.exec (.emit e)).1 } t
      ((w.dll.exec (.emit e)).2 ++ rest)) := by
  refine h.quiet hnext rfl rfl rfl (fun b hb => exec_ne_openLog hb) ?_
    (fun _ e' he => ⟨_, List.mem_cons_self, he⟩) (fun m _ hm => LogAct.noConfusion hm)
    fun _ hlater => .inl (ToCome.stays hlater hnext rfl rfl _)
  intro b hb m hm
  rw [List.mem_singleton.mp hb] at hm
  exact .inl hm

theorem Covering.append (h : Covering w) {stamp : Option ℕ} {e : LogEvent}
    (hnext : w.todo t = .append stamp e :: rest) :
    Covering (setTodo { w with dll := (w.dll.exec (.append stamp e)).1 } t
      ((w.dll.exec (.append stamp e)).2 ++ rest)) := by
  refine h.quiet hnext rfl rfl rfl (fun b hb => exec_ne_openLog hb) ?_ ?_
    (fun m _ hm => LogAct.noConfusion hm) fun _ hlater => .inl (ToCome.stays hlater hnext rfl rfl _)
  · intro b hb m hm
    cases Dll.follows_of_mem hb
    exact .inl hm
  · intro hopen e' he
    refine ⟨.write stamp e, ?_, he⟩
    show _ ∈ (if w.dll.file.isSome then [LogAct.write stamp e] else [])
    rw [if_pos hopen]
    exact List.mem_cons_self

/-- Modules are to be tracked, where stacks are captured. -/
theorem Covering.trackModules (h : Covering w) (hnext : w.todo t = .trackModules :: rest)
    (hmiss : ¬w.MissesAct .trackModules) :
    Covering (setTodo { w with dll := (w.dll.exec .trackModules).1 } t
      ((w.dll.exec .trackModules).2 ++ rest)) := by
  refine h.plain hnext rfl (fun _ h => LogAct.noConfusion h) rfl rfl rfl ?_ ?_
  · intro b hb
    cases Dll.follows_of_mem hb
    rfl
  · rintro hstacks (hlater | ⟨hnot, hlater⟩)
    · exact .inl (.inl (hlater.step hnext fun h => LogAct.noConfusion h))
    · refine .inl (.inr ⟨hnot, hlater.step hnext fun _ => ⟨.startTracking, ?_, .inr rfl⟩⟩)
      have hcapture : w.dll.captureCallstacks = true := by
        by_contra hoff
        exact hmiss ⟨hstacks, Bool.eq_false_of_not_eq_true hoff, hnot⟩
      show _ ∈ (if w.dll.captureCallstacks then [LogAct.startTracking] else [])
      rw [if_pos hcapture]
      exact List.mem_cons_self

/-- The tracking starts with an enumeration, the first time. -/
theorem Covering.startTracking (h : Covering w) (hnext : w.todo t = .startTracking :: rest) :
    Covering (setTodo { w with dll := (w.dll.exec .startTracking).1 } t
      ((w.dll.exec .startTracking).2 ++ rest)) := by
  refine h.plain hnext rfl (fun _ h => LogAct.noConfusion h) rfl rfl rfl ?_ ?_
  · intro b hb
    cases Dll.follows_of_mem hb <;> rfl
  · rintro - (hlater | ⟨hnot, -⟩)
    · exact .inl (.inl (hlater.step hnext fun h => LogAct.noConfusion h))
    · refine .inl (.inl (awaits_new (List.mem_append_left _ ?_) rfl))
      show _ ∈ (if w.dll.started then [] else [LogAct.enumerate, .register])
      rw [hnot]
      exact List.mem_cons_self

/-- An enumeration looks at every module, if there is room for all. -/
theorem Covering.enumerate (h : Covering w) (hnext : w.todo t = .enumerate :: rest)
    (hroom : w.dll.loaded.length ≤ maxModules) :
    Covering (setTodo { w with dll := (w.dll.exec .enumerate).1 } t
      ((w.dll.exec .enumerate).2 ++ rest)) := by
  have hall : ∀ m ∈ w.dll.loaded,
      LogAct.inspect m.base ∈ (w.dll.loaded.take maxModules).map fun m => .inspect m.base := by
    intro m hm
    rw [List.take_of_length_le hroom]
    exact List.mem_map_of_mem hm
  refine h.plain hnext rfl (fun _ h => LogAct.noConfusion h) rfl rfl rfl ?_ fun _ _ => .inr hall
  intro b hb
  cases Dll.follows_of_mem hb
  rfl

/-- What is looked at is told. -/
theorem Covering.inspect (h : Covering w) {base : ℕ} (hnext : w.todo t = .inspect base :: rest) :
    Covering (setTodo { w with dll := (w.dll.exec (.inspect base)).1 } t
      ((w.dll.exec (.inspect base)).2 ++ rest)) := by
  refine h.quiet hnext rfl rfl rfl (fun b hb => exec_ne_openLog hb) ?_
    (fun _ e he => by cases he) ?_
    fun _ hlater => .inl (ToCome.stays hlater hnext rfl rfl _)
  · intro b hb m hm
    rw [List.mem_singleton.mp hb] at hm
    cases hm
  · intro m hm hlook
    obtain rfl : base = m.base := LogAct.inspect.inj hlook
    refine ⟨_, List.mem_cons_self, ?_⟩
    rw [moduleAt_base h.nodup hm]
    rfl

/-- The log is closed, when nothing that it needs is on its way. -/
theorem Covering.closeLog (h : Covering w) {detaching : Bool}
    (hnext : w.todo t = .closeLog detaching :: rest)
    (hmiss : ¬w.MissesAct (.closeLog detaching)) :
    Covering (setTodo { w with dll := (w.dll.exec (.closeLog detaching)).1 } t
      ((w.dll.exec (.closeLog detaching)).2 ++ rest)) :=
  ⟨h.nodup, tracks_step h.tracks hnext (List.forall_mem_nil _),
    h.resolvable_files fun hs hway => hmiss ⟨hs, hway⟩, fun f hf => by cases hf⟩

/-- **An action that misses nothing.** -/
theorem Covering.act (h : Covering w) {a : LogAct} (hnext : w.todo t = a :: rest)
    (hmiss : ¬w.MissesAct a) (hroom : w.dll.loaded.length ≤ maxModules) :
    Covering (setTodo { w with dll := (w.dll.exec a).1 } t ((w.dll.exec a).2 ++ rest)) := by
  cases a with
  | write stamp e => exact h.write hnext
  | openLog withStacks ok => exact h.openFile hnext hmiss
  | closeLog detaching => exact h.closeLog hnext hmiss
  | load base => exact h.load hnext hmiss
  | unload base => exact h.unload hnext hmiss
  | capture => exact h.capture hnext
  | emit e => exact h.emit hnext
  | append stamp e => exact h.append hnext
  | setCapture b => exact h.flag hnext (.inl ⟨b, rfl⟩)
  | register => exact h.flag hnext (.inr (.inl rfl))
  | unregister => exact h.flag hnext (.inr (.inr rfl))
  | trackModules => exact h.trackModules hnext hmiss
  | startTracking => exact h.startTracking hnext
  | enumerate => exact h.enumerate hnext hroom
  | inspect base => exact h.inspect hnext

end Acts

/-- **A move that misses nothing** keeps the coverage, while there is room for the modules. -/
theorem covering_move {w : LogWorld T} (h : Covering w) (x : LogMove T) (hmiss : ¬w.Misses x)
    (hroom : w.dll.loaded.length ≤ maxModules) : Covering (w.move x) := by
  have hmoved := moved w x
  generalize w.move x = w' at hmoved ⊢
  cases hmoved with
  | stay => exact h
  | tick ns => exact ⟨h.nodup, h.tracks, h.closed, h.covered⟩
  | call t c hidle => exact h.call c hidle
  | step t a rest hnext =>
    refine h.act hnext (fun hbad => hmiss ⟨a, ?_, hbad⟩) hroom
    unfold next
    rw [hnext]
    rfl

/-- **The stacks can be resolved**, in every file that was opened to have them, if no step of the
run misses a module and no thread has anything left to do. -/
theorem resolvable_of_tracked {bases : List ℕ} {xs : List (LogMove T)} (hbases : bases.Nodup)
    (hfits : Fits bases xs) (htracked : Tracked bases xs) (hidle : (run bases xs).Idle) :
    ∀ f ∈ (run bases xs).dll.files, f.Resolvable := by
  have hcovering : Covering (run bases xs) := by
    refine Machine.run_induction move (start bases) (fun xs => Fits bases xs ∧ Tracked bases xs)
      (fun _ w => Covering w) ?_ (covering_start hbases) ?_ xs ⟨hfits, htracked⟩
    · rintro xs x ⟨hfits, hall⟩
      refine ⟨fun us vs hxs => hfits us (vs ++ [x]) (by rw [hxs, List.append_assoc]), ?_⟩
      rintro ⟨us, y, vs, rfl, hy⟩
      exact hall ⟨us, y, vs ++ [x], by simp, hy⟩
    · rintro xs x ⟨hfits, hall⟩ hcovering
      exact covering_move hcovering x (fun hx => hall ⟨xs, x, [], rfl, hx⟩) (hfits xs [x] rfl)
  refine hcovering.resolvable_files fun _ hway => ?_
  have hnone : ∀ P, ¬(run bases xs).Awaits P := by
    rintro P ⟨t, a, ha, -⟩
    rw [hidle t] at ha
    cases ha
  rcases hway with (hlater | ⟨-, hlater⟩) | hway
  · exact hnone _ hlater
  · exact hnone _ hlater
  · exact hnone _ hway

/-- A log with stacks is opened, a hook reports a new object, and the log is closed. -/
def trackedLog : List (LogMove Bool) :=
  .call false (.startLogging true true) :: List.replicate 12 (.step false) ++
    .call true .create :: List.replicate 4 (.step true) ++ [.call false .stopLogging, .step false]

/-- Another log with stacks is opened before the hook reports. -/
def switchedLog : List (LogMove Bool) :=
  .call false (.startLogging true true) :: List.replicate 12 (.step false) ++
    .call false (.startLogging true true) :: List.replicate 6 (.step false) ++
      .call true .create :: List.replicate 4 (.step true)

theorem resolvable_of_tracked_trackedLog :
    (run [64] trackedLog).dll.files.map (fun f => f.lines.map Line.event)
      = [[.hello, .moduleLoaded 64 (some ⟨64, 0⟩), .created (some [⟨64, 0⟩])]] ∧
    ∀ f ∈ (run [64] trackedLog).dll.files, f.Resolvable :=
  ⟨by decide, resolvable_of_tracked (by decide) (by decide) (by decide) (by decide)⟩

/-- The modules were enumerated for the first file, and the second has a stack. -/
theorem not_resolvable_switchedLog :
    ¬∀ (bases : List ℕ) (xs : List (LogMove Bool)), bases.Nodup → Fits bases xs →
      (run bases xs).Idle → ∀ f ∈ (run bases xs).dll.files, f.Resolvable := by
  intro h
  exact absurd (h [64] switchedLog (by decide) (by decide) (by decide)) (by decide)

end LogWorld

end Dx12Track
