import Mathlib.Data.List.Chain
import Dx12Track.Lib.Mutex
import Dx12Track.Lib.Run
import Dx12Track.Lib.Table

/-!
# The object hooks

`Tracker::Register` puts three hooks into the vtable of an object when it meets the
vtable for the first time, and records the functions that it found there.  A hook
looks the vtable of its object up and forwards to the function on record.  The
slots are written one by one, and each is live at once, but the record is made
after the last of them.  The mutex `mu_` covers all of that, and the lookup.

A process has any number of threads, each with the calls it is in.  A vtable is its
address in `mem`, and its slots are numbered from 0; two vtables at different
addresses have no slot in common.  What `Register` and the hooks then do with the
object, its tag and its name, does not touch a vtable and is left out here.

* `Frame`, `Process`, `Action`, `Process.step` — the calls of a thread, and their steps.
* `Inv` — **the invariant**: who is between the first slot and the record, and
  what every call knows.
* `Safe` — a vtable is patched once, and every hook finds the function that was in its slot.
* `safe_run` — **every state is safe**.
-/

namespace Dx12Track

namespace ObjectHooks

/-- The methods that get a hook. -/
inductive Method
  | release | setPrivateData | setName
  deriving DecidableEq, Repr

namespace Method

/-- `kSlot_Release`, `kSlot_SetPrivateData` and `kSlot_SetName`. -/
def index : Method → ℕ
  | release => 2
  | setPrivateData => 4
  | setName => 6

theorem index_injective : Function.Injective index := by
  intro m m' h
  cases m <;> cases m' <;> first | rfl | cases h

/-- The methods in the order `PatchVTableIfNew` patches them. -/
def all : List Method := [release, setPrivateData, setName]

theorem mem_all (m : Method) : m ∈ all := by
  cases m <;> decide

theorem nodup_all : all.Nodup := by decide

end Method

/-- What a vtable slot points to: a function of the driver, or the hook of a method. -/
inductive Target
  | real (address : ℕ)
  | hook (m : Method)
  deriving DecidableEq, Repr

/-- `Tracker::VTablePatch`; `none` is a null pointer. -/
structure VTablePatch where
  realRelease : Option Target := none
  realSetPrivateData : Option Target := none
  realSetName : Option Target := none
  deriving DecidableEq, Repr

/-- `unselfref`: a hook that was captured in its own slot is not an original. -/
def unselfref (captured : Option Target) (hook : Method) : Option Target :=
  if captured = some (.hook hook) then none else captured

namespace VTablePatch

/-- The member that the hook of `m` reads. -/
def real (p : VTablePatch) : Method → Option Target
  | .release => p.realRelease
  | .setPrivateData => p.realSetPrivateData
  | .setName => p.realSetName

def setReal (p : VTablePatch) (f : Option Target) : Method → VTablePatch
  | .release => { p with realRelease := f }
  | .setPrivateData => { p with realSetPrivateData := f }
  | .setName => { p with realSetName := f }

def unselfref (p : VTablePatch) : VTablePatch where
  realRelease := ObjectHooks.unselfref p.realRelease .release
  realSetPrivateData := ObjectHooks.unselfref p.realSetPrivateData .setPrivateData
  realSetName := ObjectHooks.unselfref p.realSetName .setName

theorem real_setReal (p : VTablePatch) (f : Option Target) (m m' : Method) :
    (p.setReal f m).real m' = if m' = m then f else p.real m' := by
  cases m <;> cases m' <;> rfl

theorem real_unselfref (p : VTablePatch) (m : Method) :
    p.unselfref.real m = ObjectHooks.unselfref (p.real m) m := by
  cases m <;> rfl

end VTablePatch

/-! ### Calls -/

/-- A call through a slot of the vtable of an object. -/
structure MethodCall where
  vtable : ℕ
  slot : ℕ
  deriving DecidableEq, Repr

/-- Where a hook is. -/
inductive Stage
  | entered
  /-- In `LookupVTable`, under the lock. -/
  | looking
  /-- `LookupVTable` has returned a pointer to the entry of a vtable, or null. -/
  | found (entry : Option ℕ)
  /-- `GetReal…` has returned. -/
  | resolved (real : Option Target)
  /-- The function `f` was called. -/
  | forwarding (f : Target)
  deriving DecidableEq, Repr

/-- A call that a thread is in. -/
inductive Frame
  /-- A function of the driver. -/
  | real (address : ℕ)
  /-- `PatchVTableIfNew`, before the lock. -/
  | register (vt : ℕ)
  /-- `PatchVTableIfNew`, under the lock. -/
  | locked (vt : ℕ)
  /-- `PatchVTableIfNew`, with the originals so far and the slots that are left. -/
  | patching (vt : ℕ) (p : VTablePatch) (left : List Method)
  /-- The hook of the method `h`. -/
  | hook (h : Method) (c : MethodCall) (stage : Stage)
  deriving DecidableEq, Repr

/-- The first frame of a called function. -/
def enter (f : Target) (c : MethodCall) : Frame :=
  match f with
  | .real a => .real a
  | .hook h => .hook h c .entered

/-- The vtables, the tracker's part in them, and the threads. -/
structure Process (T : Type) where
  mem : ℕ → ℕ → Target
  /-- `vtable_patches_`. -/
  patches : Table ℕ VTablePatch := ∅
  /-- The thread that has `mu_`. -/
  lock : Option T := none
  /-- The calls that a thread is in, the innermost first. -/
  stack : T → List Frame := fun _ => []
  /-- The slots that were written, each with its vtable. -/
  written : List (ℕ × ℕ) := []

/-- A step of the thread `t`. -/
inductive Action (T : Type)
  /-- The app or the driver calls a method of an object. -/
  | call (t : T) (c : MethodCall)
  /-- `Register`, with the vtable of the object; `none` is a null object. -/
  | register (t : T) (vt : Option ℕ)
  /-- `mu_` is locked. -/
  | acquire (t : T)
  /-- The map is searched. -/
  | find (t : T)
  /-- One `PatchSlot`. -/
  | patch (t : T)
  /-- The entry is made, and `mu_` unlocked. -/
  | record (t : T)
  /-- `GetReal…` reads the entry it has a pointer to. -/
  | read (t : T)
  /-- The hook calls the original, or skips it. -/
  | forward (t : T)
  /-- A function of the driver returns, or a hook whose original has returned. -/
  | ret (t : T)

/-- The app or the driver runs. -/
def free : List Frame → Bool
  | [] | .real _ :: _ => true
  | _ => false

namespace Process

variable {T : Type} [DecidableEq T]

def setStack (w : Process T) (t : T) (s : List Frame) : Process T :=
  { w with stack := Function.update w.stack t s }

def setLock (w : Process T) (lock : Option T) : Process T := { w with lock := lock }

omit [DecidableEq T] in
/-- `PatchSlot`. -/
def patchSlot (virtualProtect : ℕ → ℕ → Bool) (w : Process T) (vt : ℕ) (m : Method) :
    Option Target × Process T :=
  if virtualProtect vt m.index then
    (some (w.mem vt m.index),
      { w with
        mem := Function.update w.mem vt (Function.update (w.mem vt) m.index (.hook m))
        written := w.written ++ [(vt, m.index)] })
  else (none, w)

omit [DecidableEq T] in
/-- `vtable_patches_.emplace`. -/
def emplace (w : Process T) (vt : ℕ) (p : VTablePatch) : Process T :=
  { w with patches := if (w.patches.lookup vt).isSome then w.patches else w.patches.insert vt p }

/-- One step; an action that is not possible changes nothing. -/
def step (virtualProtect : ℕ → ℕ → Bool) (w : Process T) : Action T → Process T
  | .call t c =>
    if free (w.stack t) then w.setStack t (enter (w.mem c.vtable c.slot) c :: w.stack t) else w
  | .register _ none => w
  | .register t (some vt) =>
    if free (w.stack t) then w.setStack t (.register vt :: w.stack t) else w
  | .acquire t =>
    match w.stack t, w.lock with
    | .register vt :: s, none => (w.setLock (some t)).setStack t (.locked vt :: s)
    | .hook h c .entered :: s, none => (w.setLock (some t)).setStack t (.hook h c .looking :: s)
    | _, _ => w
  | .find t =>
    match w.stack t with
    | .locked vt :: s =>
      if (w.patches.lookup vt).isSome then (w.setLock none).setStack t s
      else w.setStack t (.patching vt {} Method.all :: s)
    | .hook h c .looking :: s =>
      let entry := if (w.patches.lookup c.vtable).isSome then some c.vtable else none
      (w.setLock none).setStack t (.hook h c (.found entry) :: s)
    | _ => w
  | .patch t =>
    match w.stack t with
    | .patching vt p (m :: left) :: s =>
      let (prev, w) := w.patchSlot virtualProtect vt m
      w.setStack t (.patching vt (p.setReal prev m) left :: s)
    | _ => w
  | .record t =>
    match w.stack t with
    | .patching vt p [] :: s => ((w.emplace vt p.unselfref).setLock none).setStack t s
    | _ => w
  | .read t =>
    match w.stack t with
    | .hook h c (.found entry) :: s =>
      let real := entry.bind fun vt => (w.patches.lookup vt).bind fun p => p.real h
      w.setStack t (.hook h c (.resolved real) :: s)
    | _ => w
  | .forward t =>
    match w.stack t with
    -- the vtable was not registered
    | .hook _ _ (.resolved none) :: s => w.setStack t s
    | .hook h c (.resolved (some f)) :: s =>
      w.setStack t (enter f c :: .hook h c (.forwarding f) :: s)
    | _ => w
  | .ret t =>
    match w.stack t with
    | .real _ :: s => w.setStack t s
    | .hook _ _ (.forwarding _) :: s => w.setStack t s
    | _ => w

/-- The process after some actions, with the vtables `mem` at first. -/
def run (virtualProtect : ℕ → ℕ → Bool) (mem : ℕ → ℕ → Target) (xs : List (Action T)) :
    Process T := Machine.run (step virtualProtect) { mem := mem } xs

/-! ### What a step can do -/

inductive Move (virtualProtect : ℕ → ℕ → Bool) (w : Process T) : Action T → Process T → Prop
  | stay (a : Action T) : Move virtualProtect w a w
  | call (t : T) (c : MethodCall) (hfree : free (w.stack t) = true) :
      Move virtualProtect w (.call t c)
        (w.setStack t (enter (w.mem c.vtable c.slot) c :: w.stack t))
  | register (t : T) (vt : ℕ) (hfree : free (w.stack t) = true) :
      Move virtualProtect w (.register t (some vt)) (w.setStack t (.register vt :: w.stack t))
  | lockPatch (t : T) (vt : ℕ) (s : List Frame) (hs : w.stack t = .register vt :: s)
      (hlock : w.lock = none) :
      Move virtualProtect w (.acquire t) ((w.setLock (some t)).setStack t (.locked vt :: s))
  | lockLookup (t : T) (h : Method) (c : MethodCall) (s : List Frame)
      (hs : w.stack t = .hook h c .entered :: s) (hlock : w.lock = none) :
      Move virtualProtect w (.acquire t) ((w.setLock (some t)).setStack t (.hook h c .looking :: s))
  | known (t : T) (vt : ℕ) (s : List Frame) (hs : w.stack t = .locked vt :: s) :
      Move virtualProtect w (.find t) ((w.setLock none).setStack t s)
  | unknown (t : T) (vt : ℕ) (s : List Frame) (hs : w.stack t = .locked vt :: s)
      (hnone : w.patches.lookup vt = none) :
      Move virtualProtect w (.find t) (w.setStack t (.patching vt {} Method.all :: s))
  | lookup (t : T) (h : Method) (c : MethodCall) (s : List Frame)
      (hs : w.stack t = .hook h c .looking :: s) :
      Move virtualProtect w (.find t) ((w.setLock none).setStack t
        (.hook h c (.found (if (w.patches.lookup c.vtable).isSome then some c.vtable else none))
          :: s))
  | patch (t : T) (vt : ℕ) (p : VTablePatch) (m : Method) (left : List Method) (s : List Frame)
      (hs : w.stack t = .patching vt p (m :: left) :: s) :
      Move virtualProtect w (.patch t) ((w.patchSlot virtualProtect vt m).2.setStack t
        (.patching vt (p.setReal (w.patchSlot virtualProtect vt m).1 m) left :: s))
  | record (t : T) (vt : ℕ) (p : VTablePatch) (s : List Frame)
      (hs : w.stack t = .patching vt p [] :: s) :
      Move virtualProtect w (.record t)
        (((w.emplace vt p.unselfref).setLock none).setStack t s)
  | read (t : T) (h : Method) (c : MethodCall) (entry : Option ℕ) (s : List Frame)
      (hs : w.stack t = .hook h c (.found entry) :: s) :
      Move virtualProtect w (.read t) (w.setStack t
        (.hook h c (.resolved
          (entry.bind fun vt => (w.patches.lookup vt).bind fun p => p.real h)) :: s))
  | skip (t : T) (h : Method) (c : MethodCall) (s : List Frame)
      (hs : w.stack t = .hook h c (.resolved none) :: s) :
      Move virtualProtect w (.forward t) (w.setStack t s)
  | forward (t : T) (h : Method) (c : MethodCall) (f : Target) (s : List Frame)
      (hs : w.stack t = .hook h c (.resolved (some f)) :: s) :
      Move virtualProtect w (.forward t)
        (w.setStack t (enter f c :: .hook h c (.forwarding f) :: s))
  | retReal (t : T) (a : ℕ) (s : List Frame) (hs : w.stack t = .real a :: s) :
      Move virtualProtect w (.ret t) (w.setStack t s)
  | retHook (t : T) (h : Method) (c : MethodCall) (f : Target) (s : List Frame)
      (hs : w.stack t = .hook h c (.forwarding f) :: s) :
      Move virtualProtect w (.ret t) (w.setStack t s)

theorem step_move (virtualProtect : ℕ → ℕ → Bool) (w : Process T) (a : Action T) :
    Move virtualProtect w a (w.step virtualProtect a) := by
  cases a with
  | call t c =>
    unfold step
    dsimp only
    split
    · next hfree => exact .call t c hfree
    · exact .stay _
  | register t vt =>
    cases vt with
    | none => exact .stay _
    | some vt =>
      unfold step
      dsimp only
      split
      · next hfree => exact .register t vt hfree
      · exact .stay _
  | acquire t =>
    unfold step
    dsimp only
    split
    · next vt s hs hlock => exact .lockPatch t vt s hs hlock
    · next h c s hs hlock => exact .lockLookup t h c s hs hlock
    · exact .stay _
  | find t =>
    unfold step
    dsimp only
    split
    · next vt s hs =>
      split
      · exact .known t vt s hs
      · next hnone => exact .unknown t vt s hs (by simpa using hnone)
    · next h c s hs => exact .lookup t h c s hs
    · exact .stay _
  | patch t =>
    unfold step
    dsimp only
    split
    · next vt p m left s hs => exact .patch t vt p m left s hs
    · exact .stay _
  | record t =>
    unfold step
    dsimp only
    split
    · next vt p s hs => exact .record t vt p s hs
    · exact .stay _
  | read t =>
    unfold step
    dsimp only
    split
    · next h c entry s hs => exact .read t h c entry s hs
    · exact .stay _
  | forward t =>
    unfold step
    dsimp only
    split
    · next h c s hs => exact .skip t h c s hs
    · next h c f s hs => exact .forward t h c f s hs
    · exact .stay _
  | ret t =>
    unfold step
    dsimp only
    split
    · next a s hs => exact .retReal t a s hs
    · next h c f s hs => exact .retHook t h c f s hs
    · exact .stay _

end Process

/-! ### The calls of a thread -/

/-- The call is in a section that `mu_` covers. -/
def Frame.holds : Frame → Bool
  | .locked _ | .patching _ _ _ | .hook _ _ .looking => true
  | _ => false

/-- The thread is in such a section. -/
def holds : List Frame → Bool
  | [] => false
  | f :: _ => f.holds

/-- The call `f` was made in the call `g`: by the driver, or by a hook that calls the original. -/
def MadeIn (f g : Frame) : Prop :=
  (∃ a, g = .real a) ∨ ∃ h c a, g = .hook h c (.forwarding (.real a)) ∧ f = .real a

theorem holds_of_free {s : List Frame} (h : free s = true) : holds s = false := by
  match s with
  | [] => rfl
  | .real _ :: _ => rfl

/-- Only the innermost call is in such a section. -/
theorem eq_cons_of_holds {s : List Frame} (hs : s.IsChain MadeIn) {f : Frame} (hf : f ∈ s)
    (hholds : f.holds = true) : ∃ s', s = f :: s' := by
  induction s with
  | nil => cases hf
  | cons g s ih =>
    rcases List.mem_cons.mp hf with rfl | hf
    · exact ⟨s, rfl⟩
    · obtain ⟨s', rfl⟩ := ih hs.tail hf
      rcases (List.isChain_cons_cons.mp hs).1 with ⟨a, rfl⟩ | ⟨h, c, a, rfl, -⟩
      · cases hholds
      · cases hholds

theorem holds_of_mem {s : List Frame} (hs : s.IsChain MadeIn) {f : Frame} (hf : f ∈ s)
    (hholds : f.holds = true) : holds s = true := by
  obtain ⟨s', rfl⟩ := eq_cons_of_holds hs hf hholds
  exact hholds

/-- A call that the app or the driver makes. -/
theorem chain_call {s : List Frame} (hs : s.IsChain MadeIn) (hfree : free s = true) (f : Frame) :
    (f :: s).IsChain MadeIn := by
  match s with
  | [] => exact List.isChain_singleton f
  | .real a :: s => exact List.isChain_cons_cons.mpr ⟨.inl ⟨a, rfl⟩, hs⟩

/-- A call of the tracker goes on. -/
theorem chain_replace {f : Frame} {s : List Frame} (hs : (f :: s).IsChain MadeIn)
    (hf : ∀ a, f ≠ .real a) (g : Frame) : (g :: s).IsChain MadeIn := by
  match s with
  | [] => exact List.isChain_singleton g
  | b :: s =>
    obtain ⟨hmade, hs⟩ := List.isChain_cons_cons.mp hs
    rcases hmade with hreal | ⟨h, c, a, -, hfa⟩
    · exact List.isChain_cons_cons.mpr ⟨.inl hreal, hs⟩
    · exact absurd hfa (hf a)

/-! ### The invariant -/

section Ok

variable (mem₀ mem : ℕ → ℕ → Target) (patches : Table ℕ VTablePatch)

/-- What a hook knows of the call `c`. -/
def Stage.Ok (c : MethodCall) : Stage → Prop
  | .entered | .looking => True
  | .found entry => entry = some c.vtable ∧ (patches.lookup c.vtable).isSome
  | .resolved real => real = some (mem₀ c.vtable c.slot)
  | .forwarding f => f = mem₀ c.vtable c.slot

/-- What holds in a call. -/
def Frame.Ok : Frame → Prop
  | .patching vt p left => patches.lookup vt = none ∧ left.Nodup ∧
      (∀ m ∈ left, mem vt m.index = mem₀ vt m.index) ∧
      ∀ m ∉ left, mem vt m.index = .hook m ∧ p.real m = some (mem₀ vt m.index)
  | .hook h c stage => h.index = c.slot ∧ mem c.vtable c.slot = .hook h ∧ stage.Ok mem₀ patches c
  | .real _ | .register _ | .locked _ => True

end Ok

/-- Written slots and entries stay. -/
theorem Frame.Ok.mono {mem₀ mem mem' : ℕ → ℕ → Target} {patches patches' : Table ℕ VTablePatch}
    {f : Frame} (h : f.Ok mem₀ mem patches) (hf : ∀ vt p left, f ≠ .patching vt p left)
    (hmem : ∀ vt i m, mem vt i = .hook m → mem' vt i = .hook m)
    (hpatches : ∀ vt, (patches.lookup vt).isSome → (patches'.lookup vt).isSome) :
    f.Ok mem₀ mem' patches' := by
  cases f with
  | real a => trivial
  | register vt => trivial
  | locked vt => trivial
  | patching vt p left => exact absurd rfl (hf vt p left)
  | hook m c stage =>
    obtain ⟨hindex, hslot, hstage⟩ := h
    refine ⟨hindex, hmem _ _ _ hslot, ?_⟩
    cases stage with
    | found entry => exact ⟨hstage.1, hpatches _ hstage.2⟩
    | _ => exact hstage

/-- **The invariant.** -/
structure Inv {T : Type} (mem₀ : ℕ → ℕ → Target) (w : Process T) : Prop where
  lock : Mutex.Held w.lock fun t => holds (w.stack t) = true
  calls : ∀ t, (w.stack t).IsChain MadeIn
  frames : ∀ t, ∀ f ∈ w.stack t, f.Ok mem₀ w.mem w.patches
  /-- A vtable with an entry is patched, and the entry has the originals. -/
  recorded : ∀ vt p, w.patches.lookup vt = some p →
    ∀ m, w.mem vt m.index = .hook m ∧ p.real m = some (mem₀ vt m.index)
  /-- A vtable without one is as it was, unless it is being patched. -/
  fresh : ∀ vt, w.patches.lookup vt = none → (∀ t p left, .patching vt p left ∉ w.stack t) →
    ∀ m : Method, w.mem vt m.index = mem₀ vt m.index
  others : ∀ vt i, (∀ m : Method, m.index ≠ i) → w.mem vt i = mem₀ vt i
  written : ∀ x ∈ w.written, ∃ m : Method, x.2 = m.index ∧ w.mem x.1 x.2 = .hook m
  once : w.written.Nodup

/-- No hook of the tracker is in a vtable yet. -/
def Clean (mem₀ : ℕ → ℕ → Target) : Prop := ∀ vt i m, mem₀ vt i ≠ .hook m

section Steps

variable {T : Type} [DecidableEq T] {mem₀ : ℕ → ℕ → Target} {w : Process T}

omit [DecidableEq T] in
/-- The thread that patches has the lock, and nobody else patches. -/
theorem Inv.patching_unique (h : Inv mem₀ w) {t t' : T} {vt vt' : ℕ} {p p' : VTablePatch}
    {left left' : List Method} (ht : .patching vt p left ∈ w.stack t)
    (ht' : .patching vt' p' left' ∈ w.stack t') : t' = t :=
  h.lock.unique (holds_of_mem (h.calls t') ht' rfl) (holds_of_mem (h.calls t) ht rfl)

omit [DecidableEq T] in
/-- A slot is as it was, or has the hook of its method; then the vtable has an entry or is
being patched. -/
theorem Inv.slot (h : Inv mem₀ w) (vt i : ℕ) : w.mem vt i = mem₀ vt i ∨
    ∃ m : Method, m.index = i ∧ w.mem vt i = .hook m ∧
      ((w.patches.lookup vt).isSome ∨ ∃ t p left, .patching vt p left ∈ w.stack t) := by
  by_cases hi : ∃ m : Method, m.index = i
  · obtain ⟨m, rfl⟩ := hi
    cases hp : w.patches.lookup vt with
    | some p => exact .inr ⟨m, rfl, (h.recorded vt p hp m).1, .inl rfl⟩
    | none =>
      by_cases hpatching : ∃ t p left, .patching vt p left ∈ w.stack t
      · obtain ⟨t, p, left, ht⟩ := hpatching
        obtain ⟨-, -, hleft, hdone⟩ := h.frames t _ ht
        by_cases hm : m ∈ left
        · exact .inl (hleft m hm)
        · exact .inr ⟨m, rfl, (hdone m hm).1, .inr ⟨t, p, left, ht⟩⟩
      · push Not at hpatching
        exact .inl (h.fresh vt hp hpatching m)
  · push Not at hi
    exact .inl (h.others vt i hi)

omit [DecidableEq T] in
/-- **A hook is in its own slot, and the vtable has an entry or is being patched.** -/
theorem Inv.of_hook (h : Inv mem₀ w) (hclean : Clean mem₀) {vt i : ℕ} {m : Method}
    (hm : w.mem vt i = .hook m) : m.index = i ∧
      ((w.patches.lookup vt).isSome ∨ ∃ t p left, .patching vt p left ∈ w.stack t) := by
  rcases h.slot vt i with horig | ⟨m', hi, hm', hknown⟩
  · exact absurd (horig.symm.trans hm) (hclean vt i m)
  · cases hm'.symm.trans hm
    exact ⟨hi, hknown⟩

/-- A step that only changes what the thread `t` is in, and which does not patch. -/
theorem Inv.of_stack (h : Inv mem₀ w) {t : T} {s : List Frame} {lock : Option T}
    (hlock : Mutex.Held lock fun t' => holds (Function.update w.stack t s t') = true)
    (hcalls : s.IsChain MadeIn) (hframes : ∀ f ∈ s, f.Ok mem₀ w.mem w.patches)
    (hnot : ∀ vt p left, .patching vt p left ∉ w.stack t) :
    Inv mem₀ ((w.setLock lock).setStack t s) := by
  have hstack : ∀ t', ((w.setLock lock).setStack t s).stack t'
      = if t' = t then s else w.stack t' := fun t' => Function.update_apply w.stack t s t'
  refine ⟨hlock, fun t' => ?_, fun t' f hf => ?_, h.recorded, fun vt hnone hno => ?_, h.others,
    h.written, h.once⟩
  · rw [hstack]
    split
    · exact hcalls
    · exact h.calls t'
  · rw [hstack] at hf
    split at hf
    · exact hframes f hf
    · exact h.frames t' f hf
  · refine h.fresh vt hnone fun t' p left hmem => ?_
    by_cases htt : t' = t
    · exact hnot vt p left (htt ▸ hmem)
    · refine hno t' p left ?_
      rw [hstack, if_neg htt]
      exact hmem

/-- A step of a thread that stays out of the sections that `mu_` covers, or in one. -/
theorem held_keep (h : Inv mem₀ w) {t : T} {s : List Frame} (hs : holds s = holds (w.stack t)) :
    Mutex.Held w.lock fun t' => holds (Function.update w.stack t s t') = true := by
  refine h.lock.keep fun t' => ?_
  rw [Function.update_apply]
  split
  · next htt => rw [htt, hs]
  · rfl

theorem held_acquire (h : Inv mem₀ w) (hlock : w.lock = none) {t : T} {s : List Frame}
    (hs : holds s = true) :
    Mutex.Held (some t) fun t' => holds (Function.update w.stack t s t') = true := by
  refine Mutex.Held.acquire (hlock ▸ h.lock) ?_ fun t' hne => ?_
  · rw [Function.update_self]
    exact hs
  · rw [Function.update_of_ne hne]

theorem held_release (h : Inv mem₀ w) {t : T} (ht : holds (w.stack t) = true) {s : List Frame}
    (hs : holds s = false) :
    Mutex.Held none fun t' => holds (Function.update w.stack t s t') = true := by
  have hlock : w.lock = some t := (h.lock t).mpr ht
  refine Mutex.Held.release (t := t) (hlock ▸ h.lock) ?_ fun t' hne => ?_
  · rw [Function.update_self, hs]
    exact Bool.false_ne_true
  · rw [Function.update_of_ne hne]

omit [DecidableEq T] in
theorem Inv.not_patching_of_free (h : Inv mem₀ w) {t : T} (hfree : free (w.stack t) = true) (vt : ℕ)
    (p : VTablePatch) (left : List Method) : .patching vt p left ∉ w.stack t := by
  intro hmem
  have hholds := holds_of_mem (h.calls t) hmem rfl
  rw [holds_of_free hfree] at hholds
  cases hholds

omit [DecidableEq T] in
theorem Inv.not_patching_of_top (h : Inv mem₀ w) {t : T} {g : Frame} {s : List Frame}
    (hs : w.stack t = g :: s) (hg : ∀ vt p left, g ≠ .patching vt p left) (vt : ℕ)
    (p : VTablePatch) (left : List Method) : .patching vt p left ∉ w.stack t := by
  intro hmem
  obtain ⟨s', hs'⟩ := eq_cons_of_holds (h.calls t) hmem rfl
  rw [hs] at hs'
  exact hg vt p left (List.cons.inj hs').1

omit [DecidableEq T] in
/-- What is under the innermost call. -/
theorem Inv.under (h : Inv mem₀ w) {t : T} {g : Frame} {s : List Frame} (hs : w.stack t = g :: s) :
    s.IsChain MadeIn ∧ holds s = false ∧ ∀ f ∈ s, f.Ok mem₀ w.mem w.patches := by
  have hcalls := h.calls t
  rw [hs] at hcalls
  refine ⟨hcalls.tail, ?_, fun f hf => h.frames t f (hs ▸ List.mem_cons_of_mem g hf)⟩
  match s with
  | [] => rfl
  | b :: s =>
    rcases (List.isChain_cons_cons.mp hcalls).1 with ⟨a, rfl⟩ | ⟨m, c, a, rfl, -⟩
    · rfl
    · rfl

/-- The innermost call goes on, in a step that does not patch. -/
theorem Inv.replace (h : Inv mem₀ w) {t : T} {g : Frame} {s : List Frame} (hs : w.stack t = g :: s)
    (hreal : ∀ a, g ≠ .real a) (hg : ∀ vt p left, g ≠ .patching vt p left) {f : Frame}
    (hf : f.Ok mem₀ w.mem w.patches) {lock : Option T}
    (hlock : Mutex.Held lock fun t' => holds (Function.update w.stack t (f :: s) t') = true) :
    Inv mem₀ ((w.setLock lock).setStack t (f :: s)) := by
  obtain ⟨-, -, hunder⟩ := h.under hs
  have hcalls := h.calls t
  rw [hs] at hcalls
  refine h.of_stack hlock (chain_replace hcalls hreal f) (fun f' hf' => ?_)
    (h.not_patching_of_top hs hg)
  rcases List.mem_cons.mp hf' with rfl | hf'
  · exact hf
  · exact hunder f' hf'

/-- The innermost call returns, in a step that does not patch. -/
theorem Inv.pop (h : Inv mem₀ w) {t : T} {g : Frame} {s : List Frame} (hs : w.stack t = g :: s)
    (hg : ∀ vt p left, g ≠ .patching vt p left) {lock : Option T}
    (hlock : Mutex.Held lock fun t' => holds (Function.update w.stack t s t') = true) :
    Inv mem₀ ((w.setLock lock).setStack t s) := by
  obtain ⟨hcalls, -, hunder⟩ := h.under hs
  exact h.of_stack hlock hcalls hunder (h.not_patching_of_top hs hg)

/-- The app or the driver makes a call. -/
theorem Inv.push (h : Inv mem₀ w) {t : T} (hfree : free (w.stack t) = true) {f : Frame}
    (hf : f.Ok mem₀ w.mem w.patches) (hholds : f.holds = false) :
    Inv mem₀ (w.setStack t (f :: w.stack t)) := by
  have hsame : holds (f :: w.stack t) = holds (w.stack t) := by
    rw [holds_of_free hfree]
    exact hholds
  have hlock := held_keep h hsame
  refine h.of_stack hlock (chain_call (h.calls t) hfree f) (fun f' hf' => ?_)
    (h.not_patching_of_free hfree)
  rcases List.mem_cons.mp hf' with rfl | hf'
  · exact hf
  · exact h.frames t f' hf'

omit [DecidableEq T] in
/-- What is under a call that patches does not patch, and neither does another thread. -/
theorem Inv.not_patching_beside (h : Inv mem₀ w) {t : T} {vt : ℕ} {p : VTablePatch}
    {left : List Method} {s : List Frame} (hs : w.stack t = .patching vt p left :: s) :
    (∀ f ∈ s, ∀ vt' p' left', f ≠ .patching vt' p' left') ∧
      ∀ t', t' ≠ t → ∀ vt' p' left', .patching vt' p' left' ∉ w.stack t' := by
  obtain ⟨hcalls, hholds, -⟩ := h.under hs
  constructor
  · rintro f hf vt' p' left' rfl
    have hholds' := holds_of_mem hcalls hf rfl
    rw [hholds] at hholds'
    cases hholds'
  · intro t' hne vt' p' left' hmem
    have ht : .patching vt p left ∈ w.stack t := hs ▸ List.mem_cons_self
    exact hne (h.patching_unique ht hmem)

/-- A step of the thread `t` that patches `vt`: it changes nothing of another vtable. -/
theorem Inv.of_patching (h : Inv mem₀ w) {t : T} {vt : ℕ} {p : VTablePatch} {left : List Method}
    {s : List Frame} (hs : w.stack t = .patching vt p left :: s) {w' : Process T} {s' : List Frame}
    (hstack : w'.stack = Function.update w.stack t s')
    (hlock : Mutex.Held w'.lock fun t' => holds (Function.update w.stack t s' t') = true)
    (hcalls : s'.IsChain MadeIn)
    (hmem : ∀ vt' i, vt' ≠ vt → w'.mem vt' i = w.mem vt' i)
    (hkept : ∀ i m, w.mem vt i = .hook m → w'.mem vt i = .hook m)
    (hothers : ∀ i, (∀ m : Method, m.index ≠ i) → w'.mem vt i = w.mem vt i)
    (hpatches : ∀ vt', vt' ≠ vt → w'.patches.lookup vt' = w.patches.lookup vt')
    (hframes : ∀ f ∈ s', f ∈ s ∨ f.Ok mem₀ w'.mem w'.patches)
    (hrecorded : ∀ q, w'.patches.lookup vt = some q →
      ∀ m : Method, w'.mem vt m.index = .hook m ∧ q.real m = some (mem₀ vt m.index))
    (hfresh : w'.patches.lookup vt = none → ∃ p' left', .patching vt p' left' ∈ s')
    (hwritten : ∀ x ∈ w'.written, x ∈ w.written ∨
      ∃ m : Method, x.2 = m.index ∧ w'.mem x.1 x.2 = .hook m)
    (honce : w'.written.Nodup) : Inv mem₀ w' := by
  obtain ⟨hbeside, hbeside'⟩ := h.not_patching_beside hs
  obtain ⟨-, -, hunder⟩ := h.under hs
  have hnone : w.patches.lookup vt = none :=
    (h.frames t (.patching vt p left) (hs ▸ List.mem_cons_self)).1
  have hkept' : ∀ vt' i m, w.mem vt' i = .hook m → w'.mem vt' i = .hook m := by
    intro vt' i m hm
    by_cases hvt : vt' = vt
    · rw [hvt] at hm ⊢
      exact hkept i m hm
    · rw [hmem vt' i hvt]
      exact hm
  -- the other calls do not patch
  have hmono : ∀ f : Frame, (∀ vt' p' left', f ≠ .patching vt' p' left') →
      f.Ok mem₀ w.mem w.patches → f.Ok mem₀ w'.mem w'.patches := by
    refine fun f hf hok => hok.mono hf hkept' fun vt' hsome => ?_
    by_cases hvt : vt' = vt
    · rw [hvt, hnone] at hsome
      cases hsome
    · rw [hpatches vt' hvt]
      exact hsome
  have hstack' : ∀ t', w'.stack t' = if t' = t then s' else w.stack t' := by
    intro t'
    rw [hstack, Function.update_apply]
  refine ⟨hstack ▸ hlock, fun t' => ?_, fun t' f hf => ?_, fun vt' q hq => ?_,
    fun vt' hnone' hno m => ?_, fun vt' i hi => ?_, fun x hx => ?_, honce⟩
  · rw [hstack']
    split
    · exact hcalls
    · exact h.calls t'
  · rw [hstack'] at hf
    split at hf
    · rcases hframes f hf with hf | hok
      · exact hmono f (hbeside f hf) (hunder f hf)
      · exact hok
    · next hne =>
      refine hmono f ?_ (h.frames t' f hf)
      rintro vt' p' left' rfl
      exact hbeside' t' hne vt' p' left' hf
  · by_cases hvt : vt' = vt
    · rw [hvt] at hq ⊢
      exact hrecorded q hq
    · rw [hpatches vt' hvt] at hq
      intro m
      obtain ⟨hhook, hreal⟩ := h.recorded vt' q hq m
      exact ⟨hkept' _ _ _ hhook, hreal⟩
  · by_cases hvt : vt' = vt
    · rw [hvt] at hnone' hno
      obtain ⟨p', left', hmem'⟩ := hfresh hnone'
      refine absurd ?_ (hno t p' left')
      rw [hstack', if_pos rfl]
      exact hmem'
    · rw [hpatches vt' hvt] at hnone'
      rw [hmem vt' _ hvt]
      refine h.fresh vt' hnone' (fun t' p' left' hmem' => ?_) m
      by_cases htt : t' = t
      · rw [htt, hs] at hmem'
        rcases List.mem_cons.mp hmem' with heq | hmem'
        · cases heq
          exact hvt rfl
        · exact hbeside _ hmem' _ _ _ rfl
      · exact hbeside' t' htt _ _ _ hmem'
  · by_cases hvt : vt' = vt
    · rw [hvt, hothers i hi]
      exact h.others vt i hi
    · rw [hmem vt' i hvt]
      exact h.others vt' i hi
  · rcases hwritten x hx with hx | hx
    · obtain ⟨m, hi, hhook⟩ := h.written x hx
      exact ⟨m, hi, hkept' _ _ _ hhook⟩
    · exact hx

/-- **A slot is written.** -/
theorem inv_patch (hclean : Clean mem₀) (h : Inv mem₀ w) {virtualProtect : ℕ → ℕ → Bool} {t : T}
    {vt : ℕ} {p : VTablePatch} {m : Method} {left : List Method} {s : List Frame}
    (hs : w.stack t = .patching vt p (m :: left) :: s)
    (hwritable : virtualProtect vt m.index = true) :
    Inv mem₀ ((w.patchSlot virtualProtect vt m).2.setStack t
      (.patching vt (p.setReal (w.patchSlot virtualProtect vt m).1 m) left :: s)) := by
  obtain ⟨hnone, hnodup, hleft, hdone⟩ := h.frames t (.patching vt p (m :: left))
    (hs ▸ List.mem_cons_self)
  obtain ⟨hm, hnodup⟩ := List.nodup_cons.mp hnodup
  have hcalls := h.calls t
  rw [hs] at hcalls
  have horig : w.mem vt m.index = mem₀ vt m.index := hleft m List.mem_cons_self
  have hindex : ∀ {m' : Method}, m' ≠ m → m'.index ≠ m.index :=
    fun hne hi => hne (Method.index_injective hi)
  unfold Process.patchSlot
  rw [if_pos hwritable]
  dsimp only
  rw [horig]
  have hself : Function.update w.mem vt (Function.update (w.mem vt) m.index (.hook m)) vt m.index
      = .hook m := by
    rw [Function.update_self, Function.update_self]
  have hother : ∀ i, i ≠ m.index →
      Function.update w.mem vt (Function.update (w.mem vt) m.index (.hook m)) vt i
        = w.mem vt i := by
    intro i hi
    rw [Function.update_self, Function.update_of_ne hi]
  refine h.of_patching hs rfl (held_keep h (by rw [hs]; rfl))
    (chain_replace hcalls (fun a => by simp) _) (fun vt' i hvt => ?_) (fun i m' hhook => ?_)
    (fun i hi => hother i (hi m).symm) (fun _ _ => rfl) (fun f hf => ?_) (fun q hq => ?_)
    (fun _ => ⟨_, left, List.mem_cons_self⟩) (fun x hx => ?_) ?_
  · exact congrFun (Function.update_of_ne hvt _ _) i
  · refine (hother i ?_).trans hhook
    -- the slot that is written had no hook
    rintro rfl
    rw [horig] at hhook
    exact hclean _ _ _ hhook
  · rcases List.mem_cons.mp hf with rfl | hf
    · refine .inr ⟨hnone, hnodup, fun m' hm' => ?_, fun m' hm' => ?_⟩
      · have hne : m' ≠ m := fun heq => hm (heq ▸ hm')
        exact (hother _ (hindex hne)).trans (hleft m' (List.mem_cons_of_mem m hm'))
      · rw [VTablePatch.real_setReal]
        by_cases hmm : m' = m
        · rw [if_pos hmm, hmm]
          exact ⟨hself, rfl⟩
        · obtain ⟨hhook, hreal⟩ := hdone m' fun hmem => (List.mem_cons.mp hmem).elim hmm hm'
          rw [if_neg hmm]
          exact ⟨(hother _ (hindex hmm)).trans hhook, hreal⟩
    · exact .inl hf
  · have hq : w.patches.lookup vt = some q := hq
    rw [hnone] at hq
    cases hq
  · rcases List.mem_append.mp hx with hx | hx
    · exact .inl hx
    · rw [List.mem_singleton.mp hx]
      exact .inr ⟨m, rfl, hself⟩
  · refine List.nodup_append.mpr ⟨h.once, List.nodup_singleton _, ?_⟩
    rintro x hx y hy rfl
    obtain ⟨m', -, hhook⟩ := h.written x hx
    rw [List.mem_singleton.mp hy] at hhook
    exact hclean _ _ _ (horig.symm.trans hhook)

/-- **The entry is made.** -/
theorem inv_record (hclean : Clean mem₀) (h : Inv mem₀ w) {t : T} {vt : ℕ} {p : VTablePatch}
    {s : List Frame} (hs : w.stack t = .patching vt p [] :: s) :
    Inv mem₀ (((w.emplace vt p.unselfref).setLock none).setStack t s) := by
  obtain ⟨hnone, -, -, hdone⟩ := h.frames t (.patching vt p []) (hs ▸ List.mem_cons_self)
  obtain ⟨hcalls, hholds, -⟩ := h.under hs
  have hlock := held_release h (by rw [hs]; rfl) hholds
  unfold Process.emplace
  rw [if_neg (by simp [hnone])]
  refine h.of_patching hs rfl hlock hcalls (fun _ _ _ => rfl) (fun _ _ hhook => hhook)
    (fun _ _ => rfl) (fun vt' hvt => ?_) (fun f hf => .inl hf) (fun q hq m => ?_)
    (fun hnone' => ?_) (fun x hx => .inl hx) h.once
  · exact Finmap.lookup_insert_of_ne w.patches hvt
  · have hq : (w.patches.insert vt p.unselfref).lookup vt = some q := hq
    rw [Finmap.lookup_insert] at hq
    cases hq
    obtain ⟨hhook, hreal⟩ := hdone m List.not_mem_nil
    rw [VTablePatch.real_unselfref, hreal]
    refine ⟨hhook, if_neg fun heq => ?_⟩
    exact hclean vt m.index m (Option.some.inj heq)
  · have hnone' : (w.patches.insert vt p.unselfref).lookup vt = none := hnone'
    rw [Finmap.lookup_insert] at hnone'
    cases hnone'

omit [DecidableEq T] in
/-- Under the lock, a thread that does not patch knows that nobody does. -/
theorem Inv.no_patching (h : Inv mem₀ w) {t : T} {g : Frame} {s : List Frame}
    (hs : w.stack t = g :: s) (hholds : g.holds = true)
    (hg : ∀ vt p left, g ≠ .patching vt p left) (t' : T) (vt : ℕ) (p : VTablePatch)
    (left : List Method) : .patching vt p left ∉ w.stack t' := by
  intro hmem
  have ht : holds (w.stack t) = true := by
    rw [hs]
    exact hholds
  have htt : t' = t := h.lock.unique (holds_of_mem (h.calls t') hmem rfl) ht
  exact h.not_patching_of_top hs hg vt p left (htt ▸ hmem)

omit [DecidableEq T] in
/-- **A hook that has the lock finds the entry of its vtable.** -/
theorem Inv.entry_of_looking (hclean : Clean mem₀) (h : Inv mem₀ w) {t : T} {m : Method}
    {c : MethodCall} (hmem : .hook m c .looking ∈ w.stack t) :
    (w.patches.lookup c.vtable).isSome := by
  obtain ⟨s, hs⟩ := eq_cons_of_holds (h.calls t) hmem rfl
  obtain ⟨-, hslot, -⟩ := h.frames t _ hmem
  rcases (h.of_hook hclean hslot).2 with hsome | ⟨t', p, left, hpatching⟩
  · exact hsome
  · exact absurd hpatching (h.no_patching hs rfl (fun _ _ _ => by simp) t' _ p left)

omit [DecidableEq T] in
/-- What a called function knows. -/
theorem ok_enter (hclean : Clean mem₀) (h : Inv mem₀ w) (c : MethodCall) :
    (enter (w.mem c.vtable c.slot) c).Ok mem₀ w.mem w.patches ∧
      (enter (w.mem c.vtable c.slot) c).holds = false := by
  cases hf : w.mem c.vtable c.slot with
  | real a => exact ⟨trivial, rfl⟩
  | hook m => exact ⟨⟨(h.of_hook hclean hf).1, hf, trivial⟩, rfl⟩

/-- A hook calls the original. -/
theorem inv_forward (hclean : Clean mem₀) (h : Inv mem₀ w) {t : T} {m : Method} {c : MethodCall}
    {f : Target} {s : List Frame} (hs : w.stack t = .hook m c (.resolved (some f)) :: s) :
    Inv mem₀ (w.setStack t (enter f c :: .hook m c (.forwarding f) :: s)) := by
  obtain ⟨hindex, hslot, hreal⟩ := h.frames t (.hook m c (.resolved (some f)))
    (hs ▸ List.mem_cons_self)
  obtain ⟨-, -, hunder⟩ := h.under hs
  have hf : f = mem₀ c.vtable c.slot := Option.some.inj hreal
  have hcalls := h.calls t
  rw [hs] at hcalls
  have hcalls := chain_replace hcalls (fun a => by simp) (.hook m c (.forwarding f))
  cases f with
  | hook m' => exact absurd hf.symm (hclean _ _ m')
  | real a =>
    refine h.of_stack (held_keep h (by rw [hs]; rfl))
      (List.isChain_cons_cons.mpr ⟨.inr ⟨m, c, a, rfl, rfl⟩, hcalls⟩) (fun f' hf' => ?_)
      (h.not_patching_of_top hs fun _ _ _ => by simp)
    rcases List.mem_cons.mp hf' with rfl | hf'
    · trivial
    · rcases List.mem_cons.mp hf' with rfl | hf'
      · exact ⟨hindex, hslot, hf⟩
      · exact hunder f' hf'

/-- **Every step keeps the invariant.** -/
theorem inv_step {virtualProtect : ℕ → ℕ → Bool}
    (hwritable : ∀ vt (m : Method), virtualProtect vt m.index = true) (hclean : Clean mem₀)
    (h : Inv mem₀ w) (a : Action T) : Inv mem₀ (w.step virtualProtect a) := by
  have hmove := w.step_move virtualProtect a
  generalize w.step virtualProtect a = w' at hmove
  cases hmove with
  | stay => exact h
  | call t c hfree =>
    obtain ⟨hok, hholds⟩ := ok_enter hclean h c
    exact h.push hfree hok hholds
  | register t vt hfree => exact h.push hfree trivial rfl
  | lockPatch t vt s hs hlock =>
    refine h.replace hs (fun _ => by simp) (fun _ _ _ => by simp) ?_ (held_acquire h hlock rfl)
    trivial
  | lockLookup t m c s hs hlock =>
    obtain ⟨hindex, hslot, -⟩ := h.frames t (.hook m c .entered) (hs ▸ List.mem_cons_self)
    refine h.replace hs (fun _ => by simp) (fun _ _ _ => by simp) ?_ (held_acquire h hlock rfl)
    exact ⟨hindex, hslot, trivial⟩
  | known t vt s hs =>
    exact h.pop hs (fun _ _ _ => by simp) (held_release h (by rw [hs]; rfl) (h.under hs).2.1)
  | unknown t vt s hs hnone =>
    -- the vtable is as it was: nobody else is patching it
    have hfresh := h.fresh vt hnone fun t' p left =>
      h.no_patching hs rfl (fun _ _ _ => by simp) t' vt p left
    refine h.replace hs (fun _ => by simp) (fun _ _ _ => by simp) ?_
      (held_keep h (by rw [hs]; rfl))
    exact ⟨hnone, Method.nodup_all, fun m _ => hfresh m, fun m hm => absurd m.mem_all hm⟩
  | lookup t m c s hs =>
    have hmem : .hook m c .looking ∈ w.stack t := hs ▸ List.mem_cons_self
    obtain ⟨hindex, hslot, -⟩ := h.frames t _ hmem
    have hsome := h.entry_of_looking hclean hmem
    rw [if_pos hsome]
    refine h.replace hs (fun _ => by simp) (fun _ _ _ => by simp) ?_
      (held_release h (by rw [hs]; rfl) rfl)
    exact ⟨hindex, hslot, rfl, hsome⟩
  | patch t vt p m left s hs => exact inv_patch hclean h hs (hwritable vt m)
  | record t vt p s hs => exact inv_record hclean h hs
  | read t m c entry s hs =>
    obtain ⟨hindex, hslot, rfl, hsome⟩ := h.frames t (.hook m c (.found entry))
      (hs ▸ List.mem_cons_self)
    obtain ⟨p, hp⟩ := Option.isSome_iff_exists.mp hsome
    have hreal := (h.recorded c.vtable p hp m).2
    rw [hindex] at hreal
    refine h.replace hs (fun _ => by simp) (fun _ _ _ => by simp) ?_
      (held_keep h (by rw [hs]; rfl))
    refine ⟨hindex, hslot, ?_⟩
    rw [Option.bind_some, hp]
    exact hreal
  | skip t m c s hs =>
    obtain ⟨-, -, hreal⟩ := h.frames t (.hook m c (.resolved none)) (hs ▸ List.mem_cons_self)
    cases hreal
  | forward t m c f s hs => exact inv_forward hclean h hs
  | retReal t a s hs =>
    exact h.pop hs (fun _ _ _ => by simp) (held_keep h (by rw [hs]; exact (h.under hs).2.1))
  | retHook t m c f s hs =>
    exact h.pop hs (fun _ _ _ => by simp) (held_keep h (by rw [hs]; exact (h.under hs).2.1))

omit [DecidableEq T] in
theorem inv_start (mem₀ : ℕ → ℕ → Target) : Inv mem₀ ({ mem := mem₀ } : Process T) where
  lock := fun t => by simp [holds]
  calls := fun t => List.isChain_nil
  frames := fun t f hf => by cases hf
  recorded := fun vt p hp => by cases hp
  fresh := fun _ _ _ _ => rfl
  others := fun _ _ _ => rfl
  written := fun x hx => by cases hx
  once := List.nodup_nil

theorem inv_run {virtualProtect : ℕ → ℕ → Bool}
    (hwritable : ∀ vt (m : Method), virtualProtect vt m.index = true) (hclean : Clean mem₀)
    (xs : List (Action T)) : Inv mem₀ (Process.run virtualProtect mem₀ xs) := by
  refine Machine.run_induction (Process.step virtualProtect) { mem := mem₀ } (fun _ => True)
    (fun _ w => Inv mem₀ w) (fun _ _ _ => trivial) (inv_start mem₀) ?_ xs trivial
  exact fun _ x _ h => inv_step hwritable hclean h x

end Steps

/-! ### What follows -/

/-- **The hooks are safe**, in a process whose vtables were `mem₀`. -/
structure Safe {T : Type} (mem₀ : ℕ → ℕ → Target) (w : Process T) : Prop where
  /-- No slot of a vtable is written twice. -/
  once : w.written.Nodup
  /-- Only the hook of its own method gets into a slot. -/
  own : ∀ vt i, w.mem vt i = mem₀ vt i ∨ ∃ m : Method, m.index = i ∧ w.mem vt i = .hook m
  /-- A hook is the one of the slot that was called. -/
  slot : ∀ t h c stage, .hook h c stage ∈ w.stack t → h.index = c.slot
  /-- When a hook looks the vtable up, the entry is there, -/
  looking : ∀ t h c, .hook h c .looking ∈ w.stack t → (w.patches.lookup c.vtable).isSome
  /-- and is found, -/
  found : ∀ t h c entry, .hook h c (.found entry) ∈ w.stack t → entry = some c.vtable
  /-- with the function that was in the slot at first: the hook does not skip it. -/
  resolved : ∀ t h c real, .hook h c (.resolved real) ∈ w.stack t →
    ∃ a, mem₀ c.vtable c.slot = .real a ∧ real = some (.real a)
  forwarding : ∀ t h c f, .hook h c (.forwarding f) ∈ w.stack t →
    ∃ a, mem₀ c.vtable c.slot = .real a ∧ f = .real a
  /-- What a hook calls is that function, and no hook. -/
  calls : ∀ t us f h c g vs, w.stack t = us ++ f :: .hook h c (.forwarding g) :: vs →
    ∃ a, mem₀ c.vtable c.slot = .real a ∧ f = .real a

/-- **Every state is safe**, whatever the threads do, if the slots can be written and
only the tracker writes its hooks. -/
theorem safe_run {T : Type} [DecidableEq T] (virtualProtect : ℕ → ℕ → Bool)
    (mem₀ : ℕ → ℕ → Target) (hwritable : ∀ vt (m : Method), virtualProtect vt m.index = true)
    (hclean : Clean mem₀) (xs : List (Action T)) :
    Safe mem₀ (Process.run virtualProtect mem₀ xs) := by
  have h : Inv mem₀ (Process.run virtualProtect mem₀ xs) := inv_run hwritable hclean xs
  have horig : ∀ c : MethodCall, ∃ a, mem₀ c.vtable c.slot = .real a := by
    intro c
    cases hf : mem₀ c.vtable c.slot with
    | real a => exact ⟨a, rfl⟩
    | hook m => exact absurd hf (hclean _ _ m)
  refine ⟨h.once, fun vt i => ?_, fun t m c stage hmem => (h.frames t _ hmem).1,
    fun t m c hmem => h.entry_of_looking hclean hmem,
    fun t m c entry hmem => (h.frames t _ hmem).2.2.1, fun t m c real hmem => ?_,
    fun t m c f hmem => ?_, fun t us f m c g vs hs => ?_⟩
  · rcases h.slot vt i with hsame | ⟨m, hi, hm, -⟩
    · exact .inl hsame
    · exact .inr ⟨m, hi, hm⟩
  · obtain ⟨a, ha⟩ := horig c
    exact ⟨a, ha, (h.frames t _ hmem).2.2.trans (congrArg some ha)⟩
  · obtain ⟨a, ha⟩ := horig c
    exact ⟨a, ha, (h.frames t _ hmem).2.2.trans ha⟩
  · have hmem : .hook m c (.forwarding g) ∈ (Process.run virtualProtect mem₀ xs).stack t := by
      rw [hs]
      simp
    have hg : g = mem₀ c.vtable c.slot := (h.frames t _ hmem).2.2
    have hcalls := h.calls t
    rw [hs] at hcalls
    rcases (List.isChain_cons_cons.mp hcalls.right_of_append).1 with ⟨a, ha⟩ | ⟨m', c', a, ha, hf⟩
    · cases ha
    · cases ha
      exact ⟨a, hg.symm, hf⟩

/-- One thread registers an object of the vtable 100.  As soon as the first slot is written,
another one releases such an object, and has to wait for the entry. -/
def racingRun : List (Action Bool) :=
  [.register false (some 100), .acquire false, .find false, .patch false, .call true ⟨100, 2⟩,
    .acquire true, .patch false, .patch false, .record false, .acquire true, .find true,
    .read true, .forward true]

/-- The hook calls the function that was in the slot. -/
theorem safe_run_racingRun :
    let w := Process.run (fun _ _ => true) (fun vt i => .real (vt + i)) racingRun
    Safe (fun vt i => .real (vt + i)) w ∧
      w.stack true = [.real 102, .hook .release ⟨100, 2⟩ (.forwarding (.real 102))] := by
  refine ⟨safe_run _ _ (fun _ _ => rfl) (fun vt i m => ?_) racingRun, by decide⟩
  simp

end ObjectHooks

end Dx12Track
