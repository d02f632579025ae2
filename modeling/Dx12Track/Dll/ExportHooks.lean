import Dx12Track.MinHook.Intercept

/-!
# The hooks on the exports

`InstallExportHooks` and `RemoveAllHooks` of `src/dll/Hooks.cpp`, on top of the hooking library.
Either may be called again, and each of its calls of the library may fail.

* `MinHook.enableHook_keys`, `MinHook.createHook_cases` — what a call leaves in the table of hooks.
* `Exports`, `State`, `installExportHooks`, `removeAllHooks` — the functions.
* `State.Hooked`, `State.AsBefore` — an export that leads to its hook, and one that is as it was.
* `Inv` — **the invariant**: the table has hooks of the exports only, and `g_real_*` are their
  trampolines.
* `exports_run` — **what the functions do to the process, in every run**.
-/

namespace Dx12Track

/-! ### The table after a call -/

namespace MinHook

/-- Which function a hook is for, and its trampoline. -/
def HookEntry.key (h : HookEntry) : ℕ × ℕ := (h.pTarget, h.pTrampoline)

section

variable {si : SystemInfo} {os : HookOs si} {e : Engine}

theorem switch_keys {pos : ℕ} {hook : HookEntry} (hget : e.hooks[pos]? = some hook)
    (enable : Bool) :
    (switch e pos hook enable).hooks.map HookEntry.key = e.hooks.map HookEntry.key :=
  map_set_of_eq hget HookEntry.key rfl

theorem enableHookLL_keys {pos : ℕ} {hook : HookEntry} (hget : e.hooks[pos]? = some hook)
    (enable : Bool) :
    (enableHookLL os e pos hook enable).2.hooks.map HookEntry.key =
      e.hooks.map HookEntry.key := by
  rcases enableHookLL_cases os e pos hook enable with heq | heq
  · rw [heq]
  · rw [heq]
    exact switch_keys hget enable

theorem switchLoop_keys (action : Action) (left pos : ℕ) (e : Engine) :
    (switchLoop os action left pos e).2.hooks.map HookEntry.key = e.hooks.map HookEntry.key := by
  induction left generalizing pos e with
  | zero => rfl
  | succ left ih =>
    cases hget : e.hooks[pos]? with
    | none => rw [switchLoop_none os action _ hget]
    | some hook =>
      rcases switchLoop_cases os action left hget with ⟨-, heq⟩ | heq | heq
      · rw [heq, ih]
      · rw [heq]
      · rw [heq, ih, switch_keys hget]

theorem switchAll_keys (action : Action) :
    (switchAll os action e).2.hooks.map HookEntry.key = e.hooks.map HookEntry.key := by
  unfold switchAll
  split
  · rfl
  · split
    · rfl
    · next e' hfreeze => rw [switchLoop_keys, freeze_hooks hfreeze]

/-- **Hooks that are switched stay what they are.** -/
theorem enableHook_keys (os : HookOs si) (pTarget : ℕ) (enable : Bool) :
    (enableHook os e pTarget enable).2.hooks.map HookEntry.key = e.hooks.map HookEntry.key := by
  unfold enableHook
  split
  · rfl
  split
  · exact switchAll_keys _
  split
  · rfl
  split
  · rfl
  next hook hget =>
  split
  · split <;> rfl
  split
  · rfl
  · next e' hfreeze =>
    have hhooks := freeze_hooks hfreeze
    rw [enableHookLL_keys (hhooks ▸ hget), hhooks]

theorem init_hooks (os : HookOs si) (e : Engine) : ( mhInitialize os e).2.hooks = e.hooks := by
  unfold mhInitialize
  split
  · rfl
  · split <;> rfl

theorem uninit_keys (os : HookOs si) (e : Engine) :
    ( mhUninitialize os e).2.hooks = [] ∨
      ( mhUninitialize os e).2.hooks.map HookEntry.key = e.hooks.map HookEntry.key := by
  have hkeys : (enableAllHooksLL os false e).2.hooks.map HookEntry.key =
      e.hooks.map HookEntry.key := switchAll_keys _
  unfold mhUninitialize
  split
  · exact Or.inr rfl
  · split
    · exact Or.inl rfl
    · next heq =>
      rw [heq] at hkeys
      exact Or.inr hkeys

theorem addHookEntry_hooks {done : Bool} {e' : Engine} (hadd : addHookEntry os e = (done, e')) :
    e'.hooks = e.hooks := by
  have heq : (addHookEntry os e).2.hooks = e.hooks := by
    unfold addHookEntry
    split
    · split <;> rfl
    · split
      · split <;> rfl
      · rfl
  rwa [hadd] at heq

/-- **A hook that is created** is the last of the table, for a function that had none; a call that
fails leaves the table as it was. -/
theorem createHook_cases (os : HookOs si) (e : Engine) (d : Disassembler) (pTarget pDetour : ℕ) :
    let r := mhCreateHook os d e pTarget pDetour
    (r.1 ≠ .ok ∧ r.2.hooks = e.hooks) ∨
      (r.1 = .ok ∧ pTarget ∉ e.hooks.map HookEntry.pTarget ∧
        ∃ hook, r.2.hooks = e.hooks ++ [hook] ∧ hook.pTarget = pTarget) := by
  intro r
  simp only [r]
  unfold mhCreateHook
  split
  · exact Or.inl ⟨(fun h => by cases h), rfl⟩
  split
  · exact Or.inl ⟨(fun h => by cases h), rfl⟩
  split
  · exact Or.inl ⟨(fun h => by cases h), rfl⟩
  next hfind =>
  split
  · exact Or.inl ⟨(fun h => by cases h), rfl⟩
  next pBuffer buffers _ =>
  have hspec := (createTrampolineFunction_spec d os.isExecutableAddress buffers.mem pTarget pDetour
    pBuffer).2
  split
  · exact Or.inl ⟨(fun h => by cases h), rfl⟩
  next ct heq =>
  split
  · next e' hadd =>
    refine Or.inl ⟨(fun h => by cases h), ?_⟩
    show e'.hooks = _
    rw [addHookEntry_hooks hadd]
  · next e' hadd =>
    refine Or.inr ⟨rfl, fun hmem => ?_, newEntry e'.mem ct, ?_, ?_⟩
    · obtain ⟨x, hx, hsame⟩ := List.mem_map.mp hmem
      have hnone := List.findIdx?_eq_none_iff.mp hfind x hx
      simp [hsame] at hnone
    · show e'.hooks ++ _ = _
      rw [addHookEntry_hooks hadd]
    · rw [heq] at hspec
      exact (hspec ct rfl).1

/-- **A hook that is enabled** without a failure is so, and those that were before are so still. -/
theorem enableHook_enabled (os : HookOs si) (e : Engine) {pTarget : ℕ} (hne : pTarget ≠ 0) :
    ((enableHook os e pTarget true).1 = .ok →
      ∃ hook ∈ (enableHook os e pTarget true).2.hooks,
        hook.pTarget = pTarget ∧ hook.isEnabled = true) ∧
    ∀ hook ∈ e.hooks, hook.isEnabled = true →
      ∃ hook' ∈ (enableHook os e pTarget true).2.hooks,
        hook'.pTarget = hook.pTarget ∧ hook'.isEnabled = true := by
  have hkept : ∀ hook ∈ e.hooks, hook.isEnabled = true →
      ∃ hook' ∈ e.hooks, hook'.pTarget = hook.pTarget ∧ hook'.isEnabled = true :=
    fun hook hmem hen => ⟨hook, hmem, rfl, hen⟩
  unfold enableHook
  split
  · exact ⟨(fun h => by cases h), hkept⟩
  split
  · exact ⟨(fun h => by cases h), hkept⟩
  next pos hfind =>
  split
  · exact ⟨(fun h => by cases h), hkept⟩
  next hook hget =>
  split
  · exact ⟨(fun h => by cases h), hkept⟩
  split
  · exact ⟨(fun h => by cases h), hkept⟩
  next e' hfreeze =>
  have hhooks := freeze_hooks hfreeze
  rcases enableHookLL_cases os e' pos hook true with heq | heq
  · rw [heq]
    exact ⟨(fun h => by cases h), by rw [hhooks]; exact hkept⟩
  · obtain ⟨hlt, hat, -⟩ := List.findIdx?_eq_some_iff_getElem.mp hfind
    have htarget : hook.pTarget = pTarget := by
      rw [(List.getElem?_eq_some_iff.mp hget).2] at hat
      simpa using hat
    have hset : (switch e' pos hook true).hooks =
        e.hooks.set pos { hook with isEnabled := true, queueEnable := true } := by
      rw [← hhooks]
      rfl
    rw [heq, hset]
    refine ⟨fun _ => ⟨_, List.mem_set hlt _, htarget, rfl⟩, fun x hx hen => ?_⟩
    obtain ⟨i, hi⟩ := List.getElem?_of_mem hx
    by_cases hpos : pos = i
    · subst hpos
      rw [hget] at hi
      cases hi
      exact ⟨_, List.mem_set hlt _, rfl, rfl⟩
    · refine ⟨x, List.mem_of_getElem? (i := i) ?_, rfl, hen⟩
      rw [List.getElem?_set_ne hpos]
      exact hi

/-- A system that refuses nothing that switches hooks. -/
structure HookOs.Permits (os : HookOs si) : Prop where
  enumerates : os.enumerateThreads = true
  protects : ∀ a, os.virtualProtect a = true

theorem switchLoop_permits (hos : os.Permits) (action : Action) (left pos : ℕ) (e : Engine) :
    (switchLoop os action left pos e).1 = .ok := by
  induction left generalizing pos e with
  | zero => rfl
  | succ left ih =>
    cases hget : e.hooks[pos]? with
    | none => rw [switchLoop_none os action _ hget]
    | some hook =>
      have hlow : enableHookLL os e pos hook (action.wants hook) =
          (.ok, switch e pos hook (action.wants hook)) := by
        rw [enableHookLL, hos.protects, if_neg Bool.true_eq_false.mp]
      rw [switchLoop, hget]
      show (if _ then _ else _ : Status × Engine).1 = _
      split
      · exact ih _ _
      · rw [hlow]
        exact ih _ _

/-- **The table is empty** after `MH_Uninitialize`, where nothing is refused. -/
theorem uninit_permits (hos : os.Permits) (hidle : e.initialized = false → e.hooks = []) :
    ( mhUninitialize os e).2.hooks = [] := by
  have hok : (enableAllHooksLL os false e).1 = .ok := by
    show (switchAll os .disable e).1 = .ok
    unfold switchAll
    split
    · rfl
    · rw [freeze, if_pos hos.enumerates]
      exact switchLoop_permits hos _ _ _ _
  unfold mhUninitialize
  split
  · next hinit => exact hidle hinit
  · split
    · rfl
    · next hne heq =>
      rw [heq] at hok
      exact absurd hok hne

end

end MinHook

/-! ### The functions -/

/-- The functions of `d3d12.dll` that are hooked. -/
inductive Export
  | createDevice | getInterface
  deriving DecidableEq

namespace ExportHooks

open MinHook Jumps

/-- Where the exports are, and the functions that are called in their place. -/
structure Exports where
  address : Export → ℕ
  hook : Export → ℕ
  distinct : address .createDevice ≠ address .getInterface

theorem Exports.address_inj (X : Exports) {x y : Export} (h : X.address x = X.address y) :
    x = y := by
  cases x <;> cases y
  · rfl
  · exact absurd h X.distinct
  · exact absurd h.symm X.distinct
  · rfl

/-- The globals of `Hooks.cpp`, and the hooking library. -/
structure State where
  hooking : Hooking
  /-- `g_hooks_installed`. -/
  installed : Bool := false
  /-- `g_real_D3D12CreateDevice` and `g_real_D3D12GetInterface`. -/
  real : Export → ℕ := fun _ => 0

/-- What the system answers while hooks are installed: whether there is a `d3d12.dll` with its
exports, and in each call of the library. -/
structure InstallOs (si : SystemInfo) where
  loadLibrary : Bool
  getProcAddress : Export → Bool
  during : Call → HookOs si

namespace State

def engine (w : State) : Engine := w.hooking.engine

def mem (w : State) : Memory := w.engine.mem

section

variable {si : SystemInfo} (X : Exports) (d : Disassembler)

/-- A call of the library. -/
def call (os : HookOs si) (w : State) (c : Call) : Status × State :=
  ((w.engine.call d os c).1, { w with hooking := w.hooking.step d (os, c) })

/-- `MH_CreateHook` for an export, with what it stores in `g_real_*`. -/
def create (during : Call → HookOs si) (w : State) (x : Export) : Status × State :=
  let c : Call := .createHook (X.address x) (X.hook x)
  let r := w.call d (during c) c
  if r.1 = .ok then
    let trampoline := (r.2.engine.hooks.getLast?.map HookEntry.pTrampoline).getD 0
    (.ok, { r.2 with real := Function.update w.real x trampoline })
  else r

/-- `MH_CreateHook` and `MH_EnableHook` for an export. -/
def hookExport (during : Call → HookOs si) (w : State) (x : Export) : Bool × State :=
  let r := w.create X d during x
  if r.1 ≠ .ok then (false, r.2)
  else
    let c : Call := .enableHook (X.address x) true
    let r := r.2.call d (during c) c
    (r.1 == .ok, r.2)

/-- `InstallExportHooks`. -/
def installExportHooks (os : InstallOs si) (w : State) : Bool × State :=
  if w.installed then (true, w)
  else
    let r := ({ w with installed := true } : State).call d (os.during .init) .init
    if r.1 ≠ .ok then (false, r.2)
    else if os.loadLibrary = false ∨ os.getProcAddress .createDevice = false then (false, r.2)
    else
      let r := r.2.hookExport X d os.during .createDevice
      if r.1 = false then (false, r.2)
      -- an older `d3d12.dll` has no `D3D12GetInterface`; a failure here is only reported
      else if os.getProcAddress .getInterface = false then (true, r.2)
      else (true, (r.2.hookExport X d os.during .getInterface).2)

/-- `RemoveAllHooks`. -/
def removeAllHooks (during : Call → HookOs si) (w : State) : State :=
  if w.installed = false then w
  else
    let c : Call := .enableHook 0 false
    let w := (({ w with installed := false } : State).call d (during c) c).2
    (w.call d (during .uninit) .uninit).2

end

end State

/-- What happens in the process. -/
inductive Act (si : SystemInfo)
  | install (os : InstallOs si)
  | remove (during : Call → HookOs si)
  /-- The other threads run on. -/
  | threads (ips : List ℕ)

section

variable {si : SystemInfo}

def State.step (X : Exports) (d : Disassembler) (w : State) : Act si → State
  | .install os => (w.installExportHooks X d os).2
  | .remove during => w.removeAllHooks d during
  | .threads ips =>
    { w with hooking := { w.hooking with engine := { w.engine with threads := ips } } }

/-- A run of the process on the memory `m₀`. -/
def State.run (X : Exports) (d : Disassembler) (m₀ : Memory) (xs : List (Act si)) : State :=
  Machine.run (State.step X d) { hooking := { engine := { buffers := { mem := m₀ } } } } xs

end

/-! ### The invariant -/

/-- An export leads to its hook; the original is reached through the trampoline that was made for
it, near it and in a page that is held. -/
structure State.Hooked (X : Exports) (w : State) (x : Export) : Prop where
  leads : w.mem.Jumps (X.address x) (X.hook x)
  own : ∃ hook ∈ w.engine.hooks, hook.pTarget = X.address x ∧ hook.isEnabled = true ∧
    hook.pTrampoline = w.real x
  near : Near (X.address x) (w.real x)
  page : ∃ b ∈ w.engine.buffers.pages,
    b + memorySlotSize ≤ w.real x ∧ w.real x + memorySlotSize ≤ b + memoryBlockSize

/-- The code of an export, and that above it, is as it was. -/
def State.AsBefore (X : Exports) (m₀ : Memory) (w : State) (x : Export) : Prop :=
  ∀ i, InArea (X.address x) i → w.mem i = m₀ i

/-- The export has a hook that is enabled. -/
def State.Enabled (X : Exports) (w : State) (x : Export) : Prop :=
  ∃ hook ∈ w.engine.hooks, hook.pTarget = X.address x ∧ hook.isEnabled = true

/-- **The invariant.** -/
structure Inv (X : Exports) (P : Place) (m₀ : Memory) (w : State) : Prop where
  engine : MinHook.Inv P m₀ w.hooking.asked [] w.engine
  known : ∀ k ∈ w.engine.hooks.map HookEntry.key, ∃ x,
    k = (X.address x, w.real x) ∧ w.hooking.asked (X.address x) = X.hook x

/-- The pages that are granted are in their place. -/
def Grants {si : SystemInfo} (P : Place) (during : Call → HookOs si) : Prop :=
  ∀ c b, (during c).virtualAlloc b = true → P.pages b

section

variable {si : SystemInfo} {X : Exports} {P : Place} {m₀ : Memory} {w : State} {d : Disassembler}
  {during : Call → HookOs si}

/-- **A hook that is enabled is that of an export.** -/
theorem Inv.hooked (h : Inv X P m₀ w) {x : Export} (hx : w.Enabled X x) : w.Hooked X x := by
  obtain ⟨hook, hmem, htarget, hen⟩ := hx
  obtain ⟨y, hkey, hasked⟩ := h.known _ (List.mem_map_of_mem hmem)
  obtain ⟨hy, hreal⟩ := Prod.mk.inj hkey
  obtain rfl : x = y := X.address_inj (htarget.symm.trans hy)
  have hjumps := h.engine.jumps hmem hen
  obtain ⟨b, hb, hle, hlt, -⟩ := h.engine.pool.slot (List.mem_map_of_mem hmem)
  have hnear := (h.engine.sound hook hmem).near
  rw [hreal] at hle hlt hnear
  rw [htarget] at hjumps hnear
  exact ⟨hasked ▸ hjumps, ⟨hook, hmem, htarget, hen, hreal⟩, hnear, b, hb, hle, hlt⟩

/-- **An export that has no such hook is as it was.** -/
theorem Inv.asBefore (h : Inv X P m₀ w) (htargets : ∀ x, P.targets (X.address x)) {x : Export}
    (hx : ¬w.Enabled X x) : w.AsBefore X m₀ x := by
  intro i hi
  have hpages : ∀ b, P.pages b → ¬InPage b i := fun b hb => P.not_inPage (htargets x) hi hb
  refine h.engine.code i hpages fun hook hmem hen hin => hx ?_
  have harea := (h.engine.sound hook hmem).inArea hin
  exact ⟨hook, hmem, P.eq_of_inArea (h.engine.targets hook hmem) (htargets x) harea hi, hen⟩

theorem Inv.elsewhere (h : Inv X P m₀ w) {i : ℕ} (hi : ∀ b, P.pages b → ¬InPage b i)
    (hout : ∀ x, ¬InArea (X.address x) i) : w.mem i = m₀ i := by
  refine h.engine.code i hi fun hook hmem _ hin => ?_
  obtain ⟨x, hkey, -⟩ := h.known _ (List.mem_map_of_mem hmem)
  have htarget : hook.pTarget = X.address x := congrArg Prod.fst hkey
  exact hout x (htarget ▸ (h.engine.sound hook hmem).inArea hin)

/-- **A call that creates no hook.** -/
theorem Inv.call (h : Inv X P m₀ w) (hgrants : Grants P during) {c : Call}
    (hc : ∀ t t', c ≠ .createHook t t')
    (hkeys : ∀ k ∈ (w.engine.call d (during c) c).2.hooks.map HookEntry.key,
      k ∈ w.engine.hooks.map HookEntry.key) :
    Inv X P m₀ (w.call d (during c) c).2 := by
  have hasked : ∀ status, askedAfter w.hooking.asked c status = w.hooking.asked := by
    intro status
    cases c with
    | createHook t t' => exact absurd rfl (hc t t')
    | _ => rfl
  refine ⟨inv_call h.engine d c ⟨hgrants c, fun t t' heq => absurd heq (hc t t')⟩, fun k hk => ?_⟩
  obtain ⟨x, hkey, hx⟩ := h.known k (hkeys k hk)
  refine ⟨x, hkey, ?_⟩
  show askedAfter w.hooking.asked c _ (X.address x) = X.hook x
  rw [hasked]
  exact hx

theorem askedAfter_create {asked : ℕ → ℕ} {pTarget pDetour : ℕ} {status : Status}
    (h : status ≠ .ok) : askedAfter asked (.createHook pTarget pDetour) status = asked := by
  cases status with
  | ok => exact absurd rfl h
  | _ => rfl

/-- **An export gets a hook**, or nothing happens to the table. -/
theorem Inv.create (h : Inv X P m₀ w) (hgrants : Grants P during)
    (htargets : ∀ x, P.targets (X.address x)) (x : Export) :
    let r := w.create X d during x
    Inv X P m₀ r.2 ∧ (∀ hook ∈ w.engine.hooks, hook ∈ r.2.engine.hooks) ∧
      (r.1 = .ok → X.address x ∈ r.2.engine.hooks.map HookEntry.pTarget) := by
  have hallows : P.Allows (during (.createHook (X.address x) (X.hook x)))
      (.createHook (X.address x) (X.hook x)) := by
    refine ⟨hgrants _, fun t t' heq => ?_⟩
    cases heq
    exact htargets x
  have hinv := inv_createHook h.engine d hallows
  have hcases := createHook_cases (during (.createHook (X.address x) (X.hook x))) w.engine d
    (X.address x) (X.hook x)
  intro r
  simp only [r, State.create]
  generalize hr : mhCreateHook (during (.createHook (X.address x) (X.hook x))) d w.engine
    (X.address x) (X.hook x) = res at hinv hcases
  have hcall : w.call d (during (.createHook (X.address x) (X.hook x)))
      (.createHook (X.address x) (X.hook x)) =
      (res.1, { w with hooking :=
        ⟨res.2, askedAfter w.hooking.asked (.createHook (X.address x) (X.hook x)) res.1⟩ }) := by
    rw [← hr]
    rfl
  rw [hcall]
  rcases hcases with ⟨hne, hhooks⟩ | ⟨hok, hnew, hook, hhooks, htarget⟩
  · rw [if_neg hne]
    rw [askedAfter_create hne] at hinv ⊢
    exact ⟨⟨hinv, fun k hk => h.known k (hhooks ▸ hk)⟩, fun y hy => hhooks.symm ▸ hy,
      fun hok => absurd hok hne⟩
  · rw [if_pos hok]
    rw [hok] at hinv ⊢
    have hlast : (res.2.hooks.getLast?.map HookEntry.pTrampoline).getD 0 = hook.pTrampoline := by
      rw [hhooks, List.getLast?_concat]
      rfl
    have hother : ∀ y, X.address y ∈ w.engine.hooks.map HookEntry.pTarget → y ≠ x := by
      rintro y hy rfl
      exact hnew hy
    refine ⟨⟨hinv, fun k hk => ?_⟩, fun y hy => ?_, fun _ => ?_⟩
    · show ∃ y, k = (X.address y, Function.update w.real x _ y) ∧
        Function.update w.hooking.asked (X.address x) (X.hook x) (X.address y) = X.hook y
      have hk' : k ∈ res.2.hooks.map HookEntry.key := hk
      rw [hhooks, List.map_append, List.mem_append] at hk'
      rcases hk' with hk' | hk'
      · obtain ⟨y, hkey, hy⟩ := h.known k hk'
        have hmem : X.address y ∈ w.engine.hooks.map HookEntry.pTarget := by
          obtain ⟨z, hz, rfl⟩ := List.mem_map.mp hk'
          have htarget' : z.pTarget = X.address y := congrArg Prod.fst hkey
          exact htarget' ▸ List.mem_map_of_mem hz
        have hne := hother y hmem
        refine ⟨y, ?_, ?_⟩
        · rw [Function.update_of_ne hne]
          exact hkey
        · rw [Function.update_of_ne fun heq => hne (X.address_inj heq)]
          exact hy
      · have hkey : k = hook.key := List.mem_singleton.mp hk'
        refine ⟨x, ?_, Function.update_self _ _ _⟩
        rw [Function.update_self]
        exact hkey.trans (Prod.ext htarget hlast.symm)
    · show y ∈ res.2.hooks
      rw [hhooks]
      exact List.mem_append_left _ hy
    · show X.address x ∈ res.2.hooks.map HookEntry.pTarget
      rw [hhooks, ← htarget]
      exact List.mem_map_of_mem (List.mem_append_right _ List.mem_cons_self)

/-- **The hook of an export**: what is hooked already stays so. -/
theorem Inv.hookExport (h : Inv X P m₀ w) (hgrants : Grants P during)
    (htargets : ∀ x, P.targets (X.address x)) (x : Export) :
    let r := w.hookExport X d during x
    Inv X P m₀ r.2 ∧ (r.1 = true → r.2.Enabled X x) ∧ ∀ y, w.Enabled X y → r.2.Enabled X y := by
  obtain ⟨hinv, hkept, hcreated⟩ := h.create (d := d) hgrants htargets x
  have henabled : ∀ y, w.Enabled X y → (w.create X d during x).2.Enabled X y := by
    rintro y ⟨hook, hmem, htarget, hen⟩
    exact ⟨hook, hkept hook hmem, htarget, hen⟩
  intro r
  simp only [r, State.hookExport]
  split
  · exact ⟨hinv, fun h => absurd h Bool.false_ne_true, henabled⟩
  · next hok =>
    rw [not_not] at hok
    generalize (w.create X d during x).2 = w' at hinv hcreated henabled
    obtain ⟨hook, hmem, htarget⟩ := List.mem_map.mp (hcreated hok)
    have hne : X.address x ≠ 0 := by
      rw [← htarget]
      exact (hinv.engine.sound hook hmem).target_pos.ne'
    obtain ⟨hon, hstill⟩ := enableHook_enabled (during (.enableHook (X.address x) true)) w'.engine
      hne
    have hcall : Inv X P m₀ (w'.call d (during (.enableHook (X.address x) true))
        (.enableHook (X.address x) true)).2 := by
      refine hinv.call hgrants (fun t t' heq => by cases heq) fun k hk => ?_
      rw [← enableHook_keys (during (.enableHook (X.address x) true)) (X.address x) true]
      exact hk
    refine ⟨hcall, fun htrue => hon (beq_iff_eq.mp htrue), fun y hy => ?_⟩
    obtain ⟨hook', hmem', htarget', hen'⟩ := henabled y hy
    obtain ⟨hook'', hmem'', hsame, hen''⟩ := hstill hook' hmem' hen'
    exact ⟨hook'', hmem'', hsame.trans htarget', hen''⟩

theorem Inv.setInstalled (h : Inv X P m₀ w) (installed : Bool) :
    Inv X P m₀ { w with installed := installed } := ⟨h.engine, h.known⟩

/-- **`InstallExportHooks`**; if it succeeds, `D3D12CreateDevice` has its hook. -/
theorem Inv.install (h : Inv X P m₀ w) {os : InstallOs si} (hgrants : Grants P os.during)
    (htargets : ∀ x, P.targets (X.address x)) :
    Inv X P m₀ (w.installExportHooks X d os).2 ∧
      (w.installed = false → (w.installExportHooks X d os).1 = true →
        (w.installExportHooks X d os).2.Enabled X .createDevice) := by
  have hfalse : ∀ {p : Prop}, false = true → p := fun h => absurd h Bool.false_ne_true
  have hinit : Inv X P m₀
      (({ w with installed := true } : State).call d (os.during .init) .init).2 := by
    refine (h.setInstalled true).call hgrants (fun t t' heq => by cases heq) fun k hk => ?_
    have hk' : k ∈ ( mhInitialize (os.during .init) w.engine).2.hooks.map HookEntry.key := hk
    rw [init_hooks] at hk'
    exact hk'
  unfold State.installExportHooks
  split
  · next hinstalled => exact ⟨h, fun hnot => by rw [hinstalled] at hnot; cases hnot⟩
  generalize ({ w with installed := true } : State).call d (os.during .init) .init = r at hinit
  dsimp only
  split
  · exact ⟨hinit, fun _ => hfalse⟩
  split
  · exact ⟨hinit, fun _ => hfalse⟩
  obtain ⟨hcreate, hon, -⟩ := hinit.hookExport (d := d) hgrants htargets .createDevice
  split
  · exact ⟨hcreate, fun _ => hfalse⟩
  · next hok =>
    have hcreated := hon (by simpa using hok)
    split
    · exact ⟨hcreate, fun _ _ => hcreated⟩
    · obtain ⟨hget, -, hstill⟩ := hcreate.hookExport (d := d) hgrants htargets .getInterface
      exact ⟨hget, fun _ _ => hstill _ hcreated⟩

/-- **`RemoveAllHooks`**; where nothing is refused, no hook is left. -/
theorem Inv.remove (h : Inv X P m₀ w) (hgrants : Grants P during) :
    Inv X P m₀ (w.removeAllHooks d during) ∧
      (w.installed = true → (during .uninit).Permits →
        (w.removeAllHooks d during).engine.hooks = []) := by
  have hdisable : Inv X P m₀ (({ w with installed := false } : State).call d
      (during (.enableHook 0 false)) (.enableHook 0 false)).2 := by
    refine (h.setInstalled false).call hgrants (fun t t' heq => by cases heq) fun k hk => ?_
    rw [← enableHook_keys (during (.enableHook 0 false)) 0 false]
    exact hk
  unfold State.removeAllHooks
  split
  · next hnot => exact ⟨h, fun hinstalled => by rw [hinstalled] at hnot; cases hnot⟩
  dsimp only
  generalize (({ w with installed := false } : State).call d
    (during (.enableHook 0 false)) (.enableHook 0 false)).2 = w' at hdisable
  refine ⟨hdisable.call hgrants (fun t t' heq => by cases heq) fun k hk => ?_, fun _ hpermits => ?_⟩
  · have hk' : k ∈ ( mhUninitialize (during .uninit) w'.engine).2.hooks.map HookEntry.key := hk
    rcases uninit_keys (during .uninit) w'.engine with hnil | hsame
    · rw [hnil] at hk'
      cases hk'
    · exact hsame ▸ hk'
  · exact uninit_permits hpermits hdisable.engine.idle

/-! ### Runs -/

/-- The pages that are granted in a step are in their place. -/
def Act.Granted (P : Place) : Act si → Prop
  | .install os => Grants P os.during
  | .remove during => Grants P during
  | .threads _ => True

theorem inv_step (h : Inv X P m₀ w) (htargets : ∀ x, P.targets (X.address x)) {a : Act si}
    (ha : a.Granted P) : Inv X P m₀ (w.step X d a) := by
  cases a with
  | install os => exact (h.install ha htargets).1
  | remove during => exact (h.remove ha).1
  | threads ips => exact ⟨h.engine.threads ips, h.known⟩

theorem inv_run {xs : List (Act si)} (htargets : ∀ x, P.targets (X.address x))
    (hgranted : ∀ a ∈ xs, a.Granted P) : Inv X P m₀ (State.run X d m₀ xs) := by
  refine Machine.run_induction (State.step X d) _ (fun xs => ∀ a ∈ xs, a.Granted P)
    (fun _ w => Inv X P m₀ w) (fun xs a h b hb => h b (List.mem_append_left _ hb))
    ?_ (fun xs a h hinv => ?_) xs hgranted
  · exact ⟨MinHook.Inv.start, fun k hk => absurd hk List.not_mem_nil⟩
  · exact inv_step hinv htargets (h a (List.mem_append_right _ List.mem_cons_self))

/-- **The exports, in every run** of installations and removals, whatever is refused in them.  Each
export leads to its hook, with a trampoline for the original, or is as it was; no other code is
changed.  An installation that succeeds hooks `D3D12CreateDevice`, and a removal in which nothing
is refused leaves all code as it was. -/
theorem exports_run {xs : List (Act si)} (htargets : ∀ x, P.targets (X.address x))
    (hgranted : ∀ a ∈ xs, a.Granted P) :
    let w := State.run X d m₀ xs
    (∀ x, w.Hooked X x ∨ w.AsBefore X m₀ x) ∧
    (∀ i, (∀ b, P.pages b → ¬InPage b i) → (∀ x, ¬InArea (X.address x) i) → w.mem i = m₀ i) ∧
    (∀ os : InstallOs si, Grants P os.during → w.installed = false →
      (w.installExportHooks X d os).1 = true →
      (w.installExportHooks X d os).2.Hooked X .createDevice) ∧
    ∀ during : Call → HookOs si, Grants P during → w.installed = true →
      (during .uninit).Permits →
      ∀ i, (∀ b, P.pages b → ¬InPage b i) → (w.removeAllHooks d during).mem i = m₀ i := by
  have h : Inv X P m₀ (State.run X d m₀ xs) := inv_run htargets hgranted
  refine ⟨fun x => ?_, fun i hi hout => h.elsewhere hi hout, fun os hos hnot hok => ?_,
    fun during hduring hinstalled hpermits i hi => ?_⟩
  · by_cases hx : (State.run X d m₀ xs).Enabled X x
    · exact Or.inl (h.hooked hx)
    · exact Or.inr (h.asBefore htargets hx)
  · obtain ⟨hinv, hon⟩ := h.install (d := d) hos htargets
    exact hinv.hooked (hon hnot hok)
  · obtain ⟨hinv, hnil⟩ := h.remove (d := d) hduring
    refine hinv.engine.code i hi fun hook hmem => ?_
    rw [hnil hinstalled hpermits] at hmem
    cases hmem

end

/-! ### A process -/

theorem exports_distinct : 0x180001000 ≠ 0x180001100 := by decide

/-- The exports of the library in `Loaded`. -/
def exports : Exports where
  address
    | .createDevice => 0x180001000
    | .getInterface => 0x180001100
  hook
    | .createDevice => 0x180002000
    | .getInterface => 0x180002100
  distinct := exports_distinct

theorem exports_apart :
    0x180001000 + 2 * jmpRelSize ≤ 0x180001100 ∧
    0x17FFF0000 + memoryBlockSize + jmpRelSize ≤ 0x180001000 ∧
    0x17FFF0000 + memoryBlockSize + jmpRelSize ≤ 0x180001100 := by decide

theorem exports_place {t t' : ℕ} (ht : t = 0x180001000 ∨ t = 0x180001100)
    (ht' : t' = 0x180001000 ∨ t' = 0x180001100) (hne : t ≠ t') :
    t + 2 * jmpRelSize ≤ t' ∨ t' + 2 * jmpRelSize ≤ t := by
  rcases ht with rfl | rfl <;> rcases ht' with rfl | rfl
  · exact absurd rfl hne
  · exact Or.inl exports_apart.1
  · exact Or.inr exports_apart.1
  · exact absurd rfl hne

theorem exports_clear {t b : ℕ} (ht : t = 0x180001000 ∨ t = 0x180001100) (hb : b = 0x17FFF0000) :
    t + jmpRelSize ≤ b ∨ b + memoryBlockSize + jmpRelSize ≤ t := by
  subst hb
  rcases ht with rfl | rfl
  · exact Or.inr exports_apart.2.1
  · exact Or.inr exports_apart.2.2

def place : Place where
  targets t := t = 0x180001000 ∨ t = 0x180001100
  pages b := b = 0x17FFF0000
  apart _ _ ht ht' hne := exports_place ht ht' hne
  clear _ _ ht hb := exports_clear ht hb

/-- The hooks are installed, removed, and installed again. -/
def reinstalled : List (Act Loaded.systemInfo) :=
  let os : InstallOs Loaded.systemInfo :=
    { loadLibrary := true, getProcAddress := fun _ => true, during := fun _ => Loaded.hookOs }
  [.install os, .remove fun _ => Loaded.hookOs, .install os]

theorem exports_targets (x : Export) : place.targets (exports.address x) := by
  cases x with
  | createDevice => exact Or.inl rfl
  | getInterface => exact Or.inr rfl

theorem reinstalled_granted : ∀ a ∈ reinstalled, a.Granted place := by
  have hgrants : Grants place fun _ => Loaded.hookOs := fun _ _ hb => beq_iff_eq.mp hb
  intro a ha
  simp only [reinstalled, List.mem_cons, List.not_mem_nil, or_false] at ha
  rcases ha with rfl | rfl | rfl
  · exact hgrants
  · exact hgrants
  · exact hgrants

theorem exports_run_reinstalled :
    let w := State.run exports Loaded.disassembler Loaded.code reinstalled
    (∀ x, w.Hooked exports x ∨ w.AsBefore exports Loaded.code x) ∧
    (∀ i, (∀ b, b = 0x17FFF0000 → ¬InPage b i) → (∀ x, ¬InArea (exports.address x) i) →
      w.mem i = Loaded.code i) ∧
    (∀ os : InstallOs Loaded.systemInfo, Grants place os.during → w.installed = false →
      (w.installExportHooks exports Loaded.disassembler os).1 = true →
      (w.installExportHooks exports Loaded.disassembler os).2.Hooked exports .createDevice) ∧
    ∀ during : Call → HookOs Loaded.systemInfo, Grants place during → w.installed = true →
      (during .uninit).Permits →
      ∀ i, (∀ b, b = 0x17FFF0000 → ¬InPage b i) →
        (w.removeAllHooks Loaded.disassembler during).mem i = Loaded.code i :=
  exports_run (P := place) exports_targets reinstalled_granted

end ExportHooks

end Dx12Track
