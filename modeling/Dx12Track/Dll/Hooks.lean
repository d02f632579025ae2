import Dx12Track.Lib.Run
import Mathlib.Data.List.Nodup
import Mathlib.Logic.Function.Basic

/-!
# The device hooks

`src/dll/Hooks.cpp` overwrites the create slots of every device vtable it meets,
and keeps the functions it found there in one global record that the hooks of
`src/dll/DeviceHooks.cpp` forward through.

A vtable is its address in `mem`, and its slots are numbered from 0; two vtables
at different addresses have no slot in common.

* `Slot` — the 26 device methods, with their place in the vtable.
* `Hooks` — the vtables, the set of those seen, and the stored originals.
* `patchDeviceVTable`, `hookCreateDeviceFactory`, `hookD3D12GetInterface` — the patches.
* `call` — the function that a call through a vtable reaches in the real driver.
* `forwards_iff` — when every hook reaches the function of its own vtable.
-/

namespace Dx12Track

/-- The members of `struct DeviceVtableOriginals`. -/
inductive Slot
  | setResidencyPriority | createCommandQueue | createCommandAllocator
  | createGraphicsPipelineState | createComputePipelineState | createCommandList
  | createDescriptorHeap | createRootSignature | createCommittedResource | createHeap
  | createPlacedResource | createReservedResource | createFence | createQueryHeap
  | createCommandSignature | createPipelineState | createCommandList1
  | createCommittedResource1 | createHeap1 | createReservedResource1
  | createCommittedResource2 | createPlacedResource1 | createCommandQueue1
  | createCommittedResource3 | createPlacedResource2 | createReservedResource2
  deriving DecidableEq, Repr

namespace Slot

/-- The place of the method in the vtable. -/
def index : Slot → ℕ
  | createCommandQueue => 8
  | createCommandAllocator => 9
  | createGraphicsPipelineState => 10
  | createComputePipelineState => 11
  | createCommandList => 12
  | createDescriptorHeap => 14
  | createRootSignature => 16
  | createCommittedResource => 27
  | createHeap => 28
  | createPlacedResource => 29
  | createReservedResource => 30
  | createFence => 36
  | createQueryHeap => 39
  | createCommandSignature => 41
  | setResidencyPriority => 46
  | createPipelineState => 47
  | createCommandList1 => 51
  | createCommittedResource1 => 53
  | createHeap1 => 54
  | createReservedResource1 => 55
  | createCommittedResource2 => 69
  | createPlacedResource1 => 70
  | createCommandQueue1 => 75
  | createCommittedResource3 => 76
  | createPlacedResource2 => 77
  | createReservedResource2 => 78

/-- The device version from which `PatchDeviceVTable` patches the slot. -/
def since : Slot → ℕ
  | setResidencyPriority => 1
  | createPipelineState => 2
  | createCommandList1 | createCommittedResource1 | createHeap1 | createReservedResource1 => 4
  | createCommittedResource2 | createPlacedResource1 => 8
  | createCommandQueue1 => 9
  | createCommittedResource3 | createPlacedResource2 | createReservedResource2 => 10
  | _ => 0

/-- The slots in the order `PatchDeviceVTable` goes through them. -/
def all : List Slot :=
  [createCommandQueue, createCommandAllocator, createGraphicsPipelineState,
    createComputePipelineState, createCommandList, createDescriptorHeap, createRootSignature,
    createCommittedResource, createHeap, createPlacedResource, createReservedResource,
    createFence, createQueryHeap, createCommandSignature,
    setResidencyPriority,
    createPipelineState,
    createCommandList1, createCommittedResource1, createHeap1, createReservedResource1,
    createCommittedResource2, createPlacedResource1,
    createCommandQueue1,
    createCommittedResource3, createPlacedResource2, createReservedResource2]

theorem mem_all (s : Slot) : s ∈ all := by
  cases s <;> decide

/-- The record has one member for each slot number. -/
theorem index_injective : Function.Injective index := fun s s' h =>
  List.inj_on_of_nodup_map (by decide : (all.map index).Nodup) (mem_all s) (mem_all s') h

end Slot

/-- The functions that the DLL writes into vtables. -/
inductive Hook
  | device (s : Slot)
  | createDeviceFactory
  | factoryCreateDevice
  deriving DecidableEq, Repr

/-- What a vtable slot points to. -/
inductive Fn
  | real (address : ℕ)
  | hook (h : Hook)
  deriving DecidableEq, Repr

/-- What the patches read of a device: its vtable, and the `ID3D12DeviceN` that
`QueryInterface` answers for. -/
structure Device where
  vtable : ℕ
  answers : ℕ → Bool

/-- What the build and the process fix: the device interfaces from 11 on that the
headers declare, and the slots that `VirtualProtect` makes writable. -/
structure PatchEnv where
  declared : ℕ → Bool := fun _ => true
  virtualProtect : ℕ → ℕ → Bool := fun _ _ => true

/-- The table of `ProbeMaxDeviceVersion`. -/
def PatchEnv.entries (env : PatchEnv) : List ℕ :=
  [15, 14, 13, 12, 11].filter env.declared ++ [10, 9, 8, 7, 6, 5, 4, 3, 2, 1, 0]

/-- `ProbeMaxDeviceVersion`; `none` for -1. -/
def PatchEnv.probeMaxDeviceVersion (env : PatchEnv) (d : Device) : Option ℕ :=
  env.entries.find? d.answers

/-- The vtables of the process and the globals of `Hooks.cpp`. -/
structure Hooks where
  mem : ℕ → ℕ → Fn
  /-- `g_patched_vtables`. -/
  patched : List ℕ := []
  /-- `g_dev_originals`. -/
  originals : Slot → Option Fn := fun _ => none
  /-- `g_real_CreateDeviceFactory`. -/
  realCreateDeviceFactory : Option Fn := none
  /-- `g_real_FactoryCreateDevice`. -/
  realFactoryCreateDevice : Option Fn := none

/-- `kSlot_SDKConfig1_CreateDeviceFactory`. -/
def kSlotSDKConfig1CreateDeviceFactory : ℕ := 4

/-- `kSlot_DeviceFactory_CreateDevice`. -/
def kSlotDeviceFactoryCreateDevice : ℕ := 9

namespace Hooks

/-! ### The patches -/

/-- `AlreadyPatched`: the set holds eight vtables at most. -/
def alreadyPatched (h : Hooks) (vt : ℕ) : Bool × Hooks :=
  if vt ∈ h.patched then (true, h)
  else if h.patched.length < 8 then (false, { h with patched := h.patched ++ [vt] })
  else (false, h)

/-- `PatchSlot`, with what it stores through `out_prev`; `none` when it fails. -/
def patchSlot (env : PatchEnv) (h : Hooks) (vt index : ℕ) (hook : Hook) : Option (Fn × Hooks) :=
  if env.virtualProtect vt index then
    some (h.mem vt index,
      { h with mem := Function.update h.mem vt (Function.update (h.mem vt) index (.hook hook)) })
  else none

/-- One line of `PatchDeviceVTable`. -/
def patchDeviceSlot (env : PatchEnv) (vt : ℕ) (h : Hooks) (s : Slot) : Hooks :=
  match h.patchSlot env vt s.index (.device s) with
  | none => h
  | some (prev, h) => { h with originals := Function.update h.originals s (some prev) }

/-- The slots that `PatchDeviceVTable` patches for a device of version `v`. -/
def slotsUpTo (v : ℕ) : List Slot := Slot.all.filter (·.since ≤ v)

/-- `PatchDeviceVTable`; `none` is a null device. -/
def patchDeviceVTable (env : PatchEnv) (h : Hooks) : Option Device → Hooks
  | none => h
  | some d =>
    match h.alreadyPatched d.vtable with
    | (true, h) => h
    | (false, h) =>
      match env.probeMaxDeviceVersion d with
      | none => h
      | some v => (slotsUpTo v).foldl (patchDeviceSlot env d.vtable) h

/-- `Hook_CreateDeviceFactory`, once the real function has made a factory. -/
def hookCreateDeviceFactory (env : PatchEnv) (h : Hooks) (vt : ℕ) : Hooks :=
  match h.alreadyPatched vt with
  | (true, h) => h
  | (false, h) =>
    match h.patchSlot env vt kSlotDeviceFactoryCreateDevice .factoryCreateDevice with
    | none => h
    | some (prev, h) => { h with realFactoryCreateDevice := some prev }

/-- `Hook_D3D12GetInterface`, once the real function has given an `ID3D12SDKConfiguration1`. -/
def hookD3D12GetInterface (env : PatchEnv) (h : Hooks) (vt : ℕ) : Hooks :=
  match h.alreadyPatched vt with
  | (true, h) => h
  | (false, h) =>
    match h.patchSlot env vt kSlotSDKConfig1CreateDeviceFactory .createDeviceFactory with
    | none => h
    | some (prev, h) => { h with realCreateDeviceFactory := some prev }

/-! ### Runs -/

/-- A patch attempt. -/
inductive Patch
  | device (d : Option Device)
  | factory (vt : ℕ)
  | sdkConfig (vt : ℕ)

/-- The vtable of an attempt; a null device has none. -/
def Patch.vtable : Patch → Option ℕ
  | .device d => d.map Device.vtable
  | .factory vt => some vt
  | .sdkConfig vt => some vt

/-- The device of an attempt. -/
def Patch.device? : Patch → Option Device
  | .device d => d
  | .factory _ => none
  | .sdkConfig _ => none

def step (env : PatchEnv) (h : Hooks) : Patch → Hooks
  | .device d => h.patchDeviceVTable env d
  | .factory vt => h.hookCreateDeviceFactory env vt
  | .sdkConfig vt => h.hookD3D12GetInterface env vt

/-- The hooks after some patch attempts, in a process with the vtables `mem`. -/
def run (env : PatchEnv) (mem : ℕ → ℕ → Fn) (xs : List Patch) : Hooks :=
  Machine.run (step env) { mem := mem } xs

/-- What a call of a slot through a vtable reaches: a device hook forwards to the
member of its own name of `DeviceOriginals()`, which may be null. -/
def call (h : Hooks) (vt index : ℕ) : Option Fn :=
  match h.mem vt index with
  | .hook (.device s) => h.originals s
  | f => some f

/-- The slot of the device is one that gets patched. -/
def Patches (env : PatchEnv) (d : Device) (s : Slot) : Prop :=
  (∃ v ∈ env.probeMaxDeviceVersion d, s.since ≤ v) ∧ env.virtualProtect d.vtable s.index = true

/-- Every patched slot of every device forwards to the function that was there. -/
def Forwards (env : PatchEnv) (mem : ℕ → ℕ → Fn) (xs : List Patch) : Prop :=
  ∀ d ∈ xs.filterMap Patch.device?, ∀ s, Patches env d s →
    (run env mem xs).call d.vtable s.index = some (mem d.vtable s.index)

/-- No two devices differ in a slot that is patched in both. -/
def OneImplementation (env : PatchEnv) (mem : ℕ → ℕ → Fn) (xs : List Patch) : Prop :=
  ∀ d ∈ xs.filterMap Patch.device?, ∀ d' ∈ xs.filterMap Patch.device?, ∀ s,
    Patches env d s → Patches env d' s → mem d.vtable s.index = mem d'.vtable s.index

/-! ### One attempt -/

/-- What the lines of `PatchDeviceVTable` for the slots `ss` do to the vtable `vt`. -/
structure Patched (env : PatchEnv) (vt : ℕ) (ss : List Slot) (h h' : Hooks) : Prop where
  others : ∀ vt', vt' ≠ vt → h'.mem vt' = h.mem vt'
  untouched : ∀ i, (∀ s ∈ ss, s.index ≠ i) → h'.mem vt i = h.mem vt i
  hooked : ∀ s ∈ ss, env.virtualProtect vt s.index = true →
    h'.mem vt s.index = .hook (.device s)
  stored : ∀ s ∈ ss, env.virtualProtect vt s.index = true →
    h'.originals s = some (h.mem vt s.index)
  kept : ∀ s, ¬(s ∈ ss ∧ env.virtualProtect vt s.index = true) → h'.originals s = h.originals s
  seen : h'.patched = h.patched

theorem patched_nil (env : PatchEnv) (vt : ℕ) (h : Hooks) : Patched env vt [] h h where
  others _ _ := rfl
  untouched _ _ := rfl
  hooked _ hs := by simp at hs
  stored _ hs := by simp at hs
  kept _ _ := rfl
  seen := rfl

/-- A slot after the first is patched in a vtable where its own entry is still the old one. -/
theorem Patched.cons {env : PatchEnv} {vt : ℕ} {s : Slot} {ss : List Slot} {h h' : Hooks}
    (hs : s ∉ ss) (hp : Patched env vt ss (h.patchDeviceSlot env vt s) h') :
    Patched env vt (s :: ss) h h' := by
  have hne : ∀ s' ∈ ss, s'.index ≠ s.index := fun s' hs' heq =>
    hs (Slot.index_injective heq ▸ hs')
  -- the slot is writable: overwritten once, and not again by the rest
  by_cases hv : env.virtualProtect vt s.index = true
  · have hmem : (h.patchDeviceSlot env vt s).mem
        = Function.update h.mem vt (Function.update (h.mem vt) s.index (.hook (.device s))) := by
      simp [patchDeviceSlot, patchSlot, hv]
    have horig : (h.patchDeviceSlot env vt s).originals
        = Function.update h.originals s (some (h.mem vt s.index)) := by
      simp [patchDeviceSlot, patchSlot, hv]
    have hseen : (h.patchDeviceSlot env vt s).patched = h.patched := by
      simp [patchDeviceSlot, patchSlot, hv]
    constructor
    case others =>
      intro vt' hvt'
      rw [hp.others vt' hvt', hmem, Function.update_of_ne hvt']
    case untouched =>
      intro i hi
      rw [hp.untouched i fun s' hs' => hi s' (List.mem_cons_of_mem s hs'), hmem,
        Function.update_self, Function.update_of_ne (hi s List.mem_cons_self).symm]
    case hooked =>
      intro s' hs' hv'
      rcases List.mem_cons.mp hs' with rfl | hs'
      · rw [hp.untouched _ hne, hmem, Function.update_self, Function.update_self]
      · exact hp.hooked s' hs' hv'
    case stored =>
      intro s' hs' hv'
      rcases List.mem_cons.mp hs' with rfl | hs'
      · rw [hp.kept s' (fun hk => hs hk.1), horig, Function.update_self]
      · rw [hp.stored s' hs' hv', hmem, Function.update_self, Function.update_of_ne (hne s' hs')]
    case kept =>
      intro s' hs'
      have hss : s' ≠ s := by
        rintro rfl
        exact hs' ⟨List.mem_cons_self, hv⟩
      rw [hp.kept s' (fun hk => hs' ⟨List.mem_cons_of_mem s hk.1, hk.2⟩), horig,
        Function.update_of_ne hss]
    case seen => rw [hp.seen, hseen]
  -- a slot that cannot be made writable is passed over
  · have hsame : h.patchDeviceSlot env vt s = h := by
      simp [patchDeviceSlot, patchSlot, hv]
    rw [hsame] at hp
    constructor
    case others => exact hp.others
    case untouched =>
      exact fun i hi => hp.untouched i fun s' hs' => hi s' (List.mem_cons_of_mem s hs')
    case hooked =>
      intro s' hs' hv'
      rcases List.mem_cons.mp hs' with rfl | hs'
      · exact absurd hv' hv
      · exact hp.hooked s' hs' hv'
    case stored =>
      intro s' hs' hv'
      rcases List.mem_cons.mp hs' with rfl | hs'
      · exact absurd hv' hv
      · exact hp.stored s' hs' hv'
    case kept => exact fun s' hs' => hp.kept s' fun hk => hs' ⟨List.mem_cons_of_mem s hk.1, hk.2⟩
    case seen => exact hp.seen

theorem patched_foldl (env : PatchEnv) (vt : ℕ) (ss : List Slot) (hss : ss.Nodup) (h : Hooks) :
    Patched env vt ss h (ss.foldl (patchDeviceSlot env vt) h) := by
  induction ss generalizing h with
  | nil => exact patched_nil env vt h
  | cons s ss ih =>
    obtain ⟨hs, hss⟩ := List.nodup_cons.mp hss
    exact Patched.cons hs (ih hss _)

theorem mem_slotsUpTo {v : ℕ} {s : Slot} : s ∈ slotsUpTo v ↔ s.since ≤ v := by
  simp [slotsUpTo, Slot.mem_all s]

theorem nodup_slotsUpTo (v : ℕ) : (slotsUpTo v).Nodup :=
  (by decide : Slot.all.Nodup).filter _

/-- What an attempt at the vtable `vt` does, for a device (`Q` holds of the slots it
patches) and for a factory or a configuration (it patches none of them). -/
structure Effect (vt : ℕ) (Q : Slot → Prop) (h h' : Hooks) : Prop where
  others : ∀ vt', vt' ≠ vt → h'.mem vt' = h.mem vt'
  hooked : ∀ s, Q s → h'.mem vt s.index = .hook (.device s)
  stored : ∀ s, Q s → h'.originals s = some (h.mem vt s.index)
  kept : ∀ s, ¬Q s → h'.originals s = h.originals s
  seen : ∀ vt' ∈ h'.patched, vt' = vt ∨ vt' ∈ h.patched

theorem alreadyPatched_new {h : Hooks} {vt : ℕ} (hvt : vt ∉ h.patched) :
    ∃ ps, (∀ vt' ∈ ps, vt' = vt ∨ vt' ∈ h.patched) ∧
      h.alreadyPatched vt = (false, { h with patched := ps }) := by
  unfold alreadyPatched
  rw [if_neg hvt]
  split
  · refine ⟨h.patched ++ [vt], ?_, rfl⟩
    intro vt' hvt'
    rcases List.mem_append.mp hvt' with hvt' | hvt'
    · exact .inr hvt'
    · exact .inl (List.mem_singleton.mp hvt')
  · exact ⟨h.patched, fun vt' hvt' => .inr hvt', rfl⟩

theorem effect_device (env : PatchEnv) {h : Hooks} {d : Device} (hd : d.vtable ∉ h.patched) :
    Effect d.vtable (Patches env d) h (h.patchDeviceVTable env (some d)) := by
  obtain ⟨ps, hps, heq⟩ := alreadyPatched_new hd
  simp only [patchDeviceVTable, heq]
  cases hv : env.probeMaxDeviceVersion d with
  | none =>
    have hno : ∀ s, ¬Patches env d s := fun s hs => by simp [Patches, hv] at hs
    exact ⟨fun _ _ => rfl, fun s hs => absurd hs (hno s), fun s hs => absurd hs (hno s),
      fun _ _ => rfl, hps⟩
  | some v =>
    have hq : ∀ s, Patches env d s ↔
        s ∈ slotsUpTo v ∧ env.virtualProtect d.vtable s.index = true := by
      intro s
      simp [Patches, hv, mem_slotsUpTo]
    have hp := patched_foldl env d.vtable (slotsUpTo v) (nodup_slotsUpTo v)
      { h with patched := ps }
    constructor
    case others => exact hp.others
    case hooked => exact fun s hs => hp.hooked s ((hq s).mp hs).1 ((hq s).mp hs).2
    case stored => exact fun s hs => hp.stored s ((hq s).mp hs).1 ((hq s).mp hs).2
    case kept => exact fun s hs => hp.kept s fun hk => hs ((hq s).mpr hk)
    case seen =>
      intro vt' hvt'
      rw [hp.seen] at hvt'
      exact hps vt' hvt'

theorem effect_factory (env : PatchEnv) {h : Hooks} {vt : ℕ} (hvt : vt ∉ h.patched) :
    Effect vt (fun _ => False) h (h.hookCreateDeviceFactory env vt) := by
  obtain ⟨ps, hps, heq⟩ := alreadyPatched_new hvt
  simp only [hookCreateDeviceFactory, heq, patchSlot]
  by_cases hv : env.virtualProtect vt kSlotDeviceFactoryCreateDevice = true
  · simp only [hv, if_true]
    exact ⟨fun vt' hvt' => Function.update_of_ne hvt' _ _, fun _ => False.elim,
      fun _ => False.elim, fun _ _ => rfl, hps⟩
  · simp only [hv]
    exact ⟨fun _ _ => rfl, fun _ => False.elim, fun _ => False.elim, fun _ _ => rfl, hps⟩

theorem effect_sdkConfig (env : PatchEnv) {h : Hooks} {vt : ℕ} (hvt : vt ∉ h.patched) :
    Effect vt (fun _ => False) h (h.hookD3D12GetInterface env vt) := by
  obtain ⟨ps, hps, heq⟩ := alreadyPatched_new hvt
  simp only [hookD3D12GetInterface, heq, patchSlot]
  by_cases hv : env.virtualProtect vt kSlotSDKConfig1CreateDeviceFactory = true
  · simp only [hv, if_true]
    exact ⟨fun vt' hvt' => Function.update_of_ne hvt' _ _, fun _ => False.elim,
      fun _ => False.elim, fun _ _ => rfl, hps⟩
  · simp only [hv]
    exact ⟨fun _ _ => rfl, fun _ => False.elim, fun _ => False.elim, fun _ _ => rfl, hps⟩

/-- An attempt at a vtable that no earlier one has seen. -/
theorem effect_step (env : PatchEnv) {h : Hooks} {x : Patch} {vt : ℕ} (hx : x.vtable = some vt)
    (hvt : vt ∉ h.patched) :
    Effect vt (fun s => ∃ d ∈ x.device?, Patches env d s) h (h.step env x) := by
  cases x with
  | device d =>
    cases d with
    | none => cases hx
    | some d =>
      cases hx
      simpa [Patch.device?, step] using effect_device env hvt
  | factory vt' =>
    cases hx
    simpa [Patch.device?, step] using effect_factory env hvt
  | sdkConfig vt' =>
    cases hx
    simpa [Patch.device?, step] using effect_sdkConfig env hvt

/-! ### Runs of attempts -/

/-- What holds after the attempts `xs` at distinct vtables. -/
structure Inv (env : PatchEnv) (mem : ℕ → ℕ → Fn) (xs : List Patch) (h : Hooks) : Prop where
  /-- A vtable that was not met is as it was. -/
  untouched : ∀ vt, vt ∉ xs.filterMap Patch.vtable → h.mem vt = mem vt
  /-- A patched slot holds its own hook. -/
  hooked : ∀ d ∈ xs.filterMap Patch.device?, ∀ s, Patches env d s →
    h.mem d.vtable s.index = .hook (.device s)
  /-- A patched slot has left an original behind, its own or that of another vtable. -/
  stored : ∀ d ∈ xs.filterMap Patch.device?, ∀ s, Patches env d s →
    ∃ d' ∈ xs.filterMap Patch.device?, Patches env d' s ∧
      h.originals s = some (mem d'.vtable s.index)
  seen : ∀ vt ∈ h.patched, vt ∈ xs.filterMap Patch.vtable

theorem vtable_of_device {x : Patch} {d : Device} (hd : x.device? = some d) :
    x.vtable = some d.vtable := by
  cases x with
  | device d' => rw [show d' = some d from hd]; rfl
  | factory vt => cases hd
  | sdkConfig vt => cases hd

theorem vtable_mem_of_device {xs : List Patch} {d : Device}
    (hd : d ∈ xs.filterMap Patch.device?) : d.vtable ∈ xs.filterMap Patch.vtable := by
  obtain ⟨x, hx, hxd⟩ := List.mem_filterMap.mp hd
  exact List.mem_filterMap.mpr ⟨x, hx, vtable_of_device hxd⟩

theorem inv_step {env : PatchEnv} {mem : ℕ → ℕ → Fn} {xs : List Patch} {x : Patch}
    {h : Hooks}
    (hxs : ((xs ++ [x]).filterMap Patch.vtable).Nodup) (hi : Inv env mem xs h) :
    Inv env mem (xs ++ [x]) (h.step env x) := by
  have hdev : ∀ d, d ∈ (xs ++ [x]).filterMap Patch.device? ↔
      d ∈ xs.filterMap Patch.device? ∨ x.device? = some d := by
    intro d
    simp [List.filterMap_append]
  cases hx : x.vtable with
  | none =>
    -- no device, no vtable: the attempt changes nothing
    have hstep : h.step env x = h := by
      cases x with
      | device d => rw [show d = none by simpa [Patch.vtable] using hx]; rfl
      | factory vt => cases hx
      | sdkConfig vt => cases hx
    have hxd : ∀ d, x.device? ≠ some d := fun d hd => by simp [vtable_of_device hd] at hx
    have hvts : (xs ++ [x]).filterMap Patch.vtable = xs.filterMap Patch.vtable := by
      simp [List.filterMap_append, hx]
    rw [hstep]
    constructor
    · rw [hvts]
      exact hi.untouched
    · intro d hd
      exact hi.hooked d (((hdev d).mp hd).resolve_right (hxd d))
    · intro d hd s hs
      obtain ⟨d', hd', hs', ho⟩ := hi.stored d (((hdev d).mp hd).resolve_right (hxd d)) s hs
      exact ⟨d', (hdev d').mpr (.inl hd'), hs', ho⟩
    · rw [hvts]
      exact hi.seen
  | some vt =>
    have hvts : (xs ++ [x]).filterMap Patch.vtable = xs.filterMap Patch.vtable ++ [vt] := by
      simp [List.filterMap_append, hx]
    -- each vtable is attempted once, so this one is new
    have hvt : vt ∉ xs.filterMap Patch.vtable := by
      rw [hvts] at hxs
      exact fun hmem => (List.disjoint_of_nodup_append hxs) hmem (List.mem_singleton.mpr rfl)
    have he := effect_step env hx fun hmem => hvt (hi.seen vt hmem)
    have hold : ∀ d ∈ xs.filterMap Patch.device?, d.vtable ≠ vt := fun d hd heq =>
      hvt (heq ▸ vtable_mem_of_device hd)
    have hnew : ∀ d, x.device? = some d → d.vtable = vt := fun d hd => by
      simpa [vtable_of_device hd] using hx
    constructor
    · intro vt' hvt'
      rw [hvts, List.mem_append, List.mem_singleton, not_or] at hvt'
      rw [he.others vt' hvt'.2, hi.untouched vt' hvt'.1]
    · intro d hd s hs
      rcases (hdev d).mp hd with hd | hd
      · rw [he.others d.vtable (hold d hd)]
        exact hi.hooked d hd s hs
      · rw [hnew d hd]
        exact he.hooked s ⟨d, hd, hs⟩
    · intro d hd s hs
      by_cases hq : ∃ d' ∈ x.device?, Patches env d' s
      · -- the last device overwrites the record with what its own vtable held
        obtain ⟨d', hd', hs'⟩ := hq
        refine ⟨d', (hdev d').mpr (.inr hd'), hs', ?_⟩
        rw [he.stored s ⟨d', hd', hs'⟩, hi.untouched vt hvt, hnew d' hd']
      · have hd : d ∈ xs.filterMap Patch.device? :=
          ((hdev d).mp hd).resolve_right fun hd => hq ⟨d, hd, hs⟩
        obtain ⟨d', hd', hs', ho⟩ := hi.stored d hd s hs
        refine ⟨d', (hdev d').mpr (.inl hd'), hs', ?_⟩
        rw [he.kept s hq, ho]
    · intro vt' hvt'
      rw [hvts, List.mem_append, List.mem_singleton]
      rcases he.seen vt' hvt' with rfl | hvt'
      · exact .inr rfl
      · exact .inl (hi.seen vt' hvt')

theorem inv_run {env : PatchEnv} {mem : ℕ → ℕ → Fn} {xs : List Patch}
    (hxs : (xs.filterMap Patch.vtable).Nodup) : Inv env mem xs (run env mem xs) := by
  refine Machine.run_induction (step env) _ (fun xs => (xs.filterMap Patch.vtable).Nodup)
    (Inv env mem) ?_ ?_ ?_ xs hxs
  · intro xs x hl
    rw [List.filterMap_append] at hl
    exact hl.of_append_left
  · exact ⟨fun _ _ => rfl, by simp, by simp, by simp⟩
  · intro xs x hl hi
    exact inv_step hl hi

/-- **Forwarding.**  Of all the devices whose hooks share the one record, each reaches
its own functions exactly if they all have the same ones. -/
theorem forwards_iff (env : PatchEnv) (mem : ℕ → ℕ → Fn) (xs : List Patch)
    (hxs : (xs.filterMap Patch.vtable).Nodup) :
    Forwards env mem xs ↔ OneImplementation env mem xs := by
  have hi : Inv env mem xs (run env mem xs) := inv_run hxs
  have hcall : ∀ d ∈ xs.filterMap Patch.device?, ∀ s, Patches env d s →
      (run env mem xs).call d.vtable s.index = (run env mem xs).originals s := by
    intro d hd s hs
    simp only [call, hi.hooked d hd s hs]
  constructor
  · intro hf d hd d' hd' s hs hs'
    have h₁ := hf d hd s hs
    have h₂ := hf d' hd' s hs'
    rw [hcall d hd s hs] at h₁
    rw [hcall d' hd' s hs'] at h₂
    exact Option.some.inj (h₁.symm.trans h₂)
  · intro hone d hd s hs
    obtain ⟨d', hd', hs', ho⟩ := hi.stored d hd s hs
    rw [hcall d hd s hs, ho, hone d' hd' d hd s hs' hs]

/-! ### Two drivers -/

/-- A device of the first version. -/
def deviceAt (vt : ℕ) : Device := { vtable := vt, answers := fun v => v == 0 }

def driverRun : List Patch := [.device (some (deviceAt 100)), .device (some (deviceAt 200))]

/-- The driver of every device is at 1000, but for that of the vtable 200. -/
def driverMem (other : ℕ) (vt i : ℕ) : Fn :=
  if vt = 200 then .real (other + i) else .real (1000 + i)

theorem forwards_iff_driverRun :
    Forwards {} (driverMem 1000) driverRun ↔ OneImplementation {} (driverMem 1000) driverRun :=
  forwards_iff {} (driverMem 1000) driverRun (by decide)

/-- With two drivers, `CreateCommandQueue` of the first device runs in the second. -/
theorem not_forwards_twoDrivers :
    (driverRun.filterMap Patch.vtable).Nodup ∧ ¬Forwards {} (driverMem 2000) driverRun := by
  refine ⟨by decide, fun hf => ?_⟩
  have hcall := hf (deviceAt 100) (by simp [driverRun, Patch.device?]) .createCommandQueue
    ⟨⟨0, by decide, by decide⟩, rfl⟩
  revert hcall
  decide

end Hooks

end Dx12Track
