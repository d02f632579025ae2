import Mathlib.Data.List.Dedup
import Dx12Track.Dll.Hooks

/-!
# Patching a vtable twice

The hooks of `src/dll/Hooks.cpp` are put into a vtable once: a set of the vtables seen so
far turns a second attempt away.  The set holds eight vtables, those of devices, factories
and SDK configurations together.  A vtable that came later is patched again at every
attempt, and then the stored original is the hook.

* `writes`, `traced` — the slots an attempt overwrites; a run with all of them.
* `Keeps` — a function is stored as an original.
* `Wrote` — what an attempt does that is not turned away.
* `firstEight` — the first eight vtables, which are those of the set.
* `Idempotent`, `Repatches` — patching is idempotent; a later vtable is patched again.
* `idempotent_iff` — **patching is idempotent exactly if no later vtable is patched again**.
-/

namespace Dx12Track

namespace Hooks

/-! ### The slots of an attempt -/

/-- The slots that an attempt overwrites if it is not turned away. -/
def writes (env : PatchEnv) : Patch → List ℕ
  | .device none => []
  | .device (some d) =>
    match env.probeMaxDeviceVersion d with
    | none => []
    | some v => ((slotsUpTo v).map Slot.index).filter (env.virtualProtect d.vtable)
  | .factory vt => [kSlotDeviceFactoryCreateDevice].filter (env.virtualProtect vt)
  | .sdkConfig vt => [kSlotSDKConfig1CreateDeviceFactory].filter (env.virtualProtect vt)

/-- The slots that an attempt overwrites, each with its vtable. -/
def overwritten (env : PatchEnv) (h : Hooks) (x : Patch) : List (ℕ × ℕ) :=
  match x.vtable with
  | none => []
  | some vt => if vt ∈ h.patched then [] else (writes env x).map fun i => (vt, i)

/-- One attempt, with the slots overwritten so far. -/
def tracedStep (env : PatchEnv) (s : Hooks × List (ℕ × ℕ)) (x : Patch) : Hooks × List (ℕ × ℕ) :=
  (s.1.step env x, s.2 ++ overwritten env s.1 x)

def traced (env : PatchEnv) (mem : ℕ → ℕ → Fn) (xs : List Patch) : Hooks × List (ℕ × ℕ) :=
  Machine.run (tracedStep env) ({ mem := mem }, []) xs

/-- The function is stored as an original. -/
def Keeps (h : Hooks) (f : Fn) : Prop :=
  (∃ s, h.originals s = some f) ∨ h.realCreateDeviceFactory = some f ∨
    h.realFactoryCreateDevice = some f

/-- No stored original differs. -/
structure SameStored (h h' : Hooks) : Prop where
  originals : h'.originals = h.originals
  createDeviceFactory : h'.realCreateDeviceFactory = h.realCreateDeviceFactory
  factoryCreateDevice : h'.realFactoryCreateDevice = h.realFactoryCreateDevice

/-- The vtables, each where it comes first. -/
def distinct (vts : List ℕ) : List ℕ :=
  vts.foldl (fun acc vt => if vt ∈ acc then acc else acc ++ [vt]) []

/-- The first eight vtables of a run. -/
def firstEight (xs : List Patch) : List ℕ := (distinct (xs.filterMap Patch.vtable)).take 8

/-- **Patching is idempotent.** -/
structure Idempotent (env : PatchEnv) (mem : ℕ → ℕ → Fn) (xs : List Patch) : Prop where
  /-- No slot is overwritten twice. -/
  once : (traced env mem xs).2.Nodup
  /-- An attempt at a vtable that was patched leaves it and all originals alone. -/
  quiet : ∀ us x vs, xs = us ++ x :: vs → ∀ vt, x.vtable = some vt →
    vt ∈ (traced env mem us).2.map Prod.fst →
      ((run env mem us).step env x).mem vt = (run env mem us).mem vt ∧
        SameStored (run env mem us) ((run env mem us).step env x)
  /-- No hook is ever stored as an original. -/
  real : ∀ us, us <+: xs → ∀ k, ¬(run env mem us).Keeps (.hook k)

/-- A vtable that is not among the first eight is patched, and attempted again. -/
def Repatches (env : PatchEnv) (xs : List Patch) : Prop :=
  ∃ us x vs, xs = us ++ x :: vs ∧ ∃ vt, x.vtable = some vt ∧ vt ∉ firstEight us ∧
    writes env x ≠ [] ∧ ∃ u ∈ us, u.vtable = some vt ∧ writes env u ≠ []

/-! ### The set -/

theorem distinct_concat (vts : List ℕ) (vt : ℕ) :
    distinct (vts ++ [vt]) = if vt ∈ distinct vts then distinct vts else distinct vts ++ [vt] := by
  unfold distinct
  rw [List.foldl_concat]

/-- An attempt at a vtable that is in the set is turned away. -/
theorem step_of_mem (env : PatchEnv) {h : Hooks} {x : Patch} {vt : ℕ} (hx : x.vtable = some vt)
    (hvt : vt ∈ h.patched) : h.step env x = h := by
  have halready : h.alreadyPatched vt = (true, h) := by
    unfold alreadyPatched
    rw [if_pos hvt]
  cases x with
  | device d =>
    obtain ⟨d, rfl, rfl⟩ := Option.map_eq_some_iff.mp hx
    show h.patchDeviceVTable env (some d) = h
    simp only [patchDeviceVTable, halready]
  | factory vt' =>
    cases hx
    show h.hookCreateDeviceFactory env vt = h
    simp only [hookCreateDeviceFactory, halready]
  | sdkConfig vt' =>
    cases hx
    show h.hookD3D12GetInterface env vt = h
    simp only [hookD3D12GetInterface, halready]

theorem step_of_null (env : PatchEnv) {h : Hooks} {x : Patch} (hx : x.vtable = none) :
    h.step env x = h := by
  cases x with
  | device d =>
    cases d with
    | none => rfl
    | some d => cases hx
  | factory vt => cases hx
  | sdkConfig vt => cases hx

/-- What an attempt at `vt` does that is not turned away. -/
structure Wrote (env : PatchEnv) (x : Patch) (vt : ℕ) (h h' : Hooks) : Prop where
  others : ∀ vt', vt' ≠ vt → h'.mem vt' = h.mem vt'
  untouched : ∀ i, i ∉ writes env x → h'.mem vt i = h.mem vt i
  hooked : ∀ i ∈ writes env x, ∃ k, h'.mem vt i = .hook k
  /-- What is stored was stored before, or stood in a slot that was overwritten. -/
  stored : ∀ f, h'.Keeps f → h.Keeps f ∨ ∃ i ∈ writes env x, f = h.mem vt i
  kept : ∀ i ∈ writes env x, h'.Keeps (h.mem vt i)
  silent : writes env x = [] → SameStored h h'
  seen : h'.patched = if h.patched.length < 8 then h.patched ++ [vt] else h.patched

theorem alreadyPatched_of_not_mem {h : Hooks} {vt : ℕ} (hvt : vt ∉ h.patched) :
    h.alreadyPatched vt = (false, { h with
      patched := if h.patched.length < 8 then h.patched ++ [vt] else h.patched }) := by
  unfold alreadyPatched
  rw [if_neg hvt]
  split <;> rfl

theorem realFactory_foldl (env : PatchEnv) (vt : ℕ) (ss : List Slot) (h : Hooks) :
    (ss.foldl (patchDeviceSlot env vt) h).realCreateDeviceFactory = h.realCreateDeviceFactory ∧
      (ss.foldl (patchDeviceSlot env vt) h).realFactoryCreateDevice
        = h.realFactoryCreateDevice := by
  induction ss generalizing h with
  | nil => exact ⟨rfl, rfl⟩
  | cons s ss ih =>
    rw [List.foldl_cons, (ih _).1, (ih _).2]
    unfold patchDeviceSlot patchSlot
    split
    · exact ⟨rfl, rfl⟩
    · next heq =>
      split at heq
      · cases heq
        exact ⟨rfl, rfl⟩
      · cases heq

/-- A slot that is not writable is as it was. -/
theorem mem_foldl_of_not (env : PatchEnv) (vt : ℕ) {i : ℕ} (ss : List Slot)
    (hss : ∀ s ∈ ss, s.index = i → env.virtualProtect vt i = false) (h : Hooks) :
    (ss.foldl (patchDeviceSlot env vt) h).mem vt i = h.mem vt i := by
  induction ss generalizing h with
  | nil => rfl
  | cons s ss ih =>
    rw [List.foldl_cons, ih fun s' hs' => hss s' (List.mem_cons_of_mem s hs')]
    unfold patchDeviceSlot patchSlot
    by_cases hv : env.virtualProtect vt s.index = true
    · have hne : i ≠ s.index := by
        rintro rfl
        rw [hss s List.mem_cons_self rfl] at hv
        cases hv
      simp [hv, Function.update_of_ne hne]
    · simp [hv]

theorem wrote_device (env : PatchEnv) {h : Hooks} {d : Device} (hvt : d.vtable ∉ h.patched) :
    Wrote env (.device (some d)) d.vtable h (h.step env (.device (some d))) := by
  have hstep : h.step env (.device (some d)) = h.patchDeviceVTable env (some d) := rfl
  rw [hstep]
  simp only [patchDeviceVTable, alreadyPatched_of_not_mem hvt]
  -- an unknown interface: nothing is written, though the vtable is marked
  cases hv : env.probeMaxDeviceVersion d with
  | none =>
    have hnone : writes env (.device (some d)) = [] := by simp [writes, hv]
    constructor
    case others => exact fun _ _ => rfl
    case untouched => exact fun _ _ => rfl
    case hooked =>
      intro i hi
      simp [hnone] at hi
    case stored => exact fun f hf => Or.inl hf
    case kept =>
      intro i hi
      simp [hnone] at hi
    case silent => exact fun _ => ⟨rfl, rfl, rfl⟩
    case seen => rfl
  | some v =>
    have hmem : ∀ i, i ∈ writes env (.device (some d)) ↔
        (∃ s ∈ slotsUpTo v, s.index = i) ∧ env.virtualProtect d.vtable i = true := by
      intro i
      simp [writes, hv]
    have hp := patched_foldl env d.vtable (slotsUpTo v) (nodup_slotsUpTo v)
      { h with patched := if h.patched.length < 8 then h.patched ++ [d.vtable] else h.patched }
    obtain ⟨hsdk, hfactory⟩ := realFactory_foldl env d.vtable (slotsUpTo v)
      { h with patched := if h.patched.length < 8 then h.patched ++ [d.vtable] else h.patched }
    constructor
    case others => exact hp.others
    case untouched =>
      intro i hi
      refine mem_foldl_of_not env d.vtable (slotsUpTo v) (fun s hs hsi => ?_) _
      by_contra hwritable
      exact hi ((hmem i).mpr ⟨⟨s, hs, hsi⟩, Bool.not_eq_false _ ▸ hwritable⟩)
    case hooked =>
      intro i hi
      obtain ⟨⟨s, hs, rfl⟩, hwritable⟩ := (hmem i).mp hi
      exact ⟨.device s, hp.hooked s hs hwritable⟩
    -- a stored function was stored before, or read from a slot written here
    case stored =>
      rintro f (⟨s, hs⟩ | hf | hf)
      · by_cases hpatched : s ∈ slotsUpTo v ∧ env.virtualProtect d.vtable s.index = true
        · refine Or.inr ⟨s.index, (hmem _).mpr ⟨⟨s, hpatched.1, rfl⟩, hpatched.2⟩, ?_⟩
          rw [hp.stored s hpatched.1 hpatched.2] at hs
          exact (Option.some.inj hs).symm
        · rw [hp.kept s hpatched] at hs
          exact Or.inl (Or.inl ⟨s, hs⟩)
      · exact Or.inl (Or.inr (Or.inl (hsdk ▸ hf)))
      · exact Or.inl (Or.inr (Or.inr (hfactory ▸ hf)))
    case kept =>
      intro i hi
      obtain ⟨⟨s, hs, rfl⟩, hwritable⟩ := (hmem i).mp hi
      exact Or.inl ⟨s, hp.stored s hs hwritable⟩
    case silent =>
      intro hnone
      refine ⟨funext fun s => hp.kept s ?_, hsdk, hfactory⟩
      rintro ⟨hs, hwritable⟩
      have hmem' := (hmem s.index).mpr ⟨⟨s, hs, rfl⟩, hwritable⟩
      simp [hnone] at hmem'
    case seen => exact hp.seen

/-- An attempt that overwrites one slot, and stores what stood there. -/
theorem wrote_one (env : PatchEnv) {h : Hooks} {x : Patch} {vt index : ℕ} {k : Hook}
    (store : Hooks → Fn → Hooks) (hwrites : writes env x = [index].filter (env.virtualProtect vt))
    (hmem : ∀ h f, (store h f).mem = h.mem) (hseen : ∀ h f, (store h f).patched = h.patched)
    (hkeeps : ∀ h f g, (store h f).Keeps g → h.Keeps g ∨ g = f)
    (hkept : ∀ h f, (store h f).Keeps f) :
    Wrote env x vt h
      (match ({ h with
          patched := if h.patched.length < 8 then h.patched ++ [vt] else h.patched } :
            Hooks).patchSlot env vt index k with
        | none => { h with
            patched := if h.patched.length < 8 then h.patched ++ [vt] else h.patched }
        | some (prev, h) => store h prev) := by
  unfold patchSlot
  -- one write, when the page can be unlocked
  by_cases hv : env.virtualProtect vt index = true
  · have hone : writes env x = [index] := by simp [hwrites, hv]
    simp only [hv, if_true]
    constructor
    case others =>
      intro vt' hvt'
      rw [hmem]
      exact Function.update_of_ne hvt' _ _
    case untouched =>
      intro i hi
      rw [hone, List.mem_singleton] at hi
      rw [hmem]
      simp [Function.update_of_ne hi]
    case hooked =>
      intro i hi
      rw [hone, List.mem_singleton] at hi
      subst hi
      refine ⟨k, ?_⟩
      rw [hmem]
      simp
    case stored =>
      intro f hf
      rcases hkeeps _ _ f hf with hf | hf
      · exact Or.inl hf
      · exact Or.inr ⟨index, by simp [hone], hf⟩
    case kept =>
      intro i hi
      rw [hone, List.mem_singleton] at hi
      subst hi
      exact hkept _ _
    case silent =>
      intro hnone
      simp [hone] at hnone
    case seen => rw [hseen]
  · have hnone : writes env x = [] := by simp [hwrites, hv]
    simp only [hv]
    constructor
    case others => exact fun _ _ => rfl
    case untouched => exact fun _ _ => rfl
    case hooked =>
      intro i hi
      simp [hnone] at hi
    case stored => exact fun f hf => Or.inl hf
    case kept =>
      intro i hi
      simp [hnone] at hi
    case silent => exact fun _ => ⟨rfl, rfl, rfl⟩
    case seen => rfl

/-- **An attempt that is not turned away.** -/
theorem wrote_step (env : PatchEnv) {h : Hooks} {x : Patch} {vt : ℕ} (hx : x.vtable = some vt)
    (hvt : vt ∉ h.patched) : Wrote env x vt h (h.step env x) := by
  cases x with
  | device d =>
    obtain ⟨d, rfl, rfl⟩ := Option.map_eq_some_iff.mp hx
    exact wrote_device env hvt
  | factory vt' =>
    cases hx
    have hstep : h.step env (.factory vt) = h.hookCreateDeviceFactory env vt := rfl
    rw [hstep]
    simp only [hookCreateDeviceFactory, alreadyPatched_of_not_mem hvt]
    refine wrote_one env (fun h f => { h with realFactoryCreateDevice := some f }) rfl
      (fun _ _ => rfl) (fun _ _ => rfl) ?_ fun _ _ => Or.inr (Or.inr rfl)
    rintro h f g (hg | hg | hg)
    · exact Or.inl (Or.inl hg)
    · exact Or.inl (Or.inr (Or.inl hg))
    · exact Or.inr (Option.some.inj hg).symm
  | sdkConfig vt' =>
    cases hx
    have hstep : h.step env (.sdkConfig vt) = h.hookD3D12GetInterface env vt := rfl
    rw [hstep]
    simp only [hookD3D12GetInterface, alreadyPatched_of_not_mem hvt]
    refine wrote_one env (fun h f => { h with realCreateDeviceFactory := some f }) rfl
      (fun _ _ => rfl) (fun _ _ => rfl) ?_ fun _ _ => Or.inr (Or.inl rfl)
    rintro h f g (hg | hg | hg)
    · exact Or.inl (Or.inl hg)
    · exact Or.inr (Option.some.inj hg).symm
    · exact Or.inl (Or.inr (Or.inr hg))

/-! ### Runs -/

theorem run_concat (env : PatchEnv) (mem : ℕ → ℕ → Fn) (us : List Patch) (x : Patch) :
    run env mem (us ++ [x]) = (run env mem us).step env x := Machine.run_concat _ _ us x

theorem traced_concat (env : PatchEnv) (mem : ℕ → ℕ → Fn) (us : List Patch) (x : Patch) :
    traced env mem (us ++ [x]) = tracedStep env (traced env mem us) x :=
  Machine.run_concat _ _ us x

theorem traced_fst (env : PatchEnv) (mem : ℕ → ℕ → Fn) (us : List Patch) :
    (traced env mem us).1 = run env mem us := by
  induction us using List.reverseRecOn with
  | nil => rfl
  | append_singleton us x ih =>
    rw [traced_concat, run_concat, tracedStep, ih]

/-- **The set holds the first eight vtables.** -/
theorem patched_run (env : PatchEnv) (mem : ℕ → ℕ → Fn) (us : List Patch) :
    (run env mem us).patched = firstEight us := by
  induction us using List.reverseRecOn with
  | nil => rfl
  | append_singleton us x ih =>
    rw [run_concat]
    unfold firstEight
    rw [List.filterMap_append]
    cases hx : x.vtable with
    | none =>
      rw [step_of_null env hx, ih]
      simp [firstEight, hx]
    | some vt =>
      have hone : List.filterMap Patch.vtable [x] = [vt] := by simp [hx]
      rw [hone, distinct_concat]
      unfold firstEight at ih
      by_cases hvt : vt ∈ (run env mem us).patched
      · rw [step_of_mem env hx hvt, ih, if_pos]
        rw [ih] at hvt
        exact List.mem_of_mem_take hvt
      · rw [(wrote_step env hx hvt).seen, ih]
        rw [ih] at hvt
        rcases Nat.lt_or_ge (distinct (us.filterMap Patch.vtable)).length 8 with hlt | hge
        · rw [List.take_of_length_le (Nat.le_of_lt hlt)] at hvt ⊢
          rw [if_pos hlt, if_neg hvt, List.take_of_length_le]
          simp
          omega
        · -- the set is full
          rw [if_neg (by simp; omega)]
          split
          · rfl
          · rw [List.take_append_of_le_length hge]

/-- The set only grows. -/
theorem mem_firstEight_append {us vs : List Patch} {vt : ℕ} (h : vt ∈ firstEight us) :
    vt ∈ firstEight (us ++ vs) := by
  induction vs using List.reverseRecOn with
  | nil => rwa [List.append_nil]
  | append_singleton vs x ih =>
    rw [← List.append_assoc]
    unfold firstEight at ih ⊢
    rw [List.filterMap_append]
    cases hx : x.vtable with
    | none => simpa [hx] using ih
    | some vt' =>
      have hone : List.filterMap Patch.vtable [x] = [vt'] := by simp [hx]
      rw [hone, distinct_concat]
      split
      · exact ih
      · rw [List.take_append]
        exact List.mem_append_left _ ih

theorem nodup_writes (env : PatchEnv) (x : Patch) : (writes env x).Nodup := by
  cases x with
  | device d =>
    cases d with
    | none => exact List.nodup_nil
    | some d =>
      unfold writes
      dsimp only
      split
      · exact List.nodup_nil
      · exact ((nodup_slotsUpTo _).map Slot.index_injective).filter _
  | factory vt => exact (List.nodup_singleton _).filter _
  | sdkConfig vt => exact (List.nodup_singleton _).filter _

/-- What was overwritten was overwritten by an attempt at its vtable. -/
theorem exists_of_mem_traced {env : PatchEnv} {mem : ℕ → ℕ → Fn} {us : List Patch} {p : ℕ × ℕ}
    (hp : p ∈ (traced env mem us).2) :
    ∃ u ∈ us, u.vtable = some p.1 ∧ writes env u ≠ [] := by
  induction us using List.reverseRecOn with
  | nil => cases hp
  | append_singleton us x ih =>
    rw [traced_concat, tracedStep, List.mem_append] at hp
    rcases hp with hp | hp
    · obtain ⟨u, hu, hvt, hne⟩ := ih hp
      exact ⟨u, List.mem_append_left _ hu, hvt, hne⟩
    · unfold overwritten at hp
      cases hx : x.vtable with
      | none => simp [hx] at hp
      | some vt =>
        simp only [hx] at hp
        split at hp
        · cases hp
        · obtain ⟨i, hi, rfl⟩ := List.mem_map.mp hp
          exact ⟨x, by simp, hx, List.ne_nil_of_mem hi⟩

/-- What holds as long as no later vtable is patched again. -/
structure Clean (mem : ℕ → ℕ → Fn) (s : Hooks × List (ℕ × ℕ)) : Prop where
  slots : ∀ vt i, (vt, i) ∉ s.2 → s.1.mem vt i = mem vt i
  once : s.2.Nodup
  real : ∀ k, ¬s.1.Keeps (.hook k)

theorem clean_step {env : PatchEnv} {mem : ℕ → ℕ → Fn} (hmem : ∀ vt i k, mem vt i ≠ .hook k)
    {us : List Patch} (h : Clean mem (traced env mem us)) {x : Patch}
    (hx : ∀ vt, x.vtable = some vt → vt ∉ firstEight us → writes env x ≠ [] →
      ∀ u ∈ us, u.vtable = some vt → writes env u = []) :
    Clean mem (traced env mem (us ++ [x])) := by
  rw [traced_concat]
  unfold tracedStep overwritten
  cases hv : x.vtable with
  | none =>
    rw [step_of_null env hv, List.append_nil]
    exact h
  | some vt =>
    dsimp only
    by_cases hvt : vt ∈ (traced env mem us).1.patched
    · rw [step_of_mem env hv hvt, if_pos hvt, List.append_nil]
      exact h
    · have hw := wrote_step env hv hvt
      rw [if_neg hvt]
      -- nothing was overwritten in this vtable, so all its slots are real
      have hfresh : writes env x ≠ [] → ∀ i, (vt, i) ∉ (traced env mem us).2 := by
        intro hne i hi
        obtain ⟨u, hu, huvt, hune⟩ := exists_of_mem_traced hi
        rw [traced_fst, patched_run] at hvt
        exact hune (hx vt hv hvt hne u hu huvt)
      constructor
      · intro vt' i hi
        rw [List.mem_append, not_or] at hi
        by_cases hvv : vt' = vt
        · subst hvv
          rw [hw.untouched i fun hi' => hi.2 (List.mem_map_of_mem hi'), h.slots vt' i hi.1]
        · rw [hw.others vt' hvv, h.slots vt' i hi.1]
      · refine List.nodup_append.mpr ⟨h.once, ?_, ?_⟩
        · exact (nodup_writes env x).map fun i j hij => (Prod.mk.inj hij).2
        · rintro p hp q hq rfl
          obtain ⟨i, hi, rfl⟩ := List.mem_map.mp hq
          exact hfresh (List.ne_nil_of_mem hi) i hp
      · intro k hk
        rcases hw.stored _ hk with hk | ⟨i, hi, hk⟩
        · exact h.real k hk
        · rw [h.slots vt i (hfresh (List.ne_nil_of_mem hi) i)] at hk
          exact hmem vt i k hk.symm

theorem clean_run {env : PatchEnv} {mem : ℕ → ℕ → Fn} (hmem : ∀ vt i k, mem vt i ≠ .hook k)
    {xs : List Patch} (h : ¬Repatches env xs) : Clean mem (traced env mem xs) := by
  induction xs using List.reverseRecOn with
  | nil =>
    refine ⟨fun _ _ _ => rfl, List.nodup_nil, ?_⟩
    rintro k (⟨s, hs⟩ | hk | hk)
    · cases hs
    · cases hk
    · cases hk
  | append_singleton us x ih =>
    have hus : ¬Repatches env us := by
      rintro ⟨vs, y, ws, rfl, hy⟩
      exact h ⟨vs, y, ws ++ [x], by simp, hy⟩
    refine clean_step hmem (ih hus) fun vt hv hvt hne u hu huvt => ?_
    by_contra hune
    exact h ⟨us, x, [], rfl, vt, hv, hvt, hne, u, hu, huvt, hune⟩

/-- An attempt at a vtable that is never in the set overwrites its slots. -/
theorem mem_traced {env : PatchEnv} {mem : ℕ → ℕ → Fn} {us : List Patch} {u : Patch} {vt : ℕ}
    (hu : u ∈ us) (huvt : u.vtable = some vt) (hune : writes env u ≠ [])
    (hvt : vt ∉ firstEight us) : vt ∈ (traced env mem us).2.map Prod.fst := by
  obtain ⟨i, hi⟩ := List.exists_mem_of_ne_nil _ hune
  induction us using List.reverseRecOn with
  | nil => cases hu
  | append_singleton us x ih =>
    have hvt' : vt ∉ firstEight us := fun h => hvt (mem_firstEight_append h)
    rw [traced_concat, tracedStep, List.map_append, List.mem_append]
    rcases List.mem_append.mp hu with hu | hu
    · exact Or.inl (ih hu hvt')
    · right
      cases List.mem_singleton.mp hu
      have hseen : vt ∉ (traced env mem us).1.patched := by
        rw [traced_fst, patched_run]
        exact hvt'
      have hover : overwritten env (traced env mem us).1 u
          = (writes env u).map fun i => (vt, i) := by
        unfold overwritten
        rw [huvt]
        exact if_neg hseen
      rw [hover]
      exact List.mem_map.mpr ⟨(vt, i), List.mem_map_of_mem hi, rfl⟩

/-- **Patching is idempotent exactly if no vtable after the eighth is patched again**, in a process
whose vtables hold none of the hooks to begin with. -/
theorem idempotent_iff (env : PatchEnv) {mem : ℕ → ℕ → Fn} (hmem : ∀ vt i k, mem vt i ≠ .hook k)
    (xs : List Patch) : Idempotent env mem xs ↔ ¬Repatches env xs := by
  constructor
  · rintro h ⟨us, x, vs, rfl, vt, hx, hvt, hne, u, hu, huvt, hune⟩
    obtain ⟨i, hi⟩ := List.exists_mem_of_ne_nil _ hne
    have hseen : vt ∉ (run env mem us).patched := by rwa [patched_run]
    have hw := wrote_step env hx hseen
    have hquiet := (h.quiet us x vs rfl vt hx (mem_traced hu huvt hune hvt)).1
    obtain ⟨k, hk⟩ := hw.hooked i hi
    -- the slot held the hook before, and that is what is stored now
    rw [hquiet] at hk
    have hkept := hw.kept i hi
    rw [hk, ← run_concat] at hkept
    exact h.real (us ++ [x]) ⟨vs, by simp⟩ k hkept
  · intro h
    refine ⟨(clean_run hmem h).once, ?_, ?_⟩
    · rintro us x vs rfl vt hx hvt
      by_cases hseen : vt ∈ (run env mem us).patched
      · rw [step_of_mem env hx hseen]
        exact ⟨rfl, rfl, rfl, rfl⟩
      · have hw := wrote_step env hx hseen
        rw [patched_run] at hseen
        obtain ⟨p, hp, rfl⟩ := List.mem_map.mp hvt
        obtain ⟨u, hu, huvt, hune⟩ := exists_of_mem_traced hp
        have hnil : writes env x = [] := by
          by_contra hne
          exact h ⟨us, x, vs, rfl, p.1, hx, hseen, hne, u, hu, huvt, hune⟩
        exact ⟨funext fun i => hw.untouched i (by simp [hnil]), hw.silent hnil⟩
    · rintro us ⟨vs, rfl⟩ k
      have hus : ¬Repatches env us := by
        rintro ⟨ws, y, zs, rfl, hy⟩
        exact h ⟨ws, y, zs ++ vs, by simp, hy⟩
      rw [← traced_fst]
      exact (clean_run hmem hus).real k

/-- A device is patched, and passed to `PatchDeviceVTable` again. -/
def patchedAgain : List Patch := [.device (some (deviceAt 100)), .device (some (deviceAt 100))]

/-- Nine factories, and the ninth again. -/
def ninthAgain : List Patch := (List.range 9).map .factory ++ [.factory 8]

theorem driverMem_real (other vt i : ℕ) (k : Hook) : driverMem other vt i ≠ .hook k := by
  unfold driverMem
  split <;> exact Fn.noConfusion

theorem idempotent_iff_patchedAgain : Idempotent {} (driverMem 1000) patchedAgain := by
  refine (idempotent_iff {} (driverMem_real 1000) patchedAgain).mpr ?_
  rintro ⟨us, x, vs, hsplit, vt, hx, hvt, -, u, hu, huvt, -⟩
  rcases us with _ | ⟨u₁, _ | ⟨u₂, us⟩⟩
  · cases hu
  · obtain ⟨rfl, -⟩ := List.cons.inj hsplit
    cases List.mem_singleton.mp hu
    cases huvt
    exact hvt (by decide)
  · simp [patchedAgain] at hsplit

/-- The hook of the ninth factory is stored as the original. -/
theorem not_idempotent_ninthAgain :
    ¬∀ (env : PatchEnv) (mem : ℕ → ℕ → Fn) (xs : List Patch), (∀ vt i k, mem vt i ≠ .hook k) →
      Idempotent env mem xs := by
  intro h
  have hreal := (h {} (driverMem 1000) ninthAgain (driverMem_real 1000)).real ninthAgain
    List.prefix_rfl .factoryCreateDevice
  exact hreal (Or.inr (Or.inr (by decide)))

end Hooks

end Dx12Track
