import Dx12Track.MinHook.Patch
import Dx12Track.Lib.Run

/-!
# Runs of the hooks

Every call keeps the invariant, also where it fails in the middle.

* `Done`, `switchAll_ok` — a call that switches every hook, and does not fail.
* `Inv.add`, `Inv.remove` — entries come and go.
* `inv_call`, `inv_run` — **every call keeps the invariant**, and so does a run.
-/

namespace Dx12Track.MinHook

open Jumps

section

variable {P : Place} {m₀ : Memory} {asked : ℕ → ℕ} {extra : List ℕ} {e : Engine}

variable {si : SystemInfo} {os : HookOs si}

/-! ### When every hook was switched -/

/-- The hooks before `pos` are as `action` wants them. -/
def Done (action : Action) (pos : ℕ) (hooks : List HookEntry) : Prop :=
  ∀ i < pos, ∀ x, hooks[i]? = some x → x.isEnabled = action.wants x

/-- A hook that is as the call wants it. -/
theorem Done.succ {action : Action} {pos : ℕ} {hooks : List HookEntry} (h : Done action pos hooks)
    {hook : HookEntry} (hget : hooks[pos]? = some hook)
    (hwants : hook.isEnabled = action.wants hook) : Done action (pos + 1) hooks := by
  intro i hi x hx
  rcases Nat.lt_succ_iff_lt_or_eq.mp hi with hlt | rfl
  · exact h i hlt x hx
  · rw [hget] at hx
    exact Option.some.inj hx ▸ hwants

/-- A hook that was just switched. -/
theorem Done.switch {action : Action} {pos : ℕ} (h : Done action pos e.hooks) {hook : HookEntry}
    (hget : e.hooks[pos]? = some hook) :
    Done action (pos + 1) (switch e pos hook (action.wants hook)).hooks := by
  refine Done.succ (fun i hi x hx => h i hi x ?_)
    (List.getElem?_set_self (List.getElem?_eq_some_iff.mp hget).1) ?_
  · have hne : pos ≠ i := (Nat.ne_of_lt hi).symm
    rw [← List.getElem?_set_ne hne]
    exact hx
  · cases action with
    | disable => rfl
    | enable => rfl
    | applyQueued => rfl

/-- At the end of the table every hook is. -/
theorem Done.all {action : Action} {pos : ℕ} {hooks : List HookEntry} (h : Done action pos hooks)
    (hle : hooks.length ≤ pos) : ∀ x ∈ hooks, x.isEnabled = action.wants x := by
  intro x hx
  obtain ⟨i, hi⟩ := List.getElem?_of_mem hx
  exact h i ((List.getElem?_eq_some_iff.mp hi).1.trans_le hle) x hi

/-- **The loop leaves every hook as it should be**, if it does not fail. -/
theorem switchLoop_ok {action : Action} {left pos : ℕ} {e : Engine}
    (hok : (switchLoop os action left pos e).1 = .ok) (hlength : e.hooks.length ≤ pos + left)
    (hdone : Done action pos e.hooks) :
    ∀ x ∈ (switchLoop os action left pos e).2.hooks, x.isEnabled = action.wants x := by
  induction left generalizing pos e with
  | zero => exact hdone.all hlength
  | succ left ih =>
    cases hget : e.hooks[pos]? with
    | none =>
      rw [switchLoop_none os action _ hget]
      exact hdone.all (List.getElem?_eq_none_iff.mp hget)
    | some hook =>
      rcases switchLoop_cases os action left hget with ⟨hwants, heq⟩ | heq | heq
      · rw [heq] at hok ⊢
        exact ih hok (by omega) (hdone.succ hget hwants)
      · rw [heq] at hok
        cases hok
      · rw [heq] at hok ⊢
        refine ih hok ?_ (hdone.switch hget)
        show (e.hooks.set pos _).length ≤ _
        rw [List.length_set]
        omega

/-- **All hooks are switched** by a call that does not fail. -/
theorem switchAll_ok {action : Action} {e : Engine} (hok : (switchAll os action e).1 = .ok) :
    ∀ x ∈ (switchAll os action e).2.hooks, x.isEnabled = action.wants x := by
  unfold switchAll at hok ⊢
  cases hfind : e.hooks.findIdx? fun h => h.isEnabled ≠ action.wants h with
  | none =>
    intro x hx
    simpa using List.findIdx?_eq_none_iff.mp hfind x hx
  | some first =>
    rw [hfind] at hok
    cases hfreeze : freeze os e e.hooks action with
    | none =>
      rw [hfreeze] at hok
      cases hok
    | some e' =>
      rw [hfreeze] at hok
      have hhooks := freeze_hooks hfreeze
      refine switchLoop_ok hok (by omega) fun i hi x hx => ?_
      obtain ⟨hlt, -, hbefore⟩ := List.findIdx?_eq_some_iff_getElem.mp hfind
      rw [hhooks] at hx
      obtain ⟨hi', rfl⟩ := List.getElem?_eq_some_iff.mp hx
      simpa using hbefore i hi

/-! ### Entries that come and go -/

/-- The last entry takes the place of the removed one, and none is lost. -/
theorem swapRemove_perm {hooks : List HookEntry} {pos : ℕ} {hook : HookEntry}
    (hget : hooks[pos]? = some hook) : hooks.Perm (hook :: swapRemove hooks pos) := by
  obtain ⟨hlt, hget⟩ := List.getElem?_eq_some_iff.mp hget
  obtain ⟨us, vs, rfl, rfl⟩ : ∃ us vs, hooks = us ++ hook :: vs ∧ us.length = pos :=
    ⟨hooks.take pos, hooks.drop (pos + 1), by
      rw [← hget, ← List.drop_eq_getElem_cons, List.take_append_drop],
      List.length_take_of_le hlt.le⟩
  cases vs using List.reverseRecOn with
  | nil =>
    have hremove : swapRemove (us ++ [hook]) us.length = us := by
      simp [swapRemove]
    rw [hremove]
    exact List.perm_append_singleton hook us
  | append_singleton vs last =>
    have hremove : swapRemove (us ++ hook :: (vs ++ [last])) us.length = us ++ last :: vs := by
      have hlast : (us ++ hook :: (vs ++ [last])).getLast? = some last := by
        rw [← List.cons_append, ← List.append_assoc, List.getLast?_concat]
      have hset : (us ++ hook :: (vs ++ [last])).set us.length last =
          (us ++ last :: vs) ++ [last] := by simp
      rw [swapRemove, hlast]
      show ((us ++ hook :: (vs ++ [last])).set us.length last).dropLast = _
      rw [hset, List.dropLast_concat]
    rw [hremove]
    refine List.perm_middle.trans (List.Perm.cons hook (List.Perm.append_left us ?_))
    exact List.perm_append_singleton last vs

/-- **An entry goes**, with its trampoline. -/
theorem Inv.remove (h : Inv P m₀ asked [] e) {pos : ℕ} {hook : HookEntry}
    (hget : e.hooks[pos]? = some hook) (hoff : hook.isEnabled = false) :
    Inv P m₀ asked []
      (deleteHookEntry os { e with buffers := freeBuffer e.buffers hook.pTrampoline } pos) := by
  have hperm := swapRemove_perm hget
  have hrest : ∀ x ∈ swapRemove e.hooks pos, x ∈ e.hooks := fun x hx =>
    hperm.mem_iff.mpr (List.mem_cons_of_mem _ hx)
  have hlength : e.hooks.length = (swapRemove e.hooks pos).length + 1 := hperm.length_eq
  have hpool : e.buffers.Inv
      (hook.pTrampoline :: (swapRemove e.hooks pos).map HookEntry.pTrampoline) :=
    ⟨h.pool.pool.perm (hperm.map HookEntry.pTrampoline), h.pool.busy⟩
  obtain ⟨hinv, hframe, hpages⟩ := freed hpool
  have hframe' := hframe.mono h.pages
  exact
    { idle := fun hidle => by
        have hempty := h.idle hidle
        rw [hempty] at hlength
        exact absurd hlength.symm (Nat.succ_ne_zero _)
      room := by
        refine ⟨?_, fun hempty => ?_, fun hallocated => ?_⟩
        · show (swapRemove e.hooks pos).length ≤ if _ then _ else e.capacity
          have hle := h.room.length_le
          split
          · next hshrinks => exact hshrinks.1.2
          · omega
        · have hempty := h.room.empty hempty
          rw [hempty] at hlength
          exact absurd hlength.symm (Nat.succ_ne_zero _)
        · show initialHookCapacity ≤ if _ then _ else _
          split
          · next hshrinks => exact hshrinks.1.1
          · exact h.room.le_capacity hallocated
      distinct := (List.nodup_cons.mp ((hperm.map HookEntry.pTarget).nodup_iff.mp h.distinct)).2
      targets := fun x hx => h.targets x (hrest x hx)
      pool := hinv
      pages := fun b hb => h.pages b (hpages b hb)
      sound := fun x hx => h.sound x (hrest x hx)
      asked_lt := fun x hx => h.asked_lt x (hrest x hx)
      relay := fun x hx => (h.relay x (hrest x hx)).congr fun i hle hlt =>
        hframe'.slots _ (List.mem_map_of_mem hx) i ((h.sound x (hrest x hx)).inSlot hle hlt)
      patch := fun x hx hen => by
        have hmem := hrest x hx
        refine (h.patch x hmem hen).congr fun i hle hlt => hframe'.outside i fun b hb => ?_
        rw [x.length_patch] at hlt
        exact P.not_inPage (h.targets x hmem) ((h.sound x hmem).inArea ⟨hle, hlt⟩) hb
      code := fun i hi hpatch => by
        refine (hframe'.outside i hi).trans (h.code i hi fun x hx hen => ?_)
        rcases List.mem_cons.mp (hperm.mem_iff.mp hx) with rfl | hmem
        · rw [hoff] at hen
          cases hen
        · exact hpatch x hmem hen }

/-- **`AddHookEntry`** makes room, or fails; the rest of the state is as it was. -/
theorem addHookEntry_spec (h : Room e) {done : Bool} {e' : Engine}
    (hadd : addHookEntry os e = (done, e')) :
    (∃ allocated capacity, e' = { e with allocated := allocated, capacity := capacity }) ∧ Room e' ∧
      (done = true → e'.allocated = true ∧ e.hooks.length < e'.capacity) := by
  have hcap : 0 < initialHookCapacity := by decide
  obtain ⟨hlength, hempty, hle⟩ := h
  unfold addHookEntry at hadd
  split at hadd
  · next hfalse =>
    have hnil := hempty hfalse
    have hroom : e.hooks.length ≤ initialHookCapacity := by
      rw [hnil]
      exact Nat.zero_le _
    split at hadd
    · cases hadd
      refine ⟨⟨true, _, rfl⟩, ⟨hroom, fun h' => absurd h'.symm Bool.false_ne_true,
        fun _ => Nat.le_refl _⟩, fun _ => ⟨rfl, ?_⟩⟩
      show e.hooks.length < initialHookCapacity
      rw [hnil]
      exact hcap
    · cases hadd
      exact ⟨⟨e.allocated, _, rfl⟩, ⟨hroom, hempty, fun h' => Nat.le_refl _⟩,
        fun h' => absurd h' Bool.false_ne_true⟩
  · next htrue =>
    have hallocated : e.allocated = true := by simpa using htrue
    have hpos := hle hallocated
    split at hadd
    · next hfull =>
      split at hadd
      · cases hadd
        refine ⟨⟨e.allocated, _, rfl⟩, ⟨?_, hempty, fun h' => ?_⟩, fun _ => ⟨hallocated, ?_⟩⟩
        · show e.hooks.length ≤ e.capacity * 2
          omega
        · show initialHookCapacity ≤ e.capacity * 2
          omega
        · show e.hooks.length < e.capacity * 2
          omega
      · cases hadd
        exact ⟨⟨e.allocated, _, rfl⟩, ⟨hlength, hempty, hle⟩,
          fun h' => absurd h' Bool.false_ne_true⟩
    · next hfull =>
      cases hadd
      exact ⟨⟨e.allocated, _, rfl⟩, ⟨hlength, hempty, hle⟩,
        fun _ => ⟨hallocated, Nat.lt_of_not_le hfull⟩⟩

/-- The table may be allocated anew. -/
theorem Inv.setRoom (h : Inv P m₀ asked extra e) {allocated : Bool} {capacity : ℕ}
    (hroom : Room { e with allocated := allocated, capacity := capacity }) :
    Inv P m₀ asked extra { e with allocated := allocated, capacity := capacity } :=
  ⟨h.idle, hroom, h.distinct, h.targets, h.pool, h.pages, h.sound, h.asked_lt, h.relay, h.patch,
    h.code⟩

/-- What is asked for another function does not matter. -/
theorem Inv.ask (h : Inv P m₀ asked extra e) {pTarget : ℕ}
    (hnew : pTarget ∉ e.hooks.map HookEntry.pTarget) (pDetour : ℕ) :
    Inv P m₀ (Function.update asked pTarget pDetour) extra e := by
  have hother : ∀ x ∈ e.hooks, Function.update asked pTarget pDetour x.pTarget = asked x.pTarget :=
    fun x hx => Function.update_of_ne (fun heq => hnew (List.mem_map.mpr ⟨x, hx, heq⟩)) _ _
  exact
    { h with
      asked_lt := fun x hx => by
        rw [hother x hx]
        exact h.asked_lt x hx
      relay := fun x hx => by
        rw [hother x hx]
        exact h.relay x hx }

/-- **An entry is added**, for a trampoline that is in a slot of its own. -/
theorem Inv.add {t : Trampoline} (h : Inv P m₀ asked [t.pTrampoline] e)
    (hinit : e.initialized = true)
    (hallocated : e.allocated = true) (hroom : e.hooks.length < e.capacity)
    {executable : ℕ → Bool} (hfits : t.Fits executable e.mem)
    (htarget : P.targets t.pTarget) (hnew : t.pTarget ∉ e.hooks.map HookEntry.pTarget)
    (hnear : Near t.pTarget t.pTrampoline) (habove : t.patchAbove = true → jmpRelSize ≤ t.pTarget)
    (hpos : 0 < t.pTarget) (hlt : t.pTarget < 2 ^ 47) (hdetour : t.pDetour < 2 ^ 47) :
    Inv P m₀ (Function.update asked t.pTarget t.pDetour) []
      { e with hooks := e.hooks ++ [newEntry e.mem t] } := by
  have hask := h.ask hnew t.pDetour
  have hcode : ∀ i, InArea t.pTarget i → e.mem i = m₀ i := by
    intro i hi
    refine h.code i (fun b hb => P.not_inPage htarget hi hb) fun x hx hen hxi => hnew ?_
    rw [P.eq_of_inArea htarget (h.targets x hx) hi ((h.sound x hx).inArea hxi)]
    exact List.mem_map_of_mem hx
  have hsound : (newEntry e.mem t).Sound m₀ := by
    have hpre : HookEntry.Sound e.mem (newEntry e.mem t) :=
      ⟨hnear, hfits.le_relay, hfits.relay_le, hfits.boundaries, habove, hpos, hlt, rfl⟩
    refine ⟨hnear, hfits.le_relay, hfits.relay_le, hfits.boundaries, habove, hpos, hlt, ?_⟩
    exact Memory.read_congr fun i hle hlt' => hcode i (hpre.inArea ⟨hle, hlt'⟩)
  have hcases : ∀ x ∈ e.hooks ++ [newEntry e.mem t], x ∈ e.hooks ∨ x = newEntry e.mem t := by
    intro x hx
    rcases List.mem_append.mp hx with hx | hx
    · exact Or.inl hx
    · exact Or.inr (List.mem_singleton.mp hx)
  exact
    { idle := fun hidle => by
        rw [show e.initialized = false from hidle] at hinit
        cases hinit
      room := by
        refine ⟨?_, fun hfalse => ?_, h.room.le_capacity⟩
        · show (e.hooks ++ [newEntry e.mem t]).length ≤ e.capacity
          rw [List.length_append, List.length_singleton]
          exact hroom
        · rw [show e.allocated = false from hfalse] at hallocated
          cases hallocated
      distinct := by
        show ((e.hooks ++ [newEntry e.mem t]).map HookEntry.pTarget).Nodup
        rw [List.map_append, List.nodup_append_comm]
        exact List.nodup_cons.mpr ⟨hnew, h.distinct⟩
      targets := fun x hx => by
        rcases hcases x hx with hx | rfl
        · exact h.targets x hx
        · exact htarget
      pool := by
        show Buffers.Inv _ ((e.hooks ++ [newEntry e.mem t]).map HookEntry.pTrampoline)
        rw [List.map_append]
        exact ⟨h.pool.pool.perm (List.perm_append_singleton _ _).symm, h.pool.busy⟩
      pages := h.pages
      sound := fun x hx => by
        rcases hcases x hx with hx | rfl
        · exact h.sound x hx
        · exact hsound
      asked_lt := fun x hx => by
        rcases hcases x hx with hx | rfl
        · exact hask.asked_lt x hx
        · show Function.update asked t.pTarget t.pDetour t.pTarget < 2 ^ 47
          rw [Function.update_self]
          exact hdetour
      relay := fun x hx => by
        rcases hcases x hx with hx | rfl
        · exact hask.relay x hx
        · show e.mem.Holds t.pRelay (jmpAbs (Function.update asked t.pTarget t.pDetour t.pTarget))
          rw [Function.update_self]
          exact hfits.relay
      patch := fun x hx hen => by
        rcases hcases x hx with hx | rfl
        · exact h.patch x hx hen
        · cases hen
      code := fun i hi hpatch => h.code i hi fun x hx hen =>
        hpatch x (List.mem_append_left _ hx) hen }

/-! ### The calls -/

/-- A run stays in its place: only such functions are hooked, and only such pages are granted. -/
structure Place.Allows (P : Place) (os : HookOs si) (c : Call) : Prop where
  pages : ∀ b, os.virtualAlloc b = true → P.pages b
  targets : ∀ pTarget pDetour, c = .createHook pTarget pDetour → P.targets pTarget

/-- The detours that are asked for, after a call. -/
def askedAfter (asked : ℕ → ℕ) : Call → Status → ℕ → ℕ
  | .createHook pTarget pDetour, .ok => Function.update asked pTarget pDetour
  | _, _ => asked

/-- **`MH_CreateHook` keeps the invariant**, with one more trampoline if it
succeeds. -/
theorem inv_createHook (h : Inv P m₀ asked [] e) (d : Disassembler) {pTarget pDetour : ℕ}
    (hallows : P.Allows os (.createHook pTarget pDetour)) :
    Inv P m₀ (askedAfter asked (.createHook pTarget pDetour)
      (mhCreateHook os d e pTarget pDetour).1) [] (mhCreateHook os d e pTarget pDetour).2 := by
  unfold mhCreateHook
  split
  · exact h
  next hinit =>
  split
  · exact h
  next hex =>
  rw [not_or, Bool.not_eq_false, Bool.not_eq_false] at hex
  obtain ⟨hmin, hmax⟩ := os.executable_range _ hex.1
  have hdetour := (os.executable_range _ hex.2).2
  have hlimit := si.maximum_lt
  have hpos := si.granularity_pos.trans_le si.granularity_le
  split
  · exact h
  next hfind =>
  have hnew : pTarget ∉ e.hooks.map HookEntry.pTarget := by
    intro hmem
    obtain ⟨x, hx, heq⟩ := List.mem_map.mp hmem
    have hnone := List.findIdx?_eq_none_iff.mp hfind x hx
    simp [heq] at hnone
  split
  · exact h
  next pBuffer buffers halloc =>
  have hallocated := allocated h.pool halloc
  obtain ⟨hslot, hresult⟩ := createTrampolineFunction_spec d os.isExecutableAddress buffers.mem
    pTarget pDetour pBuffer
  have hpages : ∀ b ∈ buffers.pages, P.pages b := fun b hb =>
    (hallocated.pages b hb).elim (h.pages b) (hallows.pages b)
  have hmem : ∀ m : Memory, (∀ i, ¬InSlot pBuffer i → m i = buffers.mem i) →
      Inv P m₀ asked [pBuffer] { e with buffers := { buffers with mem := m } } := by
    intro m hm
    have hinv : Buffers.Inv { buffers with mem := m }
        ([pBuffer] ++ e.hooks.map HookEntry.pTrampoline) :=
      ⟨hallocated.inv.pool, hallocated.inv.busy⟩
    exact h.frame hinv hpages ((hallocated.frame_slot hm).mono hpages)
  have hfree : ∀ e : Engine, Inv P m₀ asked [pBuffer] e →
      Inv P m₀ asked [] { e with buffers := freeBuffer e.buffers pBuffer } := by
    intro e he
    obtain ⟨hinv, hframe, hsub⟩ := freed he.pool
    exact he.frame hinv (fun b hb => he.pages b (hsub b hb)) (hframe.mono he.pages)
  split
  · next m heq =>
    rw [heq] at hslot
    exact hfree { e with buffers := { buffers with mem := m } } (hmem m hslot)
  · next m ct heq =>
    rw [heq] at hslot hresult
    obtain ⟨htarget, hct, hbuffer, hfits⟩ := hresult ct rfl
    have hinv := hmem m hslot
    split
    · next e' hadd =>
      obtain ⟨⟨allocated, capacity, rfl⟩, hroom, -⟩ := addHookEntry_spec hinv.room hadd
      exact hfree _ (hinv.setRoom hroom)
    · next e' hadd =>
      obtain ⟨⟨allocated, capacity, rfl⟩, hroom, hdone⟩ := addHookEntry_spec hinv.room hadd
      obtain ⟨halready, hlt⟩ := hdone rfl
      have hready := hinv.setRoom hroom
      subst htarget hct hbuffer
      refine hready.add (by simpa using hinit) halready hlt hfits (hallows.targets _ _ rfl) hnew
        hallocated.near (fun habove => ?_) (by omega) (by omega) (by omega)
      have habove' := (os.executable_range _ (hfits.above habove)).1
      omega

/-- **`MH_RemoveHook` keeps the invariant**: the patch is taken back before the
slot is given back. -/
theorem inv_removeHook (h : Inv P m₀ asked [] e) (pTarget : ℕ) :
    Inv P m₀ asked [] (mhRemoveHook os e pTarget).2 := by
  unfold mhRemoveHook
  split
  · exact h
  split
  · exact h
  next pos hfind =>
  split
  · exact h
  next hook hget =>
  split
  · split
    · exact h
    · next e' hfreeze =>
      have hinv := h.freeze hfreeze
      have hhooks := freeze_hooks hfreeze
      have hget' : e'.hooks[pos]? = some hook := hhooks ▸ hget
      rcases enableHookLL_cases os e' pos hook false with heq | heq
      · rw [heq]
        exact hinv
      · rw [heq]
        have hoff := hinv.switch hget' false
        have hself : (switch e' pos hook false).hooks[pos]? =
            some { hook with isEnabled := false, queueEnable := false } :=
          List.getElem?_set_self (List.getElem?_eq_some_iff.mp hget').1
        exact @Inv.remove P m₀ asked _ si os hoff pos
          { hook with isEnabled := false, queueEnable := false } hself rfl
  · next hoff =>
    exact h.remove hget (by simpa using hoff)

/-- **`MH_EnableHook` and `MH_DisableHook` keep the invariant.** -/
theorem inv_enableHook (h : Inv P m₀ asked [] e) (pTarget : ℕ) (enable : Bool) :
    Inv P m₀ asked [] (enableHook os e pTarget enable).2 := by
  unfold enableHook
  split
  · exact h
  split
  · exact h.switchAll _
  split
  · exact h
  split
  · exact h
  next hook hget =>
  split
  · split <;> exact h
  split
  · exact h
  · next e' hfreeze =>
    have hinv := h.freeze hfreeze
    have hhooks := freeze_hooks hfreeze
    exact hinv.enableHookLL (hhooks ▸ hget) enable

/-- A hook without its mark. -/
def HookEntry.unmarked (h : HookEntry) : HookEntry := { h with queueEnable := false }

/-- A mark for a later call is all that two entries differ in. -/
theorem HookEntry.eq_of_unmarked {x y : HookEntry} (h : y.unmarked = x.unmarked) :
    y.pTarget = x.pTarget ∧ y.pDetour = x.pDetour ∧ y.isEnabled = x.isEnabled ∧
      y.place = x.place ∧ y.patch = x.patch := by
  have htarget := congrArg HookEntry.pTarget h
  have hdetour := congrArg HookEntry.pDetour h
  have henabled := congrArg HookEntry.isEnabled h
  have hplace := congrArg HookEntry.place h
  have hpatch := congrArg HookEntry.patch h
  exact ⟨htarget, hdetour, henabled, hplace, hpatch⟩

/-- **The marks of the queue change nothing.** -/
theorem Inv.queue (h : Inv P m₀ asked extra e) {hooks : List HookEntry}
    (hsame : hooks.map HookEntry.unmarked = e.hooks.map HookEntry.unmarked) :
    Inv P m₀ asked extra { e with hooks := hooks } := by
  have hfrom : ∀ x ∈ hooks, ∃ y ∈ e.hooks, y.unmarked = x.unmarked := fun x hx =>
    List.mem_map.mp (hsame ▸ List.mem_map_of_mem hx)
  have hto : ∀ y ∈ e.hooks, ∃ x ∈ hooks, x.unmarked = y.unmarked := fun y hy =>
    List.mem_map.mp (hsame ▸ List.mem_map_of_mem hy)
  have hmap : ∀ f : HookEntry → ℕ, (∀ x, f x.unmarked = f x) → hooks.map f = e.hooks.map f := by
    intro f hf
    have hcomp : f = f ∘ HookEntry.unmarked := funext fun x => (hf x).symm
    rw [hcomp, ← List.map_map, ← List.map_map, hsame]
  have hlength : hooks.length = e.hooks.length := by
    simpa using congrArg List.length hsame
  exact
    { idle := fun hidle => List.length_eq_zero_iff.mp (hlength.trans (by rw [h.idle hidle]; rfl))
      room := ⟨hlength.le.trans h.room.length_le, fun hempty =>
        List.length_eq_zero_iff.mp (hlength.trans (by rw [h.room.empty hempty]; rfl)),
        h.room.le_capacity⟩
      distinct := by
        show (hooks.map HookEntry.pTarget).Nodup
        rw [hmap _ fun _ => rfl]
        exact h.distinct
      targets := fun x hx => by
        obtain ⟨y, hy, heq⟩ := hfrom x hx
        have htarget := (HookEntry.eq_of_unmarked heq).1
        exact htarget ▸ h.targets y hy
      pool := by
        show Buffers.Inv _ (extra ++ hooks.map HookEntry.pTrampoline)
        rw [hmap _ fun _ => rfl]
        exact h.pool
      pages := h.pages
      sound := fun x hx => by
        obtain ⟨y, hy, heq⟩ := hfrom x hx
        have hunmarked : x.unmarked.Sound m₀ := heq ▸ (h.sound y hy).setEnabled _ _
        exact hunmarked.setEnabled x.isEnabled x.queueEnable
      asked_lt := fun x hx => by
        obtain ⟨y, hy, heq⟩ := hfrom x hx
        have htarget := (HookEntry.eq_of_unmarked heq).1
        exact htarget ▸ h.asked_lt y hy
      relay := fun x hx => by
        obtain ⟨y, hy, heq⟩ := hfrom x hx
        obtain ⟨htarget, hdetour, -⟩ := HookEntry.eq_of_unmarked heq
        exact htarget ▸ hdetour ▸ h.relay y hy
      patch := fun x hx hen => by
        obtain ⟨y, hy, heq⟩ := hfrom x hx
        obtain ⟨-, -, henabled, hplace, hpatch⟩ := HookEntry.eq_of_unmarked heq
        exact hplace ▸ hpatch ▸ h.patch y hy (henabled.trans hen)
      code := fun i hi hpatch => h.code i hi fun y hy hen hyi => by
        obtain ⟨x, hx, heq⟩ := hto y hy
        obtain ⟨-, -, henabled, hplace, hpatch'⟩ := HookEntry.eq_of_unmarked heq
        refine hpatch x hx (henabled.trans hen) ?_
        rw [HookEntry.InPatch, ← x.length_patch, hplace, hpatch', y.length_patch]
        exact hyi }

/-- **Queueing only marks.** -/
theorem inv_queueHook (h : Inv P m₀ asked [] e) (pTarget : ℕ) (queueEnable : Bool) :
    Inv P m₀ asked [] (queueHook e pTarget queueEnable).2 := by
  unfold queueHook
  split
  · exact h
  split
  · refine h.queue ?_
    rw [List.map_map]
    rfl
  split
  · exact h
  · next pos _ =>
    refine h.queue (List.ext_getElem? fun i => ?_)
    rw [List.getElem?_map, List.getElem?_map, List.getElem?_modify]
    cases e.hooks[i]? with
    | none => rfl
    | some x =>
      by_cases hi : pos = i
      · simp [hi, HookEntry.unmarked]
      · simp [hi]

/-- **The table is cleared** when no hook is enabled. -/
theorem Inv.clear (h : Inv P m₀ asked [] e) (hoff : ∀ x ∈ e.hooks, x.isEnabled = false) :
    Inv P m₀ asked [] { e with
      initialized := false, allocated := false, capacity := 0, hooks := []
      buffers := uninitializeBuffer e.buffers } where
  idle _ := rfl
  room := ⟨Nat.le_refl _, fun _ => rfl, fun h => absurd h Bool.false_ne_true⟩
  distinct := List.nodup_nil
  targets _ hx := absurd hx List.not_mem_nil
  pool := ⟨SlotPool.Inv.nil _, fun _ hblk => absurd hblk List.not_mem_nil⟩
  pages _ hb := absurd hb List.not_mem_nil
  sound _ hx := absurd hx List.not_mem_nil
  asked_lt _ hx := absurd hx List.not_mem_nil
  relay _ hx := absurd hx List.not_mem_nil
  patch _ hx := absurd hx List.not_mem_nil
  code i hi _ := h.code i hi fun x hx hen => by
    rw [hoff x hx] at hen
    cases hen

/-- **Every call keeps the invariant.** -/
theorem inv_call (h : Inv P m₀ asked [] e) (d : Disassembler) (c : Call)
    (hallows : P.Allows os c) :
    Inv P m₀ (askedAfter asked c (e.call d os c).1) [] (e.call d os c).2 := by
  cases c with
  | init =>
    show Inv P m₀ asked [] (mhInitialize os e).2
    unfold mhInitialize
    split
    · exact h
    split
    · exact ⟨fun hidle => absurd hidle.symm Bool.false_ne_true,
        ⟨h.room.length_le, h.room.empty, h.room.le_capacity⟩, h.distinct, h.targets, h.pool,
        h.pages, h.sound, h.asked_lt, h.relay, h.patch, h.code⟩
    · exact h
  | uninit =>
    show Inv P m₀ asked [] ( mhUninitialize os e).2
    unfold mhUninitialize
    split
    · exact h
    have hall : Inv P m₀ asked [] (enableAllHooksLL os false e).2 := h.switchAll .disable
    have hoff : (enableAllHooksLL os false e).1 = .ok →
        ∀ x ∈ (enableAllHooksLL os false e).2.hooks, x.isEnabled = false := switchAll_ok
    split
    · next e' heq =>
      rw [heq] at hall hoff
      exact hall.clear (hoff rfl)
    · next status e' _ heq =>
      rw [heq] at hall
      exact hall
  | createHook pTarget pDetour => exact inv_createHook h d hallows
  | removeHook pTarget => exact inv_removeHook h pTarget
  | enableHook pTarget enable => exact inv_enableHook h pTarget enable
  | queueHook pTarget enable => exact inv_queueHook h pTarget enable
  | applyQueued =>
    show Inv P m₀ asked [] (mhApplyQueued os e).2
    unfold mhApplyQueued
    split
    · exact h
    · exact h.switchAll _
  | threads ips => exact h.threads ips

end

/-! ### A process -/

namespace Loaded

theorem page_dvd : memoryBlockSize ∣ 0x10000 := ⟨16, rfl⟩

theorem range : 0x10000 ≤ 0x10000 ∧ memoryBlockSize ≤ 0x7FFFFFFEFFFF ∧
    0x7FFFFFFEFFFF < 2 ^ 47 := by decide

/-- The addresses of a process of 64-bit Windows. -/
def systemInfo : SystemInfo where
  minimumApplicationAddress := 0x10000
  maximumApplicationAddress := 0x7FFFFFFEFFFF
  allocationGranularity := 0x10000
  granularity_pos := Nat.succ_pos _
  page_dvd := page_dvd
  granularity_le := range.1
  page_le := range.2.1
  maximum_lt := range.2.2

/-- A library at `0x180000000`, behind free memory. -/
def virtualQuery (a : ℕ) : Option Region :=
  if a < 0x180000000 then
    some { free := true, allocationBase := 0, baseAddress := 0, regionSize := 0x180000000 }
  else
    some { free := false, allocationBase := 0x180000000, baseAddress := a, regionSize := 0x1000 }

/-- The code section of the one module. -/
def executable (a : ℕ) : Bool := 0x180000000 ≤ a && a < 0x180010000

/-- What is not free belongs to the module. -/
theorem query_base {a : ℕ} {r : Region} (h : virtualQuery a = some r) (hfree : r.free = false) :
    r.allocationBase = 0x180000000 ∧ 0x180000000 ≤ a := by
  unfold virtualQuery at h
  split at h
  · cases h
    cases hfree
  · next hle =>
    cases h
    exact ⟨rfl, Nat.le_of_not_lt hle⟩

/-- A region holds the address that was asked for. -/
theorem query_end {a : ℕ} {r : Region} (h : virtualQuery a = some r) :
    a < r.baseAddress + r.regionSize := by
  unfold virtualQuery at h
  split at h
  · next hlt =>
    cases h
    exact hlt.trans_le (Nat.le_add_left _ _)
  · cases h
    exact Nat.lt_add_of_pos_right (Nat.succ_pos _)

theorem executable_range {a : ℕ} (h : executable a = true) :
    0x10000 ≤ a ∧ a ≤ 0x7FFFFFFEFFFF := by
  unfold executable at h
  simp only [Bool.and_eq_true, decide_eq_true_eq] at h
  omega

/-- The system the two functions are hooked in. -/
def hookOs : HookOs systemInfo where
  virtualQuery := virtualQuery
  virtualAlloc b := b == 0x17FFF0000
  base_dvd _ _ hquery hfree := (query_base hquery hfree).1 ▸ ⟨0x18000, rfl⟩
  base_le _ _ hquery hfree := (query_base hquery hfree).1 ▸ (query_base hquery hfree).2
  lt_end _ _ hquery := query_end hquery
  heapCreate := true
  heapAlloc := true
  heapReAlloc := true
  enumerateThreads := true
  suspendThread _ := true
  virtualProtect _ := true
  isExecutableAddress := executable
  executable_range _ hexecutable := executable_range hexecutable

/-- Each byte of the library is a `NOP`. -/
def code : Memory := fun _ => 0x90

/-- The prologues of the two functions. -/
def disassembler : Disassembler where
  disasm m a :=
    { len := 1, error := false, immLen := 0, opcode := m a, opcode2 := 0, modrm := 0
      modrmReg := 0, imm32 := 0, disp32 := 0 }
  len_pos _ _ := Nat.succ_pos _
  len_le _ _ := Nat.le_add_left 1 14

/-- One function is hooked. -/
def calls : List (HookOs systemInfo × Call) :=
  [(hookOs, .init), (hookOs, .createHook 0x180001000 0x180002000),
    (hookOs, .enableHook 0x180001000 true)]

/-- The page is out of reach of both patches. -/
theorem clear : 0x180001000 + jmpRelSize ≤ 0x17FFF0000 ∨
    0x17FFF0000 + memoryBlockSize + jmpRelSize ≤ 0x180001000 := by decide

/-- The two functions, apart from each other and from the page. -/
def place : Place where
  targets t := t = 0x180001000
  pages b := b = 0x17FFF0000
  apart _ _ ht ht' hne := absurd (ht.trans ht'.symm) hne
  clear _ _ ht hb := ht ▸ hb ▸ clear

/-- The calls hook only them. -/
theorem allows : ∀ x ∈ calls, place.Allows x.1 x.2 := by
  intro x hx
  have hos : x.1 = hookOs := by
    simp only [calls, List.mem_cons, List.not_mem_nil, or_false] at hx
    rcases hx with rfl | rfl | rfl <;> rfl
  refine ⟨fun b hb => ?_, fun pTarget pDetour hcall => ?_⟩
  · rw [hos] at hb
    exact beq_iff_eq.mp hb
  · simp only [calls, List.mem_cons, List.not_mem_nil, or_false] at hx
    rcases hx with rfl | rfl | rfl
    · cases hcall
    · cases hcall
      rfl
    · cases hcall

end Loaded

/-! ### Runs -/

/-- The library, and the detours that were asked for. -/
structure Hooking where
  engine : Engine
  asked : ℕ → ℕ := fun _ => 0

section

variable {si : SystemInfo}

/-- A call, and what the system answers in it. -/
def Hooking.step (d : Disassembler) (w : Hooking) (x : HookOs si × Call) : Hooking where
  engine := (w.engine.call d x.1 x.2).2
  asked := askedAfter w.asked x.2 (w.engine.call d x.1 x.2).1

/-- A run on the memory `m₀`. -/
def Hooking.run (d : Disassembler) (m₀ : Memory) (xs : List (HookOs si × Call)) : Hooking :=
  Machine.run (Hooking.step d) { engine := { buffers := { mem := m₀ } } } xs

variable {P : Place} {d : Disassembler} {m₀ : Memory} {xs : List (HookOs si × Call)}

/-- The library before the first call. -/
theorem Inv.start : Inv P m₀ (fun _ => 0) [] { buffers := { mem := m₀ } } where
  idle _ := rfl
  room := ⟨Nat.le_refl _, fun _ => rfl, fun h => absurd h Bool.false_ne_true⟩
  distinct := List.nodup_nil
  targets _ hx := absurd hx List.not_mem_nil
  pool := ⟨SlotPool.Inv.nil _, fun _ hblk => absurd hblk List.not_mem_nil⟩
  pages _ hb := absurd hb List.not_mem_nil
  sound _ hx := absurd hx List.not_mem_nil
  asked_lt _ hx := absurd hx List.not_mem_nil
  relay _ hx := absurd hx List.not_mem_nil
  patch _ hx := absurd hx List.not_mem_nil
  code _ _ _ := rfl

/-- **Every run keeps the invariant**, whatever the system refuses. -/
theorem inv_run (hallows : ∀ x ∈ xs, P.Allows x.1 x.2) :
    Inv P m₀ (Hooking.run d m₀ xs).asked [] (Hooking.run d m₀ xs).engine := by
  refine Machine.run_induction (Hooking.step d) _ (fun xs => ∀ x ∈ xs, P.Allows x.1 x.2)
    (fun _ w => Inv P m₀ w.asked [] w.engine) (fun xs x h y hy => h y (List.mem_append_left _ hy))
    Inv.start (fun xs x h hinv => ?_) xs hallows
  exact inv_call hinv d x.2 (h x (List.mem_append_right _ List.mem_cons_self))

/-- **What a run does to the code.**  Whatever calls are made, and whatever fails in them: a
function whose hook is enabled leads to the detour that was asked for, and every byte of the code
that no such hook has overwritten is as it was. -/
theorem intercepts (hallows : ∀ x ∈ xs, P.Allows x.1 x.2) :
    let w := Hooking.run d m₀ xs
    (∀ hook ∈ w.engine.hooks, hook.isEnabled = true →
      w.engine.mem.Jumps hook.pTarget (w.asked hook.pTarget)) ∧
    ∀ i, (∀ b, P.pages b → ¬InPage b i) →
      (∀ hook ∈ w.engine.hooks, hook.isEnabled = true → ¬hook.InPatch i) →
      w.engine.mem i = m₀ i := by
  have h : Inv P m₀ (Hooking.run d m₀ xs).asked [] (Hooking.run d m₀ xs).engine := inv_run hallows
  exact ⟨fun hook hmem hen => h.jumps hmem hen, h.code⟩

/-- The jumps and the rest of the code after both functions were hooked. -/
theorem intercepts_createDevice :
    let w := Hooking.run Loaded.disassembler Loaded.code Loaded.calls
    (∀ hook ∈ w.engine.hooks, hook.isEnabled = true →
      w.engine.mem.Jumps hook.pTarget (w.asked hook.pTarget)) ∧
    ∀ i, (∀ b, b = 0x17FFF0000 → ¬InPage b i) →
      (∀ hook ∈ w.engine.hooks, hook.isEnabled = true → ¬hook.InPatch i) →
      w.engine.mem i = Loaded.code i :=
  intercepts (P := Loaded.place) Loaded.allows

/-- A hook's trampoline and relay, in the page `b`. -/
structure HookEntry.InPlace (h : HookEntry) (b : ℕ) : Prop where
  page : b + memorySlotSize ≤ h.pTrampoline ∧
    h.pTrampoline + memorySlotSize ≤ b + memoryBlockSize
  relay : h.pTrampoline ≤ h.pDetour ∧ h.pDetour + 14 ≤ h.pTrampoline + memorySlotSize
  near : Near h.pTarget h.pTrampoline

/-- **The memory of the trampolines.**  The table has room for its hooks.  The slots of two hooks
are apart; each is near its function, in a page that is held, behind the head of it; and every
page that is held has the slot of a hook. -/
theorem trampolines_apart (hallows : ∀ x ∈ xs, P.Allows x.1 x.2) :
    let e := (Hooking.run d m₀ xs).engine
    e.hooks.length ≤ e.capacity ∧
    e.hooks.Pairwise (fun h h' => h.pTrampoline + memorySlotSize ≤ h'.pTrampoline ∨
      h'.pTrampoline + memorySlotSize ≤ h.pTrampoline) ∧
    (∀ hook ∈ e.hooks, ∃ b ∈ e.buffers.pages, hook.InPlace b) ∧
    ∀ b ∈ e.buffers.pages, P.pages b ∧ ∃ hook ∈ e.hooks, hook.InPlace b := by
  have h : Inv P m₀ (Hooking.run d m₀ xs).asked [] (Hooking.run d m₀ xs).engine := inv_run hallows
  intro e
  have hpool : e.buffers.Inv (e.hooks.map HookEntry.pTrampoline) := h.pool
  have hplace : ∀ hook ∈ e.hooks, ∀ b, layout.owner hook.pTrampoline = b → hook.InPlace b := by
    rintro hook hmem b rfl
    have hs := h.sound hook hmem
    obtain ⟨hle, hlt, -⟩ := mem_slotsOf (hpool.pool.mem_slots (List.mem_map_of_mem hmem))
    exact ⟨⟨hle, hlt⟩, ⟨hs.le_relay, hs.relay_le⟩, hs.near⟩
  refine ⟨h.room.length_le, ?_, fun hook hmem => ?_, fun b hb => ⟨h.pages b hb, ?_⟩⟩
  · have hnodup := List.pairwise_map.mp hpool.pool.nodup
    exact hnodup.imp_of_mem fun hx hy hne =>
      hpool.apart (List.mem_map_of_mem hx) (List.mem_map_of_mem hy) hne
  · exact ⟨_, hpool.pool.owned _ (List.mem_map_of_mem hmem), hplace hook hmem _ rfl⟩
  · obtain ⟨s, hs, howner⟩ := (hpool.pool.mem_bases_iff hpool.busy).mp hb
    obtain ⟨hook, hmem, rfl⟩ := List.mem_map.mp hs
    exact ⟨hook, hmem, hplace hook hmem b howner⟩

/-- Their trampolines are in two slots of the page. -/
theorem trampolines_apart_createDevice :
    let e := (Hooking.run Loaded.disassembler Loaded.code Loaded.calls).engine
    e.hooks.length ≤ e.capacity ∧
    e.hooks.Pairwise (fun h h' => h.pTrampoline + memorySlotSize ≤ h'.pTrampoline ∨
      h'.pTrampoline + memorySlotSize ≤ h.pTrampoline) ∧
    (∀ hook ∈ e.hooks, ∃ b ∈ e.buffers.pages, hook.InPlace b) ∧
    ∀ b ∈ e.buffers.pages, b = 0x17FFF0000 ∧ ∃ hook ∈ e.hooks, hook.InPlace b :=
  trampolines_apart (P := Loaded.place) Loaded.allows

end

end Dx12Track.MinHook
