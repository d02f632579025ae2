import Dx12Track.MinHook.Intercept

/-!
# Threads in the trampolines

Before the hooks are disabled, the other threads of the process are stopped, and one that stands
on an instruction of a trampoline goes back to that instruction of the function.  What the library
knows of a trampoline are the places where its instructions begin; a thread in the middle of what
became of one, behind a call that has returned, say, stays where it is.

* `HookEntry.Listed`, `Engine.InTrampoline` — the places that are known, and the trampolines.
* `HookEntry.leave` — what one hook does to a thread.
* `threads_leave` — **the threads that are in a trampoline after `MH_Uninitialize`**.
-/

namespace Dx12Track.MinHook

/-- The address is in a trampoline, or in its relay. -/
def Engine.InTrampoline (e : Engine) (ip : ℕ) : Prop := ∃ hook ∈ e.hooks, InSlot hook.pTrampoline ip

/-- An address of the trampoline that is known: where an instruction begins, or the relay. -/
def HookEntry.Listed (h : HookEntry) (ip : ℕ) : Prop :=
  ip = h.pDetour ∨ ∃ p ∈ h.oldIPs.zip h.newIPs, ip = h.pTrampoline + p.2

/-- Where a thread is moved when hooks are disabled. -/
def HookEntry.leave (ip : ℕ) (h : HookEntry) : ℕ :=
  if h.isEnabled then (h.findOldIP ip).getD ip else ip

theorem processThreadIPs_disable (hooks : List HookEntry) (ip : ℕ) :
    processThreadIPs hooks .disable ip = hooks.foldl HookEntry.leave ip := by
  unfold processThreadIPs
  congr 1
  funext ip h
  show (if h.isEnabled = false then ip else _) = _
  rw [HookEntry.leave]
  cases h.isEnabled with
  | true => rfl
  | false => rfl

theorem findOldIP_cases (h : HookEntry) (ip : ℕ) :
    (h.findOldIP ip = none ∧ ¬h.Listed ip) ∨
      ∃ old, h.findOldIP ip = some (h.pTarget + old) ∧ (old = 0 ∨ old ∈ h.oldIPs) ∧
        (h.Listed ip ∨ h.patchAbove = true ∧ ip = h.pTarget - jmpRelSize) := by
  unfold HookEntry.findOldIP
  split
  · next habove => exact Or.inr ⟨0, rfl, Or.inl rfl, Or.inr habove⟩
  split
  · next p hp =>
    have hmem := List.mem_of_find?_eq_some hp
    have hip : ip = h.pTrampoline + p.2 := by simpa using List.find?_some hp
    exact Or.inr ⟨p.1, rfl, Or.inr (List.of_mem_zip hmem).1, Or.inl (Or.inr ⟨p, hmem, hip⟩)⟩
  · next hnone =>
    split
    · next hrelay => exact Or.inr ⟨0, rfl, Or.inl rfl, Or.inl (Or.inl hrelay)⟩
    · next hrelay =>
      refine Or.inl ⟨rfl, ?_⟩
      rintro (heq | ⟨p, hmem, heq⟩)
      · exact hrelay heq
      · have hnot := List.find?_eq_none.mp hnone p hmem
        simp [heq] at hnot

/-- Pages are clear of the instructions that a patch can meet. -/
def Place.Far (P : Place) : Prop :=
  ∀ t b, P.targets t → P.pages b →
    t + (jmpRelSize + 15) ≤ b ∨ b + memoryBlockSize + jmpRelSize ≤ t

section

variable {P : Place} {m₀ : Memory} {asked : ℕ → ℕ} {e : Engine} {si : SystemInfo} {os : HookOs si}

/-- No instruction of a function is in a trampoline. -/
theorem Inv.out (h : Inv P m₀ asked [] e) (hfar : P.Far) {hook : HookEntry} (hmem : hook ∈ e.hooks)
    {old : ℕ} (hold : old < jmpRelSize + 15) : ¬e.InTrampoline (hook.pTarget + old) := by
  rintro ⟨hook', hmem', hslot⟩
  obtain ⟨b, hb, hle, hlt⟩ := h.page_of_slot hmem' hslot
  have hapart := hfar hook.pTarget b (h.targets hook hmem) hb
  omega

/-- The places above the functions are in no trampoline. -/
theorem Inv.above_out (h : Inv P m₀ asked [] e) {hook : HookEntry} (hmem : hook ∈ e.hooks)
    (habove : hook.patchAbove = true) : ¬e.InTrampoline (hook.pTarget - jmpRelSize) := by
  rintro ⟨hook', hmem', hslot⟩
  obtain ⟨b, hb, hin⟩ := h.page_of_slot hmem' hslot
  have hroom := (h.sound hook hmem).above habove
  refine P.not_inPage (h.targets hook hmem) ⟨?_, ?_⟩ hb hin
  · omega
  · simp only [jmpRelSize] at *
    omega

theorem Inv.slot_of_listed (h : Inv P m₀ asked [] e) {hook : HookEntry} (hmem : hook ∈ e.hooks)
    {ip : ℕ} (hip : hook.Listed ip) : InSlot hook.pTrampoline ip := by
  have hs := h.sound hook hmem
  rcases hip with rfl | ⟨p, hp, rfl⟩
  · have hle := hs.relay_le
    exact ⟨hs.le_relay, by omega⟩
  · have hle := hs.boundaries.newIPs_le p.2 (List.of_mem_zip hp).2
    simp only [trampolineMaxSize, memorySlotSize] at hle
    exact ⟨Nat.le_add_right _ _, by simp only [memorySlotSize]; omega⟩

/-- An address is in one trampoline at most. -/
theorem Inv.eq_of_inSlot (h : Inv P m₀ asked [] e) {hook hook' : HookEntry} (hmem : hook ∈ e.hooks)
    (hmem' : hook' ∈ e.hooks) {ip : ℕ} (hip : InSlot hook.pTrampoline ip)
    (hip' : InSlot hook'.pTrampoline ip) : hook = hook' := by
  have hpool : e.buffers.Inv (e.hooks.map HookEntry.pTrampoline) := h.pool
  refine List.inj_on_of_nodup_map hpool.pool.nodup hmem hmem' ?_
  by_contra hne
  have hapart := hpool.apart (List.mem_map_of_mem hmem) (List.mem_map_of_mem hmem') hne
  obtain ⟨hle, hlt⟩ := hip
  obtain ⟨hle', hlt'⟩ := hip'
  omega

/-- **What one hook does to a thread**: it leaves the trampoline, or stays where it is. -/
theorem Inv.leave_cases (h : Inv P m₀ asked [] e) (hfar : P.Far) {x : HookEntry}
    (hx : x ∈ e.hooks) (ip : ℕ) :
    (x.leave ip = ip ∧ ¬(x.isEnabled = true ∧ x.Listed ip)) ∨
      (¬e.InTrampoline (x.leave ip) ∧ ∀ hook ∈ e.hooks, InSlot hook.pTrampoline ip →
        hook = x ∧ x.isEnabled = true ∧ x.Listed ip) := by
  unfold HookEntry.leave
  split
  · next hen =>
    rcases findOldIP_cases x ip with ⟨hnone, hnot⟩ | ⟨old, hsome, hold, hfrom⟩
    · rw [hnone]
      exact Or.inl ⟨rfl, fun h => hnot h.2⟩
    · rw [hsome, Option.getD_some]
      have hlt : old < jmpRelSize + 15 := by
        rcases hold with rfl | hold
        · exact Nat.succ_pos _
        · exact (h.sound x hx).boundaries.oldIPs_lt old hold
      refine Or.inr ⟨h.out hfar hx hlt, fun hook hmem hslot => ?_⟩
      rcases hfrom with hlisted | ⟨habove, rfl⟩
      · exact ⟨h.eq_of_inSlot hmem hx hslot (h.slot_of_listed hx hlisted), hen, hlisted⟩
      · exact absurd ⟨hook, hmem, hslot⟩ (h.above_out hx habove)
  · next hen => exact Or.inl ⟨rfl, fun h => hen h.1⟩

/-- **The threads that are in a trampoline when all hooks have been gone through.** -/
theorem Inv.leave_fold (h : Inv P m₀ asked [] e) (hfar : P.Far) {hooks : List HookEntry}
    (hsub : ∀ x ∈ hooks, x ∈ e.hooks) (ip : ℕ) :
    e.InTrampoline (hooks.foldl HookEntry.leave ip) ↔
      ∃ hook ∈ e.hooks, InSlot hook.pTrampoline ip ∧
        ¬(hook ∈ hooks ∧ hook.isEnabled = true ∧ hook.Listed ip) := by
  induction hooks generalizing ip with
  | nil =>
    constructor
    · rintro ⟨hook, hmem, hslot⟩
      exact ⟨hook, hmem, hslot, fun hall => absurd hall.1 List.not_mem_nil⟩
    · rintro ⟨hook, hmem, hslot, -⟩
      exact ⟨hook, hmem, hslot⟩
  | cons x hooks ih =>
    have ih := ih fun y hy => hsub y (List.mem_cons_of_mem x hy)
    rw [List.foldl_cons, ih]
    rcases h.leave_cases hfar (hsub x List.mem_cons_self) ip with ⟨hsame, hnot⟩ | ⟨hout, hall⟩
    · -- the hook does not know the address
      rw [hsame]
      refine exists_congr fun hook => and_congr_right fun hmem => and_congr_right fun hslot => ?_
      refine not_congr ⟨fun hin => ⟨List.mem_cons_of_mem x hin.1, hin.2⟩, fun hin => ?_⟩
      rcases List.mem_cons.mp hin.1 with rfl | hmem'
      · exact absurd hin.2 hnot
      · exact ⟨hmem', hin.2⟩
    · -- it moves the thread away
      constructor
      · rintro ⟨hook, hmem, hslot, -⟩
        exact absurd ⟨hook, hmem, hslot⟩ hout
      · rintro ⟨hook, hmem, hslot, hstays⟩
        obtain ⟨rfl, hen, hlisted⟩ := hall hook hmem hslot
        exact absurd ⟨List.mem_cons_self, hen, hlisted⟩ hstays

/-! ### The calls -/

theorem switchLoop_threads (action : Action) (left pos : ℕ) (e : Engine) :
    (switchLoop os action left pos e).2.threads = e.threads := by
  induction left generalizing pos e with
  | zero => rfl
  | succ left ih =>
    cases hget : e.hooks[pos]? with
    | none => rw [switchLoop_none os action _ hget]
    | some hook =>
      rcases switchLoop_cases os action left hget with ⟨-, heq⟩ | heq | heq
      · rw [heq, ih]
      · rw [heq]
      · rw [heq, ih]
        rfl

/-- Hooks that are disabled move no thread. -/
theorem leave_disabled {hooks : List HookEntry} (hoff : ∀ h ∈ hooks, h.isEnabled = false)
    (ip : ℕ) : hooks.foldl HookEntry.leave ip = ip := by
  induction hooks with
  | nil => rfl
  | cons x hooks ih =>
    have hx : x.leave ip = ip := by
      rw [HookEntry.leave, hoff x List.mem_cons_self]
      rfl
    rw [List.foldl_cons, hx]
    exact ih fun y hy => hoff y (List.mem_cons_of_mem x hy)

/-- **Where a thread stands** when all hooks were disabled, also if that failed on the way. -/
theorem disableAll_threads {i ip : ℕ} (hip : e.threads[i]? = some ip) :
    (enableAllHooksLL os false e).2.threads[i]? =
      some (if os.enumerateThreads = true ∧ os.suspendThread i = true
        then e.hooks.foldl HookEntry.leave ip else ip) := by
  show (switchAll os .disable e).2.threads[i]? = _
  unfold switchAll
  cases hfind : e.hooks.findIdx? fun h => h.isEnabled ≠ Action.wants .disable h with
  | none =>
    -- the threads are not stopped, and there was no need to
    have hoff : ∀ h ∈ e.hooks, h.isEnabled = false := by
      intro h hmem
      simpa [Action.wants] using List.findIdx?_eq_none_iff.mp hfind h hmem
    rw [leave_disabled hoff, ite_self]
    exact hip
  | some first =>
    cases henum : os.enumerateThreads with
    | false =>
      have hcannot : ¬(false = true ∧ os.suspendThread i = true) := fun h =>
        absurd h.1 Bool.false_ne_true
      rw [freeze, henum, if_neg Bool.false_ne_true, if_neg hcannot]
      exact hip
    | true =>
      rw [freeze, if_pos henum]
      show (switchLoop os .disable _ first _).2.threads[i]? = _
      rw [switchLoop_threads]
      show (e.threads.mapIdx _)[i]? = _
      rw [List.getElem?_mapIdx, hip]
      cases hsuspend : os.suspendThread i with
      | false => simp
      | true => simp [processThreadIPs_disable]

theorem uninit_threads : ( mhUninitialize os e).2.threads =
    if e.initialized = false then e.threads else (enableAllHooksLL os false e).2.threads := by
  unfold mhUninitialize
  split
  · rfl
  · split
    · next heq => rw [heq]
    · next heq => rw [heq]

/-- **The threads that `MH_Uninitialize` leaves in a trampoline**, also if it fails on the way:
those that stand at an address that the library does not know, or in the trampoline of a hook that
is not enabled, or that cannot be stopped. -/
theorem threads_leave {xs : List (HookOs si × Call)} {d : Disassembler}
    (hallows : ∀ x ∈ xs, P.Allows x.1 x.2) (hfar : P.Far) :
    let e := (Hooking.run d m₀ xs).engine
    ∀ i ip, e.threads[i]? = some ip → ∃ ip', ( mhUninitialize os e).2.threads[i]? = some ip' ∧
      (e.InTrampoline ip' ↔ ∃ hook ∈ e.hooks, InSlot hook.pTrampoline ip ∧
        ¬(os.enumerateThreads = true ∧ os.suspendThread i = true ∧ hook.isEnabled = true ∧
          hook.Listed ip)) := by
  have h : Inv P m₀ (Hooking.run d m₀ xs).asked [] (Hooking.run d m₀ xs).engine := inv_run hallows
  intro e i ip hip
  have hinv : Inv P m₀ (Hooking.run d m₀ xs).asked [] e := h
  rw [uninit_threads]
  split
  · next hidle =>
    have hnil : e.hooks = [] := hinv.idle hidle
    refine ⟨ip, hip, ?_⟩
    constructor
    · rintro ⟨hook, hmem, -⟩
      rw [hnil] at hmem
      cases hmem
    · rintro ⟨hook, hmem, -⟩
      rw [hnil] at hmem
      cases hmem
  · refine ⟨_, disableAll_threads hip, ?_⟩
    split
    · next hcan =>
      rw [hinv.leave_fold hfar fun _ hx => hx]
      refine exists_congr fun hook => and_congr_right fun hmem => and_congr_right fun _ => ?_
      exact not_congr ⟨fun hin => ⟨hcan.1, hcan.2, hin.2⟩, fun hin => ⟨hmem, hin.2.2⟩⟩
    · next hcannot =>
      constructor
      · rintro ⟨hook, hmem, hslot⟩
        exact ⟨hook, hmem, hslot, fun hin => hcannot ⟨hin.1, hin.2.1⟩⟩
      · rintro ⟨hook, hmem, hslot, -⟩
        exact ⟨hook, hmem, hslot⟩

end

namespace Loaded

/-- A thread stands on the third instruction of the trampoline. -/
def callsWithThread : List (HookOs systemInfo × Call) :=
  calls ++ [(hookOs, .threads [0x17FFF0FC2])]

theorem far : place.Far := by
  intro t b ht hb
  obtain rfl : t = 0x180001000 := ht
  obtain rfl : b = 0x17FFF0000 := hb
  exact Or.inr (by decide)

theorem allows_callsWithThread : ∀ x ∈ callsWithThread, place.Allows x.1 x.2 := by
  intro x hx
  rcases List.mem_append.mp hx with hx | hx
  · exact allows x hx
  · obtain rfl := List.mem_singleton.mp hx
    exact ⟨fun b hb => beq_iff_eq.mp hb, fun _ _ hcall => by cases hcall⟩

end Loaded

theorem threads_leave_callsWithThread :
    let e := (Hooking.run Loaded.disassembler Loaded.code Loaded.callsWithThread).engine
    ∀ i ip, e.threads[i]? = some ip →
      ∃ ip', ( mhUninitialize Loaded.hookOs e).2.threads[i]? = some ip' ∧
      (e.InTrampoline ip' ↔ ∃ hook ∈ e.hooks, InSlot hook.pTrampoline ip ∧
        ¬(Loaded.hookOs.enumerateThreads = true ∧ Loaded.hookOs.suspendThread i = true ∧
          hook.isEnabled = true ∧ hook.Listed ip)) :=
  threads_leave Loaded.allows_callsWithThread Loaded.far

end Dx12Track.MinHook
