import Dx12Track.MinHook.Engine

/-!
# What the hooks do to the code

Whatever calls are made and whatever fails in them, a function is either as it was before
or leads to its detour, and nothing else of the code is ever changed.  A function and the
five bytes above it must not meet another function that is hooked, which the library does not
check.

* `Place` — the functions that are hooked in a run, and the pages that the system may grant.
* `HookEntry.Sound`, `Inv` — **the invariant**.
* `Inv.jumps`, `Inv.code` — a function that is hooked, and the rest of the code.
* `Inv.frame`, `Inv.switch`, `Inv.switchAll` — writes in the pages, and hooks that are switched.
-/

namespace Dx12Track.MinHook

open Jumps

/-- What a run is about: functions that are apart, and pages that are no code. -/
structure Place where
  /-- The functions. -/
  targets : ℕ → Prop
  /-- The pages that the system may grant. -/
  pages : ℕ → Prop
  apart : ∀ t t', targets t → targets t' → t ≠ t' →
    t + 2 * jmpRelSize ≤ t' ∨ t' + 2 * jmpRelSize ≤ t
  clear : ∀ t b, targets t → pages b →
    t + jmpRelSize ≤ b ∨ b + memoryBlockSize + jmpRelSize ≤ t

/-- A function's first bytes, and those above it. -/
def InArea (t i : ℕ) : Prop := t ≤ i + jmpRelSize ∧ i < t + jmpRelSize

/-- Two patches that meet are of one function. -/
theorem Place.eq_of_inArea (P : Place) {t t' i : ℕ} (ht : P.targets t) (ht' : P.targets t')
    (hi : InArea t i) (hi' : InArea t' i) : t = t' := by
  by_contra hne
  have hapart := P.apart t t' ht ht' hne
  obtain ⟨hle, hlt⟩ := hi
  obtain ⟨hle', hlt'⟩ := hi'
  omega

/-- A patch is in no page of trampolines. -/
theorem Place.not_inPage (P : Place) {t i : ℕ} (ht : P.targets t) (hi : InArea t i) {b : ℕ}
    (hb : P.pages b) : ¬InPage b i := by
  rintro ⟨hle', hlt'⟩
  have hclear := P.clear t b ht hb
  obtain ⟨hle, hlt⟩ := hi
  omega

namespace HookEntry

/-- What is written over the function. -/
def patch (h : HookEntry) : List UInt8 :=
  jmpRel h.place h.pDetour ++
    if h.patchAbove then jmpShort (-(jmpShortSize + jmpRelSize : ℕ)) else []

/-- A patch has the size that is restored. -/
theorem length_patch (h : HookEntry) : h.patch.length = h.patchSize := by
  rw [patch, patchSize, List.length_append, length_jmpRel]
  split
  · rw [length_jmpShort]
    rfl
  · rfl

/-- The bytes that are overwritten. -/
def InPatch (h : HookEntry) (i : ℕ) : Prop := h.place ≤ i ∧ i < h.place + h.patchSize

/-- What is always true of a hook. -/
structure Sound (m₀ : Memory) (h : HookEntry) : Prop where
  near : Near h.pTarget h.pTrampoline
  le_relay : h.pTrampoline ≤ h.pDetour
  relay_le : h.pDetour + 14 ≤ h.pTrampoline + memorySlotSize
  boundaries : Boundaries h.oldIPs h.newIPs
  above : h.patchAbove = true → jmpRelSize ≤ h.pTarget
  target_pos : 0 < h.pTarget
  target_lt : h.pTarget < 2 ^ 47
  backup : h.backup = m₀.read h.place h.patchSize

variable {m₀ : Memory} {h : HookEntry}

/-- It is at its function. -/
theorem Sound.inArea (hs : h.Sound m₀) {i : ℕ} (hi : h.InPatch i) : InArea h.pTarget i := by
  obtain ⟨hle, hlt⟩ := hi
  have habove := hs.above
  simp only [place, patchSize, jmpShortSize, jmpRelSize] at hle hlt habove
  split at hle
  · next hp =>
    rw [if_pos hp, if_pos hp] at hlt
    have hroom := habove hp
    exact ⟨by simp only [jmpRelSize]; omega, by simp only [jmpRelSize]; omega⟩
  · next hp =>
    rw [if_neg hp, if_neg hp] at hlt
    exact ⟨by simp only [jmpRelSize]; omega, by simp only [jmpRelSize]; omega⟩

/-- **What `EnableHookLL` writes is the patch.** -/
theorem Sound.patched (hs : h.Sound m₀) (m : Memory) :
    (MinHook.patched m h).Holds h.place h.patch ∧
      ∀ i, ¬h.InPatch i → MinHook.patched m h i = m i := by
  have habove := hs.above
  have hself := Memory.Holds.self m h.place (jmpRel h.place h.pDetour)
  cases hp : h.patchAbove with
  | false =>
    have hpatch : h.patch = jmpRel h.place h.pDetour := by
      rw [patch, hp]
      exact List.append_nil _
    have hsize : h.patchSize = jmpRelSize := by rw [patchSize, hp]; rfl
    rw [hpatch, MinHook.patched, hp]
    refine ⟨hself, fun i hi => ?_⟩
    by_cases hlt : i < h.place
    · exact Memory.write_of_lt hlt
    · refine Memory.write_of_le ?_
      rw [length_jmpRel]
      exact Nat.le_of_not_lt fun h' => hi ⟨Nat.le_of_not_lt hlt, hsize ▸ h'⟩
  | true =>
    have hplace : h.place + jmpRelSize = h.pTarget := by
      rw [place, hp]
      exact Nat.sub_add_cancel (habove hp)
    have hsize : h.patchSize = jmpRelSize + jmpShortSize := by rw [patchSize, hp]; rfl
    have hpatch : h.patch = jmpRel h.place h.pDetour ++
        jmpShort (-(jmpShortSize + jmpRelSize : ℕ)) := by
      rw [patch, hp]
      rfl
    rw [hpatch, MinHook.patched, hp]
    refine ⟨Memory.holds_append.mpr ⟨?_, ?_⟩, fun i hi => ?_⟩
    · refine hself.write (Or.inl ?_)
      rw [length_jmpRel]
      exact hplace.le
    · rw [length_jmpRel]
      exact hplace ▸ Memory.Holds.self _ _ _
    · have hout : i < h.place ∨ h.place + (jmpRelSize + jmpShortSize) ≤ i := by
        by_cases hlt : i < h.place
        · exact Or.inl hlt
        · exact Or.inr (Nat.le_of_not_lt fun h' => hi ⟨Nat.le_of_not_lt hlt, hsize ▸ h'⟩)
      show ((m.write _ _).write _ _) i = m i
      rcases hout with hlt | hle
      · rw [Memory.write_of_lt (by omega), Memory.write_of_lt hlt]
      · rw [Memory.write_of_le, Memory.write_of_le]
        · rw [length_jmpRel]
          exact (Nat.add_le_add_left (Nat.le_add_right _ _) _).trans hle
        · rw [length_jmpShort, ← hplace]
          exact (Nat.add_assoc _ _ _).trans_le hle

end HookEntry

/-! ### The invariant -/

/-- The table has room for its entries. -/
structure Room (e : Engine) : Prop where
  length_le : e.hooks.length ≤ e.capacity
  empty : e.allocated = false → e.hooks = []
  le_capacity : e.allocated = true → initialHookCapacity ≤ e.capacity

/-- **The invariant** of a run on the memory `m₀`; `asked` is the detour of each function, and the
slots `extra` are in use as well. -/
structure Inv (P : Place) (m₀ : Memory) (asked : ℕ → ℕ) (extra : List ℕ) (e : Engine) : Prop where
  idle : e.initialized = false → e.hooks = []
  room : Room e
  distinct : (e.hooks.map HookEntry.pTarget).Nodup
  targets : ∀ h ∈ e.hooks, P.targets h.pTarget
  pool : e.buffers.Inv (extra ++ e.hooks.map HookEntry.pTrampoline)
  pages : ∀ b ∈ e.buffers.pages, P.pages b
  sound : ∀ h ∈ e.hooks, h.Sound m₀
  asked_lt : ∀ h ∈ e.hooks, asked h.pTarget < 2 ^ 47
  relay : ∀ h ∈ e.hooks, e.mem.Holds h.pDetour (jmpAbs (asked h.pTarget))
  patch : ∀ h ∈ e.hooks, h.isEnabled = true → e.mem.Holds h.place h.patch
  code : ∀ i, (∀ b, P.pages b → ¬InPage b i) →
    (∀ h ∈ e.hooks, h.isEnabled = true → ¬h.InPatch i) → e.mem i = m₀ i

section

variable {P : Place} {m₀ : Memory} {asked : ℕ → ℕ} {extra : List ℕ} {e : Engine}

/-- The relay of a hook is in its slot. -/
theorem HookEntry.Sound.inSlot {h : HookEntry} (hs : h.Sound m₀) {i dest : ℕ}
    (hle : h.pDetour ≤ i) (hlt : i < h.pDetour + (jmpAbs dest).length) :
    InSlot h.pTrampoline i := by
  rw [length_jmpAbs] at hlt
  have hle' := hs.le_relay
  have hlt' := hs.relay_le
  exact ⟨by omega, by omega⟩

/-- A slot in use is in a page that was granted. -/
theorem Inv.page_of_slot (h : Inv P m₀ asked extra e) {hook : HookEntry}
    (hmem : hook ∈ e.hooks) {i : ℕ} (hi : InSlot hook.pTrampoline i) :
    ∃ b, P.pages b ∧ InPage b i := by
  obtain ⟨b, hb, hle, hlt, -⟩ :=
    h.pool.slot (List.mem_append_right extra (List.mem_map_of_mem hmem))
  obtain ⟨hi, hi'⟩ := hi
  exact ⟨b, h.pages b hb, by omega, by omega⟩

/-- The relays are no code. -/
theorem Inv.relay_not_inPatch (h : Inv P m₀ asked extra e) {hook hook' : HookEntry}
    (hmem : hook ∈ e.hooks) (hmem' : hook' ∈ e.hooks) {i : ℕ} (hi : InSlot hook.pTrampoline i) :
    ¬hook'.InPatch i := by
  intro hi'
  obtain ⟨b, hb, hin⟩ := h.page_of_slot hmem hi
  exact P.not_inPage (h.targets _ hmem') ((h.sound _ hmem').inArea hi') hb hin

/-- **The memory is written in pages**, and not in slots that are in use. -/
theorem Inv.frame (h : Inv P m₀ asked extra e) {buffers : Buffers} {extra' : List ℕ}
    (hpool : buffers.Inv (extra' ++ e.hooks.map HookEntry.pTrampoline))
    (hpages : ∀ b ∈ buffers.pages, P.pages b)
    (hframe : Frame P.pages (e.hooks.map HookEntry.pTrampoline) e.mem buffers.mem) :
    Inv P m₀ asked extra' { e with buffers := buffers } where
  idle := h.idle
  room := ⟨h.room.length_le, h.room.empty, h.room.le_capacity⟩
  distinct := h.distinct
  targets := h.targets
  pool := hpool
  pages := hpages
  sound := h.sound
  asked_lt := h.asked_lt
  relay hook hmem := (h.relay hook hmem).congr fun i hle hlt =>
    hframe.slots _ (List.mem_map_of_mem hmem) i ((h.sound _ hmem).inSlot hle hlt)
  patch hook hmem hen := by
    refine (h.patch hook hmem hen).congr fun i hle hlt => hframe.outside i fun b hb => ?_
    rw [hook.length_patch] at hlt
    exact P.not_inPage (h.targets _ hmem) ((h.sound _ hmem).inArea ⟨hle, hlt⟩) hb
  code i hi hpatch := (hframe.outside i hi).trans (h.code i hi hpatch)

/-- **A function that is hooked leads to its detour.** -/
theorem Inv.jumps (h : Inv P m₀ asked extra e) {hook : HookEntry} (hmem : hook ∈ e.hooks)
    (hen : hook.isEnabled = true) : e.mem.Jumps hook.pTarget (asked hook.pTarget) := by
  have hs := h.sound hook hmem
  have hpatch := h.patch hook hmem hen
  have hlt := hs.target_lt
  have hdetour := h.asked_lt hook hmem
  have hle := hs.le_relay
  have hle' := hs.relay_le
  obtain ⟨hnear, hnear'⟩ := hs.near
  simp only [maxMemoryRange, memorySlotSize] at hnear hnear' hle'
  -- the relay
  have hrelay : Jumps.jump e.mem hook.pDetour = some (asked hook.pTarget) :=
    jump_jmpAbs (h.relay hook hmem) (by omega) (by omega)
  -- the jump to the relay
  obtain ⟨hrel, hshort⟩ := Memory.holds_append.mp hpatch
  have hplace : hook.place ≤ hook.pTarget ∧ hook.pTarget ≤ hook.place + jmpRelSize := by
    rw [HookEntry.place]
    split
    · exact ⟨Nat.sub_le _ _, by omega⟩
    · exact ⟨Nat.le_refl _, Nat.le_add_right _ _⟩
  simp only [jmpRelSize] at hplace
  have hlong : Jumps.jump e.mem hook.place = some hook.pDetour :=
    jump_jmpRel hrel (by omega) (by omega) (by omega)
  refine Relation.ReflTransGen.tail (b := hook.pDetour) ?_ hrelay
  cases habove : hook.patchAbove with
  | false =>
    have hsame : hook.place = hook.pTarget := by rw [HookEntry.place, habove]; rfl
    exact Relation.ReflTransGen.single (hsame ▸ hlong)
  | true =>
    have hfive := hs.above habove
    have hsame : hook.place + 5 = hook.pTarget := by
      rw [HookEntry.place, habove]
      exact Nat.sub_add_cancel hfive
    rw [length_jmpRel, habove, if_pos rfl, hsame] at hshort
    have hback : Jumps.jump e.mem hook.pTarget = some hook.place :=
      jump_jmpShort hshort (by decide) (by decide)
        (by simp only [jmpShortSize, jmpRelSize]; omega) (by omega)
    exact Relation.ReflTransGen.tail (b := hook.place) (Relation.ReflTransGen.single hback) hlong

/-- What is in a table after one entry was replaced. -/
theorem mem_set_cases {hooks : List HookEntry} (hdistinct : (hooks.map HookEntry.pTarget).Nodup)
    {pos : ℕ} {hook hook' : HookEntry} (hget : hooks[pos]? = some hook) {x : HookEntry}
    (hx : x ∈ hooks.set pos hook') : x = hook' ∨ x ∈ hooks ∧ x.pTarget ≠ hook.pTarget := by
  obtain ⟨i, hi⟩ := List.getElem?_of_mem hx
  by_cases heq : pos = i
  · subst heq
    rw [List.getElem?_set_self' , hget] at hi
    exact Or.inl (Option.some.inj hi).symm
  · rw [List.getElem?_set_ne heq] at hi
    refine Or.inr ⟨List.mem_of_getElem? hi, fun hsame => heq ?_⟩
    have hlt : pos < (hooks.map HookEntry.pTarget).length := by
      rw [List.length_map]
      exact (List.getElem?_eq_some_iff.mp hget).1
    refine (List.getElem?_inj hlt hdistinct).mp ?_
    rw [List.getElem?_map, List.getElem?_map, hget, hi]
    exact congrArg some hsame.symm

theorem map_set_of_eq {α : Type*} {hooks : List HookEntry} {pos : ℕ} {hook hook' : HookEntry}
    (hget : hooks[pos]? = some hook) (f : HookEntry → α) (heq : f hook' = f hook) :
    (hooks.set pos hook').map f = hooks.map f := by
  obtain ⟨hlt, hget⟩ := List.getElem?_eq_some_iff.mp hget
  rw [List.map_set, heq, ← hget, ← List.getElem_map f (h := by rw [List.length_map]; exact hlt),
    List.set_getElem_self]

/-- What `EnableHookLL` writes, and that it writes nothing else. -/
theorem HookEntry.Sound.switched {hook : HookEntry} (hs : hook.Sound m₀) (m : Memory)
    (enable : Bool) :
    let m' := if enable then MinHook.patched m hook else m.write hook.place hook.backup
    (∀ i, ¬hook.InPatch i → m' i = m i) ∧ (enable = true → m'.Holds hook.place hook.patch) ∧
      (enable = false → ∀ i, hook.InPatch i → m' i = m₀ i) := by
  obtain ⟨hholds, hkeep⟩ := hs.patched m
  cases enable with
  | true => exact ⟨hkeep, fun _ => hholds, fun h => by cases h⟩
  | false =>
    refine ⟨fun i hi => ?_, fun h => absurd h Bool.false_ne_true, fun _ i hi => ?_⟩
    · show m.write hook.place hook.backup i = m i
      by_cases hlt : i < hook.place
      · exact Memory.write_of_lt hlt
      · refine Memory.write_of_le ?_
        rw [hs.backup, Memory.length_read]
        exact Nat.le_of_not_lt fun h' => hi ⟨Nat.le_of_not_lt hlt, h'⟩
    · have hself := Memory.Holds.self m hook.place hook.backup
      rw [Memory.Holds, hs.backup, Memory.length_read] at hself
      show m.write hook.place hook.backup i = m₀ i
      rw [hs.backup]
      exact Memory.eq_of_read_eq hself hi.1 hi.2

/-- Whether a hook is enabled says nothing about its place. -/
theorem HookEntry.Sound.setEnabled {hook : HookEntry} (hs : hook.Sound m₀) (enable queue : Bool) :
    HookEntry.Sound m₀ { hook with isEnabled := enable, queueEnable := queue } :=
  ⟨hs.near, hs.le_relay, hs.relay_le, hs.boundaries, hs.above, hs.target_pos, hs.target_lt,
    hs.backup⟩

/-- **One hook is switched.** -/
theorem Inv.switch (h : Inv P m₀ asked extra e) {pos : ℕ} {hook : HookEntry}
    (hget : e.hooks[pos]? = some hook) (enable : Bool) :
    Inv P m₀ asked extra (switch e pos hook enable) := by
  have hmem : hook ∈ e.hooks := List.mem_of_getElem? hget
  have hsound := h.sound hook hmem
  obtain ⟨hout, hpatched, hrestored⟩ := hsound.switched e.mem enable
  have hcases : ∀ x ∈ (MinHook.switch e pos hook enable).hooks,
      x = { hook with isEnabled := enable, queueEnable := enable } ∨
        x ∈ e.hooks ∧ x.pTarget ≠ hook.pTarget :=
    fun x hx => mem_set_cases h.distinct hget hx
  have hsame : ∀ x ∈ (MinHook.switch e pos hook enable).hooks, ∃ y ∈ e.hooks,
      x.pTarget = y.pTarget ∧ x.pDetour = y.pDetour ∧ x.Sound m₀ := by
    intro x hx
    rcases hcases x hx with rfl | ⟨hx, -⟩
    · exact ⟨hook, hmem, rfl, rfl, hsound.setEnabled _ _⟩
    · exact ⟨x, hx, rfl, rfl, h.sound x hx⟩
  exact
    { idle := fun hidle => by
        show e.hooks.set pos _ = []
        rw [h.idle hidle]
        rfl
      room := by
        refine ⟨?_, fun hempty => ?_, h.room.le_capacity⟩
        · show (e.hooks.set pos _).length ≤ e.capacity
          rw [List.length_set]
          exact h.room.length_le
        · show e.hooks.set pos _ = []
          rw [h.room.empty hempty]
          rfl
      distinct := by
        show ((e.hooks.set pos _).map HookEntry.pTarget).Nodup
        rw [map_set_of_eq hget HookEntry.pTarget]
        · exact h.distinct
        · rfl
      targets := fun x hx => by
        obtain ⟨y, hy, htarget, -⟩ := hsame x hx
        exact htarget ▸ h.targets y hy
      pool := by
        show Buffers.Inv _ (extra ++ (e.hooks.set pos _).map HookEntry.pTrampoline)
        rw [map_set_of_eq hget HookEntry.pTrampoline]
        · exact ⟨h.pool.pool, h.pool.busy⟩
        · rfl
      pages := h.pages
      sound := fun x hx => by
        obtain ⟨y, -, -, -, hx⟩ := hsame x hx
        exact hx
      asked_lt := fun x hx => by
        obtain ⟨y, hy, htarget, -⟩ := hsame x hx
        exact htarget ▸ h.asked_lt y hy
      relay := fun x hx => by
        obtain ⟨y, hy, htarget, hdetour, -⟩ := hsame x hx
        rw [htarget, hdetour]
        exact (h.relay y hy).congr fun i hle hlt =>
          hout i (h.relay_not_inPatch hy hmem ((h.sound y hy).inSlot hle hlt))
      patch := fun x hx hen => by
        rcases hcases x hx with rfl | ⟨hx, hne⟩
        · exact hpatched hen
        · refine (h.patch x hx hen).congr fun i hle hlt => hout i fun hi => hne ?_
          rw [x.length_patch] at hlt
          exact P.eq_of_inArea (h.targets x hx) (h.targets hook hmem)
            ((h.sound x hx).inArea ⟨hle, hlt⟩) (hsound.inArea hi)
      code := fun i hi hpatch => by
        by_cases hin : hook.InPatch i
        · cases enable with
          | false => exact hrestored rfl i hin
          | true =>
            refine absurd hin (hpatch { hook with isEnabled := true, queueEnable := true } ?_ rfl)
            exact List.mem_set (List.getElem?_eq_some_iff.mp hget).1 _
        · refine (hout i hin).trans (h.code i hi fun x hx hen hxi => ?_)
          obtain ⟨j, hj⟩ := List.getElem?_of_mem hx
          by_cases heq : pos = j
          · subst heq
            rw [hget] at hj
            exact hin (Option.some.inj hj ▸ hxi)
          · refine hpatch x (List.mem_of_getElem? (i := j) ?_) hen hxi
            show (e.hooks.set pos _)[j]? = some x
            rw [List.getElem?_set_ne heq]
            exact hj }

variable {si : SystemInfo} {os : HookOs si}

theorem Inv.threads (h : Inv P m₀ asked extra e) (threads : List ℕ) :
    Inv P m₀ asked extra { e with threads := threads } :=
  ⟨h.idle, ⟨h.room.length_le, h.room.empty, h.room.le_capacity⟩, h.distinct, h.targets, h.pool,
    h.pages, h.sound, h.asked_lt, h.relay, h.patch, h.code⟩

/-- To stop the threads changes no hook. -/
theorem freeze_hooks {hooks : List HookEntry} {action : Action} {e' : Engine}
    (hfreeze : freeze os e hooks action = some e') : e'.hooks = e.hooks := by
  unfold freeze at hfreeze
  split at hfreeze
  · cases hfreeze
    rfl
  · cases hfreeze

theorem Inv.freeze (h : Inv P m₀ asked extra e) {hooks : List HookEntry} {action : Action}
    {e' : Engine} (hfreeze : freeze os e hooks action = some e') :
    Inv P m₀ asked extra e' := by
  unfold MinHook.freeze at hfreeze
  split at hfreeze
  · cases hfreeze
    exact h.threads _
  · cases hfreeze

/-- A page that cannot be made writable, or a switched hook. -/
theorem enableHookLL_cases (os : HookOs si) (e : Engine) (pos : ℕ) (hook : HookEntry)
    (enable : Bool) :
    enableHookLL os e pos hook enable = (.memoryProtect, e) ∨
      enableHookLL os e pos hook enable = (.ok, MinHook.switch e pos hook enable) := by
  unfold enableHookLL
  split
  · exact Or.inl rfl
  · exact Or.inr rfl

/-- **One hook is switched.** -/
theorem Inv.enableHookLL (h : Inv P m₀ asked extra e) {pos : ℕ} {hook : HookEntry}
    (hget : e.hooks[pos]? = some hook) (enable : Bool) :
    Inv P m₀ asked extra (enableHookLL os e pos hook enable).2 := by
  rcases enableHookLL_cases os e pos hook enable with heq | heq
  · rw [heq]
    exact h
  · rw [heq]
    exact h.switch hget enable

/-- **One turn of the loop.** -/
theorem switchLoop_cases (os : HookOs si) (action : Action) (left : ℕ) {pos : ℕ} {e : Engine}
    {hook : HookEntry} (hget : e.hooks[pos]? = some hook) :
    (hook.isEnabled = action.wants hook ∧ switchLoop os action (left + 1) pos e =
        switchLoop os action left (pos + 1) e) ∨
      switchLoop os action (left + 1) pos e = (.memoryProtect, e) ∨
      switchLoop os action (left + 1) pos e =
        switchLoop os action left (pos + 1) (MinHook.switch e pos hook (action.wants hook)) := by
  rw [MinHook.switchLoop, hget]
  show _ ∨ (if _ then _ else _) = _ ∨ (if _ then _ else _) = _
  by_cases hwants : hook.isEnabled = action.wants hook
  · exact Or.inl ⟨hwants, if_pos hwants⟩
  · rw [if_neg hwants]
    rcases enableHookLL_cases os e pos hook (action.wants hook) with heq | heq
    · rw [heq]
      exact Or.inr (Or.inl rfl)
    · rw [heq]
      exact Or.inr (Or.inr rfl)

theorem switchLoop_none (os : HookOs si) (action : Action) (left : ℕ) {pos : ℕ} {e : Engine}
    (hget : e.hooks[pos]? = none) : switchLoop os action left pos e = (.ok, e) := by
  cases left with
  | zero => rfl
  | succ left => rw [MinHook.switchLoop, hget]

/-- **One hook after the other, up to the first failure.** -/
theorem Inv.switchLoop {action : Action} {left pos : ℕ} (h : Inv P m₀ asked extra e) :
    Inv P m₀ asked extra (switchLoop os action left pos e).2 := by
  induction left generalizing pos e with
  | zero => exact h
  | succ left ih =>
    cases hget : e.hooks[pos]? with
    | none =>
      rw [switchLoop_none os action _ hget]
      exact h
    | some hook =>
      rcases switchLoop_cases os action left hget with ⟨-, heq⟩ | heq | heq
      · rw [heq]
        exact ih h
      · rw [heq]
        exact h
      · rw [heq]
        exact ih (h.switch hget _)

/-- All hooks, with the threads stopped meanwhile. -/
theorem Inv.switchAll (h : Inv P m₀ asked extra e) (action : Action) :
    Inv P m₀ asked extra (switchAll os action e).2 := by
  unfold MinHook.switchAll
  split
  · exact h
  · split
    · exact h
    · next e' hfreeze => exact (h.freeze hfreeze).switchLoop

end

end Dx12Track.MinHook
