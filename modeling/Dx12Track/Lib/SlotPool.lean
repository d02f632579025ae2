import Mathlib.Data.List.Perm.Subperm
import Mathlib.Data.List.Nodup

/-!
# Pools of slots

Memory is taken in blocks, and a block is cut into slots of one size.  A block keeps its
free slots in a list, of which the first is handed out next, and the number of those that
are in use; a slot that is given back is the next one to go, and a block goes with the last
slot in use.  What is in use is known to the callers alone.

* `Layout` — the slots of a block, and the block that a slot is in.
* `insert`, `pop`, `push` — a new block; a slot is handed out; a slot is given back.
* `Inv` — **in every block the free slots and those in use are the slots of the block**.
* `Inv.insert`, `Inv.pop`, `Inv.push` — the operations keep it.
* `Inv.nodup` — no slot is handed out twice.
-/

namespace SlotPool

variable {β σ : Type*} [DecidableEq β]

/-- How blocks are cut into slots. -/
structure Layout (β σ : Type*) where
  slots : β → List σ
  owner : σ → β
  nodup : ∀ b, (slots b).Nodup

/-- The slots of the block `b` are in it. -/
def Layout.Fits (L : Layout β σ) (b : β) : Prop := ∀ s ∈ L.slots b, L.owner s = b

/-- A block. -/
structure Block (β σ : Type*) where
  base : β
  free : List σ
  used : ℕ

/-- A new block comes first. -/
def insert (L : Layout β σ) (b : β) (blocks : List (Block β σ)) : List (Block β σ) :=
  ⟨b, L.slots b, 0⟩ :: blocks

/-- A slot of the block `b`. -/
def pop (b : β) : List (Block β σ) → Option (σ × List (Block β σ))
  | [] => none
  | blk :: blocks =>
    if blk.base = b then
      match blk.free with
      | [] => none
      | s :: free => some (s, { blk with free := free, used := blk.used + 1 } :: blocks)
    else (pop b blocks).map fun r => (r.1, blk :: r.2)

/-- The slot `s` is given back. -/
def push (L : Layout β σ) (s : σ) : List (Block β σ) → List (Block β σ)
  | [] => []
  | blk :: blocks =>
    if blk.base = L.owner s then
      if blk.used - 1 = 0 then blocks
      else { blk with free := s :: blk.free, used := blk.used - 1 } :: blocks
    else blk :: push L s blocks

/-! ### What the operations do -/

theorem pop_split {b : β} {blocks blocks' : List (Block β σ)} {s : σ}
    (h : pop b blocks = some (s, blocks')) :
    ∃ us free used vs, blocks = us ++ ⟨b, s :: free, used⟩ :: vs ∧
      blocks' = us ++ ⟨b, free, used + 1⟩ :: vs := by
  induction blocks generalizing blocks' with
  | nil => cases h
  | cons blk blocks ih =>
    rw [pop] at h
    split at h
    · next hb =>
      obtain ⟨base, free, used⟩ := blk
      subst hb
      cases free with
      | nil => cases h
      | cons s' free =>
        cases h
        exact ⟨[], free, used, blocks, rfl, rfl⟩
    · obtain ⟨⟨s', rest⟩, hrest, heq⟩ := Option.map_eq_some_iff.mp h
      cases heq
      obtain ⟨us, free, used, vs, rfl, rfl⟩ := ih hrest
      exact ⟨blk :: us, free, used, vs, rfl, rfl⟩

/-- A block with the number of its slots in use is found, and goes if it was the last one. -/
theorem push_split {L : Layout β σ} {s : σ} {blocks : List (Block β σ)}
    (h : L.owner s ∈ blocks.map Block.base) :
    ∃ us free used vs, blocks = us ++ ⟨L.owner s, free, used⟩ :: vs ∧
      L.owner s ∉ us.map Block.base ∧
      push L s blocks =
        us ++ (if used - 1 = 0 then vs else ⟨L.owner s, s :: free, used - 1⟩ :: vs) := by
  induction blocks with
  | nil => cases h
  | cons blk blocks ih =>
    rw [push]
    by_cases hb : blk.base = L.owner s
    · obtain ⟨base, free, used⟩ := blk
      cases hb
      exact ⟨[], free, used, blocks, rfl, List.not_mem_nil, if_pos rfl⟩
    · have hmem : L.owner s ∈ blocks.map Block.base := by
        rcases List.mem_cons.mp h with heq | hmem
        · exact absurd heq.symm hb
        · exact hmem
      obtain ⟨us, free, used, vs, rfl, hus, hpush⟩ := ih hmem
      refine ⟨blk :: us, free, used, vs, rfl, ?_, ?_⟩
      · rw [List.map_cons, List.mem_cons, not_or]
        exact ⟨fun heq => hb heq.symm, hus⟩
      · rw [if_neg hb, hpush]
        rfl

/-! ### The invariant -/

/-- The slots of `live` that are in the block `b`. -/
def inBlock (L : Layout β σ) (b : β) (live : List σ) : List σ := live.filter (L.owner · = b)

/-- The free slots of a block and those in use are its slots. -/
structure Full (L : Layout β σ) (live : List σ) (blk : Block β σ) : Prop where
  perm : (blk.free ++ inBlock L blk.base live).Perm (L.slots blk.base)
  used : blk.used = (inBlock L blk.base live).length

/-- **The invariant** of a pool of which the slots `live` are in use. -/
structure Inv (L : Layout β σ) (blocks : List (Block β σ)) (live : List σ) : Prop where
  distinct : (blocks.map Block.base).Nodup
  fits : ∀ blk ∈ blocks, L.Fits blk.base
  full : ∀ blk ∈ blocks, Full L live blk
  owned : ∀ s ∈ live, L.owner s ∈ blocks.map Block.base

/-- No block is kept for nothing. -/
def Busy (blocks : List (Block β σ)) : Prop := ∀ blk ∈ blocks, 0 < blk.used

section

variable {L : Layout β σ} {blocks : List (Block β σ)} {live : List σ}

theorem Inv.nil (L : Layout β σ) : Inv L [] [] :=
  ⟨List.nodup_nil, fun _ h => absurd h List.not_mem_nil, fun _ h => absurd h List.not_mem_nil,
    fun _ h => absurd h List.not_mem_nil⟩

theorem Inv.perm (h : Inv L blocks live) {live' : List σ} (hperm : live.Perm live') :
    Inv L blocks live' := by
  refine ⟨h.distinct, h.fits, fun blk hblk => ?_, fun s hs => h.owned s (hperm.mem_iff.mpr hs)⟩
  have hin : (inBlock L blk.base live).Perm (inBlock L blk.base live') := hperm.filter _
  exact ⟨(hin.append_left _).symm.trans (h.full blk hblk).perm,
    (h.full blk hblk).used.trans hin.length_eq⟩

/-- A slot in use is one of its block. -/
theorem Inv.mem_slots (h : Inv L blocks live) {s : σ} (hs : s ∈ live) :
    s ∈ L.slots (L.owner s) := by
  obtain ⟨blk, hblk, hbase⟩ := List.mem_map.mp (h.owned s hs)
  have hin : s ∈ inBlock L blk.base live :=
    List.mem_filter.mpr ⟨hs, decide_eq_true hbase.symm⟩
  rw [← hbase]
  exact (h.full blk hblk).perm.mem_iff.mp (List.mem_append_right _ hin)

/-- **No slot is in use twice.** -/
theorem Inv.nodup (h : Inv L blocks live) : live.Nodup := by
  classical
  refine List.nodup_iff_count_le_one.mpr fun s => ?_
  by_cases hs : s ∈ live
  · obtain ⟨blk, hblk, hbase⟩ := List.mem_map.mp (h.owned s hs)
    have hfilter : (inBlock L blk.base live).count s = live.count s :=
      List.count_filter (decide_eq_true hbase.symm)
    have hnodup : (inBlock L blk.base live).Nodup :=
      ((h.full blk hblk).perm.nodup_iff.mpr (L.nodup _)).of_append_right
    rw [← hfilter]
    exact List.nodup_iff_count_le_one.mp hnodup s
  · rw [List.count_eq_zero.mpr hs]
    exact Nat.zero_le 1

/-- **A new block.** -/
theorem Inv.insert (h : Inv L blocks live) {b : β} (hfits : L.Fits b)
    (hb : b ∉ blocks.map Block.base) : Inv L (SlotPool.insert L b blocks) live := by
  have hnone : inBlock L b live = [] := by
    refine List.filter_eq_nil_iff.mpr fun s hs heq => hb ?_
    exact of_decide_eq_true heq ▸ h.owned s hs
  refine ⟨List.nodup_cons.mpr ⟨hb, h.distinct⟩, List.forall_mem_cons.mpr ⟨hfits, h.fits⟩,
    fun blk hblk => ?_, fun s hs => List.mem_cons_of_mem _ (h.owned s hs)⟩
  rcases List.mem_cons.mp hblk with rfl | hmem
  · refine ⟨?_, ?_⟩
    · rw [hnone, List.append_nil]
    · rw [hnone]
      rfl
  · exact h.full blk hmem

theorem inBlock_cons_of_ne {b : β} {s : σ} (h : L.owner s ≠ b) (live : List σ) :
    inBlock L b (s :: live) = inBlock L b live :=
  List.filter_cons_of_neg (by simpa using h)

theorem inBlock_cons (L : Layout β σ) (s : σ) (live : List σ) :
    inBlock L (L.owner s) (s :: live) = s :: inBlock L (L.owner s) live :=
  List.filter_cons_of_pos (by simp)

theorem Full.cons_of_ne {blk : Block β σ} (h : Full L live blk) {s : σ}
    (hne : L.owner s ≠ blk.base) : Full L (s :: live) blk := by
  refine ⟨?_, ?_⟩
  · rw [inBlock_cons_of_ne hne]
    exact h.perm
  · rw [inBlock_cons_of_ne hne]
    exact h.used

theorem Full.of_cons_of_ne {blk : Block β σ} {s : σ} (h : Full L (s :: live) blk)
    (hne : L.owner s ≠ blk.base) : Full L live blk := by
  obtain ⟨hperm, hused⟩ := h
  rw [inBlock_cons_of_ne hne] at hperm hused
  exact ⟨hperm, hused⟩

/-- Blocks beside the one of a slot. -/
theorem Inv.full_beside {us vs : List (Block β σ)} {blk : Block β σ}
    (h : Inv L (us ++ blk :: vs) live) {blk' : Block β σ} (hmem : blk' ∈ us ++ vs) :
    Full L live blk' ∧ blk'.base ≠ blk.base := by
  have hdistinct := h.distinct
  rw [List.map_append, List.map_cons, List.nodup_middle, List.nodup_cons] at hdistinct
  refine ⟨h.full blk' ?_, fun heq => hdistinct.1 ?_⟩
  · rcases List.mem_append.mp hmem with hus | hvs
    · exact List.mem_append_left _ hus
    · exact List.mem_append_right _ (List.mem_cons_of_mem _ hvs)
  · rw [← heq, ← List.map_append]
    exact List.mem_map_of_mem hmem

omit [DecidableEq β] in
theorem fits_of_bases (h : ∀ blk ∈ blocks, L.Fits blk.base) {blocks' : List (Block β σ)}
    (hsub : ∀ b ∈ blocks'.map Block.base, b ∈ blocks.map Block.base) :
    ∀ blk ∈ blocks', L.Fits blk.base := by
  intro blk hblk
  obtain ⟨blk', hmem, heq⟩ := List.mem_map.mp (hsub _ (List.mem_map_of_mem hblk))
  exact heq ▸ h blk' hmem

/-- **A slot is handed out**: it is one of the block, and was not in use. -/
theorem Inv.pop (h : Inv L blocks live) {b : β} {s : σ} {blocks' : List (Block β σ)}
    (hpop : pop b blocks = some (s, blocks')) :
    L.owner s = b ∧ s ∉ live ∧ Inv L blocks' (s :: live) ∧
      blocks'.map Block.base = blocks.map Block.base := by
  obtain ⟨us, free, used, vs, rfl, rfl⟩ := pop_split hpop
  obtain ⟨hperm, hused⟩ := h.full ⟨b, s :: free, used⟩ (List.mem_append_right _ List.mem_cons_self)
  have howner : L.owner s = b :=
    h.fits ⟨b, s :: free, used⟩ (List.mem_append_right _ List.mem_cons_self) s
      (hperm.mem_iff.mp (List.mem_append_left _ List.mem_cons_self))
  have hfresh : s ∉ live := by
    intro hs
    have hnodup : (s :: free ++ inBlock L b live).Nodup := hperm.nodup_iff.mpr (L.nodup b)
    rw [List.cons_append, List.nodup_cons] at hnodup
    exact hnodup.1 (List.mem_append_right _ (List.mem_filter.mpr ⟨hs, decide_eq_true howner⟩))
  have hbases : (us ++ ⟨b, free, used + 1⟩ :: vs).map Block.base =
      (us ++ ⟨b, s :: free, used⟩ :: vs).map Block.base := by
    rw [List.map_append, List.map_append, List.map_cons, List.map_cons]
  refine ⟨howner, hfresh, ⟨hbases ▸ h.distinct, fits_of_bases h.fits fun b' hb' => hbases ▸ hb',
    fun blk hblk => ?_, fun s' hs' => ?_⟩, hbases⟩
  · rcases List.mem_append.mp hblk with hus | hcons
    · obtain ⟨hfull, hne⟩ := h.full_beside (List.mem_append_left vs hus)
      exact hfull.cons_of_ne (fun heq => hne (heq.symm.trans howner))
    rcases List.mem_cons.mp hcons with rfl | hvs
    · have hin : inBlock L b (s :: live) = s :: inBlock L b live := howner ▸ inBlock_cons L s live
      refine ⟨?_, ?_⟩
      · show (free ++ inBlock L b (s :: live)).Perm (L.slots b)
        rw [hin]
        exact List.perm_middle.trans hperm
      · show used + 1 = (inBlock L b (s :: live)).length
        rw [hin, List.length_cons]
        exact congrArg (· + 1) hused
    · obtain ⟨hfull, hne⟩ := h.full_beside (List.mem_append_right us hvs)
      exact hfull.cons_of_ne (fun heq => hne (heq.symm.trans howner))
  · rw [hbases]
    rcases List.mem_cons.mp hs' with rfl | hmem
    · rw [howner, List.map_append, List.map_cons]
      exact List.mem_append_right _ List.mem_cons_self
    · exact h.owned s' hmem

/-- **A slot is given back.**  Its block goes if no other slot of it is in use. -/
theorem Inv.push {s : σ} (h : Inv L blocks (s :: live)) :
    Inv L (push L s blocks) live ∧
      ((push L s blocks).map Block.base).Sublist (blocks.map Block.base) := by
  obtain ⟨us, free, used, vs, rfl, -, hpush⟩ := push_split (h.owned s List.mem_cons_self)
  obtain ⟨hperm, hused⟩ :=
    h.full ⟨L.owner s, free, used⟩ (List.mem_append_right _ List.mem_cons_self)
  rw [inBlock_cons] at hperm hused
  have hbeside : ∀ blk ∈ us ++ vs, Full L live blk := by
    intro blk hblk
    obtain ⟨hfull, hne⟩ := h.full_beside hblk
    exact hfull.of_cons_of_ne fun heq => hne heq.symm
  have hfull : Full L live ⟨L.owner s, s :: free, used - 1⟩ := by
    refine ⟨List.perm_middle.symm.trans hperm, ?_⟩
    show used - 1 = _
    rw [show used = _ from hused, List.length_cons, Nat.add_sub_cancel]
  rw [hpush]
  by_cases hlast : used - 1 = 0
  · -- the last slot in use: the block goes
    rw [if_pos hlast]
    have hsub : ((us ++ vs).map Block.base).Sublist
        ((us ++ ⟨L.owner s, free, used⟩ :: vs).map Block.base) :=
      ((List.sublist_cons_self _ vs).append_left us).map _
    refine ⟨⟨h.distinct.sublist hsub, fits_of_bases h.fits fun b' hb' => hsub.subset hb', hbeside,
      fun s' hs' => ?_⟩, hsub⟩
    have hnone : inBlock L (L.owner s) live = [] :=
      List.length_eq_zero_iff.mp (hfull.used.symm.trans hlast)
    have hne : L.owner s' ≠ L.owner s := fun heq =>
      List.filter_eq_nil_iff.mp hnone s' hs' (decide_eq_true heq)
    have hin := h.owned s' (List.mem_cons_of_mem _ hs')
    rw [List.map_append, List.map_cons, List.mem_append, List.mem_cons] at hin
    rw [List.map_append, List.mem_append]
    rcases hin with hus | heq | hvs
    · exact Or.inl hus
    · exact absurd heq hne
    · exact Or.inr hvs
  · rw [if_neg hlast]
    have hbases : (us ++ ⟨L.owner s, s :: free, used - 1⟩ :: vs).map Block.base =
        (us ++ ⟨L.owner s, free, used⟩ :: vs).map Block.base := by
      rw [List.map_append, List.map_append, List.map_cons, List.map_cons]
    refine ⟨⟨hbases ▸ h.distinct, fits_of_bases h.fits fun b' hb' => hbases ▸ hb',
      fun blk hblk => ?_, fun s' hs' => ?_⟩, hbases ▸ List.Sublist.refl _⟩
    · rcases List.mem_append.mp hblk with hus | hcons
      · exact hbeside blk (List.mem_append_left vs hus)
      rcases List.mem_cons.mp hcons with rfl | hvs
      · exact hfull
      · exact hbeside blk (List.mem_append_right us hvs)
    · rw [hbases]
      exact h.owned s' (List.mem_cons_of_mem _ hs')

/-! ### Blocks that are not in use -/

theorem Busy.pop_insert (h : Busy blocks) {b : β} {s : σ} {blocks' : List (Block β σ)}
    (hpop : pop b (SlotPool.insert L b blocks) = some (s, blocks')) : Busy blocks' := by
  rw [SlotPool.insert, SlotPool.pop, if_pos rfl] at hpop
  split at hpop
  · cases hpop
  · cases hpop
    intro blk hblk
    rcases List.mem_cons.mp hblk with rfl | hmem
    · exact Nat.zero_lt_one
    · exact h blk hmem

theorem Busy.pop (h : Busy blocks) {b : β} {s : σ} {blocks' : List (Block β σ)}
    (hpop : pop b blocks = some (s, blocks')) : Busy blocks' := by
  obtain ⟨us, free, used, vs, rfl, rfl⟩ := pop_split hpop
  intro blk hblk
  rcases List.mem_append.mp hblk with hus | hcons
  · exact h blk (List.mem_append_left _ hus)
  rcases List.mem_cons.mp hcons with rfl | hvs
  · exact Nat.succ_pos used
  · exact h blk (List.mem_append_right _ (List.mem_cons_of_mem _ hvs))

theorem Busy.push (h : Busy blocks) (s : σ) : Busy (push L s blocks) := by
  induction blocks with
  | nil => exact h
  | cons blk blocks ih =>
    have hrest : Busy blocks := fun blk' h' => h blk' (List.mem_cons_of_mem _ h')
    rw [SlotPool.push]
    split
    · split
      · exact hrest
      · next hused =>
        intro blk' hblk'
        rcases List.mem_cons.mp hblk' with rfl | hmem
        · exact Nat.pos_of_ne_zero hused
        · exact hrest blk' hmem
    · intro blk' hblk'
      rcases List.mem_cons.mp hblk' with rfl | hmem
      · exact h blk' List.mem_cons_self
      · exact ih hrest blk' hmem

/-- The blocks of the pool are those of the slots in use. -/
theorem Inv.mem_bases_iff (h : Inv L blocks live) (hbusy : Busy blocks) {b : β} :
    b ∈ blocks.map Block.base ↔ ∃ s ∈ live, L.owner s = b := by
  constructor
  · intro hb
    obtain ⟨blk, hblk, rfl⟩ := List.mem_map.mp hb
    have hpos : 0 < (inBlock L blk.base live).length := (h.full blk hblk).used ▸ hbusy blk hblk
    obtain ⟨s, hs⟩ := List.exists_mem_of_length_pos hpos
    exact ⟨s, (List.mem_filter.mp hs).1, of_decide_eq_true (List.mem_filter.mp hs).2⟩
  · rintro ⟨s, hs, rfl⟩
    exact h.owned s hs

end

end SlotPool
