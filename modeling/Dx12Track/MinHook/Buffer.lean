import Dx12Track.Lib.Memory
import Dx12Track.Lib.SlotPool
import Mathlib.Data.List.Range

/-!
# The memory of the trampolines

MinHook puts its trampolines into pages of its own that lie near the functions they are
for, so that a jump with 32 bits gets there (`src/third_party/minhook/src/buffer.c`).  A
page is taken from the system where it has a free region, cut into slots of 64 bytes, and
given back with its last slot in use; the first slot of a page holds the list.

* `SystemInfo`, `Os` — what the system answers.
* `findPrevFreeRegion`, `findNextFreeRegion`, `getMemoryBlock` — the search for a page.
* `allocateBuffer`, `freeBuffer`, `uninitializeBuffer` — the operations.
* `Buffers.Inv` — **the slots in use are apart and in pages that are held, and every page that is
  held has a slot in use**.
* `allocated`, `freed` — the operations keep it, and what they write.
-/

namespace Dx12Track.MinHook

/-- `MEMORY_BLOCK_SIZE`. -/
def memoryBlockSize : ℕ := 0x1000

/-- `MEMORY_SLOT_SIZE`. -/
def memorySlotSize : ℕ := 64

/-- `MAX_MEMORY_RANGE`. -/
def maxMemoryRange : ℕ := 0x40000000

/-- `SYSTEM_INFO`.  Addresses are far below `2 ^ 64`, and nothing that is reckoned with them wraps
around. -/
structure SystemInfo where
  minimumApplicationAddress : ℕ
  maximumApplicationAddress : ℕ
  allocationGranularity : ℕ
  granularity_pos : 0 < allocationGranularity
  /-- The granularity is a multiple of the size of a page. -/
  page_dvd : memoryBlockSize ∣ allocationGranularity
  granularity_le : allocationGranularity ≤ minimumApplicationAddress
  page_le : memoryBlockSize ≤ maximumApplicationAddress
  maximum_lt : maximumApplicationAddress < 2 ^ 47

/-- `MEMORY_BASIC_INFORMATION`. -/
structure Region where
  /-- `State` is `MEM_FREE`. -/
  free : Bool
  allocationBase : ℕ
  baseAddress : ℕ
  regionSize : ℕ

/-- What the system answers during one call. -/
structure Os (si : SystemInfo) where
  virtualQuery : ℕ → Option Region
  /-- Whether a page is granted where it is asked for, if that is free. -/
  virtualAlloc : ℕ → Bool
  /-- An allocation begins where the granularity allows it, at or before the address. -/
  base_dvd : ∀ a r, virtualQuery a = some r → r.free = false →
    si.allocationGranularity ∣ r.allocationBase
  base_le : ∀ a r, virtualQuery a = some r → r.free = false → r.allocationBase ≤ a
  lt_end : ∀ a r, virtualQuery a = some r → a < r.baseAddress + r.regionSize

/-! ### The search for a page -/

section

variable (si : SystemInfo) (os : Os si)

theorem prev_lt {g a base : ℕ} (hg : 0 < g) (hbase : base ≤ a) (hle : ¬base < g) :
    base - g < a := by
  omega

/-- The loop of `FindPrevFreeRegion`. -/
def prevLoop (pMinAddr tryAddr : ℕ) : Option ℕ :=
  if pMinAddr ≤ tryAddr then
    match _hmbi : os.virtualQuery tryAddr with
    | none => none
    | some mbi =>
      if _hfree : mbi.free = false then
        if _hbase : mbi.allocationBase < si.allocationGranularity then none
        else prevLoop pMinAddr (mbi.allocationBase - si.allocationGranularity)
      else some tryAddr
  else none
termination_by tryAddr
decreasing_by exact prev_lt si.granularity_pos (os.base_le _ _ _hmbi _hfree) _hbase

def findPrevFreeRegion (pAddress pMinAddr : ℕ) : Option ℕ :=
  prevLoop si os pMinAddr
    (pAddress - pAddress % si.allocationGranularity - si.allocationGranularity)

/-- Rounded up to the granularity. -/
def roundUp (a : ℕ) : ℕ :=
  let a := a + (si.allocationGranularity - 1)
  a - a % si.allocationGranularity

theorem le_roundUp (a : ℕ) : a ≤ roundUp si a := by
  have hg := si.granularity_pos
  have hmod := Nat.mod_lt (a + (si.allocationGranularity - 1)) hg
  simp only [roundUp]
  omega

theorem next_lt {pMaxAddr tryAddr stop : ℕ} (hle : tryAddr ≤ pMaxAddr) (hlt : tryAddr < stop) :
    pMaxAddr + 1 - roundUp si stop < pMaxAddr + 1 - tryAddr := by
  have hround := le_roundUp si stop
  omega

/-- The loop of `FindNextFreeRegion`. -/
def nextLoop (pMaxAddr tryAddr : ℕ) : Option ℕ :=
  if _hle : tryAddr ≤ pMaxAddr then
    match _hmbi : os.virtualQuery tryAddr with
    | none => none
    | some mbi =>
      if mbi.free then some tryAddr
      else nextLoop pMaxAddr (roundUp si (mbi.baseAddress + mbi.regionSize))
  else none
termination_by pMaxAddr + 1 - tryAddr
decreasing_by exact next_lt si _hle (os.lt_end _ _ _hmbi)

def findNextFreeRegion (pAddress pMaxAddr : ℕ) : Option ℕ :=
  nextLoop si os pMaxAddr
    (pAddress - pAddress % si.allocationGranularity + si.allocationGranularity)

variable {si os}

/-- Free regions are looked for at multiples of the granularity. -/
theorem prevLoop_some {pMinAddr tryAddr a : ℕ} (hdvd : si.allocationGranularity ∣ tryAddr)
    (h : prevLoop si os pMinAddr tryAddr = some a) :
    a ≤ tryAddr ∧ pMinAddr ≤ a ∧ si.allocationGranularity ∣ a := by
  induction tryAddr using Nat.strong_induction_on with
  | _ tryAddr ih =>
    rw [prevLoop] at h
    split at h
    · next hmin =>
      split at h
      · cases h
      · next mbi hmbi =>
        split at h
        · next hfree =>
          split at h
          · cases h
          · next hbase =>
            have hlt := prev_lt si.granularity_pos (os.base_le _ _ hmbi hfree) hbase
            have hdvd' : si.allocationGranularity ∣
                mbi.allocationBase - si.allocationGranularity :=
              Nat.dvd_sub (os.base_dvd _ _ hmbi hfree) (Nat.dvd_refl _)
            obtain ⟨hle, hrest⟩ := ih _ hlt hdvd' h
            exact ⟨hle.trans hlt.le, hrest⟩
        · cases h
          exact ⟨Nat.le_refl _, hmin, hdvd⟩
    · cases h

theorem dvd_roundUp (a : ℕ) : si.allocationGranularity ∣ roundUp si a := Nat.dvd_sub_mod _

theorem nextLoop_some {pMaxAddr tryAddr a : ℕ} (hdvd : si.allocationGranularity ∣ tryAddr)
    (h : nextLoop si os pMaxAddr tryAddr = some a) :
    tryAddr ≤ a ∧ a ≤ pMaxAddr ∧ si.allocationGranularity ∣ a := by
  induction hn : pMaxAddr + 1 - tryAddr using Nat.strong_induction_on generalizing tryAddr with
  | _ n ih =>
    subst hn
    rw [nextLoop] at h
    split at h
    · next hmax =>
      split at h
      · cases h
      · next mbi hmbi =>
        have hlt := os.lt_end _ _ hmbi
        split at h
        · cases h
          exact ⟨Nat.le_refl _, hmax, hdvd⟩
        · obtain ⟨hle, hrest⟩ := ih _ (next_lt si hmax hlt) (dvd_roundUp _) h rfl
          exact ⟨(hlt.le.trans (le_roundUp si _)).trans hle, hrest⟩
    · cases h

theorem findPrevFreeRegion_some {pAddress pMinAddr a : ℕ} (hpos : 0 < pAddress)
    (h : findPrevFreeRegion si os pAddress pMinAddr = some a) :
    a < pAddress ∧ pMinAddr ≤ a ∧ si.allocationGranularity ∣ a := by
  have hg := si.granularity_pos
  obtain ⟨hle, hrest⟩ := prevLoop_some (Nat.dvd_sub (Nat.dvd_sub_mod _) (Nat.dvd_refl _)) h
  exact ⟨by omega, hrest⟩

theorem findNextFreeRegion_some {pAddress pMaxAddr a : ℕ}
    (h : findNextFreeRegion si os pAddress pMaxAddr = some a) :
    pAddress < a ∧ a ≤ pMaxAddr ∧ si.allocationGranularity ∣ a := by
  have hmod := Nat.mod_lt pAddress si.granularity_pos
  have hle := Nat.mod_le pAddress si.allocationGranularity
  obtain ⟨hnext, hrest⟩ := nextLoop_some (Nat.dvd_add (Nat.dvd_sub_mod _) (Nat.dvd_refl _)) h
  exact ⟨by omega, hrest⟩

end

/-- Where a page is looked for. -/
structure Window where
  minAddr : ℕ
  maxAddr : ℕ
  minAddr_pos : 0 < minAddr

theorem minAddr_pos (si : SystemInfo) (pOrigin : ℕ) :
    0 < if pOrigin > maxMemoryRange ∧ si.minimumApplicationAddress < pOrigin - maxMemoryRange
      then pOrigin - maxMemoryRange else si.minimumApplicationAddress := by
  have hmin := si.granularity_pos.trans_le si.granularity_le
  split <;> omega

/-- The addresses that `GetMemoryBlock` allows for a page. -/
def window (si : SystemInfo) (pOrigin : ℕ) : Window where
  minAddr :=
    if pOrigin > maxMemoryRange ∧ si.minimumApplicationAddress < pOrigin - maxMemoryRange
    then pOrigin - maxMemoryRange else si.minimumApplicationAddress
  maxAddr :=
    (if si.maximumApplicationAddress > pOrigin + maxMemoryRange
      then pOrigin + maxMemoryRange else si.maximumApplicationAddress) - (memoryBlockSize - 1)
  minAddr_pos := minAddr_pos si pOrigin

/-- The slots of a page, the last one first; the first 64 bytes are none of them. -/
def slotsOf (b : ℕ) : List ℕ :=
  (List.range' 1 ((memoryBlockSize - memorySlotSize) / memorySlotSize)).reverse.map
    fun i => b + memorySlotSize * i

theorem nodup_slotsOf (b : ℕ) : (slotsOf b).Nodup := by
  refine List.Nodup.map (fun i j h => ?_) (List.nodup_reverse.mpr List.nodup_range')
  simp only [memorySlotSize] at h
  omega

/-- `MEMORY_BLOCK`, and the block that `FreeBuffer` takes a slot to be in. -/
def layout : SlotPool.Layout ℕ ℕ where
  slots := slotsOf
  owner s := s / memoryBlockSize * memoryBlockSize
  nodup := nodup_slotsOf

/-- The pages of the library, with the memory of the process. -/
structure Buffers where
  mem : Memory
  /-- `g_pMemoryBlocks`. -/
  blocks : List (SlotPool.Block ℕ ℕ) := []

namespace Buffers

/-- The addresses of the pages. -/
def pages (st : Buffers) : List ℕ := st.blocks.map SlotPool.Block.base

end Buffers

section

variable (si : SystemInfo) (os : Os si)

/-- `VirtualAlloc` of a page at `a`: what is taken is not granted again. -/
def virtualAlloc (pages : List ℕ) (a : ℕ) : Bool := os.virtualAlloc a && !pages.contains a

/-- The search below `pOrigin`. -/
def allocPrev (pages : List ℕ) (w : Window) (pAlloc : ℕ) : Option ℕ :=
  if _hle : w.minAddr ≤ pAlloc then
    match _hfind : findPrevFreeRegion si os pAlloc w.minAddr with
    | none => none
    | some a => if virtualAlloc si os pages a then some a else allocPrev pages w a
  else none
termination_by pAlloc
decreasing_by exact (findPrevFreeRegion_some (w.minAddr_pos.trans_le _hle) _hfind).1

theorem next_find_lt {w : Window} {pAlloc a : ℕ} (hle : pAlloc ≤ w.maxAddr)
    (hfind : findNextFreeRegion si os pAlloc w.maxAddr = some a) :
    w.maxAddr + 1 - a < w.maxAddr + 1 - pAlloc := by
  have hlt := (findNextFreeRegion_some hfind).1
  omega

/-- The search above `pOrigin`. -/
def allocNext (pages : List ℕ) (w : Window) (pAlloc : ℕ) : Option ℕ :=
  if _hle : pAlloc ≤ w.maxAddr then
    match _hfind : findNextFreeRegion si os pAlloc w.maxAddr with
    | none => none
    | some a => if virtualAlloc si os pages a then some a else allocNext pages w a
  else none
termination_by w.maxAddr + 1 - pAlloc
decreasing_by exact next_find_lt si os _hle _hfind

/-- The `pNext` of free slots. -/
def link : List ℕ → Memory → Memory
  | [], m => m
  | s :: free, m => (link free m).write s (Memory.le 8 (free.headD 0))

/-- `GetMemoryBlock`: a page in the window that has a free slot, or a new one. -/
def getMemoryBlock (st : Buffers) (pOrigin : ℕ) : Option (ℕ × Buffers) :=
  let w := window si pOrigin
  match st.blocks.find? fun blk =>
      w.minAddr ≤ blk.base && blk.base < w.maxAddr && !blk.free.isEmpty with
  | some blk => some (blk.base, st)
  | none =>
    ((allocPrev si os st.pages w pOrigin).or (allocNext si os st.pages w pOrigin)).map fun b =>
      (b, { mem := link (slotsOf b) (st.mem.write b (List.replicate memoryBlockSize 0))
            blocks := SlotPool.insert layout b st.blocks })

/-- `AllocateBuffer`. -/
def allocateBuffer (st : Buffers) (pOrigin : ℕ) : Option (ℕ × Buffers) :=
  match getMemoryBlock si os st pOrigin with
  | none => none
  | some (b, st) => (SlotPool.pop b st.blocks).map fun r => (r.1, { st with blocks := r.2 })

end

/-- `FreeBuffer`. -/
def freeBuffer (st : Buffers) (pBuffer : ℕ) : Buffers :=
  match st.blocks.find? fun blk => blk.base = layout.owner pBuffer with
  | none => st
  | some blk =>
    { mem := st.mem.write pBuffer (Memory.le 8 (blk.free.headD 0))
      blocks := SlotPool.push layout pBuffer st.blocks }

/-- `UninitializeBuffer`. -/
def uninitializeBuffer (st : Buffers) : Buffers := { st with blocks := [] }

/-! ### Where the pages are -/

theorem le_minAddr {o r m : ℕ} : o ≤ (if o > r ∧ m < o - r then o - r else m) + r := by
  split <;> omega

theorem maxAddr_le {o r m p : ℕ} (h : p ≤ r) :
    (if m > o + r then o + r else m) - p + p ≤ o + r := by
  split <;> omega

/-- The window is near its origin. -/
theorem window_near (si : SystemInfo) (pOrigin : ℕ) :
    pOrigin ≤ (window si pOrigin).minAddr + maxMemoryRange ∧
      (window si pOrigin).maxAddr + (memoryBlockSize - 1) ≤ pOrigin + maxMemoryRange :=
  ⟨le_minAddr, maxAddr_le (by decide)⟩

section

variable {si : SystemInfo} {os : Os si}

theorem virtualAlloc_iff {pages : List ℕ} {a : ℕ} :
    virtualAlloc si os pages a = true ↔ os.virtualAlloc a = true ∧ a ∉ pages := by
  simp [virtualAlloc]

/-- What is granted: a page of its own, where the code asked for it. -/
structure Granted (os : Os si) (pages : List ℕ) (b : ℕ) : Prop where
  virtualAlloc : os.virtualAlloc b = true
  fresh : b ∉ pages
  dvd : si.allocationGranularity ∣ b

theorem Granted.page_dvd {pages : List ℕ} {b : ℕ} (h : Granted os pages b) :
    memoryBlockSize ∣ b := Nat.dvd_trans si.page_dvd h.dvd

theorem allocPrev_some {pages : List ℕ} {w : Window} {pAlloc b : ℕ}
    (h : allocPrev si os pages w pAlloc = some b) :
    Granted os pages b ∧ w.minAddr ≤ b ∧ b < pAlloc := by
  induction pAlloc using Nat.strong_induction_on with
  | _ pAlloc ih =>
    rw [allocPrev] at h
    split at h
    · next hle =>
      split at h
      · cases h
      · next a hfind =>
        obtain ⟨hlt, hmin, hdvd⟩ := findPrevFreeRegion_some (w.minAddr_pos.trans_le hle) hfind
        split at h
        · next halloc =>
          cases h
          obtain ⟨hgrant, hfresh⟩ := virtualAlloc_iff.mp halloc
          exact ⟨⟨hgrant, hfresh, hdvd⟩, hmin, hlt⟩
        · obtain ⟨hgranted, hmin', hlt'⟩ := ih a hlt h
          exact ⟨hgranted, hmin', hlt'.trans hlt⟩
    · cases h

theorem allocNext_some {pages : List ℕ} {w : Window} {pAlloc b : ℕ}
    (h : allocNext si os pages w pAlloc = some b) :
    Granted os pages b ∧ pAlloc < b ∧ b ≤ w.maxAddr := by
  induction hn : w.maxAddr + 1 - pAlloc using Nat.strong_induction_on generalizing pAlloc with
  | _ n ih =>
    subst hn
    rw [allocNext] at h
    split at h
    · next hle =>
      split at h
      · cases h
      · next a hfind =>
        obtain ⟨hlt, hmax, hdvd⟩ := findNextFreeRegion_some hfind
        split at h
        · next halloc =>
          cases h
          obtain ⟨hgrant, hfresh⟩ := virtualAlloc_iff.mp halloc
          exact ⟨⟨hgrant, hfresh, hdvd⟩, hlt, hmax⟩
        · obtain ⟨hgranted, hlt', hmax'⟩ := ih _ (next_find_lt si os hle hfind) h rfl
          exact ⟨hgranted, hlt.trans hlt', hmax'⟩
    · cases h

theorem fits_of_dvd {b : ℕ} (h : memoryBlockSize ∣ b) : layout.Fits b := by
  intro s hs
  obtain ⟨i, hi, rfl⟩ := List.mem_map.mp hs
  obtain ⟨k, rfl⟩ := h
  have hi' := List.mem_range'_1.mp (List.mem_reverse.mp hi)
  simp only [layout, memoryBlockSize, memorySlotSize] at *
  omega

theorem dvd_of_fits {b : ℕ} (h : layout.Fits b) : memoryBlockSize ∣ b := by
  have hmem : b + memorySlotSize * 1 ∈ layout.slots b :=
    List.mem_map_of_mem (List.mem_reverse.mpr (by decide))
  exact h _ hmem ▸ Nat.dvd_mul_left _ _

/-- The place of a slot in its page. -/
theorem mem_slotsOf {b s : ℕ} (h : s ∈ slotsOf b) :
    b + memorySlotSize ≤ s ∧ s + memorySlotSize ≤ b + memoryBlockSize ∧
      memorySlotSize ∣ s - b := by
  obtain ⟨i, hi, rfl⟩ := List.mem_map.mp h
  have hi' := List.mem_range'_1.mp (List.mem_reverse.mp hi)
  simp only [memoryBlockSize, memorySlotSize] at *
  exact ⟨by omega, by omega, by omega⟩

end

/-- A slot that a jump with 32 bits reaches from its function. -/
def Near (pOrigin s : ℕ) : Prop :=
  pOrigin ≤ s + maxMemoryRange ∧ s + memorySlotSize ≤ pOrigin + maxMemoryRange + 1

/-- The addresses of a page. -/
def InPage (b i : ℕ) : Prop := b ≤ i ∧ i < b + memoryBlockSize

/-- The addresses of a slot. -/
def InSlot (s i : ℕ) : Prop := s ≤ i ∧ i < s + memorySlotSize

namespace Buffers

/-- **The invariant**, with the slots in use. -/
structure Inv (st : Buffers) (live : List ℕ) : Prop where
  pool : SlotPool.Inv layout st.blocks live
  busy : SlotPool.Busy st.blocks

variable {st : Buffers} {live : List ℕ}

theorem Inv.page_dvd (h : Inv st live) {b : ℕ} (hb : b ∈ st.pages) : memoryBlockSize ∣ b := by
  obtain ⟨blk, hblk, rfl⟩ := List.mem_map.mp hb
  exact dvd_of_fits (h.pool.fits blk hblk)

/-- A slot in use is in a page that is held, behind its head. -/
theorem Inv.slot (h : Inv st live) {s : ℕ} (hs : s ∈ live) :
    ∃ b ∈ st.pages, b + memorySlotSize ≤ s ∧ s + memorySlotSize ≤ b + memoryBlockSize ∧
      memorySlotSize ∣ s := by
  have hb := h.pool.owned s hs
  obtain ⟨hle, hlt, hdvd⟩ := mem_slotsOf (h.pool.mem_slots hs)
  refine ⟨layout.owner s, hb, hle, hlt, ?_⟩
  have hpage : memorySlotSize ∣ layout.owner s :=
    Nat.dvd_trans (by decide : memorySlotSize ∣ memoryBlockSize) (h.page_dvd hb)
  have hsum : layout.owner s + (s - layout.owner s) = s := by omega
  exact hsum ▸ Nat.dvd_add hpage hdvd

/-- **Slots in use are apart.** -/
theorem Inv.apart (h : Inv st live) {s t : ℕ} (hs : s ∈ live) (ht : t ∈ live) (hne : s ≠ t) :
    s + memorySlotSize ≤ t ∨ t + memorySlotSize ≤ s := by
  obtain ⟨-, -, -, -, hdvd⟩ := h.slot hs
  obtain ⟨-, -, -, -, hdvd'⟩ := h.slot ht
  simp only [memorySlotSize] at *
  omega

/-- A slot in use meets no page but its own. -/
theorem Inv.not_inPage (h : Inv st live) {s : ℕ} (hs : s ∈ live) {b i : ℕ}
    (hdvd : memoryBlockSize ∣ b) (hb : b ∉ st.pages) (hi : InSlot s i) : ¬InPage b i := by
  rintro ⟨hle, hlt⟩
  obtain ⟨b', hb', hle', hlt', -⟩ := h.slot hs
  obtain ⟨hs, hs'⟩ := hi
  have hdvd' := h.page_dvd hb'
  have hne : b ≠ b' := fun heq => hb (heq ▸ hb')
  simp only [memoryBlockSize, memorySlotSize] at *
  omega

end Buffers

/-- What an operation does to the memory: it writes in the pages, and not in the slots in use. -/
structure Frame (pages : ℕ → Prop) (live : List ℕ) (m m' : Memory) : Prop where
  outside : ∀ i, (∀ b, pages b → ¬InPage b i) → m' i = m i
  slots : ∀ s ∈ live, ∀ i, InSlot s i → m' i = m i

theorem Frame.refl (pages : ℕ → Prop) (live : List ℕ) (m : Memory) : Frame pages live m m :=
  ⟨fun _ _ => rfl, fun _ _ _ _ => rfl⟩

theorem Frame.trans {pages : ℕ → Prop} {live : List ℕ} {m m' m'' : Memory}
    (h : Frame pages live m m') (h' : Frame pages live m' m'') : Frame pages live m m'' :=
  ⟨fun i hi => (h'.outside i hi).trans (h.outside i hi),
    fun s hs i hi => (h'.slots s hs i hi).trans (h.slots s hs i hi)⟩

theorem Frame.mono {pages pages' : ℕ → Prop} {live : List ℕ} {m m' : Memory}
    (h : Frame pages live m m') (hle : ∀ b, pages b → pages' b) : Frame pages' live m m' :=
  ⟨fun i hi => h.outside i fun b hb => hi b (hle b hb), h.slots⟩

theorem link_of_not_inPage {b i : ℕ} (hi : ¬InPage b i) {free : List ℕ}
    (hfree : ∀ s ∈ free, s ∈ slotsOf b) (m : Memory) : link free m i = m i := by
  induction free with
  | nil => rfl
  | cons s free ih =>
    obtain ⟨hle, hlt, -⟩ := mem_slotsOf (hfree s List.mem_cons_self)
    have hrest := ih fun s' hs' => hfree s' (List.mem_cons_of_mem _ hs')
    rw [link, ← hrest]
    have hlen : (Memory.le 8 (free.headD 0)).length = 8 := Memory.length_le 8 _
    simp only [InPage, memoryBlockSize, memorySlotSize] at *
    by_cases h : i < s
    · exact Memory.write_of_lt h
    · exact Memory.write_of_le (by omega)

section

variable {si : SystemInfo} {os : Os si} {st st' : Buffers} {live : List ℕ} {pOrigin b s : ℕ}

/-- A page whose slots are near the function. -/
def NearPage (pOrigin b : ℕ) : Prop :=
  pOrigin ≤ b + maxMemoryRange ∧ b + memoryBlockSize ≤ pOrigin + maxMemoryRange + 1

/-- **A page that is found**: one that is held, or a new one. -/
theorem getMemoryBlock_cases (h : getMemoryBlock si os st pOrigin = some (b, st')) :
    NearPage pOrigin b ∧ (st' = st ∨ Granted os st.pages b ∧
      st' = { mem := link (slotsOf b) (st.mem.write b (List.replicate memoryBlockSize 0))
              blocks := SlotPool.insert layout b st.blocks }) := by
  obtain ⟨hmin, hmax⟩ := window_near si pOrigin
  have hrange : memoryBlockSize ≤ maxMemoryRange := by decide
  have hpage : 0 < memoryBlockSize := by decide
  rw [getMemoryBlock] at h
  split at h
  · next blk hfind =>
    cases h
    have hwindow := List.find?_some hfind
    simp only [Bool.and_eq_true, decide_eq_true_eq] at hwindow
    exact ⟨⟨by omega, by omega⟩, Or.inl rfl⟩
  · obtain ⟨b', hb', heq⟩ := Option.map_eq_some_iff.mp h
    cases heq
    rcases Option.or_eq_some_iff.mp hb' with hprev | ⟨-, hnext⟩
    · obtain ⟨hgranted, hle, hlt⟩ := allocPrev_some hprev
      exact ⟨⟨by omega, by omega⟩, Or.inr ⟨hgranted, rfl⟩⟩
    · obtain ⟨hgranted, hlt, hle⟩ := allocNext_some hnext
      exact ⟨⟨by omega, by omega⟩, Or.inr ⟨hgranted, rfl⟩⟩

/-- **`AllocateBuffer`**: a slot that is not in use, near the function it is for. -/
structure Allocated (os : Os si) (st : Buffers) (live : List ℕ) (pOrigin s : ℕ) (st' : Buffers) :
    Prop where
  inv : st'.Inv (s :: live)
  fresh : s ∉ live
  near : Near pOrigin s
  frame : Frame (· ∈ st'.pages) live st.mem st'.mem
  pages : ∀ b ∈ st'.pages, b ∈ st.pages ∨ os.virtualAlloc b = true

theorem allocated (h : st.Inv live) (halloc : allocateBuffer si os st pOrigin = some (s, st')) :
    Allocated os st live pOrigin s st' := by
  rw [allocateBuffer] at halloc
  split at halloc
  · cases halloc
  · next b st₁ hget =>
    obtain ⟨⟨s', blocks⟩, hpop, heq⟩ := Option.map_eq_some_iff.mp halloc
    cases heq
    obtain ⟨hnear, hcases⟩ := getMemoryBlock_cases hget
    have hpool : SlotPool.Inv layout st₁.blocks live := by
      rcases hcases with rfl | ⟨hgranted, rfl⟩
      · exact h.pool
      · exact h.pool.insert (fits_of_dvd hgranted.page_dvd) hgranted.fresh
    obtain ⟨howner, hfresh, hinv, hbases⟩ := hpool.pop hpop
    obtain ⟨hle, hlt, -⟩ := mem_slotsOf (hinv.mem_slots List.mem_cons_self)
    have hslot : Near pOrigin s' := by
      rw [howner] at hle hlt
      obtain ⟨hmin, hmax⟩ := hnear
      exact ⟨by omega, by omega⟩
    rcases hcases with rfl | ⟨hgranted, rfl⟩
    · refine ⟨⟨hinv, h.busy.pop hpop⟩, hfresh, hslot, Frame.refl _ _ _, fun b' hb' => Or.inl ?_⟩
      rw [Buffers.pages, ← hbases]
      exact hb'
    · have hwrite : ∀ i, ¬InPage b i →
          link (slotsOf b) (st.mem.write b (List.replicate memoryBlockSize 0)) i = st.mem i := by
        intro i hi
        rw [link_of_not_inPage hi fun _ hs => hs]
        by_cases hlt : i < b
        · exact Memory.write_of_lt hlt
        · refine Memory.write_of_le ?_
          rw [List.length_replicate]
          exact Nat.le_of_not_lt fun hlt' => hi ⟨Nat.le_of_not_lt hlt, hlt'⟩
      refine ⟨⟨hinv, h.busy.pop_insert hpop⟩, hfresh, hslot, ⟨fun i hi => ?_, fun t ht i hi => ?_⟩,
        fun b' hb' => ?_⟩
      · refine hwrite i (hi b ?_)
        rw [Buffers.pages, hbases]
        exact List.mem_cons_self
      · exact hwrite i (h.not_inPage ht hgranted.page_dvd hgranted.fresh hi)
      · rw [Buffers.pages, hbases] at hb'
        rcases List.mem_cons.mp hb' with rfl | hmem
        · exact Or.inr hgranted.virtualAlloc
        · exact Or.inl hmem

/-- The new slot is written as well. -/
theorem Allocated.frame_slot (h : Allocated os st live pOrigin s st') {m : Memory}
    (hm : ∀ i, ¬InSlot s i → m i = st'.mem i) : Frame (· ∈ st'.pages) live st.mem m := by
  refine h.frame.trans ⟨fun i hi => hm i fun hin => ?_, fun t ht i hi => hm i fun hin => ?_⟩
  · obtain ⟨b, hb, hle, hlt, -⟩ := h.inv.slot List.mem_cons_self
    obtain ⟨hin, hin'⟩ := hin
    exact hi b hb ⟨by omega, by omega⟩
  · have hapart := h.inv.apart List.mem_cons_self (List.mem_cons_of_mem _ ht)
      fun heq => h.fresh (heq ▸ ht)
    obtain ⟨hi, hi'⟩ := hi
    obtain ⟨hin, hin'⟩ := hin
    omega

/-- **`FreeBuffer`** of a slot in use. -/
theorem freed (h : st.Inv (s :: live)) :
    (freeBuffer st s).Inv live ∧ Frame (· ∈ st.pages) live st.mem (freeBuffer st s).mem ∧
      ∀ b ∈ (freeBuffer st s).pages, b ∈ st.pages := by
  have hs : s ∈ s :: live := List.mem_cons_self
  obtain ⟨blk, hblk, hbase⟩ := List.mem_map.mp (h.pool.owned s hs)
  have hfound : (st.blocks.find? fun blk => blk.base = layout.owner s).isSome = true :=
    List.find?_isSome.mpr ⟨blk, hblk, decide_eq_true hbase⟩
  obtain ⟨blk', hblk'⟩ := Option.isSome_iff_exists.mp hfound
  obtain ⟨hpool, hsub⟩ := h.pool.push
  have hfree : freeBuffer st s =
      { mem := st.mem.write s (Memory.le 8 (blk'.free.headD 0))
        blocks := SlotPool.push layout s st.blocks } := by
    rw [freeBuffer, hblk']
  rw [hfree]
  have hlen : (Memory.le 8 (blk'.free.headD 0)).length = 8 := Memory.length_le 8 _
  have hwrite : ∀ i, ¬InSlot s i →
      st.mem.write s (Memory.le 8 (blk'.free.headD 0)) i = st.mem i := by
    intro i hi
    simp only [InSlot, memorySlotSize] at hi
    by_cases hlt : i < s
    · exact Memory.write_of_lt hlt
    · exact Memory.write_of_le (by omega)
  refine ⟨⟨hpool, h.busy.push s⟩, ⟨fun i hi => hwrite i fun hin => ?_, fun t ht i hi => ?_⟩,
    fun b hb => hsub.subset hb⟩
  · obtain ⟨b, hb, hle, hlt, -⟩ := h.slot hs
    obtain ⟨hin, hin'⟩ := hin
    exact hi b hb ⟨by omega, by omega⟩
  · refine hwrite i fun hin => ?_
    have hne : s ≠ t := fun heq => (List.nodup_cons.mp h.pool.nodup).1 (heq ▸ ht)
    have hapart := h.apart hs (List.mem_cons_of_mem _ ht) hne
    obtain ⟨hi, hi'⟩ := hi
    obtain ⟨hin, hin'⟩ := hin
    omega

end

end Dx12Track.MinHook
