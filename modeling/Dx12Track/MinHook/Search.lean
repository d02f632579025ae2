import Dx12Track.MinHook.Intercept
import Mathlib.Data.Nat.SuccPred
import Mathlib.Order.SuccPred.Archimedean

/-!
# The search for a free region

`FindPrevFreeRegion` and `FindNextFreeRegion` do not ask about every address: from an allocation
they go on below its base, or behind the region.  They miss nothing that way, if the system answers
truthfully, and so a trampoline gets as near to its function as it can.

* `Os.Truthful` — what the answers mean.
* `prevLoop_iff`, `nextLoop_iff` — the loops.
* `allocPrev_iff`, `allocNext_iff` — the searches, which go on where a page is refused.
* `getMemoryBlock_nearest` — **a new page is the nearest that can be had on its side, and there is
  none only if none can be had**.
-/

namespace Dx12Track.MinHook

variable {si : SystemInfo} {os : Os si}

/-- The system answers about the addresses of applications, and truthfully; an allocation has no
free region in it. -/
structure Os.Truthful (os : Os si) (freeAt : ℕ → Prop) : Prop where
  answers : ∀ a, si.minimumApplicationAddress ≤ a → a ≤ si.maximumApplicationAddress →
    ∃ r, os.virtualQuery a = some r
  free : ∀ a r, os.virtualQuery a = some r → (r.free = true ↔ freeAt a)
  below : ∀ a r, os.virtualQuery a = some r → r.free = false →
    ∀ b, r.allocationBase ≤ b → b ≤ a → ¬freeAt b
  above : ∀ a r, os.virtualQuery a = some r → r.free = false →
    ∀ b, a ≤ b → b < r.baseAddress + r.regionSize → ¬freeAt b

/-- The free regions that are looked for, from `lo` to `hi`. -/
def freeBetween (si : SystemInfo) (freeAt : ℕ → Prop) (lo hi : ℕ) : Set ℕ :=
  {b | si.allocationGranularity ∣ b ∧ lo ≤ b ∧ b ≤ hi ∧ freeAt b}

/-- Multiples of the granularity are that far apart. -/
theorem add_le_of_dvd {a b g : ℕ} (ha : g ∣ a) (hb : g ∣ b) (hlt : a < b) : a + g ≤ b := by
  obtain ⟨k, rfl⟩ := ha
  obtain ⟨l, rfl⟩ := hb
  have hkl : k < l := Nat.lt_of_mul_lt_mul_left hlt
  calc g * k + g = g * (k + 1) := (Nat.mul_succ g k).symm
    _ ≤ g * l := Nat.mul_le_mul_left g hkl

/-- The next allocation address is the first. -/
theorem roundUp_le {a b : ℕ} (hb : si.allocationGranularity ∣ b) (hle : a ≤ b) :
    roundUp si a ≤ b := by
  by_contra hlt
  have hg := si.granularity_pos
  have hfar := add_le_of_dvd hb (dvd_roundUp a) (Nat.lt_of_not_le hlt)
  simp only [roundUp] at hfar
  omega

variable {freeAt : ℕ → Prop}

/-- **The loop of `FindPrevFreeRegion`.** -/
theorem prevLoop_iff (h : os.Truthful freeAt) {pMinAddr : ℕ}
    (hmin : si.minimumApplicationAddress ≤ pMinAddr) {tryAddr : ℕ}
    (hdvd : si.allocationGranularity ∣ tryAddr) (hmax : tryAddr ≤ si.maximumApplicationAddress)
    (a : ℕ) :
    prevLoop si os pMinAddr tryAddr = some a ↔
      IsGreatest (freeBetween si freeAt pMinAddr tryAddr) a := by
  induction tryAddr using Nat.strong_induction_on with
  | _ tryAddr ih =>
    have hnone : (∀ b, pMinAddr ≤ b → b ≤ tryAddr → ¬freeAt b) →
        (none = some a ↔ IsGreatest (freeBetween si freeAt pMinAddr tryAddr) a) := by
      intro hempty
      constructor
      · intro h
        cases h
      · rintro ⟨⟨-, hlo, hhi, hfree⟩, -⟩
        exact absurd hfree (hempty a hlo hhi)
    rw [prevLoop]
    split
    · next hlo =>
      obtain ⟨r, hr⟩ := h.answers tryAddr (hmin.trans hlo) hmax
      split
      · next hmbi =>
        rw [hmbi] at hr
        cases hr
      · next mbi hmbi =>
        split
        · next hfree =>
          have hbelow := h.below tryAddr mbi hmbi hfree
          split
          · next hbase =>
            -- the allocation begins at 0
            refine hnone fun b hlo' hhi => hbelow b ?_ hhi
            have hg := si.granularity_le
            omega
          · next hbase =>
            have hlt := prev_lt si.granularity_pos (os.base_le _ _ hmbi hfree) hbase
            have hdvd' := os.base_dvd _ _ hmbi hfree
            have hsame : freeBetween si freeAt pMinAddr tryAddr =
                freeBetween si freeAt pMinAddr
                  (mbi.allocationBase - si.allocationGranularity) := by
              ext b
              constructor
              · rintro ⟨hb, hlo', hhi, hfree'⟩
                refine ⟨hb, hlo', ?_, hfree'⟩
                have hbefore : b < mbi.allocationBase :=
                  Nat.lt_of_not_le fun hle => hbelow b hle hhi hfree'
                have hstep := add_le_of_dvd hb hdvd' hbefore
                omega
              · rintro ⟨hb, hlo', hhi, hfree'⟩
                exact ⟨hb, hlo', by omega, hfree'⟩
            rw [hsame]
            exact ih _ hlt (Nat.dvd_sub hdvd' (Nat.dvd_refl _)) (by omega)
        · next hfree =>
          have hthere : freeAt tryAddr := (h.free tryAddr mbi hmbi).mp (by simpa using hfree)
          have hgreatest : IsGreatest (freeBetween si freeAt pMinAddr tryAddr) tryAddr :=
            ⟨⟨hdvd, hlo, Nat.le_refl _, hthere⟩, fun b hb => hb.2.2.1⟩
          constructor
          · intro heq
            exact Option.some.inj heq ▸ hgreatest
          · intro ha
            rw [hgreatest.unique ha]
    · next hlo => exact hnone fun b hlo' hhi => absurd (hlo'.trans hhi) hlo

/-- **The loop of `FindNextFreeRegion`.** -/
theorem nextLoop_iff (h : os.Truthful freeAt) {pMaxAddr : ℕ}
    (hmax : pMaxAddr ≤ si.maximumApplicationAddress) {tryAddr : ℕ}
    (hdvd : si.allocationGranularity ∣ tryAddr) (hmin : si.minimumApplicationAddress ≤ tryAddr)
    (a : ℕ) :
    nextLoop si os pMaxAddr tryAddr = some a ↔
      IsLeast (freeBetween si freeAt tryAddr pMaxAddr) a := by
  induction hn : pMaxAddr + 1 - tryAddr using Nat.strong_induction_on generalizing tryAddr with
  | _ n ih =>
    subst hn
    rw [nextLoop]
    split
    · next hhi =>
      obtain ⟨r, hr⟩ := h.answers tryAddr hmin (hhi.trans hmax)
      split
      · next hmbi =>
        rw [hmbi] at hr
        cases hr
      · next mbi hmbi =>
        have hend := os.lt_end _ _ hmbi
        split
        · next hfree =>
          have hthere : freeAt tryAddr := (h.free tryAddr mbi hmbi).mp hfree
          have hleast : IsLeast (freeBetween si freeAt tryAddr pMaxAddr) tryAddr :=
            ⟨⟨hdvd, Nat.le_refl _, hhi, hthere⟩, fun b hb => hb.2.1⟩
          constructor
          · intro heq
            exact Option.some.inj heq ▸ hleast
          · intro ha
            rw [hleast.unique ha]
        · next hfree =>
          have habove := h.above tryAddr mbi hmbi (by simpa using hfree)
          have hround := le_roundUp si (mbi.baseAddress + mbi.regionSize)
          have hsame : freeBetween si freeAt tryAddr pMaxAddr =
              freeBetween si freeAt (roundUp si (mbi.baseAddress + mbi.regionSize)) pMaxAddr := by
            ext b
            constructor
            · rintro ⟨hb, hlo, hhi', hfree'⟩
              refine ⟨hb, roundUp_le hb ?_, hhi', hfree'⟩
              exact Nat.le_of_not_lt fun hlt => habove b hlo hlt hfree'
            · rintro ⟨hb, hlo, hhi', hfree'⟩
              exact ⟨hb, by omega, hhi', hfree'⟩
          rw [hsame]
          exact ih _ (next_lt si hhi hend) (dvd_roundUp _) (by omega) rfl
    · next hhi =>
      constructor
      · intro heq
        cases heq
      · rintro ⟨⟨-, hlo, hhi', -⟩, -⟩
        exact absurd (hlo.trans hhi') hhi

/-- A search that fails has nothing to find. -/
theorem eq_none_iff_of_isGreatest {s : Set ℕ} {o : Option ℕ}
    (hgreatest : ∀ a, o = some a ↔ IsGreatest s a) (hbdd : BddAbove s) : o = none ↔ s = ∅ := by
  rw [← Option.not_isSome_iff_eq_none, Option.isSome_iff_exists, ← Set.not_nonempty_iff_eq_empty]
  refine not_congr ⟨?_, fun hne => ?_⟩
  · rintro ⟨a, ha⟩
    exact ((hgreatest a).mp ha).nonempty
  · obtain ⟨a, ha⟩ := hbdd.exists_isGreatest_of_nonempty hne
    exact ⟨a, (hgreatest a).mpr ha⟩

theorem eq_none_iff_of_isLeast {s : Set ℕ} {o : Option ℕ}
    (hleast : ∀ a, o = some a ↔ IsLeast s a) : o = none ↔ s = ∅ := by
  rw [← Option.not_isSome_iff_eq_none, Option.isSome_iff_exists, ← Set.not_nonempty_iff_eq_empty]
  refine not_congr ⟨?_, fun hne => ?_⟩
  · rintro ⟨a, ha⟩
    exact ((hleast a).mp ha).nonempty
  · obtain ⟨a, ha⟩ := (OrderBot.bddBelow s).exists_isLeast_of_nonempty hne
    exact ⟨a, (hleast a).mpr ha⟩

/-! ### The searches -/

/-- The pages that can be had below `p`, not in its granule. -/
def pagesBelow (os : Os si) (freeAt : ℕ → Prop) (pages : List ℕ) (w : Window) (p : ℕ) : Set ℕ :=
  {b | si.allocationGranularity ∣ b ∧ w.minAddr ≤ b ∧ b + si.allocationGranularity ≤ p ∧ freeAt b ∧
    virtualAlloc si os pages b = true}

/-- The pages that can be had above `p`. -/
def pagesAbove (os : Os si) (freeAt : ℕ → Prop) (pages : List ℕ) (w : Window) (p : ℕ) : Set ℕ :=
  {b | si.allocationGranularity ∣ b ∧ p < b ∧ b ≤ w.maxAddr ∧ freeAt b ∧
    virtualAlloc si os pages b = true}

/-- Below `p` and not in its granule. -/
theorem le_prev_iff {b p : ℕ} (hb : si.allocationGranularity ∣ b)
    (hp : si.allocationGranularity ≤ p) :
    b ≤ p - p % si.allocationGranularity - si.allocationGranularity ↔
      b + si.allocationGranularity ≤ p := by
  have hg := si.granularity_pos
  have hmod := Nat.mod_lt p hg
  have hfloor := Nat.dvd_sub_mod (n := si.allocationGranularity) p
  have hge : si.allocationGranularity ≤ p - p % si.allocationGranularity :=
    Nat.le_of_not_lt fun hlt => by
      have hzero := Nat.eq_zero_of_dvd_of_lt hfloor hlt
      omega
  constructor
  · omega
  · intro hle
    by_contra hlt
    have hfar := add_le_of_dvd (a := p - p % si.allocationGranularity)
      hfloor (Nat.dvd_add hb (Nat.dvd_refl si.allocationGranularity)) (by omega)
    omega

/-- Above `p`. -/
theorem next_le_iff {b p : ℕ} (hb : si.allocationGranularity ∣ b) :
    p - p % si.allocationGranularity + si.allocationGranularity ≤ b ↔ p < b := by
  have hg := si.granularity_pos
  have hmod := Nat.mod_lt p hg
  constructor
  · omega
  · intro hlt
    exact add_le_of_dvd (Nat.dvd_sub_mod p) hb (by omega)

section

variable {pages : List ℕ} {w : Window}

/-- A page that the loop finds is the greatest that is free; if it is refused, those that can be had
are below it. -/
theorem pagesBelow_congr {p a : ℕ}
    (hfind : IsGreatest (freeBetween si freeAt w.minAddr
      (p - p % si.allocationGranularity - si.allocationGranularity)) a)
    (hp : si.allocationGranularity ≤ p) (hno : virtualAlloc si os pages a = false) :
    pagesBelow os freeAt pages w p = pagesBelow os freeAt pages w a := by
  ext b
  constructor
  · rintro ⟨hb, hlo, hle, hfree, hgrant⟩
    refine ⟨hb, hlo, ?_, hfree, hgrant⟩
    have hba : b ≤ a := hfind.2 ⟨hb, hlo, (le_prev_iff hb hp).mpr hle, hfree⟩
    refine add_le_of_dvd hb hfind.1.1 (hba.lt_of_ne ?_)
    rintro rfl
    rw [hgrant] at hno
    cases hno
  · rintro ⟨hb, hlo, hle, hfree, hgrant⟩
    have hap := (le_prev_iff hfind.1.1 hp).mp hfind.1.2.2.1
    exact ⟨hb, hlo, by omega, hfree, hgrant⟩

/-- A page that cannot be had is passed by. -/
theorem pagesAbove_congr {p a : ℕ}
    (hfind : IsLeast (freeBetween si freeAt
      (p - p % si.allocationGranularity + si.allocationGranularity) w.maxAddr) a)
    (hno : virtualAlloc si os pages a = false) :
    pagesAbove os freeAt pages w p = pagesAbove os freeAt pages w a := by
  ext b
  constructor
  · rintro ⟨hb, hlt, hhi, hfree, hgrant⟩
    refine ⟨hb, ?_, hhi, hfree, hgrant⟩
    have hab : a ≤ b := hfind.2 ⟨hb, (next_le_iff hb).mpr hlt, hhi, hfree⟩
    refine hab.lt_of_ne ?_
    rintro rfl
    rw [hgrant] at hno
    cases hno
  · rintro ⟨hb, hlt, hhi, hfree, hgrant⟩
    have hpa := (next_le_iff hfind.1.1).mp hfind.1.2.1
    exact ⟨hb, hpa.trans hlt, hhi, hfree, hgrant⟩

/-- **The search below.** -/
theorem allocPrev_iff (pages : List ℕ) (h : os.Truthful freeAt)
    (hmin : si.minimumApplicationAddress ≤ w.minAddr)
    {p : ℕ} (hmax : p ≤ si.maximumApplicationAddress) (a : ℕ) :
    allocPrev si os pages w p = some a ↔ IsGreatest (pagesBelow os freeAt pages w p) a := by
  induction p using Nat.strong_induction_on with
  | _ p ih =>
    rw [allocPrev]
    split
    · next hle =>
      have hp : si.allocationGranularity ≤ p := si.granularity_le.trans (hmin.trans hle)
      have hloop := prevLoop_iff h hmin
        (Nat.dvd_sub (Nat.dvd_sub_mod p) (Nat.dvd_refl si.allocationGranularity)) (by omega)
      split
      · next hfind =>
        constructor
        · intro heq
          cases heq
        · rintro ⟨⟨hb, hlo, hle', hfree, -⟩, -⟩
          have hempty := (eq_none_iff_of_isGreatest hloop ⟨_, fun _ hc => hc.2.2.1⟩).mp hfind
          have hmem : a ∈ freeBetween si freeAt _ _ :=
            ⟨hb, hlo, (le_prev_iff hb hp).mpr hle', hfree⟩
          exact absurd (hempty ▸ hmem) (Set.notMem_empty a)
      · next b hfind =>
        have hgreatest := (hloop b).mp hfind
        split
        · next hgrant =>
          have hhere : IsGreatest (pagesBelow os freeAt pages w p) b := by
            obtain ⟨⟨hb, hlo, hhi, hfree⟩, hmost⟩ := hgreatest
            refine ⟨⟨hb, hlo, (le_prev_iff hb hp).mp hhi, hfree, hgrant⟩, ?_⟩
            rintro c ⟨hc, hlo', hle', hfree', -⟩
            exact hmost ⟨hc, hlo', (le_prev_iff hc hp).mpr hle', hfree'⟩
          constructor
          · intro heq
            exact Option.some.inj heq ▸ hhere
          · intro ha
            rw [hhere.unique ha]
        · next hgrant =>
          rw [pagesBelow_congr hgreatest hp (by simpa using hgrant)]
          have hlt := (findPrevFreeRegion_some (w.minAddr_pos.trans_le hle) hfind).1
          exact ih b hlt (by omega)
    · next hle =>
      constructor
      · intro heq
        cases heq
      · rintro ⟨⟨-, hlo, hle', -⟩, -⟩
        omega

/-- **The search above.** -/
theorem allocNext_iff (pages : List ℕ) (h : os.Truthful freeAt)
    (hmax : w.maxAddr ≤ si.maximumApplicationAddress)
    {p : ℕ} (hmin : si.minimumApplicationAddress ≤ p) (a : ℕ) :
    allocNext si os pages w p = some a ↔ IsLeast (pagesAbove os freeAt pages w p) a := by
  induction hn : w.maxAddr + 1 - p using Nat.strong_induction_on generalizing p with
  | _ n ih =>
    subst hn
    rw [allocNext]
    split
    · next hle =>
      have hstart : si.minimumApplicationAddress ≤
          p - p % si.allocationGranularity + si.allocationGranularity := by
        have hmod := Nat.mod_lt p si.granularity_pos
        omega
      have hloop := nextLoop_iff h hmax
        (Nat.dvd_add (Nat.dvd_sub_mod p) (Nat.dvd_refl si.allocationGranularity)) hstart
      split
      · next hfind =>
        constructor
        · intro heq
          cases heq
        · rintro ⟨⟨hb, hlt, hhi, hfree, -⟩, -⟩
          have hempty := (eq_none_iff_of_isLeast hloop).mp hfind
          have hmem : a ∈ freeBetween si freeAt _ _ :=
            ⟨hb, (next_le_iff hb).mpr hlt, hhi, hfree⟩
          exact absurd (hempty ▸ hmem) (Set.notMem_empty a)
      · next b hfind =>
        have hleast := (hloop b).mp hfind
        have hlt := (findNextFreeRegion_some hfind).1
        split
        · next hgrant =>
          have hhere : IsLeast (pagesAbove os freeAt pages w p) b := by
            obtain ⟨⟨hb, -, hhi, hfree⟩, hmost⟩ := hleast
            refine ⟨⟨hb, hlt, hhi, hfree, hgrant⟩, ?_⟩
            rintro c ⟨hc, hlt', hhi', hfree', -⟩
            exact hmost ⟨hc, (next_le_iff hc).mpr hlt', hhi', hfree'⟩
          constructor
          · intro heq
            exact Option.some.inj heq ▸ hhere
          · intro ha
            rw [hhere.unique ha]
        · next hgrant =>
          rw [pagesAbove_congr hleast (by simpa using hgrant)]
          exact ih _ (next_find_lt si os hle hfind) (by omega) rfl
    · next hle =>
      constructor
      · intro heq
        cases heq
      · rintro ⟨⟨-, hlt, hhi, -⟩, -⟩
        omega

end

/-! ### A new page -/

/-- The window is a part of the address space. -/
theorem minimum_le_window (si : SystemInfo) (pOrigin : ℕ) :
    si.minimumApplicationAddress ≤ (window si pOrigin).minAddr := by
  simp only [window]
  split <;> omega

theorem window_le_maximum (si : SystemInfo) (pOrigin : ℕ) :
    (window si pOrigin).maxAddr ≤ si.maximumApplicationAddress := by
  simp only [window]
  split <;> omega

/-- **`GetMemoryBlock`, where no page of the list is taken.**  A page below goes before one above,
however near that is. -/
theorem getMemoryBlock_nearest {freeAt : ℕ → Prop} (h : os.Truthful freeAt) (st : Buffers)
    {pOrigin : ℕ} (hmin : si.minimumApplicationAddress ≤ pOrigin)
    (hmax : pOrigin ≤ si.maximumApplicationAddress) :
    (getMemoryBlock si os st pOrigin = none ↔
      (∀ blk ∈ st.blocks, (window si pOrigin).minAddr ≤ blk.base →
        blk.base < (window si pOrigin).maxAddr → blk.free = []) ∧
      pagesBelow os freeAt st.pages (window si pOrigin) pOrigin = ∅ ∧
      pagesAbove os freeAt st.pages (window si pOrigin) pOrigin = ∅) ∧
    ∀ b st', getMemoryBlock si os st pOrigin = some (b, st') → b ∉ st.pages →
      IsGreatest (pagesBelow os freeAt st.pages (window si pOrigin) pOrigin) b ∨
      pagesBelow os freeAt st.pages (window si pOrigin) pOrigin = ∅ ∧
        IsLeast (pagesAbove os freeAt st.pages (window si pOrigin) pOrigin) b := by
  have hprev := allocPrev_iff st.pages h (minimum_le_window si pOrigin) hmax
  have hnext := allocNext_iff st.pages h (window_le_maximum si pOrigin) hmin
  have hprevNone := eq_none_iff_of_isGreatest hprev
    ⟨pOrigin, fun _ hb => (Nat.le_add_right _ _).trans hb.2.2.1⟩
  have hnextNone := eq_none_iff_of_isLeast hnext
  have hroom : (st.blocks.find? fun blk => (window si pOrigin).minAddr ≤ blk.base &&
      blk.base < (window si pOrigin).maxAddr && !blk.free.isEmpty) = none ↔
      ∀ blk ∈ st.blocks, (window si pOrigin).minAddr ≤ blk.base →
        blk.base < (window si pOrigin).maxAddr → blk.free = [] := by
    simp [List.find?_eq_none]
  constructor
  · rw [← hroom, ← hprevNone, ← hnextNone]
    simp only [getMemoryBlock]
    split
    · next blk hfind => simp [hfind]
    · next hfind => simp [hfind]
  · intro b st' hget hnew
    simp only [getMemoryBlock] at hget
    split at hget
    · next blk hfind =>
      -- a page of the list
      cases hget
      exact absurd (List.mem_map_of_mem (List.mem_of_find?_eq_some hfind)) hnew
    · next hfind =>
      obtain ⟨c, hc, heq⟩ := Option.map_eq_some_iff.mp hget
      cases heq
      obtain hbelow | ⟨hnone, habove⟩ := Option.or_eq_some_iff.mp hc
      · exact .inl ((hprev b).mp hbelow)
      · exact .inr ⟨hprevNone.mp hnone, (hnext b).mp habove⟩

namespace Loaded

/-- The memory before the library is free. -/
theorem truthful : hookOs.toOs.Truthful (· < 0x180000000) where
  answers a _ _ := by
    change ∃ r, virtualQuery a = some r
    unfold virtualQuery
    split
    · exact ⟨_, rfl⟩
    · exact ⟨_, rfl⟩
  free a r hquery := by
    change virtualQuery a = some r at hquery
    unfold virtualQuery at hquery
    split at hquery
    · next hlt =>
      cases hquery
      exact iff_of_true rfl hlt
    · next hlt =>
      cases hquery
      exact iff_of_false nofun hlt
  below a r hquery hfree b hle _ := by
    rw [(query_base hquery hfree).1] at hle
    exact Nat.not_lt.mpr hle
  above a r hquery hfree b hle _ :=
    Nat.not_lt.mpr ((query_base hquery hfree).2.trans hle)

/-- The one page that is granted. -/
theorem mem_pagesBelow : 0x17FFF0000 ∈ pagesBelow hookOs.toOs (· < 0x180000000) []
    (window systemInfo 0x180001000) 0x180001000 := by
  refine ⟨⟨0x17FFF, rfl⟩, ?_, ?_, ?_, ?_⟩ <;> decide

end Loaded

/-- In the process of `Loaded` that page is found. -/
theorem getMemoryBlock_nearest_loaded :
    (getMemoryBlock Loaded.systemInfo Loaded.hookOs.toOs { mem := Loaded.code } 0x180001000).map
      Prod.fst = some 0x17FFF0000 := by
  have hmin : Loaded.systemInfo.minimumApplicationAddress ≤ 0x180001000 := by decide
  have h := getMemoryBlock_nearest Loaded.truthful { mem := Loaded.code } hmin (by decide)
  cases hget : getMemoryBlock Loaded.systemInfo Loaded.hookOs.toOs { mem := Loaded.code }
      0x180001000 with
  | none =>
    have hempty := (h.1.mp hget).2.1
    exact absurd Loaded.mem_pagesBelow (hempty ▸ Set.notMem_empty _)
  | some r =>
    obtain hbelow | ⟨hempty, -⟩ := h.2 r.1 r.2 hget (List.not_mem_nil)
    · have hpage : r.1 = 0x17FFF0000 := by
        simpa [virtualAlloc, Loaded.hookOs, Buffers.pages] using hbelow.1.2.2.2.2
      rw [Option.map_some, hpage]
    · exact absurd Loaded.mem_pagesBelow (hempty ▸ Set.notMem_empty _)

end Dx12Track.MinHook
