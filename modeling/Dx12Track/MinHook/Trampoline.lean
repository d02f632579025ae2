import Dx12Track.MinHook.Buffer
import Dx12Track.Lib.Jumps

/-!
# Trampolines

The first instructions of a function that is patched go into its slot, made so that they do
there what they do in their place, with a jump back behind them
(`src/third_party/minhook/src/trampoline.c`).  Behind the trampoline comes the relay, a jump to
the detour that the patched function jumps to in its turn.

* `Hde`, `Disassembler` — the disassembler, of which only the lengths are known.
* `relocate` — one instruction.
* `trampolineLoop`, `createTrampolineFunction` — the trampoline and its relay.
* `Trampoline.Fits` — **the slot holds them, and what the patch will overwrite is in the trampoline
  or padding**.
-/

namespace Dx12Track.MinHook

open Jumps

/-- What is used of `hde64s`. -/
structure Hde where
  len : ℕ
  /-- `F_ERROR`. -/
  error : Bool
  /-- The number of bytes that `F_IMM8` to `F_IMM64` stand for. -/
  immLen : ℕ
  opcode : UInt8
  opcode2 : UInt8
  modrm : UInt8
  modrmReg : UInt8
  imm32 : BitVec 32
  disp32 : BitVec 32

/-- `imm8` is in the same place. -/
def Hde.imm8 (hs : Hde) : BitVec 8 := hs.imm32.setWidth 8

/-- `hde64_disasm`. -/
structure Disassembler where
  disasm : Memory → ℕ → Hde
  len_pos : ∀ m a, 0 < (disasm m a).len
  len_le : ∀ m a, (disasm m a).len ≤ 15

/-- `CALL_ABS`. -/
def callAbs (dest : ℕ) : List UInt8 :=
  [0xFF, 0x15] ++ Memory.le 4 2 ++ [0xEB, 0x08] ++ Memory.le 8 dest

/-- `JCC_ABS`, on the condition opposite to `cond`. -/
def jccAbs (cond : UInt8) (dest : ℕ) : List UInt8 :=
  [0x71 ^^^ cond, 0x0E, 0xFF, 0x25] ++ Memory.le 4 0 ++ Memory.le 8 dest

/-- `TRAMPOLINE_MAX_SIZE`. -/
def trampolineMaxSize : ℕ := memorySlotSize - 14

/-- `sizeof(JMP_REL)`. -/
def jmpRelSize : ℕ := 5

/-- `sizeof(JMP_REL_SHORT)`. -/
def jmpShortSize : ℕ := 2

/-- An instruction of a trampoline: its bytes, `jmpDest` from then on, and whether it is the last
one. -/
structure Relocated where
  bytes : List UInt8
  jmpDest : ℕ
  finished : Bool

/-- An instruction with its displacement replaced, so that it leads where it led before. -/
def ripRelative (m : Memory) (pOldInst pNewInst : ℕ) (hs : Hde) : List UInt8 :=
  let place := hs.len - hs.immLen - 4
  let bytes := m.read pOldInst hs.len
  let relAddr : BitVec 32 :=
    BitVec.ofInt 32 (offset (pOldInst + hs.len) hs.disp32.toInt - (pNewInst + hs.len : ℕ))
  (bytes.take place ++ Memory.le 4 relAddr.toNat ++ bytes.drop (place + 4)).take hs.len

/-- The destination of a jump that stays in the bytes that are overwritten. -/
def isInternal (pTarget dest : ℕ) : Bool := pTarget ≤ dest && dest < pTarget + jmpRelSize

/-- The instruction at `pTarget + oldPos`, for the trampoline. -/
def relocate (m : Memory) (pTarget oldPos pNewInst jmpDest : ℕ) (hs : Hde) : Option Relocated :=
  let pOldInst := pTarget + oldPos
  let copy := m.read pOldInst hs.len
  if jmpRelSize ≤ oldPos then some ⟨jmpAbs pOldInst, jmpDest, true⟩
  else if hs.modrm &&& 0xC7 = 0x05 then
    some ⟨ripRelative m pOldInst pNewInst hs, jmpDest, hs.opcode == 0xFF && hs.modrmReg == 4⟩
  else if hs.opcode = 0xE8 then
    some ⟨callAbs (offset (pOldInst + hs.len) hs.imm32.toInt), jmpDest, false⟩
  else if hs.opcode &&& 0xFD = 0xE9 then
    let dest := offset (pOldInst + hs.len)
      (if hs.opcode = 0xEB then hs.imm8.toInt else hs.imm32.toInt)
    if isInternal pTarget dest then some ⟨copy, max jmpDest dest, false⟩
    else some ⟨jmpAbs dest, jmpDest, jmpDest ≤ pOldInst⟩
  else if hs.opcode &&& 0xF0 = 0x70 ∨ hs.opcode &&& 0xFC = 0xE0 ∨ hs.opcode2 &&& 0xF0 = 0x80 then
    let dest := offset (pOldInst + hs.len)
      (if hs.opcode &&& 0xF0 = 0x70 ∨ hs.opcode &&& 0xFC = 0xE0 then hs.imm8.toInt
        else hs.imm32.toInt)
    if isInternal pTarget dest then some ⟨copy, max jmpDest dest, false⟩
    else if hs.opcode &&& 0xFC = 0xE0 then none
    else
      let cond := (if hs.opcode ≠ 0x0F then hs.opcode else hs.opcode2) &&& 0x0F
      some ⟨jccAbs cond dest, jmpDest, false⟩
  else if hs.opcode &&& 0xFE = 0xC2 then some ⟨copy, jmpDest, jmpDest ≤ pOldInst⟩
  else some ⟨copy, jmpDest, false⟩

/-- The variables of the loop. -/
structure LoopState where
  mem : Memory
  oldPos : ℕ := 0
  newPos : ℕ := 0
  jmpDest : ℕ := 0
  oldIPs : List ℕ := []
  newIPs : List ℕ := []

/-- The loop of `CreateTrampolineFunction`, with room for `left` instruction boundaries; the memory
is written also where there will be no trampoline. -/
def trampolineLoop (d : Disassembler) (pTarget pTrampoline : ℕ) :
    ℕ → LoopState → Memory × Option LoopState
  | 0, s => (s.mem, none)
  | left + 1, s =>
    let hs := d.disasm s.mem (pTarget + s.oldPos)
    if hs.error then (s.mem, none)
    else
      match relocate s.mem pTarget s.oldPos (pTrampoline + s.newPos) s.jmpDest hs with
      | none => (s.mem, none)
      | some r =>
        if pTarget + s.oldPos < r.jmpDest ∧ r.bytes.length ≠ hs.len then (s.mem, none)
        else if trampolineMaxSize < s.newPos + r.bytes.length then (s.mem, none)
        else
          let s' : LoopState :=
            { mem := s.mem.write (pTrampoline + s.newPos) r.bytes
              oldPos := s.oldPos + hs.len
              newPos := s.newPos + r.bytes.length
              jmpDest := r.jmpDest
              oldIPs := s.oldIPs ++ [s.oldPos]
              newIPs := s.newIPs ++ [s.newPos] }
          if r.finished then (s'.mem, some s') else trampolineLoop d pTarget pTrampoline left s'

/-- `IsCodePadding`. -/
def isCodePadding (m : Memory) (pInst size : ℕ) : Bool :=
  (m pInst == 0x00 || m pInst == 0x90 || m pInst == 0xCC) &&
    (List.range size).all fun i => m (pInst + i) == m pInst

/-- `TRAMPOLINE`. -/
structure Trampoline where
  pTarget : ℕ
  pDetour : ℕ
  pTrampoline : ℕ
  pRelay : ℕ
  patchAbove : Bool
  oldIPs : List ℕ
  newIPs : List ℕ

/-- Where the patch goes, given what the trampoline covers; `none` if there is no room. -/
def patchPlace (executable : ℕ → Bool) (m : Memory) (pTarget oldPos : ℕ) : Option Bool :=
  if oldPos < jmpRelSize ∧ isCodePadding m (pTarget + oldPos) (jmpRelSize - oldPos) = false then
    if oldPos < jmpShortSize ∧
        isCodePadding m (pTarget + oldPos) (jmpShortSize - oldPos) = false then none
    else if executable (pTarget - jmpRelSize) = false then none
    else if isCodePadding m (pTarget - jmpRelSize) jmpRelSize = false then none
    else some true
  else some false

/-- `CreateTrampolineFunction`. -/
def createTrampolineFunction (d : Disassembler) (executable : ℕ → Bool) (m : Memory)
    (pTarget pDetour pTrampoline : ℕ) : Memory × Option Trampoline :=
  match trampolineLoop d pTarget pTrampoline 8 { mem := m } with
  | (m, none) => (m, none)
  | (m, some s) =>
    match patchPlace executable m pTarget s.oldPos with
    | none => (m, none)
    | some patchAbove =>
      (m.write (pTrampoline + s.newPos) (jmpAbs pDetour),
        some { pTarget := pTarget, pDetour := pDetour, pTrampoline := pTrampoline
               pRelay := pTrampoline + s.newPos, patchAbove := patchAbove
               oldIPs := s.oldIPs, newIPs := s.newIPs })

/-! ### What a trampoline is -/

variable {d : Disassembler} {pTarget pTrampoline : ℕ}

/-- An instruction is added. -/
def LoopState.add (s : LoopState) (pTrampoline len : ℕ) (r : Relocated) : LoopState where
  mem := s.mem.write (pTrampoline + s.newPos) r.bytes
  oldPos := s.oldPos + len
  newPos := s.newPos + r.bytes.length
  jmpDest := r.jmpDest
  oldIPs := s.oldIPs ++ [s.oldPos]
  newIPs := s.newIPs ++ [s.newPos]

/-- Behind the bytes that are overwritten, the trampoline is done. -/
theorem relocate_finished {m : Memory} {oldPos pNewInst jmpDest : ℕ} {hs : Hde} {r : Relocated}
    (hr : relocate m pTarget oldPos pNewInst jmpDest hs = some r) (hf : r.finished = false) :
    oldPos < jmpRelSize := by
  by_contra hle
  rw [relocate, if_pos (Nat.le_of_not_lt hle)] at hr
  rw [← Option.some.inj hr] at hf
  cases hf

/-- **One turn of the loop.** -/
theorem trampolineLoop_succ (d : Disassembler) (pTarget pTrampoline left : ℕ) (s : LoopState) :
    trampolineLoop d pTarget pTrampoline (left + 1) s = (s.mem, none) ∨
    ∃ r, s.newPos + r.bytes.length ≤ trampolineMaxSize ∧
      (r.finished = false → s.oldPos < jmpRelSize) ∧
      trampolineLoop d pTarget pTrampoline (left + 1) s =
        let s' := s.add pTrampoline (d.disasm s.mem (pTarget + s.oldPos)).len r
        if r.finished then (s'.mem, some s') else trampolineLoop d pTarget pTrampoline left s' := by
  rw [trampolineLoop]
  split
  · exact Or.inl rfl
  split
  · exact Or.inl rfl
  · next r hr =>
    split
    · exact Or.inl rfl
    split
    · exact Or.inl rfl
    · next hsize => exact Or.inr ⟨r, Nat.le_of_not_lt hsize, relocate_finished hr, rfl⟩

/-- Writes in the slot are seen in the slot only. -/
theorem write_of_not_inSlot {m : Memory} {pos i : ℕ} {bytes : List UInt8}
    (hpos : pos + bytes.length ≤ memorySlotSize) (hi : ¬InSlot pTrampoline i) :
    m.write (pTrampoline + pos) bytes i = m i := by
  by_cases hlt : i < pTrampoline
  · exact Memory.write_of_lt (by omega)
  · refine Memory.write_of_le ?_
    have hle : pTrampoline + memorySlotSize ≤ i :=
      Nat.le_of_not_lt fun h => hi ⟨Nat.le_of_not_lt hlt, h⟩
    omega

/-- The arrays of the instruction boundaries: as long as each other, from 0 on, in the
trampoline, and in the first instructions that reach behind the patch, of at most 15 bytes each. -/
structure Boundaries (oldIPs newIPs : List ℕ) : Prop where
  length_eq : newIPs.length = oldIPs.length
  length_le : oldIPs.length ≤ 8
  head : oldIPs.head? = some 0 ∧ newIPs.head? = some 0
  oldIPs_lt : ∀ ip ∈ oldIPs, ip < jmpRelSize + 15
  newIPs_le : ∀ ip ∈ newIPs, ip ≤ trampolineMaxSize

/-- The loop before an instruction: it begins at 0. -/
structure LoopState.Ok (left : ℕ) (s : LoopState) : Prop where
  newPos_le : s.newPos ≤ trampolineMaxSize
  oldPos_lt : s.oldPos < jmpRelSize + 15
  oldIPs_lt : ∀ ip ∈ s.oldIPs, ip < jmpRelSize + 15
  length_eq : s.newIPs.length = s.oldIPs.length
  room : s.oldIPs.length + left = 8
  newIPs_le : ∀ ip ∈ s.newIPs, ip ≤ trampolineMaxSize
  head : s.oldIPs = [] ∧ s.newIPs = [] ∧ s.oldPos = 0 ∧ s.newPos = 0 ∨
    s.oldIPs.head? = some 0 ∧ s.newIPs.head? = some 0

theorem LoopState.Ok.add {left : ℕ} {s : LoopState} (h : s.Ok (left + 1)) {r : Relocated}
    (hsize : s.newPos + r.bytes.length ≤ trampolineMaxSize) (pTrampoline len : ℕ) :
    (s.oldPos + len < jmpRelSize + 15 → (s.add pTrampoline len r).Ok left) ∧
      Boundaries (s.add pTrampoline len r).oldIPs (s.add pTrampoline len r).newIPs := by
  have hlength : (s.newIPs ++ [s.newPos]).length = (s.oldIPs ++ [s.oldPos]).length := by
    rw [List.length_append, List.length_append, h.length_eq]
    rfl
  have hroom : (s.oldIPs ++ [s.oldPos]).length + left = 8 := by
    have hroom := h.room
    rw [List.length_append, List.length_singleton]
    omega
  have hle : ∀ ip ∈ s.newIPs ++ [s.newPos], ip ≤ trampolineMaxSize := by
    intro ip hip
    rcases List.mem_append.mp hip with hmem | hmem
    · exact h.newIPs_le ip hmem
    · exact List.mem_singleton.mp hmem ▸ h.newPos_le
  have hhead : (s.oldIPs ++ [s.oldPos]).head? = some 0 ∧
      (s.newIPs ++ [s.newPos]).head? = some 0 := by
    rcases h.head with ⟨hold, hnew, hpos, hpos'⟩ | ⟨hold, hnew⟩
    · rw [hold, hnew, hpos, hpos']
      exact ⟨rfl, rfl⟩
    · rw [List.head?_append, List.head?_append, hold, hnew]
      exact ⟨rfl, rfl⟩
  have hlt : ∀ ip ∈ s.oldIPs ++ [s.oldPos], ip < jmpRelSize + 15 := by
    intro ip hip
    rcases List.mem_append.mp hip with hmem | hmem
    · exact h.oldIPs_lt ip hmem
    · exact List.mem_singleton.mp hmem ▸ h.oldPos_lt
  have height : (s.oldIPs ++ [s.oldPos]).length ≤ 8 := by omega
  exact ⟨fun hpos => ⟨hsize, hpos, hlt, hlength, hroom, hle, Or.inr hhead⟩,
    ⟨hlength, height, hhead, hlt, hle⟩⟩

/-- What the loop leaves. -/
structure LoopResult (pTrampoline : ℕ) (m : Memory) (res : Memory × Option LoopState) : Prop where
  frame : ∀ i, ¬InSlot pTrampoline i → res.1 i = m i
  newPos_le : ∀ s ∈ res.2, s.newPos ≤ trampolineMaxSize
  boundaries : ∀ s ∈ res.2, Boundaries s.oldIPs s.newIPs

/-- **The loop** writes in the slot, and what it returns leaves room for the relay. -/
theorem trampolineLoop_spec {left : ℕ} {s : LoopState} (h : s.Ok left) :
    LoopResult pTrampoline s.mem (trampolineLoop d pTarget pTrampoline left s) := by
  have hfailed : ∀ s : LoopState, LoopResult pTrampoline s.mem (s.mem, none) := fun s =>
    { frame := fun _ _ => rfl
      newPos_le := fun _ hs => by cases hs
      boundaries := fun _ hs => by cases hs }
  induction left generalizing s with
  | zero => exact hfailed s
  | succ left ih =>
    rcases trampolineLoop_succ d pTarget pTrampoline left s with hstep | ⟨r, hsize, hpos, hstep⟩
    · rw [hstep]
      exact hfailed s
    · rw [hstep]
      have hlen := d.len_le s.mem (pTarget + s.oldPos)
      generalize (d.disasm s.mem (pTarget + s.oldPos)).len = len at hlen
      obtain ⟨hok, hboundaries⟩ := h.add hsize pTrampoline len
      have hwrite : ∀ i, ¬InSlot pTrampoline i → (s.add pTrampoline len r).mem i = s.mem i :=
        fun i hi => write_of_not_inSlot (Nat.le_trans hsize (Nat.sub_le _ _)) hi
      show LoopResult pTrampoline s.mem (if r.finished then _ else _)
      split
      · refine ⟨hwrite, fun s' hs' => ?_, fun s' hs' => ?_⟩
        · cases hs'
          exact hsize
        · cases hs'
          exact hboundaries
      · next hmore =>
        have hshort := hpos (by simpa using hmore)
        obtain ⟨hframe, hnew, hips⟩ := ih (hok (by omega))
        exact ⟨fun i hi => (hframe i hi).trans (hwrite i hi), hnew, hips⟩

/-- **A trampoline and its relay**: they are in the slot, the relay leads to the detour, and the
patch has a place. -/
structure Trampoline.Fits (executable : ℕ → Bool) (m : Memory) (t : Trampoline) : Prop where
  le_relay : t.pTrampoline ≤ t.pRelay
  relay_le : t.pRelay + 14 ≤ t.pTrampoline + memorySlotSize
  relay : m.Holds t.pRelay (jmpAbs t.pDetour)
  boundaries : Boundaries t.oldIPs t.newIPs
  above : t.patchAbove = true → executable (t.pTarget - jmpRelSize) = true

theorem patchPlace_above {executable : ℕ → Bool} {m : Memory} {oldPos : ℕ}
    (h : patchPlace executable m pTarget oldPos = some true) :
    executable (pTarget - jmpRelSize) = true := by
  rw [patchPlace] at h
  split at h
  · split at h
    · cases h
    split at h
    · cases h
    · next hex => simpa using hex
  · cases h

/-- **`CreateTrampolineFunction`** writes in the slot only; what it returns is for the function and
the detour. -/
theorem createTrampolineFunction_spec (d : Disassembler) (executable : ℕ → Bool) (m : Memory)
    (pTarget pDetour pTrampoline : ℕ) :
    let res := createTrampolineFunction d executable m pTarget pDetour pTrampoline
    (∀ i, ¬InSlot pTrampoline i → res.1 i = m i) ∧
      ∀ t ∈ res.2, t.pTarget = pTarget ∧ t.pDetour = pDetour ∧ t.pTrampoline = pTrampoline ∧
        t.Fits executable res.1 := by
  have hstart : ({ mem := m } : LoopState).Ok 8 :=
    ⟨Nat.zero_le _, Nat.succ_pos _, fun _ h => absurd h List.not_mem_nil, rfl, rfl,
      fun _ h => absurd h List.not_mem_nil, Or.inl ⟨rfl, rfl, rfl, rfl⟩⟩
  have hloop : LoopResult pTrampoline m (trampolineLoop d pTarget pTrampoline 8 { mem := m }) :=
    trampolineLoop_spec hstart
  obtain ⟨hframe, hnew, hips⟩ := hloop
  intro res
  simp only [res, createTrampolineFunction]
  split
  · next m' heq =>
    rw [heq] at hframe
    exact ⟨hframe, fun _ h => by cases h⟩
  · next m' s heq =>
    rw [heq] at hframe hnew hips
    have hpos := hnew s rfl
    split
    · exact ⟨hframe, fun _ h => by cases h⟩
    · next patchAbove hplace =>
      have hroom : s.newPos + (jmpAbs pDetour).length ≤ memorySlotSize := by
        rw [length_jmpAbs]
        simp only [trampolineMaxSize, memorySlotSize] at *
        omega
      refine ⟨fun i hi => (write_of_not_inSlot hroom hi).trans (hframe i hi), fun t ht => ?_⟩
      cases ht
      rw [length_jmpAbs] at hroom
      refine ⟨rfl, rfl, rfl, Nat.le_add_right _ _, ?_, Memory.Holds.self _ _ _, hips s rfl, ?_⟩
      · show pTrampoline + s.newPos + 14 ≤ pTrampoline + memorySlotSize
        omega
      · rintro rfl
        exact patchPlace_above hplace

end Dx12Track.MinHook
