import Mathlib.Algebra.Group.Int.Defs
import Mathlib.Data.List.TakeWhile
import Dx12Track.Lib.Memory
import Dx12Track.EventTypes
import Dx12Track.Lib.Unicode

/-!
# The handoff to the elevated instance

`ElevationRequest::Launch` writes its current directory, user SID and environment
into a mapping that the elevated instance opens; that instance appends its output
to the mapping, and `ElevationRequest::Wait` prints it at the end.

* `HandoffField`, `Handoff.get`, `Handoff.set` — the header, in the bytes of the mapping.
* `ElevationRequest.launch` — what the original instance writes.
* `ElevatedSession` — what the elevated instance reads, and `forward`.
* `ElevationRequest.wait` — the original instance again.
* `Forwarded` — the invariant of the output region.
* `printed` — what `stdout` prints of a text.
* `handoff_round_trip` — **what is handed over is what is read**, and the output is printed
  up to its room, exactly if it can be printed.
-/

namespace Dx12Track

namespace Handoff

open Memory

def kHandoffMagic : UInt32 := 0x48584432
def kHandoffVersion : UInt32 := 1
def kForwardChars : ℕ := 64 * 1024

def kConsolePending : UInt32 := 0
def kConsoleAttached : UInt32 := 1
def kConsoleOwn : UInt32 := 2

/-! ### The header -/

/-- The members of `HandoffHeader`, each of four bytes. -/
inductive HandoffField
  | magic
  | version
  | totalBytes
  | cwdOff
  | cwdChars
  | sidOff
  | sidChars
  | envOff
  | envChars
  | outOff
  | outCap
  | consoleState
  | outChars
  deriving DecidableEq

/-- `offsetof`. -/
def HandoffField.offset : HandoffField → ℕ
  | magic => 0
  | version => 4
  | totalBytes => 8
  | cwdOff => 12
  | cwdChars => 16
  | sidOff => 20
  | sidChars => 24
  | envOff => 28
  | envChars => 32
  | outOff => 36
  | outCap => 40
  | consoleState => 44
  | outChars => 48

/-- `sizeof(HandoffHeader)`. -/
def handoffHeaderBytes : ℕ := 52

/-- `hdr_->field`. -/
def get (m : Memory) (f : HandoffField) : UInt32 := UInt32.ofNat (ofLe (m.read f.offset 4))

/-- `hdr_->field = v`. -/
def set (f : HandoffField) (v : UInt32) (m : Memory) : Memory := m.write f.offset (le 4 v.toNat)

/-- The bytes of `wchar_t`s. -/
def wide (s : WString) : List UInt8 := units 2 (s.map UInt16.toNat)

/-- `n` `wchar_t`s. -/
def readWide (m : Memory) (a n : ℕ) : WString :=
  (ofUnits 2 n (m.read a (2 * n))).map UInt16.ofNat

/-- A `LONG`. -/
def long (v : UInt32) : ℤ := if v.toNat < 2 ^ 31 then (v.toNat : ℤ) else (v.toNat : ℤ) - 2 ^ 32

/-! ### Environment blocks -/

/-- `wcslen`. -/
def wcslen (s : WString) : ℕ := (s.takeWhile (· ≠ 0)).length

theorem length_drop_wcslen (c : UInt16) (s : WString) :
    ((c :: s).drop (wcslen (c :: s) + 1)).length < (c :: s).length := by
  rw [List.length_drop, List.length_cons]
  omega

/-- `while (*p) p += wcslen(p) + 1`: how far `p` goes. -/
def envScan : WString → ℕ
  | [] => 0
  | c :: s =>
    if c = 0 then 0
    else wcslen (c :: s) + 1 + envScan ((c :: s).drop (wcslen (c :: s) + 1))
termination_by s => s.length
decreasing_by exact length_drop_wcslen c s

/-- `SplitEnvBlock`. -/
def splitEnvBlock : WString → List WString
  | [] => []
  | c :: s =>
    if c = 0 then []
    else (c :: s).takeWhile (· ≠ 0) :: splitEnvBlock ((c :: s).drop (wcslen (c :: s) + 1))
termination_by s => s.length
decreasing_by exact length_drop_wcslen c s

/-- An entry of an environment block. -/
abbrev EnvEntry := {e : WString // NulFree e ∧ e ≠ []}

/-- What `GetEnvironmentStringsW` points to. -/
def envBlock (entries : List EnvEntry) : WString := (entries.flatMap fun e => e.val ++ [0]) ++ [0]

/-! ### `ElevationRequest::Launch` -/

/-- What `Launch` finds in the original instance. -/
structure ElevationRequest where
  /-- From `GetCurrentDirectoryW`. -/
  cwd : WString
  /-- From `CurrentUserSid`; empty if that fails. -/
  sid : WString
  /-- From `GetEnvironmentStringsW`. -/
  env : Option (List EnvEntry)

/-- The entries of its environment. -/
def ElevationRequest.entries (r : ElevationRequest) : List EnvEntry := r.env.getD []

/-- The vector `env`. -/
def ElevationRequest.envChars (r : ElevationRequest) : WString :=
  let env := match r.env with
    | some entries => (envBlock entries).take (envScan (envBlock entries))
    | none => []
  let env := env ++ [0]
  if env.length = 1 then env ++ [0] else env

/-- The offsets of the regions. -/
structure Layout where
  cwdOff : UInt32
  sidOff : UInt32
  envOff : UInt32
  outOff : UInt32
  total : UInt32

/-- `off` after `reserve(chars)`, in 32 bits. -/
def reserve (off : UInt32) (chars : ℕ) : UInt32 := off + UInt32.ofNat (chars * 2)

def ElevationRequest.layout (r : ElevationRequest) : Layout :=
  let cwdOff := UInt32.ofNat ((handoffHeaderBytes + 7) / 8 * 8)
  let sidOff := reserve cwdOff (r.cwd.length + 1)
  let envOff := reserve sidOff (r.sid.length + 1)
  let outOff := reserve envOff r.envChars.length
  ⟨cwdOff, sidOff, envOff, outOff, reserve outOff kForwardChars⟩

/-- The mapping that `Launch` leaves, over what is in `m`. -/
def ElevationRequest.launch (r : ElevationRequest) (m : Memory) : Memory :=
  let l := r.layout
  let m := m |> set .magic kHandoffMagic |> set .version kHandoffVersion |> set .totalBytes l.total
    |> set .cwdOff l.cwdOff |> set .cwdChars (UInt32.ofNat r.cwd.length)
    |> set .sidOff l.sidOff |> set .sidChars (UInt32.ofNat r.sid.length)
    |> set .envOff l.envOff |> set .envChars (UInt32.ofNat r.envChars.length)
    |> set .outOff l.outOff |> set .outCap (UInt32.ofNat kForwardChars)
    |> set .consoleState kConsolePending |> set .outChars 0
  ((m.write l.cwdOff.toNat (wide (r.cwd ++ [0]))).write l.sidOff.toNat (wide (r.sid ++ [0]))).write
    l.envOff.toNat (wide r.envChars)

/-! ### `ElevatedSession` -/

structure ElevatedSession where
  /-- `hdr_` is set. -/
  hdr : Bool
  ownConsole : Bool
  originalSid : WString
  originalEnv : WString

/-- `fits`, in 64 bits. -/
def fits (m : Memory) (off chars : UInt32) : Prop :=
  off.toNat + chars.toNat * 2 ≤ (get m .totalBytes).toNat

instance (m : Memory) (off chars : UInt32) : Decidable (fits m off chars) :=
  inferInstanceAs (Decidable (_ ≤ _))

/-- `ElevatedSession::OpenHandoff`, of a mapping with `regionSize` bytes in the view. -/
def ElevatedSession.openHandoff (m : Memory) (regionSize : ℕ) : ElevatedSession :=
  if regionSize < handoffHeaderBytes ∨ get m .magic ≠ kHandoffMagic ∨
      get m .version ≠ kHandoffVersion ∨ regionSize < (get m .totalBytes).toNat ∨
      ¬fits m (get m .cwdOff) (get m .cwdChars) ∨ ¬fits m (get m .sidOff) (get m .sidChars) ∨
      ¬fits m (get m .envOff) (get m .envChars) ∨ ¬fits m (get m .outOff) (get m .outCap) then
    ⟨false, false, [], []⟩
  else
    ⟨true, false, readWide m (get m .sidOff).toNat (get m .sidChars).toNat,
      readWide m (get m .envOff).toNat (get m .envChars).toNat ++ [0, 0]⟩

namespace ElevatedSession

/-- The directory that `Begin` changes to. -/
def beginCwd (s : ElevatedSession) (m : Memory) : WString :=
  if s.hdr ∧ get m .cwdChars ≠ 0 then readWide m (get m .cwdOff).toNat (get m .cwdChars).toNat
  else []

/-- `SwitchConsole`, where `AttachConsole` fails (`own`) or not: `own_console_`. -/
def switchConsole (s : ElevatedSession) (own : Bool) : ElevatedSession :=
  { s with ownConsole := own }

/-- `SwitchConsole`: the state it tells the original instance. -/
def tellConsole (s : ElevatedSession) (m : Memory) : Memory :=
  if s.hdr then set .consoleState (if s.ownConsole then kConsoleOwn else kConsoleAttached) m else m

/-- `Forward`. -/
def forward (s : ElevatedSession) (m : Memory) (text : WString) : Memory :=
  if ¬s.ownConsole ∨ ¬s.hdr ∨ text.length = 0 then m
  else
    let used := get m .outChars
    if long used < 0 ∨ get m .outCap ≤ used then m
    else
      let n := min text.length (get m .outCap - used).toNat
      let dst := (get m .outOff).toNat
      set .outChars (used + UInt32.ofNat n) (m.write (dst + 2 * used.toNat) (wide (text.take n)))

end ElevatedSession

/-! ### `ElevationRequest::Wait` -/

/-- The code units that are there to be printed. -/
def forwardedText (m : Memory) : WString :=
  let n : ℤ := min (long (get m .outChars)) (long (get m .outCap))
  readWide m (get m .outOff).toNat n.toNat

section

variable (subst : Option UInt8)

/-- What `%.*ls` prints of code units: it stops at a NUL.  `stdout` is an ANSI stream and no locale
is set, so that a code unit above `0xFF` cannot be converted: the C runtime writes `subst` in its
place, or, without one, writes no more. -/
def printed : WString → WString
  | [] => []
  | c :: text =>
    if c = 0 then []
    else if c ≤ 0xFF then c :: printed text
    else match subst with
      | some b => b.toUInt16 :: printed text
      | none => []

/-- The forwarded text that `Wait` prints. -/
def ElevationRequest.prints (m : Memory) : WString :=
  if get m .consoleState = kConsoleAttached then [] else printed subst (forwardedText m)

/-- What is printed around a forwarded text. -/
def transcript (pid code : ℕ) (text : WString) : WString :=
  (if 0 < text.length then
    wliteral "\n--- output of the elevated dx12track (pid " ++ toWString pid ++
      wliteral ") ---\n" ++ printed subst text ++ if text.getLast? ≠ some 0x0A then [0x0A] else []
  else []) ++
  wliteral "dx12track: elevated instance (pid " ++ toWString pid ++
    wliteral ") exited with code " ++ toWString code ++ wliteral ".\n"

/-- What `Wait` prints when the elevated instance, which is `pid`, has exited with `code`. -/
def ElevationRequest.wait (m : Memory) (pid code : ℕ) : WString :=
  if get m .consoleState = kConsoleAttached then [] else transcript subst pid code (forwardedText m)

end

/-! ### Members of the header -/

theorem offset_add_le (f : HandoffField) : f.offset + 4 ≤ handoffHeaderBytes := by
  cases f <;> decide

theorem offset_disjoint {f g : HandoffField} (h : f ≠ g) :
    f.offset + 4 ≤ g.offset ∨ g.offset + 4 ≤ f.offset := by
  cases f <;> cases g <;> first
    | exact absurd rfl h
    | exact .inl (by decide)
    | exact .inr (by decide)

theorem get_set_self (f : HandoffField) (v : UInt32) (m : Memory) : get (set f v m) f = v := by
  have hread : (set f v m).read f.offset 4 = le 4 v.toNat := by
    have hwritten := read_write m f.offset (le 4 v.toNat)
    rwa [length_le] at hwritten
  rw [get, hread, ofLe_le v.toNat_lt, UInt32.ofNat_toNat]

theorem get_set_of_ne {f g : HandoffField} (h : f ≠ g) (v : UInt32) (m : Memory) :
    get (set f v m) g = get m g := by
  have hread : (set f v m).read g.offset 4 = m.read g.offset 4 := by
    refine read_write_of_disjoint ?_
    rw [length_le]
    exact (offset_disjoint h).symm
  rw [get, get, hread]

/-- **A member is what was assigned to it last.** -/
theorem get_set (f g : HandoffField) (v : UInt32) (m : Memory) :
    get (set f v m) g = if f = g then v else get m g := by
  by_cases h : f = g
  · rw [if_pos h, ← h, get_set_self]
  · rw [if_neg h, get_set_of_ne h]

/-- The header is not written by what is written behind it. -/
theorem get_write {m : Memory} {a : ℕ} {bytes : List UInt8} (h : handoffHeaderBytes ≤ a)
    (f : HandoffField) : get (m.write a bytes) f = get m f := by
  have hread : (m.write a bytes).read f.offset 4 = m.read f.offset 4 :=
    read_write_of_disjoint (.inl (Nat.le_trans (offset_add_le f) h))
  rw [get, get, hread]

/-- What stands behind the header is not written by an assignment. -/
theorem holds_set {m : Memory} {a : ℕ} {bytes : List UInt8} (h : m.Holds a bytes)
    (ha : handoffHeaderBytes ≤ a) (f : HandoffField) (v : UInt32) : (set f v m).Holds a bytes := by
  refine h.write (.inr ?_)
  rw [length_le]
  exact Nat.le_trans (offset_add_le f) ha

/-! ### Strings -/

@[simp] theorem length_wide (s : WString) : (wide s).length = 2 * s.length := by
  rw [wide, length_units, List.length_map]

theorem wide_append (s t : WString) : wide (s ++ t) = wide s ++ wide t := by
  rw [wide, List.map_append, units_append]
  rfl

/-- **A string is read where it stands.** -/
theorem readWide_of_holds {m : Memory} {a : ℕ} {s : WString} (h : m.Holds a (wide s)) :
    readWide m a s.length = s := by
  have hread : m.read a (2 * s.length) = wide s := by
    rw [← length_wide]
    exact h
  have hlt : ∀ v ∈ s.map UInt16.toNat, v < 256 ^ 2 := by
    intro v hv
    obtain ⟨c, -, rfl⟩ := List.mem_map.mp hv
    exact c.toNat_lt
  have hunits := ofUnits_units hlt
  rw [List.length_map] at hunits
  rw [readWide, hread, wide, hunits, List.map_map]
  exact (List.map_congr_left fun c _ => UInt16.ofNat_toNat).trans (List.map_id s)

/-- A string is read without its terminator. -/
theorem readWide_of_holds_append {m : Memory} {a : ℕ} {s t : WString}
    (h : m.Holds a (wide (s ++ t))) : readWide m a s.length = s := by
  rw [wide_append] at h
  exact readWide_of_holds (holds_append.mp h).1

/-! ### Environment blocks -/

section Blocks

variable (e : EnvEntry) (rest : WString)

theorem takeWhile_entry : (e.val ++ 0 :: rest).takeWhile (· ≠ 0) = e.val := by
  have hall : ∀ c ∈ e.val, decide (c ≠ 0) = true := fun c hc => decide_eq_true (e.2.1 c hc)
  rw [List.takeWhile_append_of_pos hall]
  simp

theorem drop_entry : (e.val ++ 0 :: rest).drop (e.val.length + 1) = rest := by
  rw [← List.drop_drop, List.drop_left]
  rfl

theorem envScan_entry : envScan (e.val ++ 0 :: rest) = e.val.length + 1 + envScan rest := by
  have htake := takeWhile_entry e rest
  have hdrop := drop_entry e rest
  obtain ⟨c, s, hs⟩ := List.exists_cons_of_ne_nil e.2.2
  have hc : c ≠ 0 := e.2.1 c (hs ▸ List.mem_cons_self)
  rw [hs] at htake hdrop ⊢
  rw [List.cons_append, envScan, if_neg hc, ← List.cons_append, wcslen, htake, hdrop]

theorem splitEnvBlock_entry :
    splitEnvBlock (e.val ++ 0 :: rest) = e.val :: splitEnvBlock rest := by
  have htake := takeWhile_entry e rest
  have hdrop := drop_entry e rest
  obtain ⟨c, s, hs⟩ := List.exists_cons_of_ne_nil e.2.2
  have hc : c ≠ 0 := e.2.1 c (hs ▸ List.mem_cons_self)
  rw [hs] at htake hdrop ⊢
  rw [List.cons_append, splitEnvBlock, if_neg hc, ← List.cons_append, wcslen, htake, hdrop]

theorem envScan_zero : envScan (0 :: rest) = 0 := by rw [envScan, if_pos rfl]

theorem splitEnvBlock_zero : splitEnvBlock (0 :: rest) = [] := by rw [splitEnvBlock, if_pos rfl]

end Blocks

/-- The entries of a block and their terminators. -/
def terminated (entries : List EnvEntry) : WString := entries.flatMap fun e => e.val ++ [0]

theorem terminated_cons (e : EnvEntry) (entries : List EnvEntry) (rest : WString) :
    terminated (e :: entries) ++ rest = e.val ++ 0 :: (terminated entries ++ rest) := by
  simp [terminated]

theorem envScan_terminated (entries : List EnvEntry) (rest : WString) :
    envScan (terminated entries ++ 0 :: rest) = (terminated entries).length := by
  induction entries with
  | nil => exact envScan_zero rest
  | cons e entries ih =>
    rw [terminated_cons, envScan_entry, ih, ← List.append_nil (terminated (e :: entries)),
      terminated_cons, List.append_nil, List.length_append, List.length_cons]
    omega

/-- **The entries are split where they were joined.** -/
theorem splitEnvBlock_terminated (entries : List EnvEntry) (rest : WString) :
    splitEnvBlock (terminated entries ++ 0 :: rest) = entries.map Subtype.val := by
  induction entries with
  | nil => exact splitEnvBlock_zero rest
  | cons e entries ih => rw [terminated_cons, splitEnvBlock_entry, ih, List.map_cons]

namespace ElevationRequest

/-- What is handed over of the environment. -/
theorem envChars_eq (r : ElevationRequest) : r.envChars
    = terminated r.entries ++ if terminated r.entries = [] then [0, 0] else [0] := by
  have htake : (match r.env with
      | some entries => (envBlock entries).take (envScan (envBlock entries))
      | none => []) = terminated r.entries := by
    rw [entries]
    cases r.env with
    | none => rfl
    | some entries =>
      have hblock : envBlock entries = terminated entries ++ [0] := rfl
      show (envBlock entries).take (envScan (envBlock entries)) = terminated entries
      rw [hblock, envScan_terminated, List.take_left]
  unfold envChars
  dsimp only
  rw [htake, List.length_append, List.length_singleton]
  by_cases hempty : terminated r.entries = []
  · rw [hempty]
    rfl
  · have hpos := List.length_pos_iff.mpr hempty
    rw [if_neg (by omega), if_neg hempty]

/-- What is handed over is split into the entries. -/
theorem splitEnvBlock_envChars (r : ElevationRequest) :
    splitEnvBlock (r.envChars ++ [0, 0]) = r.entries.map Subtype.val := by
  rw [r.envChars_eq, List.append_assoc]
  split
  · exact splitEnvBlock_terminated _ _
  · exact splitEnvBlock_terminated _ _

/-! ### Layout -/

/-- Where the regions would begin and the mapping end, if numbers had no bound. -/
def sidStart (r : ElevationRequest) : ℕ := 56 + (r.cwd.length + 1) * 2

def envStart (r : ElevationRequest) : ℕ := r.sidStart + (r.sid.length + 1) * 2

def outStart (r : ElevationRequest) : ℕ := r.envStart + r.envChars.length * 2

/-- The bytes of the combined layout. -/
def handoffBytes (r : ElevationRequest) : ℕ := r.outStart + kForwardChars * 2

end ElevationRequest

theorem reserve_toNat {off : UInt32} {chars : ℕ} (h : off.toNat + chars * 2 < 2 ^ 32) :
    (reserve off chars).toNat = off.toNat + chars * 2 := by
  have hchars : (UInt32.ofNat (chars * 2)).toNat = chars * 2 :=
    UInt32.toNat_ofNat_of_lt' (show chars * 2 < 4294967296 by omega)
  rw [reserve, UInt32.toNat_add, hchars, Nat.mod_eq_of_lt h]

namespace ElevationRequest

theorem cwdOff_toNat (r : ElevationRequest) : r.layout.cwdOff.toNat = 56 := rfl

section Offsets

variable {r : ElevationRequest} (hsize : r.handoffBytes < 2 ^ 32)

include hsize

/-- **The offsets do not wrap around.** -/
theorem layout_toNat : r.layout.sidOff.toNat = r.sidStart ∧ r.layout.envOff.toNat = r.envStart ∧
    r.layout.outOff.toNat = r.outStart ∧ r.layout.total.toNat = r.handoffBytes := by
  unfold handoffBytes outStart envStart sidStart at *
  have hsid : r.layout.sidOff.toNat = 56 + (r.cwd.length + 1) * 2 :=
    reserve_toNat (show 56 + (r.cwd.length + 1) * 2 < 2 ^ 32 by omega)
  have henv : r.layout.envOff.toNat = r.layout.sidOff.toNat + (r.sid.length + 1) * 2 :=
    reserve_toNat (show r.layout.sidOff.toNat + (r.sid.length + 1) * 2 < 2 ^ 32 by omega)
  have hout : r.layout.outOff.toNat = r.layout.envOff.toNat + r.envChars.length * 2 :=
    reserve_toNat (show r.layout.envOff.toNat + r.envChars.length * 2 < 2 ^ 32 by omega)
  have htotal : r.layout.total.toNat = r.layout.outOff.toNat + kForwardChars * 2 :=
    reserve_toNat (show r.layout.outOff.toNat + kForwardChars * 2 < 2 ^ 32 by omega)
  exact ⟨hsid, by omega, by omega, by omega⟩

theorem chars_toNat : (UInt32.ofNat r.cwd.length).toNat = r.cwd.length ∧
    (UInt32.ofNat r.sid.length).toNat = r.sid.length ∧
    (UInt32.ofNat r.envChars.length).toNat = r.envChars.length := by
  unfold handoffBytes outStart envStart sidStart at hsize
  refine ⟨UInt32.toNat_ofNat_of_lt' ?_, UInt32.toNat_ofNat_of_lt' ?_,
    UInt32.toNat_ofNat_of_lt' ?_⟩
  · show r.cwd.length < 4294967296
    omega
  · show r.sid.length < 4294967296
    omega
  · show r.envChars.length < 4294967296
    omega

end Offsets

/-! ### What `Launch` leaves -/

/-- The members of the header. -/
def header (r : ElevationRequest) : HandoffField → UInt32
  | .magic => kHandoffMagic
  | .version => kHandoffVersion
  | .totalBytes => r.layout.total
  | .cwdOff => r.layout.cwdOff
  | .cwdChars => UInt32.ofNat r.cwd.length
  | .sidOff => r.layout.sidOff
  | .sidChars => UInt32.ofNat r.sid.length
  | .envOff => r.layout.envOff
  | .envChars => UInt32.ofNat r.envChars.length
  | .outOff => r.layout.outOff
  | .outCap => UInt32.ofNat kForwardChars
  | .consoleState => kConsolePending
  | .outChars => 0

/-- What the elevated instance finds in the mapping. -/
structure Handed (r : ElevationRequest) (m : Memory) : Prop where
  header : ∀ f, get m f = r.header f
  cwd : m.Holds r.layout.cwdOff.toNat (wide (r.cwd ++ [0]))
  sid : m.Holds r.layout.sidOff.toNat (wide (r.sid ++ [0]))
  env : m.Holds r.layout.envOff.toNat (wide r.envChars)

/-- **No part of the handoff overwrites another.** -/
theorem handed_launch {r : ElevationRequest} (hsize : r.handoffBytes < 2 ^ 32) (m : Memory) :
    Handed r (r.launch m) := by
  obtain ⟨hsid, henv, -, -⟩ := layout_toNat hsize
  have hcwd := r.cwdOff_toNat
  unfold envStart at henv
  unfold sidStart at hsid henv
  have hcwdLen : (wide (r.cwd ++ [0])).length = (r.cwd.length + 1) * 2 := by
    rw [length_wide, List.length_append, List.length_singleton, Nat.mul_comm]
  have hsidLen : (wide (r.sid ++ [0])).length = (r.sid.length + 1) * 2 := by
    rw [length_wide, List.length_append, List.length_singleton, Nat.mul_comm]
  constructor
  · intro f
    have hbehind : ∀ {off : UInt32}, 56 ≤ off.toNat → handoffHeaderBytes ≤ off.toNat :=
      fun h => Nat.le_trans (by decide) h
    rw [launch, get_write (hbehind (by omega)), get_write (hbehind (by omega)),
      get_write (hbehind (by omega))]
    cases f <;> simp only [get_set, reduceCtorEq, reduceIte, header]
  · exact ((Holds.self _ _ _).write (.inl (by omega))).write (.inl (by omega))
  · exact (Holds.self _ _ _).write (.inl (by omega))
  · exact Holds.self _ _ _

end ElevationRequest

/-! ### What the elevated instance reads -/

namespace ElevationRequest.Handed

variable {r : ElevationRequest} {m : Memory} (h : Handed r m) (hsize : r.handoffBytes < 2 ^ 32)

include h hsize

/-- **The mapping is accepted**, and the SID and the environment are read. -/
theorem openHandoff_eq {regionSize : ℕ} (hregion : r.handoffBytes ≤ regionSize) :
    ElevatedSession.openHandoff m regionSize = ⟨true, false, r.sid, r.envChars ++ [0, 0]⟩ := by
  obtain ⟨hsid, henv, hout, htotal⟩ := layout_toNat hsize
  obtain ⟨hcwdChars, hsidChars, henvChars⟩ := chars_toNat hsize
  have hcwd := r.cwdOff_toNat
  have hcap : (UInt32.ofNat kForwardChars).toNat = kForwardChars := rfl
  have hreadSid : readWide m r.layout.sidOff.toNat r.sid.length = r.sid :=
    readWide_of_holds_append h.sid
  have hreadEnv : readWide m r.layout.envOff.toNat r.envChars.length = r.envChars :=
    readWide_of_holds h.env
  have hfits : fits m (get m .cwdOff) (get m .cwdChars) ∧ fits m (get m .sidOff) (get m .sidChars) ∧
      fits m (get m .envOff) (get m .envChars) ∧ fits m (get m .outOff) (get m .outCap) := by
    simp only [fits, h.header, ElevationRequest.header, hcwdChars, hsidChars, henvChars,
      hcap, hsid, henv, hout, htotal, hcwd]
    unfold handoffBytes outStart envStart sidStart
    omega
  rw [ElevatedSession.openHandoff, if_neg]
  · simp only [h.header, ElevationRequest.header, hsidChars, henvChars, hreadSid, hreadEnv]
  · have hheader : handoffHeaderBytes ≤ regionSize := by
      have hle : handoffHeaderBytes ≤ r.handoffBytes := by
        unfold handoffBytes outStart envStart sidStart
        show 52 ≤ _
        omega
      exact Nat.le_trans hle hregion
    simp only [not_or, not_not]
    refine ⟨Nat.not_lt.mpr hheader, h.header .magic, h.header .version, ?_, hfits⟩
    rw [h.header, ElevationRequest.header, htotal]
    exact Nat.not_lt.mpr hregion

/-- The directory is read. -/
theorem beginCwd_eq {s : ElevatedSession} (hs : s.hdr = true) : s.beginCwd m = r.cwd := by
  obtain ⟨hcwdChars, -, -⟩ := chars_toNat hsize
  have hread : readWide m r.layout.cwdOff.toNat r.cwd.length = r.cwd :=
    readWide_of_holds_append h.cwd
  rw [ElevatedSession.beginCwd]
  by_cases hempty : get m .cwdChars ≠ 0
  · rw [if_pos ⟨hs, hempty⟩, h.header, h.header]
    simp only [ElevationRequest.header, hcwdChars, hread]
  · rw [if_neg fun hc => hempty hc.2]
    have hzero : get m .cwdChars = 0 := not_not.mp hempty
    rw [h.header, ElevationRequest.header] at hzero
    rw [hzero] at hcwdChars
    exact (List.length_eq_zero_iff.mp hcwdChars.symm).symm

end ElevationRequest.Handed

/-! ### The forwarded text -/

/-- The output region holds the text. -/
structure Forwarded (m : Memory) (text : WString) : Prop where
  cap : get m .outCap = UInt32.ofNat kForwardChars
  behind : handoffHeaderBytes ≤ (get m .outOff).toNat
  chars : (get m .outChars).toNat = text.length
  le : text.length ≤ kForwardChars
  holds : m.Holds (get m .outOff).toNat (wide text)

theorem long_of_le {v : UInt32} (h : v.toNat ≤ kForwardChars) : long v = v.toNat := by
  have hlt : v.toNat < 2 ^ 31 := Nat.lt_of_le_of_lt h (by decide)
  rw [long, if_pos hlt]

theorem take_take_append {α : Type} (n : ℕ) (l t : List α) :
    (l.take n ++ t).take n = (l ++ t).take n := by
  rw [List.take_append, List.take_append, List.take_take, Nat.min_self, List.length_take]
  by_cases h : n ≤ l.length
  · rw [Nat.min_eq_left h, Nat.sub_self, Nat.sub_eq_zero_of_le h]
  · rw [Nat.min_eq_right (by omega)]

namespace Forwarded

variable {s : ElevatedSession} {m : Memory} {text : WString}

/-- Another member of the header does not matter. -/
theorem set_consoleState (h : Forwarded m text) (v : UInt32) :
    Forwarded (set .consoleState v m) text where
  cap := by rw [get_set_of_ne (by decide), h.cap]
  behind := by rw [get_set_of_ne (by decide)]; exact h.behind
  chars := by rw [get_set_of_ne (by decide), h.chars]
  le := h.le
  holds := by
    rw [get_set_of_ne (by decide)]
    exact holds_set h.holds h.behind _ _

/-- **A text is appended as far as there is room.** -/
theorem forward (h : Forwarded m text) (hown : s.ownConsole = true) (hhdr : s.hdr = true)
    (t : WString) : Forwarded (s.forward m t) ((text ++ t).take kForwardChars) ∧
      get (s.forward m t) .consoleState = get m .consoleState := by
  have hcap : (get m .outCap).toNat = kForwardChars := by
    rw [h.cap]
    rfl
  by_cases hempty : t = []
  · rw [hempty, List.append_nil, List.take_of_length_le h.le, ElevatedSession.forward,
      if_pos (.inr (.inr rfl))]
    exact ⟨h, rfl⟩
  have hpos := List.length_pos_iff.mpr hempty
  -- what is in the region is far from the sign bit
  have hlong : ¬long (get m .outChars) < 0 := by
    rw [long_of_le (h.chars ▸ h.le)]
    omega
  rw [ElevatedSession.forward, if_neg (by simp [hown, hhdr, hempty])]
  dsimp only
  by_cases hfull : get m .outCap ≤ get m .outChars
  · -- there is no room
    have hlen : kForwardChars ≤ text.length := by
      rw [← hcap, ← h.chars]
      exact hfull
    rw [if_pos (.inr hfull), List.take_append_of_le_length hlen, List.take_of_length_le h.le]
    exact ⟨h, rfl⟩
  · have hroom : (get m .outCap - get m .outChars).toNat = kForwardChars - text.length := by
      have hle : get m .outChars ≤ get m .outCap := UInt32.le_of_lt (UInt32.not_le.mp hfull)
      rw [UInt32.toNat_sub_of_le _ _ hle, hcap, h.chars]
    rw [if_neg (not_or.mpr ⟨hlong, hfull⟩), hroom]
    -- as much of the text as there is room for
    generalize hn : min t.length (kForwardChars - text.length) = n
    have hcap' : kForwardChars = 65536 := rfl
    have hle := h.le
    have htext : (text ++ t).take kForwardChars = text ++ t.take n := by
      have htake : t.take (kForwardChars - text.length) = t.take n :=
        List.take_eq_take_iff.mpr (by omega)
      rw [List.take_append, List.take_of_length_le h.le, htake]
    have hlen : (t.take n).length = n := by
      rw [List.length_take]
      omega
    have hused : (get m .outChars + UInt32.ofNat n).toNat = text.length + n := by
      have hnat : (UInt32.ofNat n).toNat = n :=
        UInt32.toNat_ofNat_of_lt' (show n < 4294967296 by omega)
      rw [UInt32.toNat_add, hnat, h.chars]
      exact Nat.mod_eq_of_lt (by omega)
    have hbehind := h.behind
    -- no other field is touched: the text goes behind the header
    have hget : ∀ f, f ≠ .outChars → get (set .outChars (get m .outChars + UInt32.ofNat n)
        (m.write ((get m .outOff).toNat + 2 * (get m .outChars).toNat) (wide (t.take n)))) f
          = get m f := by
      intro f hf
      rw [get_set_of_ne hf.symm, get_write (by omega)]
    rw [htext]
    refine ⟨⟨?cap, ?behind, ?chars, ?le, ?holds⟩, hget _ (by decide)⟩
    case cap => rw [hget _ (by decide), h.cap]
    case behind =>
      rw [hget _ (by decide)]
      exact h.behind
    case chars => rw [get_set_self, hused, List.length_append, hlen]
    case le =>
      rw [List.length_append, hlen]
      omega
    case holds =>
      rw [hget _ (by decide), wide_append]
      refine holds_set (holds_append.mpr ⟨h.holds.write (.inl ?_), ?_⟩) h.behind _ _
      · rw [length_wide, h.chars]
      · rw [length_wide, ← h.chars]
        exact Holds.self _ _ _

/-- **After a run of `Forward` the region holds the beginning of all the texts.** -/
theorem forward_all (h : Forwarded m text) (hown : s.ownConsole = true) (hhdr : s.hdr = true)
    (texts : List WString) :
    Forwarded (texts.foldl s.forward m) ((text ++ texts.flatten).take kForwardChars) ∧
      get (texts.foldl s.forward m) .consoleState = get m .consoleState := by
  induction texts generalizing m text with
  | nil =>
    rw [List.flatten_nil, List.append_nil, List.take_of_length_le h.le]
    exact ⟨h, rfl⟩
  | cons t texts ih =>
    obtain ⟨hstep, hstate⟩ := h.forward hown hhdr t
    obtain ⟨hrun, hstate'⟩ := ih hstep
    rw [take_take_append, List.append_assoc] at hrun
    exact ⟨hrun, hstate'.trans hstate⟩

theorem forwardedText_eq (h : Forwarded m text) : forwardedText m = text := by
  have hcap : long (get m .outCap) = kForwardChars := by
    rw [h.cap]
    rfl
  have hn : (min (long (get m .outChars)) (long (get m .outCap))).toNat = text.length := by
    have hle := h.le
    rw [long_of_le (h.chars ▸ h.le), h.chars, hcap]
    omega
  rw [forwardedText, hn]
  exact readWide_of_holds h.holds

end Forwarded

/-- The mapping when the elevated instance has a console of its own and has forwarded texts. -/
def ElevatedSession.output (s : ElevatedSession) (m : Memory) (texts : List WString) : Memory :=
  texts.foldl (s.switchConsole true).forward ((s.switchConsole true).tellConsole m)

theorem ElevationRequest.Handed.forwarded {r : ElevationRequest} {m : Memory} (h : r.Handed m)
    (hsize : r.handoffBytes < 2 ^ 32) : Forwarded m [] where
  cap := h.header .outCap
  behind := by
    obtain ⟨-, -, hout, -⟩ := ElevationRequest.layout_toNat hsize
    rw [h.header, ElevationRequest.header, hout]
    unfold ElevationRequest.outStart ElevationRequest.envStart ElevationRequest.sidStart
    show 52 ≤ _
    omega
  chars := by
    rw [h.header]
    rfl
  le := Nat.zero_le _
  holds := Holds.nil _ _

/-- The mapping when `Wait` prints. -/
theorem output_spec {r : ElevationRequest} {m : Memory} (h : r.Handed m)
    (hsize : r.handoffBytes < 2 ^ 32) {s : ElevatedSession} (hhdr : s.hdr = true)
    (texts : List WString) : get (s.output m texts) .consoleState = kConsoleOwn ∧
      forwardedText (s.output m texts) = texts.flatten.take kForwardChars := by
  have htell : (s.switchConsole true).tellConsole m = set .consoleState kConsoleOwn m := by
    rw [ElevatedSession.tellConsole, if_pos (show (s.switchConsole true).hdr = true from hhdr)]
    rfl
  have hstart := (h.forwarded hsize).set_consoleState kConsoleOwn
  obtain ⟨hrun, hstate⟩ := hstart.forward_all (s := s.switchConsole true) rfl hhdr texts
  rw [List.nil_append] at hrun
  rw [get_set_self] at hstate
  rw [ElevatedSession.output, htell]
  exact ⟨hstate, hrun.forwardedText_eq⟩

/-- What there was room for. -/
def taken (texts : List WString) : WString :=
  texts.flatten.take (min texts.flatten.length kForwardChars)

/-- **The output is printed as far as there was room**, and as `stdout` can print it. -/
theorem prints_output (subst : Option UInt8) {r : ElevationRequest} {m : Memory} (h : r.Handed m)
    (hsize : r.handoffBytes < 2 ^ 32) {s : ElevatedSession} (hhdr : s.hdr = true)
    (texts : List WString) :
    ElevationRequest.prints subst (s.output m texts) = printed subst (taken texts) := by
  obtain ⟨hstate, htext⟩ := output_spec h hsize hhdr texts
  have htake : texts.flatten.take kForwardChars = taken texts :=
    List.take_eq_take_iff.mpr (by omega)
  rw [ElevationRequest.prints, hstate, if_neg (by decide), htext, htake]

/-- A code unit that `stdout` prints as it is. -/
def Printable (c : UInt16) : Prop := c ≠ 0 ∧ c ≤ 0xFF

instance (c : UInt16) : Decidable (Printable c) := inferInstanceAs (Decidable (_ ∧ _))

/-- A text is printed as it is if its code units are: what is written for another one is a byte. -/
theorem printed_eq_self_iff (subst : Option UInt8) (text : WString) :
    printed subst text = text ↔ ∀ c ∈ text, Printable c := by
  induction text with
  | nil => simp [printed]
  | cons c text ih =>
    rw [List.forall_mem_cons, ← ih, Printable]
    simp only [printed]
    split
    · next hnul => simp [hnul]
    · next hnul =>
      split
      · next hbyte => simp [hnul, hbyte]
      · next hbyte =>
        split
        · next b =>
          have hne : b.toUInt16 ≠ c := by
            rintro rfl
            exact hbyte (UInt16.le_iff_toNat_le.mpr (Nat.le_of_lt_succ b.toNat_lt))
          simp [hne, hbyte]
        · simp [hbyte]

/-! ### The round trip -/

/-- Bytes of the mapping. -/
structure Region where
  start : ℕ
  stop : ℕ

def Region.Disjoint (g g' : Region) : Prop := g.stop ≤ g'.start ∨ g'.stop ≤ g.start

/-- The header, and the regions it names: the strings with their terminators. -/
def regions (m : Memory) : List Region :=
  [⟨0, handoffHeaderBytes⟩,
    ⟨(get m .cwdOff).toNat, (get m .cwdOff).toNat + ((get m .cwdChars).toNat + 1) * 2⟩,
    ⟨(get m .sidOff).toNat, (get m .sidOff).toNat + ((get m .sidChars).toNat + 1) * 2⟩,
    ⟨(get m .envOff).toNat, (get m .envOff).toNat + (get m .envChars).toNat * 2⟩,
    ⟨(get m .outOff).toNat, (get m .outOff).toNat + (get m .outCap).toNat * 2⟩]

theorem ElevationRequest.Handed.regions_eq {r : ElevationRequest} {m : Memory} (h : r.Handed m)
    (hsize : r.handoffBytes < 2 ^ 32) :
    regions m = [⟨0, 52⟩, ⟨56, r.sidStart⟩, ⟨r.sidStart, r.envStart⟩, ⟨r.envStart, r.outStart⟩,
      ⟨r.outStart, r.handoffBytes⟩] := by
  obtain ⟨hsid, henv, hout, -⟩ := layout_toNat hsize
  obtain ⟨hcwdChars, hsidChars, henvChars⟩ := chars_toNat hsize
  simp only [regions, h.header, ElevationRequest.header, r.cwdOff_toNat, hsid, henv, hout,
    hcwdChars, hsidChars, henvChars]
  rfl

/-- What was written by `Launch` is accepted and read back, and `Wait` finds what was forwarded. -/
structure HandedOver (r : ElevationRequest) (m : Memory) (s : ElevatedSession) : Prop where
  accepted : s.hdr = true
  disjoint : (regions m).Pairwise Region.Disjoint
  cwd : s.beginCwd m = r.cwd
  sid : s.originalSid = r.sid
  env : splitEnvBlock s.originalEnv = r.entries.map Subtype.val
  wait : ∀ subst texts pid code, ElevationRequest.wait subst (s.output m texts) pid code
    = transcript subst pid code (taken texts)

/-- And what was forwarded is what is printed. -/
structure RoundTrip (subst : Option UInt8) (r : ElevationRequest) (m : Memory) (s : ElevatedSession)
    (texts : List WString) : Prop extends HandedOver r m s where
  prints : ElevationRequest.prints subst (s.output m texts) = taken texts

/-- **The handoff round-trips exactly if the code units that there was room for can be printed**,
for every directory, SID and environment whose layout has less than 4 GiB, and in every view that
has the whole mapping.  All but the printing needs no condition. -/
theorem handoff_round_trip (subst : Option UInt8) {r : ElevationRequest}
    (hsize : r.handoffBytes < 2 ^ 32) {regionSize : ℕ} (hregion : r.handoffBytes ≤ regionSize)
    (m : Memory) (texts : List WString) :
    let s := ElevatedSession.openHandoff (r.launch m) regionSize
    HandedOver r (r.launch m) s ∧
      (RoundTrip subst r (r.launch m) s texts ↔ ∀ c ∈ taken texts, Printable c) := by
  have h := ElevationRequest.handed_launch hsize m
  generalize r.launch m = m at h
  rw [h.openHandoff_eq hsize hregion]
  have hover : HandedOver r m ⟨true, false, r.sid, r.envChars ++ [0, 0]⟩ := by
    refine ⟨rfl, ?_, h.beginCwd_eq hsize rfl, rfl, ?_, ?_⟩
    · rw [h.regions_eq hsize]
      unfold ElevationRequest.handoffBytes ElevationRequest.outStart ElevationRequest.envStart
        ElevationRequest.sidStart
      simp only [List.pairwise_cons, List.mem_cons, forall_eq_or_imp, List.not_mem_nil,
        false_imp_iff, implies_true, List.Pairwise.nil, and_true, Region.Disjoint]
      omega
    · exact r.splitEnvBlock_envChars
    · intro subst texts pid code
      obtain ⟨hstate, htext⟩ := output_spec h hsize
        (s := ⟨true, false, r.sid, r.envChars ++ [0, 0]⟩) rfl texts
      have htake : texts.flatten.take kForwardChars = taken texts :=
        List.take_eq_take_iff.mpr (by omega)
      rw [ElevationRequest.wait, hstate, if_neg (by decide), htext, htake]
  have hprints := prints_output subst h hsize
    (s := ⟨true, false, r.sid, r.envChars ++ [0, 0]⟩) rfl texts
  refine ⟨hover, ?_⟩
  rw [← printed_eq_self_iff subst, ← hprints]
  exact ⟨RoundTrip.prints, fun hself => ⟨hover, hself⟩⟩

/-- A launcher in the root directory, with one variable. -/
def rootLauncher : ElevationRequest where
  cwd := wliteral "C:\\"
  sid := wliteral "S-1-5-18"
  env := some [⟨wliteral "A=b", by decide, by decide⟩]

theorem handoffBytes_rootLauncher : rootLauncher.handoffBytes = 131164 := by
  have henv : rootLauncher.envChars.length = 5 := by
    rw [ElevationRequest.envChars_eq]
    decide
  rw [ElevationRequest.handoffBytes, ElevationRequest.outStart, henv]
  decide

theorem handoff_round_trip_root :
    let m := rootLauncher.launch fun _ => 0
    let s := ElevatedSession.openHandoff m 135168
    HandedOver rootLauncher m s ∧ (RoundTrip none rootLauncher m s [wliteral "Injected."] ↔
      ∀ c ∈ taken [wliteral "Injected."], Printable c) :=
  handoff_round_trip none (by rw [handoffBytes_rootLauncher]; decide)
    (by rw [handoffBytes_rootLauncher]; decide) _ _

/-- What `Out` forwards for a target in a directory that has a Chinese name. -/
def startedText : WString := wliteral "Started C:\\一\\app.exe (pid 7), suspended.\n"

theorem mem_taken_startedText : 0x4E00 ∈ taken [startedText] := by decide

/-- The name of that directory is not printed, whatever is written for it. -/
theorem not_printed_startedText : ¬∃ subst, ∀ r : ElevationRequest, r.handoffBytes < 2 ^ 32 →
    ∀ regionSize, r.handoffBytes ≤ regionSize → ∀ (m : Memory) (texts : List WString),
      RoundTrip subst r (r.launch m) (ElevatedSession.openHandoff (r.launch m) regionSize)
        texts := by
  rintro ⟨subst, hall⟩
  have hsize : rootLauncher.handoffBytes < 2 ^ 32 := by rw [handoffBytes_rootLauncher]; decide
  have hregion : rootLauncher.handoffBytes ≤ 135168 := by rw [handoffBytes_rootLauncher]; decide
  have hprints := (hall rootLauncher hsize 135168 hregion (fun _ => 0) [startedText]).prints
  have h := ElevationRequest.handed_launch hsize fun _ => 0
  rw [prints_output subst h hsize (by rw [h.openHandoff_eq hsize hregion]),
    printed_eq_self_iff] at hprints
  exact absurd (hprints _ mem_taken_startedText) (by decide)

end Handoff
end Dx12Track
