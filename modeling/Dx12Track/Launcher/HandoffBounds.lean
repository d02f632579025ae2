import Dx12Track.Lib.Access
import Dx12Track.Launcher.Elevation

/-!
# The bounds of the handoff mapping

The elevated instance reads and writes the mapping at offsets that a less privileged
process has written into its header.  `OpenHandoff` checks them once; here its reads and
writes, and those of `Begin` and `Forward`, are recorded byte by byte.

* `Mapped.openHandoff`, `Mapped.beginCwd`, `Mapped.forward` — the functions, with what
  they touch; `openHandoff_value`, `beginCwd_value`, `forward_mem` — they compute what the
  functions without the record do.
* `Mapped.session` — from `Begin` on, with any texts forwarded.
* `OutputBehind` — the text is not written into the header that was checked.
* `Kept` — what every `Forward` keeps then.
* `safe_iff` — **the accesses are safe exactly if that is so**.
-/

namespace Dx12Track

namespace Handoff

open Memory

/-- How a byte of the mapping is reached. -/
inductive Reach
  /-- As a member of the header. -/
  | member
  /-- By an offset that stands in the header. -/
  | offset
  deriving DecidableEq

/-! ### The code, with its accesses -/

namespace Mapped

/-- `hdr_->f`. -/
def member (f : HandoffField) : Access Reach UInt32 := do
  let v ← Access.readLe .member f.offset 4
  return UInt32.ofNat v

/-- `hdr_->f = v`. -/
def setMember (f : HandoffField) (v : UInt32) : Access Reach Unit :=
  Access.write .member f.offset (le 4 v.toNat)

/-- The string at the offset `off`, with `chars` code units. -/
def text (off chars : HandoffField) : Access Reach WString := do
  let a ← member off
  let n ← member chars
  let bytes ← Access.read .offset a.toNat (2 * n.toNat)
  return (ofUnits 2 n.toNat bytes).map UInt16.ofNat

/-- `fits(hdr->off, hdr->chars)`. -/
def fits (off chars : HandoffField) : Access Reach Bool := do
  let a ← member off
  let n ← member chars
  let total ← member .totalBytes
  return decide (a.toNat + n.toNat * 2 ≤ total.toNat)

/-- A handoff that is not taken. -/
def refused : ElevatedSession := ⟨false, false, [], []⟩

/-- `OpenHandoff`, behind the checks: the strings are copied. -/
def takeHandoff : Access Reach ElevatedSession := do
  let originalSid ← text .sidOff .sidChars
  let originalEnv ← text .envOff .envChars
  return ⟨true, false, originalSid, originalEnv ++ [0, 0]⟩

/-- `OpenHandoff`, from the first `fits` on. -/
def openRegions : Access Reach ElevatedSession := do
  let cwd ← fits .cwdOff .cwdChars
  if cwd = false then return refused
  let sid ← fits .sidOff .sidChars
  if sid = false then return refused
  let env ← fits .envOff .envChars
  if env = false then return refused
  let out ← fits .outOff .outCap
  if out = false then return refused
  takeHandoff

/-- `OpenHandoff`. -/
def openHandoff (regionSize : ℕ) : Access Reach ElevatedSession := do
  if regionSize < handoffHeaderBytes then return refused
  let magic ← member .magic
  if magic ≠ kHandoffMagic then return refused
  let version ← member .version
  if version ≠ kHandoffVersion then return refused
  let total ← member .totalBytes
  if regionSize < total.toNat then return refused
  openRegions

/-- The directory that `Begin` changes to. -/
def beginCwd (s : ElevatedSession) : Access Reach WString := do
  if s.hdr = false then return []
  let chars ← member .cwdChars
  if chars = 0 then return []
  text .cwdOff .cwdChars

/-- `SwitchConsole`. -/
def tellConsole (s : ElevatedSession) : Access Reach Unit := do
  if s.hdr = false then return ()
  setMember .consoleState (if s.ownConsole then kConsoleOwn else kConsoleAttached)

/-- `Forward`. -/
def forward (s : ElevatedSession) (t : WString) : Access Reach Unit := do
  if ¬s.ownConsole ∨ ¬s.hdr ∨ t.length = 0 then return ()
  let used ← member .outChars
  if long used < 0 then return ()
  let cap ← member .outCap
  if cap ≤ used then return ()
  let n := min t.length (cap - used).toNat
  let dst ← member .outOff
  Access.write .offset (dst.toNat + 2 * used.toNat) (wide (t.take n))
  setMember .outChars (used + UInt32.ofNat n)

/-- Calls of `Forward`. -/
def forwards (s : ElevatedSession) : List WString → Access Reach Unit
  | [] => return ()
  | t :: texts => do
    forward s t
    forwards s texts

/-- `Begin`, where `AttachConsole` fails (`own`) or not, and what is forwarded from then on. -/
def session (regionSize : ℕ) (own : Bool) (texts : List WString) : Access Reach Unit := do
  let s ← openHandoff regionSize
  let _ ← beginCwd s
  let s := s.switchConsole own
  tellConsole s
  forwards s texts

end Mapped

/-! ### They compute the same -/

namespace Mapped

variable (m : Memory)

@[simp] theorem member_value (f : HandoffField) : (member f m).value = get m f := rfl

@[simp] theorem member_mem (f : HandoffField) : (member f m).mem = m := rfl

@[simp] theorem setMember_mem (f : HandoffField) (v : UInt32) : (setMember f v m).mem = set f v m :=
  rfl

@[simp] theorem text_value (off chars : HandoffField) :
    (text off chars m).value = readWide m (get m off).toNat (get m chars).toNat := by
  simp only [text, Access.value_bind, member_value, member_mem, Access.value_read,
    Access.pure_apply, readWide]

@[simp] theorem text_mem (off chars : HandoffField) : (text off chars m).mem = m := rfl

@[simp] theorem fits_value (off chars : HandoffField) :
    (fits off chars m).value = decide (Handoff.fits m (get m off) (get m chars)) := by
  simp only [fits, Access.value_bind, member_value, member_mem, Access.pure_apply]
  exact decide_eq_decide.mpr Iff.rfl

@[simp] theorem fits_mem (off chars : HandoffField) : (fits off chars m).mem = m := rfl

theorem readsOnly_member (f : HandoffField) : Access.ReadsOnly (member f) := fun _ => rfl

theorem readsOnly_fits (off chars : HandoffField) : Access.ReadsOnly (fits off chars) :=
  fun _ => rfl

theorem readsOnly_text (off chars : HandoffField) : Access.ReadsOnly (text off chars) :=
  fun _ => rfl

theorem readsOnly_openHandoff (regionSize : ℕ) : Access.ReadsOnly (openHandoff regionSize) := by
  have hrefused : Access.ReadsOnly (return refused : Access Reach ElevatedSession) :=
    Access.readsOnly_pure refused
  have htake : Access.ReadsOnly takeHandoff :=
    (readsOnly_text _ _).bind fun _ => (readsOnly_text _ _).bind fun _ => Access.readsOnly_pure _
  have hregions : Access.ReadsOnly openRegions := by
    refine (readsOnly_fits _ _).bind fun cwd => hrefused.ite ?_
    refine (readsOnly_fits _ _).bind fun sid => hrefused.ite ?_
    refine (readsOnly_fits _ _).bind fun env => hrefused.ite ?_
    exact (readsOnly_fits _ _).bind fun out => hrefused.ite htake
  refine hrefused.ite ?_
  refine (readsOnly_member _).bind fun magic => hrefused.ite ?_
  refine (readsOnly_member _).bind fun version => hrefused.ite ?_
  exact (readsOnly_member _).bind fun total => hrefused.ite hregions

theorem ite_or {α : Type} (p q : Prop) [Decidable p] [Decidable q] (x y : α) :
    (if p ∨ q then x else y) = if p then x else if q then x else y := by
  by_cases h : p
  · simp [h]
  · simp [h]

theorem openHandoff_value (regionSize : ℕ) :
    (openHandoff regionSize m).value = ElevatedSession.openHandoff m regionSize := by
  unfold openHandoff openRegions takeHandoff ElevatedSession.openHandoff
  simp only [ite_or]
  simp only [Access.value_bind, Access.ite_run, apply_ite Access.Outcome.value, Access.pure_apply]
  simp only [member_mem, fits_mem, text_mem, member_value, fits_value, text_value,
    decide_eq_false_iff_not]
  rfl

theorem beginCwd_value (s : ElevatedSession) : (beginCwd s m).value = s.beginCwd m := by
  unfold beginCwd ElevatedSession.beginCwd
  cases hhdr : s.hdr with
  | false => simp
  | true =>
    by_cases hchars : get m .cwdChars = 0
    · simp [hchars]
    · simp [hchars]

theorem beginCwd_mem (s : ElevatedSession) : (beginCwd s m).mem = m := by
  have hnil : Access.ReadsOnly (return [] : Access Reach WString) := Access.readsOnly_pure []
  have hreads : Access.ReadsOnly (beginCwd s) :=
    hnil.ite ((readsOnly_member _).bind fun _ => hnil.ite (readsOnly_text _ _))
  exact hreads m

theorem tellConsole_mem (s : ElevatedSession) : (tellConsole s m).mem = s.tellConsole m := by
  unfold tellConsole ElevatedSession.tellConsole
  cases s.hdr with
  | false => simp
  | true => simp

theorem forward_mem (s : ElevatedSession) (t : WString) :
    (forward s t m).mem = s.forward m t := by
  unfold forward ElevatedSession.forward
  by_cases hidle : ¬s.ownConsole ∨ ¬s.hdr ∨ t.length = 0
  · rw [if_pos hidle, if_pos hidle, Access.pure_apply]
  · rw [if_neg hidle, if_neg hidle]
    by_cases hused : long (get m .outChars) < 0
    · simp [hused]
    · by_cases hcap : get m .outCap ≤ get m .outChars
      · simp [hused, hcap]
      · simp [hused, hcap]

theorem forwards_mem (s : ElevatedSession) (texts : List WString) :
    (forwards s texts m).mem = texts.foldl s.forward m := by
  induction texts generalizing m with
  | nil => rfl
  | cons t texts ih => rw [forwards, Access.mem_bind, forward_mem, ih, List.foldl_cons]

end Mapped

/-! ### The bounds -/

/-- `offsetof(HandoffHeader, console_state)`: the members before it have been checked. -/
def validatedBytes : ℕ := 44

/-- The members that the elevated instance does not write. -/
def HandoffField.Validated (f : HandoffField) : Prop := f ≠ .consoleState ∧ f ≠ .outChars

instance (f : HandoffField) : Decidable f.Validated := inferInstanceAs (Decidable (_ ∧ _))

/-- The byte may be touched: a member is in the header, an offset leads into the mapping. -/
def Inside (total : ℕ) : Reach → ℕ → Prop
  | .member, a => a < handoffHeaderBytes
  | .offset, a => a < total

/-- All that is touched is inside, and the members that were checked stay as they are. -/
structure Safe (m : Memory) (regionSize : ℕ) (own : Bool) : Prop where
  inside : ∀ texts, Access.Only (Inside (get m .totalBytes).toNat)
    (Mapped.session regionSize own texts) m
  kept : ∀ texts f, f.Validated → get (Mapped.session regionSize own texts m).mem f = get m f

/-- The text that is forwarded first, if there is room for one, stands behind the members that
were checked. -/
def OutputBehind (m : Memory) : Prop :=
  long (get m .outChars) < 0 ∨ get m .outCap ≤ get m .outChars ∨
    validatedBytes ≤ (get m .outOff).toNat + 2 * (get m .outChars).toNat

instance (m : Memory) : Decidable (OutputBehind m) :=
  inferInstanceAs (Decidable (_ ∨ _ ∨ _))

theorem HandoffField.Validated.offset_add_le {f : HandoffField} (h : f.Validated) :
    f.offset + 4 ≤ validatedBytes := by
  cases f with
  | consoleState => exact absurd rfl h.1
  | outChars => exact absurd rfl h.2
  | _ => decide

/-- The members that were checked fill their part of the header. -/
theorem exists_validated {d : ℕ} (h : d < validatedBytes) :
    ∃ f : HandoffField, f.Validated ∧ f.offset ≤ d ∧ d < f.offset + 4 := by
  have hall : ∀ k ∈ List.range 11, ∃ f ∈ [HandoffField.magic, .version, .totalBytes, .cwdOff,
      .cwdChars, .sidOff, .sidChars, .envOff, .envChars, .outOff, .outCap],
      f.Validated ∧ f.offset = 4 * k := by decide
  have h44 : validatedBytes = 44 := rfl
  obtain ⟨f, -, hf, hoff⟩ := hall (d / 4) (List.mem_range.mpr (by omega))
  exact ⟨f, hf, by omega, by omega⟩

/-- What is written behind a member leaves it. -/
theorem get_write_of_le {m : Memory} {a : ℕ} {bytes : List UInt8} {f : HandoffField}
    (h : f.offset + 4 ≤ a) : get (m.write a bytes) f = get m f := by
  have hread : (m.write a bytes).read f.offset 4 = m.read f.offset 4 :=
    read_write_of_disjoint (.inl h)
  rw [get, get, hread]

/-- The bytes of equal members. -/
theorem byte_of_get_eq {m m' : Memory} {f : HandoffField} (h : get m f = get m' f) {d : ℕ}
    (hle : f.offset ≤ d) (hlt : d < f.offset + 4) : m d = m' d := by
  have hnum : ofLe (m.read f.offset 4) = ofLe (m'.read f.offset 4) := by
    have hm := ofLe_lt (m.read f.offset 4)
    have hm' := ofLe_lt (m'.read f.offset 4)
    rw [length_read] at hm hm'
    have hnat := congrArg UInt32.toNat h
    rwa [get, get, UInt32.toNat_ofNat_of_lt' hm, UInt32.toNat_ofNat_of_lt' hm'] at hnat
  have hread : m.read f.offset 4 = m'.read f.offset 4 :=
    ofLe_inj (by rw [length_read, length_read]) hnum
  exact List.map_inj_left.mp hread d (List.mem_range'_1.mpr ⟨hle, hlt⟩)

section Only

variable {total : ℕ} (m : Memory)

theorem only_member (f : HandoffField) : Access.Only (Inside total) (Mapped.member f) m := by
  unfold Mapped.member
  rw [Access.only_bind, Access.only_readLe]
  exact ⟨fun i _ hi => Nat.lt_of_lt_of_le hi (offset_add_le f), Access.only_pure _ _⟩

theorem only_setMember (f : HandoffField) (v : UInt32) :
    Access.Only (Inside total) (Mapped.setMember f v) m := by
  unfold Mapped.setMember
  rw [Access.only_write, length_le]
  exact fun i _ hi => Nat.lt_of_lt_of_le hi (offset_add_le f)

theorem only_fits (off chars : HandoffField) :
    Access.Only (Inside total) (Mapped.fits off chars) m := by
  unfold Mapped.fits
  simp only [Access.only_bind, only_member, Access.only_pure, and_self]

variable {m} in
/-- A string that fits is read inside. -/
theorem only_text {off chars : HandoffField} (h : fits m (get m off) (get m chars))
    (htotal : (get m .totalBytes).toNat = total) :
    Access.Only (Inside total) (Mapped.text off chars) m := by
  unfold Mapped.text
  simp only [Access.only_bind, only_member, Access.only_pure, and_true, true_and, Access.only_read]
  intro i _ hi
  simp only [Mapped.member_value, Mapped.member_mem] at hi
  unfold fits at h
  show i < total
  omega

end Only

/-! ### What is checked -/

/-- What `OpenHandoff` has checked of the regions. -/
structure Fits (m : Memory) : Prop where
  cwd : fits m (get m .cwdOff) (get m .cwdChars)
  sid : fits m (get m .sidOff) (get m .sidChars)
  env : fits m (get m .envOff) (get m .envChars)
  out : fits m (get m .outOff) (get m .outCap)

theorem fits_of_openHandoff {m : Memory} {regionSize : ℕ}
    (h : (ElevatedSession.openHandoff m regionSize).hdr = true) : Fits m := by
  unfold ElevatedSession.openHandoff at h
  split at h
  · cases h
  · next hchecked =>
    simp only [not_or, not_not] at hchecked
    obtain ⟨-, -, -, -, hcwd, hsid, henv, hout⟩ := hchecked
    exact ⟨hcwd, hsid, henv, hout⟩

namespace Fits

variable {m : Memory}

theorem only_openHandoff (h : Fits m) (regionSize : ℕ) :
    Access.Only (Inside (get m .totalBytes).toNat) (Mapped.openHandoff regionSize) m := by
  have htake : Access.Only (Inside (get m .totalBytes).toNat) Mapped.takeHandoff m := by
    unfold Mapped.takeHandoff
    simp only [Access.only_bind, Access.only_pure, and_true, Mapped.text_mem]
    exact ⟨only_text h.sid rfl, only_text h.env rfl⟩
  unfold Mapped.openHandoff Mapped.openRegions
  simp only [Access.only_bind, Access.only_ite, Access.only_pure, only_member, only_fits,
    Mapped.member_mem, Mapped.fits_mem, htake, implies_true, and_self]

theorem only_beginCwd (h : Fits m) (s : ElevatedSession) :
    Access.Only (Inside (get m .totalBytes).toNat) (Mapped.beginCwd s) m := by
  unfold Mapped.beginCwd
  simp only [Access.only_bind, Access.only_ite, Access.only_pure, only_member, Mapped.member_mem,
    only_text h.cwd rfl, implies_true, and_self]

end Fits

theorem only_tellConsole {total : ℕ} (m : Memory) (s : ElevatedSession) :
    Access.Only (Inside total) (Mapped.tellConsole s) m := by
  unfold Mapped.tellConsole
  rw [Access.only_ite]
  exact ⟨fun _ => Access.only_pure _ _, fun _ => only_setMember _ _ _⟩

/-! ### `Forward` -/

/-- What every `Forward` keeps: the members that were checked, as they were in `m₀`, and that the
text goes on behind them. -/
structure Kept (m₀ m : Memory) : Prop where
  fields : ∀ f : HandoffField, f.Validated → get m f = get m₀ f
  behind : OutputBehind m

theorem get_tellConsole (s : ElevatedSession) (m : Memory) {f : HandoffField}
    (hf : f ≠ .consoleState) : get (s.tellConsole m) f = get m f := by
  unfold ElevatedSession.tellConsole
  split
  · exact get_set_of_ne hf.symm _ _
  · rfl

theorem outputBehind_tellConsole (s : ElevatedSession) (m : Memory) :
    OutputBehind (s.tellConsole m) ↔ OutputBehind m := by
  unfold OutputBehind
  rw [get_tellConsole s m (f := .outChars) (by decide), get_tellConsole s m (f := .outCap)
    (by decide), get_tellConsole s m (f := .outOff) (by decide)]

theorem kept_tellConsole {m : Memory} (h : OutputBehind m) (s : ElevatedSession) :
    Kept m (s.tellConsole m) :=
  ⟨fun _ hf => get_tellConsole s m hf.1, (outputBehind_tellConsole s m).mpr h⟩

/-- One text: it goes into its region, behind the checked members. -/
theorem kept_forward {m₀ m : Memory} (hfits : Fits m₀) (h : Kept m₀ m) (s : ElevatedSession)
    (t : WString) : Kept m₀ (s.forward m t) ∧
      Access.Only (Inside (get m₀ .totalBytes).toNat) (Mapped.forward s t) m := by
  unfold ElevatedSession.forward Mapped.forward
  by_cases hidle : ¬s.ownConsole ∨ ¬s.hdr ∨ t.length = 0
  · rw [if_pos hidle, if_pos hidle]
    exact ⟨h, Access.only_pure _ _⟩
  rw [if_neg hidle, if_neg hidle]
  dsimp only
  by_cases hfull : long (get m .outChars) < 0 ∨ get m .outCap ≤ get m .outChars
  · rw [if_pos hfull]
    refine ⟨h, ?_⟩
    simp only [Access.only_bind, Access.only_ite, Access.only_pure, only_member, Mapped.member_mem]
    simp only [Mapped.member_value, true_and, implies_true]
    intro hused hcap
    exact absurd hfull (not_or.mpr ⟨hused, hcap⟩)
  · rw [if_neg hfull]
    obtain ⟨hused, hcap⟩ := not_or.mp hfull
    -- neither is the count negative nor the region full, so the text goes behind the fields
    have hbehind : validatedBytes ≤ (get m .outOff).toNat + 2 * (get m .outChars).toNat := by
      rcases h.behind with hneg | hle | hle
      · exact absurd hneg hused
      · exact absurd hle hcap
      · exact hle
    have hroom : (get m .outCap - get m .outChars).toNat
        = (get m .outCap).toNat - (get m .outChars).toNat :=
      UInt32.toNat_sub_of_le _ _ (UInt32.le_of_lt (UInt32.not_le.mp hcap))
    have hlt : (get m .outChars).toNat < (get m .outCap).toNat := Nat.not_le.mp hcap
    generalize hn : min t.length (get m .outCap - get m .outChars).toNat = n
    have hlen : (t.take n).length = n := by
      rw [List.length_take]
      omega
    -- the count cannot wrap: it stays within the capacity
    have hnew : (get m .outChars + UInt32.ofNat n).toNat = (get m .outChars).toNat + n := by
      have hcap32 := (get m .outCap).toNat_lt
      have hnat : (UInt32.ofNat n).toNat = n := by
        refine UInt32.toNat_ofNat_of_lt' ?_
        show n < 4294967296
        omega
      rw [UInt32.toNat_add, hnat]
      exact Nat.mod_eq_of_lt (by omega)
    -- the validated fields lie before the region, and the count is not one of them
    have hget : ∀ f : HandoffField, f.Validated →
        get (set .outChars (get m .outChars + UInt32.ofNat n)
          (m.write ((get m .outOff).toNat + 2 * (get m .outChars).toNat) (wide (t.take n)))) f
            = get m f := by
      intro f hf
      rw [get_set_of_ne hf.2.symm, get_write_of_le (Nat.le_trans hf.offset_add_le hbehind)]
    refine ⟨⟨fun f hf => (hget f hf).trans (h.fields f hf), .inr (.inr ?_)⟩, ?_⟩
    · rw [hget .outOff (by decide), get_set_self, hnew]
      omega
    · simp only [Access.only_bind, Access.only_ite, Access.only_pure, only_member,
        only_setMember, Mapped.member_mem, Access.only_write]
      simp only [Mapped.member_value, true_and, and_true, implies_true, length_wide, hlen, hn]
      intro _ _ i _ hi
      -- the region was checked when the handoff was opened
      have hout := hfits.out
      unfold fits at hout
      rw [← h.fields .outOff (by decide), ← h.fields .outCap (by decide)] at hout
      show i < (get m₀ .totalBytes).toNat
      omega

theorem kept_forwards {m₀ m : Memory} (hfits : Fits m₀) (h : Kept m₀ m) (s : ElevatedSession)
    (texts : List WString) : Kept m₀ (texts.foldl s.forward m) ∧
      Access.Only (Inside (get m₀ .totalBytes).toNat) (Mapped.forwards s texts) m := by
  induction texts generalizing m with
  | nil => exact ⟨h, Access.only_pure _ _⟩
  | cons t texts ih =>
    obtain ⟨hstep, honly⟩ := kept_forward hfits h s t
    obtain ⟨hrun, hrest⟩ := ih hstep
    refine ⟨hrun, ?_⟩
    rw [Mapped.forwards, Access.only_bind, Mapped.forward_mem]
    exact ⟨honly, hrest⟩

/-- Without a console of its own the instance forwards nothing. -/
theorem forwards_of_not_own {s : ElevatedSession} (hs : s.ownConsole = false) {total : ℕ}
    (m : Memory) (texts : List WString) : texts.foldl s.forward m = m ∧
      Access.Only (Inside total) (Mapped.forwards s texts) m := by
  induction texts with
  | nil => exact ⟨rfl, Access.only_pure _ _⟩
  | cons t texts ih =>
    have hidle : ¬(s.ownConsole = true) ∨ ¬(s.hdr = true) ∨ t.length = 0 := by simp [hs]
    have hmem : s.forward m t = m := by
      unfold ElevatedSession.forward
      rw [if_pos hidle]
    constructor
    · rw [List.foldl_cons, hmem, ih.1]
    · rw [Mapped.forwards, Access.only_bind, Mapped.forward_mem, hmem]
      refine ⟨?_, ih.2⟩
      unfold Mapped.forward
      rw [if_pos hidle]
      exact Access.only_pure _ _

/-! ### The session -/

theorem session_mem (m : Memory) (regionSize : ℕ) (own : Bool) (texts : List WString) :
    (Mapped.session regionSize own texts m).mem
      = texts.foldl ((ElevatedSession.openHandoff m regionSize).switchConsole own).forward
          (((ElevatedSession.openHandoff m regionSize).switchConsole own).tellConsole m) := by
  unfold Mapped.session
  simp only [Access.mem_bind, Mapped.forwards_mem, Mapped.tellConsole_mem, Mapped.beginCwd_mem,
    Mapped.openHandoff_value, Mapped.readsOnly_openHandoff regionSize m]

/-- What `Begin` touches before it forwards is inside. -/
theorem only_session {m : Memory} (h : Fits m) (regionSize : ℕ) (own : Bool)
    (texts : List WString) :
    Access.Only (Inside (get m .totalBytes).toNat) (Mapped.session regionSize own texts) m ↔
      Access.Only (Inside (get m .totalBytes).toNat)
        (Mapped.forwards ((ElevatedSession.openHandoff m regionSize).switchConsole own) texts)
        (((ElevatedSession.openHandoff m regionSize).switchConsole own).tellConsole m) := by
  unfold Mapped.session
  simp only [Access.only_bind, Mapped.tellConsole_mem, Mapped.beginCwd_mem,
    Mapped.openHandoff_value, Mapped.readsOnly_openHandoff regionSize m, h.only_openHandoff,
    h.only_beginCwd, only_tellConsole, true_and]

/-- A code unit whose first byte is not `b`. -/
def otherThan (b : UInt8) : UInt16 := UInt16.ofNat (b.toNat + 1)

theorem wide_otherThan (b : UInt8) :
    wide [otherThan b] = [UInt8.ofNat (b.toNat + 1), UInt8.ofNat ((b.toNat + 1) / 256)] := by
  have hb : b.toNat < 256 := b.toNat_lt
  have hnat : (otherThan b).toNat = b.toNat + 1 := by
    refine UInt16.toNat_ofNat_of_lt' ?_
    show b.toNat + 1 < 65536
    omega
  show le 2 (otherThan b).toNat ++ [] = _
  rw [hnat]
  rfl

theorem ofNat_succ_ne (b : UInt8) : UInt8.ofNat (b.toNat + 1) ≠ b := by
  intro h
  have hb : b.toNat < 256 := b.toNat_lt
  have hnat := congrArg UInt8.toNat h
  rw [UInt8.toNat_ofNat'] at hnat
  omega

/-- **A text that begins in the header changes a member that was checked.** -/
theorem changed_of_not_outputBehind {s : ElevatedSession} (hown : s.ownConsole = true)
    (hhdr : s.hdr = true) {m : Memory} (h : ¬OutputBehind m) :
    ∃ t : WString, ∃ f : HandoffField, f.Validated ∧ get (s.forward m t) f ≠ get m f := by
  unfold OutputBehind at h
  obtain ⟨hused, hcap, hlow⟩ : _ ∧ _ ∧ _ := by simpa only [not_or] using h
  have hlow := Nat.not_le.mp hlow
  generalize hd : (get m .outOff).toNat + 2 * (get m .outChars).toNat = d at hlow
  obtain ⟨f, hf, hle, hlt⟩ := exists_validated hlow
  refine ⟨[otherThan (m d)], f, hf, fun heq => ofNat_succ_ne (m d) ?_⟩
  have hroom : 0 < (get m .outCap - get m .outChars).toNat := by
    rw [UInt32.toNat_sub_of_le _ _ (UInt32.le_of_lt (UInt32.not_le.mp hcap))]
    exact Nat.sub_pos_of_lt (Nat.not_le.mp hcap)
  have hmin : min [otherThan (m d)].length (get m .outCap - get m .outChars).toNat = 1 :=
    Nat.min_eq_left hroom
  have hforward : s.forward m [otherThan (m d)]
      = set .outChars (get m .outChars + UInt32.ofNat 1) (m.write d (wide [otherThan (m d)])) := by
    unfold ElevatedSession.forward
    rw [if_neg (by simp [hown, hhdr])]
    dsimp only
    rw [if_neg (not_or.mpr ⟨hused, hcap⟩), hmin, hd]
    rfl
  have hbyte := byte_of_get_eq heq hle hlt
  rw [hforward, set, write_of_lt (by show d < 48; exact Nat.lt_trans hlow (by decide)),
    wide_otherThan, Memory.write, if_neg (Nat.lt_irrefl d), Nat.sub_self] at hbyte
  exact hbyte

/-- **The accesses are safe exactly if the text does not begin in the header that was checked**,
for every mapping that `OpenHandoff` takes and all texts; without a console of its own the instance
forwards nothing. -/
theorem safe_iff {m : Memory} {regionSize : ℕ}
    (hopen : (ElevatedSession.openHandoff m regionSize).hdr = true) (own : Bool) :
    Safe m regionSize own ↔ (own = true → OutputBehind m) := by
  have hfits := fits_of_openHandoff hopen
  constructor
  · rintro h rfl
    by_contra hnot
    let s := (ElevatedSession.openHandoff m regionSize).switchConsole true
    have hnot' : ¬OutputBehind (s.tellConsole m) := fun hb =>
      hnot ((outputBehind_tellConsole s m).mp hb)
    obtain ⟨t, f, hf, hne⟩ := changed_of_not_outputBehind (s := s) rfl hopen hnot'
    refine hne ?_
    have hkept := h.kept [t] f hf
    rw [session_mem] at hkept
    exact hkept.trans (get_tellConsole s m hf.1).symm
  · intro h
    -- `Begin` itself is inside, so that only the forwarded texts matter
    suffices hrun : ∀ texts,
        (∀ f : HandoffField, f.Validated →
          get (Mapped.session regionSize own texts m).mem f = get m f) ∧
        Access.Only (Inside (get m .totalBytes).toNat)
          (Mapped.forwards ((ElevatedSession.openHandoff m regionSize).switchConsole own) texts)
          (((ElevatedSession.openHandoff m regionSize).switchConsole own).tellConsole m) by
      exact ⟨fun texts => (only_session hfits regionSize own texts).mpr (hrun texts).2,
        fun texts => (hrun texts).1⟩
    intro texts
    rw [session_mem]
    cases own with
    | false =>
      have hidle : ((ElevatedSession.openHandoff m regionSize).switchConsole false).ownConsole
          = false := rfl
      obtain ⟨hsame, honly⟩ := forwards_of_not_own hidle
        (((ElevatedSession.openHandoff m regionSize).switchConsole false).tellConsole m) texts
      rw [hsame]
      exact ⟨fun f hf => get_tellConsole _ m hf.1, honly⟩
    | true =>
      obtain ⟨hkept, honly⟩ := kept_forwards hfits (kept_tellConsole (h rfl) _)
        ((ElevatedSession.openHandoff m regionSize).switchConsole true) texts
      exact ⟨hkept.fields, honly⟩

/-- A mapping of 64 bytes, whose only region is that of the output, at `outOff`. -/
def outputAt (outOff : UInt32) : Memory :=
  (fun _ => 0) |> set .magic kHandoffMagic |> set .version kHandoffVersion
    |> set .totalBytes 64 |> set .outOff outOff |> set .outCap 4

theorem safe_iff_outputAt : Safe (outputAt 52) 4096 true :=
  (safe_iff (by decide) true).mpr fun _ => by decide

/-- A text at 36 is written over `out_off` and `out_cap`. -/
theorem not_safe_outputAt : ¬∀ (m : Memory) (regionSize : ℕ) (own : Bool),
    (ElevatedSession.openHandoff m regionSize).hdr = true → Safe m regionSize own := by
  intro h
  have hsafe := h (outputAt 36) 4096 true (by decide)
  have hkept := hsafe.kept [[0xFFFF, 0xFFFF]] .outOff (by decide)
  rw [session_mem] at hkept
  exact absurd hkept (by decide)

end Handoff

end Dx12Track
