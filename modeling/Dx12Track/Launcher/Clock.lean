import Dx12Track.Launcher.PostExit

/-!
# The clocks of the launcher

The hello record gives the frequency of the performance counter and its value
when the timeline of the trace began.  From then on the launcher has two ways to
put a value of the counter on that timeline: its own readings are subtracted and
then converted, the stamps of ETW come converted and are then subtracted.

* `Word.ticksToNs` — the conversion on machine words; `Word.ticksToNs_eq`,
  `ticksToNs_eq_min`.
* `Model.Timebase` — what the hello record leaves; `timebase_hello`,
  `timebase_after`.
* `Model.clocks_agree` — **the two ways agree to within one nanosecond**.
-/

namespace Dx12Track

open Etw (ObjType Group ResidencyOp CounterKind GroupChange Stats)

/-! ### The conversion on machine words -/

namespace Word

/-- `_umul128`: the high and the low word of a product. -/
def umul128 (a b : UInt64) : UInt64 × UInt64 :=
  (.ofNat (a.toNat * b.toNat / 2 ^ 64), .ofNat (a.toNat * b.toNat % 2 ^ 64))

/-- `_udiv128`: the quotient of two words by one.  The instruction traps when the quotient does
not fit a word, and on a division by zero. -/
def udiv128 (hi lo d : UInt64) : Option UInt64 :=
  if hi < d then some (.ofNat ((hi.toNat * 2 ^ 64 + lo.toNat) / d.toNat)) else none

def ticksToNs (ticks freq : UInt64) : Option UInt64 :=
  if freq = 0 then some 0
  else
    let (hi, lo) := umul128 ticks 1000000000
    if hi ≥ freq then some (.ofNat (2 ^ 64 - 1)) else udiv128 hi lo freq

/-- The high word of the product is what the natural numbers say: no product of two words has
more than two. -/
theorem umul128_hi (a b : UInt64) : (umul128 a b).1.toNat = a.toNat * b.toNat / 2 ^ 64 := by
  refine UInt64.toNat_ofNat_of_lt' ((Nat.div_lt_iff_lt_mul (by omega)).mpr ?_)
  exact Nat.mul_lt_mul'' a.toNat_lt b.toNat_lt

theorem umul128_lo (a b : UInt64) : (umul128 a b).2.toNat = a.toNat * b.toNat % 2 ^ 64 :=
  UInt64.toNat_ofNat_of_lt' (Nat.mod_lt _ (by decide))

/-- The conversion never traps, and is the one on natural numbers. -/
theorem ticksToNs_eq (ticks freq : UInt64) :
    ticksToNs ticks freq = some (.ofNat (Dx12Track.ticksToNs ticks.toNat freq.toNat)) := by
  have hhi : (umul128 ticks 1000000000).1.toNat = ticks.toNat * 1000000000 / 2 ^ 64 :=
    umul128_hi ticks 1000000000
  have hlo : (umul128 ticks 1000000000).2.toNat = ticks.toNat * 1000000000 % 2 ^ 64 :=
    umul128_lo ticks 1000000000
  unfold ticksToNs Dx12Track.ticksToNs udiv128
  dsimp only
  rw [hhi, hlo]
  by_cases hfreq : freq = 0
  · rw [if_pos hfreq, if_pos (by rw [hfreq]; rfl)]
    rfl
  · have hfreq' : freq.toNat ≠ 0 := fun h => hfreq (UInt64.toNat_inj.mp h)
    rw [if_neg hfreq, if_neg hfreq']
    by_cases hfits : (umul128 ticks 1000000000).1 < freq
    · have hfits' := UInt64.lt_iff_toNat_lt.mp hfits
      rw [hhi] at hfits'
      rw [if_neg (UInt64.not_le.mpr hfits), if_pos hfits, if_neg (Nat.not_le_of_gt hfits')]
    · have hover := UInt64.le_iff_toNat_le.mp (UInt64.not_lt.mp hfits)
      rw [hhi] at hover
      rw [if_pos (UInt64.not_lt.mp hfits), if_pos hover]

end Word

theorem ticksToNs_eq_longDiv {freq : ℕ} (hfreq : 0 < freq) (ticks : ℕ) :
    ticksToNs ticks freq = longDiv (2 ^ 64) (ticks * 1000000000 / 2 ^ 64)
      (ticks * 1000000000 % 2 ^ 64) freq := if_neg (by omega)

/-- The conversion rounds down, and saturates. -/
theorem ticksToNs_eq_min {freq : ℕ} (hfreq : 0 < freq) (ticks : ℕ) :
    ticksToNs ticks freq = min (scale 1000000000 freq ticks) (2 ^ 64 - 1) := by
  rw [ticksToNs_eq_longDiv hfreq, longDiv_eq_min (Nat.mod_lt _ (by decide)) hfreq,
    Nat.div_add_mod']
  rfl

theorem ticksToNs_of_lt {ticks freq : ℕ} (hfreq : 0 < freq)
    (h : scale 1000000000 freq ticks < 2 ^ 64) :
    ticksToNs ticks freq = scale 1000000000 freq ticks := by
  rw [ticksToNs_eq_min hfreq]
  omega

theorem ticksToNs_mono {s t freq : ℕ} (hst : s ≤ t) : ticksToNs s freq ≤ ticksToNs t freq := by
  rcases Nat.eq_zero_or_pos freq with rfl | hfreq
  · exact le_refl 0
  · rw [ticksToNs_eq_min hfreq, ticksToNs_eq_min hfreq]
    have := scale_mono 1000000000 freq hst
    omega

/-! ### What the hello record leaves -/

namespace Step

/-- The record that starts the clock. -/
def isHello : Step → Bool
  | .event _ (.hello _) => true
  | _ => false

end Step

namespace Model

/-- What the launcher's clock is read from. -/
def timebase (m : Model) : Bool × ℕ × ℕ × ℕ :=
  (m.helloSeen, m.qpcFreq, m.qpcStart, m.qpcStartNs)

/-- The timeline began at the value `start` of a counter that counts `freq` a second. -/
structure Timebase (m : Model) (start freq : ℕ) : Prop where
  hello : m.helloSeen = true
  freq_eq : m.qpcFreq = freq
  start_eq : m.qpcStart = start
  startNs_eq : m.qpcStartNs = ticksToNs start freq

theorem timebase_iff {m : Model} {start freq : ℕ} :
    m.Timebase start freq ↔ m.timebase = (true, freq, start, ticksToNs start freq) := by
  unfold timebase
  simp only [Prod.mk.injEq]
  exact ⟨fun h => ⟨h.1, h.2, h.3, h.4⟩, fun ⟨h1, h2, h3, h4⟩ => ⟨h1, h2, h3, h4⟩⟩

/-- The reading depends on nothing else. -/
theorem nowTsLocked_of_timebase {m m' : Model} (h : m.timebase = m'.timebase) (env : Env) :
    m.nowTsLocked env = m'.nowTsLocked env := by
  simp only [timebase, Prod.mk.injEq] at h
  unfold nowTsLocked
  rw [h.1, h.2.1, h.2.2.1]

theorem timebase_hello (m : Model) (tsNs : ℕ) (p : HelloPayload) :
    (m.onEvent tsNs (.hello p)).Timebase p.qpcStart p.qpcFrequency := by
  rw [timebase_iff]
  show ((m.setLatestNs tsNs).onHello tsNs p).timebase = _
  unfold onHello
  dsimp only
  split <;> rfl

theorem timebase_of_sansJoin {m m' : Model} (h : m.sansJoin = m'.sansJoin) :
    m.timebase = m'.timebase := congrArg (fun v : View => v.rest.timebase) h

theorem timebase_pollChildLocked (m : Model) (env : Env) :
    (m.pollChildLocked env).timebase = m.timebase := by
  have hmark : ∀ now code, (m.markExiting now code).timebase = m.timebase := fun now code =>
    (timebase_of_sansJoin (sansJoin_sideLine _ _)).trans rfl
  unfold pollChildLocked
  dsimp only
  split
  · rfl
  · split
    · split
      · rfl
      · split
        · rfl
        · exact hmark _ _
    · exact hmark _ _

theorem timebase_afterChildExitLocked (m : Model) (env : Env) (ts : ℕ) :
    (m.afterChildExitLocked env ts).2.timebase = m.timebase := by
  unfold afterChildExitLocked
  dsimp only
  split
  · exact timebase_pollChildLocked m env
  · rfl

theorem timebase_onEtwGroupChanges (m : Model) (changes : List (GroupChange × Env)) :
    (m.onEtwGroupChanges changes).timebase = m.timebase := by
  have hone : ∀ (r : Model) (c : GroupChange × Env),
      (r.onEtwGroupChange c.1 c.2).timebase = r.timebase := by
    intro r c
    unfold onEtwGroupChange
    dsimp only
    split
    · exact timebase_afterChildExitLocked r c.2 _
    · rw [timebase_of_sansJoin (sansJoin_regroup _ c.1 _), timebase_afterChildExitLocked]
  have hfold : ∀ r : Model, (changes.foldl (fun m c => m.onEtwGroupChange c.1 c.2) r).timebase
      = r.timebase := by
    induction changes with
    | nil => exact fun _ => rfl
    | cons c cs ih =>
      intro r
      rw [List.foldl_cons, ih, hone]
  unfold onEtwGroupChanges
  split
  · rfl
  · exact hfold m

theorem timebase_onEvent (m : Model) (tsNs : ℕ) {r : Record} (hr : ∀ p, r ≠ .hello p) :
    (m.onEvent tsNs r).timebase = m.timebase := by
  cases r with
  | hello p => exact absurd rfl (hr p)
  | created p =>
    have hjoin : ∀ r : Model, (if r.etwEnabled then r.etwOnCreated p.id tsNs else r).timebase
        = r.timebase := by
      intro r
      split
      · exact timebase_of_sansJoin (sansJoin_etwOnCreated r p.id tsNs)
      · rfl
    exact hjoin (((m.setLatestNs tsNs).setLive _).setSnapshot _)
  | destroyed p =>
    have hjoin : ∀ r : Model, (if r.etwEnabled then r.etwOnDestroyed p.id tsNs else r).timebase
        = r.timebase := by
      intro r
      split
      · exact timebase_of_sansJoin (sansJoin_etwOnDestroyed r p.id tsNs)
      · rfl
    show ((m.setLatestNs tsNs).onDestroyed tsNs p).timebase = _
    unfold onDestroyed
    split
    · rfl
    · exact hjoin (m.setLatestNs tsNs)
  | renamed p => rfl
  | goodbye p => rfl
  | other => rfl

/-- Only the hello record sets the clock. -/
theorem timebase_step (m : Model) {x : Step} (hx : x.isHello = false) :
    (m.step x).timebase = m.timebase := by
  cases x with
  | event tsNs r =>
    refine timebase_onEvent m tsNs ?_
    rintro p rfl
    cases hx
  | objectCreated ts libId type size group =>
    exact timebase_of_sansJoin (sansJoin_onEtwObjectCreated m ts libId type size group)
  | objectAddress env libId address =>
    exact timebase_of_sansJoin (sansJoin_onEtwObjectAddress m env libId address)
  | objectDestroyed ts libId =>
    exact timebase_of_sansJoin (sansJoin_onEtwObjectDestroyed m ts libId)
  | objectSize ts libId size =>
    exact timebase_of_sansJoin (sansJoin_onEtwObjectSize m ts libId size)
  | groupChanges changes => exact timebase_onEtwGroupChanges m changes
  | residency env ts libId type op =>
    show (m.onEtwResidency env ts libId type op).timebase = _
    unfold onEtwResidency
    dsimp only
    split_ifs
    · rfl
    · exact timebase_afterChildExitLocked m env _
    · rw [timebase_of_sansJoin (sansJoin_countResidency _ _ libId type op),
        timebase_afterChildExitLocked]
  | counter env ts counterId kind bytes =>
    show (m.onEtwCounter env ts counterId kind bytes).timebase = _
    unfold onEtwCounter
    dsimp only
    split_ifs
    · rfl
    · rfl
    · exact timebase_afterChildExitLocked m env _
    · exact timebase_afterChildExitLocked m env _
  | diagnostic env error code msg =>
    exact timebase_of_sansJoin (sansJoin_onEtwDiagnostic m env error code msg)
  | tick env st => exact timebase_of_sansJoin (sansJoin_etwTick m env st)
  | pollChild env => exact timebase_pollChildLocked m env
  | setChildProcess => rfl
  | setChildExitQpc exitQpc =>
    show (m.setChildExitQpc exitQpc).timebase = _
    unfold setChildExitQpc
    split <;> rfl
  | markChildExited exitCode => rfl
  | setEtwRunning running => rfl
  | finish env st =>
    show (m.finishEtw env st).timebase = _
    unfold finishEtw
    dsimp only
    split
    · rfl
    · split
      · have hclose : ∀ r : Model, r.closeSide.timebase = r.timebase := fun _ => rfl
        rw [hclose, timebase_of_sansJoin (sansJoin_sideLine _ _)]
        rfl
      · rfl

theorem timebase_after (m : Model) {xs : List Step} (hxs : ∀ x ∈ xs, x.isHello = false) :
    (m.after xs).timebase = m.timebase := by
  induction xs generalizing m with
  | nil => rfl
  | cons x xs ih =>
    show ((m.step x).after xs).timebase = _
    rw [ih (m.step x) fun y hy => hxs y (List.mem_cons_of_mem x hy),
      timebase_step m (hxs x List.mem_cons_self)]

/-- The launcher's clock keeps what the last hello record said. -/
theorem timebase_after_hello (m : Model) (tsNs : ℕ) (p : HelloPayload) {xs : List Step}
    (hxs : ∀ x ∈ xs, x.isHello = false) :
    ((m.onEvent tsNs (.hello p)).after xs).Timebase p.qpcStart p.qpcFrequency := by
  rw [timebase_iff, timebase_after _ hxs, ← timebase_iff]
  exact timebase_hello m tsNs p

/-! ### The two ways onto the timeline -/

section TwoWays

variable {m : Model} {start freq : ℕ}

/-- A stamp of ETW is an absolute number of nanoseconds, less that of the start. -/
theorem Timebase.convTs_eq (h : m.Timebase start freq) (a : ℕ) :
    m.convTs (a : ℤ) = a - ticksToNs start freq := by
  unfold convTs
  rw [h.hello, h.startNs_eq, Int.toNat_natCast]
  by_cases ha : a = 0
  · rw [if_pos (by simp [ha])]
    omega
  · rw [if_neg (by simp [ha])]
    split <;> omega

/-- A reading of the counter is a number of ticks since the start. -/
theorem Timebase.nowTsLocked_eq (h : m.Timebase start freq) (env : Env) :
    m.nowTsLocked env = ticksToNs (env.qpc - start) freq := by
  unfold nowTsLocked
  rw [h.hello, h.freq_eq, h.start_eq]
  by_cases hfreq : freq = 0
  · rw [if_pos (by simp [hfreq])]
    exact (if_pos hfreq).symm
  · rw [if_neg (by simp [hfreq])]
    split
    · rfl
    · next hq =>
      rw [Nat.sub_eq_zero_of_le (Nat.le_of_not_gt hq), ticksToNs_of_lt (by omega) (by simp [scale])]
      simp [scale]

/-- So is the time at which the child exited. -/
theorem Timebase.childExitTs_eq (h : m.Timebase start freq) (hfreq : 0 < freq) (q : ℕ) :
    (m.setChildExitQpc q).childExitTs = ticksToNs (q - start) freq := by
  have hopen : (!m.helloSeen || decide (m.qpcFreq = 0)) = false := by
    rw [h.hello, h.freq_eq]
    simp only [Bool.not_true, Bool.false_or, decide_eq_false_iff_not]
    omega
  have hnow : (m.setChildExitQpc q).childExitTs = m.nowTsLocked { qpc := q } := by
    unfold setChildExitQpc nowTsLocked
    rw [hopen, if_neg Bool.false_ne_true, if_neg Bool.false_ne_true]
  rw [hnow, h.nowTsLocked_eq]

/-- The stamp is the reading, or one nanosecond more. -/
theorem Timebase.convTs_near (h : m.Timebase start freq) (hfreq : 0 < freq) {q : ℕ}
    (hq : start ≤ q) (hfits : scale 1000000000 freq q < 2 ^ 63) :
    m.convTs (scale 1000000000 freq q : ℕ) = ticksToNs (q - start) freq ∨
      m.convTs (scale 1000000000 freq q : ℕ) = ticksToNs (q - start) freq + 1 := by
  -- neither conversion saturates: both counts are at most `q`
  have hstart := scale_mono 1000000000 freq hq
  have hdiff := scale_mono 1000000000 freq (Nat.sub_le q start)
  rw [h.convTs_eq, ticksToNs_of_lt hfreq (by omega), ticksToNs_of_lt hfreq (by omega)]
  exact scale_sub hfreq hq

theorem Timebase.convTs_mono (h : m.Timebase start freq) {q q' : ℕ} (hqq' : q ≤ q') :
    m.convTs (scale 1000000000 freq q : ℕ) ≤ m.convTs (scale 1000000000 freq q' : ℕ) := by
  rw [h.convTs_eq, h.convTs_eq]
  exact Nat.sub_le_sub_right (scale_mono 1000000000 freq hqq') _

end TwoWays

/-- **The clocks of the launcher.**  The conversion of ticks never traps, rounds down and
saturates; and a value of the counter that was read after the timeline began, and is short of the
greatest stamp, is put at the same place of the timeline, or one nanosecond later, as a stamp of
ETW as when the launcher reads it; both are monotone. -/
theorem clocks_agree (m : Model) (tsNs : ℕ) (p : HelloPayload) (hfreq : 0 < p.qpcFrequency)
    (xs : List Step) (hxs : ∀ x ∈ xs, x.isHello = false) :
    (∀ ticks freq : UInt64, 0 < freq → ∃ ns, Word.ticksToNs ticks freq = some ns ∧
      ns.toNat = min (ticks.toNat * 1000000000 / freq.toNat) (2 ^ 64 - 1)) ∧
    let m' := (m.onEvent tsNs (.hello p)).after xs
    let stamp := fun q => q * 1000000000 / p.qpcFrequency
    let since := fun q => ticksToNs (q - p.qpcStart) p.qpcFrequency
    (∀ q, p.qpcStart ≤ q → stamp q < 2 ^ 63 →
      (m'.convTs (stamp q : ℕ) = since q ∨ m'.convTs (stamp q : ℕ) = since q + 1) ∧
      (∀ env : Env, env.qpc = q → m'.nowTsLocked env = since q) ∧
      (m'.setChildExitQpc q).childExitTs = since q) ∧
    (∀ q q', p.qpcStart ≤ q → q ≤ q' → stamp q' < 2 ^ 63 →
      m'.convTs (stamp q : ℕ) ≤ m'.convTs (stamp q' : ℕ) ∧ since q ≤ since q') := by
  have hbase := timebase_after_hello m tsNs p hxs
  refine ⟨fun ticks freq hpos => ?_, fun q hq hfits => ⟨?_, ?_, ?_⟩, fun q q' hq hqq' _ => ⟨?_, ?_⟩⟩
  · have hpos : 0 < freq.toNat := UInt64.lt_iff_toNat_lt.mp hpos
    refine ⟨_, Word.ticksToNs_eq ticks freq, ?_⟩
    rw [UInt64.toNat_ofNat_of_lt' (ticksToNs_lt _ _), ticksToNs_eq_min hpos]
    rfl
  · exact hbase.convTs_near hfreq hq hfits
  · rintro env rfl
    exact hbase.nowTsLocked_eq env
  · exact hbase.childExitTs_eq hfreq q
  · exact hbase.convTs_mono hqq'
  · exact ticksToNs_mono (Nat.sub_le_sub_right hqq' _)

/-- A counter of 3 ticks a second, which stood at 1 when the timeline began. -/
def thirdsHello : HelloPayload where
  protocolVersion := 1
  pid := 1
  qpcFrequency := 3
  qpcStart := 1
  exePath := NameBuf.copy []

/-- For the value 3 of that counter the stamp is the later one. -/
theorem clocks_agree_thirds :
    let m := (({} : Model).onEvent 0 (.hello thirdsHello)).after [.setChildProcess]
    (m.convTs (3 * 1000000000 / 3 : ℕ) = ticksToNs (3 - 1) 3 ∨
      m.convTs (3 * 1000000000 / 3 : ℕ) = ticksToNs (3 - 1) 3 + 1) ∧
    m.convTs (3 * 1000000000 / 3 : ℕ) = 666666667 ∧ ticksToNs (3 - 1) 3 = 666666666 := by
  have h := clocks_agree {} 0 thirdsHello (by decide) [.setChildProcess] (by decide)
  exact ⟨(h.2.1 3 (by decide) (by decide)).1, by decide, by decide⟩

end Model

end Dx12Track
