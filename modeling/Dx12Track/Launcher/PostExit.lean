import Dx12Track.Lib.Scale
import Dx12Track.Launcher.Steps

/-!
# The post-exit filter

Before a process is gone the kernel moves its memory away, and ETW reports that as
if the process had moved it.  The launcher asks from time to time whether the
child is still running, and takes what is stamped later than the last "running"
for teardown.

* `Child`, `Child.ExitsAt` — the child process on the `ts_ns` timeline.
* `Env.Reads` — what a call that samples the child is told.
* `Model.seenRunning` — the clock readings at which it was seen running.
* `Model.Watchful` — **the invariant**: what the filter remembers of them.
* `Model.post_exit_filter` — **nothing of the teardown is believed, and nothing
  from before the last such reading is ignored**.
-/

namespace Dx12Track

open Etw (ObjType Group ResidencyOp CounterKind GroupChange Stats)

/-- The child process: what its handle says at each moment of the `ts_ns` timeline. -/
structure Child where
  signaled : ℕ → Bool
  exitCode : ℕ → ℕ

/-- The child starts exiting at `X`: from then on its exit code is set, or its handle is
signaled, and before neither. -/
def Child.ExitsAt (c : Child) (X : ℕ) : Prop :=
  (∀ t, t < X → c.signaled t = false ∧ c.exitCode t = Model.stillActive) ∧
  ((∀ t, X ≤ t → c.exitCode t ≠ Model.stillActive) ∨ ∀ t, X ≤ t → c.signaled t = true)

/-- What a call is told that reads the clock at `now`: the handle is asked after that, and the
exit code after the handle. -/
def Env.Reads (env : Env) (c : Child) (now : ℕ) : Prop :=
  ∃ t t', now ≤ t ∧ t ≤ t' ∧ env.signaled = c.signaled t ∧ env.exitCode = some (c.exitCode t')

/-- The child looks as if it were running. -/
def Env.running (env : Env) : Bool :=
  !env.signaled && decide (env.exitCode = some Model.stillActive)

/-- A child that looks as if it were running was running when the clock was read. -/
theorem Env.Reads.lt_of_running {env : Env} {c : Child} {now X : ℕ} (h : env.Reads c now)
    (hX : c.ExitsAt X) (hrun : env.running = true) : now < X := by
  obtain ⟨t, t', hnow, htt', hsig, hcode⟩ := h
  simp only [Env.running, Bool.and_eq_true, Bool.not_eq_true', decide_eq_true_eq] at hrun
  by_contra hge
  have ht : X ≤ t := by omega
  rcases hX.2 with hset | hset
  · refine hset t' (by omega) ?_
    rw [hcode] at hrun
    exact Option.some.inj hrun.2
  · rw [hsig, hset t ht] at hrun
    cases hrun.1

/-! ### One record at a time -/

namespace Step

/-- A call for each element of the array `OnEtwGroupChanges` is given. -/
def single : Step → List Step
  | .groupChanges changes => changes.map fun c => .groupChanges [c]
  | x => [x]

/-- The stamp of a record that the filter looks at, and what the system reports if the child is
sampled for it. -/
def stamp : Step → Option (ℤ × Env)
  | .groupChanges [(c, env)] => some (c.ts, env)
  | .residency env ts _ _ _ => some (ts, env)
  | .counter env ts _ _ _ => some (ts, env)
  | _ => none

end Step

def singles (xs : List Step) : List Step := xs.flatMap Step.single

namespace Model

theorem onEtwGroupChanges_eq {m : Model} (hetw : m.etwEnabled = true)
    (changes : List (GroupChange × Env)) :
    m.onEtwGroupChanges changes = changes.foldl (fun m c => m.onEtwGroupChange c.1 c.2) m :=
  if_neg (by simp [hetw])

theorem after_singles {m : Model} (hetw : m.etwEnabled = true) (xs : List Step) :
    m.after (singles xs) = m.after xs := by
  have hfold : ∀ (changes : List (GroupChange × Env)) (r : Model), r.etwEnabled = true →
      r.after (changes.map fun c => .groupChanges [c]) = r.onEtwGroupChanges changes := by
    intro changes
    induction changes with
    | nil => exact fun r hr => (onEtwGroupChanges_eq hr []).symm
    | cons c cs ih =>
      intro r hr
      have hone : r.step (.groupChanges [c]) = r.onEtwGroupChange c.1 c.2 :=
        onEtwGroupChanges_eq hr [c]
      have hr' : (r.onEtwGroupChange c.1 c.2).etwEnabled = true := by
        rw [← hone, etwEnabled_step]
        exact hr
      show (r.step (.groupChanges [c])).after _ = _
      rw [hone, ih _ hr', onEtwGroupChanges_eq hr', onEtwGroupChanges_eq hr]
      rfl
  induction xs generalizing m with
  | nil => rfl
  | cons x xs ih =>
    have hx : m.after x.single = m.step x := by
      cases x with
      | groupChanges changes => exact hfold changes m hetw
      | _ => rfl
    show m.after (x.single ++ singles xs) = (m.step x).after xs
    rw [after_append, hx, ih ((etwEnabled_step m x).trans hetw)]

/-! ### What the filter remembers -/

/-- The part of a model that the filter reads. -/
structure Watch where
  process : Bool
  aliveTs : ℕ
  exiting : Bool
  cutoffTs : ℕ
  exitTs : ℕ

def watch (m : Model) : Watch where
  process := m.childProcess
  aliveTs := m.childAliveTs
  exiting := m.childExiting
  cutoffTs := m.exitCutoffTs
  exitTs := m.childExitTs

theorem watch_of_sansJoin {m m' : Model} (h : m.sansJoin = m'.sansJoin) : m.watch = m'.watch :=
  congrArg (fun v : View => v.rest.watch) h

/-- The reading of the clock, if the child is sampled and seen running. -/
def pollSees (m : Model) (env : Env) : Option ℕ :=
  if m.childExiting || !m.childProcess then none
  else if env.running then some (m.nowTsLocked env) else none

/-- The same for a record stamped `ts`, for which the child may be sampled. -/
def lateSees (m : Model) (env : Env) (ts : ℕ) : Option ℕ :=
  if ts > m.childAliveTs then m.pollSees env else none

/-- The same for a call. -/
def sees (m : Model) : Step → Option ℕ
  | .pollChild env => m.pollSees env
  | .groupChanges [(c, env)] => m.lateSees env (m.convTs c.ts)
  | .residency env ts _ _ _ => m.lateSees env (m.convTs ts)
  | .counter env ts _ _ _ => if ts ≤ 0 then none else m.lateSees env (m.convTs ts)
  | _ => none

/-- The readings of the clock at which the child was seen running, in a run. -/
def seenRunning (m : Model) : List Step → List ℕ
  | [] => []
  | x :: xs => (m.sees x).toList ++ (m.step x).seenRunning xs

/-- The last one, or the start of the timeline. -/
def lastRunning (m : Model) (xs : List Step) : ℕ := (m.seenRunning xs).getLast?.getD 0

/-- What a call makes of what the filter remembers, and the reading at which it saw the child
running. -/
inductive Polled (w w' : Watch) : Option ℕ → Prop
  /-- The child is not sampled. -/
  | unseen : w' = { w with process := w'.process, exitTs := w'.exitTs } → Polled w w' none
  | running (now : ℕ) : w.exiting = false → w' = { w with aliveTs := now } → Polled w w' (some now)
  /-- It is taken to be exiting since it was last seen running. -/
  | gone : w.exiting = false → w' = { w with exiting := true, cutoffTs := w.aliveTs } →
    Polled w w' none

/-- A child that is not yet taken to be exiting is noted, or taken to be exiting. -/
theorem watch_pollChildLocked {m : Model} {env : Env} (hcode : env.exitCode.isSome)
    (hopen : m.childExiting = false) (hprocess : m.childProcess = true) :
    (m.pollChildLocked env).watch =
      if env.running then { m.watch with aliveTs := m.nowTsLocked env }
      else { m.watch with exiting := true, cutoffTs := m.childAliveTs } := by
  have hmark : ∀ now code, (m.markExiting now code).watch
      = { m.watch with exiting := true, cutoffTs := m.childAliveTs } := fun now code =>
    watch_of_sansJoin (sansJoin_sideLine _ _)
  obtain ⟨code, hcode⟩ := Option.isSome_iff_exists.mp hcode
  unfold pollChildLocked Env.running
  rw [if_neg (by simp [hopen, hprocess]), hcode]
  cases hs : env.signaled with
  | true => exact hmark _ _
  | false =>
    by_cases hactive : code = stillActive
    · subst hactive
      rfl
    · simp [hactive, hmark]

theorem pollSees_of_open {m : Model} {env : Env} (hopen : m.childExiting = false)
    (hprocess : m.childProcess = true) :
    m.pollSees env = if env.running then some (m.nowTsLocked env) else none := by
  unfold pollSees
  rw [hopen, hprocess]
  rfl

theorem polled_pollChildLocked (m : Model) {env : Env} (hcode : env.exitCode.isSome) :
    Polled m.watch (m.pollChildLocked env).watch (m.pollSees env) := by
  by_cases hopen : m.childExiting = false ∧ m.childProcess = true
  · rw [watch_pollChildLocked hcode hopen.1 hopen.2, pollSees_of_open hopen.1 hopen.2]
    split
    · exact .running _ hopen.1 rfl
    · exact .gone hopen.1 rfl
  · have hskip : (m.childExiting || !m.childProcess) = true := by
      cases hex : m.childExiting <;> cases hpr : m.childProcess <;> simp [hex, hpr] at hopen ⊢
    unfold pollChildLocked pollSees
    rw [if_pos hskip, if_pos hskip]
    exact .unseen rfl

theorem polled_afterChildExitLocked (m : Model) {env : Env} (hcode : env.exitCode.isSome)
    (ts : ℕ) : Polled m.watch (m.afterChildExitLocked env ts).2.watch (m.lateSees env ts) := by
  unfold afterChildExitLocked lateSees
  dsimp only
  split
  · exact polled_pollChildLocked m hcode
  · exact .unseen rfl

/-- A record from the pipe does not look at the child. -/
theorem watch_onEvent (m : Model) (ts : ℕ) (r : Record) : (m.onEvent ts r).watch = m.watch := by
  have hl : (m.setLatestNs ts).watch = m.watch := rfl
  cases r with
  | created p =>
    have hjoin : ∀ r : Model, (if r.etwEnabled then r.etwOnCreated p.id ts else r).watch
        = r.watch := by
      intro r
      split
      · exact watch_of_sansJoin (sansJoin_etwOnCreated r p.id ts)
      · rfl
    exact hjoin ((((m.setLatestNs ts).setLive _).setSnapshot _))
  | destroyed p =>
    show ((m.setLatestNs ts).onDestroyed ts p).watch = _
    unfold onDestroyed
    split
    · exact hl
    · have hjoin : (if (m.setLatestNs ts).etwEnabled then
          (m.setLatestNs ts).etwOnDestroyed p.id ts else m.setLatestNs ts).watch = m.watch := by
        split
        · exact (watch_of_sansJoin (sansJoin_etwOnDestroyed _ p.id ts)).trans hl
        · exact hl
      -- what follows the join step leaves the watch alone, whatever that step gave
      generalize (if (m.setLatestNs ts).etwEnabled then
        (m.setLatestNs ts).etwOnDestroyed p.id ts else m.setLatestNs ts) = joined at hjoin ⊢
      exact hjoin
  | hello p =>
    show ((m.setLatestNs ts).onHello ts p).watch = _
    unfold onHello
    dsimp only
    split <;> rfl
  | renamed p => rfl
  | goodbye p => rfl
  | other => rfl

theorem watch_finishEtw (m : Model) (env : Env) (st : Etw.Stats) :
    (m.finishEtw env st).watch = m.watch := by
  unfold finishEtw
  dsimp only
  split
  · rfl
  · split
    · have hclose : ∀ r : Model, r.closeSide.watch = r.watch := fun _ => rfl
      rw [hclose, watch_of_sansJoin (sansJoin_sideLine _ _)]
      rfl
    · rfl

/-- What the system reports to a call can be had. -/
def Answered : Step → Prop
  | .pollChild env => env.exitCode.isSome
  | x => ∀ s ∈ x.stamp, s.2.exitCode.isSome

/-- **One call** samples the child once at most. -/
theorem polled_step {m : Model} (hetw : m.etwEnabled = true) {x : Step} (hx : x ∈ x.single)
    (hcode : Answered x) : Polled m.watch (m.step x).watch (m.sees x) := by
  -- the steps that do not look at the process leave the watch alone
  have unseen : ∀ m' : Model, m'.watch = m.watch → Polled m.watch m'.watch none := by
    intro m' h
    rw [h]
    exact .unseen rfl
  cases x with
  | event ts r => exact unseen _ (watch_onEvent m ts r)
  | objectCreated ts libId type size group =>
    exact unseen _ (watch_of_sansJoin (sansJoin_onEtwObjectCreated m ts libId type size group))
  | objectAddress env libId address =>
    exact unseen _ (watch_of_sansJoin (sansJoin_onEtwObjectAddress m env libId address))
  | objectDestroyed ts libId =>
    exact unseen _ (watch_of_sansJoin (sansJoin_onEtwObjectDestroyed m ts libId))
  | objectSize ts libId size =>
    exact unseen _ (watch_of_sansJoin (sansJoin_onEtwObjectSize m ts libId size))
  | groupChanges changes =>
    -- a run of single calls has one change in each batch
    obtain ⟨c, rfl⟩ : ∃ c, changes = [c] := by
      obtain ⟨c, -, hc⟩ := List.mem_map.mp hx
      exact ⟨c, (Step.groupChanges.inj hc).symm⟩
    have hafter := polled_afterChildExitLocked m (hcode (c.1.ts, c.2) rfl) (m.convTs c.1.ts)
    show Polled m.watch (m.onEtwGroupChanges [c]).watch (m.lateSees c.2 (m.convTs c.1.ts))
    rw [onEtwGroupChanges_eq hetw]
    show Polled m.watch (m.onEtwGroupChange c.1 c.2).watch _
    unfold onEtwGroupChange
    dsimp only
    split
    · exact hafter
    · rw [watch_of_sansJoin (sansJoin_regroup _ c.1 _)]
      exact hafter
  | residency env ts libId type op =>
    have hafter := polled_afterChildExitLocked m (hcode (ts, env) rfl) (m.convTs ts)
    show Polled m.watch (m.onEtwResidency env ts libId type op).watch (m.lateSees env (m.convTs ts))
    unfold onEtwResidency
    rw [if_neg (by simp [hetw])]
    dsimp only
    split
    · exact hafter
    · rw [watch_of_sansJoin (sansJoin_countResidency _ _ libId type op)]
      exact hafter
  | counter env ts counterId kind bytes =>
    have hafter := polled_afterChildExitLocked m (hcode (ts, env) rfl) (m.convTs ts)
    show Polled m.watch (m.onEtwCounter env ts counterId kind bytes).watch
      (if ts ≤ 0 then none else m.lateSees env (m.convTs ts))
    unfold onEtwCounter
    rw [if_neg (by simp [hetw])]
    split
    · exact .unseen rfl
    · dsimp only
      split <;> exact hafter
  | diagnostic env error code msg =>
    exact unseen _ (watch_of_sansJoin (sansJoin_onEtwDiagnostic m env error code msg))
  | tick env st => exact unseen _ (watch_of_sansJoin (sansJoin_etwTick m env st))
  | pollChild env => exact polled_pollChildLocked m hcode
  | setChildProcess => exact .unseen rfl
  | setChildExitQpc exitQpc =>
    show Polled m.watch (m.setChildExitQpc exitQpc).watch none
    unfold setChildExitQpc
    split
    · exact .unseen rfl
    · exact .unseen rfl
  | markChildExited exitCode => exact unseen _ rfl
  | setEtwRunning running => exact unseen _ rfl
  | finish env st => exact unseen _ (watch_finishEtw m env st)

/-! ### Runs -/

/-- The call is made after the process handle was given, and not before its stamp: the two
conversions of a stamp may differ by a nanosecond. -/
def Timely (c : Child) (m : Model) : Step → Prop
  | .pollChild env => env.Reads c (m.nowTsLocked env)
  | x => ∀ s ∈ x.stamp, m.childProcess = true ∧ s.2.Reads c (m.nowTsLocked s.2) ∧
    m.convTs s.1 ≤ m.nowTsLocked s.2 + 1

/-- Every call of a run is. -/
def Observes (c : Child) (m : Model) : List Step → Prop
  | [] => True
  | x :: xs => m.Timely c x ∧ (m.step x).Observes c xs

theorem Timely.answered {c : Child} {m : Model} {x : Step} (h : m.Timely c x) : Answered x := by
  have some_of_reads : ∀ {env : Env} {now : ℕ}, env.Reads c now → env.exitCode.isSome := by
    rintro env now ⟨t, t', -, -, -, hcode⟩
    rw [hcode]
    rfl
  cases x with
  | pollChild env => exact some_of_reads h
  | _ => exact fun s hs => some_of_reads (h s hs).2.1

theorem Observes.of_append {c : Child} {us vs : List Step} {m : Model}
    (h : m.Observes c (us ++ vs)) : m.Observes c us ∧ (m.after us).Observes c vs := by
  induction us generalizing m with
  | nil => exact ⟨trivial, h⟩
  | cons x us ih =>
    obtain ⟨hus, hvs⟩ := ih h.2
    exact ⟨⟨h.1, hus⟩, hvs⟩

theorem ticksToNs_lt (ticks freq : ℕ) : ticksToNs ticks freq < 2 ^ 64 := by
  unfold ticksToNs
  dsimp only
  split_ifs with hfreq hhi
  · omega
  · omega
  · have hlo : ticks * 1000000000 % 2 ^ 64 < 2 ^ 64 := Nat.mod_lt _ (by omega)
    exact longDiv_lt hlo (Nat.lt_of_not_ge hhi)

theorem nowTsLocked_lt (m : Model) (env : Env) : m.nowTsLocked env < 2 ^ 64 := by
  unfold nowTsLocked
  split_ifs
  · omega
  · exact ticksToNs_lt _ _
  · omega

/-- What the filter remembers: when the child was last seen running, which is before it started
exiting, and the same as the cutoff when it was seen exiting. -/
structure Watchful (X : ℕ) (w : Watch) : Prop where
  early : w.aliveTs ≤ X
  fits : w.aliveTs < 2 ^ 64
  pending : w.exiting = false → w.cutoffTs = 2 ^ 64 - 1
  settled : w.exiting = true → w.cutoffTs = w.aliveTs

theorem Watchful.cutoff_of_running {X : ℕ} {m : Model} (h : Watchful X m.watch)
    (hex : m.childExiting = false) : m.exitCutoffTs = 2 ^ 64 - 1 := h.pending hex
theorem Watchful.cutoff_of_exiting {X : ℕ} {m : Model} (h : Watchful X m.watch)
    (hex : m.childExiting = true) : m.exitCutoffTs = m.childAliveTs := h.settled hex

theorem Polled.exiting {w w' : Watch} {seen : Option ℕ} (hp : Polled w w' seen)
    (h : w.exiting = true) : w'.exiting = true := by
  cases hp with
  | unseen hw =>
    rw [hw]
    exact h
  | running now hopen hw =>
    rw [hw]
    exact h
  | gone hopen hw => rw [hw]

theorem Watchful.polled {X : ℕ} {w w' : Watch} {seen : Option ℕ} (h : Watchful X w)
    (hp : Polled w w' seen) (hseen : ∀ now ∈ seen, now < X ∧ now < 2 ^ 64) : Watchful X w' := by
  cases hp with
  | unseen hw =>
    rw [hw]
    exact ⟨h.early, h.fits, h.pending, h.settled⟩
  | running now hopen hw =>
    obtain ⟨hearly, hfits⟩ := hseen now rfl
    rw [hw]
    refine ⟨hearly.le, hfits, fun _ => h.pending hopen, fun hex => ?_⟩
    have hex : w.exiting = true := hex
    rw [hopen] at hex
    cases hex
  | gone hopen hw =>
    rw [hw]
    exact ⟨h.early, h.fits, fun hex => Bool.noConfusion hex, fun _ => rfl⟩

theorem pollSees_some {m : Model} {env : Env} {now : ℕ} (h : m.pollSees env = some now) :
    env.running = true ∧ now = m.nowTsLocked env := by
  unfold pollSees at h
  split at h
  · cases h
  · split at h
    · next hrun => exact ⟨hrun, (Option.some.inj h).symm⟩
    · cases h

theorem lateSees_some {m : Model} {env : Env} {ts now : ℕ} (h : m.lateSees env ts = some now) :
    m.pollSees env = some now := by
  unfold lateSees at h
  split at h
  · exact h
  · cases h

/-- What is seen is seen by a call that the system has answered. -/
theorem Timely.sees {c : Child} {X : ℕ} {m : Model} {x : Step} (h : m.Timely c x)
    (hX : c.ExitsAt X) : ∀ now ∈ m.sees x, now < X ∧ now < 2 ^ 64 := by
  have hpoll : ∀ {env now}, env.Reads c (m.nowTsLocked env) → m.pollSees env = some now →
      now < X ∧ now < 2 ^ 64 := by
    intro env now hreads hsees
    obtain ⟨hrun, rfl⟩ := pollSees_some hsees
    exact ⟨hreads.lt_of_running hX hrun, nowTsLocked_lt m env⟩
  intro now hnow
  cases x with
  | pollChild env => exact hpoll h hnow
  | groupChanges changes =>
    match changes, hnow with
    | [(g, env)], hnow => exact hpoll (h (g.ts, env) rfl).2.1 (lateSees_some hnow)
  | residency env ts libId type op => exact hpoll (h (ts, env) rfl).2.1 (lateSees_some hnow)
  | counter env ts counterId kind bytes =>
    have hnow : (if ts ≤ 0 then none else m.lateSees env (m.convTs ts)) = some now := hnow
    split at hnow
    · cases hnow
    · exact hpoll (h (ts, env) rfl).2.1 (lateSees_some hnow)
  | _ => cases hnow

theorem watchful_after {c : Child} {X : ℕ} (hX : c.ExitsAt X) {xs : List Step}
    (hxs : ∀ x ∈ xs, x ∈ x.single) {m : Model} (hetw : m.etwEnabled = true)
    (hw : Watchful X m.watch) (hobs : m.Observes c xs) : Watchful X (m.after xs).watch := by
  induction xs generalizing m with
  | nil => exact hw
  | cons x xs ih =>
    have hp := polled_step hetw (hxs x List.mem_cons_self) hobs.1.answered
    exact ih (fun y hy => hxs y (List.mem_cons_of_mem x hy)) ((etwEnabled_step m x).trans hetw)
      (hw.polled hp (hobs.1.sees hX)) hobs.2

theorem mem_single_of_mem_singles {xs : List Step} {x : Step} (h : x ∈ singles xs) :
    x ∈ x.single := by
  obtain ⟨y, -, hx⟩ := List.mem_flatMap.mp h
  cases y with
  | groupChanges changes =>
    obtain ⟨c, -, rfl⟩ := List.mem_map.mp hx
    exact List.mem_singleton.mpr rfl
  | _ =>
    obtain rfl := List.mem_singleton.mp hx
    exact List.mem_singleton.mpr rfl

/-- The filter remembers the last reading at which the child was seen running. -/
theorem aliveTs_after {c : Child} {xs : List Step} (hxs : ∀ x ∈ xs, x ∈ x.single) {m : Model}
    (hetw : m.etwEnabled = true) (hobs : m.Observes c xs) :
    (m.after xs).childAliveTs = (m.seenRunning xs).getLast?.getD m.childAliveTs := by
  induction xs generalizing m with
  | nil => rfl
  | cons x xs ih =>
    have hp := polled_step hetw (hxs x List.mem_cons_self) hobs.1.answered
    have halive : (m.step x).childAliveTs = (m.sees x).getD m.childAliveTs := by
      generalize m.sees x = seen at hp
      cases hp with
      | unseen hw => exact congrArg Watch.aliveTs hw
      | running now _ hw => exact congrArg Watch.aliveTs hw
      | gone _ hw => exact congrArg Watch.aliveTs hw
    show ((m.step x).after xs).childAliveTs = _
    rw [ih (fun y hy => hxs y (List.mem_cons_of_mem x hy)) ((etwEnabled_step m x).trans hetw)
      hobs.2, halive]
    show _ = ((m.sees x).toList ++ (m.step x).seenRunning xs).getLast?.getD _
    rw [List.getLast?_append]
    cases (m.step x).seenRunning xs |>.getLast? <;> cases m.sees x <;> rfl

/-- Once the child is taken to be exiting nothing is sampled any more. -/
theorem settled_after {c : Child} {xs : List Step} (hxs : ∀ x ∈ xs, x ∈ x.single) {m : Model}
    (hetw : m.etwEnabled = true) (hobs : m.Observes c xs) (hex : m.childExiting = true) :
    (m.after xs).childExiting = true ∧ (m.after xs).childAliveTs = m.childAliveTs := by
  induction xs generalizing m with
  | nil => exact ⟨hex, rfl⟩
  | cons x xs ih =>
    have hp := polled_step hetw (hxs x List.mem_cons_self) hobs.1.answered
    have hkeep : (m.step x).childExiting = true ∧ (m.step x).childAliveTs = m.childAliveTs := by
      have hopen : m.watch.exiting ≠ false := by
        rw [show m.watch.exiting = true from hex]
        exact Bool.noConfusion
      generalize m.sees x = seen at hp
      cases hp with
      | unseen hw => exact ⟨(congrArg Watch.exiting hw).trans hex, congrArg Watch.aliveTs hw⟩
      | running now ho hw => exact absurd ho hopen
      | gone ho hw => exact absurd ho hopen
    obtain ⟨hex', halive⟩ := ih (fun y hy => hxs y (List.mem_cons_of_mem x hy))
      ((etwEnabled_step m x).trans hetw) hobs.2 hkeep.1
    exact ⟨hex', halive.trans hkeep.2⟩

/-! ### The two sides of the filter -/

/-- Between `m` and `m'` no location, no counter and no count was changed, but for the count of
what was ignored. -/
structure Undisturbed (m m' : Model) : Prop where
  live : m'.live = m.live
  etwObjs : m'.etwObjs = m.etwObjs
  counters : m'.counters = m.counters
  counts : m'.s = { m.s with etw.postExitIgnored := m'.s.etw.postExitIgnored }

theorem undisturbed_afterChildExitLocked (m : Model) (env : Env) (ts : ℕ) :
    Undisturbed m (m.afterChildExitLocked env ts).2 := by
  have hline : ∀ (r : Model) (l : SideLine), Undisturbed r (r.sideLine l) := by
    intro r l
    unfold sideLine
    split
    · exact ⟨rfl, rfl, rfl, rfl⟩
    · split <;> exact ⟨rfl, rfl, rfl, rfl⟩
  have hmark : ∀ now code, Undisturbed m (m.markExiting now code) := by
    intro now code
    obtain ⟨hlive, hetw, hcounters, hcounts⟩ := hline
      { m with childExiting := true, exitCutoffTs := m.childAliveTs }
      (.targetExiting m.childAliveTs now (if code ≠ stillActive then some code else none))
    exact ⟨hlive, hetw, hcounters, hcounts⟩
  have hpoll : Undisturbed m (m.pollChildLocked env) := by
    unfold pollChildLocked
    dsimp only
    split
    · exact ⟨rfl, rfl, rfl, rfl⟩
    · split
      · split
        · exact ⟨rfl, rfl, rfl, rfl⟩
        · split
          · exact ⟨rfl, rfl, rfl, rfl⟩
          · exact hmark _ _
      · exact hmark _ _
  unfold afterChildExitLocked
  dsimp only
  split
  · exact hpoll
  · exact ⟨rfl, rfl, rfl, rfl⟩

/-- **What is stamped later than `X` is ignored.** -/
theorem afterChildExit_of_later {c : Child} {X : ℕ} (hX : c.ExitsAt X) {m : Model}
    (hw : Watchful X m.watch) {env : Env} {ts : ℕ} (hprocess : m.childProcess = true)
    (hreads : env.Reads c (m.nowTsLocked env)) (hnow : ts ≤ m.nowTsLocked env + 1) (hts : X < ts) :
    (m.afterChildExitLocked env ts).1 = true := by
  have hcode : env.exitCode.isSome := by
    obtain ⟨t, t', -, -, -, hcode⟩ := hreads
    rw [hcode]
    rfl
  have halive : m.childAliveTs < ts := lt_of_le_of_lt hw.early hts
  have hcut : (m.pollChildLocked env).exitCutoffTs < ts := by
    cases hex : m.childExiting with
    | true =>
      have hsame : m.pollChildLocked env = m := if_pos (by simp [hex])
      rw [hsame, hw.cutoff_of_exiting hex]
      exact halive
    | false =>
      -- its clock is read late enough for the child to be seen exiting
      have hgone : env.running = false := by
        by_contra hrun
        have hlt := hreads.lt_of_running hX (by simpa using hrun)
        omega
      have hpoll := watch_pollChildLocked hcode hex hprocess
      rw [hgone] at hpoll
      rw [show (m.pollChildLocked env).exitCutoffTs = m.childAliveTs from
        congrArg Watch.cutoffTs hpoll]
      exact halive
  unfold afterChildExitLocked
  simp [halive, hcut]

theorem exitTs_afterChildExitLocked (m : Model) (env : Env) (ts : ℕ) :
    (m.afterChildExitLocked env ts).2.childExitTs = m.childExitTs := by
  have hmark : ∀ now code, (m.markExiting now code).childExitTs = m.childExitTs := fun now code =>
    congrArg Watch.exitTs (watch_of_sansJoin (sansJoin_sideLine
      { m with childExiting := true, exitCutoffTs := m.childAliveTs } _))
  have hpoll : (m.pollChildLocked env).childExitTs = m.childExitTs := by
    unfold pollChildLocked
    dsimp only
    split
    · rfl
    · split
      · split
        · rfl
        · split
          · rfl
          · exact hmark _ _
      · exact hmark _ _
  unfold afterChildExitLocked
  dsimp only
  split
  · exact hpoll
  · rfl

/-- **What is stamped no later than the last reading is not ignored**, unless the exit time that
the system gave is earlier. -/
theorem afterChildExit_of_earlier {X last : ℕ} {m : Model} {env : Env} {ts : ℕ}
    (hw : Watchful X (m.afterChildExitLocked env ts).2.watch) (hlast : last ≤ X)
    (hfits : last < 2 ^ 64)
    (hsettled : (m.afterChildExitLocked env ts).2.childExiting = true →
      last = (m.afterChildExitLocked env ts).2.childAliveTs)
    (hfallback : X ≤ m.childExitTs) (hts : ts ≤ last) :
    (m.afterChildExitLocked env ts).1 = false := by
  have hexit := exitTs_afterChildExitLocked m env ts
  have hcut : ts ≤ (m.afterChildExitLocked env ts).2.exitCutoffTs := by
    cases hex : (m.afterChildExitLocked env ts).2.childExiting with
    | true =>
      have hcutoff := hw.cutoff_of_exiting hex
      rw [hcutoff, ← hsettled hex]
      exact hts
    | false =>
      have hcutoff := hw.cutoff_of_running hex
      omega
  generalize hr : m.afterChildExitLocked env ts = r at hexit hcut
  have hfirst : r.1 = (decide (ts > r.2.exitCutoffTs) || decide (ts > r.2.childExitTs)) := by
    rw [← hr]
    rfl
  rw [hfirst, Bool.or_eq_false_iff, decide_eq_false_iff_not, decide_eq_false_iff_not]
  omega

theorem step_groupChange {m : Model} (hetw : m.etwEnabled = true) (c : GroupChange) (env : Env) :
    m.step (.groupChanges [(c, env)]) =
      let after := m.afterChildExitLocked env (m.convTs c.ts)
      if after.1 then after.2.updStats fun t => { t with postExitIgnored := t.postExitIgnored + 1 }
      else after.2.regroup c (m.convTs c.ts) := onEtwGroupChanges_eq hetw _

theorem step_residency {m : Model} (hetw : m.etwEnabled = true) (env : Env) (ts : ℤ) (libId : ℕ)
    (type : ObjType) (op : ResidencyOp) :
    m.step (.residency env ts libId type op) =
      let after := m.afterChildExitLocked env (m.convTs ts)
      if after.1 then after.2.updStats fun t => { t with postExitIgnored := t.postExitIgnored + 1 }
      else after.2.countResidency (after.2.convTs ts) libId type op := if_neg (by simp [hetw])

theorem step_counter {m : Model} (hetw : m.etwEnabled = true) (env : Env) (ts : ℤ) (counterId : ℕ)
    (kind : CounterKind) (bytes : ℕ) :
    m.step (.counter env ts counterId kind bytes) =
      if ts ≤ 0 then m
      else
        let after := m.afterChildExitLocked env (m.convTs ts)
        if after.1 then after.2
        else after.2.setCounters (after.2.counters.insert counterId ⟨kind, bytes⟩) :=
  if_neg (by simp [hetw])

/-- A record of the teardown is counted, at most. -/
theorem undisturbed_of_later {c : Child} {X : ℕ} (hX : c.ExitsAt X) {m : Model}
    (hw : Watchful X m.watch) (hetw : m.etwEnabled = true) {x : Step} (hx : x ∈ x.single)
    (htimely : m.Timely c x) {q : ℤ × Env} (hq : q ∈ x.stamp) (hts : X < m.convTs q.1) :
    Undisturbed m (m.step x) := by
  -- the count of the ignored records is all that may differ
  have hcount : ∀ r : Model, Undisturbed m r → Undisturbed m (r.updStats fun t =>
      { t with postExitIgnored := t.postExitIgnored + 1 }) := by
    intro r hr
    refine ⟨hr.live, hr.etwObjs, hr.counters, ?_⟩
    show ({ r.s with etw := { r.s.etw with postExitIgnored := _ } } : Snapshot) = _
    rw [hr.counts]
    rfl
  cases x with
  | groupChanges changes =>
    obtain ⟨⟨g, env⟩, rfl⟩ : ∃ g, changes = [g] := by
      obtain ⟨g, -, hg⟩ := List.mem_map.mp hx
      exact ⟨g, (Step.groupChanges.inj hg).symm⟩
    obtain rfl : (g.ts, env) = q := Option.some.inj hq
    obtain ⟨hprocess, hreads, hnow⟩ := htimely _ rfl
    have hlate := afterChildExit_of_later hX hw hprocess hreads hnow hts
    rw [step_groupChange hetw]
    dsimp only
    rw [if_pos hlate]
    exact hcount _ (undisturbed_afterChildExitLocked m env _)
  | residency env ts libId type op =>
    obtain rfl : (ts, env) = q := Option.some.inj hq
    obtain ⟨hprocess, hreads, hnow⟩ := htimely _ rfl
    have hlate := afterChildExit_of_later hX hw hprocess hreads hnow hts
    rw [step_residency hetw]
    dsimp only
    rw [if_pos hlate]
    exact hcount _ (undisturbed_afterChildExitLocked m env _)
  | counter env ts counterId kind bytes =>
    obtain rfl : (ts, env) = q := Option.some.inj hq
    obtain ⟨hprocess, hreads, hnow⟩ := htimely _ rfl
    have hlate := afterChildExit_of_later hX hw hprocess hreads hnow hts
    rw [step_counter hetw]
    by_cases hpos : ts ≤ 0
    · rw [if_pos hpos]
      exact ⟨rfl, rfl, rfl, rfl⟩
    · rw [if_neg hpos]
      dsimp only
      rw [if_pos hlate]
      exact undisturbed_afterChildExitLocked m env _
  | _ => cases hq

/-- A group change or a residency operation that is not ignored. -/
def Heeds (m : Model) (x : Step) : Prop :=
  match x with
  | .groupChanges [(c, env)] =>
    m.step x = (m.afterChildExitLocked env (m.convTs c.ts)).2.regroup c (m.convTs c.ts)
  | .residency env ts libId type op =>
    m.step x = let after := (m.afterChildExitLocked env (m.convTs ts)).2
      after.countResidency (after.convTs ts) libId type op
  | _ => True

/-- `last` is the last reading at which the child is seen running, in the rest of the run. -/
theorem heeds_of_earlier {X last : ℕ} {m : Model} (hetw : m.etwEnabled = true) {x : Step}
    (hx : x ∈ x.single) (hw : Watchful X (m.step x).watch) (hlast : last ≤ X)
    (hfits : last < 2 ^ 64)
    (hsettled : (m.step x).childExiting = true → last = (m.step x).childAliveTs)
    (hfallback : X ≤ m.childExitTs) {q : ℤ × Env} (hq : q ∈ x.stamp)
    (hts : m.convTs q.1 ≤ last) : m.Heeds x := by
  -- nothing but the look at the process bears on what is read of it
  have heed : ∀ {env : Env} {ts : ℕ}, (m.step x).watch = (m.afterChildExitLocked env ts).2.watch →
      ts ≤ last → ¬(m.afterChildExitLocked env ts).1 = true := by
    intro env ts hsame hts
    have hexiting : (m.step x).childExiting = (m.afterChildExitLocked env ts).2.childExiting :=
      congrArg Watch.exiting hsame
    have halive : (m.step x).childAliveTs = (m.afterChildExitLocked env ts).2.childAliveTs :=
      congrArg Watch.aliveTs hsame
    have hearly := afterChildExit_of_earlier (hsame ▸ hw) hlast hfits
      (fun hex => (hsettled (hexiting.trans hex)).trans halive) hfallback hts
    rw [hearly]
    exact Bool.noConfusion
  cases x with
  | groupChanges changes =>
    obtain ⟨⟨g, env⟩, rfl⟩ : ∃ g, changes = [g] := by
      obtain ⟨g, -, hg⟩ := List.mem_map.mp hx
      exact ⟨g, (Step.groupChanges.inj hg).symm⟩
    obtain rfl : (g.ts, env) = q := Option.some.inj hq
    have hstep := step_groupChange hetw g env
    have hsame : (m.step (.groupChanges [(g, env)])).watch
        = (m.afterChildExitLocked env (m.convTs g.ts)).2.watch := by
      rw [hstep]
      dsimp only
      split
      · rfl
      · exact watch_of_sansJoin (sansJoin_regroup _ g _)
    exact hstep.trans (if_neg (heed hsame hts))
  | residency env ts libId type op =>
    obtain rfl : (ts, env) = q := Option.some.inj hq
    have hstep := step_residency hetw env ts libId type op
    have hsame : (m.step (.residency env ts libId type op)).watch
        = (m.afterChildExitLocked env (m.convTs ts)).2.watch := by
      rw [hstep]
      dsimp only
      split
      · rfl
      · exact watch_of_sansJoin (sansJoin_countResidency _ _ libId type op)
    exact hstep.trans (if_neg (heed hsame hts))
  | _ => exact trivial

/-- **The post-exit filter.**  Let the child start exiting at `X`.  However it is polled in
between, a record stamped later than `X` changes nothing, the cutoff is set once at most, to the
last reading at which the child was seen running, which is not after `X`, and no group change or
residency operation stamped up to then is ignored, unless the exit time that the system gave is
before `X`. -/
theorem post_exit_filter (etw : EtwOptions) (xs : List Step) {c : Child} {X : ℕ}
    (hX : c.ExitsAt X) (hobs : (start etw).Observes c (singles xs)) :
    let last := (start etw).lastRunning (singles xs)
    (start etw).after (singles xs) = (start etw).after xs ∧ last ≤ X ∧
    ∀ us vs, singles xs = us ++ vs →
      let m := (start etw).after us
      (m.exitCutoffTs = if m.childExiting then last else 2 ^ 64 - 1) ∧
      ∀ x ∈ vs.head?,
        (m.childExiting = true → (m.step x).childExiting = true) ∧
        (∀ s ∈ x.stamp, X < m.convTs s.1 → Undisturbed m (m.step x)) ∧
        (∀ s ∈ x.stamp, m.convTs s.1 ≤ last → X ≤ m.childExitTs → m.Heeds x) := by
  intro last
  have hetw : (start etw).etwEnabled = true := rfl
  have hsingle : ∀ x ∈ singles xs, x ∈ x.single := fun x hx => mem_single_of_mem_singles hx
  have hstart : Watchful X (start etw).watch :=
    ⟨Nat.zero_le X, Nat.two_pow_pos 64, fun _ => rfl, fun h => Bool.noConfusion h⟩
  have hlast : last = ((start etw).after (singles xs)).childAliveTs :=
    (aliveTs_after hsingle hetw hobs).symm
  -- the invariant at the end of the run, where `last` is read
  have hend := watchful_after hX hsingle hetw hstart hobs
  refine ⟨after_singles hetw xs, hlast ▸ hend.early, fun us vs hsplit => ?_⟩
  intro m
  rw [hsplit] at hobs hsingle
  obtain ⟨hus, hvs⟩ := hobs.of_append
  have hsus : ∀ x ∈ us, x ∈ x.single := fun x hx => hsingle x (List.mem_append_left _ hx)
  have hsvs : ∀ x ∈ vs, x ∈ x.single := fun x hx => hsingle x (List.mem_append_right _ hx)
  have hm : Watchful X m.watch := watchful_after hX hsus hetw hstart hus
  have hmetw : m.etwEnabled = true := etwEnabled_start etw us
  have hlast' : last = (m.after vs).childAliveTs := by
    rw [hlast, hsplit, after_append]
  refine ⟨?_, ?_⟩
  · cases hex : m.childExiting with
    | true =>
      -- once exiting, the time last seen alive stays to the end of the run
      rw [if_pos rfl, hlast', (settled_after hsvs hmetw hvs hex).2]
      exact hm.settled hex
    | false => exact hm.pending hex
  · intro x hx
    obtain ⟨ws, rfl⟩ : ∃ ws, vs = x :: ws := by
      cases vs with
      | nil => cases hx
      | cons y ws =>
        obtain rfl : y = x := Option.some.inj hx
        exact ⟨ws, rfl⟩
    -- one step on from the prefix, the invariant again
    have htimely := hvs.1
    have hxs : x ∈ x.single := hsvs x List.mem_cons_self
    have hp := polled_step hmetw hxs htimely.answered
    have hnext : Watchful X (m.step x).watch := hm.polled hp (htimely.sees hX)
    have hsettled : (m.step x).childExiting = true → last = (m.step x).childAliveTs := by
      intro hex
      have hsws : ∀ y ∈ ws, y ∈ y.single := fun y hy => hsvs y (List.mem_cons_of_mem x hy)
      have hend' := (settled_after hsws ((etwEnabled_step m x).trans hmetw) hvs.2 hex).2
      exact hlast'.trans hend'
    have hlt : last < 2 ^ 64 := hlast ▸ hend.fits
    have hearly : last ≤ X := hlast ▸ hend.early
    refine ⟨hp.exiting, fun q hq hts => ?_, fun q hq hts hfallback => ?_⟩
    · exact undisturbed_of_later hX hm hmetw hxs htimely hq hts
    · exact heeds_of_earlier hmetw hxs hnext hearly hlt hsettled hfallback hq hts

/-- The process is killed at 50, with exit code 1.  A group change from before is reported, then
one of the teardown, before the next poll. -/
def killedRun : List Step :=
  [.event 0 (.hello ⟨1, 1, 1000000000, 0, NameBuf.copy []⟩), .setChildProcess,
    .objectCreated 10 7 .heap 65536 .local,
    .groupChanges [(⟨20, 7, .heap, .nonLocal⟩, { qpc := 30 }),
      (⟨60, 7, .heap, .local⟩, { qpc := 70, exitCode := some 1 })]]

/-- The first change is heeded, the second one is not; the cutoff is the moment of the first. -/
theorem post_exit_filter_killedRun :
    let m := (start ⟨true, [], [], 5000⟩).after ((singles killedRun).take 3)
    let m' := m.step (.groupChanges [(⟨20, 7, .heap, .nonLocal⟩, { qpc := 30 })])
    m.Heeds (.groupChanges [(⟨20, 7, .heap, .nonLocal⟩, { qpc := 30 })]) ∧
    Undisturbed m' ((start ⟨true, [], [], 5000⟩).after killedRun) ∧
    ((start ⟨true, [], [], 5000⟩).after killedRun).exitCutoffTs = 30 := by
  have hX : Child.ExitsAt ⟨fun _ => false, fun t => if t < 50 then 259 else 1⟩ 50 := by
    refine ⟨fun t ht => ⟨rfl, if_pos ht⟩, .inl fun t ht => ?_⟩
    show (if t < 50 then 259 else 1) ≠ 259
    rw [if_neg (by omega)]
    decide
  have hobs : (start ⟨true, [], [], 5000⟩).Observes
      ⟨fun _ => false, fun t => if t < 50 then 259 else 1⟩ (singles killedRun) := by
    refine ⟨?_, ?_, ?_, ?_, ?_, trivial⟩
    · rintro s ⟨⟩
    · rintro s ⟨⟩
    · rintro s ⟨⟩
    · rintro s ⟨⟩
      exact ⟨rfl, ⟨30, 30, by decide, le_refl _, rfl, by decide⟩, by decide⟩
    · rintro s ⟨⟩
      exact ⟨rfl, ⟨70, 70, by decide, le_refl _, rfl, by decide⟩, by decide⟩
  obtain ⟨hsame, -, hrun⟩ := post_exit_filter ⟨true, [], [], 5000⟩ killedRun hX hobs
  obtain ⟨-, hfirst⟩ := hrun ((singles killedRun).take 3) _ rfl
  obtain ⟨-, hsecond⟩ := hrun ((singles killedRun).take 4) _ rfl
  obtain ⟨hcutoff, -⟩ := hrun (singles killedRun) [] rfl
  refine ⟨(hfirst _ rfl).2.2 _ rfl (by decide) (by decide), ?_, ?_⟩
  · exact hsame ▸ (hsecond _ rfl).2.1 _ rfl (by decide)
  · rw [← hsame, hcutoff]
    decide

end Model

end Dx12Track
