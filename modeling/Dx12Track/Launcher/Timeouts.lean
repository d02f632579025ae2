import Dx12Track.Lib.TimeoutQueue
import Dx12Track.Launcher.Timers

/-!
# The wait for a tracked object

An ETW object that finds no tracked object at its address is put into a queue, with
the reading of the clock; if it is still there after `kEtwPendingTimeoutMs`, it is
counted as expired.  It may be bound, matched, stolen or destroyed before that, and
stays in the queue, so the queue is a `TimeoutQueue` with lazy deletion.

* `Model.timeouts` — the queue of the model as one; `timeouts_expirePending`.
* `Model.Timed` — **the invariant**: it is ordered, and nobody in it is put there again.
* `timed_step`, `timed_after` — every call keeps it.
* `WaitedSince`, `WaitedOut` — what a wait is, in a run.
* `Model.pending_exact` — **the timeout is exact**.
-/

namespace Dx12Track

open Etw (ObjType Group ResidencyOp CounterKind GroupChange Stats)
open TimeoutQueue (fired left)

/-! ### The clock of a run -/

/-- The reading of `NowMs` in a call. -/
def Step.clockMs : Step → Option ℕ
  | .objectAddress env _ _ => some env.nowMs
  | .tick env _ => some env.nowMs
  | _ => none

def clockReadings (xs : List Step) : List ℕ := xs.filterMap Step.clockMs

/-- The millisecond clock does not go back; it is at least 1, and a 64-bit value. -/
def ClockRuns (xs : List Step) : Prop :=
  (clockReadings xs).Pairwise (· ≤ ·) ∧ ∀ t ∈ clockReadings xs, 1 ≤ t ∧ t < 2 ^ 64

instance (xs : List Step) : Decidable (ClockRuns xs) := inferInstanceAs (Decidable (_ ∧ _))

/-- The last reading, 0 before the first. -/
def lastReading (xs : List Step) : ℕ := (clockReadings xs).getLast?.getD 0

theorem clockReadings_append (xs ys : List Step) :
    clockReadings (xs ++ ys) = clockReadings xs ++ clockReadings ys := List.filterMap_append

theorem clockReadings_singleton (x : Step) : clockReadings [x] = x.clockMs.toList := by
  unfold clockReadings
  cases h : x.clockMs with
  | none => rw [List.filterMap_cons_none h]; rfl
  | some t => rw [List.filterMap_cons_some h]; rfl

theorem ClockRuns.of_append {xs ys : List Step} (h : ClockRuns (xs ++ ys)) : ClockRuns xs := by
  unfold ClockRuns at h ⊢
  rw [clockReadings_append] at h
  exact ⟨(List.pairwise_append.mp h.1).1, fun t ht => h.2 t (List.mem_append_left _ ht)⟩

/-- The reading of a last call is not before those of the others. -/
theorem ClockRuns.last {xs : List Step} {x : Step} (h : ClockRuns (xs ++ [x])) {t : ℕ}
    (ht : x.clockMs = some t) : lastReading xs ≤ t ∧ 1 ≤ t ∧ t < 2 ^ 64 := by
  unfold ClockRuns at h
  rw [clockReadings_append, clockReadings_singleton, ht] at h
  refine ⟨?_, h.2 t (List.mem_append_right _ (by simp))⟩
  unfold lastReading
  cases hl : (clockReadings xs).getLast? with
  | none => exact Nat.zero_le t
  | some s =>
    exact (List.pairwise_append.mp h.1).2.2 s (List.mem_of_getLast? hl) t (by simp)

theorem lastReading_concat (xs : List Step) (x : Step) :
    lastReading (xs ++ [x]) = x.clockMs.getD (lastReading xs) := by
  unfold lastReading
  rw [clockReadings_append, clockReadings_singleton]
  cases x.clockMs with
  | none => simp
  | some t => simp

namespace Model

/-! ### The queue -/

/-- The reading at which the object under `k` began to wait, 0 if it does not wait. -/
def waitsSince (m : Model) (k : ℕ) : ℕ :=
  match m.etwObjs.lookup k with
  | none => 0
  | some e => if e.boundId = 0 then e.pendingSinceMs else 0

def timeouts (m : Model) : TimeoutQueue ℕ where
  since := m.waitsSince
  queue := m.pendingQ

theorem waitsSince_of_some {m : Model} {k : ℕ} {e : EtwObj} (h : m.etwObjs.lookup k = some e) :
    m.waitsSince k = if e.boundId = 0 then e.pendingSinceMs else 0 := by
  unfold waitsSince
  rw [h]

theorem waitsSince_of_none {m : Model} {k : ℕ} (h : m.etwObjs.lookup k = none) :
    m.waitsSince k = 0 := by
  unfold waitsSince
  rw [h]

/-- Whoever waits is stored, unbound and pending. -/
theorem waitsSince_ne_zero {m : Model} {k : ℕ} (h : m.waitsSince k ≠ 0) :
    ∃ e, m.etwObjs.lookup k = some e ∧ e.boundId = 0 ∧ e.pendingSinceMs = m.waitsSince k := by
  cases he : m.etwObjs.lookup k with
  | none => exact absurd (waitsSince_of_none he) h
  | some e =>
    rw [waitsSince_of_some he] at h ⊢
    split at h
    · next hb => exact ⟨e, rfl, hb, by rw [if_pos hb]⟩
    · exact absurd rfl h

theorem waitsSince_congr {m m' : Model} (h : m'.etwObjs = m.etwObjs) :
    m'.waitsSince = m.waitsSince := by
  funext k
  unfold waitsSince
  rw [h]

theorem sub64_of_le {a b : ℕ} (hb : b ≤ a) (ha : a < 2 ^ 64) : sub64 a b = a - b := by
  unfold sub64
  omega

/-! ### The first half of a tick -/

/-- The object under `k` times out. -/
def timeOut (m : Model) (k : ℕ) : Model :=
  (m.updEtw k fun e => (e.setPending 0).setExpired).updStats
    fun t => { t with pendingExpired := t.pendingExpired + 1 }

theorem lookup_timeOut (m : Model) (k₀ k : ℕ) :
    (m.timeOut k₀).etwObjs.lookup k
      = if k = k₀ then (m.etwObjs.lookup k).map fun e => (e.setPending 0).setExpired
        else m.etwObjs.lookup k := Finmap.lookup_modify _ _ _ _

theorem waitsSince_timeOut (m : Model) (k₀ k : ℕ) :
    (m.timeOut k₀).waitsSince k = if k = k₀ then 0 else m.waitsSince k := by
  have hlookup := m.lookup_timeOut k₀ k
  unfold waitsSince
  rw [hlookup]
  by_cases hk : k = k₀
  · rw [if_pos hk, if_pos hk]
    cases m.etwObjs.lookup k with
    | none => rfl
    | some e => exact ite_self _
  · rw [if_neg hk, if_neg hk]

/-- **The tick takes the keys that time out off the front of the queue**, counts them, and marks
their objects. -/
theorem expirePending_spec {now : ℕ} (hnow : now < 2 ^ 64) {q : List ℕ} (hq : q.Nodup) {m : Model}
    (hpast : ∀ k, m.waitsSince k ≤ now) :
    (expirePending now q m).pendingQ = left kEtwPendingTimeoutMs now m.waitsSince q ∧
      (expirePending now q m).s.etw.pendingExpired
        = m.s.etw.pendingExpired + (fired kEtwPendingTimeoutMs now m.waitsSince q).length ∧
      ∀ k, (expirePending now q m).etwObjs.lookup k
        = (m.etwObjs.lookup k).map fun e =>
            if k ∈ fired kEtwPendingTimeoutMs now m.waitsSince q then (e.setPending 0).setExpired
            else e := by
  have hstop : ∀ (k : ℕ) (f : EtwObj → EtwObj), m.etwObjs.lookup k
      = (m.etwObjs.lookup k).map fun e => if k ∈ ([] : List ℕ) then f e else e := by
    intro k f
    simp
  induction q generalizing m with
  | nil => exact ⟨rfl, rfl, fun k => hstop k _⟩
  | cons k₀ q ih =>
    obtain ⟨hk₀, hq⟩ := List.nodup_cons.mp hq
    unfold expirePending fired left
    cases he : m.etwObjs.lookup k₀ with
    | none =>
      rw [if_pos (waitsSince_of_none he), if_pos (waitsSince_of_none he)]
      exact ih hq hpast hstop
    | some e =>
      have hsince := waitsSince_of_some he
      dsimp only
      by_cases hskip : e.boundId ≠ 0 ∨ e.pendingSinceMs = 0
      · have hzero : m.waitsSince k₀ = 0 := by
          rw [hsince]
          rcases hskip with hb | hp
          · exact if_neg hb
          · rw [hp, ite_self]
        rw [if_pos hskip, if_pos hzero, if_pos hzero]
        exact ih hq hpast hstop
      · push Not at hskip
        rw [if_pos hskip.1] at hsince
        have hwaits : m.waitsSince k₀ ≠ 0 := hsince ▸ hskip.2
        have hage : sub64 now e.pendingSinceMs = now - m.waitsSince k₀ := by
          rw [sub64_of_le (hsince ▸ hpast k₀) hnow, hsince]
        rw [if_neg (by push Not; exact hskip), if_neg hwaits, if_neg hwaits, hage]
        by_cases hdue : now - m.waitsSince k₀ < kEtwPendingTimeoutMs
        · rw [if_pos hdue, if_pos hdue, if_pos hdue]
          exact ⟨rfl, rfl, fun k => hstop k _⟩
        · rw [if_neg hdue, if_neg hdue, if_neg hdue]
          -- the rest of the queue does not see what happens to its first key
          have hpast' : ∀ k, (m.timeOut k₀).waitsSince k ≤ now := by
            intro k
            rw [waitsSince_timeOut]
            split
            · exact Nat.zero_le _
            · exact hpast k
          have hsame : ∀ k ∈ q, (m.timeOut k₀).waitsSince k = m.waitsSince k := by
            intro k hk
            rw [waitsSince_timeOut, if_neg (fun hkk : k = k₀ => hk₀ (hkk ▸ hk))]
          have hcongr : fired kEtwPendingTimeoutMs now (m.timeOut k₀).waitsSince q
                = fired kEtwPendingTimeoutMs now m.waitsSince q ∧
              left kEtwPendingTimeoutMs now (m.timeOut k₀).waitsSince q
                = left kEtwPendingTimeoutMs now m.waitsSince q := TimeoutQueue.expire_congr hsame
          obtain ⟨hqueue, hcount, hlookup⟩ := ih (m := m.timeOut k₀) hq hpast' fun k f => by simp
          rw [hcongr.2] at hqueue
          rw [hcongr.1] at hcount hlookup
          refine ⟨hqueue, hcount.trans ?_, fun k => (hlookup k).trans ?_⟩
          · show m.s.etw.pendingExpired + 1 + _ = _
            rw [List.length_cons]
            omega
          · rw [lookup_timeOut]
            by_cases hk : k = k₀
            · have hnot : k ∉ fired kEtwPendingTimeoutMs now m.waitsSince q := fun hf => by
                rw [hk] at hf
                exact hk₀ ((TimeoutQueue.fired_append_left _ _ _ q).subset
                  (List.mem_append_left _ hf))
              rw [if_pos hk, Option.map_map]
              refine Option.map_congr fun e _ => ?_
              rw [if_pos (List.mem_cons.mpr (.inl hk))]
              exact if_neg hnot
            · rw [if_neg hk]
              simp only [List.mem_cons, hk, false_or]

/-- The queue of the model is a `TimeoutQueue`, and the tick looks at the clock. -/
theorem timeouts_expirePending {now : ℕ} (hnow : now < 2 ^ 64) {m : Model}
    (h : m.timeouts.Ordered now) :
    (expirePending now m.pendingQ m).timeouts = m.timeouts.expire kEtwPendingTimeoutMs now := by
  obtain ⟨hqueue, -, hlookup⟩ := expirePending_spec (q := m.pendingQ) hnow h.nodup h.past
  have hsince : (expirePending now m.pendingQ m).waitsSince
      = (m.timeouts.expire kEtwPendingTimeoutMs now).since := by
    funext k
    show _ = if k ∈ fired kEtwPendingTimeoutMs now m.waitsSince m.pendingQ then 0
      else m.waitsSince k
    cases he : m.etwObjs.lookup k with
    | none =>
      have hnone := hlookup k
      rw [he] at hnone
      rw [waitsSince_of_none hnone, waitsSince_of_none he, ite_self]
    | some e =>
      have hsome := hlookup k
      rw [he, Option.map_some] at hsome
      rw [waitsSince_of_some hsome, waitsSince_of_some he]
      split
      · exact ite_self _
      · rfl
  exact congrArg₂ TimeoutQueue.mk hsince hqueue

/-! ### The invariant -/

/-- What holds of the wait at a reading of the clock, when `ids` were reported and the objects
`late` timed out. -/
structure Timed (m : Model) (now : ℕ) (ids late : List ℕ) : Prop where
  ordered : m.timeouts.Ordered now
  /-- Whoever waits is unbound, and no orphan. -/
  free : ∀ k e, m.etwObjs.lookup k = some e → e.pendingSinceMs ≠ 0 → e.boundId = 0 ∧ e.orphanTs = 0
  /-- Whoever is queued took an address, and did not time out. -/
  placed : ∀ k ∈ m.pendingQ, ∀ e, m.etwObjs.lookup k = some e → e.address ≠ 0 ∧ e.expired = false
  known : ∀ k ∈ m.pendingQ, k ∈ ids
  count : m.s.etw.pendingExpired = late.length
  once : late.Nodup
  done : ∀ k ∈ late, k ∈ ids ∧ ∀ e, m.etwObjs.lookup k = some e → e.expired = true

variable {m n : Model} {now : ℕ} {ids late : List ℕ}

theorem Timed.waitsSince_eq (h : m.Timed now ids late) {k : ℕ} {e : EtwObj}
    (he : m.etwObjs.lookup k = some e) : m.waitsSince k = e.pendingSinceMs := by
  rw [waitsSince_of_some he]
  split
  · rfl
  · next hb =>
    by_contra hp
    exact hb (h.free k e he (Ne.symm hp)).1

/-- Time passes. -/
theorem Timed.mono (h : m.Timed now ids late) {now' : ℕ} (hnow : now ≤ now') :
    m.Timed now' ids late :=
  ⟨h.ordered.mono hnow, h.free, h.placed, h.known, h.count, h.once, h.done⟩

/-- Objects are reported. -/
theorem Timed.report (h : m.Timed now ids late) (new : List ℕ) : m.Timed now (ids ++ new) late :=
  ⟨h.ordered, h.free, h.placed, fun k hk => List.mem_append_left new (h.known k hk), h.count,
    h.once,
    fun k hk => ⟨List.mem_append_left new (h.done k hk).1, (h.done k hk).2⟩⟩

/-- The wait is in three fields. -/
theorem Timed.frame (h : m.Timed now ids late) (hobjs : n.etwObjs = m.etwObjs)
    (hqueue : n.pendingQ = m.pendingQ) (hcount : n.s.etw.pendingExpired = m.s.etw.pendingExpired) :
    n.Timed now ids late where
  ordered := by
    unfold timeouts
    rw [waitsSince_congr hobjs, hqueue]
    exact h.ordered
  free := by
    rw [hobjs]
    exact h.free
  placed := by
    rw [hobjs, hqueue]
    exact h.placed
  known := by
    rw [hqueue]
    exact h.known
  count := hcount.trans h.count
  once := h.once
  done := by
    rw [hobjs]
    exact h.done

/-- Some objects do not wait any more. -/
theorem Timed.rests (h : m.Timed now ids late) (hr : m.Rests n) : n.Timed now ids late := by
  have hfree : ∀ k e', n.etwObjs.lookup k = some e' → e'.pendingSinceMs ≠ 0 →
      e'.boundId = 0 ∧ e'.orphanTs = 0 ∧
        ∃ e, m.etwObjs.lookup k = some e ∧ e'.pendingSinceMs = e.pendingSinceMs := by
    intro k e' he' hp
    obtain ⟨e, he, heases⟩ := hr.objs k e' he'
    obtain ⟨hsame, hkeep⟩ := heases.pending hp
    obtain ⟨hb, ho⟩ := h.free k e he (hsame ▸ hp)
    exact ⟨(hkeep hb ho).1, (hkeep hb ho).2, e, he, hsame⟩
  have hsince : ∀ k, n.waitsSince k = 0 ∨ n.waitsSince k = m.waitsSince k := by
    intro k
    by_cases h0 : n.waitsSince k = 0
    · exact .inl h0
    · obtain ⟨e', he', -, hp⟩ := waitsSince_ne_zero h0
      obtain ⟨-, -, e, he, hsame⟩ := hfree k e' he' (hp ▸ h0)
      right
      rw [← hp, hsame, h.waitsSince_eq he]
  refine ⟨h.ordered.ease hsince ?_ fun k _ hk => ?_, fun k e' he' hp => ?_, fun k hk e' he' => ?_,
    fun k hk => ?_, hr.count.trans h.count, h.once, fun k hk => ⟨(h.done k hk).1, fun e' he' => ?_⟩⟩
  · show n.pendingQ.Sublist m.pendingQ
    rw [hr.queue]
  · show k ∈ n.pendingQ
    rw [hr.queue]
    exact hk
  · obtain ⟨hb, ho, -⟩ := hfree k e' he' hp
    exact ⟨hb, ho⟩
  · rw [hr.queue] at hk
    obtain ⟨e, he, heases⟩ := hr.objs k e' he'
    obtain ⟨ha, hx⟩ := h.placed k hk e he
    exact ⟨heases.address ha, heases.expired.trans hx⟩
  · rw [hr.queue] at hk
    exact h.known k hk
  · obtain ⟨e, he, heases⟩ := hr.objs k e' he'
    exact heases.expired.trans ((h.done k hk).2 e he)

/-- An object under a new id is stored, and does not wait yet. -/
theorem Timed.store (h : m.Timed now ids late) {libId : ℕ} (hnew : libId ∉ ids) {e : EtwObj}
    (hp : e.pendingSinceMs = 0) :
    (m.setEtwObjs (m.etwObjs.insert libId e)).Timed now ids late := by
  have hother : ∀ k, k ≠ libId → (m.setEtwObjs (m.etwObjs.insert libId e)).etwObjs.lookup k
      = m.etwObjs.lookup k := fun k hk => Finmap.lookup_insert_of_ne _ hk
  have hself : (m.setEtwObjs (m.etwObjs.insert libId e)).etwObjs.lookup libId = some e :=
    Finmap.lookup_insert _
  have hsince : ∀ k, (m.setEtwObjs (m.etwObjs.insert libId e)).waitsSince k = 0 ∨
      (m.setEtwObjs (m.etwObjs.insert libId e)).waitsSince k = m.waitsSince k := by
    intro k
    by_cases hk : k = libId
    · left
      rw [hk, waitsSince_of_some hself, hp, ite_self]
    · right
      unfold waitsSince
      rw [hother k hk]
  refine ⟨h.ordered.ease hsince (List.Sublist.refl _) fun k _ hk => hk, fun k e' he' hp' => ?_,
    fun k hk e' he' => ?_, h.known, h.count, h.once,
    fun k hk => ⟨(h.done k hk).1, fun e' he' => ?_⟩⟩
  · by_cases hk : k = libId
    · rw [hk, hself] at he'
      cases he'
      exact absurd hp hp'
    · rw [hother k hk] at he'
      exact h.free k e' he' hp'
  · -- nobody in the queue has a new id, and nobody who timed out
    rw [hother k fun hkk => hnew (hkk ▸ h.known k hk)] at he'
    exact h.placed k hk e' he'
  · rw [hother k fun hkk => hnew (hkk ▸ (h.done k hk).1)] at he'
    exact (h.done k hk).2 e' he'

/-- An object starts to wait that is not in the queue. -/
theorem Timed.queueUp (h : m.Timed now ids late) {key : ℕ} {e : EtwObj}
    (he : m.etwObjs.lookup key = some e) (hb : e.boundId = 0) (ho : e.orphanTs = 0)
    (ha : e.address ≠ 0) (hx : e.expired = false) (hid : key ∈ ids) (hq : key ∉ m.pendingQ) :
    (m.queueUp key now).Timed now ids late := by
  have hlookup : ∀ k, (m.queueUp key now).etwObjs.lookup k
      = if k = key then (m.etwObjs.lookup k).map (·.setPending now) else m.etwObjs.lookup k :=
    fun k => Finmap.lookup_modify _ _ _ _
  have hself : (m.queueUp key now).etwObjs.lookup key = some (e.setPending now) := by
    rw [hlookup, if_pos rfl, he]
    rfl
  have hother : ∀ k, k ≠ key → (m.queueUp key now).etwObjs.lookup k = m.etwObjs.lookup k :=
    fun k hk => by rw [hlookup, if_neg hk]
  have hordered : (m.queueUp key now).timeouts.Ordered now := by
    refine h.ordered.arm hq ?_ (fun k hk => ?_) rfl
    · show (m.queueUp key now).waitsSince key = now
      rw [waitsSince_of_some hself]
      exact if_pos hb
    · show (m.queueUp key now).waitsSince k = m.waitsSince k
      unfold waitsSince
      rw [hother k hk]
  refine ⟨hordered, fun k e' he' hp' => ?_, fun k hk e' he' => ?_, fun k hk => ?_, h.count, h.once,
    fun k hk => ⟨(h.done k hk).1, fun e' he' => ?_⟩⟩
  · by_cases hk : k = key
    · rw [hk, hself] at he'
      cases he'
      exact ⟨hb, ho⟩
    · rw [hother k hk] at he'
      exact h.free k e' he' hp'
  · by_cases hkk : k = key
    · rw [hkk, hself] at he'
      cases he'
      exact ⟨ha, hx⟩
    · rw [hother k hkk] at he'
      have hk : k ∈ m.pendingQ ++ [key] := hk
      rcases List.mem_append.mp hk with hk | hk
      · exact h.placed k hk e' he'
      · exact absurd (List.mem_singleton.mp hk) hkk
  · have hk : k ∈ m.pendingQ ++ [key] := hk
    rcases List.mem_append.mp hk with hk | hk
    · exact h.known k hk
    · rw [List.mem_singleton.mp hk]
      exact hid
  · by_cases hkk : k = key
    · rw [hkk] at hk
      rw [(h.done key hk).2 e he] at hx
      cases hx
    · rw [hother k hkk] at he'
      exact (h.done k hk).2 e' he'

/-- The keys that a tick at `now` finds to have timed out. -/
def timedOut (m : Model) (now : ℕ) : List ℕ :=
  fired kEtwPendingTimeoutMs now m.waitsSince m.pendingQ

/-- The tick moves the clock on and takes out who timed out. -/
theorem Timed.expire (h : m.Timed now ids late) (hnow : now < 2 ^ 64) :
    (expirePending now m.pendingQ m).Timed now ids (late ++ m.timedOut now) := by
  obtain ⟨hqueue, hcount, hlookup⟩ := expirePending_spec (q := m.pendingQ) hnow h.ordered.nodup
    h.ordered.past
  obtain ⟨hnodup, hfired⟩ := h.ordered.fired_nodup kEtwPendingTimeoutMs now
  have hleft : ∀ k ∈ (expirePending now m.pendingQ m).pendingQ,
      k ∈ m.pendingQ ∧ k ∉ m.timedOut now := by
    intro k hk
    rw [hqueue] at hk
    exact ⟨(TimeoutQueue.fired_append_left _ _ _ _).subset (List.mem_append_right _ hk),
      fun hf => (hfired k hf).2 hk⟩
  -- an object is the one from before, or it was taken out
  have hback : ∀ k e', (expirePending now m.pendingQ m).etwObjs.lookup k = some e' →
      ∃ e, m.etwObjs.lookup k = some e ∧
        e' = if k ∈ m.timedOut now then (e.setPending 0).setExpired else e := by
    intro k e' he'
    rw [hlookup] at he'
    obtain ⟨e, he, rfl⟩ := Option.map_eq_some_iff.mp he'
    exact ⟨e, he, rfl⟩
  refine ⟨?_, fun k e' he' hp => ?_, fun k hk e' he' => ?_, fun k hk => h.known k (hleft k hk).1,
    ?_, ?_, fun k hk => ?_⟩
  · rw [timeouts_expirePending hnow h.ordered]
    exact h.ordered.expire
  · obtain ⟨e, he, rfl⟩ := hback k e' he'
    by_cases hf : k ∈ m.timedOut now
    · rw [if_pos hf] at hp
      exact absurd rfl hp
    · rw [if_neg hf] at hp ⊢
      exact h.free k e he hp
  · obtain ⟨e, he, rfl⟩ := hback k e' he'
    obtain ⟨hmem, hnot⟩ := hleft k hk
    rw [if_neg hnot]
    exact h.placed k hmem e he
  · rw [hcount, h.count, List.length_append]
    rfl
  · refine h.once.append hnodup fun k hk hf => ?_
    -- whoever times out now has not done so before
    obtain ⟨e, he, -, -⟩ := waitsSince_ne_zero (TimeoutQueue.due_of_fired hf).1
    have hx := (h.placed k (hfired k hf).1 e he).2
    rw [(h.done k hk).2 e he] at hx
    cases hx
  · rcases List.mem_append.mp hk with hk | hk
    · refine ⟨(h.done k hk).1, fun e' he' => ?_⟩
      obtain ⟨e, he, rfl⟩ := hback k e' he'
      split
      · rfl
      · exact (h.done k hk).2 e he
    · refine ⟨h.known k (hfired k hk).1, fun e' he' => ?_⟩
      obtain ⟨e, -, rfl⟩ := hback k e' he'
      rw [if_pos hk]
      rfl

/-! ### One call -/

theorem timed_onDestroyed (hinv : m.join.Inv) (h : m.Timed now ids late) (ts : ℕ)
    (p : DestroyedPayload) : (m.onDestroyed ts p).Timed now ids late := by
  rcases m.onDestroyed_timers ts p with hrest | ⟨o, n, ho, hn, hrest⟩
  · exact h.rests hrest
  · have hlive : m.join.live p.id = some o.noLoc := by rw [join_live, ho]; rfl
    have hid := hinv.index.live_id hlive
    have hburied : (n.forgetOccupant o ts).Timed now ids late := by
      refine (h.rests hn).frame ?_ ?_ ?_ <;>
      · unfold forgetOccupant
        split
        · rfl
        · dsimp only
          split <;> rfl
    have horphan : (n.forgetOccupant o ts).Rests
        ((n.forgetOccupant o ts).orphanBound p.id o ts) :=
      (Rests.refl _).orphanBound p.id (fun h0 => hid.2 (hid.1.symm.trans h0)) ts
    exact hburied.rests (horphan.trans hrest)

theorem timed_onEtwObjectCreated (h : m.Timed now ids late) {libId : ℕ} (hnew : libId ∉ ids)
    (ts : ℤ) (type : ObjType) (size : ℕ) (group : Group) :
    (m.onEtwObjectCreated ts libId type size group).Timed now ids late := by
  rcases m.onEtwObjectCreated_timers ts libId type size group with
    hrest | ⟨n, e, hn, -, hp, -, hrest⟩
  · exact h.rests hrest
  · exact ((h.rests hn).store hnew hp).rests hrest

/-- **Nobody is queued twice.**  Who takes an address was not queued before; and the owner of an
address does not begin to wait when a re-report is merged into it. -/
theorem timed_onEtwObjectAddress (hinv : m.join.Inv) (hw : m.Watched ∅)
    (h : m.Timed now ids late) (hstored : ∀ k e, m.etwObjs.lookup k = some e → k ∈ ids)
    {env : Env} (hnow : now ≤ env.nowMs) (hpos : 1 ≤ env.nowMs) (libId address : ℕ) :
    (m.onEtwObjectAddress env libId address).Timed env.nowMs ids late := by
  have h := h.mono hnow
  rcases m.onEtwObjectAddress_timers env libId address with
    hrest | ⟨n, key, e, hn, he, hb, ho, ha, hp, hx, hwait, htake | hfold⟩
  · exact h.rests hrest
  · obtain ⟨e₀, he₀, hz⟩ := htake
    have hq : key ∉ n.pendingQ := by
      rw [hn.queue]
      exact fun hq => (h.placed key hq e₀ he₀).1 hz
    rw [hwait, if_pos (by omega)]
    exact (h.rests hn).queueUp he hb ho ha hx (hstored key e₀ he₀) hq
  · obtain ⟨lib, e', old, hfind, hz, hown, hne, hold, ht, rfl⟩ := hfold
    obtain ⟨-, old', hold', haddr⟩ := hinv.index.byAddr hown
    rw [join_etw, hold] at hold'
    cases hold'
    have haddr : old.address = address := haddr
    have habsorbed := absorbed_merged hinv (findEtw_some hfind).2 hz hold hne (haddr ▸ hown)
    have hwatched : (m.merged lib e' key old).Watched ∅ :=
      hw.calm ((Calm.refl m).merged lib e' key old)
    exact absurd ⟨e, he, hb, ho, ht, hp, hx⟩
      (hwatched old.address key (Set.notMem_empty key) habsorbed.owner)

/-- The object under `k` is found to have waited long enough. -/
def Overdue (m : Model) (x : Step) (k : ℕ) : Prop :=
  ∃ env st e, x = .tick env st ∧ m.etwObjs.lookup k = some e ∧ e.pendingSinceMs ≠ 0 ∧
    e.pendingSinceMs + kEtwPendingTimeoutMs ≤ env.nowMs

theorem forgetDead_wait (nowTs : ℕ) (q : List (ℕ × ℕ)) (m : Model) :
    (forgetDead nowTs q m).etwObjs = m.etwObjs ∧ (forgetDead nowTs q m).pendingQ = m.pendingQ ∧
      (forgetDead nowTs q m).s = m.s := by
  induction q generalizing m with
  | nil => exact ⟨rfl, rfl, rfl⟩
  | cons x q ih =>
    obtain ⟨ts, p⟩ := x
    unfold forgetDead
    split
    · dsimp only
      split
      · exact ih m
      · exact ih _
    · exact ⟨rfl, rfl, rfl⟩

/-- The tick moves the clock on, takes out who timed out, and leaves nobody who is due. -/
theorem timed_etwTick (hetw : m.etwEnabled = true) (h : m.Timed now ids late) {env : Env}
    (hnow : now ≤ env.nowMs) (hfits : env.nowMs < 2 ^ 64) (st : Stats) :
    (∃ new, (m.etwTick env st).Timed env.nowMs ids (late ++ new) ∧
      ∀ k ∈ new, m.Overdue (.tick env st) k) ∧
    ∀ k e, (m.etwTick env st).etwObjs.lookup k = some e → e.pendingSinceMs ≠ 0 →
      env.nowMs < e.pendingSinceMs + kEtwPendingTimeoutMs := by
  have h := h.mono hnow
  rcases m.etwTick_timers env st with ⟨hoff, -⟩ | ⟨n, hn, hrest⟩
  · rw [hetw] at hoff
    cases hoff
  · have hn' := h.rests hn
    obtain ⟨hobjs, hqueue, hs⟩ := forgetDead_wait (m.nowTsLocked env)
      (expirePending env.nowMs n.pendingQ n).destroyHist (expirePending env.nowMs n.pendingQ n)
    have hexpired := (hn'.expire hfits).frame hobjs hqueue (by rw [hs])
    refine ⟨⟨n.timedOut env.nowMs, hexpired.rests hrest, fun k hk => ?_⟩, fun k e he hp => ?_⟩
    · obtain ⟨harmed, hdue⟩ := TimeoutQueue.due_of_fired hk
      obtain ⟨e', he', -, hp'⟩ := waitsSince_ne_zero harmed
      obtain ⟨e, he, heases⟩ := hn.objs k e' he'
      have hsame := (heases.pending (hp' ▸ harmed)).1
      have htimeout : 0 < kEtwPendingTimeoutMs := by decide
      exact ⟨env, st, e, rfl, he, by omega, by omega⟩
    · -- whoever waits after the tick was not due
      obtain ⟨e', he', heases⟩ := hrest.objs k e he
      have hsame := (heases.pending hp).1
      have hafter := hexpired.waitsSince_eq he'
      rw [waitsSince_congr hobjs] at hafter
      have hqueue := timeouts_expirePending hfits hn'.ordered
      have hwait :
          (n.timeouts.expire kEtwPendingTimeoutMs env.nowMs).since k = e.pendingSinceMs := by
        rw [← hqueue, hsame]
        exact hafter
      have hnot := hn'.ordered.not_due (k := k) (by rw [hwait]; exact hp)
      rw [hwait] at hnot
      omega

/-- **One call keeps the invariant.** -/
theorem timed_step (hetw : m.etwEnabled = true) (hinv : m.join.Inv) (hw : m.Watched ∅)
    (h : m.Timed now ids late) (hstored : ∀ k e, m.etwObjs.lookup k = some e → k ∈ ids) {x : Step}
    (hclock : ∀ t, x.clockMs = some t → now ≤ t ∧ 1 ≤ t ∧ t < 2 ^ 64)
    (hnew : ∀ k, x.libId = some k → k ∉ ids) :
    ∃ new, (m.step x).Timed (x.clockMs.getD now) (ids ++ x.libId.toList) (late ++ new) ∧
      ∀ k ∈ new, m.Overdue x k := by
  -- but for the tick nobody times out
  have none_over : ∀ {m' : Model} {now' : ℕ} {ids' : List ℕ}, m'.Timed now' ids' late →
      ∃ new, m'.Timed now' ids' (late ++ new) ∧ ∀ k ∈ new, m.Overdue x k := by
    intro m' now' ids' h'
    refine ⟨[], ?_, fun k hk => by cases hk⟩
    rw [List.append_nil]
    exact h'
  by_cases hx : x.turnsTimers = false
  · have hrest := h.rests (m.rests_step hx)
    cases x with
    | objectCreated ts libId type size group => cases hx
    | objectAddress env libId address => cases hx
    | tick env st => cases hx
    | _ => exact none_over (hrest.report [])
  · cases x with
    | event ts r =>
      cases r with
      | destroyed p =>
        have hlatest : (m.setLatestNs ts).Timed now ids late := h.frame rfl rfl rfl
        have hinv' : (m.setLatestNs ts).join.Inv := hinv
        exact none_over ((timed_onDestroyed hinv' hlatest ts p).report [])
      | _ => exact absurd rfl hx
    | objectCreated ts libId type size group =>
      exact none_over ((timed_onEtwObjectCreated h (hnew libId rfl) ts type size group).report _)
    | objectAddress env libId address =>
      obtain ⟨hnow, hpos, -⟩ := hclock env.nowMs rfl
      exact none_over
        ((timed_onEtwObjectAddress hinv hw h hstored hnow hpos libId address).report [])
    | tick env st =>
      obtain ⟨hnow, -, hfits⟩ := hclock env.nowMs rfl
      obtain ⟨⟨new, htimed, hlate⟩, -⟩ := timed_etwTick hetw h hnow hfits st
      exact ⟨new, htimed.report [], hlate⟩
    | _ => exact absurd rfl hx

/-! ### How a wait begins -/

/-- In `m'` nobody waits who has not waited in `m`. -/
def Continues (m m' : Model) : Prop :=
  ∀ k e', m'.etwObjs.lookup k = some e' → e'.pendingSinceMs ≠ 0 →
    ∃ e, m.etwObjs.lookup k = some e ∧ e.pendingSinceMs = e'.pendingSinceMs

theorem Continues.trans {m m' m'' : Model} (h : m.Continues m') (h' : m'.Continues m'') :
    m.Continues m'' := by
  intro k e'' he'' hp
  obtain ⟨e', he', hsame'⟩ := h' k e'' he'' hp
  obtain ⟨e, he, hsame⟩ := h k e' he' (hsame' ▸ hp)
  exact ⟨e, he, hsame.trans hsame'⟩

theorem Rests.continues (h : m.Rests n) : m.Continues n := by
  intro k e' he' hp
  obtain ⟨e, he, heases⟩ := h.objs k e' he'
  exact ⟨e, he, ((heases.pending hp).1).symm⟩

theorem continues_of_frame {m m' : Model} (h : m'.etwObjs = m.etwObjs) : m.Continues m' :=
  fun _ e' he' _ => ⟨e', h ▸ he', rfl⟩

theorem continues_orphanBound (m : Model) (id : ℕ) (o : LiveObject) (ts : ℕ) :
    m.Continues (m.orphanBound id o ts) := by
  intro k e' he' hp
  unfold orphanBound at he'
  split at he'
  · exact ⟨e', he', rfl⟩
  · dsimp only at he'
    split at he'
    · exact ⟨e', he', rfl⟩
    · split at he'
      · unfold updLive setLive updEtw setEtwObjs at he'
        dsimp only at he'
        rw [Finmap.lookup_modify] at he'
        split at he'
        · obtain ⟨e, he, rfl⟩ := Option.map_eq_some_iff.mp he'
          exact ⟨e, he, rfl⟩
        · exact ⟨e', he', rfl⟩
      · exact ⟨e', he', rfl⟩

theorem continues_expirePending (nowMs : ℕ) (q : List ℕ) (m : Model) :
    m.Continues (expirePending nowMs q m) := by
  induction q generalizing m with
  | nil => exact continues_of_frame rfl
  | cons k q ih =>
    unfold expirePending
    split
    · exact ih m
    · split
      · exact ih m
      · split
        · exact continues_of_frame rfl
        · have hmarked : m.Continues (m.timeOut k) := by
            intro k' e' he' hp
            rw [lookup_timeOut] at he'
            split at he'
            · obtain ⟨e, -, rfl⟩ := Option.map_eq_some_iff.mp he'
              exact absurd rfl hp
            · exact ⟨e', he', rfl⟩
          exact hmarked.trans (ih _)

/-- **A wait begins with an address**, at the reading of the clock there. -/
theorem pending_step (m : Model) {x : Step} (hpos : ∀ t, x.clockMs = some t → 1 ≤ t) {k : ℕ}
    {e' : EtwObj} (he' : (m.step x).etwObjs.lookup k = some e') (hp : e'.pendingSinceMs ≠ 0) :
    (∃ e, m.etwObjs.lookup k = some e ∧ e.pendingSinceMs = e'.pendingSinceMs) ∨
      x.clockMs = some e'.pendingSinceMs := by
  by_cases hx : x.turnsTimers = false
  · exact .inl ((m.rests_step hx).continues k e' he' hp)
  · cases x with
    | event ts r =>
      cases r with
      | destroyed p =>
        left
        have hcont : (m.setLatestNs ts).Continues ((m.setLatestNs ts).onDestroyed ts p) := by
          rcases (m.setLatestNs ts).onDestroyed_timers ts p with hrest | ⟨o, n, -, hn, hrest⟩
          · exact hrest.continues
          · have hbury : n.Continues (n.forgetOccupant o ts) := by
              refine continues_of_frame ?_
              unfold forgetOccupant
              split
              · rfl
              · dsimp only
                split <;> rfl
            exact ((hn.continues.trans hbury).trans (continues_orphanBound _ p.id o ts)).trans
              hrest.continues
        exact hcont k e' he' hp
      | _ => exact absurd rfl hx
    | objectCreated ts libId type size group =>
      left
      rcases m.onEtwObjectCreated_timers ts libId type size group with
        hrest | ⟨n, e, hn, -, hp0, -, hrest⟩
      · exact hrest.continues k e' he' hp
      · obtain ⟨e₁, he₁, hsame⟩ := hrest.continues k e' he' hp
        have he₁ : (n.etwObjs.insert libId e).lookup k = some e₁ := he₁
        rw [Finmap.lookup_insert_eq] at he₁
        split at he₁
        · cases he₁
          exact absurd (hsame.symm.trans hp0) hp
        · obtain ⟨e₀, he₀, hsame₀⟩ := hn.continues k e₁ he₁ (hsame ▸ hp)
          exact ⟨e₀, he₀, hsame₀.trans hsame⟩
    | objectAddress env libId address =>
      rcases m.onEtwObjectAddress_timers env libId address with
        hrest | ⟨n, key, e, hn, -, -, -, -, -, -, hwait, -⟩
      · exact .inl (hrest.continues k e' he' hp)
      · have hnow := hpos env.nowMs rfl
        have he' : (m.onEtwObjectAddress env libId address).etwObjs.lookup k = some e' := he'
        rw [hwait, if_pos (by omega)] at he'
        have he' : (n.etwObjs.modify key (·.setPending env.nowMs)).lookup k = some e' := he'
        rw [Finmap.lookup_modify] at he'
        split at he'
        · obtain ⟨e₁, -, rfl⟩ := Option.map_eq_some_iff.mp he'
          exact .inr rfl
        · exact .inl (hn.continues k e' he' hp)
    | tick env st =>
      left
      rcases m.etwTick_timers env st with ⟨-, hsame⟩ | ⟨n, hn, hrest⟩
      · exact ⟨e', hsame ▸ he', rfl⟩
      · have hforget := continues_of_frame (forgetDead_wait (m.nowTsLocked env)
          (expirePending env.nowMs n.pendingQ n).destroyHist
          (expirePending env.nowMs n.pendingQ n)).1
        exact (((hn.continues.trans (continues_expirePending _ _ n)).trans hforget).trans
          hrest.continues) k e' he' hp
    | _ => exact absurd rfl hx

/-! ### Runs -/

/-- The object under `k` has waited since the reading `p`, unbound and unmatched. -/
def Waiting (m : Model) (k p : ℕ) : Prop :=
  ∃ e, m.etwObjs.lookup k = some e ∧ e.boundId = 0 ∧ e.orphanTs = 0 ∧ e.pendingSinceMs = p

/-- In the run `xs` a call that read the clock at `p` made the object under `k` wait, and it has
waited in every state since. -/
def WaitedSince (m₀ : Model) (xs : List Step) (k p : ℕ) : Prop :=
  ∃ us y ys, xs = us ++ y :: ys ∧ y.clockMs = some p ∧
    ∀ zs, zs <+: ys → (m₀.after (us ++ y :: zs)).Waiting k p

/-- In the run `xs` the object under `k` waited until a tick that read the clock
`kEtwPendingTimeoutMs` later, or more. -/
def WaitedOut (m₀ : Model) (xs : List Step) (k : ℕ) : Prop :=
  ∃ us env st vs p, xs = us ++ .tick env st :: vs ∧ p ≠ 0 ∧
    p + kEtwPendingTimeoutMs ≤ env.nowMs ∧ m₀.WaitedSince us k p

variable {m₀ : Model} {xs : List Step}

/-- A wait goes on. -/
theorem WaitedSince.concat {k p : ℕ} (h : m₀.WaitedSince xs k p) {x : Step}
    (hx : (m₀.after (xs ++ [x])).Waiting k p) : m₀.WaitedSince (xs ++ [x]) k p := by
  obtain ⟨us, y, ys, rfl, hy, hzs⟩ := h
  refine ⟨us, y, ys ++ [x], by simp, hy, fun zs hpre => ?_⟩
  rcases List.prefix_concat_iff.mp hpre with rfl | hpre
  · simpa using hx
  · exact hzs zs hpre

/-- A wait begins. -/
theorem waitedSince_last {k p : ℕ} {x : Step} (hclock : x.clockMs = some p)
    (hx : (m₀.after (xs ++ [x])).Waiting k p) : m₀.WaitedSince (xs ++ [x]) k p := by
  refine ⟨xs, x, [], rfl, hclock, fun zs hpre => ?_⟩
  rw [List.prefix_nil.mp hpre]
  exact hx

theorem WaitedOut.concat {k : ℕ} (h : m₀.WaitedOut xs k) (x : Step) :
    m₀.WaitedOut (xs ++ [x]) k := by
  obtain ⟨us, env, st, vs, p, rfl, hp, hlate, hsince⟩ := h
  exact ⟨us, env, st, vs ++ [x], p, by simp, hp, hlate, hsince⟩

theorem watched_after (etw : EtwOptions) (xs : List Step) (ht : TrackerIdsFresh xs)
    (hl : LibIdsFresh xs) : ((start etw).after xs).Watched ∅ := by
  induction xs using List.reverseRecOn with
  | nil =>
    intro a k _ hk
    have hnone : (∅ : Table ℕ ℕ).lookup a = some k := hk
    rw [Finmap.lookup_empty] at hnone
    cases hnone
  | append_singleton xs x ih =>
    rw [after_concat]
    refine watched_step (etwEnabled_start etw xs) (inv_after etw xs ht.of_append hl.of_append)
      (ih ht.of_append hl.of_append) x fun id hid => ?_
    obtain ⟨h0, hnew⟩ := ht.last hid
    refine ⟨h0, ?_⟩
    by_contra hsome
    exact hnew (createdIds_of_live (fun _ => rfl) xs (Option.isSome_iff_ne_none.mpr hsome))

theorem timed_start (etw : EtwOptions) : (start etw).Timed 0 [] [] := by
  have hnone : ∀ k, (start etw).etwObjs.lookup k = none := fun k => Finmap.lookup_empty k
  have hzero : ∀ k, (start etw).waitsSince k = 0 := fun k => waitsSince_of_none (hnone k)
  refine ⟨⟨fun k hk => absurd (hzero k) hk, List.nodup_nil, List.Pairwise.nil,
    fun k => Nat.le_of_eq (hzero k)⟩, fun k e he => ?_, fun k hk => absurd hk List.not_mem_nil,
    fun k hk => absurd hk List.not_mem_nil, rfl, List.nodup_nil,
    fun k hk => absurd hk List.not_mem_nil⟩
  rw [hnone k] at he
  cases he

/-- **The invariant holds after every run**, and whoever timed out has waited that long. -/
theorem timed_after (etw : EtwOptions) (xs : List Step) (ht : TrackerIdsFresh xs)
    (hl : LibIdsFresh xs) (hc : ClockRuns xs) :
    (∃ late, ((start etw).after xs).Timed (lastReading xs) (libIds xs) late ∧
      ∀ k ∈ late, (start etw).WaitedOut xs k) ∧
    ∀ k e, ((start etw).after xs).etwObjs.lookup k = some e → e.pendingSinceMs ≠ 0 →
      (start etw).WaitedSince xs k e.pendingSinceMs := by
  induction xs using List.reverseRecOn with
  | nil =>
    refine ⟨⟨[], timed_start etw, fun k hk => by cases hk⟩, fun k e he => ?_⟩
    have hnone : (∅ : Table ℕ EtwObj).lookup k = some e := he
    rw [Finmap.lookup_empty] at hnone
    cases hnone
  | append_singleton xs x ih =>
    obtain ⟨⟨late, htimed, hout⟩, hsince⟩ := ih ht.of_append hl.of_append hc.of_append
    have hlast : ∀ t, x.clockMs = some t → lastReading xs ≤ t ∧ 1 ≤ t ∧ t < 2 ^ 64 :=
      fun t ht => hc.last ht
    obtain ⟨new, htimed', hnew⟩ := timed_step (etwEnabled_start etw xs)
      (inv_after etw xs ht.of_append hl.of_append) (watched_after etw xs ht.of_append hl.of_append)
      htimed (fun k e he => libIds_of_etw etw xs he) hlast
      fun k hk => (hl.last hk).2
    rw [← after_concat, ← lastReading_concat] at htimed'
    have hids : libIds (xs ++ [x]) = libIds xs ++ x.libId.toList := by
      rw [libIds_append]
      cases h : x.libId <;> simp [libIds, h]
    rw [← hids] at htimed'
    refine ⟨⟨late ++ new, htimed', fun k hk => ?_⟩, fun k e' he' hp => ?_⟩
    · rcases List.mem_append.mp hk with hk | hk
      · exact (hout k hk).concat x
      · obtain ⟨env, st, e, rfl, he, hp, hdue⟩ := hnew k hk
        exact ⟨xs, env, st, [], e.pendingSinceMs, rfl, hp, hdue, hsince k e he hp⟩
    · obtain ⟨hb, ho⟩ := htimed'.free k e' he' hp
      have hwaiting : ((start etw).after (xs ++ [x])).Waiting k e'.pendingSinceMs :=
        ⟨e', he', hb, ho, rfl⟩
      rw [after_concat] at he'
      rcases pending_step _ (fun t ht => (hlast t ht).2.1) he' hp with ⟨e, he, hsame⟩ | hclock
      · exact (hsame ▸ hsince k e he (hsame ▸ hp)).concat hwaiting
      · exact waitedSince_last hclock hwaiting

/-- **The timeout is exact.**  With a millisecond clock that does not go back, in every state of a
run with `--etw` the queue holds every object that waits, each key once and those that wait in the
order in which they began; after a tick nobody waits who is due; and `pendingExpired` counts each
object once at most, and only objects that waited, unbound and unmatched, for the whole timeout. -/
theorem pending_exact (etw : EtwOptions) (xs : List Step) (ht : TrackerIdsFresh xs)
    (hl : LibIdsFresh xs) (hc : ClockRuns xs) :
    let m := (start etw).after xs
    (∀ k e, m.etwObjs.lookup k = some e → e.pendingSinceMs ≠ 0 → k ∈ m.pendingQ) ∧
    m.pendingQ.Nodup ∧
    (m.pendingQ.Pairwise fun a b => ∀ e e', m.etwObjs.lookup a = some e →
      m.etwObjs.lookup b = some e' → e.pendingSinceMs ≠ 0 → e'.pendingSinceMs ≠ 0 →
        e.pendingSinceMs ≤ e'.pendingSinceMs) ∧
    (∀ env st, ClockRuns (xs ++ [.tick env st]) → ∀ k e,
      (m.step (.tick env st)).etwObjs.lookup k = some e → e.pendingSinceMs ≠ 0 →
        env.nowMs < e.pendingSinceMs + kEtwPendingTimeoutMs) ∧
    ∃ ks : List ℕ, ks.Nodup ∧ ks.length = m.s.etw.pendingExpired ∧
      ∀ k ∈ ks, k ∈ libIds xs ∧ (start etw).WaitedOut xs k := by
  obtain ⟨⟨late, htimed, hout⟩, -⟩ := timed_after etw xs ht hl hc
  refine ⟨fun k e he hp => ?_, htimed.ordered.nodup, ?_, fun env st hc' k e he hp => ?_,
    late, htimed.once, htimed.count.symm, fun k hk => ⟨(htimed.done k hk).1, hout k hk⟩⟩
  · exact htimed.ordered.queued k (by rw [← htimed.waitsSince_eq he] at hp; exact hp)
  · refine htimed.ordered.sorted.imp fun {a b} hab e e' he he' hp hp' => ?_
    rw [← htimed.waitsSince_eq he] at hp ⊢
    rw [← htimed.waitsSince_eq he'] at hp' ⊢
    exact hab hp hp'
  · obtain ⟨hnow, -, hfits⟩ := hc'.last (x := .tick env st) rfl
    exact (timed_etwTick (etwEnabled_start etw xs) htimed hnow hfits st).2 k e he hp

/-- Two resources without a tracked object; the first tick comes ten seconds after the first. -/
def overdueRun : List Step :=
  [.objectCreated 0 7 .resource 0 .local, .objectAddress { nowMs := 5 } 7 4096,
    .objectCreated 0 8 .resource 0 .local, .objectAddress { nowMs := 6 } 8 8192,
    .tick { nowMs := 10005 } {}]

/-- The first of them times out, the second waits on. -/
theorem pending_exact_overdueRun :
    let m := (start ⟨true, [], [], 5000⟩).after overdueRun
    m.pendingQ = [8] ∧ m.s.etw.pendingExpired = 1 ∧
      (∃ ks : List ℕ, ks.Nodup ∧ ks.length = m.s.etw.pendingExpired ∧
        ∀ k ∈ ks, k ∈ libIds overdueRun ∧ (start ⟨true, [], [], 5000⟩).WaitedOut overdueRun k) ∧
      ∀ k e, (m.step (.tick { nowMs := 10006 } {})).etwObjs.lookup k = some e →
        e.pendingSinceMs ≠ 0 → 10006 < e.pendingSinceMs + kEtwPendingTimeoutMs := by
  obtain ⟨-, -, -, hdue, hcount⟩ := pending_exact ⟨true, [], [], 5000⟩ overdueRun (by decide)
    (by decide) (by decide)
  exact ⟨by decide, by decide, hcount, hdue { nowMs := 10006 } {} (by decide)⟩

end Model

end Dx12Track
