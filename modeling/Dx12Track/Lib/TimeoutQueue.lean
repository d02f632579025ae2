import Mathlib.Data.List.Nodup

/-!
# Timeouts in a queue

A key is armed at a reading of a clock and times out when the clock has moved on
by a given span.  The armed keys stand in a queue, in the order in which they were
armed.  A key that is disarmed early stays in the queue and is skipped when it
comes to the front, so that the keys which are due are found from the front, up to
the first one that is armed and not due.

* `TimeoutQueue` — the armed keys and their queue.
* `fired`, `left` — what a look at the clock takes off the front, and leaves.
* `Ordered` — **the invariant**: every armed key is queued, once, and in order.
* `Ordered.arm`, `Ordered.ease`, `Ordered.expire` — the operations keep it.
* `Ordered.not_due` — **after a look at the clock no armed key is due**.
-/

structure TimeoutQueue (κ : Type*) where
  /-- The reading at which a key was armed, 0 if it is not armed. -/
  since : κ → ℕ
  queue : List κ

namespace TimeoutQueue

variable {κ : Type*}

/-! ### A look at the clock -/

section Expire

variable (timeout now : ℕ) (since : κ → ℕ)

/-- The keys that time out. -/
def fired : List κ → List κ
  | [] => []
  | k :: ks =>
    if since k = 0 then fired ks
    else if now - since k < timeout then []
    else k :: fired ks

/-- The queue that is left. -/
def left : List κ → List κ
  | [] => []
  | k :: ks =>
    if since k = 0 then left ks
    else if now - since k < timeout then k :: ks
    else left ks

theorem fired_append_left (ks : List κ) :
    (fired timeout now since ks ++ left timeout now since ks).Sublist ks := by
  induction ks with
  | nil => exact List.Sublist.refl []
  | cons k ks ih =>
    unfold fired left
    split
    · exact ih.cons k
    · split
      · exact List.Sublist.refl _
      · exact ih.cons_cons k

variable {timeout now since}

/-- Only the readings of the queued keys matter. -/
theorem expire_congr {since' : κ → ℕ} {ks : List κ} (h : ∀ k ∈ ks, since' k = since k) :
    fired timeout now since' ks = fired timeout now since ks ∧
      left timeout now since' ks = left timeout now since ks := by
  induction ks with
  | nil => exact ⟨rfl, rfl⟩
  | cons k ks ih =>
    obtain ⟨hfired, hleft⟩ := ih fun k' hk' => h k' (List.mem_cons_of_mem k hk')
    unfold fired left
    rw [h k List.mem_cons_self, hfired, hleft]
    exact ⟨rfl, rfl⟩

/-- A key times out only if it is armed, and due. -/
theorem due_of_fired {k : κ} {ks : List κ} (h : k ∈ fired timeout now since ks) :
    since k ≠ 0 ∧ timeout ≤ now - since k := by
  induction ks with
  | nil => cases h
  | cons k' ks ih =>
    unfold fired at h
    split at h
    · exact ih h
    · next harmed =>
      split at h
      · cases h
      · next hdue =>
        rcases List.mem_cons.mp h with rfl | h
        · exact ⟨harmed, Nat.le_of_not_lt hdue⟩
        · exact ih h

/-- An armed key of the queue times out, or is left. -/
theorem fired_or_left {k : κ} {ks : List κ} (h : k ∈ ks) (harmed : since k ≠ 0) :
    k ∈ fired timeout now since ks ∨ k ∈ left timeout now since ks := by
  induction ks with
  | nil => cases h
  | cons k' ks ih =>
    unfold fired left
    rcases List.mem_cons.mp h with rfl | h
    · rw [if_neg harmed, if_neg harmed]
      split
      · exact .inr List.mem_cons_self
      · exact .inl List.mem_cons_self
    · split
      · exact ih h
      · split
        · exact .inr (List.mem_cons_of_mem k' h)
        · exact (ih h).imp (List.mem_cons_of_mem k') id

/-- In an ordered queue, what is left is not due: the search stopped at an older key. -/
theorem not_due_of_left {k : κ} {ks : List κ}
    (hsorted : ks.Pairwise fun a b => since a ≠ 0 → since b ≠ 0 → since a ≤ since b)
    (h : k ∈ left timeout now since ks) (harmed : since k ≠ 0) : now - since k < timeout := by
  induction ks with
  | nil => cases h
  | cons k' ks ih =>
    obtain ⟨hk', hsorted⟩ := List.pairwise_cons.mp hsorted
    unfold left at h
    split at h
    · exact ih hsorted h
    · next harmed' =>
      split at h
      · next hnot =>
        rcases List.mem_cons.mp h with rfl | h
        · exact hnot
        · have := hk' k h harmed' harmed
          omega
      · exact ih hsorted h

end Expire

/-- The queue after a look at the clock. -/
def expire [DecidableEq κ] (q : TimeoutQueue κ) (timeout now : ℕ) : TimeoutQueue κ where
  since k := if k ∈ fired timeout now q.since q.queue then 0 else q.since k
  queue := left timeout now q.since q.queue

/-! ### The invariant -/

/-- Every armed key is queued, once, and the armed keys in the order of their readings, none of
which is later than `now`. -/
structure Ordered (q : TimeoutQueue κ) (now : ℕ) : Prop where
  queued : ∀ k, q.since k ≠ 0 → k ∈ q.queue
  nodup : q.queue.Nodup
  sorted : q.queue.Pairwise fun a b => q.since a ≠ 0 → q.since b ≠ 0 → q.since a ≤ q.since b
  past : ∀ k, q.since k ≤ now

variable {q q' : TimeoutQueue κ} {now now' : ℕ}

theorem Ordered.mono (h : q.Ordered now) (hle : now ≤ now') : q.Ordered now' :=
  ⟨h.queued, h.nodup, h.sorted, fun k => Nat.le_trans (h.past k) hle⟩

/-- Some keys are disarmed, and some are taken off the queue that are not armed. -/
theorem Ordered.ease (h : q.Ordered now) (hsince : ∀ k, q'.since k = 0 ∨ q'.since k = q.since k)
    (hqueue : q'.queue.Sublist q.queue)
    (hkept : ∀ k, q'.since k ≠ 0 → k ∈ q.queue → k ∈ q'.queue) : q'.Ordered now := by
  have hback : ∀ {k}, q'.since k ≠ 0 → q'.since k = q.since k :=
    fun {k} hk => (hsince k).resolve_left hk
  refine ⟨fun k hk => hkept k hk (h.queued k (hback hk ▸ hk)), h.nodup.sublist hqueue, ?_, ?_⟩
  · refine (h.sorted.sublist hqueue).imp fun {a b} hab ha hb => ?_
    rw [hback ha, hback hb]
    exact hab (hback ha ▸ ha) (hback hb ▸ hb)
  · intro k
    rcases hsince k with hk | hk
    · omega
    · exact hk ▸ h.past k

/-- A key that is not in the queue is armed now. -/
theorem Ordered.arm (h : q.Ordered now) {k : κ} (hk : k ∉ q.queue)
    (hsince : q'.since k = now) (hother : ∀ k', k' ≠ k → q'.since k' = q.since k')
    (hqueue : q'.queue = q.queue ++ [k]) : q'.Ordered now := by
  have hold : ∀ {k'}, k' ∈ q.queue → q'.since k' = q.since k' :=
    fun {k'} hk' => hother k' fun hkk => hk (hkk ▸ hk')
  have hpast : ∀ k', q'.since k' ≤ now := by
    intro k'
    by_cases hkk : k' = k
    · exact Nat.le_of_eq (hkk ▸ hsince)
    · rw [hother k' hkk]
      exact h.past k'
  refine ⟨fun k' hk' => ?_, ?_, ?_, hpast⟩
  · rw [hqueue, List.mem_append, List.mem_singleton]
    by_cases hkk : k' = k
    · exact .inr hkk
    · exact .inl (h.queued k' (hother k' hkk ▸ hk'))
  · rw [hqueue]
    exact h.nodup.append (List.nodup_singleton k) (by simpa using hk)
  · rw [hqueue, List.pairwise_append]
    refine ⟨?_, List.pairwise_singleton _ _, ?_⟩
    · refine h.sorted.imp_of_mem fun {a b} ha hb hab => ?_
      rw [hold ha, hold hb]
      exact hab
    · -- the new key comes last, and its reading is the last one
      intro a _ b hb _ _
      rw [List.mem_singleton.mp hb, hsince]
      exact hpast a

/-- The keys that time out were queued, each once, and are not queued any more. -/
theorem Ordered.fired_nodup (h : q.Ordered now) (timeout now' : ℕ) :
    (fired timeout now' q.since q.queue).Nodup ∧
      ∀ k ∈ fired timeout now' q.since q.queue,
        k ∈ q.queue ∧ k ∉ left timeout now' q.since q.queue := by
  have hsub := fired_append_left timeout now' q.since q.queue
  have hnodup := List.nodup_append.mp (h.nodup.sublist hsub)
  refine ⟨hnodup.1, fun k hk => ⟨hsub.subset (List.mem_append_left _ hk), fun hl => ?_⟩⟩
  exact hnodup.2.2 k hk k hl rfl

variable [DecidableEq κ] {timeout : ℕ}

theorem Ordered.expire (h : q.Ordered now) : (q.expire timeout now).Ordered now := by
  refine h.ease ?_ ((List.sublist_append_right _ _).trans (fired_append_left timeout now q.since _))
    ?_
  · intro k
    show (if _ then _ else _) = _ ∨ (if _ then _ else _) = _
    split
    · exact .inl rfl
    · exact .inr rfl
  · intro k hk hmem
    have hk : (if k ∈ fired timeout now q.since q.queue then 0 else q.since k) ≠ 0 := hk
    split at hk
    · exact absurd rfl hk
    · next hnot => exact (fired_or_left hmem hk).resolve_left hnot

/-- **After a look at the clock no armed key is due.** -/
theorem Ordered.not_due (h : q.Ordered now) {k : κ} (hk : (q.expire timeout now).since k ≠ 0) :
    now - (q.expire timeout now).since k < timeout := by
  have hk : (if k ∈ fired timeout now q.since q.queue then 0 else q.since k) ≠ 0 := hk
  show now - (if k ∈ fired timeout now q.since q.queue then 0 else q.since k) < timeout
  split at hk
  · exact absurd rfl hk
  · next hnot =>
    rw [if_neg hnot]
    exact not_due_of_left h.sorted ((fired_or_left (h.queued k hk) hk).resolve_left hnot) hk

end TimeoutQueue
