import Dx12Track.Launcher.Attribution
import Dx12Track.Launcher.Timers

/-!
# The memory of destroyed objects

A death is recorded twice: among the dead of its address, where the join looks for
it, and in a queue over all addresses, from which the tick prunes.  The dead of an
address are capped, and their stamps need not be in order, so the two run apart;
but the dead of an address are always the last ones queued for it.

* `stampsAt` — the deaths queued for an address.
* `Remembered` — **the invariant**: the dead of an address are the last of them.
* `Remembered.bury`, `remembered_forgetDead` — a death and a tick keep it.
* `Model.Pruned` — what one call does to the dead of an address.
* `Model.history_exact` — **no record is lost early, and none outlives its entry in
  the queue**.
-/

namespace Dx12Track

open Etw (ObjType Group ResidencyOp CounterKind GroupChange Stats)
open Model (obituary remember)

/-- The stamps of the deaths that are queued for the address `p`. -/
def stampsAt (hist : List (ℕ × ℕ)) (p : ℕ) : List ℕ :=
  (hist.filter fun x => x.2 = p).map Prod.fst

theorem stampsAt_append (hist hist' : List (ℕ × ℕ)) (p : ℕ) :
    stampsAt (hist ++ hist') p = stampsAt hist p ++ stampsAt hist' p := by
  unfold stampsAt
  rw [List.filter_append, List.map_append]

theorem stampsAt_cons_self (ts p : ℕ) (hist : List (ℕ × ℕ)) :
    stampsAt ((ts, p) :: hist) p = ts :: stampsAt hist p := by
  unfold stampsAt
  rw [List.filter_cons_of_pos (by simp), List.map_cons]

theorem stampsAt_cons_of_ne {p p' : ℕ} (h : p' ≠ p) (ts : ℕ) (hist : List (ℕ × ℕ)) :
    stampsAt ((ts, p') :: hist) p = stampsAt hist p := by
  unfold stampsAt
  rw [List.filter_cons_of_neg (by simpa using h)]

theorem length_stampsAt (hist : List (ℕ × ℕ)) (p : ℕ) :
    (stampsAt hist p).length = (hist.filter fun x => x.2 = p).length := List.length_map _

/-! ### The invariant -/

/-- The dead of an address are the last deaths queued for it, and no empty list is stored. -/
structure Remembered (dead : Table ℕ (List DeadObj)) (hist : List (ℕ × ℕ)) : Prop where
  queued : ∀ p, ((dead.lookup p).getD []).map DeadObj.destroyedNs <:+ stampsAt hist p
  nonempty : ∀ p, dead.lookup p ≠ some []

variable {dead : Table ℕ (List DeadObj)} {hist : List (ℕ × ℕ)}

theorem remembered_empty : Remembered ∅ [] :=
  ⟨fun p => by rw [Finmap.lookup_empty]; exact List.suffix_refl [],
    fun p h => by rw [Finmap.lookup_empty] at h; cases h⟩

/-- Both lists grow at their ends. -/
theorem suffix_append_append {α : Type} {xs ys : List α} (h : xs <:+ ys) (zs : List α) :
    xs ++ zs <:+ ys ++ zs := by
  obtain ⟨older, rfl⟩ := h
  exact ⟨older, (List.append_assoc older xs zs).symm⟩

/-- The last records are kept, with the new one. -/
theorem remember_eq (xs : List DeadObj) (x : DeadObj) :
    remember xs x = (if xs.length ≥ kDeadPerAddress then xs.tail else xs) ++ [x] := by
  unfold remember
  dsimp only
  rw [List.length_append, List.length_singleton]
  cases xs with
  | nil => rfl
  | cons y ys =>
    by_cases hfull : (y :: ys).length ≥ kDeadPerAddress
    · rw [if_pos (by omega), if_pos hfull]
      rfl
    · rw [if_neg (by omega), if_neg hfull]

/-- A death joins both. -/
theorem Remembered.bury (h : Remembered dead hist) (p : ℕ) (x : DeadObj) :
    Remembered (dead.insert p (remember ((dead.lookup p).getD []) x))
      (hist ++ [(x.destroyedNs, p)]) := by
  refine ⟨fun p' => ?_, fun p' hp' => ?_⟩
  · rw [Finmap.lookup_insert_eq, stampsAt_append]
    by_cases hpp : p' = p
    · rw [if_pos hpp, hpp, stampsAt_cons_self, Option.getD_some, remember_eq, List.map_append]
      refine suffix_append_append (List.IsSuffix.trans ?_ (h.queued p)) _
      split
      · exact (List.tail_suffix _).map _
      · exact List.suffix_refl _
    · rw [if_neg hpp, stampsAt_cons_of_ne (Ne.symm hpp)]
      simpa [stampsAt] using h.queued p'
  · rw [Finmap.lookup_insert_eq] at hp'
    split at hp'
    · rw [Option.some.injEq, remember_eq] at hp'
      simp at hp'
    · exact h.nonempty p' hp'

/-! ### Pruning -/

/-- The dead of one address are replaced, or forgotten when none is left. -/
def putDead (dead : Table ℕ (List DeadObj)) (p : ℕ) (xs : List DeadObj) : Table ℕ (List DeadObj) :=
  if xs.isEmpty then dead.erase p else dead.insert p xs

theorem lookup_putDead (dead : Table ℕ (List DeadObj)) (p : ℕ) (xs : List DeadObj) (p' : ℕ) :
    (putDead dead p xs).lookup p'
      = if p' = p then (if xs.isEmpty then none else some xs) else dead.lookup p' := by
  unfold putDead
  split
  · rw [Finmap.lookup_erase_eq]
  · rw [Finmap.lookup_insert_eq]

/-- The dead of an address, without those before the horizon that come first. -/
def unexpired (horizon : ℕ) (xs : List DeadObj) : List DeadObj :=
  xs.dropWhile fun x => decide (x.destroyedNs < horizon)

/-- The front of the queue is older than the horizon, and goes with what is older at its
address. -/
theorem Remembered.prune {ts p horizon : ℕ} (h : Remembered dead ((ts, p) :: hist))
    (hts : ts < horizon) :
    Remembered (putDead dead p (unexpired horizon ((dead.lookup p).getD []))) hist := by
  refine ⟨fun p' => ?_, fun p' hp' => ?_⟩
  · have hq := h.queued p'
    rw [lookup_putDead]
    by_cases hpp : p' = p
    · rw [hpp, stampsAt_cons_self] at hq
      rw [if_pos hpp, hpp]
      have hkept : (unexpired horizon ((dead.lookup p).getD [])).map DeadObj.destroyedNs
          <:+ stampsAt hist p := by
        rcases List.suffix_cons_iff.mp hq with hall | hrest
        · -- the queue held nothing but the dead that are there, and its front is the oldest
          obtain ⟨x, xs, hxs, hx, hmap⟩ := List.map_eq_cons_iff.mp hall
          unfold unexpired
          rw [hxs, List.dropWhile_cons_of_pos (by simpa [hx] using hts), ← hmap]
          exact (List.dropWhile_suffix _).map _
        · exact ((List.dropWhile_suffix _).map _).trans hrest
      split
      · exact List.nil_suffix
      · exact hkept
    · rw [if_neg hpp]
      rwa [stampsAt_cons_of_ne (Ne.symm hpp)] at hq
  · rw [lookup_putDead] at hp'
    split at hp'
    · split at hp'
      · cases hp'
      · next hne =>
        rw [Option.some.injEq] at hp'
        exact hne (by rw [hp']; rfl)
    · exact h.nonempty p' hp'

/-- The front of the queue goes, and nobody is left at its address. -/
theorem Remembered.skip {ts p : ℕ} (h : Remembered dead ((ts, p) :: hist))
    (hp : dead.lookup p = none) : Remembered dead hist := by
  refine ⟨fun p' => ?_, h.nonempty⟩
  by_cases hpp : p' = p
  · rw [hpp, hp]
    exact List.nil_suffix
  · have hq := h.queued p'
    rwa [stampsAt_cons_of_ne (Ne.symm hpp)] at hq

namespace Model

/-- The tick keeps the invariant. -/
theorem remembered_forgetDead (nowTs : ℕ) (q : List (ℕ × ℕ)) {m : Model}
    (h : Remembered m.deadByPtr q) :
    Remembered (forgetDead nowTs q m).deadByPtr (forgetDead nowTs q m).destroyHist := by
  induction q generalizing m with
  | nil => exact h
  | cons x q ih =>
    obtain ⟨ts, p⟩ := x
    unfold forgetDead
    split
    · next hold =>
      dsimp only
      split
      · next hnone => exact ih (h.skip hnone)
      · next xs hxs =>
        refine ih ?_
        have hprune := h.prune hold.2
        rw [hxs] at hprune
        exact hprune
    · exact h

/-- From `m` to `m'` the dead of `p` lose the first of them, which are all older than the
horizon. -/
def Forgets (horizon : ℕ) (p : ℕ) (m m' : Model) : Prop :=
  ∃ dropped, m.deadAt p = dropped ++ m'.deadAt p ∧ ∀ x ∈ dropped, x.destroyedNs < horizon

theorem Forgets.trans {horizon p : ℕ} {m m' m'' : Model} (h : Forgets horizon p m m')
    (h' : Forgets horizon p m' m'') : Forgets horizon p m m'' := by
  obtain ⟨xs, hxs, hold⟩ := h
  obtain ⟨xs', hxs', hold'⟩ := h'
  refine ⟨xs ++ xs', by rw [hxs, hxs', List.append_assoc], fun x hx => ?_⟩
  rcases List.mem_append.mp hx with hx | hx
  · exact hold x hx
  · exact hold' x hx

theorem forgets_of_same {horizon p : ℕ} {m m' : Model} (h : m'.deadByPtr = m.deadByPtr) :
    Forgets horizon p m m' := by
  refine ⟨[], ?_, fun x hx => by cases hx⟩
  unfold deadAt
  rw [h, List.nil_append]

/-- The tick forgets only what is older than the horizon. -/
theorem forgets_forgetDead (nowTs : ℕ) (q : List (ℕ × ℕ)) (m : Model) (p : ℕ) :
    Forgets (nowTs - kDestroyHistoryNs) p m (forgetDead nowTs q m) := by
  induction q generalizing m with
  | nil => exact forgets_of_same rfl
  | cons x q ih =>
    obtain ⟨ts, p'⟩ := x
    unfold forgetDead
    split
    · dsimp only
      split
      · exact ih m
      · next xs hxs =>
        refine Forgets.trans ?_ (ih _)
        by_cases hpp : p = p'
        · subst hpp
          refine ⟨xs.takeWhile fun x => decide (x.destroyedNs < nowTs - kDestroyHistoryNs), ?_,
            fun x hx => by simpa using List.mem_takeWhile_imp hx⟩
          have hput := lookup_putDead m.deadByPtr p (unexpired (nowTs - kDestroyHistoryNs) xs) p
          rw [if_pos rfl] at hput
          show (m.deadByPtr.lookup p).getD [] = _ ++ (Finmap.lookup p (putDead m.deadByPtr p
            (unexpired (nowTs - kDestroyHistoryNs) xs))).getD []
          rw [hput, hxs, Option.getD_some]
          have hsplit : (xs.takeWhile fun x => decide (x.destroyedNs < nowTs - kDestroyHistoryNs))
              ++ unexpired (nowTs - kDestroyHistoryNs) xs = xs := List.takeWhile_append_dropWhile
          split
          · next hempty =>
            rw [List.isEmpty_iff.mp hempty] at hsplit
            exact hsplit.symm
          · exact hsplit.symm
        · refine ⟨[], ?_, fun x hx => by cases hx⟩
          have hput := lookup_putDead m.deadByPtr p' (unexpired (nowTs - kDestroyHistoryNs) xs) p
          rw [if_neg hpp] at hput
          show (m.deadByPtr.lookup p).getD [] = [] ++ (Finmap.lookup p (putDead m.deadByPtr p'
            (unexpired (nowTs - kDestroyHistoryNs) xs))).getD []
          rw [hput, List.nil_append]
    · exact forgets_of_same rfl

/-! ### One call -/

/-- A tick at `x` finds the record older than `kDestroyHistoryNs`. -/
def Expires (m : Model) (x : Step) (d : DeadObj) : Prop :=
  ∃ env st, x = .tick env st ∧ d.destroyedNs + kDestroyHistoryNs < m.nowTsLocked env

/-- Why records of `p` may be removed by the call `x`: they are too old, or there are too many. -/
def Removes (m : Model) (x : Step) (p : ℕ) (dropped : List DeadObj) : Prop :=
  (∀ d ∈ dropped, m.Expires x d) ∨
    dropped.length = 1 ∧ kDeadPerAddress ≤ (m.deadAt p).length ∧
      ∃ ts q, x = .event ts (.destroyed q)

/-- The call `x` removes the first records of `p`, and adds new ones at the end. -/
def Pruned (m : Model) (x : Step) (p : ℕ) : Prop :=
  ∃ dropped kept added, m.deadAt p = dropped ++ kept ∧ (m.step x).deadAt p = kept ++ added ∧
    m.Removes x p dropped

variable {m n : Model}

theorem Rests.deadAt (h : m.Rests n) (p : ℕ) : n.deadAt p = m.deadAt p := by
  unfold Model.deadAt
  rw [h.dead]

theorem Rests.remembered (h : m.Rests n) (hm : Remembered m.deadByPtr m.destroyHist) :
    Remembered n.deadByPtr n.destroyHist := by
  rw [h.dead, h.hist]
  exact hm

/-- A call that leaves the memory alone removes nothing. -/
theorem pruned_of_same {x : Step} {p : ℕ} (h : (m.step x).deadAt p = m.deadAt p) : m.Pruned x p :=
  ⟨[], m.deadAt p, [], rfl, by rw [h, List.append_nil], .inl fun d hd => by cases hd⟩

/-- The orphaned ETW object is not part of the memory. -/
theorem orphanBound_memory (m : Model) (id : ℕ) (o : LiveObject) (ts : ℕ) :
    (m.orphanBound id o ts).deadByPtr = m.deadByPtr ∧
      (m.orphanBound id o ts).destroyHist = m.destroyHist := by
  unfold orphanBound
  split
  · exact ⟨rfl, rfl⟩
  · dsimp only
    split
    · exact ⟨rfl, rfl⟩
    · split <;> exact ⟨rfl, rfl⟩

/-- A death is recorded twice. -/
theorem forgetOccupant_memory {o : LiveObject} (ho : o.objectPtr ≠ 0) (m : Model) (ts : ℕ) :
    (m.forgetOccupant o ts).deadByPtr
        = m.deadByPtr.insert o.objectPtr (remember (m.deadAt o.objectPtr) (obituary o ts)) ∧
      (m.forgetOccupant o ts).destroyHist = m.destroyHist ++ [(ts, o.objectPtr)] := by
  unfold forgetOccupant
  rw [if_neg ho]
  dsimp only
  split <;> exact ⟨rfl, rfl⟩

/-- What a `destroyed` record does to the memory: nothing, or it is one death more. -/
theorem onDestroyed_memory (m : Model) (ts : ℕ) (p : DestroyedPayload) :
    ((m.onDestroyed ts p).deadByPtr = m.deadByPtr ∧
        (m.onDestroyed ts p).destroyHist = m.destroyHist) ∨
      ∃ o : LiveObject,
        (m.onDestroyed ts p).deadByPtr = m.deadByPtr.insert o.objectPtr
          (remember (m.deadAt o.objectPtr) (obituary o ts)) ∧
        (m.onDestroyed ts p).destroyHist = m.destroyHist ++ [(ts, o.objectPtr)] := by
  rcases m.onDestroyed_timers ts p with hrest | ⟨o, n, -, hn, hrest⟩
  · exact .inl ⟨hrest.dead, hrest.hist⟩
  · obtain ⟨hdead, hhist⟩ := (n.forgetOccupant o ts).orphanBound_memory p.id o ts
    have hdead' := hrest.dead.trans hdead
    have hhist' := hrest.hist.trans hhist
    by_cases ho : o.objectPtr = 0
    · unfold forgetOccupant at hdead' hhist'
      rw [if_pos ho] at hdead' hhist'
      exact .inl ⟨hdead'.trans hn.dead, hhist'.trans hn.hist⟩
    · obtain ⟨hbury, hqueue⟩ := n.forgetOccupant_memory ho ts
      rw [hn.dead, hn.deadAt] at hbury
      rw [hn.hist] at hqueue
      exact .inr ⟨o, hdead'.trans hbury, hhist'.trans hqueue⟩

theorem onEtwObjectCreated_memory (m : Model) (ts : ℤ) (libId : ℕ) (type : ObjType) (size : ℕ)
    (group : Group) :
    (m.onEtwObjectCreated ts libId type size group).deadByPtr = m.deadByPtr ∧
      (m.onEtwObjectCreated ts libId type size group).destroyHist = m.destroyHist := by
  rcases m.onEtwObjectCreated_timers ts libId type size group with
    hrest | ⟨n, e, hn, -, -, -, hrest⟩
  · exact ⟨hrest.dead, hrest.hist⟩
  · exact ⟨hrest.dead.trans hn.dead, hrest.hist.trans hn.hist⟩

theorem onEtwObjectAddress_memory (m : Model) (env : Env) (libId address : ℕ) :
    (m.onEtwObjectAddress env libId address).deadByPtr = m.deadByPtr ∧
      (m.onEtwObjectAddress env libId address).destroyHist = m.destroyHist := by
  rcases m.onEtwObjectAddress_timers env libId address with
    hrest | ⟨n, key, e, hn, -, -, -, -, -, -, hwait, -⟩
  · exact ⟨hrest.dead, hrest.hist⟩
  · rw [hwait]
    exact ⟨hn.dead, hn.hist⟩

/-- The objects that wait are not part of the memory either. -/
theorem expirePending_memory (nowMs : ℕ) (q : List ℕ) (m : Model) :
    (expirePending nowMs q m).deadByPtr = m.deadByPtr ∧
      (expirePending nowMs q m).destroyHist = m.destroyHist := by
  induction q generalizing m with
  | nil => exact ⟨rfl, rfl⟩
  | cons k q ih =>
    unfold expirePending
    split
    · exact ih m
    · split
      · exact ih m
      · split
        · exact ⟨rfl, rfl⟩
        · exact ih _

/-- The part of a tick that prunes. -/
theorem etwTick_memory (m : Model) (env : Env) (st : Stats) :
    m.etwTick env st = m ∨
      ∃ n, n.deadByPtr = m.deadByPtr ∧ n.destroyHist = m.destroyHist ∧
        (forgetDead (m.nowTsLocked env) n.destroyHist n).Rests (m.etwTick env st) := by
  rcases m.etwTick_timers env st with ⟨-, hsame⟩ | ⟨n, hn, hrest⟩
  · exact .inl hsame
  · obtain ⟨hdead, hhist⟩ := expirePending_memory env.nowMs n.pendingQ n
    exact .inr ⟨_, hdead.trans hn.dead, hhist.trans hn.hist, hrest⟩

/-- **One call keeps the invariant.** -/
theorem remembered_step (h : Remembered m.deadByPtr m.destroyHist) (x : Step) :
    Remembered (m.step x).deadByPtr (m.step x).destroyHist := by
  by_cases hx : x.turnsTimers = false
  · exact (m.rests_step hx).remembered h
  · have same : ∀ m' : Model, m'.deadByPtr = m.deadByPtr ∧ m'.destroyHist = m.destroyHist →
        Remembered m'.deadByPtr m'.destroyHist := by
      intro m' hm'
      rw [hm'.1, hm'.2]
      exact h
    cases x with
    | event ts r =>
      cases r with
      | destroyed p =>
        show Remembered ((m.setLatestNs ts).onDestroyed ts p).deadByPtr
          ((m.setLatestNs ts).onDestroyed ts p).destroyHist
        rcases (m.setLatestNs ts).onDestroyed_memory ts p with hsame | ⟨o, hdead, hhist⟩
        · exact same _ hsame
        · rw [hdead, hhist]
          exact h.bury o.objectPtr (obituary o ts)
      | _ => exact absurd rfl hx
    | objectCreated ts libId type size group =>
      exact same _ (m.onEtwObjectCreated_memory ts libId type size group)
    | objectAddress env libId address =>
      exact same _ (m.onEtwObjectAddress_memory env libId address)
    | tick env st =>
      show Remembered (m.etwTick env st).deadByPtr (m.etwTick env st).destroyHist
      rcases m.etwTick_memory env st with hsame | ⟨n, hdead, hhist, hrest⟩
      · rw [hsame]
        exact h
      · have hn : Remembered n.deadByPtr n.destroyHist := by rwa [hdead, hhist]
        exact hrest.remembered (remembered_forgetDead _ _ hn)
    | _ => exact absurd rfl hx

theorem remembered_after (etw : Option EtwOptions) (xs : List Step) :
    Remembered ((launch etw).after xs).deadByPtr ((launch etw).after xs).destroyHist := by
  induction xs using List.reverseRecOn with
  | nil => cases etw <;> exact remembered_empty
  | append_singleton xs x ih =>
    rw [after_concat]
    exact remembered_step ih x

/-- **One call removes only what is too old, or one record of too many.** -/
theorem pruned_step (m : Model) (x : Step) (p : ℕ) : m.Pruned x p := by
  have same : ∀ {m' : Model}, m'.deadByPtr = m.deadByPtr → m'.deadAt p = m.deadAt p := by
    intro m' h
    unfold deadAt
    rw [h]
  by_cases hx : x.turnsTimers = false
  · exact pruned_of_same ((m.rests_step hx).deadAt p)
  · cases x with
    | event ts r =>
      cases r with
      | destroyed q =>
        rcases (m.setLatestNs ts).onDestroyed_memory ts q with hsame | ⟨o, hdead, -⟩
        · exact pruned_of_same (same hsame.1)
        · by_cases hp : p = o.objectPtr
          · subst hp
            have hlookup : (m.step (.event ts (.destroyed q))).deadAt o.objectPtr
                = remember (m.deadAt o.objectPtr) (obituary o ts) := by
              show (Finmap.lookup _ ((m.setLatestNs ts).onDestroyed ts q).deadByPtr).getD [] = _
              rw [hdead, Finmap.lookup_insert]
              rfl
            rw [remember_eq] at hlookup
            split at hlookup
            · next hfull =>
              -- the cap drops the oldest record
              cases hd : m.deadAt o.objectPtr with
              | nil => rw [hd] at hfull; exact absurd hfull (by decide)
              | cons d ds =>
                rw [hd] at hlookup hfull
                exact ⟨[d], ds, [obituary o ts], hd, hlookup,
                  .inr ⟨rfl, hd ▸ hfull, ts, q, rfl⟩⟩
            · exact ⟨[], m.deadAt o.objectPtr, [obituary o ts], rfl, hlookup,
                .inl fun d hd => by cases hd⟩
          · refine pruned_of_same ?_
            show (Finmap.lookup p ((m.setLatestNs ts).onDestroyed ts q).deadByPtr).getD [] = _
            rw [hdead, Finmap.lookup_insert_of_ne _ hp]
            rfl
      | _ => exact absurd rfl hx
    | objectCreated ts libId type size group =>
      exact pruned_of_same (same (m.onEtwObjectCreated_memory ts libId type size group).1)
    | objectAddress env libId address =>
      exact pruned_of_same (same (m.onEtwObjectAddress_memory env libId address).1)
    | tick env st =>
      rcases m.etwTick_memory env st with hsame | ⟨n, hdead, -, hrest⟩
      · exact pruned_of_same (congrArg (fun m' => m'.deadAt p) hsame)
      · obtain ⟨dropped, hsplit, hold⟩ :=
          forgets_forgetDead (m.nowTsLocked env) n.destroyHist n p
        rw [same hdead] at hsplit
        refine ⟨dropped, _, [], hsplit, ?_, .inl fun d hd => ⟨env, st, rfl, ?_⟩⟩
        · rw [List.append_nil]
          exact hrest.deadAt p
        · have := hold d hd
          omega
    | _ => exact absurd rfl hx

/-- **The memory of destroyed objects is pruned exactly.**  In every state of a run, each call
removes records only from the front of an address, and only such as are older than
`kDestroyHistoryNs`, but for one that is one too many; an address has no more records than it has
entries in the queue, and without an entry it has no place in the table. -/
theorem history_exact (etw : Option EtwOptions) (xs : List Step) :
    let m := (launch etw).after xs
    (∀ x p, ∃ dropped kept added,
      m.deadAt p = dropped ++ kept ∧ (m.step x).deadAt p = kept ++ added ∧
      ((∀ d ∈ dropped, ∃ env st, x = .tick env st ∧
          d.destroyedNs + kDestroyHistoryNs < m.nowTsLocked env) ∨
        dropped.length = 1 ∧ kDeadPerAddress ≤ (m.deadAt p).length ∧
          ∃ ts q, x = .event ts (.destroyed q))) ∧
    (∀ p, (m.deadAt p).length ≤ (m.destroyHist.filter fun d => d.2 = p).length) ∧
    (∀ p, (∀ d ∈ m.destroyHist, d.2 ≠ p) → m.deadByPtr.lookup p = none) ∧
    (m.destroyHist = [] → m.deadByPtr = ∅) := by
  have h := remembered_after etw xs
  have hnone : ∀ p, (∀ d ∈ ((launch etw).after xs).destroyHist, d.2 ≠ p) →
      ((launch etw).after xs).deadByPtr.lookup p = none := by
    intro p hp
    have hstamps : stampsAt ((launch etw).after xs).destroyHist p = [] := by
      unfold stampsAt
      rw [List.map_eq_nil_iff, List.filter_eq_nil_iff]
      exact fun d hd => by simpa using hp d hd
    have hq := h.queued p
    rw [hstamps, List.suffix_nil, List.map_eq_nil_iff] at hq
    cases hl : ((launch etw).after xs).deadByPtr.lookup p with
    | none => rfl
    | some ds =>
      rw [hl, Option.getD_some] at hq
      exact absurd (hq ▸ hl) (h.nonempty p)
  refine ⟨fun x p => pruned_step _ x p, fun p => ?_, hnone, fun hempty => ?_⟩
  · rw [← length_stampsAt, ← List.length_map DeadObj.destroyedNs]
    exact (h.queued p).length_le
  · refine Finmap.ext_lookup fun p => ?_
    rw [hnone p (by rw [hempty]; exact fun d hd => by cases hd), Finmap.lookup_empty]

end Model

end Dx12Track
