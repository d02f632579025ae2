import Dx12Track.Launcher.SansRundowns
import Dx12Track.Launcher.Settled

/-!
# The owner of an address waits

An ETW object that took its address and found no tracked object is put into the
queue, once: it waits, or its wait is over.  So an owner that is neither bound nor
an orphan is not put there again by a second attempt.

* `Model.Idle` — neither bound, nor an orphan, nor waiting, nor done waiting.
* `Model.Watched` — no owner of an address is idle.
* `Model.Calm` — a change that makes nobody idle and nobody an owner.
* `Model.watched_step` — **every call keeps the owners watched**.
* `Model.tryBindEtw_of_watched` — the second attempt.
-/

namespace Dx12Track

open Etw (ObjType Group ResidencyOp CounterKind GroupChange Stats)
open Model (canBind lateMatch)

/-- An object that could still be bound, and that nothing reminds of it. -/
structure EtwObj.Idle (e : EtwObj) : Prop where
  bound : e.boundId = 0
  orphan : e.orphanTs = 0
  bindable : bindable e.type = true
  pending : e.pendingSinceMs = 0
  expired : e.expired = false

namespace Model

/-- The entry under `k` is idle. -/
def Idle (m : Model) (k : ℕ) : Prop := ∃ e, m.etwObjs.lookup k = some e ∧ e.Idle

/-- No owner of an address outside `off` is idle. -/
def Watched (off : Set ℕ) (m : Model) : Prop :=
  ∀ a k, k ∉ off → m.etwByAddr.lookup a = some k → ¬m.Idle k

/-! ### Calm changes -/

/-- From `m` to `m'` nobody becomes idle, and nobody becomes an owner. -/
structure Calm (m m' : Model) : Prop where
  idle : ∀ k, m'.Idle k → m.Idle k
  byAddr : ∀ a k, m'.etwByAddr.lookup a = some k → m.etwByAddr.lookup a = some k

/-- Calm changes one after the other are calm. -/
theorem Calm.trans {m m' m'' : Model} (h : m.Calm m') (h' : m'.Calm m'') : m.Calm m'' :=
  ⟨fun k hk => h.idle k (h'.idle k hk), fun a k hk => h.byAddr a k (h'.byAddr a k hk)⟩

/-- A calm change keeps the owners watched. -/
theorem Watched.calm {m m' : Model} {off : Set ℕ} (h : m.Watched off) (hc : m.Calm m') :
    m'.Watched off :=
  fun a k hk hown hi => h a k hk (hc.byAddr a k hown) (hc.idle k hi)

/-- What touches neither the entries nor the owners is calm. -/
theorem calm_of_frame {m m' : Model} (hobjs : m'.etwObjs = m.etwObjs)
    (hbyAddr : m'.etwByAddr = m.etwByAddr) : m.Calm m' := by
  constructor
  · rintro k ⟨e, he, hi⟩
    exact ⟨e, hobjs ▸ he, hi⟩
  · intro a k hk
    rwa [hbyAddr] at hk

theorem Calm.refl (m : Model) : m.Calm m := calm_of_frame rfl rfl

variable {m n : Model}

/-- Location work is calm. -/
theorem Calm.of_sansLoc (h : m.Calm n) {n' : Model} (hs : n'.sansLoc = n.sansLoc) : m.Calm n' :=
  h.trans (calm_of_frame (congrArg (fun v => v.rest.etwObjs) hs)
    (congrArg (fun v => v.rest.etwByAddr) hs))

theorem Calm.sideLine (h : m.Calm n) (l : SideLine) : m.Calm (n.sideLine l) :=
  h.of_sansLoc (sansLoc_sideLine n l)
theorem Calm.recomputeLoc (h : m.Calm n) (id ts : ℕ) (force : Bool) :
    m.Calm (n.recomputeLoc id ts force) := h.of_sansLoc (sansLoc_recomputeLoc n id ts force)
theorem Calm.recomputeChildren (h : m.Calm n) (heapId ts : ℕ) :
    m.Calm (n.recomputeChildren heapId ts) := h.of_sansLoc (sansLoc_recomputeChildren n heapId ts)
theorem Calm.updLive (h : m.Calm n) (id : ℕ) (f : LiveObject → LiveObject) :
    m.Calm (n.updLive id f) := h.trans (calm_of_frame rfl rfl)
theorem Calm.updStats (h : m.Calm n) (f : EtwSnapshot → EtwSnapshot) : m.Calm (n.updStats f) :=
  h.trans (calm_of_frame rfl rfl)

theorem Calm.driverAgg (h : m.Calm n) (e : EtwObj) (sign : ℤ) : m.Calm (n.driverAgg e sign) := by
  refine h.trans ?_
  unfold Model.driverAgg
  dsimp only
  split_ifs <;> exact calm_of_frame rfl rfl

/-- So is a write to an entry that makes none idle. -/
theorem Calm.updEtw (h : m.Calm n) (key : ℕ) {f : EtwObj → EtwObj}
    (hf : ∀ e, (f e).Idle → e.Idle) : m.Calm (n.updEtw key f) := by
  refine h.trans ⟨?_, fun a k hk => hk⟩
  rintro k ⟨e', he', hi⟩
  unfold Model.updEtw setEtwObjs at he'
  rw [Finmap.lookup_modify] at he'
  split at he'
  · obtain ⟨e, he, rfl⟩ := Option.map_eq_some_iff.mp he'
    exact ⟨e, he, hf e hi⟩
  · exact ⟨e', he', hi⟩

/-- A write after which the entry cannot be idle. -/
theorem not_idle_updEtw {key : ℕ} {f : EtwObj → EtwObj} (hf : ∀ e, ¬(f e).Idle) :
    ¬(m.updEtw key f).Idle key := by
  rintro ⟨e', he', hi⟩
  unfold Model.updEtw setEtwObjs at he'
  rw [Finmap.lookup_modify_self] at he'
  obtain ⟨e, -, rfl⟩ := Option.map_eq_some_iff.mp he'
  exact hf e hi

/-- Of two calm changes, either is. -/
theorem Calm.ite {n' : Model} {c : Prop} [Decidable c] (h : m.Calm n) (h' : m.Calm n') :
    m.Calm (if c then n else n') := by
  split
  · exact h
  · exact h'

/-! ### Binding -/

/-- The owner `key` binds, and whoever loses the tracked object owns nothing. -/
theorem watched_bind {key id : ℕ} {e : EtwObj} {o : LiveObject}
    (he : m.etwObjs.lookup key = some e) (ho : m.live.lookup id = some o) (hid : o.id ≠ 0)
    (h : m.Watched {key})
    (hlost : o.etwKey ≠ 0 → o.etwKey ≠ key → ∀ a, m.etwByAddr.lookup a ≠ some o.etwKey) (ts : ℕ) :
    (m.bind key id ts).Watched ∅ := by
  -- the two writes to the ETW objects
  have hpair : ((m.unbindOther key o).updEtw key
      fun e => (e.setBoundId o.id).setPending 0).Watched ∅ := by
    rintro a k - hown ⟨e', he', hi⟩
    have hown : m.etwByAddr.lookup a = some k := by
      unfold unbindOther at hown
      split at hown <;> exact hown
    unfold updEtw setEtwObjs at he'
    rw [Finmap.lookup_modify] at he'
    -- the bound entry has a partner; of the others only the loser was written to
    split at he'
    · obtain ⟨e₀, -, rfl⟩ := Option.map_eq_some_iff.mp he'
      exact hid hi.bound
    · next hk =>
      refine h a k (by simpa using hk) hown ⟨e', ?_, hi⟩
      unfold unbindOther at he'
      split at he'
      · next hother =>
        unfold updEtw setEtwObjs at he'
        rw [Finmap.lookup_modify_of_ne] at he'
        · exact he'
        · rintro rfl
          exact hlost hother.1 hother.2 a hown
      · exact he'
  unfold bind
  rw [he, ho]
  dsimp only
  refine hpair.calm ?_
  -- the rest writes to the live objects, the statistics and the sidecar
  have hkids : ∀ {n : Model}, ((m.unbindOther key o).updEtw key
      fun e => (e.setBoundId o.id).setPending 0).Calm n →
      ((m.unbindOther key o).updEtw key fun e => (e.setBoundId o.id).setPending 0).Calm
        (if o.type = .heap then n.recomputeChildren o.id ts else n) :=
    fun h => Calm.ite (h.recomputeChildren o.id ts) h
  have hlocated := hkids (((((Calm.refl _).updLive id (·.setEtwKey key)).updStats
    fun t => { t with binds := t.binds + 1 }).sideLine
      (.etwBind ts o.id key e.type o.objectPtr false)).updLive id (·.setOwnLoc e.group)
        |>.recomputeLoc id ts (!o.locReported))
  have hsized := hlocated.updLive id (·.setDriverSize e.size)
  exact Calm.ite (Calm.ite (hsized.sideLine _) hsized) hlocated

/-! ### The functions of the model -/

/-- The group does not bear on being idle. -/
theorem Calm.applyGroup (h : m.Calm n) (key : ℕ) (g : MemLoc) (ts : ℕ) :
    m.Calm (n.applyGroup key g ts) := by
  have hupd := h.updEtw key (f := (·.setGroup g))
    fun e hi => ⟨hi.bound, hi.orphan, hi.bindable, hi.pending, hi.expired⟩
  unfold Model.applyGroup
  split
  · exact h
  · next e _ =>
    dsimp only
    split
    · exact hupd
    · split
      · exact hupd
      · next o _ =>
        have hmoved := (hupd.updLive e.boundId (·.setOwnLoc g)).recomputeLoc e.boundId ts false
        exact Calm.ite (hmoved.recomputeChildren o.id ts) hmoved

/-- Neither does the size. -/
theorem Calm.applySize (h : m.Calm n) (key size ts : ℕ) : m.Calm (n.applySize key size ts) := by
  unfold Model.applySize
  split
  · exact h
  · next e _ =>
    split
    · exact h
    · have hupd := ((h.driverAgg e (-1)).updEtw key (f := (·.setSize size))
        fun e hi => ⟨hi.bound, hi.orphan, hi.bindable, hi.pending, hi.expired⟩).driverAgg
          (e.setSize size) 1
      dsimp only
      split
      · exact hupd
      · split
        · exact hupd
        · exact Calm.ite hupd ((hupd.updLive _ _).sideLine _)

/-- An object that waits is not idle. -/
theorem Calm.waitForObject (h : m.Calm n) (env : Env) (key : ℕ) (e : EtwObj) :
    m.Calm (n.waitForObject env key e) := by
  have hset : (if env.nowMs ≠ 0 then env.nowMs else 1) ≠ 0 := by
    split
    · next hms => exact hms
    · exact Nat.one_ne_zero
  have hupd := h.updEtw key (f := (·.setPending (if env.nowMs ≠ 0 then env.nowMs else 1)))
    fun e hi => absurd hi.pending hset
  unfold Model.waitForObject
  exact Calm.ite (hupd.trans (calm_of_frame rfl rfl)) h

/-- **A second attempt does nothing.** -/
theorem tryBindEtw_of_watched {key : ℕ} {e : EtwObj} (he : m.etwObjs.lookup key = some e)
    (hq : m.join.Quiet e.noWait) (hi : ¬e.Idle) (env : Env) (ts : ℕ) :
    m.tryBindEtw env key ts = m := by
  unfold tryBindEtw
  rw [he]
  dsimp only
  split
  · rfl
  · next hg =>
    push Not at hg
    obtain ⟨hb, ho, -, ht⟩ := hg
    have ht : bindable e.type = true := by simpa using ht
    obtain ⟨hlive, hdead⟩ := hq hb ho ht
    -- there is no live object to bind, and no dead one: the join is quiet at the address
    have htarget : m.bindTarget e = none := by
      cases hbt : m.bindTarget e with
      | none => rfl
      | some id =>
        obtain ⟨hocc, o, hl, hc⟩ := bindTarget_some hbt
        have hno := hlive id o.noLoc hocc (by rw [join_live, hl]; rfl)
        rw [canBind_noWait_noLoc, hc] at hno
        cases hno
    have hlate : ((m.deadByPtr.lookup e.address).getD []).find? (lateMatch e) = none :=
      List.find?_eq_none.mpr fun x hx => by
        rw [Bool.not_eq_true]
        exact hdead x hx
    rw [htarget]
    dsimp only
    rw [hlate]
    unfold waitForObject
    -- what is left is to wait, and `key` does that already or did
    refine if_neg fun hw => hi ⟨hb, ho, ht, hw.1, hw.2⟩

/-- The attempt of the owner of an address. -/
theorem watched_tryBindEtw {key : ℕ} {e : EtwObj} (hinv : m.join.Inv)
    (he : m.etwObjs.lookup key = some e) (hown : m.etwByAddr.lookup e.address = some key)
    (h : m.Watched {key}) (env : Env) (ts : ℕ) : (m.tryBindEtw env key ts).Watched ∅ := by
  have hkey : ∀ {n : Model}, n.Watched {key} → ¬n.Idle key → n.Watched ∅ := by
    intro n hn hi a k _ hk hik
    by_cases hkk : k = key
    · exact hi (hkk ▸ hik)
    · exact hn a k (by simpa using hkk) hk hik
  unfold tryBindEtw
  rw [he]
  dsimp only
  split
  · next hg =>
    refine hkey h ?_
    rintro ⟨e', he', hi⟩
    rw [he] at he'
    cases he'
    -- a guard that stops the attempt is one that makes the entry busy
    rcases hg with hg | hg | hg | hg
    · exact hg hi.bound
    · exact hg hi.orphan
    · exact (hinv.index.byAddr hown).1 hg
    · rw [hi.bindable] at hg
      cases hg
  · split
    · next id hbt =>
      -- the object is there: bind
      obtain ⟨hocc, o, ho, -⟩ := bindTarget_some hbt
      have hlive : m.join.live id = some o.noLoc := by rw [join_live, ho]; rfl
      obtain ⟨-, o', ho', hptr⟩ := hinv.index.occupant hocc
      rw [hlive] at ho'
      cases ho'
      have hid := hinv.index.live_id hlive
      have hlost := Join.unowned_of_lost hinv hlive (by rw [hptr]; exact hown)
      exact watched_bind he ho (fun h0 => hid.2 (hid.1.symm.trans h0)) h hlost ts
    · split
      · next x _ =>
        -- an orphan is not idle
        have hset : (if x.destroyedNs ≠ 0 then x.destroyedNs else 1) ≠ 0 := by
          split
          · next hx => exact hx
          · exact Nat.one_ne_zero
        have hupd := (Calm.refl m).updEtw key
          (f := fun e => (e.setOrphanTs (if x.destroyedNs ≠ 0 then x.destroyedNs else 1)).setPending
            0) fun e hi => absurd hi.orphan hset
        refine hkey (h.calm ((hupd.updStats _).sideLine _)) fun hi => ?_
        exact not_idle_updEtw (fun e hi => hset hi.orphan)
          ((((Calm.refl _).updStats _).sideLine _).idle key hi)
      · -- nothing is there: wait, unless that is over
        have hset : (if env.nowMs ≠ 0 then env.nowMs else 1) ≠ 0 := by
          split
          · next hms => exact hms
          · exact Nat.one_ne_zero
        refine hkey (h.calm ((Calm.refl m).waitForObject env key e)) fun hi => ?_
        unfold waitForObject at hi
        split at hi
        · exact not_idle_updEtw (fun e hi => hset hi.pending) hi
        · next hw =>
          obtain ⟨e', he', hi⟩ := hi
          rw [he] at he'
          cases he'
          exact hw ⟨hi.pending, hi.expired⟩

/-! ### The pipe -/

/-- A created object binds the owner of its address.  Its former partner owns no
address: an address has one owner. -/
theorem watched_bindReported (hinv : m.join.Inv) (h : m.Watched ∅) (id ts : ℕ) :
    (m.bindReported id ts).Watched ∅ := by
  rcases m.bindReported_cases id ts with hsame | ⟨o, key, e, ho, -, hkey, he, -, hbind⟩
  · rw [hsame]
    exact h
  · have hlive : m.join.live id = some o.noLoc := by rw [join_live, ho]; rfl
    have hid := hinv.index.live_id hlive
    have hlost := Join.unowned_of_lost hinv hlive hkey
    rw [hbind]
    refine watched_bind he ho (fun h0 => hid.2 (hid.1.symm.trans h0)) ?_ hlost ts
    exact fun a k _ hk => h a k (Set.notMem_empty k) hk

/-- Addresses of the tracked objects are not owned addresses. -/
theorem Calm.indexOccupant (h : m.Calm n) (id : ℕ) (o : LiveObject) :
    m.Calm (n.indexOccupant id o) := Calm.ite h (h.trans (calm_of_frame rfl rfl))

theorem Calm.addChild (h : m.Calm n) (o : LiveObject) : m.Calm (n.addChild o) :=
  Calm.ite (h.trans (calm_of_frame rfl rfl)) h

/-- The blocks before the attempt to bind are calm. -/
theorem watched_etwOnCreated (hinv : m.join.Inv) (h : m.Watched ∅) {o : LiveObject}
    (h0 : o.id ≠ 0) (hnew : m.live.lookup o.id = none) (hkey : o.etwKey = 0) (ts : ℕ) :
    ((m.setLive (m.live.insert o.id o)).etwOnCreated o.id ts).Watched ∅ := by
  have ho : (m.setLive (m.live.insert o.id o)).live.lookup o.id = some o :=
    Finmap.lookup_insert m.live
  have hcalm : m.Calm ((((m.setLive (m.live.insert o.id o)).indexOccupant o.id o).addChild
      o).firstLoc o.id ts) := by
    have hlive : m.Calm (m.setLive (m.live.insert o.id o)) := calm_of_frame rfl rfl
    exact ((hlive.indexOccupant o.id o).addChild o).of_sansLoc (sansLoc_firstLoc _ o.id ts)
  have hinv' : ((((m.setLive (m.live.insert o.id o)).indexOccupant o.id o).addChild
      o).firstLoc o.id ts).join.Inv := by
    have hnone : m.join.live o.id = none := by
      rw [join_live, hnew]
      rfl
    rw [join_firstLoc, join_addChild, join_indexOccupant]
    exact Join.inv_occupy (o := o.noLoc) hinv h0 hnone hkey
  unfold etwOnCreated
  rw [ho]
  exact watched_bindReported hinv' (h.calm hcalm) o.id ts

/-- **A `created` record keeps the owners watched.** -/
theorem watched_onCreated (hetw : m.etwEnabled = true) (hinv : m.join.Inv) (h : m.Watched ∅)
    {p : CreatedPayload} (h0 : p.id ≠ 0) (hnew : m.live.lookup p.id = none) (ts : ℕ) :
    (m.onCreated ts p).Watched ∅ := by
  have hon : ∀ r : Model, r.etwEnabled = true → (if r.etwEnabled then
      r.etwOnCreated (liveOfCreated ts p).id ts else r)
      = r.etwOnCreated (liveOfCreated ts p).id ts := fun r hr => if_pos hr
  have hrecent : ∀ (r : Model) (line : ActivityLine), r.Watched ∅ → (r.pushRecent line).Watched ∅ :=
    fun r line hr => hr.calm (calm_of_frame rfl rfl)
  unfold onCreated
  dsimp only
  refine hrecent _ _ ?_
  rw [hon]
  · have hstored : ∀ s : Snapshot, (((m.setSnapshot s).setLive ((m.setSnapshot s).live.insert
        (liveOfCreated ts p).id (liveOfCreated ts p))).etwOnCreated (liveOfCreated ts p).id
          ts).Watched ∅ := by
      intro s
      have hinv' : (m.setSnapshot s).join.Inv := hinv
      exact watched_etwOnCreated hinv' (h.calm (calm_of_frame rfl rfl)) h0 hnew rfl ts
    exact hstored _
  · exact hetw

/-- A dead record changes no entry. -/
theorem Calm.forgetOccupant (h : m.Calm n) (o : LiveObject) (ts : ℕ) :
    m.Calm (n.forgetOccupant o ts) := by
  have hframe : ∀ (c : Prop) [Decidable c] (t : Table ℕ ℕ),
      m.Calm (if c then n.setPtrToId t else n) :=
    fun c _ t => Calm.ite (h.trans (calm_of_frame rfl rfl)) h
  exact Calm.ite h ((hframe _ _).trans (calm_of_frame rfl rfl))

/-- The partner of a dying object becomes an orphan, which is not idle. -/
theorem Calm.orphanBound (h : m.Calm n) (id : ℕ) (o : LiveObject) (ts : ℕ) :
    m.Calm (n.orphanBound id o ts) := by
  have hset : (if ts ≠ 0 then ts else 1) ≠ 0 := by
    split
    · next hts => exact hts
    · exact Nat.one_ne_zero
  unfold Model.orphanBound
  refine Calm.ite h (Calm.updLive ?_ id _)
  split
  · exact h
  · exact Calm.ite (h.updEtw o.etwKey fun e hi => absurd hi.orphan hset) h

theorem Calm.removeChild (h : m.Calm n) (o : LiveObject) : m.Calm (n.removeChild o) := by
  unfold Model.removeChild
  refine Calm.ite ?_ h
  split
  · exact h
  · exact Calm.ite (h.trans (calm_of_frame rfl rfl)) (h.trans (calm_of_frame rfl rfl))

/-- The children of a dying heap only move. -/
theorem Calm.dropChildren (h : m.Calm n) (o : LiveObject) (ts : ℕ) :
    m.Calm (n.dropChildren o ts) := by
  have hfold : ∀ (kids : List ℕ) {r : Model}, m.Calm r →
      m.Calm (kids.foldl (fun m cid => m.dropToOwnLoc cid ts) r) := by
    intro kids
    induction kids with
    | nil => exact fun h => h
    | cons k kids ih => exact fun h => ih (h.of_sansLoc (sansLoc_dropToOwnLoc _ k ts))
  unfold Model.dropChildren
  refine Calm.ite ?_ h
  split
  · exact h
  · exact hfold _ (h.trans (calm_of_frame rfl rfl))

/-- The ETW part of a death, block by block. -/
theorem Calm.etwOnDestroyed (h : m.Calm n) (id ts : ℕ) : m.Calm (n.etwOnDestroyed id ts) := by
  unfold Model.etwOnDestroyed
  split
  · exact h
  · next o _ =>
    have hloc : m.Calm (n.addLoc o (-1)) := h.of_sansLoc (sansLoc_addLoc n o (-1))
    exact (((hloc.forgetOccupant o ts).orphanBound id o ts).removeChild o).dropChildren o ts

/-- **A `destroyed` record keeps the owners watched.** -/
theorem watched_onDestroyed (h : m.Watched ∅) (ts : ℕ) (p : DestroyedPayload) :
    (m.onDestroyed ts p).Watched ∅ := by
  unfold onDestroyed
  split
  · exact h
  · have hjoin : m.Calm (if m.etwEnabled then m.etwOnDestroyed p.id ts else m) :=
      Calm.ite ((Calm.refl m).etwOnDestroyed p.id ts) (Calm.refl m)
    exact h.calm (hjoin.trans (calm_of_frame rfl rfl))

/-! ### The ETW sink -/

/-- A new object owns no address. -/
theorem watched_onEtwObjectCreated (hinv : m.join.Inv) (h : m.Watched ∅) (ts : ℤ) (libId : ℕ)
    (type : ObjType) (size : ℕ) (group : Group) :
    (m.onEtwObjectCreated ts libId type size group).Watched ∅ := by
  have hstore : ∀ {r : Model} (e : EtwObj), m.Calm r → (∀ k, (m.etwObjs.lookup k).isSome →
      (r.etwObjs.lookup k).isSome) → (r.storeEtw libId e).Watched ∅ := by
    rintro r e hr hkeep a k - hk ⟨e', he', hi⟩
    unfold storeEtw at hk he'
    dsimp only at hk he'
    have hown : m.etwByAddr.lookup a = some k := by
      refine hr.byAddr a k ?_
      split at hk <;> exact hk
    -- the owner of an address was stored before
    obtain ⟨-, e₀, he₀, -⟩ := hinv.index.byAddr hown
    obtain ⟨e₁, he₁, -⟩ := Option.map_eq_some_iff.mp he₀
    have hsome := hkeep k (Option.isSome_of_eq_some he₁)
    refine h a k (Set.notMem_empty k) hown (hr.idle k ⟨e', ?_, hi⟩)
    split at he'
    · exact he'
    · next hnone =>
      have hne : k ≠ libId := fun hkl => hnone (hkl ▸ hsome)
      have hother : (r.etwObjs.insert libId e).lookup k = some e' := he'
      rwa [Finmap.lookup_insert_of_ne _ hne] at hother
  unfold onEtwObjectCreated
  split
  · exact h
  · dsimp only
    refine Watched.calm (hstore _ ((Calm.refl m).driverAgg _ 1) ?_) (calm_of_frame rfl rfl)
    intro k hk
    unfold driverAgg
    dsimp only
    split_ifs <;> exact hk

/-- An entry that is gone is not idle. -/
theorem Calm.eraseEtw (h : m.Calm n) (key : ℕ) : m.Calm (n.setEtwObjs (n.etwObjs.erase key)) := by
  refine h.trans ⟨?_, fun a k hk => hk⟩
  rintro k ⟨e', he', hi⟩
  exact ⟨e', (Finmap.lookup_erase_some he').2, hi⟩

/-- A merge copies the size and the group, adds an alias, and drops the
re-report. -/
theorem Calm.merged (h : m.Calm n) (key : ℕ) (e : EtwObj) (into : ℕ) (old : EtwObj) :
    m.Calm (n.merged key e into old) := by
  have hcount := h.updStats fun t => { t with rundownDuplicates := t.rundownDuplicates + 1 }
  have hsized := Calm.ite (c := e.size ≠ 0) (hcount.applySize into e.size e.createdTs) hcount
  have hgrouped := (Calm.ite (c := e.group ≠ .unknown ∧ e.group ≠ old.group)
    (hsized.applyGroup into e.group e.createdTs) hsized).driverAgg e (-1)
  have halias := (hgrouped.eraseEtw key).updEtw into (f := (·.addAlias key))
    fun e hi => ⟨hi.bound, hi.orphan, hi.bindable, hi.pending, hi.expired⟩
  exact halias.trans (calm_of_frame rfl rfl)

/-- The re-report `key` of the owner `into` of an address was merged into it. -/
theorem absorbed_merged (hinv : m.join.Inv) {key into : ℕ} {e old : EtwObj}
    (he : m.etwObjs.lookup key = some e) (hz : e.address = 0)
    (hold : m.etwObjs.lookup into = some old) (hne : into ≠ key)
    (hown : m.etwByAddr.lookup old.address = some into) :
    (m.merged key e into old).join.Absorbed key into old := by
  have hje : m.join.etw key = some e.noWait := by rw [join_etw, he]; rfl
  have hjold : m.join.etw into = some old.noWait := by rw [join_etw, hold]; rfl
  have h := Join.absorbed_absorb hinv hje hz hjold hne hown
  rw [join_merged]
  exact ⟨h.inv, h.stored, h.owner, h.gone⟩

/-- The owner of the address tries to bind again after a merge. -/
theorem watched_foldRundown (hinv : m.join.Inv) (h : m.Watched ∅) {key into : ℕ} {e old : EtwObj}
    (he : m.etwObjs.lookup key = some e) (hz : e.address = 0)
    (hold : m.etwObjs.lookup into = some old) (hne : into ≠ key)
    (hown : m.etwByAddr.lookup old.address = some into) (env : Env) :
    (m.foldRundown env key e into old).Watched ∅ := by
  have hmerged : (m.merged key e into old).Watched ∅ := h.calm ((Calm.refl m).merged key e into old)
  have habsorbed := absorbed_merged hinv he hz hold hne hown
  obtain ⟨e', he', haddr⟩ := habsorbed.stored
  obtain ⟨e'', he'', rfl⟩ := Option.map_eq_some_iff.mp he'
  have haddr : e''.address = old.address := haddr
  rw [foldRundown_eq]
  exact watched_tryBindEtw habsorbed.inv he'' (haddr ▸ habsorbed.owner)
    (fun a k _ hk => hmerged a k (Set.notMem_empty k) hk) env e.createdTs

/-- When the join is settled, that attempt does nothing. -/
theorem foldRundown_of_settled (hinv : m.join.Inv) (hs : m.join.Settled ∅) (h : m.Watched ∅)
    {key into : ℕ} {e old : EtwObj} (he : m.etwObjs.lookup key = some e) (hz : e.address = 0)
    (hold : m.etwObjs.lookup into = some old) (hne : into ≠ key)
    (hown : m.etwByAddr.lookup old.address = some into) (env : Env) :
    m.foldRundown env key e into old = m.merged key e into old := by
  have hmerged : (m.merged key e into old).Watched ∅ := h.calm ((Calm.refl m).merged key e into old)
  have hje : m.join.etw key = some e.noWait := by rw [join_etw, he]; rfl
  have hjold : m.join.etw into = some old.noWait := by rw [join_etw, hold]; rfl
  have hm := Join.merged_absorb hinv hs hje hz hjold hne hown
  rw [← join_merged] at hm
  obtain ⟨e', he', -, hq⟩ := hm.quiet
  obtain ⟨e'', he'', rfl⟩ := Option.map_eq_some_iff.mp he'
  have he'' : (m.merged key e into old).etwObjs.lookup into = some e'' := he''
  have hidle : ¬e''.Idle := fun hi =>
    hmerged old.address into (Set.notMem_empty into) hm.owner ⟨e'', he'', hi⟩
  rw [foldRundown_eq]
  exact tryBindEtw_of_watched he'' hq hidle env e.createdTs

/-- The new owner of an address tries to bind at once. -/
theorem watched_takeAddress (hinv : m.join.Inv) (h : m.Watched ∅) {key address : ℕ} {e : EtwObj}
    (he : m.etwObjs.lookup key = some e) (hz : e.address = 0) (ha : address ≠ 0) (env : Env) :
    (m.takeAddress env key e address).Watched ∅ := by
  let m₀ := m.updEtw key (·.setAddress address)
  let m₁ := m₀.setEtwByAddr (m₀.etwByAddr.insert address key)
  let m₂ := m₁.sideLine (.etwObject e.createdTs key e.type address e.size e.group)
  have hobjs : m₂.etwObjs = m.etwObjs.modify key (·.setAddress address) :=
    congrArg (fun v => v.rest.etwObjs) (sansLoc_sideLine m₁ _)
  have hbyAddr : m₂.etwByAddr = m.etwByAddr.insert address key :=
    congrArg (fun v => v.rest.etwByAddr) (sansLoc_sideLine m₁ _)
  have hself : m₂.etwObjs.lookup key = some (e.setAddress address) := by
    rw [hobjs, Finmap.lookup_modify_self, he]
    rfl
  have hinv' : m₂.join.Inv := by
    have hj : m₂.join = m.join.own key address := by
      show (m₁.sideLine _).join = _
      rw [join_sideLine, join_insertAddr m₀ address key,
        join_updEtw (g := (·.setAddress address)) _ key fun _ => rfl]
      rfl
    rw [hj]
    exact Join.inv_own (e := e.noWait) hinv (by rw [join_etw, he]; rfl) hz ha
  -- the others own what they owned
  have hother : m₂.Watched {key} := by
    rintro a k hk hown ⟨e', he', hi⟩
    have hkk : k ≠ key := by simpa using hk
    rw [hobjs, Finmap.lookup_modify_of_ne hkk] at he'
    rw [hbyAddr, Finmap.lookup_insert_eq] at hown
    split at hown
    · cases hown
      exact hkk rfl
    · exact h a k (Set.notMem_empty k) hown ⟨e', he', hi⟩
  refine watched_tryBindEtw hinv' hself ?_ hother env e.createdTs
  rw [hbyAddr]
  exact Finmap.lookup_insert _

/-- **An address keeps the owners watched**: whoever comes to own it tries to
bind. -/
theorem watched_onEtwObjectAddress (hinv : m.join.Inv) (h : m.Watched ∅) (env : Env)
    (libId address : ℕ) :
    (m.onEtwObjectAddress env libId address).Watched ∅ := by
  rcases m.onEtwObjectAddress_cases env libId address with
    hsame | ⟨key, e, hfind, ha, hz, htake | hfold⟩
  · rw [hsame]
    exact h
  · rw [htake]
    exact watched_takeAddress hinv h (findEtw_some hfind).2 hz ha env
  · obtain ⟨into, old, hinto, hne, hold, -, hfold⟩ := hfold
    obtain ⟨-, old', hold', hadr⟩ := hinv.index.byAddr hinto
    rw [join_etw, hold] at hold'
    cases hold'
    have hadr : old.address = address := hadr
    rw [hfold]
    exact watched_foldRundown hinv h (findEtw_some hfind).2 hz hold hne (hadr ▸ hinto) env

/-- An address without an owner. -/
theorem Calm.eraseAddr (h : m.Calm n) (a : ℕ) :
    m.Calm (n.setEtwByAddr (n.etwByAddr.erase a)) := by
  refine h.trans ⟨fun k hk => hk, fun a' k hk => ?_⟩
  exact (Finmap.lookup_erase_some hk).2

/-- The live object lets go of an entry that is dropped. -/
theorem Calm.unkey (h : m.Calm n) (key : ℕ) (e : EtwObj) : m.Calm (n.unkey key e) := by
  rcases n.unkey_cases key e with hsame | hcut
  · rw [hsame]
    exact h
  · rw [hcut]
    exact h.updLive _ _

/-- A dropped entry goes with its aliases and its address. -/
theorem Calm.dropEtw (h : m.Calm n) (key : ℕ) (e : EtwObj) : m.Calm (n.dropEtw key e) := by
  have halias : ∀ t : Table ℕ ℕ, m.Calm (n.setEtwAlias t) :=
    fun t => h.trans (calm_of_frame rfl rfl)
  unfold Model.dropEtw
  dsimp only
  exact ((Calm.ite ((halias _).eraseAddr e.address) (halias _)).driverAgg e (-1)).eraseEtw key

/-- A destruction from ETW. -/
theorem calm_onEtwObjectDestroyed (m : Model) (ts : ℤ) (libId : ℕ) :
    m.Calm (m.onEtwObjectDestroyed ts libId) := by
  unfold onEtwObjectDestroyed
  refine Calm.ite (Calm.refl m) ?_
  split
  · exact Calm.refl m
  · next key e _ =>
    have hline : m.Calm (if e.address ≠ 0 then m.sideLine (.etwObjectDestroyed (m.convTs ts) key)
        else m) := Calm.ite ((Calm.refl m).sideLine _) (Calm.refl m)
    exact (hline.unkey key e).dropEtw key e

/-- A size from ETW. -/
theorem calm_onEtwObjectSize (m : Model) (ts : ℤ) (libId size : ℕ) :
    m.Calm (m.onEtwObjectSize ts libId size) := by
  unfold onEtwObjectSize
  refine Calm.ite (Calm.refl m) ?_
  split
  · exact Calm.refl m
  · next key _ _ => exact (Calm.refl m).applySize key size (m.convTs ts)

/-- The state of the process. -/
theorem Calm.pollChildLocked (h : m.Calm n) (env : Env) : m.Calm (n.pollChildLocked env) := by
  have hmark : ∀ now code, m.Calm (n.markExiting now code) := by
    intro now code
    have hexit : m.Calm { n with childExiting := true, exitCutoffTs := n.childAliveTs } :=
      h.trans (calm_of_frame rfl rfl)
    exact hexit.sideLine _
  unfold Model.pollChildLocked
  refine Calm.ite h ?_
  dsimp only
  refine Calm.ite ?_ (hmark _ _)
  split
  · exact h
  · exact Calm.ite (h.trans (calm_of_frame rfl rfl)) (hmark _ _)

theorem Calm.afterChildExitLocked (h : m.Calm n) (env : Env) (ts : ℕ) :
    m.Calm (n.afterChildExitLocked env ts).2 := by
  unfold Model.afterChildExitLocked
  exact Calm.ite (h.pollChildLocked env) h

/-- A group change that is not ignored. -/
theorem Calm.regroup (h : m.Calm n) (c : GroupChange) (ts : ℕ) : m.Calm (n.regroup c ts) := by
  have hcount := h.updStats fun t => { t with groupChanges := t.groupChanges + 1 }
  unfold Model.regroup
  dsimp only
  split
  · exact hcount
  · next key e _ => exact Calm.ite (hcount.applyGroup key (fromGroup c.group) ts) hcount

theorem Calm.onEtwGroupChange (h : m.Calm n) (c : GroupChange) (env : Env) :
    m.Calm (n.onEtwGroupChange c env) := by
  have hpolled := h.afterChildExitLocked env (n.convTs c.ts)
  unfold Model.onEtwGroupChange
  exact Calm.ite (hpolled.updStats _) (hpolled.regroup c _)

/-- A batch of group changes, one by one. -/
theorem calm_onEtwGroupChanges (m : Model) (changes : List (GroupChange × Env)) :
    m.Calm (m.onEtwGroupChanges changes) := by
  have hfold : ∀ {r : Model}, m.Calm r →
      m.Calm (changes.foldl (fun m c => m.onEtwGroupChange c.1 c.2) r) := by
    induction changes with
    | nil => exact fun h => h
    | cons c cs ih => exact fun h => ih (h.onEtwGroupChange c.1 c.2)
  unfold onEtwGroupChanges
  exact Calm.ite (Calm.refl m) (hfold (Calm.refl m))

/-- Paging is counted and printed. -/
theorem Calm.countResidency (h : m.Calm n) (ts libId : ℕ) (type : ObjType) (op : ResidencyOp) :
    m.Calm (n.countResidency ts libId type op) := by
  have hline : ∀ {r : Model}, m.Calm r → m.Calm (r.residencyLine ts libId type op) := by
    intro r hr
    unfold residencyLine
    split
    · exact hr.sideLine _
    · exact hr.sideLine _
  unfold Model.countResidency
  split
  · exact h.updStats _
  · exact h.updStats _
  · exact hline (h.updStats _)
  · exact hline (h.updStats _)

theorem calm_onEtwResidency (m : Model) (env : Env) (ts : ℤ) (libId : ℕ) (type : ObjType)
    (op : ResidencyOp) : m.Calm (m.onEtwResidency env ts libId type op) := by
  have hpolled := (Calm.refl m).afterChildExitLocked env (m.convTs ts)
  unfold onEtwResidency
  refine Calm.ite (Calm.refl m) ?_
  exact Calm.ite (hpolled.updStats _) (hpolled.countResidency _ libId type op)

/-- A budget counter. -/
theorem calm_onEtwCounter (m : Model) (env : Env) (ts : ℤ) (counterId : ℕ) (kind : CounterKind)
    (bytes : ℕ) : m.Calm (m.onEtwCounter env ts counterId kind bytes) := by
  have hpolled := (Calm.refl m).afterChildExitLocked env (m.convTs ts)
  unfold onEtwCounter
  refine Calm.ite (Calm.refl m) (Calm.ite (Calm.refl m) ?_)
  exact Calm.ite hpolled (hpolled.trans (calm_of_frame rfl rfl))

/-! ### The main thread -/

/-- What timed out waits no longer, and is not idle either. -/
theorem Calm.expirePending (nowMs : ℕ) (q : List ℕ) (h : m.Calm n) :
    m.Calm (n.expirePending nowMs q) := by
  induction q generalizing n with
  | nil => exact h.trans (calm_of_frame rfl rfl)
  | cons k q ih =>
    unfold Model.expirePending
    split
    · exact ih h
    · split
      · exact ih h
      · split
        · exact h.trans (calm_of_frame rfl rfl)
        · refine ih (Calm.updStats (h.updEtw k fun e hi => ?_) _)
          -- the entry was marked expired, so it is not idle
          have hexpired : true = false := hi.expired
          cases hexpired

/-- The dead that are forgotten are no entries. -/
theorem Calm.forgetDead (nowTs : ℕ) (q : List (ℕ × ℕ)) (h : m.Calm n) :
    m.Calm (n.forgetDead nowTs q) := by
  induction q generalizing n with
  | nil => exact h.trans (calm_of_frame rfl rfl)
  | cons d q ih =>
    obtain ⟨ts, ptr⟩ := d
    unfold Model.forgetDead
    split
    · dsimp only
      split
      · exact ih h
      · exact ih (h.trans (calm_of_frame rfl rfl))
    · exact h.trans (calm_of_frame rfl rfl)

/-- **A tick is calm**: a wait that ends leaves the entry expired, not idle. -/
theorem calm_etwTick (m : Model) (env : Env) (st : Stats) : m.Calm (m.etwTick env st) := by
  have htimers : ∀ nowTs (r : Model), m.Calm r → m.Calm (r.forgetDead nowTs r.destroyHist) :=
    fun nowTs r h => h.forgetDead nowTs r.destroyHist
  have hexpired := ((Calm.refl m).updStats fun t => { t with session := st }).expirePending
    env.nowMs m.pendingQ
  have hlast : ∀ {r : Model}, m.Calm r →
      m.Calm ({ r with lastSecondMs := env.nowMs } : Model).refreshJoinStats :=
    fun h => h.trans (calm_of_frame rfl rfl)
  unfold etwTick
  refine Calm.ite (Calm.refl m) (Calm.ite (htimers _ _ hexpired) ?_)
  exact Calm.ite ((hlast (htimers _ _ hexpired)).sideLine _) (hlast (htimers _ _ hexpired))

/-- The last line is printed. -/
theorem calm_finishEtw (m : Model) (env : Env) (st : Stats) : m.Calm (m.finishEtw env st) := by
  have hstats := (Calm.refl m).updStats fun t => { t with session := st, running := false }
  have hrefresh : m.Calm
      (m.updStats fun t => { t with session := st, running := false }).refreshJoinStats :=
    hstats.trans (calm_of_frame rfl rfl)
  unfold finishEtw
  refine Calm.ite hstats (Calm.ite ?_ hrefresh)
  exact (hrefresh.sideLine _).trans (calm_of_frame rfl rfl)

/-- **One call keeps the owners watched.** -/
theorem watched_step (hetw : m.etwEnabled = true) (hinv : m.join.Inv) (h : m.Watched ∅) (x : Step)
    (hid : ∀ id, x.createdId = some id → id ≠ 0 ∧ m.live.lookup id = none) :
    (m.step x).Watched ∅ := by
  cases x with
  | event ts r =>
    have hlatest : (m.setLatestNs ts).Watched ∅ := h.calm (calm_of_frame rfl rfl)
    have hinv' : (m.setLatestNs ts).join.Inv := hinv
    cases r with
    | hello p =>
      refine hlatest.calm ?_
      show (m.setLatestNs ts).Calm ((m.setLatestNs ts).onHello ts p)
      unfold onHello
      exact Calm.ite (calm_of_frame rfl rfl) (calm_of_frame rfl rfl)
    | created p =>
      obtain ⟨h0, hnew⟩ := hid p.id rfl
      exact watched_onCreated (m := m.setLatestNs ts) hetw hinv' hlatest h0 hnew ts
    | renamed p => exact hlatest.calm ((Calm.refl _).updLive _ _)
    | destroyed p => exact watched_onDestroyed hlatest ts p
    | goodbye p => exact hlatest.calm (calm_of_frame rfl rfl)
    | other => exact hlatest
  | objectCreated ts libId type size group =>
    exact watched_onEtwObjectCreated hinv h ts libId type size group
  | objectAddress env libId address => exact watched_onEtwObjectAddress hinv h env libId address
  | objectDestroyed ts libId => exact h.calm (calm_onEtwObjectDestroyed m ts libId)
  | objectSize ts libId size => exact h.calm (calm_onEtwObjectSize m ts libId size)
  | groupChanges changes => exact h.calm (calm_onEtwGroupChanges m changes)
  | residency env ts libId type op => exact h.calm (calm_onEtwResidency m env ts libId type op)
  | counter env ts counterId kind bytes =>
    exact h.calm (calm_onEtwCounter m env ts counterId kind bytes)
  | diagnostic env error code msg =>
    refine h.calm ?_
    show m.Calm (m.onEtwDiagnostic env error code msg)
    unfold onEtwDiagnostic
    exact Calm.ite (Calm.refl m) (((Calm.refl m).updStats _).sideLine _)
  | tick env st => exact h.calm (calm_etwTick m env st)
  | pollChild env => exact h.calm ((Calm.refl m).pollChildLocked env)
  | setChildProcess => exact h.calm (calm_of_frame rfl rfl)
  | setChildExitQpc exitQpc =>
    refine h.calm ?_
    show m.Calm (m.setChildExitQpc exitQpc)
    unfold setChildExitQpc
    exact Calm.ite (Calm.refl m) (calm_of_frame rfl rfl)
  | markChildExited exitCode => exact h.calm (calm_of_frame rfl rfl)
  | setEtwRunning running => exact h.calm (calm_of_frame rfl rfl)
  | finish env st => exact h.calm (calm_finishEtw m env st)

end Model

end Dx12Track
