import Dx12Track.Launcher.Clock
import Dx12Track.Launcher.Waiting

/-!
# What the calls do to the queues of the tick

`EtwTick` works off two queues from their fronts: the ETW objects that wait for a
tracked object, and the deaths that are remembered.  Almost every call leaves both
alone.  This module says once which ones do not, and what they do.

* `EtwObj.Eases` — an object waits as it did, or not any more.
* `Model.Rests` — a change that queues nothing, prunes nothing and makes nobody wait.
* `Model.rests_step` — the calls that are such changes.
* `onEtwObjectCreated_timers`, `onEtwObjectAddress_timers`, `onDestroyed_timers`,
  `etwTick_timers` — the four that are not.
-/

namespace Dx12Track

open Etw (ObjType Group ResidencyOp CounterKind GroupChange Stats)
open Model (canBind lateMatch)

/-- The object waits as it did before, or it does not wait any more. -/
structure EtwObj.Eases (e e' : EtwObj) : Prop where
  expired : e'.expired = e.expired
  address : e.address ≠ 0 → e'.address ≠ 0
  pending : e'.pendingSinceMs ≠ 0 → e'.pendingSinceMs = e.pendingSinceMs ∧
    (e.boundId = 0 → e.orphanTs = 0 → e'.boundId = 0 ∧ e'.orphanTs = 0)

/-- To leave an entry alone eases it. -/
theorem EtwObj.Eases.refl (e : EtwObj) : e.Eases e :=
  ⟨rfl, id, fun _ => ⟨rfl, fun hb ho => ⟨hb, ho⟩⟩⟩

/-- One change after the other. -/
theorem EtwObj.Eases.trans {e e' e'' : EtwObj} (h : e.Eases e') (h' : e'.Eases e'') :
    e.Eases e'' := by
  refine ⟨h'.expired.trans h.expired, fun ha => h'.address (h.address ha), fun hp => ?_⟩
  obtain ⟨hsame', hkeep'⟩ := h'.pending hp
  obtain ⟨hsame, hkeep⟩ := h.pending (hsame' ▸ hp)
  refine ⟨hsame'.trans hsame, fun hb ho => ?_⟩
  obtain ⟨hb', ho'⟩ := hkeep hb ho
  exact hkeep' hb' ho'

/-- A write that takes the object out of the wait. -/
theorem EtwObj.eases_of_pending {e e' : EtwObj} (hexpired : e'.expired = e.expired)
    (haddress : e'.address = e.address) (hp : e'.pendingSinceMs = 0) : e.Eases e' :=
  ⟨hexpired, fun ha => haddress ▸ ha, fun h => absurd hp h⟩

/-- A write to none of the fields of the wait. -/
theorem EtwObj.eases_of_same {e e' : EtwObj} (hexpired : e'.expired = e.expired)
    (haddress : e'.address = e.address) (hp : e'.pendingSinceMs = e.pendingSinceMs)
    (hb : e'.boundId = e.boundId) (ho : e'.orphanTs = e.orphanTs) : e.Eases e' :=
  ⟨hexpired, fun ha => haddress ▸ ha, fun _ => ⟨hp, fun hb' ho' => ⟨hb.trans hb', ho.trans ho'⟩⟩⟩

/-- The calls that may change the queues of the tick, or store an ETW object. -/
def Step.turnsTimers : Step → Bool
  | .event _ (.destroyed _) | .objectCreated .. | .objectAddress .. | .tick .. => true
  | _ => false

namespace Model

/-- From `m` to `m'` the queues of the tick are left alone, and nobody starts to wait. -/
structure Rests (m m' : Model) : Prop where
  queue : m'.pendingQ = m.pendingQ
  count : m'.s.etw.pendingExpired = m.s.etw.pendingExpired
  dead : m'.deadByPtr = m.deadByPtr
  hist : m'.destroyHist = m.destroyHist
  objs : ∀ k e', m'.etwObjs.lookup k = some e' → ∃ e, m.etwObjs.lookup k = some e ∧ e.Eases e'

/-- One call after the other. -/
theorem Rests.trans {m m' m'' : Model} (h : m.Rests m') (h' : m'.Rests m'') : m.Rests m'' := by
  refine ⟨h'.queue.trans h.queue, h'.count.trans h.count, h'.dead.trans h.dead,
    h'.hist.trans h.hist, fun k e'' he'' => ?_⟩
  obtain ⟨e', he', heases'⟩ := h'.objs k e'' he''
  obtain ⟨e, he, heases⟩ := h.objs k e' he'
  exact ⟨e, he, heases.trans heases'⟩

/-- What touches neither the entries, nor the queues, nor the dead lets the
timers rest. -/
theorem rests_of_frame {m m' : Model} (hobjs : m'.etwObjs = m.etwObjs)
    (hqueue : m'.pendingQ = m.pendingQ)
    (hcount : m'.s.etw.pendingExpired = m.s.etw.pendingExpired)
    (hdead : m'.deadByPtr = m.deadByPtr) (hhist : m'.destroyHist = m.destroyHist) : m.Rests m' :=
  ⟨hqueue, hcount, hdead, hhist, fun _ e he => ⟨e, hobjs ▸ he, EtwObj.Eases.refl e⟩⟩

theorem Rests.refl (m : Model) : m.Rests m := rests_of_frame rfl rfl rfl rfl rfl

variable {m n : Model}

/-- A further such step. -/
theorem Rests.frame (h : m.Rests n) {n' : Model} (hobjs : n'.etwObjs = n.etwObjs)
    (hqueue : n'.pendingQ = n.pendingQ)
    (hcount : n'.s.etw.pendingExpired = n.s.etw.pendingExpired)
    (hdead : n'.deadByPtr = n.deadByPtr) (hhist : n'.destroyHist = n.destroyHist) : m.Rests n' :=
  h.trans (rests_of_frame hobjs hqueue hcount hdead hhist)

/-- Location work leaves the queues alone. -/
theorem Rests.of_sansLoc (h : m.Rests n) {n' : Model} (hs : n'.sansLoc = n.sansLoc) : m.Rests n' :=
  h.frame (congrArg (fun v => v.rest.etwObjs) hs) (congrArg (fun v => v.rest.pendingQ) hs)
    (congrArg (fun v => v.rest.s.etw.pendingExpired) hs)
    (congrArg (fun v => v.rest.deadByPtr) hs) (congrArg (fun v => v.rest.destroyHist) hs)

/-- Lines and locations are such steps. -/
theorem Rests.sideLine (h : m.Rests n) (l : SideLine) : m.Rests (n.sideLine l) :=
  h.of_sansLoc (sansLoc_sideLine n l)
theorem Rests.recomputeLoc (h : m.Rests n) (id ts : ℕ) (force : Bool) :
    m.Rests (n.recomputeLoc id ts force) := h.of_sansLoc (sansLoc_recomputeLoc n id ts force)
theorem Rests.recomputeChildren (h : m.Rests n) (heapId ts : ℕ) :
    m.Rests (n.recomputeChildren heapId ts) := h.of_sansLoc (sansLoc_recomputeChildren n heapId ts)
theorem Rests.updLive (h : m.Rests n) (id : ℕ) (f : LiveObject → LiveObject) :
    m.Rests (n.updLive id f) := h.frame rfl rfl rfl rfl rfl

theorem Rests.updStats (h : m.Rests n) {f : EtwSnapshot → EtwSnapshot}
    (hf : ∀ t, (f t).pendingExpired = t.pendingExpired) : m.Rests (n.updStats f) :=
  h.frame rfl rfl (hf n.s.etw) rfl rfl

theorem Rests.driverAgg (h : m.Rests n) (e : EtwObj) (sign : ℤ) : m.Rests (n.driverAgg e sign) := by
  refine h.trans ?_
  unfold Model.driverAgg
  dsimp only
  split_ifs <;> exact rests_of_frame rfl rfl rfl rfl rfl

/-- So is a write that eases the entry. -/
theorem Rests.updEtw (h : m.Rests n) (key : ℕ) {f : EtwObj → EtwObj}
    (hf : ∀ e : EtwObj, e.Eases (f e)) : m.Rests (n.updEtw key f) := by
  refine h.trans ⟨rfl, rfl, rfl, rfl, fun k e' he' => ?_⟩
  unfold Model.updEtw setEtwObjs at he'
  rw [Finmap.lookup_modify] at he'
  split at he'
  · obtain ⟨e, he, rfl⟩ := Option.map_eq_some_iff.mp he'
    exact ⟨e, he, hf e⟩
  · exact ⟨e', he', EtwObj.Eases.refl e'⟩

/-- An entry that is gone waits no more. -/
theorem Rests.eraseEtw (h : m.Rests n) (key : ℕ) : m.Rests (n.setEtwObjs (n.etwObjs.erase key)) :=
  h.trans ⟨rfl, rfl, rfl, rfl, fun _ e' he' =>
    ⟨e', (Finmap.lookup_erase_some he').2, EtwObj.Eases.refl e'⟩⟩

theorem Rests.ite {n' : Model} {c : Prop} [Decidable c] (h : m.Rests n) (h' : m.Rests n') :
    m.Rests (if c then n else n') := by
  split
  · exact h
  · exact h'

/-! ### The functions of the model -/

/-- **A bound entry waits no more.** -/
theorem Rests.bind (h : m.Rests n) (key id ts : ℕ) : m.Rests (n.bind key id ts) := by
  unfold Model.bind
  split
  · next e o _ _ =>
    have hother : m.Rests (n.unbindOther key o) :=
      Rests.ite
        (h.updEtw o.etwKey fun e => ⟨rfl, fun ha => ha, fun _ => ⟨rfl, fun _ ho => ⟨rfl, ho⟩⟩⟩) h
    have hpair := hother.updEtw key (f := fun e => (e.setBoundId o.id).setPending 0)
      fun e => EtwObj.eases_of_pending rfl rfl rfl
    have hlocated := (((((hpair.updLive id (·.setEtwKey key)).updStats
      (f := fun t => { t with binds := t.binds + 1 }) fun _ => rfl).sideLine
        (.etwBind ts o.id key e.type o.objectPtr false)).updLive id
          (·.setOwnLoc e.group)).recomputeLoc id ts (!o.locReported))
    have hkids := Rests.ite (c := o.type = .heap) (hlocated.recomputeChildren o.id ts) hlocated
    have hsized := hkids.updLive id (·.setDriverSize e.size)
    exact Rests.ite (Rests.ite (hsized.sideLine _) hsized) hkids
  · exact h

/-- Neither does an orphan. -/
theorem Rests.attributeLate (h : m.Rests n) (key ts : ℕ) (e : EtwObj) (x : DeadObj) :
    m.Rests (n.attributeLate key ts e x) :=
  ((h.updEtw key (f := fun e => (e.setOrphanTs (if x.destroyedNs ≠ 0 then x.destroyedNs
    else 1)).setPending 0) fun _ => EtwObj.eases_of_pending rfl rfl rfl).updStats
      (f := fun t => { t with lateMatches := t.lateMatches + 1 }) fun _ => rfl).sideLine _

/-- A group says nothing about waiting. -/
theorem Rests.applyGroup (h : m.Rests n) (key : ℕ) (g : MemLoc) (ts : ℕ) :
    m.Rests (n.applyGroup key g ts) := by
  have hupd := h.updEtw key (f := (·.setGroup g))
    fun e => EtwObj.eases_of_same rfl rfl rfl rfl rfl
  unfold Model.applyGroup
  split
  · exact h
  · next e _ =>
    dsimp only
    split
    · exact hupd
    · split
      · exact hupd
      · next o _ =>
        have hmoved := (hupd.updLive e.boundId (·.setOwnLoc g)).recomputeLoc e.boundId ts false
        exact Rests.ite (hmoved.recomputeChildren o.id ts) hmoved

/-- Neither does a size. -/
theorem Rests.applySize (h : m.Rests n) (key size ts : ℕ) : m.Rests (n.applySize key size ts) := by
  unfold Model.applySize
  split
  · exact h
  · next e _ =>
    split
    · exact h
    · have hupd := ((h.driverAgg e (-1)).updEtw key (f := (·.setSize size))
        fun e => EtwObj.eases_of_same rfl rfl rfl rfl rfl).driverAgg (e.setSize size) 1
      dsimp only
      split
      · exact hupd
      · split
        · exact hupd
        · exact Rests.ite hupd ((hupd.updLive _ _).sideLine _)

/-- What happens to a re-report before its object tries to bind again. -/
theorem Rests.merged (h : m.Rests n) (key : ℕ) (e : EtwObj) (into : ℕ) (old : EtwObj) :
    m.Rests (n.merged key e into old) := by
  have hcount := h.updStats (f := fun t => { t with rundownDuplicates := t.rundownDuplicates + 1 })
    fun _ => rfl
  have hsized := Rests.ite (c := e.size ≠ 0) (hcount.applySize into e.size e.createdTs) hcount
  have hgrouped := (Rests.ite (c := e.group ≠ .unknown ∧ e.group ≠ old.group)
    (hsized.applyGroup into e.group e.createdTs) hsized).driverAgg e (-1)
  have halias := (hgrouped.eraseEtw key).updEtw into (f := (·.addAlias key))
    fun e => EtwObj.eases_of_same rfl rfl rfl rfl rfl
  exact halias.frame rfl rfl rfl rfl rfl

/-- An object takes its address; what is left is to look for its tracked object. -/
theorem Rests.own (h : m.Rests n) (key : ℕ) (e : EtwObj) {address : ℕ} (ha : address ≠ 0) :
    m.Rests (((n.updEtw key (·.setAddress address)).setEtwByAddr
      ((n.updEtw key (·.setAddress address)).etwByAddr.insert address key)).sideLine
        (.etwObject e.createdTs key e.type address e.size e.group)) := by
  have hupd := h.updEtw key (f := (·.setAddress address))
    fun e => ⟨rfl, fun _ => ha, fun _ => ⟨rfl, fun hb ho => ⟨hb, ho⟩⟩⟩
  refine Rests.sideLine ?_ _
  exact hupd.frame rfl rfl rfl rfl rfl

/-- Who loses its partner is an orphan, and does not wait for another. -/
theorem Rests.orphanBound (h : m.Rests n) (id : ℕ) {o : LiveObject} (ho : o.id ≠ 0) (ts : ℕ) :
    m.Rests (n.orphanBound id o ts) := by
  unfold Model.orphanBound
  refine Rests.ite h (Rests.updLive ?_ id _)
  split
  · exact h
  · next e he =>
    split
    · next hb =>
      -- the object was bound, so it has nothing to keep
      refine h.trans ⟨rfl, rfl, rfl, rfl, fun k e' he' => ?_⟩
      unfold Model.updEtw setEtwObjs at he'
      rw [Finmap.lookup_modify] at he'
      split at he'
      · next hk =>
        rw [hk, he] at he'
        cases he'
        refine ⟨e, hk ▸ he, rfl, fun ha => ha, fun hp => ⟨rfl, fun hb0 => ?_⟩⟩
        exact absurd (hb.symm.trans hb0) ho
      · exact ⟨e', he', EtwObj.Eases.refl e'⟩
    · exact h

/-! ### Attempts to bind -/

/-- The object under `key` starts to wait at the reading `t`. -/
def queueUp (m : Model) (key t : ℕ) : Model :=
  (m.updEtw key (·.setPending t)).setPendingQ (m.pendingQ ++ [key])

/-- An attempt leaves the queues alone, or the object starts to wait, which it has not done
before. -/
theorem tryBindEtw_timers (m : Model) (env : Env) (key ts : ℕ) :
    m.Rests (m.tryBindEtw env key ts) ∨
      ∃ e, m.etwObjs.lookup key = some e ∧ e.boundId = 0 ∧ e.orphanTs = 0 ∧ e.address ≠ 0 ∧
        bindable e.type = true ∧ e.pendingSinceMs = 0 ∧ e.expired = false ∧
        m.tryBindEtw env key ts = m.queueUp key (if env.nowMs ≠ 0 then env.nowMs else 1) := by
  unfold tryBindEtw
  split
  · exact .inl (Rests.refl m)
  · next e he =>
    split
    · exact .inl (Rests.refl m)
    · next hopen =>
      push Not at hopen
      obtain ⟨hb, ho, ha, ht⟩ := hopen
      split
      · exact .inl ((Rests.refl m).bind _ _ _)
      · split
        · exact .inl ((Rests.refl m).attributeLate _ _ _ _)
        · unfold waitForObject
          split
          · next hnew =>
            exact .inr ⟨e, he, hb, ho, ha, by simpa using ht, hnew.1, hnew.2, rfl⟩
          · exact .inl (Rests.refl m)

/-! ### The pipe -/

/-- A created object ends the wait of the owner of its address. -/
theorem Rests.bindReported (h : m.Rests n) (id ts : ℕ) : m.Rests (n.bindReported id ts) := by
  rcases n.bindReported_cases id ts with hsame | ⟨o, key, e, -, -, -, -, -, hbind⟩
  · rw [hsame]
    exact h
  · rw [hbind]
    exact h.bind key id ts

theorem Rests.indexOccupant (h : m.Rests n) (id : ℕ) (o : LiveObject) :
    m.Rests (n.indexOccupant id o) := Rests.ite h (h.frame rfl rfl rfl rfl rfl)

theorem Rests.addChild (h : m.Rests n) (o : LiveObject) : m.Rests (n.addChild o) :=
  Rests.ite (h.frame rfl rfl rfl rfl rfl) h

/-- The ETW part of a creation. -/
theorem Rests.etwOnCreated (h : m.Rests n) (id ts : ℕ) : m.Rests (n.etwOnCreated id ts) := by
  unfold Model.etwOnCreated
  split
  · exact h
  · next o _ =>
    have hplaced := (h.indexOccupant id o).addChild o
    exact (hplaced.of_sansLoc (sansLoc_firstLoc _ id ts)).bindReported id ts

/-- **A `created` record lets the timers rest.** -/
theorem Rests.onCreated (h : m.Rests n) (ts : ℕ) (p : CreatedPayload) :
    m.Rests (n.onCreated ts p) := by
  have hjoin : ∀ {r : Model}, m.Rests r →
      m.Rests (if r.etwEnabled then r.etwOnCreated p.id ts else r) :=
    fun hr => Rests.ite (hr.etwOnCreated p.id ts) hr
  have hrecent : ∀ {r : Model} (line : ActivityLine), m.Rests r → m.Rests (r.pushRecent line) :=
    fun _ hr => hr.frame rfl rfl rfl rfl rfl
  unfold Model.onCreated
  exact hrecent _ (hjoin (h.frame rfl rfl rfl rfl rfl))

theorem Rests.removeChild (h : m.Rests n) (o : LiveObject) : m.Rests (n.removeChild o) := by
  unfold Model.removeChild
  refine Rests.ite ?_ h
  split
  · exact h
  · exact Rests.ite (h.frame rfl rfl rfl rfl rfl) (h.frame rfl rfl rfl rfl rfl)

/-- The children of a dying heap only move. -/
theorem Rests.dropChildren (h : m.Rests n) (o : LiveObject) (ts : ℕ) :
    m.Rests (n.dropChildren o ts) := by
  have hfold : ∀ (kids : List ℕ) {r : Model}, m.Rests r →
      m.Rests (kids.foldl (fun m cid => m.dropToOwnLoc cid ts) r) := by
    intro kids
    induction kids with
    | nil => exact fun h => h
    | cons k kids ih => exact fun h => ih (h.of_sansLoc (sansLoc_dropToOwnLoc _ k ts))
  unfold Model.dropChildren
  refine Rests.ite ?_ h
  split
  · exact h
  · exact hfold _ (h.frame rfl rfl rfl rfl rfl)

/-- A `destroyed` record: the death is remembered, and the bound ETW object is orphaned. -/
theorem onDestroyed_timers (m : Model) (ts : ℕ) (p : DestroyedPayload) :
    m.Rests (m.onDestroyed ts p) ∨
      ∃ o n, m.live.lookup p.id = some o ∧ m.Rests n ∧
        ((n.forgetOccupant o ts).orphanBound p.id o ts).Rests (m.onDestroyed ts p) := by
  unfold onDestroyed
  split
  · exact .inl (Rests.refl m)
  · next o ho =>
    dsimp only
    split
    · refine .inr ⟨o, m.addLoc o (-1), ho, (Rests.refl m).of_sansLoc (sansLoc_addLoc m o (-1)), ?_⟩
      have hjoin : m.etwOnDestroyed p.id ts = (((((m.addLoc o (-1)).forgetOccupant o
          ts).orphanBound p.id o ts).removeChild o).dropChildren o ts) := by
        unfold etwOnDestroyed
        rw [ho]
      rw [hjoin]
      refine (((Rests.refl _).removeChild o).dropChildren o ts).trans ?_
      -- the counts and the list of recent events are what is left
      generalize Model.dropChildren _ o ts = r
      exact rests_of_frame rfl rfl rfl rfl rfl
    · exact .inl ((Rests.refl m).frame rfl rfl rfl rfl rfl)

/-! ### The ETW sink -/

/-- A report of a new object queues nothing; the object does not wait yet. -/
theorem onEtwObjectCreated_timers (m : Model) (ts : ℤ) (libId : ℕ) (type : ObjType) (size : ℕ)
    (group : Group) :
    m.Rests (m.onEtwObjectCreated ts libId type size group) ∨
      ∃ n e, m.Rests n ∧ n.etwObjs.lookup libId = none ∧ e.pendingSinceMs = 0 ∧
        e.expired = false ∧
        (n.setEtwObjs (n.etwObjs.insert libId e)).Rests
          (m.onEtwObjectCreated ts libId type size group) := by
  unfold onEtwObjectCreated
  split
  · exact .inl (Rests.refl m)
  · have hcounted := (Rests.refl m).driverAgg
      { type := type, size := size, group := fromGroup group, createdTs := m.convTs ts } 1
    dsimp only
    unfold storeEtw
    dsimp only
    split
    · exact .inl (hcounted.frame rfl rfl rfl rfl rfl)
    · next hnone =>
      exact .inr ⟨_, _, hcounted, by simpa using hnone, rfl, rfl,
        rests_of_frame rfl rfl rfl rfl rfl⟩

/-- An address leaves the queues alone, or the object that takes it starts to wait, or the owner
that a re-report is merged into. -/
theorem onEtwObjectAddress_timers (m : Model) (env : Env) (libId address : ℕ) :
    m.Rests (m.onEtwObjectAddress env libId address) ∨
      ∃ n key e, m.Rests n ∧ n.etwObjs.lookup key = some e ∧
        e.boundId = 0 ∧ e.orphanTs = 0 ∧ e.address ≠ 0 ∧ e.pendingSinceMs = 0 ∧
        e.expired = false ∧
        m.onEtwObjectAddress env libId address
          = n.queueUp key (if env.nowMs ≠ 0 then env.nowMs else 1) ∧
        ((∃ e₀, m.etwObjs.lookup key = some e₀ ∧ e₀.address = 0) ∨
          ∃ lib e' old, m.findEtw libId = some (lib, e') ∧ e'.address = 0 ∧
            m.etwByAddr.lookup address = some key ∧ key ≠ lib ∧ m.etwObjs.lookup key = some old ∧
            bindable e.type = true ∧ n = m.merged lib e' key old) := by
  rcases m.onEtwObjectAddress_cases env libId address with
    hsame | ⟨key, e, hfind, ha, hz, htake | hfold⟩
  · rw [hsame]
    exact .inl (Rests.refl m)
  · have hown := (Rests.refl m).own key e ha
    rw [htake]
    rcases tryBindEtw_timers _ env key e.createdTs with
      hrest | ⟨e', he', hb, ho, ha', -, hp, hx, htry⟩
    · exact .inl (hown.trans hrest)
    · exact .inr ⟨_, key, e', hown, he', hb, ho, ha', hp, hx, htry,
        .inl ⟨e, (findEtw_some hfind).2, hz⟩⟩
  · obtain ⟨into, old, hinto, hne, hold, -, hfold⟩ := hfold
    have hmerged := (Rests.refl m).merged key e into old
    rw [hfold, foldRundown_eq]
    rcases tryBindEtw_timers _ env into e.createdTs with
      hrest | ⟨e', he', hb, ho, ha', ht, hp, hx, htry⟩
    · exact .inl (hmerged.trans hrest)
    · exact .inr ⟨_, into, e', hmerged, he', hb, ho, ha', hp, hx, htry,
        .inr ⟨key, e, old, hfind, hz, hinto, hne, hold, ht, rfl⟩⟩

theorem Rests.unkey (h : m.Rests n) (key : ℕ) (e : EtwObj) : m.Rests (n.unkey key e) := by
  rcases n.unkey_cases key e with hsame | hcut
  · rw [hsame]
    exact h
  · rw [hcut]
    exact h.updLive _ _

/-- A dropped entry waits no more. -/
theorem Rests.dropEtw (h : m.Rests n) (key : ℕ) (e : EtwObj) : m.Rests (n.dropEtw key e) := by
  have haddr : ∀ (c : Prop) [Decidable c] (t : Table ℕ ℕ) (u : Table ℕ ℕ),
      m.Rests (if c then (n.setEtwAlias t).setEtwByAddr u else n.setEtwAlias t) :=
    fun c _ t u => Rests.ite (h.frame rfl rfl rfl rfl rfl) (h.frame rfl rfl rfl rfl rfl)
  unfold Model.dropEtw
  exact ((haddr _ _ _).driverAgg e (-1)).eraseEtw key

/-- A destruction from ETW. -/
theorem rests_onEtwObjectDestroyed (m : Model) (ts : ℤ) (libId : ℕ) :
    m.Rests (m.onEtwObjectDestroyed ts libId) := by
  unfold onEtwObjectDestroyed
  refine Rests.ite (Rests.refl m) ?_
  split
  · exact Rests.refl m
  · next key e _ =>
    have hline : m.Rests (if e.address ≠ 0 then m.sideLine (.etwObjectDestroyed (m.convTs ts) key)
        else m) := Rests.ite ((Rests.refl m).sideLine _) (Rests.refl m)
    exact (hline.unkey key e).dropEtw key e

theorem rests_onEtwObjectSize (m : Model) (ts : ℤ) (libId size : ℕ) :
    m.Rests (m.onEtwObjectSize ts libId size) := by
  unfold onEtwObjectSize
  refine Rests.ite (Rests.refl m) ?_
  split
  · exact Rests.refl m
  · next key _ _ => exact (Rests.refl m).applySize key size (m.convTs ts)

/-- The state of the process. -/
theorem Rests.pollChildLocked (h : m.Rests n) (env : Env) : m.Rests (n.pollChildLocked env) := by
  have hmark : ∀ now code, m.Rests (n.markExiting now code) := by
    intro now code
    have hexit : m.Rests { n with childExiting := true, exitCutoffTs := n.childAliveTs } :=
      h.frame rfl rfl rfl rfl rfl
    exact hexit.sideLine _
  unfold Model.pollChildLocked
  refine Rests.ite h ?_
  dsimp only
  refine Rests.ite ?_ (hmark _ _)
  split
  · exact h
  · exact Rests.ite (h.frame rfl rfl rfl rfl rfl) (hmark _ _)

theorem Rests.afterChildExitLocked (h : m.Rests n) (env : Env) (ts : ℕ) :
    m.Rests (n.afterChildExitLocked env ts).2 := by
  unfold Model.afterChildExitLocked
  exact Rests.ite (h.pollChildLocked env) h

/-- A group change, ignored or not. -/
theorem Rests.onEtwGroupChange (h : m.Rests n) (c : GroupChange) (env : Env) :
    m.Rests (n.onEtwGroupChange c env) := by
  have hpolled := h.afterChildExitLocked env (n.convTs c.ts)
  unfold Model.onEtwGroupChange
  refine Rests.ite (hpolled.updStats fun _ => rfl) ?_
  have hcount := hpolled.updStats (f := fun t => { t with groupChanges := t.groupChanges + 1 })
    fun _ => rfl
  unfold Model.regroup
  dsimp only
  split
  · exact hcount
  · next key e _ => exact Rests.ite (hcount.applyGroup key (fromGroup c.group) _) hcount

/-- A batch, one by one. -/
theorem rests_onEtwGroupChanges (m : Model) (changes : List (GroupChange × Env)) :
    m.Rests (m.onEtwGroupChanges changes) := by
  have hfold : ∀ {r : Model}, m.Rests r →
      m.Rests (changes.foldl (fun m c => m.onEtwGroupChange c.1 c.2) r) := by
    induction changes with
    | nil => exact fun h => h
    | cons c cs ih => exact fun h => ih (h.onEtwGroupChange c.1 c.2)
  unfold onEtwGroupChanges
  exact Rests.ite (Rests.refl m) (hfold (Rests.refl m))

theorem Rests.countResidency (h : m.Rests n) (ts libId : ℕ) (type : ObjType) (op : ResidencyOp) :
    m.Rests (n.countResidency ts libId type op) := by
  have hline : ∀ {r : Model}, m.Rests r → m.Rests (r.residencyLine ts libId type op) := by
    intro r hr
    unfold residencyLine
    split <;> exact hr.sideLine _
  unfold Model.countResidency
  split
  · exact h.updStats fun _ => rfl
  · exact h.updStats fun _ => rfl
  · exact hline (h.updStats fun _ => rfl)
  · exact hline (h.updStats fun _ => rfl)

/-- Paging is counted and printed. -/
theorem rests_onEtwResidency (m : Model) (env : Env) (ts : ℤ) (libId : ℕ) (type : ObjType)
    (op : ResidencyOp) : m.Rests (m.onEtwResidency env ts libId type op) := by
  have hpolled := (Rests.refl m).afterChildExitLocked env (m.convTs ts)
  unfold onEtwResidency
  refine Rests.ite (Rests.refl m) ?_
  exact Rests.ite (hpolled.updStats fun _ => rfl) (hpolled.countResidency _ libId type op)

theorem rests_onEtwCounter (m : Model) (env : Env) (ts : ℤ) (counterId : ℕ) (kind : CounterKind)
    (bytes : ℕ) : m.Rests (m.onEtwCounter env ts counterId kind bytes) := by
  have hpolled := (Rests.refl m).afterChildExitLocked env (m.convTs ts)
  unfold onEtwCounter
  refine Rests.ite (Rests.refl m) (Rests.ite (Rests.refl m) ?_)
  exact Rests.ite hpolled (hpolled.frame rfl rfl rfl rfl rfl)

/-! ### The main thread -/

/-- The last line expires nothing. -/
theorem rests_finishEtw (m : Model) (env : Env) (st : Stats) : m.Rests (m.finishEtw env st) := by
  have hstats := (Rests.refl m).updStats
    (f := fun t => { t with session := st, running := false }) fun _ => rfl
  have hrefresh : m.Rests
      (m.updStats fun t => { t with session := st, running := false }).refreshJoinStats :=
    hstats.frame rfl rfl rfl rfl rfl
  unfold finishEtw
  refine Rests.ite hstats (Rests.ite ?_ hrefresh)
  exact (hrefresh.sideLine _).frame rfl rfl rfl rfl rfl

/-- A tick works off both queues. -/
theorem etwTick_timers (m : Model) (env : Env) (st : Stats) :
    m.etwEnabled = false ∧ m.etwTick env st = m ∨
      ∃ n, m.Rests n ∧
        (forgetDead (m.nowTsLocked env) (expirePending env.nowMs n.pendingQ n).destroyHist
          (expirePending env.nowMs n.pendingQ n)).Rests (m.etwTick env st) := by
  unfold etwTick
  split
  · next hoff => exact .inl ⟨by simpa using hoff, rfl⟩
  · have hclock : (expirePending env.nowMs m.pendingQ (m.updStats fun t =>
        { t with session := st })).nowTsLocked env = m.nowTsLocked env :=
      nowTsLocked_of_timebase (timebase_of_sansJoin (sansJoin_expirePending env.nowMs m.pendingQ
        (m.updStats fun t => { t with session := st }))) env
    refine .inr ⟨m.updStats fun t => { t with session := st },
      (Rests.refl m).updStats fun _ => rfl, ?_⟩
    rw [← hclock]
    have hlast : ∀ r : Model,
        r.Rests ({ r with lastSecondMs := env.nowMs } : Model).refreshJoinStats :=
      fun r => rests_of_frame rfl rfl rfl rfl rfl
    refine Rests.ite (Rests.refl _) (Rests.ite ?_ (hlast _))
    exact (hlast _).sideLine _

/-- **The other calls leave the queues alone.** -/
theorem rests_step (m : Model) {x : Step} (hx : x.turnsTimers = false) : m.Rests (m.step x) := by
  cases x with
  | event ts r =>
    have hlatest : m.Rests (m.setLatestNs ts) := rests_of_frame rfl rfl rfl rfl rfl
    cases r with
    | hello p =>
      refine hlatest.trans ?_
      show (m.setLatestNs ts).Rests ((m.setLatestNs ts).onHello ts p)
      unfold onHello
      exact Rests.ite (rests_of_frame rfl rfl rfl rfl rfl) (rests_of_frame rfl rfl rfl rfl rfl)
    | created p => exact hlatest.onCreated ts p
    | renamed p => exact hlatest.updLive _ _
    | destroyed p => cases hx
    | goodbye p => exact hlatest.frame rfl rfl rfl rfl rfl
    | other => exact hlatest
  | objectCreated ts libId type size group => cases hx
  | objectAddress env libId address => cases hx
  | objectDestroyed ts libId => exact rests_onEtwObjectDestroyed m ts libId
  | objectSize ts libId size => exact rests_onEtwObjectSize m ts libId size
  | groupChanges changes => exact rests_onEtwGroupChanges m changes
  | residency env ts libId type op => exact rests_onEtwResidency m env ts libId type op
  | counter env ts counterId kind bytes => exact rests_onEtwCounter m env ts counterId kind bytes
  | diagnostic env error code msg =>
    show m.Rests (m.onEtwDiagnostic env error code msg)
    unfold onEtwDiagnostic
    have hcount := (Rests.refl m).updStats
      (f := fun t => { t with diagnostics := t.diagnostics + 1 }) fun _ => rfl
    exact Rests.ite (Rests.refl m) (hcount.sideLine _)
  | tick env st => cases hx
  | pollChild env => exact (Rests.refl m).pollChildLocked env
  | setChildProcess => exact rests_of_frame rfl rfl rfl rfl rfl
  | setChildExitQpc exitQpc =>
    show m.Rests (m.setChildExitQpc exitQpc)
    unfold setChildExitQpc
    exact Rests.ite (Rests.refl m) (rests_of_frame rfl rfl rfl rfl rfl)
  | markChildExited exitCode => exact rests_of_frame rfl rfl rfl rfl rfl
  | setEtwRunning running => exact rests_of_frame rfl rfl rfl rfl rfl
  | finish env st => exact rests_finishEtw m env st

end Model

end Dx12Track
