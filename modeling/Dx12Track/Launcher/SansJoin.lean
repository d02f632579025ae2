import Dx12Track.Launcher.SansLoc

/-!
# The model without the join

What the pipe alone tells the launcher: the payload fields of the live objects,
the counters over them, the clocks.  `Model.sansJoin` is that part of a model,
and the work of the join leaves it as it was.

* `LiveObject.payload`, `Model.sansJoin` — the projection.
* `sansJoin_bind`, `sansJoin_tryBindEtw`, … — the join is invisible to it.
* `sansJoin_etwOnCreated`, `sansJoin_etwOnDestroyed` — so is the join's part in
  the records of the pipe.
-/

namespace Dx12Track

open Finmap

/-- What the pipe said about a live object. -/
def LiveObject.payload (o : LiveObject) : LiveObject :=
  { o with
    prevDestroyNs := 0
    etwKey := 0
    ownLoc := .unknown
    effLoc := .unknown
    locReported := false
    driverSize := 0 }

namespace LiveObject

/-- What the join writes into a live object is not in its payload. -/
theorem payload_setPrevDestroyNs (o : LiveObject) (t : ℕ) :
    (o.setPrevDestroyNs t).payload = o.payload := rfl
theorem payload_setEtwKey (o : LiveObject) (k : ℕ) : (o.setEtwKey k).payload = o.payload := rfl
theorem payload_setOwnLoc (o : LiveObject) (l : MemLoc) : (o.setOwnLoc l).payload = o.payload := rfl
theorem payload_setDriverSize (o : LiveObject) (n : ℕ) :
    (o.setDriverSize n).payload = o.payload := rfl

end LiveObject

/-- The view without the join. -/
def View.sansJoin (v : View) : View where
  rest := { v.rest with
    s.etw := {}
    ptrToId := ∅
    deadByPtr := ∅
    destroyHist := []
    children := ∅
    etwObjs := ∅
    etwAlias := ∅
    etwByAddr := ∅
    pendingQ := []
    lastSecondMs := 0 }
  live := fun id => (v.live id).map LiveObject.payload

namespace Model

/-- The model without the join. -/
def sansJoin (m : Model) : View := m.sansLoc.sansJoin

/-- Of a live object the payload is left. -/
theorem sansJoin_live (m : Model) (id : ℕ) :
    m.sansJoin.live id = (m.live.lookup id).map LiveObject.payload := by
  show ((m.live.lookup id).map LiveObject.noLoc).map LiveObject.payload = _
  rw [Option.map_map]
  rfl

/-! ### Writes -/

/-- The sidecar is not in the view. -/
@[simp] theorem sansJoin_sideLine (m : Model) (l : SideLine) :
    (m.sideLine l).sansJoin = m.sansJoin := congrArg View.sansJoin (sansLoc_sideLine m l)

/-- A write to a field of the join. -/
theorem sansJoin_updLive (m : Model) (id : ℕ) {f : LiveObject → LiveObject}
    (hf : ∀ o, (f o).payload = o.payload) : (m.updLive id f).sansJoin = m.sansJoin := by
  have hlive : (m.updLive id f).sansJoin.live = m.sansJoin.live := by
    funext i
    rw [sansJoin_live, sansJoin_live]
    exact map_lookup_modify id i hf m.live
  exact congrArg (View.mk m.sansJoin.rest) hlive

/-- The entries are not in the view. -/
@[simp] theorem sansJoin_updEtw (m : Model) (key : ℕ) (f : EtwObj → EtwObj) :
    (m.updEtw key f).sansJoin = m.sansJoin := rfl
@[simp] theorem sansJoin_updStats (m : Model) (f : EtwSnapshot → EtwSnapshot) :
    (m.updStats f).sansJoin = m.sansJoin := rfl
/-- Neither are the indexes and the queues of the join. -/
@[simp] theorem sansJoin_setPtrToId (m : Model) (t : Table ℕ ℕ) :
    (m.setPtrToId t).sansJoin = m.sansJoin := rfl
@[simp] theorem sansJoin_setChildren (m : Model) (t : Table ℕ (List ℕ)) :
    (m.setChildren t).sansJoin = m.sansJoin := rfl
@[simp] theorem sansJoin_setEtwObjs (m : Model) (t : Table ℕ EtwObj) :
    (m.setEtwObjs t).sansJoin = m.sansJoin := rfl
@[simp] theorem sansJoin_setEtwAlias (m : Model) (t : Table ℕ ℕ) :
    (m.setEtwAlias t).sansJoin = m.sansJoin := rfl
@[simp] theorem sansJoin_setEtwByAddr (m : Model) (t : Table ℕ ℕ) :
    (m.setEtwByAddr t).sansJoin = m.sansJoin := rfl
@[simp] theorem sansJoin_setDeadByPtr (m : Model) (t : Table ℕ (List DeadObj)) :
    (m.setDeadByPtr t).sansJoin = m.sansJoin := rfl
@[simp] theorem sansJoin_setDestroyHist (m : Model) (q : List (ℕ × ℕ)) :
    (m.setDestroyHist q).sansJoin = m.sansJoin := rfl

/-- Neither are the locations. -/
@[simp] theorem sansJoin_addLoc (m : Model) (o : LiveObject) (sign : ℤ) :
    (m.addLoc o sign).sansJoin = m.sansJoin := congrArg View.sansJoin (sansLoc_addLoc m o sign)
@[simp] theorem sansJoin_recomputeLoc (m : Model) (id ts : ℕ) (force : Bool) :
    (m.recomputeLoc id ts force).sansJoin = m.sansJoin :=
  congrArg View.sansJoin (sansLoc_recomputeLoc m id ts force)
@[simp] theorem sansJoin_recomputeChildren (m : Model) (heapId ts : ℕ) :
    (m.recomputeChildren heapId ts).sansJoin = m.sansJoin :=
  congrArg View.sansJoin (sansLoc_recomputeChildren m heapId ts)
@[simp] theorem sansJoin_dropToOwnLoc (m : Model) (cid ts : ℕ) :
    (m.dropToOwnLoc cid ts).sansJoin = m.sansJoin :=
  congrArg View.sansJoin (sansLoc_dropToOwnLoc m cid ts)
@[simp] theorem sansJoin_firstLoc (m : Model) (id ts : ℕ) :
    (m.firstLoc id ts).sansJoin = m.sansJoin :=
  congrArg View.sansJoin (sansLoc_firstLoc m id ts)

/-- Neither are the totals of the driver's objects. -/
@[simp] theorem sansJoin_driverAgg (m : Model) (e : EtwObj) (sign : ℤ) :
    (m.driverAgg e sign).sansJoin = m.sansJoin := by
  unfold driverAgg
  dsimp only
  split_ifs <;> rfl

/-! ### Binding -/

/-- To let go of a partner is a write to an entry. -/
@[simp] theorem sansJoin_unbindOther (m : Model) (key : ℕ) (o : LiveObject) :
    (m.unbindOther key o).sansJoin = m.sansJoin := by
  unfold unbindOther
  split <;> rfl

/-- **A binding changes no payload.** -/
@[simp] theorem sansJoin_bind (m : Model) (key id ts : ℕ) :
    (m.bind key id ts).sansJoin = m.sansJoin := by
  unfold bind
  split
  · next e o _ _ =>
    have hchildren : ∀ r : Model,
        (if o.type = .heap then r.recomputeChildren o.id ts else r).sansJoin = r.sansJoin := by
      intro r; split <;> simp
    have hline : ∀ r : Model,
        (if e.size ≠ 0 then r.sideLine (.driverSize ts o.id e.size) else r).sansJoin
          = r.sansJoin := by
      intro r; split <;> simp
    have hwrites : ((((m.unbindOther key o).updEtw key fun e =>
        (e.setBoundId o.id).setPending 0).updLive id (·.setEtwKey key)).updStats
        fun t => { t with binds := t.binds + 1 }).sansJoin = m.sansJoin := by
      rw [sansJoin_updStats, sansJoin_updLive _ _ (fun o => o.payload_setEtwKey key),
        sansJoin_updEtw, sansJoin_unbindOther]
    dsimp only
    split
    · rw [hline, sansJoin_updLive _ _ (fun o => o.payload_setDriverSize e.size), hchildren,
        sansJoin_recomputeLoc, sansJoin_updLive _ _ (fun o => o.payload_setOwnLoc e.group),
        sansJoin_sideLine, hwrites]
    · rw [hchildren, sansJoin_recomputeLoc,
        sansJoin_updLive _ _ (fun o => o.payload_setOwnLoc e.group), sansJoin_sideLine, hwrites]
  · rfl

/-- Nor does an attempt to bind, whatever comes of it. -/
@[simp] theorem sansJoin_tryBindEtw (m : Model) (env : Env) (key ts : ℕ) :
    (m.tryBindEtw env key ts).sansJoin = m.sansJoin := by
  rcases m.tryBindEtw_cases env key ts with hsame | ⟨e, -, ⟨id, -, hbind⟩ | ⟨x, hlate⟩ | hwait⟩
  · rw [hsame]
  · rw [hbind, sansJoin_bind]
  · rw [hlate]
    exact sansJoin_sideLine _ _
  · rw [hwait]
    unfold waitForObject
    split <;> rfl

/-- A group goes to the location of the partner. -/
@[simp] theorem sansJoin_applyGroup (m : Model) (key : ℕ) (g : MemLoc) (ts : ℕ) :
    (m.applyGroup key g ts).sansJoin = m.sansJoin := by
  unfold applyGroup
  split
  · rfl
  · dsimp only
    split
    · rfl
    · split
      · rfl
      · split
        · rw [sansJoin_recomputeChildren, sansJoin_recomputeLoc,
            sansJoin_updLive _ _ (fun o => o.payload_setOwnLoc g), sansJoin_updEtw]
        · rw [sansJoin_recomputeLoc, sansJoin_updLive _ _ (fun o => o.payload_setOwnLoc g),
            sansJoin_updEtw]

/-- A size goes to its driver size. -/
@[simp] theorem sansJoin_applySize (m : Model) (key size ts : ℕ) :
    (m.applySize key size ts).sansJoin = m.sansJoin := by
  have hagg : ∀ e : EtwObj, (((m.driverAgg e (-1)).updEtw key (·.setSize size)).driverAgg
      (e.setSize size) 1).sansJoin = m.sansJoin := by
    intro e
    rw [sansJoin_driverAgg, sansJoin_updEtw, sansJoin_driverAgg]
  unfold applySize
  split
  · rfl
  · dsimp only
    split
    · rfl
    · split
      · exact hagg _
      · split
        · exact hagg _
        · split
          · exact hagg _
          · rw [sansJoin_sideLine, sansJoin_updLive _ _ (fun o => o.payload_setDriverSize size),
              hagg]

/-! ### Records from the pipe -/

/-- The time of death of the former occupant is not in the payload. -/
@[simp] theorem sansJoin_indexOccupant (m : Model) (id : ℕ) (o : LiveObject) :
    (m.indexOccupant id o).sansJoin = m.sansJoin := by
  unfold indexOccupant
  split
  · rfl
  · rw [sansJoin_setPtrToId, sansJoin_updLive _ _ (fun o => o.payload_setPrevDestroyNs _)]

@[simp] theorem sansJoin_addChild (m : Model) (o : LiveObject) :
    (m.addChild o).sansJoin = m.sansJoin := by
  unfold addChild
  split <;> rfl

/-- A created object may be bound at once. -/
@[simp] theorem sansJoin_bindReported (m : Model) (id ts : ℕ) :
    (m.bindReported id ts).sansJoin = m.sansJoin := by
  rcases m.bindReported_cases id ts with hsame | ⟨o, key, e, -, -, -, -, -, hbind⟩
  · rw [hsame]
  · rw [hbind, sansJoin_bind]

/-- **The join's part in a `created` record touches nothing of the pipe's.** -/
theorem sansJoin_etwOnCreated (m : Model) (id ts : ℕ) :
    (m.etwOnCreated id ts).sansJoin = m.sansJoin := by
  unfold etwOnCreated
  split <;> simp

/-- A dead record is kept outside the view. -/
@[simp] theorem sansJoin_forgetOccupant (m : Model) (o : LiveObject) (ts : ℕ) :
    (m.forgetOccupant o ts).sansJoin = m.sansJoin := by
  unfold forgetOccupant
  split
  · rfl
  · rw [sansJoin_setDestroyHist, sansJoin_setDeadByPtr]
    split <;> rfl

/-- So is the orphan. -/
@[simp] theorem sansJoin_orphanBound (m : Model) (id : ℕ) (o : LiveObject) (ts : ℕ) :
    (m.orphanBound id o ts).sansJoin = m.sansJoin := by
  unfold orphanBound
  split
  · rfl
  · rw [sansJoin_updLive _ _ (fun o => o.payload_setEtwKey 0)]
    split
    · rfl
    · split <;> rfl

@[simp] theorem sansJoin_removeChild (m : Model) (o : LiveObject) :
    (m.removeChild o).sansJoin = m.sansJoin := by
  unfold removeChild
  split
  · split
    · rfl
    · dsimp only
      split <;> rfl
  · rfl

/-- What falls back to its own location keeps its payload. -/
@[simp] theorem sansJoin_dropChildren (m : Model) (o : LiveObject) (ts : ℕ) :
    (m.dropChildren o ts).sansJoin = m.sansJoin := by
  have hfold : ∀ (kids : List ℕ) (r : Model),
      (kids.foldl (fun m cid => m.dropToOwnLoc cid ts) r).sansJoin = r.sansJoin := by
    intro kids
    induction kids with
    | nil => exact fun _ => rfl
    | cons k kids ih =>
      intro r
      rw [List.foldl_cons, ih, sansJoin_dropToOwnLoc]
  unfold dropChildren
  split
  · split
    · rfl
    · rw [hfold, sansJoin_setChildren]
  · rfl

/-- **The join's part in a `destroyed` record touches nothing of the pipe's.** -/
theorem sansJoin_etwOnDestroyed (m : Model) (id ts : ℕ) :
    (m.etwOnDestroyed id ts).sansJoin = m.sansJoin := by
  unfold etwOnDestroyed
  split <;> simp

/-! ### The ETW sink -/

/-- **No call of the sink is seen**, this one and those below. -/
theorem sansJoin_onEtwObjectCreated (m : Model) (ts : ℤ) (libId : ℕ) (type : Etw.ObjType)
    (size : ℕ) (group : Etw.Group) :
    (m.onEtwObjectCreated ts libId type size group).sansJoin = m.sansJoin := by
  have hstore : ∀ (r : Model) (e : EtwObj), (r.storeEtw libId e).sansJoin = r.sansJoin := by
    intro r e
    unfold storeEtw
    rw [sansJoin_setEtwAlias]
    split <;> rfl
  unfold onEtwObjectCreated
  split
  · rfl
  · rw [sansJoin_updStats, hstore, sansJoin_driverAgg]

/-- An address is taken or folded. -/
theorem sansJoin_onEtwObjectAddress (m : Model) (env : Env) (libId address : ℕ) :
    (m.onEtwObjectAddress env libId address).sansJoin = m.sansJoin := by
  have htake : ∀ key e, (m.takeAddress env key e address).sansJoin = m.sansJoin := by
    intro key e
    unfold takeAddress
    rw [sansJoin_tryBindEtw, sansJoin_sideLine, sansJoin_setEtwByAddr, sansJoin_updEtw]
  have hfold : ∀ key e into old, (m.foldRundown env key e into old).sansJoin = m.sansJoin := by
    intro key e into old
    have hsize : ∀ r : Model, (if e.size ≠ 0 then r.applySize into e.size e.createdTs
        else r).sansJoin = r.sansJoin := by
      intro r; split <;> simp
    have hgroup : ∀ r : Model, (if e.group ≠ .unknown ∧ e.group ≠ old.group then
        r.applyGroup into e.group e.createdTs else r).sansJoin = r.sansJoin := by
      intro r; split <;> simp
    unfold foldRundown
    dsimp only
    rw [sansJoin_tryBindEtw, sansJoin_setEtwAlias, sansJoin_updEtw, sansJoin_setEtwObjs,
      sansJoin_driverAgg, hgroup, hsize, sansJoin_updStats]
  rcases m.onEtwObjectAddress_cases env libId address with
    hsame | ⟨key, e, -, -, -, htaken | ⟨into, old, -, -, -, -, hfolded⟩⟩
  · rw [hsame]
  · rw [htaken, htake]
  · rw [hfolded, hfold]

/-- The partner loses its key. -/
theorem sansJoin_onEtwObjectDestroyed (m : Model) (ts : ℤ) (libId : ℕ) :
    (m.onEtwObjectDestroyed ts libId).sansJoin = m.sansJoin := by
  have hdrop : ∀ (r : Model) (key : ℕ) (e : EtwObj), (r.dropEtw key e).sansJoin = r.sansJoin := by
    intro r key e
    unfold dropEtw
    rw [sansJoin_setEtwObjs, sansJoin_driverAgg]
    split <;> rfl
  have hunkey : ∀ (r : Model) (key : ℕ) (e : EtwObj), (r.unkey key e).sansJoin = r.sansJoin := by
    intro r key e
    rcases r.unkey_cases key e with hsame | hcut
    · rw [hsame]
    · rw [hcut, sansJoin_updLive r _ fun o => o.payload_setEtwKey 0]
  unfold onEtwObjectDestroyed
  split
  · rfl
  · split
    · rfl
    · rw [hdrop, hunkey]
      split <;> simp

theorem sansJoin_onEtwObjectSize (m : Model) (ts : ℤ) (libId size : ℕ) :
    (m.onEtwObjectSize ts libId size).sansJoin = m.sansJoin := by
  unfold onEtwObjectSize
  split
  · rfl
  · split
    · rfl
    · exact sansJoin_applySize m _ _ _

/-- A group change that is not ignored. -/
theorem sansJoin_regroup (m : Model) (c : Etw.GroupChange) (ts : ℕ) :
    (m.regroup c ts).sansJoin = m.sansJoin := by
  unfold regroup
  dsimp only
  split
  · rfl
  · split
    · rw [sansJoin_applyGroup, sansJoin_updStats]
    · rfl

/-- A residency operation that is counted. -/
theorem sansJoin_countResidency (m : Model) (ts libId : ℕ) (type : Etw.ObjType)
    (op : Etw.ResidencyOp) : (m.countResidency ts libId type op).sansJoin = m.sansJoin := by
  have hline : ∀ r : Model, (r.residencyLine ts libId type op).sansJoin = r.sansJoin := by
    intro r
    unfold residencyLine
    split <;> simp
  unfold countResidency
  split
  · rfl
  · rfl
  · rw [hline, sansJoin_updStats]
  · rw [hline, sansJoin_updStats]

theorem sansJoin_onEtwDiagnostic (m : Model) (env : Env) (error : Bool) (code : ℤ)
    (msg : WString) : (m.onEtwDiagnostic env error code msg).sansJoin = m.sansJoin := by
  unfold onEtwDiagnostic
  split <;> simp

/-! ### The main thread -/

/-- What expires is a wait. -/
@[simp] theorem sansJoin_expirePending (nowMs : ℕ) (q : List ℕ) (m : Model) :
    (expirePending nowMs q m).sansJoin = m.sansJoin := by
  induction q generalizing m with
  | nil => rfl
  | cons k q ih =>
    unfold expirePending
    split
    · exact ih m
    · split
      · exact ih m
      · split
        · rfl
        · rw [ih, sansJoin_updStats, sansJoin_updEtw]

/-- What is forgotten is a dead record. -/
@[simp] theorem sansJoin_forgetDead (nowTs : ℕ) (q : List (ℕ × ℕ)) (m : Model) :
    (forgetDead nowTs q m).sansJoin = m.sansJoin := by
  induction q generalizing m with
  | nil => rfl
  | cons x q ih =>
    unfold forgetDead
    split
    · dsimp only
      split
      · exact ih m
      · rw [ih, sansJoin_setDeadByPtr]
    · rfl

@[simp] theorem sansJoin_refreshJoinStats (m : Model) : m.refreshJoinStats.sansJoin = m.sansJoin :=
  rfl

/-- **Neither is a tick.** -/
theorem sansJoin_etwTick (m : Model) (env : Env) (st : Etw.Stats) :
    (m.etwTick env st).sansJoin = m.sansJoin := by
  have hlast : ∀ r : Model, ({ r with lastSecondMs := env.nowMs } : Model).sansJoin = r.sansJoin :=
    fun _ => rfl
  unfold etwTick
  split
  · rfl
  · dsimp only
    split
    · simp
    · split
      · rw [sansJoin_sideLine, sansJoin_refreshJoinStats, hlast]
        simp
      · rw [sansJoin_refreshJoinStats, hlast]
        simp

end Model

end Dx12Track
