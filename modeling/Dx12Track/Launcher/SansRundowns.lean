import Dx12Track.Launcher.Steps

/-!
# The model without its re-reports

A rundown reports objects that are already known again, each under a new library
id.  `Model.sansRundowns R` is the model with the ids `R` of such reports taken
away: they resolve to nothing, they are nobody's alias, and neither they nor any
other report are counted as new or as duplicate.  Everything else in the model is
kept, and every function of the model works on the rest alone.

* `Model.sansRundowns` — the projection.
* `sansRundowns_tryBindEtw`, `sansRundowns_applyGroup`, … — a function that does
  not resolve a library id commutes with it.
* `Model.Apart` — a library id that leads to no re-report.
* `sansRundowns_step` — **calls do not see the re-reports**, if the ids they use do
  not lead to one.
-/

namespace Dx12Track

open Etw (ObjType Group ResidencyOp CounterKind GroupChange Stats)
open Finmap

variable (R : List ℕ)

namespace EtwObj

/-- An ETW object without its aliases in `R`. -/
def sansAliases (e : EtwObj) : EtwObj := { e with aliases := e.aliases.filter (· ∉ R) }

variable {R}

/-- An alias that is not in `R` is added on either side. -/
theorem sansAliases_addAlias {x : ℕ} (hx : x ∉ R) (e : EtwObj) :
    (e.addAlias x).sansAliases R = (e.sansAliases R).addAlias x := by
  simp [sansAliases, addAlias, hx]

/-- An alias in `R` is not seen. -/
theorem sansAliases_addAlias_of_mem {x : ℕ} (hx : x ∈ R) (e : EtwObj) :
    (e.addAlias x).sansAliases R = e.sansAliases R := by
  simp [sansAliases, addAlias, hx]

end EtwObj

/-- A line of the sidecar without the counts that a re-report changes. -/
def SideLine.sansCounts : SideLine → SideLine
  | .etwStats ts line => .etwStats ts { line with created := 0, rundownDuplicates := 0 }
  | line => line

namespace Model

/-- The model without the re-reports `R`. -/
def sansRundowns (m : Model) : Model :=
  { m with
    etwObjs := m.etwObjs.mapVal (EtwObj.sansAliases R)
    etwAlias := m.etwAlias.restrict fun x => decide (x ∉ R)
    s.etw.created := 0
    s.etw.rundownDuplicates := 0
    sideFile := m.sideFile.map SideLine.sansCounts
    sidePrebuf := m.sidePrebuf.map SideLine.sansCounts }

/-! ### Reads -/

@[simp] theorem live_sansRundowns (m : Model) : (m.sansRundowns R).live = m.live := rfl
@[simp] theorem deadByPtr_sansRundowns (m : Model) :
    (m.sansRundowns R).deadByPtr = m.deadByPtr := rfl
@[simp] theorem children_sansRundowns (m : Model) : (m.sansRundowns R).children = m.children := rfl
@[simp] theorem etwByAddr_sansRundowns (m : Model) :
    (m.sansRundowns R).etwByAddr = m.etwByAddr := rfl
@[simp] theorem convTs_sansRundowns (m : Model) : (m.sansRundowns R).convTs = m.convTs := rfl
@[simp] theorem nowTsLocked_sansRundowns (m : Model) :
    (m.sansRundowns R).nowTsLocked = m.nowTsLocked := rfl

/-- An entry keeps its place and loses its aliases in `R`. -/
@[simp] theorem etwObjs_sansRundowns (m : Model) (k : ℕ) :
    (m.sansRundowns R).etwObjs.lookup k = (m.etwObjs.lookup k).map (EtwObj.sansAliases R) :=
  lookup_mapVal _ _ _

/-- A library id of `R` resolves to nothing. -/
theorem etwAlias_sansRundowns (m : Model) (x : ℕ) :
    (m.sansRundowns R).etwAlias.lookup x = if x ∈ R then none else m.etwAlias.lookup x := by
  refine (lookup_restrict _ _ _).trans ?_
  by_cases hx : x ∈ R <;> simp [hx]

/-! ### Writes -/

/-- A branch on something the projection keeps. -/
theorem sansRundowns_ite (c : Prop) [Decidable c] (m n : Model) :
    (if c then m else n).sansRundowns R = if c then m.sansRundowns R else n.sansRundowns R :=
  apply_ite _ _ _ _

/-- A line goes to the same place, without its counts. -/
theorem sansRundowns_sideLine (m : Model) (l : SideLine) :
    (m.sideLine l).sansRundowns R = (m.sansRundowns R).sideLine l.sansCounts := by
  unfold sideLine
  rw [sansRundowns_ite, sansRundowns_ite]
  have happ : ∀ ls : List SideLine, (ls ++ [l]).map SideLine.sansCounts
      = ls.map SideLine.sansCounts ++ [l.sansCounts] := fun ls => List.map_append
  have hpre : ({ m with sidePrebuf := m.sidePrebuf ++ [l] } : Model).sansRundowns R
      = { m.sansRundowns R with
          sidePrebuf := (m.sansRundowns R).sidePrebuf ++ [l.sansCounts] } := by
    unfold sansRundowns
    rw [happ]
  have hfile : ({ m with sideFile := m.sideFile ++ [l] } : Model).sansRundowns R
      = { m.sansRundowns R with
          sideFile := (m.sansRundowns R).sideFile ++ [l.sansCounts] } := by
    unfold sansRundowns
    rw [happ]
  rw [hpre, hfile]
  rfl

@[simp] theorem sansRundowns_setEtwByAddr (m : Model) (t : Table ℕ ℕ) :
    (m.setEtwByAddr t).sansRundowns R = (m.sansRundowns R).setEtwByAddr t := rfl
@[simp] theorem sansRundowns_setPendingQ (m : Model) (q : List ℕ) :
    (m.setPendingQ q).sansRundowns R = (m.sansRundowns R).setPendingQ q := rfl
@[simp] theorem sansRundowns_updLive (m : Model) (id : ℕ) (f : LiveObject → LiveObject) :
    (m.updLive id f).sansRundowns R = (m.sansRundowns R).updLive id f := rfl

/-- A write to an entry that leaves its aliases alone. -/
@[simp] theorem sansRundowns_updEtw (m : Model) (key : ℕ) {f : EtwObj → EtwObj}
    (hf : ∀ e, (f e).sansAliases R = f (e.sansAliases R)) :
    (m.updEtw key f).sansRundowns R = (m.sansRundowns R).updEtw key f := by
  have htable := mapVal_modify hf key m.etwObjs
  unfold updEtw setEtwObjs sansRundowns
  rw [htable]

/-! ### Locations -/

/-- A location is computed from live objects only. -/
@[simp] theorem effLoc_sansRundowns (m : Model) : (m.sansRundowns R).effLoc = m.effLoc := rfl

@[simp] theorem sansRundowns_addLoc (m : Model) (o : LiveObject) (sign : ℤ) :
    (m.addLoc o sign).sansRundowns R = (m.sansRundowns R).addLoc o sign := by
  unfold addLoc
  rw [sansRundowns_ite]
  rfl

@[simp] theorem sansRundowns_moveLoc (m : Model) (id : ℕ) (o : LiveObject) (l : MemLoc) :
    (m.moveLoc id o l).sansRundowns R = (m.sansRundowns R).moveLoc id o l := by
  unfold moveLoc
  simp only [sansRundowns_addLoc, sansRundowns_updLive]

/-- So is what the recomputation writes and prints. -/
@[simp] theorem sansRundowns_recomputeLoc (m : Model) (id ts : ℕ) (force : Bool) :
    (m.recomputeLoc id ts force).sansRundowns R = (m.sansRundowns R).recomputeLoc id ts force := by
  unfold recomputeLoc
  rw [live_sansRundowns]
  cases m.live.lookup id with
  | none => rfl
  | some o =>
    simp only [effLoc_sansRundowns, sansRundowns_ite, sansRundowns_sideLine, sansRundowns_updLive,
      sansRundowns_moveLoc, SideLine.sansCounts]
    rfl

/-- The children of a heap, one by one. -/
@[simp] theorem sansRundowns_recomputeChildren (m : Model) (heapId ts : ℕ) :
    (m.recomputeChildren heapId ts).sansRundowns R
      = (m.sansRundowns R).recomputeChildren heapId ts := by
  unfold recomputeChildren
  rw [children_sansRundowns]
  generalize (m.children.lookup heapId).getD [] = kids
  induction kids generalizing m with
  | nil => rfl
  | cons k kids ih => rw [List.foldl_cons, ih, sansRundowns_recomputeLoc, List.foldl_cons]

@[simp] theorem sansRundowns_dropToOwnLoc (m : Model) (cid ts : ℕ) :
    (m.dropToOwnLoc cid ts).sansRundowns R = (m.sansRundowns R).dropToOwnLoc cid ts := by
  unfold dropToOwnLoc
  rw [live_sansRundowns]
  cases m.live.lookup cid with
  | none => rfl
  | some child =>
    simp only [sansRundowns_ite, sansRundowns_sideLine, sansRundowns_moveLoc, SideLine.sansCounts]

@[simp] theorem sansRundowns_firstLoc (m : Model) (id ts : ℕ) :
    (m.firstLoc id ts).sansRundowns R = (m.sansRundowns R).firstLoc id ts := by
  unfold firstLoc
  rw [live_sansRundowns]
  cases m.live.lookup id with
  | none => rfl
  | some o =>
    simp only [effLoc_sansRundowns, sansRundowns_ite, sansRundowns_recomputeLoc,
      sansRundowns_addLoc, sansRundowns_updLive]
    rfl

/-! ### The join -/

/-- The totals of the driver's objects are kept. -/
@[simp] theorem sansRundowns_driverAgg (m : Model) (e : EtwObj) (sign : ℤ) :
    (m.driverAgg e sign).sansRundowns R = (m.sansRundowns R).driverAgg e sign := by
  unfold driverAgg
  dsimp only
  simp only [sansRundowns_ite]
  rfl

/-- Aliases are not counted. -/
theorem driverAgg_sansAliases (m : Model) (e : EtwObj) (sign : ℤ) :
    m.driverAgg (e.sansAliases R) sign = m.driverAgg e sign := rfl

@[simp] theorem sansRundowns_unbindOther (m : Model) (key : ℕ) (o : LiveObject) :
    (m.unbindOther key o).sansRundowns R = (m.sansRundowns R).unbindOther key o := by
  have hupd := sansRundowns_updEtw R m o.etwKey (f := (·.setBoundId 0)) fun _ => rfl
  unfold unbindOther
  rw [sansRundowns_ite, hupd]

theorem sansRundowns_bindCount (m : Model) :
    (m.updStats fun t => { t with binds := t.binds + 1 }).sansRundowns R
      = (m.sansRundowns R).updStats fun t => { t with binds := t.binds + 1 } := rfl

/-- `Bind` copies the type, the group and the size of an entry, none of its
aliases. -/
@[simp] theorem sansRundowns_bind (m : Model) (key id ts : ℕ) :
    (m.bind key id ts).sansRundowns R = (m.sansRundowns R).bind key id ts := by
  unfold bind
  rw [live_sansRundowns, etwObjs_sansRundowns]
  cases m.etwObjs.lookup key with
  | none => rfl
  | some e =>
    cases m.live.lookup id with
    | none => rfl
    | some o =>
      have hupd : ∀ n : Model, (n.updEtw key fun e => (e.setBoundId o.id).setPending 0).sansRundowns
          R = (n.sansRundowns R).updEtw key fun e => (e.setBoundId o.id).setPending 0 :=
        fun n => sansRundowns_updEtw R n key fun _ => rfl
      simp only [Option.map_some, sansRundowns_ite, sansRundowns_sideLine, sansRundowns_updLive,
        sansRundowns_recomputeChildren, sansRundowns_recomputeLoc, sansRundowns_bindCount, hupd,
        sansRundowns_unbindOther, SideLine.sansCounts]
      rfl

/-- The object to bind is found by the address. -/
theorem bindTarget_sansRundowns (m : Model) (e : EtwObj) :
    (m.sansRundowns R).bindTarget (e.sansAliases R) = m.bindTarget e := rfl

/-- A dead object is matched by the address and the times. -/
@[simp] theorem sansRundowns_attributeLate (m : Model) (key ts : ℕ) (e : EtwObj) (x : DeadObj) :
    (m.attributeLate key ts e x).sansRundowns R
      = (m.sansRundowns R).attributeLate key ts (e.sansAliases R) x := by
  have hupd := sansRundowns_updEtw R m key
    (f := fun e => (e.setOrphanTs (if x.destroyedNs ≠ 0 then x.destroyedNs else 1)).setPending 0)
    fun _ => rfl
  unfold attributeLate
  dsimp only
  rw [sansRundowns_sideLine, ← hupd]
  rfl

/-- An entry waits under its key, which is never in `R`. -/
@[simp] theorem sansRundowns_waitForObject (m : Model) (env : Env) (key : ℕ) (e : EtwObj) :
    (m.waitForObject env key e).sansRundowns R
      = (m.sansRundowns R).waitForObject env key (e.sansAliases R) := by
  have hupd := sansRundowns_updEtw R m key
    (f := (·.setPending (if env.nowMs ≠ 0 then env.nowMs else 1))) fun _ => rfl
  unfold waitForObject
  dsimp only
  rw [sansRundowns_ite, sansRundowns_setPendingQ, hupd]
  rfl

/-- **An attempt to bind does not see the re-reports.** -/
@[simp] theorem sansRundowns_tryBindEtw (m : Model) (env : Env) (key ts : ℕ) :
    (m.tryBindEtw env key ts).sansRundowns R = (m.sansRundowns R).tryBindEtw env key ts := by
  unfold tryBindEtw
  rw [etwObjs_sansRundowns]
  cases m.etwObjs.lookup key with
  | none => rfl
  | some e =>
    rw [Option.map_some]
    dsimp only
    rw [sansRundowns_ite, bindTarget_sansRundowns]
    refine if_congr Iff.rfl rfl ?_
    -- a live object at the address, else a dead one, else the entry waits
    cases m.bindTarget e with
    | some id => exact sansRundowns_bind R m key id ts
    | none =>
      dsimp only
      have hdead : ((m.sansRundowns R).deadByPtr.lookup (e.sansAliases R).address).getD []
          = (m.deadByPtr.lookup e.address).getD [] := rfl
      have hlate : lateMatch (e.sansAliases R) = lateMatch e := rfl
      rw [hdead, hlate]
      cases ((m.deadByPtr.lookup e.address).getD []).find? (lateMatch e) with
      | some x => exact sansRundowns_attributeLate R m key ts e x
      | none => exact sansRundowns_waitForObject R m env key e

/-- A group is written under a key that is resolved already. -/
@[simp] theorem sansRundowns_applyGroup (m : Model) (key : ℕ) (g : MemLoc) (ts : ℕ) :
    (m.applyGroup key g ts).sansRundowns R = (m.sansRundowns R).applyGroup key g ts := by
  have hupd := sansRundowns_updEtw R m key (f := (·.setGroup g)) fun _ => rfl
  unfold applyGroup
  rw [etwObjs_sansRundowns]
  cases m.etwObjs.lookup key with
  | none => rfl
  | some e =>
    rw [Option.map_some]
    dsimp only
    rw [sansRundowns_ite, ← hupd]
    refine if_congr Iff.rfl rfl ?_
    have hbound : (e.sansAliases R).boundId = e.boundId := rfl
    have hlive : ((m.updEtw key (·.setGroup g)).sansRundowns R).live.lookup e.boundId
        = (m.updEtw key (·.setGroup g)).live.lookup e.boundId := rfl
    rw [hbound, hlive]
    cases (m.updEtw key (·.setGroup g)).live.lookup e.boundId with
    | none => rfl
    | some o =>
      simp only [sansRundowns_ite, sansRundowns_recomputeChildren, sansRundowns_recomputeLoc,
        sansRundowns_updLive]

/-- So is a size. -/
@[simp] theorem sansRundowns_applySize (m : Model) (key size ts : ℕ) :
    (m.applySize key size ts).sansRundowns R = (m.sansRundowns R).applySize key size ts := by
  unfold applySize
  rw [etwObjs_sansRundowns]
  cases m.etwObjs.lookup key with
  | none => rfl
  | some e =>
    rw [Option.map_some]
    dsimp only
    rw [sansRundowns_ite]
    refine if_congr Iff.rfl rfl ?_
    have hupd := sansRundowns_updEtw R (m.driverAgg e (-1)) key (f := (·.setSize size)) fun _ => rfl
    have hresized : (((m.driverAgg e (-1)).updEtw key (·.setSize size)).driverAgg (e.setSize size)
        1).sansRundowns R
        = (((m.sansRundowns R).driverAgg (e.sansAliases R) (-1)).updEtw key
            (·.setSize size)).driverAgg ((e.sansAliases R).setSize size) 1 := by
      rw [sansRundowns_driverAgg, hupd, sansRundowns_driverAgg]
      rfl
    rw [sansRundowns_ite, ← hresized]
    refine if_congr Iff.rfl rfl ?_
    -- what remains is the partner's driver size
    generalize ((m.driverAgg e (-1)).updEtw key (·.setSize size)).driverAgg (e.setSize size) 1 = n
    have hlive : (n.sansRundowns R).live.lookup (e.sansAliases R).boundId
        = n.live.lookup e.boundId := rfl
    rw [hlive]
    cases n.live.lookup e.boundId with
    | none => rfl
    | some o =>
      dsimp only
      rw [sansRundowns_ite, sansRundowns_sideLine, sansRundowns_updLive]
      rfl

/-! ### Records from the pipe -/

/-- What a new object does to the addresses resolves no library id. -/
@[simp] theorem sansRundowns_indexOccupant (m : Model) (id : ℕ) (o : LiveObject) :
    (m.indexOccupant id o).sansRundowns R = (m.sansRundowns R).indexOccupant id o := by
  unfold indexOccupant
  rw [sansRundowns_ite]
  rfl

@[simp] theorem sansRundowns_addChild (m : Model) (o : LiveObject) :
    (m.addChild o).sansRundowns R = (m.sansRundowns R).addChild o := by
  unfold addChild
  rw [sansRundowns_ite]
  rfl

/-- The entry that reported the address first is found by the address. -/
@[simp] theorem sansRundowns_bindReported (m : Model) (id ts : ℕ) :
    (m.bindReported id ts).sansRundowns R = (m.sansRundowns R).bindReported id ts := by
  unfold bindReported
  rw [live_sansRundowns]
  cases m.live.lookup id with
  | none => rfl
  | some o =>
    dsimp only
    rw [sansRundowns_ite, etwByAddr_sansRundowns]
    refine if_congr Iff.rfl rfl ?_
    cases m.etwByAddr.lookup o.objectPtr with
    | none => rfl
    | some key =>
      dsimp only
      rw [etwObjs_sansRundowns]
      cases m.etwObjs.lookup key with
      | none => rfl
      | some e =>
        rw [Option.map_some]
        dsimp only
        rw [sansRundowns_ite, sansRundowns_bind]
        rfl

/-- The ETW part of a creation, block by block. -/
@[simp] theorem sansRundowns_etwOnCreated (m : Model) (id ts : ℕ) :
    (m.etwOnCreated id ts).sansRundowns R = (m.sansRundowns R).etwOnCreated id ts := by
  unfold etwOnCreated
  rw [live_sansRundowns]
  cases m.live.lookup id with
  | none => rfl
  | some o =>
    dsimp only
    rw [sansRundowns_bindReported, sansRundowns_firstLoc, sansRundowns_addChild,
      sansRundowns_indexOccupant]

@[simp] theorem sansRundowns_forgetOccupant (m : Model) (o : LiveObject) (ts : ℕ) :
    (m.forgetOccupant o ts).sansRundowns R = (m.sansRundowns R).forgetOccupant o ts := by
  have hindex : (if m.ptrToId.lookup o.objectPtr = some o.id then
        m.setPtrToId (m.ptrToId.erase o.objectPtr) else m).sansRundowns R
      = if (m.sansRundowns R).ptrToId.lookup o.objectPtr = some o.id then
          (m.sansRundowns R).setPtrToId ((m.sansRundowns R).ptrToId.erase o.objectPtr)
        else m.sansRundowns R := sansRundowns_ite R _ _ _
  unfold forgetOccupant
  dsimp only
  rw [sansRundowns_ite, ← hindex]
  rfl

/-- The partner of a dying object is found by its key. -/
@[simp] theorem sansRundowns_orphanBound (m : Model) (id : ℕ) (o : LiveObject) (ts : ℕ) :
    (m.orphanBound id o ts).sansRundowns R = (m.sansRundowns R).orphanBound id o ts := by
  have hupd := sansRundowns_updEtw R m o.etwKey
    (f := fun e => (e.setBoundId 0).setOrphanTs (if ts ≠ 0 then ts else 1)) fun _ => rfl
  unfold orphanBound
  rw [sansRundowns_ite, etwObjs_sansRundowns]
  refine if_congr Iff.rfl rfl ?_
  cases m.etwObjs.lookup o.etwKey with
  | none => rfl
  | some e =>
    rw [Option.map_some]
    dsimp only
    rw [sansRundowns_updLive, sansRundowns_ite, hupd]
    rfl

@[simp] theorem sansRundowns_removeChild (m : Model) (o : LiveObject) :
    (m.removeChild o).sansRundowns R = (m.sansRundowns R).removeChild o := by
  unfold removeChild
  rw [sansRundowns_ite, children_sansRundowns]
  refine if_congr Iff.rfl ?_ rfl
  cases m.children.lookup o.parentHeapId with
  | none => rfl
  | some kids =>
    dsimp only
    rw [sansRundowns_ite]
    rfl

/-- The children of a dying heap, one by one. -/
@[simp] theorem sansRundowns_dropChildren (m : Model) (o : LiveObject) (ts : ℕ) :
    (m.dropChildren o ts).sansRundowns R = (m.sansRundowns R).dropChildren o ts := by
  have hfold : ∀ (kids : List ℕ) (n : Model),
      (kids.foldl (fun m cid => m.dropToOwnLoc cid ts) n).sansRundowns R
        = kids.foldl (fun m cid => m.dropToOwnLoc cid ts) (n.sansRundowns R) := by
    intro kids
    induction kids with
    | nil => exact fun _ => rfl
    | cons k kids ih =>
      intro n
      rw [List.foldl_cons, ih, sansRundowns_dropToOwnLoc, List.foldl_cons]
  unfold dropChildren
  rw [sansRundowns_ite, children_sansRundowns]
  refine if_congr Iff.rfl ?_ rfl
  cases m.children.lookup o.id with
  | none => rfl
  | some kids => exact hfold kids _

/-- The ETW part of a death, block by block. -/
@[simp] theorem sansRundowns_etwOnDestroyed (m : Model) (id ts : ℕ) :
    (m.etwOnDestroyed id ts).sansRundowns R = (m.sansRundowns R).etwOnDestroyed id ts := by
  unfold etwOnDestroyed
  rw [live_sansRundowns]
  cases m.live.lookup id with
  | none => rfl
  | some o =>
    dsimp only
    rw [sansRundowns_dropChildren, sansRundowns_removeChild, sansRundowns_orphanBound,
      sansRundowns_forgetOccupant, sansRundowns_addLoc]

/-- The sidecar's first line carries no counts. -/
theorem sansRundowns_onHello (m : Model) (ts : ℕ) (p : HelloPayload) :
    (m.onHello ts p).sansRundowns R = (m.sansRundowns R).onHello ts p := by
  unfold onHello
  dsimp only
  rw [sansRundowns_ite]
  refine if_congr Iff.rfl ?_ rfl
  -- what was buffered before the sidecar was opened follows its first line
  have happ : ∀ (ls : List SideLine) (l : SideLine) (us : List SideLine),
      (ls ++ [l] ++ us).map SideLine.sansCounts
        = ls.map SideLine.sansCounts ++ [l.sansCounts] ++ us.map SideLine.sansCounts := by
    simp
  unfold sansRundowns
  rw [happ]
  rfl

theorem sansRundowns_onCreated (m : Model) (ts : ℕ) (p : CreatedPayload) :
    (m.onCreated ts p).sansRundowns R = (m.sansRundowns R).onCreated ts p := by
  have hrecent : ∀ (n : Model) (line : ActivityLine),
      (n.pushRecent line).sansRundowns R = (n.sansRundowns R).pushRecent line := fun _ _ => rfl
  unfold onCreated
  dsimp only
  rw [hrecent, sansRundowns_ite, sansRundowns_etwOnCreated]
  rfl

theorem sansRundowns_onDestroyed (m : Model) (ts : ℕ) (p : DestroyedPayload) :
    (m.onDestroyed ts p).sansRundowns R = (m.sansRundowns R).onDestroyed ts p := by
  unfold onDestroyed
  rw [live_sansRundowns]
  cases m.live.lookup p.id with
  | none => rfl
  | some o =>
    dsimp only
    have hjoin : (if m.etwEnabled then m.etwOnDestroyed p.id ts else m).sansRundowns R
        = if (m.sansRundowns R).etwEnabled then (m.sansRundowns R).etwOnDestroyed p.id ts
          else m.sansRundowns R := by
      rw [sansRundowns_ite, sansRundowns_etwOnDestroyed]
      rfl
    rw [← hjoin]
    rfl

/-- **No record from the pipe sees the re-reports.** -/
theorem sansRundowns_onEvent (m : Model) (ts : ℕ) (r : Record) :
    (m.onEvent ts r).sansRundowns R = (m.sansRundowns R).onEvent ts r := by
  cases r with
  | hello p => exact sansRundowns_onHello R (m.setLatestNs ts) ts p
  | created p => exact sansRundowns_onCreated R (m.setLatestNs ts) ts p
  | renamed p => rfl
  | destroyed p => exact sansRundowns_onDestroyed R (m.setLatestNs ts) ts p
  | goodbye p => rfl
  | other => rfl

/-! ### The main thread -/

theorem sansRundowns_markExiting (m : Model) (now code : ℕ) :
    (m.markExiting now code).sansRundowns R = (m.sansRundowns R).markExiting now code :=
  sansRundowns_sideLine R _ _

/-- The state of the process has nothing to do with the join. -/
@[simp] theorem sansRundowns_pollChildLocked (m : Model) (env : Env) :
    (m.pollChildLocked env).sansRundowns R = (m.sansRundowns R).pollChildLocked env := by
  unfold pollChildLocked
  dsimp only
  rw [sansRundowns_ite, sansRundowns_ite, sansRundowns_markExiting]
  refine if_congr Iff.rfl rfl (if_congr Iff.rfl ?_ rfl)
  cases env.exitCode with
  | none => rfl
  | some code =>
    dsimp only
    rw [sansRundowns_ite, sansRundowns_markExiting]
    rfl

/-- Whether the process is gone is the same on both sides. -/
theorem sansRundowns_afterChildExitLocked (m : Model) (env : Env) (ts : ℕ) :
    (m.sansRundowns R).afterChildExitLocked env ts
      = ((m.afterChildExitLocked env ts).1, (m.afterChildExitLocked env ts).2.sansRundowns R) := by
  have hpoll : (if ts > m.childAliveTs then m.pollChildLocked env else m).sansRundowns R
      = if ts > (m.sansRundowns R).childAliveTs then (m.sansRundowns R).pollChildLocked env
        else m.sansRundowns R := by
    rw [sansRundowns_ite, sansRundowns_pollChildLocked]
    rfl
  unfold afterChildExitLocked
  dsimp only
  rw [← hpoll]
  rfl

/-- What waits is queued by its key. -/
theorem sansRundowns_expirePending (nowMs : ℕ) (q : List ℕ) (m : Model) :
    (expirePending nowMs q m).sansRundowns R = expirePending nowMs q (m.sansRundowns R) := by
  induction q generalizing m with
  | nil => rfl
  | cons k q ih =>
    have hupd := sansRundowns_updEtw R m k (f := fun e => (e.setPending 0).setExpired)
      fun _ => rfl
    unfold expirePending
    rw [etwObjs_sansRundowns]
    cases m.etwObjs.lookup k with
    | none => exact ih m
    | some e =>
      rw [Option.map_some]
      dsimp only
      rw [sansRundowns_ite, sansRundowns_ite, ih, ih, ← hupd]
      rfl

/-- The dead are found by their address. -/
theorem sansRundowns_forgetDead (nowTs : ℕ) (q : List (ℕ × ℕ)) (m : Model) :
    (forgetDead nowTs q m).sansRundowns R = forgetDead nowTs q (m.sansRundowns R) := by
  induction q generalizing m with
  | nil => rfl
  | cons x q ih =>
    obtain ⟨ts, ptr⟩ := x
    unfold forgetDead
    dsimp only
    rw [sansRundowns_ite, deadByPtr_sansRundowns]
    refine if_congr Iff.rfl ?_ rfl
    cases m.deadByPtr.lookup ptr with
    | none => exact ih m
    | some dead => exact ih _

/-- A sum over the entries. -/
theorem sum_sansRundowns (m : Model) (f : EtwObj → ℕ) :
    (m.sansRundowns R).etwObjs.sum f = m.etwObjs.sum fun e => f (e.sansAliases R) :=
  sum_mapVal f _ m.etwObjs

/-- No statistic counts aliases. -/
@[simp] theorem sansRundowns_refreshJoinStats (m : Model) :
    m.refreshJoinStats.sansRundowns R = (m.sansRundowns R).refreshJoinStats := by
  unfold refreshJoinStats
  dsimp only
  simp only [sum_sansRundowns]
  rfl

/-- **A tick does not see the re-reports.** -/
theorem sansRundowns_etwTick (m : Model) (env : Env) (st : Stats) :
    (m.etwTick env st).sansRundowns R = (m.sansRundowns R).etwTick env st := by
  have hsession : (m.updStats fun t => { t with session := st }).sansRundowns R
      = (m.sansRundowns R).updStats fun t => { t with session := st } := rfl
  have hqueue : ∀ n : Model, (n.sansRundowns R).pendingQ = n.pendingQ := fun _ => rfl
  have hhist : ∀ n : Model, (n.sansRundowns R).destroyHist = n.destroyHist := fun _ => rfl
  have hlast : ∀ n : Model, ({ n with lastSecondMs := env.nowMs } : Model).sansRundowns R
      = { n.sansRundowns R with lastSecondMs := env.nowMs } := fun _ => rfl
  unfold etwTick
  dsimp only
  rw [sansRundowns_ite]
  refine if_congr Iff.rfl rfl ?_
  -- the two timers, then what the second is due
  rw [← hsession, hqueue, ← sansRundowns_expirePending]
  generalize expirePending env.nowMs _ _ = n
  rw [nowTsLocked_sansRundowns, hhist, ← sansRundowns_forgetDead]
  generalize n.nowTsLocked env = nowTs
  generalize forgetDead nowTs n.destroyHist n = n'
  rw [sansRundowns_ite, sansRundowns_ite, sansRundowns_sideLine, sansRundowns_refreshJoinStats,
    hlast]
  rfl

/-- The last line is the same without its counts. -/
theorem sansRundowns_finishEtw (m : Model) (env : Env) (st : Stats) :
    (m.finishEtw env st).sansRundowns R = (m.sansRundowns R).finishEtw env st := by
  have hsession : (m.updStats fun t => { t with session := st, running := false }).sansRundowns R
      = (m.sansRundowns R).updStats fun t => { t with session := st, running := false } := rfl
  have hclose : ∀ n : Model, n.closeSide.sansRundowns R = (n.sansRundowns R).closeSide := by
    intro n
    unfold closeSide sansRundowns
    rw [List.map_append]
    rfl
  -- the counts in the last line are those of the model
  have hline : ∀ n : Model, (SideLine.etwStats (n.nowTsLocked env) n.s.etw.statsLine).sansCounts
      = .etwStats ((n.sansRundowns R).nowTsLocked env) (n.sansRundowns R).s.etw.statsLine :=
    fun _ => rfl
  unfold finishEtw
  dsimp only
  rw [sansRundowns_ite, ← hsession]
  refine if_congr Iff.rfl rfl ?_
  rw [← sansRundowns_refreshJoinStats]
  generalize (m.updStats _).refreshJoinStats = n
  rw [sansRundowns_ite, hclose, sansRundowns_sideLine, hline]
  rfl

/-! ### The ETW sink -/

variable {R}

/-- The id `x` leads to no re-report of `R`. -/
def Apart (m : Model) (R : List ℕ) (x : ℕ) : Prop := x ∈ R → m.etwAlias.lookup x = none

/-- Such an id resolves alike on both sides. -/
theorem Apart.etwAlias {m : Model} {x : ℕ} (h : m.Apart R x) :
    (m.sansRundowns R).etwAlias.lookup x = m.etwAlias.lookup x := by
  rw [etwAlias_sansRundowns]
  split
  · next hx => exact (h hx).symm
  · rfl

/-- It leads to the same entry. -/
theorem Apart.findEtw {m : Model} {x : ℕ} (h : m.Apart R x) :
    (m.sansRundowns R).findEtw x
      = (m.findEtw x).map fun ke => (ke.1, ke.2.sansAliases R) := by
  unfold Model.findEtw
  rw [h.etwAlias]
  cases m.etwAlias.lookup x with
  | none => rfl
  | some key =>
    dsimp only
    rw [etwObjs_sansRundowns, Option.map_map, Option.map_map]
    rfl

/-- An entry that is dropped. -/
theorem sansRundowns_eraseEtw (m : Model) (key : ℕ) :
    (m.setEtwObjs (m.etwObjs.erase key)).sansRundowns R
      = (m.sansRundowns R).setEtwObjs ((m.sansRundowns R).etwObjs.erase key) := by
  have htable := mapVal_erase (EtwObj.sansAliases R) key m.etwObjs
  unfold setEtwObjs sansRundowns
  rw [htable]

/-- An id outside `R` that gets a key. -/
theorem sansRundowns_insertAlias {x : ℕ} (hx : x ∉ R) (m : Model) (key : ℕ) :
    (m.setEtwAlias (m.etwAlias.insert x key)).sansRundowns R
      = (m.sansRundowns R).setEtwAlias ((m.sansRundowns R).etwAlias.insert x key) := by
  have htable := restrict_insert (p := fun x => decide (x ∉ R)) (decide_eq_true hx) key m.etwAlias
  unfold setEtwAlias sansRundowns
  rw [htable]

/-- A new entry, under an id outside `R`. -/
theorem sansRundowns_storeEtw {libId : ℕ} (hx : libId ∉ R) (m : Model) (e : EtwObj) :
    (m.storeEtw libId e).sansRundowns R
      = (m.sansRundowns R).storeEtw libId (e.sansAliases R) := by
  have hinsert : (if (m.etwObjs.lookup libId).isSome then m
        else m.setEtwObjs (m.etwObjs.insert libId e)).sansRundowns R
      = if ((m.sansRundowns R).etwObjs.lookup libId).isSome then m.sansRundowns R
        else (m.sansRundowns R).setEtwObjs
          ((m.sansRundowns R).etwObjs.insert libId (e.sansAliases R)) := by
    have htable := mapVal_insert (EtwObj.sansAliases R) libId e m.etwObjs
    rw [sansRundowns_ite, etwObjs_sansRundowns, Option.isSome_map]
    unfold setEtwObjs sansRundowns
    rw [htable]
  unfold storeEtw
  dsimp only
  rw [sansRundowns_insertAlias hx, hinsert]

/-- What a new object does to the rest of the model. -/
theorem sansRundowns_onEtwObjectCreated {libId : ℕ} (hx : libId ∉ R) (m : Model) (ts : ℤ)
    (type : ObjType) (size : ℕ) (group : Group) :
    (m.onEtwObjectCreated ts libId type size group).sansRundowns R =
      let n := m.sansRundowns R
      if !n.etwEnabled || (n.etwAlias.lookup libId).isSome then n
      else
        let e : EtwObj :=
          { type := type, size := size, group := fromGroup group, createdTs := n.convTs ts }
        (n.driverAgg e 1).storeEtw libId e := by
  have hcount : ∀ n : Model,
      (n.updStats fun t => { t with created := t.created + 1 }).sansRundowns R
      = n.sansRundowns R := fun _ => rfl
  have hapart : m.Apart R libId := fun hmem => absurd hmem hx
  unfold onEtwObjectCreated
  dsimp only
  rw [sansRundowns_ite, hcount, sansRundowns_storeEtw hx, sansRundowns_driverAgg, hapart.etwAlias]
  rfl

section Alike

variable {S : List ℕ} {m n : Model}

/-- Two models that differ in their re-reports have the same entries, but for
the aliases. -/
theorem etwObjs_alike (h : m.sansRundowns R = n.sansRundowns S) (k : ℕ) :
    (m.etwObjs.lookup k).map (EtwObj.sansAliases R)
      = (n.etwObjs.lookup k).map (EtwObj.sansAliases S) := by
  rw [← etwObjs_sansRundowns, ← etwObjs_sansRundowns, h]

/-- A re-report that is not in `R` is merged alike. -/
theorem sansRundowns_foldRundown (h : m.sansRundowns R = n.sansRundowns S) {key : ℕ}
    (hR : key ∉ R) (hS : key ∉ S) {e e' old old' : EtwObj}
    (he : e.sansAliases R = e'.sansAliases S) (hold : old.sansAliases R = old'.sansAliases S)
    (env : Env) (into : ℕ) :
    (m.foldRundown env key e into old).sansRundowns R
      = (n.foldRundown env key e' into old').sansRundowns S := by
  have hcount : ∀ (R : List ℕ) (n : Model),
      (n.updStats fun t => { t with rundownDuplicates := t.rundownDuplicates + 1 }).sansRundowns R
        = n.sansRundowns R := fun _ _ => rfl
  have halias : ∀ {R : List ℕ}, key ∉ R → ∀ n : Model,
      (n.updEtw into (·.addAlias key)).sansRundowns R
        = (n.sansRundowns R).updEtw into (·.addAlias key) :=
    fun hR n => sansRundowns_updEtw _ n into (EtwObj.sansAliases_addAlias hR)
  have hsize : e'.size = e.size := (congrArg EtwObj.size he).symm
  have hgroup : e'.group = e.group := (congrArg EtwObj.group he).symm
  have hts : e'.createdTs = e.createdTs := (congrArg EtwObj.createdTs he).symm
  have hogroup : old'.group = old.group := (congrArg EtwObj.group hold).symm
  have hagg : ∀ n : Model, n.driverAgg e' (-1) = n.driverAgg e (-1) := by
    intro n
    rw [← driverAgg_sansAliases S n e', ← he, driverAgg_sansAliases]
  -- all the merge reads of the two entries is the same on both sides
  unfold foldRundown
  dsimp only
  rw [hsize, hgroup, hts, hogroup, hagg]
  simp only [sansRundowns_tryBindEtw, sansRundowns_insertAlias hR, sansRundowns_insertAlias hS,
    halias hR, halias hS, sansRundowns_eraseEtw, sansRundowns_driverAgg, sansRundowns_ite,
    sansRundowns_applyGroup, sansRundowns_applySize, hcount, h]

/-- An entry takes its address under its key. -/
@[simp] theorem sansRundowns_takeAddress (m : Model) (env : Env) (key : ℕ) (e : EtwObj)
    (address : ℕ) :
    (m.takeAddress env key e address).sansRundowns R
      = (m.sansRundowns R).takeAddress env key (e.sansAliases R) address := by
  have hupd := sansRundowns_updEtw R m key (f := (·.setAddress address)) fun _ => rfl
  unfold takeAddress
  dsimp only
  rw [sansRundowns_tryBindEtw, sansRundowns_sideLine, sansRundowns_setEtwByAddr, hupd]
  rfl

/-- **An address does the same in two models that differ in their re-reports**,
if the id leads to no re-report in either and neither has an entry under a
re-reported id. -/
theorem sansRundowns_onEtwObjectAddress (h : m.sansRundowns R = n.sansRundowns S) {libId : ℕ}
    (hm : m.Apart R libId) (hn : n.Apart S libId)
    (hR : ∀ k, (m.etwObjs.lookup k).isSome → k ∉ R)
    (hS : ∀ k, (n.etwObjs.lookup k).isSome → k ∉ S) (env : Env) (address : ℕ) :
    (m.onEtwObjectAddress env libId address).sansRundowns R
      = (n.onEtwObjectAddress env libId address).sansRundowns S := by
  have hetw : m.etwEnabled = n.etwEnabled := (congrArg Model.etwEnabled h :)
  have hbyAddr : m.etwByAddr = n.etwByAddr := (congrArg Model.etwByAddr h :)
  have hfind := hm.findEtw.symm.trans ((congrArg (·.findEtw libId) h).trans hn.findEtw)
  have htake : ∀ {key : ℕ} {e e' : EtwObj}, e.sansAliases R = e'.sansAliases S →
      (m.takeAddress env key e address).sansRundowns R
        = (n.takeAddress env key e' address).sansRundowns S := by
    intro key e e' he
    rw [sansRundowns_takeAddress, sansRundowns_takeAddress, h, he]
  unfold onEtwObjectAddress
  rw [hetw]
  split
  · exact h
  · -- both sides resolve the id to one key, or neither does
    cases hfm : m.findEtw libId with
    | none =>
      rw [hfm] at hfind
      rw [Option.map_eq_none_iff.mp hfind.symm]
      exact h
    | some ke =>
      obtain ⟨key, e⟩ := ke
      rw [hfm] at hfind
      obtain ⟨⟨key', e'⟩, hfn, heq⟩ := Option.map_eq_some_iff.mp hfind.symm
      obtain ⟨rfl, he⟩ := Prod.mk.inj heq
      rw [hfn]
      have haddr : e'.address = e.address := (congrArg EtwObj.address he :)
      have htype : e'.type = e.type := (congrArg EtwObj.type he :)
      dsimp only
      rw [haddr, htype, hbyAddr]
      split
      · exact h
      · -- the address is free, or has an owner of another type, or the entry is a re-
        -- report of its owner
        cases n.etwByAddr.lookup address with
        | none => exact htake he.symm
        | some into =>
          dsimp only
          split
          · exact htake he.symm
          · have hinto := etwObjs_alike h into
            cases hom : m.etwObjs.lookup into with
            | none =>
              rw [hom] at hinto
              rw [Option.map_eq_none_iff.mp hinto.symm]
              exact htake he.symm
            | some old =>
              rw [hom] at hinto
              obtain ⟨old', hon, hold⟩ := Option.map_eq_some_iff.mp hinto.symm
              rw [hon]
              have hotype : old'.type = old.type := (congrArg EtwObj.type hold :)
              dsimp only
              rw [hotype]
              split
              · have hkeyR : key' ∉ R :=
                  hR key' (Option.isSome_of_eq_some (findEtw_some hfm).2)
                have hkeyS : key' ∉ S :=
                  hS key' (Option.isSome_of_eq_some (findEtw_some hfn).2)
                exact sansRundowns_foldRundown h hkeyR hkeyS he.symm hold.symm env into
              · exact htake he.symm

end Alike

/-- The partner of a dropped entry is found by its id. -/
@[simp] theorem sansRundowns_unkey (m : Model) (key : ℕ) (e : EtwObj) :
    (m.unkey key e).sansRundowns R = (m.sansRundowns R).unkey key (e.sansAliases R) := by
  unfold unkey
  rw [sansRundowns_ite, live_sansRundowns]
  refine if_congr Iff.rfl rfl ?_
  have hbound : (e.sansAliases R).boundId = e.boundId := rfl
  rw [hbound]
  cases m.live.lookup e.boundId with
  | none => rfl
  | some o =>
    dsimp only
    rw [sansRundowns_ite]
    rfl

/-- An entry goes with all its aliases; those in `R` are gone already on one
side. -/
@[simp] theorem sansRundowns_dropEtw (m : Model) (key : ℕ) (e : EtwObj) :
    (m.dropEtw key e).sansRundowns R = (m.sansRundowns R).dropEtw key (e.sansAliases R) := by
  have htable : ((e.aliases.foldl (fun t a => Finmap.erase a t) m.etwAlias).erase key).restrict
      (fun x => decide (x ∉ R))
      = ((e.sansAliases R).aliases.foldl (fun t a => Finmap.erase a t)
          (m.sansRundowns R).etwAlias).erase key := by
    -- id by id of the alias table
    refine ext_lookup fun x => ?_
    rw [lookup_restrict, lookup_erase_eq, lookup_erase_eq, lookup_foldl_erase, lookup_foldl_erase,
      etwAlias_sansRundowns]
    -- an id of `R` resolves to nothing on either side
    by_cases hx : x ∈ R
    · simp [hx]
    · simp [hx, EtwObj.sansAliases]
  have halias : (m.setEtwAlias ((e.aliases.foldl (fun t a => Finmap.erase a t)
        m.etwAlias).erase key)).sansRundowns R
      = (m.sansRundowns R).setEtwAlias (((e.sansAliases R).aliases.foldl
          (fun t a => Finmap.erase a t) (m.sansRundowns R).etwAlias).erase key) := by
    rw [← htable]
    rfl
  unfold dropEtw
  dsimp only
  rw [← halias]
  generalize m.setEtwAlias _ = n
  rw [sansRundowns_eraseEtw, sansRundowns_driverAgg, sansRundowns_ite, sansRundowns_setEtwByAddr,
    driverAgg_sansAliases]
  rfl

/-- A destruction resolves its id and drops what it leads to. -/
theorem sansRundowns_onEtwObjectDestroyed {m : Model} {libId : ℕ} (h : m.Apart R libId) (ts : ℤ) :
    (m.onEtwObjectDestroyed ts libId).sansRundowns R
      = (m.sansRundowns R).onEtwObjectDestroyed ts libId := by
  unfold onEtwObjectDestroyed
  rw [sansRundowns_ite, h.findEtw]
  refine if_congr Iff.rfl rfl ?_
  cases m.findEtw libId with
  | none => rfl
  | some ke =>
    rw [Option.map_some]
    dsimp only
    rw [sansRundowns_dropEtw, sansRundowns_unkey, sansRundowns_ite, sansRundowns_sideLine]
    rfl

/-- A size resolves its id and writes to what it leads to. -/
theorem sansRundowns_onEtwObjectSize {m : Model} {libId : ℕ} (h : m.Apart R libId) (ts : ℤ)
    (size : ℕ) :
    (m.onEtwObjectSize ts libId size).sansRundowns R
      = (m.sansRundowns R).onEtwObjectSize ts libId size := by
  unfold onEtwObjectSize
  rw [sansRundowns_ite, h.findEtw]
  refine if_congr Iff.rfl rfl ?_
  cases m.findEtw libId with
  | none => rfl
  | some ke => exact sansRundowns_applySize R m ke.1 size _

/-- A group change does too. -/
theorem sansRundowns_regroup {m : Model} {c : GroupChange} (h : m.Apart R c.libId) (ts : ℕ) :
    (m.regroup c ts).sansRundowns R = (m.sansRundowns R).regroup c ts := by
  have hcount : (m.updStats fun t => { t with groupChanges := t.groupChanges + 1 }).sansRundowns R
      = (m.sansRundowns R).updStats fun t => { t with groupChanges := t.groupChanges + 1 } := rfl
  have hn : (m.updStats fun t => { t with groupChanges := t.groupChanges + 1 }).Apart R c.libId := h
  unfold regroup
  dsimp only
  rw [← hcount]
  generalize (m.updStats _) = n at hn ⊢
  rw [hn.findEtw]
  cases n.findEtw c.libId with
  | none => rfl
  | some ke =>
    rw [Option.map_some]
    dsimp only
    rw [sansRundowns_ite, sansRundowns_applyGroup]
    rfl

/-- To ask for the process changes no alias. -/
theorem etwAlias_afterChildExitLocked (m : Model) (env : Env) (ts x : ℕ) :
    (m.afterChildExitLocked env ts).2.etwAlias.lookup x = m.etwAlias.lookup x := by
  rw [← join_canon, ← join_canon, join_afterChildExitLocked]

/-- One group change, ignored or not. -/
theorem sansRundowns_onEtwGroupChange {m : Model} {c : GroupChange} (h : m.Apart R c.libId)
    (env : Env) :
    (m.onEtwGroupChange c env).sansRundowns R = (m.sansRundowns R).onEtwGroupChange c env := by
  have hafter : (m.afterChildExitLocked env (m.convTs c.ts)).2.Apart R c.libId := by
    intro hx
    rw [etwAlias_afterChildExitLocked]
    exact h hx
  unfold onEtwGroupChange
  dsimp only
  rw [convTs_sansRundowns, sansRundowns_afterChildExitLocked, sansRundowns_ite,
    sansRundowns_regroup hafter]
  rfl

/-- A group change resolves an id, and leaves all of them as they are. -/
theorem etwAlias_onEtwGroupChange (m : Model) (c : GroupChange) (env : Env) (x : ℕ) :
    (m.onEtwGroupChange c env).etwAlias.lookup x = m.etwAlias.lookup x := by
  have hcanon : ∀ (j : Join) (libId : ℕ) (g : MemLoc), (j.etwGroup libId g).canon = j.canon := by
    intro j libId g
    unfold Join.etwGroup
    split
    · rfl
    · split
      · unfold Join.applyGroup
        split
        · rfl
        · dsimp only
          split <;> rfl
      · rfl
  rw [← join_canon, ← join_canon, join_onEtwGroupChange]
  split
  · rfl
  · exact congrFun (hcanon _ _ _) x

/-- A batch, one by one: no change of it resolves an id otherwise than
before. -/
theorem sansRundowns_onEtwGroupChanges {m : Model} {changes : List (GroupChange × Env)}
    (h : ∀ c ∈ changes, m.Apart R c.1.libId) :
    (m.onEtwGroupChanges changes).sansRundowns R
      = (m.sansRundowns R).onEtwGroupChanges changes := by
  have hfold : (changes.foldl (fun m c => m.onEtwGroupChange c.1 c.2) m).sansRundowns R
      = changes.foldl (fun m c => m.onEtwGroupChange c.1 c.2) (m.sansRundowns R) := by
    induction changes generalizing m with
    | nil => rfl
    | cons c cs ih =>
      rw [List.foldl_cons, List.foldl_cons, ih,
        sansRundowns_onEtwGroupChange (h c List.mem_cons_self)]
      intro d hd hx
      -- the rest of the batch is resolved in the model as it was
      rw [etwAlias_onEtwGroupChange]
      exact h d (List.mem_cons_of_mem c hd) hx
  unfold onEtwGroupChanges
  rw [sansRundowns_ite, hfold]
  rfl

/-- The line of a paging operation names the entry's key. -/
theorem sansRundowns_residencyLine {m : Model} {libId : ℕ} (h : m.Apart R libId) (ts : ℕ)
    (type : ObjType) (op : ResidencyOp) :
    (m.residencyLine ts libId type op).sansRundowns R
      = (m.sansRundowns R).residencyLine ts libId type op := by
  unfold residencyLine
  rw [h.findEtw]
  cases m.findEtw libId with
  | none => exact sansRundowns_sideLine R m _
  | some ke => exact sansRundowns_sideLine R m _

theorem sansRundowns_countResidency {m : Model} {libId : ℕ} (h : m.Apart R libId) (ts : ℕ)
    (type : ObjType) (op : ResidencyOp) :
    (m.countResidency ts libId type op).sansRundowns R
      = (m.sansRundowns R).countResidency ts libId type op := by
  have hcounted : ∀ f : EtwSnapshot → EtwSnapshot, (m.updStats f).Apart R libId := fun _ => h
  cases op with
  | makeResident => rfl
  | evict => rfl
  | pageIn => exact sansRundowns_residencyLine (hcounted _) ts type .pageIn
  | pageOut => exact sansRundowns_residencyLine (hcounted _) ts type .pageOut

/-- A residency operation resolves its id for the line only. -/
theorem sansRundowns_onEtwResidency {m : Model} {libId : ℕ} (h : m.Apart R libId) (env : Env)
    (ts : ℤ) (type : ObjType) (op : ResidencyOp) :
    (m.onEtwResidency env ts libId type op).sansRundowns R
      = (m.sansRundowns R).onEtwResidency env ts libId type op := by
  have hafter : (m.afterChildExitLocked env (m.convTs ts)).2.Apart R libId := by
    intro hx
    rw [etwAlias_afterChildExitLocked]
    exact h hx
  unfold onEtwResidency
  dsimp only
  rw [convTs_sansRundowns, sansRundowns_afterChildExitLocked, sansRundowns_ite, sansRundowns_ite,
    sansRundowns_countResidency hafter]
  rfl

/-- A budget counter resolves none. -/
theorem sansRundowns_onEtwCounter (m : Model) (env : Env) (ts : ℤ) (counterId : ℕ)
    (kind : CounterKind) (bytes : ℕ) :
    (m.onEtwCounter env ts counterId kind bytes).sansRundowns R
      = (m.sansRundowns R).onEtwCounter env ts counterId kind bytes := by
  unfold onEtwCounter
  dsimp only
  rw [convTs_sansRundowns, sansRundowns_afterChildExitLocked, sansRundowns_ite, sansRundowns_ite,
    sansRundowns_ite]
  rfl

theorem sansRundowns_onEtwDiagnostic (m : Model) (env : Env) (error : Bool) (code : ℤ)
    (msg : WString) :
    (m.onEtwDiagnostic env error code msg).sansRundowns R
      = (m.sansRundowns R).onEtwDiagnostic env error code msg := by
  unfold onEtwDiagnostic
  dsimp only
  rw [sansRundowns_ite, sansRundowns_sideLine]
  rfl

end Model

/-- The library ids a call resolves. -/
def Step.resolved : Step → List ℕ
  | .objectAddress _ libId _ => [libId]
  | .objectDestroyed _ libId => [libId]
  | .objectSize _ libId _ => [libId]
  | .groupChanges changes => changes.map (·.1.libId)
  | .residency _ _ libId _ _ => [libId]
  | _ => []

namespace Model

/-- **Calls do not see the re-reports.**  Two models that differ in their re-reports
only do so after the same call, if it does not use the id of one. -/
theorem sansRundowns_step {R S : List ℕ} {m n : Model} (h : m.sansRundowns R = n.sansRundowns S)
    {x : Step} (hnew : ∀ k, x.libId = some k → k ∉ R ∧ k ∉ S)
    (hm : ∀ k ∈ x.resolved, m.Apart R k) (hn : ∀ k ∈ x.resolved, n.Apart S k)
    (hR : ∀ k, (m.etwObjs.lookup k).isSome → k ∉ R)
    (hS : ∀ k, (n.etwObjs.lookup k).isSome → k ∉ S) :
    (m.step x).sansRundowns R = (n.step x).sansRundowns S := by
  -- most calls commute with the projection on either side
  have hboth : ∀ f : Model → Model, (f m).sansRundowns R = f (m.sansRundowns R) →
      (f n).sansRundowns S = f (n.sansRundowns S) →
        (f m).sansRundowns R = (f n).sansRundowns S := by
    intro f hfm hfn
    rw [hfm, hfn, h]
  cases x with
  | event ts r =>
    exact hboth (·.onEvent ts r) (sansRundowns_onEvent R m ts r) (sansRundowns_onEvent S n ts r)
  | objectCreated ts libId type size group =>
    obtain ⟨hxR, hxS⟩ := hnew libId rfl
    refine (sansRundowns_onEtwObjectCreated hxR m ts type size group).trans ?_
    rw [h]
    exact (sansRundowns_onEtwObjectCreated hxS n ts type size group).symm
  | objectAddress env libId address =>
    have hmem : libId ∈ (Step.objectAddress env libId address).resolved :=
      List.mem_singleton.mpr rfl
    exact sansRundowns_onEtwObjectAddress h (hm _ hmem) (hn _ hmem) hR hS env address
  | objectDestroyed ts libId =>
    have hmem : libId ∈ (Step.objectDestroyed ts libId).resolved := List.mem_singleton.mpr rfl
    exact hboth (·.onEtwObjectDestroyed ts libId) (sansRundowns_onEtwObjectDestroyed (hm _ hmem) ts)
      (sansRundowns_onEtwObjectDestroyed (hn _ hmem) ts)
  | objectSize ts libId size =>
    have hmem : libId ∈ (Step.objectSize ts libId size).resolved := List.mem_singleton.mpr rfl
    exact hboth (·.onEtwObjectSize ts libId size)
      (sansRundowns_onEtwObjectSize (hm _ hmem) ts size)
      (sansRundowns_onEtwObjectSize (hn _ hmem) ts size)
  | groupChanges changes =>
    have hmem : ∀ c ∈ changes, c.1.libId ∈ (Step.groupChanges changes).resolved :=
      fun c hc => List.mem_map.mpr ⟨c, hc, rfl⟩
    exact hboth (·.onEtwGroupChanges changes)
      (sansRundowns_onEtwGroupChanges fun c hc => hm _ (hmem c hc))
      (sansRundowns_onEtwGroupChanges fun c hc => hn _ (hmem c hc))
  | residency env ts libId type op =>
    have hmem : libId ∈ (Step.residency env ts libId type op).resolved :=
      List.mem_singleton.mpr rfl
    exact hboth (·.onEtwResidency env ts libId type op)
      (sansRundowns_onEtwResidency (hm _ hmem) env ts type op)
      (sansRundowns_onEtwResidency (hn _ hmem) env ts type op)
  | counter env ts counterId kind bytes =>
    exact hboth (·.onEtwCounter env ts counterId kind bytes)
      (sansRundowns_onEtwCounter m env ts counterId kind bytes)
      (sansRundowns_onEtwCounter n env ts counterId kind bytes)
  | diagnostic env error code msg =>
    exact hboth (·.onEtwDiagnostic env error code msg)
      (sansRundowns_onEtwDiagnostic m env error code msg)
      (sansRundowns_onEtwDiagnostic n env error code msg)
  | tick env st =>
    exact hboth (·.etwTick env st) (sansRundowns_etwTick R m env st)
      (sansRundowns_etwTick S n env st)
  | pollChild env =>
    exact hboth (·.pollChildLocked env) (sansRundowns_pollChildLocked R m env)
      (sansRundowns_pollChildLocked S n env)
  | setChildProcess => exact hboth (·.setChildProcess) rfl rfl
  | setChildExitQpc exitQpc =>
    have hset : ∀ (T : List ℕ) (r : Model), (r.setChildExitQpc exitQpc).sansRundowns T
        = (r.sansRundowns T).setChildExitQpc exitQpc := fun T r => sansRundowns_ite T _ _ _
    exact hboth (·.setChildExitQpc exitQpc) (hset R m) (hset S n)
  | markChildExited exitCode => exact hboth (·.markChildExited exitCode) rfl rfl
  | setEtwRunning running => exact hboth (·.setEtwRunning running) rfl rfl
  | finish env st =>
    exact hboth (·.finishEtw env st) (sansRundowns_finishEtw R m env st)
      (sansRundowns_finishEtw S n env st)

end Model

end Dx12Track
