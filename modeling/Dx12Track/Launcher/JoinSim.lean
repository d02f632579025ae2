import Dx12Track.Launcher.SansLoc

/-!
# The model simulates the join

`Model.join` forgets everything but the join.  Each function of the model that
takes part in the join is the function of the same name on `Join`.

* `Model.join` — the abstraction function.
* `join_bind`, `join_tryBindEtw`, … — the functions of the join.
* `join_onCreated` … `join_onEtwGroupChange` — the events.
-/

namespace Dx12Track

open Finmap

namespace View

def join (v : View) : Join where
  live := v.live
  etw := fun k => (v.rest.etwObjs.lookup k).map EtwObj.noWait
  canon := fun x => v.rest.etwAlias.lookup x
  byAddr := fun a => v.rest.etwByAddr.lookup a
  occupant := fun a => v.rest.ptrToId.lookup a
  dead := fun a => (v.rest.deadByPtr.lookup a).getD []

end View

namespace Model

/-- The join of a model. -/
def join (m : Model) : Join := m.sansLoc.join

theorem join_live (m : Model) (id : ℕ) :
    m.join.live id = (m.live.lookup id).map LiveObject.noLoc := rfl
theorem join_etw (m : Model) (k : ℕ) :
    m.join.etw k = (m.etwObjs.lookup k).map EtwObj.noWait := rfl
theorem join_canon (m : Model) (x : ℕ) : m.join.canon x = m.etwAlias.lookup x := rfl
theorem join_byAddr (m : Model) (a : ℕ) : m.join.byAddr a = m.etwByAddr.lookup a := rfl
theorem join_occupant (m : Model) (a : ℕ) : m.join.occupant a = m.ptrToId.lookup a := rfl
theorem join_dead (m : Model) (a : ℕ) : m.join.dead a = (m.deadByPtr.lookup a).getD [] := rfl

/-! ### Writes -/

/-- The sidecar is not part of the join. -/
@[simp] theorem join_sideLine (m : Model) (l : SideLine) : (m.sideLine l).join = m.join :=
  congrArg View.join (sansLoc_sideLine m l)

@[simp] theorem join_updStats (m : Model) (f : EtwSnapshot → EtwSnapshot) :
    (m.updStats f).join = m.join := rfl

/-- A write to a live object that commutes with forgetting its location is the
same write on the join. -/
theorem join_updLive (m : Model) (id : ℕ) {f : LiveObject → LiveObject}
    (hf : ∀ o, (f o).noLoc = f o.noLoc) : (m.updLive id f).join = m.join.updLive id f := by
  refine Join.ext (funext fun i => ?_) rfl rfl rfl rfl rfl
  rw [Join.live_updLive]
  show ((m.live.modify id f).lookup i).map LiveObject.noLoc = _
  rw [lookup_modify]
  split
  · next h =>
    subst h
    show Option.map _ _ = Option.map _ (Option.map _ _)
    rw [Option.map_map, Option.map_map]
    exact congrArg (fun h => (m.live.lookup i).map h) (funext hf)
  · rfl

/-- A write to an ETW object that commutes with forgetting its waiting. -/
theorem join_updEtw (m : Model) (key : ℕ) {f g : EtwObj → EtwObj}
    (hf : ∀ e, (f e).noWait = g e.noWait) : (m.updEtw key f).join = m.join.updEtw key g := by
  refine Join.ext rfl (funext fun k => ?_) rfl rfl rfl rfl
  rw [Join.etw_updEtw]
  show ((m.etwObjs.modify key f).lookup k).map EtwObj.noWait = _
  rw [lookup_modify]
  split
  · next h =>
    subst h
    show Option.map _ _ = Option.map _ (Option.map _ _)
    rw [Option.map_map, Option.map_map]
    exact congrArg (fun h => (m.etwObjs.lookup k).map h) (funext hf)
  · rfl

/-- A write to the waiting of an ETW object. -/
theorem join_updEtw_wait (m : Model) (key : ℕ) {f : EtwObj → EtwObj}
    (hf : ∀ e, (f e).noWait = e.noWait) : (m.updEtw key f).join = m.join := by
  unfold join View.join
  congr 1
  funext k
  exact map_lookup_modify key k hf m.etwObjs

/-- Locations are not part of the join. -/
@[simp] theorem join_recomputeLoc (m : Model) (id ts : ℕ) (force : Bool) :
    (m.recomputeLoc id ts force).join = m.join :=
  congrArg View.join (sansLoc_recomputeLoc m id ts force)

@[simp] theorem join_recomputeChildren (m : Model) (heapId ts : ℕ) :
    (m.recomputeChildren heapId ts).join = m.join :=
  congrArg View.join (sansLoc_recomputeChildren m heapId ts)

@[simp] theorem join_addLoc (m : Model) (o : LiveObject) (sign : ℤ) :
    (m.addLoc o sign).join = m.join :=
  congrArg View.join (sansLoc_addLoc m o sign)

/-- Neither are the totals of the driver's objects. -/
@[simp] theorem join_driverAgg (m : Model) (e : EtwObj) (sign : ℤ) :
    (m.driverAgg e sign).join = m.join := by
  unfold driverAgg
  dsimp only
  split_ifs <;> rfl

/-! ### Binding -/

@[simp] theorem canBind_noWait_noLoc (e : EtwObj) (o : LiveObject) :
    canBind e.noWait o.noLoc = canBind e o := rfl

/-- What `FindEtw` finds is stored under the key that the library id resolves
to. -/
theorem findEtw_some {m : Model} {x key : ℕ} {e : EtwObj} (h : m.findEtw x = some (key, e)) :
    m.etwAlias.lookup x = some key ∧ m.etwObjs.lookup key = some e := by
  unfold Model.findEtw at h
  cases hx : m.etwAlias.lookup x with
  | none =>
    rw [hx] at h
    cases h
  | some k =>
    rw [hx] at h
    obtain ⟨e', he', heq⟩ := Option.map_eq_some_iff.mp h
    cases heq
    exact ⟨rfl, he'⟩

/-- The join resolves a library id to the same key. -/
theorem join_findEtw (m : Model) (libId : ℕ) :
    m.join.find libId = (m.findEtw libId).map fun x => (x.1, x.2.noWait) := by
  unfold findEtw Join.find
  rw [join_canon]
  cases m.etwAlias.lookup libId with
  | none => rfl
  | some key =>
    show ((m.etwObjs.lookup key).map EtwObj.noWait).map _ =
      ((m.etwObjs.lookup key).map fun e => (key, e)).map _
    cases m.etwObjs.lookup key <;> rfl

/-- The former partner of an object that is bound again is let go in both. -/
theorem join_unbindOther (m : Model) (key : ℕ) (o : LiveObject) :
    (m.unbindOther key o).join = m.join.unbindOther key o.noLoc := by
  unfold unbindOther Join.unbindOther
  by_cases h : o.etwKey ≠ 0 ∧ o.etwKey ≠ key
  · have h' : o.noLoc.etwKey ≠ 0 ∧ o.noLoc.etwKey ≠ key := h
    rw [if_pos h, if_pos h']
    exact join_updEtw m o.etwKey fun _ => rfl
  · have h' : ¬(o.noLoc.etwKey ≠ 0 ∧ o.noLoc.etwKey ≠ key) := h
    rw [if_neg h, if_neg h']

/-- The writes of `Bind`, in its order. -/
theorem joined_eq (key : ℕ) (e : EtwObj) (o : LiveObject) :
    joined key e o = if isDriverType e.type then
        (((o.setEtwKey key).setOwnLoc e.group).setDriverSize e.size)
      else (o.setEtwKey key).setOwnLoc e.group := by
  unfold joined
  split <;> rfl

/-- `Bind` is the bind of the join: the line, the locations and the wait are
what it does besides. -/
theorem join_bind {m : Model} {key id : ℕ} {e : EtwObj} {o : LiveObject} (ts : ℕ)
    (he : m.etwObjs.lookup key = some e) (ho : m.live.lookup id = some o) :
    (m.bind key id ts).join = m.join.bind key id e.noWait o.noLoc := by
  have hchildren : ∀ r : Model, (if o.type = .heap then r.recomputeChildren o.id ts else r).join
      = r.join := by
    -- a type whose size the driver reports takes the size too: one write more
    intro r; split
    · exact join_recomputeChildren r o.id ts
    · rfl
  have hline : ∀ r : Model, (if e.size ≠ 0 then r.sideLine (.driverSize ts o.id e.size) else r).join
      = r.join := by
    intro r; split
    · exact join_sideLine r _
    · rfl
  have hjoined : joined key e.noWait = fun o => if isDriverType e.type then
      (((o.setEtwKey key).setOwnLoc e.group).setDriverSize e.size)
      else (o.setEtwKey key).setOwnLoc e.group := funext fun o => joined_eq key e.noWait o
  have hetw : ∀ r : Model, (r.updEtw key fun e => (e.setBoundId o.id).setPending 0).join
      = r.join.updEtw key (·.setBoundId o.id) :=
    fun r => join_updEtw r key fun _ => rfl
  unfold bind Join.bind
  rw [he, ho, hjoined]
  dsimp only
  split
  · next hd =>
    rw [hline, join_updLive _ _ (fun o => o.noLoc_setDriverSize e.size), hchildren,
      join_recomputeLoc, join_updLive _ _ (fun o => o.noLoc_setOwnLoc e.group), join_sideLine,
      join_updStats, join_updLive _ _ (fun o => o.noLoc_setEtwKey key), hetw, join_unbindOther,
      Join.updLive_updLive, Join.updLive_updLive]
    rfl
  · next hd =>
    rw [hchildren, join_recomputeLoc, join_updLive _ _ (fun o => o.noLoc_setOwnLoc e.group),
      join_sideLine, join_updStats, join_updLive _ _ (fun o => o.noLoc_setEtwKey key), hetw,
      join_unbindOther, Join.updLive_updLive]
    rfl

/-- The join looks for the object to bind at the same address, under the same
guard. -/
theorem join_bindTarget (m : Model) (e : EtwObj) :
    m.join.bindTarget e.noWait = match m.bindTarget e with
      | none => none
      | some id => (m.live.lookup id).map fun o => (id, o.noLoc) := by
  unfold bindTarget Join.bindTarget
  rw [join_occupant]
  show (match m.ptrToId.lookup e.address with | none => _ | some id => _) = _
  cases m.ptrToId.lookup e.address with
  | none => rfl
  | some id =>
    dsimp only
    rw [join_live]
    cases ho : m.live.lookup id with
    | none => rfl
    | some o =>
      dsimp only [Option.map_some]
      rw [canBind_noWait_noLoc]
      by_cases hc : canBind e o
      · simp [hc, ho]
      · simp [hc]

/-- The object to bind occupies the address, and the guard held. -/
theorem bindTarget_some {m : Model} {e : EtwObj} {id : ℕ} (h : m.bindTarget e = some id) :
    m.ptrToId.lookup e.address = some id ∧
      ∃ o, m.live.lookup id = some o ∧ canBind e o = true := by
  unfold bindTarget at h
  cases hp : m.ptrToId.lookup e.address with
  | none => rw [hp] at h; cases h
  | some id' =>
    rw [hp] at h
    dsimp only at h
    cases ho : m.live.lookup id' with
    | none => rw [ho] at h; cases h
    | some o =>
      rw [ho] at h
      dsimp only at h
      by_cases hc : canBind e o
      · rw [if_pos hc] at h
        cases h
        exact ⟨rfl, o, ho, hc⟩
      · rw [if_neg hc] at h; cases h

/-- A match with a dead object is the same match in the join. -/
theorem join_attributeLate (m : Model) (key ts : ℕ) (e : EtwObj) (x : DeadObj) :
    (m.attributeLate key ts e x).join = m.join.attributeLate key x := by
  unfold attributeLate Join.attributeLate
  rw [join_sideLine, join_updStats]
  exact join_updEtw m key fun _ => rfl

/-- To wait for the object changes nothing in the join. -/
theorem join_waitForObject (m : Model) (env : Env) (key : ℕ) (e : EtwObj) :
    (m.waitForObject env key e).join = m.join := by
  unfold waitForObject
  split
  · show (m.updEtw key _).join = _
    exact join_updEtw_wait m key fun _ => rfl
  · rfl

/-- **The bind attempt of the model is the bind attempt of the join.** -/
theorem join_tryBindEtw (m : Model) (env : Env) (key ts : ℕ) :
    (m.tryBindEtw env key ts).join = m.join.tryBind key := by
  unfold tryBindEtw Join.tryBind
  rw [join_etw]
  cases he : m.etwObjs.lookup key with
  | none => rfl
  | some e =>
    dsimp only [Option.map_some]
    -- the guards read nothing that the abstraction forgets
    by_cases hg : e.boundId ≠ 0 ∨ e.orphanTs ≠ 0 ∨ e.address = 0 ∨ bindable e.type = false
    · have hg' : e.noWait.boundId ≠ 0 ∨ e.noWait.orphanTs ≠ 0 ∨ e.noWait.address = 0 ∨
          bindable e.noWait.type = false := hg
      rw [if_pos hg, if_pos hg']
    · have hg' : ¬(e.noWait.boundId ≠ 0 ∨ e.noWait.orphanTs ≠ 0 ∨ e.noWait.address = 0 ∨
          bindable e.noWait.type = false) := hg
      rw [if_neg hg, if_neg hg', join_bindTarget]
      cases ht : m.bindTarget e with
      | some id =>
        obtain ⟨-, o, ho, -⟩ := bindTarget_some ht
        dsimp only
        rw [ho]
        exact join_bind ts he ho
      | none =>
        dsimp only
        rw [join_dead]
        have hfind : ((m.deadByPtr.lookup e.noWait.address).getD []).find? (lateMatch e.noWait)
            = ((m.deadByPtr.lookup e.address).getD []).find? (lateMatch e) := rfl
        rw [hfind]
        cases ((m.deadByPtr.lookup e.address).getD []).find? (lateMatch e) with
        | some x => exact join_attributeLate m key ts e x
        | none => exact join_waitForObject m env key e

/-- A new memory group goes to the ETW object and to its partner; of the
partner's location only what it takes from there is part of the join. -/
theorem join_applyGroup (m : Model) (key : ℕ) (g : MemLoc) (ts : ℕ) :
    (m.applyGroup key g ts).join = m.join.applyGroup key g := by
  have hetw : (m.updEtw key (·.setGroup g)).join
      = m.join.updEtw key (·.setGroup g) := join_updEtw m key fun _ => rfl
  unfold applyGroup Join.applyGroup
  rw [join_etw]
  cases m.etwObjs.lookup key with
  | none => rfl
  | some e =>
    dsimp only [Option.map_some]
    show _ = if e.boundId = 0 then _ else Join.updLive _ e.boundId _
    by_cases hb : e.boundId = 0
    · rw [if_pos hb, if_pos hb, hetw]
    · rw [if_neg hb, if_neg hb]
      rw [live_updEtw]
      cases ho : m.live.lookup e.boundId with
      | none =>
        have hnone : (m.join.updEtw key (·.setGroup g)).live e.boundId = none := by
          rw [Join.live_updEtw, join_live, ho]; rfl
        rw [Join.updLive_of_none _ hnone, ← hetw]
      | some o =>
        have hheap : ∀ r : Model, (if o.type = .heap then r.recomputeChildren o.id ts else r).join
            = r.join := by
          intro r; split
          · exact join_recomputeChildren r o.id ts
          · rfl
        rw [hheap, join_recomputeLoc, join_updLive _ _ (fun o => o.noLoc_setOwnLoc g), hetw]

/-- A new size goes to the ETW object, and to its partner if the driver knows
the size. -/
theorem join_applySize (m : Model) (key size ts : ℕ) :
    (m.applySize key size ts).join = m.join.applySize key size := by
  unfold applySize Join.applySize
  rw [join_etw]
  cases m.etwObjs.lookup key with
  | none => rfl
  | some e =>
    have hetw : (((m.driverAgg e (-1)).updEtw key (·.setSize size)).driverAgg
        (e.setSize size) 1).join = m.join.updEtw key (·.setSize size) := by
      rw [join_driverAgg, join_updEtw (g := (·.setSize size)) _ key fun _ => rfl, join_driverAgg]
    have hlive : (((m.driverAgg e (-1)).updEtw key (·.setSize size)).driverAgg
        (e.setSize size) 1).live = m.live := by
      rw [live_driverAgg, live_updEtw, live_driverAgg]
    dsimp only [Option.map_some]
    show _ = if size = 0 ∨ size = e.size then m.join
      else if e.boundId = 0 ∨ isDriverType e.type = false then _
      else Join.updLive _ e.boundId _
    -- a size of zero and a size that is known are ignored alike
    by_cases hs : size = 0 ∨ size = e.size
    · rw [if_pos hs, if_pos hs]
    · rw [if_neg hs, if_neg hs]
      by_cases hb : e.boundId = 0 ∨ isDriverType e.type = false
      · rw [if_pos hb, if_pos hb, hetw]
      · rw [if_neg hb, if_neg hb, hlive, ← hetw]
        cases ho : m.live.lookup e.boundId with
        | none =>
          refine (Join.updLive_of_none _ ?_).symm
          rw [join_live, hlive, ho]
          rfl
        | some o =>
          dsimp only
          split
          · next hsize =>
            -- the size is already there
            refine (Join.updLive_eq_self fun v hv => ?_).symm
            rw [join_live, hlive, ho] at hv
            cases hv
            rw [← hsize]
            rfl
          · rw [join_sideLine, join_updLive _ _ fun o => o.noLoc_setDriverSize size]

/-! ### Records from the pipe -/

/-- `m` with `o` in the table of live objects. -/
theorem join_insertLive (m : Model) (id : ℕ) (o : LiveObject) :
    (m.setLive (m.live.insert id o)).join =
      m.join.setLive id (some o.noLoc) := by
  refine Join.ext (funext fun i => ?_) rfl rfl rfl rfl rfl
  show ((m.live.insert id o).lookup i).map LiveObject.noLoc = _
  rw [lookup_insert_eq, Join.setLive_live, Function.update_apply]
  split <;> rfl

/-- `m` without an entry of the table of live objects. -/
theorem join_eraseLive (m : Model) (id : ℕ) :
    (m.setLive (m.live.erase id)).join =
      m.join.setLive id none := by
  refine Join.ext (funext fun i => ?_) rfl rfl rfl rfl rfl
  show ((m.live.erase id).lookup i).map LiveObject.noLoc = _
  rw [lookup_erase_eq, Join.setLive_live, Function.update_apply]
  split <;> rfl

/-- The object that occupies an address. -/
theorem join_insertPtr (m : Model) (p id : ℕ) :
    (m.setPtrToId (m.ptrToId.insert p id)).join =
      m.join.setOccupant p (some id) := by
  refine Join.ext rfl rfl rfl rfl (funext fun i => ?_) rfl
  show (m.ptrToId.insert p id).lookup i = _
  rw [lookup_insert_eq, Join.setOccupant_occupant, Function.update_apply]
  rfl

theorem join_erasePtr (m : Model) (p : ℕ) :
    (m.setPtrToId (m.ptrToId.erase p)).join = m.join.setOccupant p none := by
  refine Join.ext rfl rfl rfl rfl (funext fun i => ?_) rfl
  show (m.ptrToId.erase p).lookup i = _
  rw [lookup_erase_eq, Join.setOccupant_occupant, Function.update_apply]
  rfl

/-- The dead objects of an address. -/
theorem join_insertDead (m : Model) (p : ℕ) (dead : List DeadObj) :
    (m.setDeadByPtr (m.deadByPtr.insert p dead)).join = m.join.setDead p dead := by
  refine Join.ext rfl rfl rfl rfl rfl (funext fun i => ?_)
  show ((m.deadByPtr.insert p dead).lookup i).getD [] = _
  rw [lookup_insert_eq, Join.setDead_dead, Function.update_apply]
  split <;> rfl

@[simp] theorem join_setDestroyHist (m : Model) (q : List (ℕ × ℕ)) :
    (m.setDestroyHist q).join = m.join := rfl

@[simp] theorem join_setSnapshot (m : Model) (s : Snapshot) : (m.setSnapshot s).join = m.join := rfl

/-- The first block of `EtwOnCreated`, on an object just inserted. -/
theorem join_indexOccupant (m : Model) (o : LiveObject) :
    ((m.setLive (m.live.insert o.id o)).indexOccupant o.id o).join
      = m.join.occupy o.noLoc := by
  unfold indexOccupant Join.occupy
  -- an object without a pointer occupies no address
  by_cases hp : o.objectPtr = 0
  · have hp' : o.noLoc.objectPtr = 0 := hp
    rw [if_pos hp, if_pos hp', join_insertLive]
    rfl
  · have hp' : ¬o.noLoc.objectPtr = 0 := hp
    rw [if_neg hp, if_neg hp']
    dsimp only
    rw [join_insertPtr, join_updLive _ _ (fun o => o.noLoc_setPrevDestroyNs _),
      join_insertLive]
    -- the two writes to the live entry are one
    simp only [Join.updLive, Join.setLive, Function.update_self, Option.map_some,
      Function.update_idem]
    rfl

theorem join_addChild (m : Model) (o : LiveObject) : (m.addChild o).join = m.join := by
  unfold addChild
  split <;> rfl

@[simp] theorem join_firstLoc (m : Model) (id ts : ℕ) : (m.firstLoc id ts).join = m.join :=
  congrArg View.join (sansLoc_firstLoc m id ts)

/-- The second half of `EtwOnCreated`: an ETW object that reported the address
first is bound now. -/
theorem join_bindReported (m : Model) (id ts : ℕ) :
    (m.bindReported id ts).join = m.join.bindReported id := by
  unfold bindReported Join.bindReported
  rw [join_live]
  cases ho : m.live.lookup id with
  | none => rfl
  | some o =>
    dsimp only [Option.map_some]
    by_cases hp : o.objectPtr = 0
    · have hp' : o.noLoc.objectPtr = 0 := hp
      rw [if_pos hp, if_pos hp']
    · have hp' : ¬o.noLoc.objectPtr = 0 := hp
      rw [if_neg hp, if_neg hp', join_byAddr]
      show _ = match m.etwByAddr.lookup o.objectPtr with | none => _ | some key => _
      cases m.etwByAddr.lookup o.objectPtr with
      | none => rfl
      | some key =>
        dsimp only
        rw [join_etw]
        cases he : m.etwObjs.lookup key with
        | none => rfl
        | some e =>
          dsimp only [Option.map_some]
          rw [canBind_noWait_noLoc]
          split
          · exact join_bind ts he ho
          · rfl

@[simp] theorem join_pushRecent (m : Model) (line : ActivityLine) :
    (m.pushRecent line).join = m.join := rfl

/-- The effect of the ETW part of `created` on the table entry just made. -/
theorem join_etwOnCreated (m : Model) (o : LiveObject) (ts : ℕ) :
    ((m.setLive (m.live.insert o.id o)).etwOnCreated o.id ts).join
      = m.join.created o.noLoc := by
  have ho : (m.setLive (m.live.insert o.id o)).live.lookup o.id = some o :=
    lookup_insert m.live
  unfold etwOnCreated Join.created
  rw [ho]
  dsimp only
  rw [join_bindReported, join_firstLoc, join_addChild, join_indexOccupant]
  rfl

/-- **A `created` record is a creation in the join.** -/
theorem join_onCreated {m : Model} (hetw : m.etwEnabled = true) (ts : ℕ) (p : CreatedPayload) :
    (m.onCreated ts p).join = m.join.created (liveOfCreated ts p) := by
  have hon : ∀ r : Model, r.etwEnabled = true → (if r.etwEnabled then
      r.etwOnCreated (liveOfCreated ts p).id ts else r)
        = r.etwOnCreated (liveOfCreated ts p).id ts :=
    fun r hr => if_pos hr
  unfold onCreated
  dsimp only
  rw [join_pushRecent, hon]
  · exact join_etwOnCreated (m.setSnapshot _) (liveOfCreated ts p) ts
  · exact hetw

/-- A rename changes nothing but the name. -/
theorem join_onRenamed (m : Model) (p : RenamedPayload) :
    (m.onRenamed p).join = m.join.updLive p.id (·.setName p.name.read) :=
  join_updLive m p.id fun o => o.noLoc_setName _

/-- A death leaves a dead record at its address, and frees the address if the
object still occupies it. -/
theorem join_forgetOccupant (m : Model) (o : LiveObject) (ts : ℕ) :
    (m.forgetOccupant o ts).join = m.join.forgetOccupant o.noLoc ts := by
  unfold forgetOccupant Join.forgetOccupant
  by_cases hp : o.objectPtr = 0
  · have hp' : o.noLoc.objectPtr = 0 := hp
    rw [if_pos hp, if_pos hp']
  · have hp' : ¬o.noLoc.objectPtr = 0 := hp
    rw [if_neg hp, if_neg hp']
    dsimp only
    rw [join_setDestroyHist, join_insertDead]
    by_cases ho : m.ptrToId.lookup o.objectPtr = some o.id
    · have ho' : m.join.occupant o.noLoc.objectPtr = some o.noLoc.id := ho
      rw [if_pos ho, if_pos ho', join_erasePtr]
      rfl
    · have ho' : ¬m.join.occupant o.noLoc.objectPtr = some o.noLoc.id := ho
      rw [if_neg ho, if_neg ho']
      rfl

/-- The partner of an object that dies is orphaned. The dying object's own key
is written too, in the model only, so the two agree once the object is
erased. -/
theorem join_orphanBound (m : Model) (id : ℕ) (o : LiveObject) (ts : ℕ) :
    (m.orphanBound id o ts).join.setLive id none
      = (m.join.orphanBound o.noLoc ts).setLive id none := by
  have hkey : ∀ r : Model, (r.updLive id (·.setEtwKey 0)).join.setLive id none
      = r.join.setLive id none := by
    intro r
    rw [join_updLive _ _ fun o => o.noLoc_setEtwKey 0]
    simp only [Join.updLive, Join.setLive, Function.update_idem]
  unfold orphanBound Join.orphanBound
  by_cases hk : o.etwKey = 0
  · have hk' : o.noLoc.etwKey = 0 := hk
    rw [if_pos hk, if_pos hk']
  · have hk' : ¬o.noLoc.etwKey = 0 := hk
    rw [if_neg hk, if_neg hk']
    dsimp only
    have hlookup : m.join.etw o.noLoc.etwKey = (m.etwObjs.lookup o.etwKey).map EtwObj.noWait := rfl
    rw [hkey, hlookup]
    cases m.etwObjs.lookup o.etwKey with
    | none => rfl
    | some e =>
      dsimp only [Option.map_some]
      show _ = Join.setLive (if e.boundId = o.id then _ else _) id none
      split
      · rw [join_updEtw (g := fun e => (e.setBoundId 0).setOrphanTs (if ts ≠ 0 then ts else 1))
          m o.etwKey fun _ => rfl]
        rfl
      · rfl

theorem join_removeChild (m : Model) (o : LiveObject) : (m.removeChild o).join = m.join := by
  unfold removeChild
  split
  · split
    · rfl
    · dsimp only
      split <;> rfl
  · rfl

/-- What is placed in a heap that dies falls back to its own location, which the
join does not see. -/
theorem join_dropChildren (m : Model) (o : LiveObject) (ts : ℕ) :
    (m.dropChildren o ts).join = m.join := by
  have hfold : ∀ (kids : List ℕ) (r : Model),
      (kids.foldl (fun m cid => m.dropToOwnLoc cid ts) r).join = r.join := by
    intro kids
    induction kids with
    | nil => exact fun _ => rfl
    | cons k kids ih =>
      intro r
      rw [List.foldl_cons, ih]
      exact congrArg View.join (sansLoc_dropToOwnLoc r k ts)
  unfold dropChildren
  split
  · split
    · rfl
    · rw [hfold]; rfl
  · rfl

/-- **A `destroyed` record is a death in the join.** -/
theorem join_onDestroyed {m : Model} (hetw : m.etwEnabled = true) (ts : ℕ) (p : DestroyedPayload) :
    (m.onDestroyed ts p).join = m.join.destroyed p.id ts := by
  unfold onDestroyed Join.destroyed
  rw [join_live]
  cases ho : m.live.lookup p.id with
  | none => rfl
  | some o =>
    dsimp only [Option.map_some]
    rw [if_pos hetw, join_setSnapshot, join_eraseLive, join_pushRecent, join_setSnapshot]
    unfold etwOnDestroyed
    rw [ho]
    dsimp only
    rw [join_dropChildren, join_removeChild, join_orphanBound, join_forgetOccupant, join_addLoc]

/-- **Each record from the pipe is its event of the join**; the other records
leave the join as it is. -/
theorem join_onEvent {m : Model} (hetw : m.etwEnabled = true) (ts : ℕ) (r : Record) :
    (m.onEvent ts r).join = match r with
      | .created p => m.join.created (liveOfCreated ts p)
      | .renamed p => m.join.updLive p.id (·.setName p.name.read)
      | .destroyed p => m.join.destroyed p.id ts
      | _ => m.join := by
  cases r with
  | hello p =>
    show (Model.onHello _ ts p).join = _
    unfold onHello
    dsimp only
    split <;> rfl
  | created p => exact join_onCreated (m := m.setLatestNs ts) hetw ts p
  | renamed p => exact join_onRenamed _ p
  | destroyed p => exact join_onDestroyed (m := m.setLatestNs ts) hetw ts p
  | goodbye p => rfl
  | other => rfl

/-! ### The ETW sink -/

/-- The ETW object under a key. -/
theorem join_insertEtw (m : Model) (key : ℕ) (e : EtwObj) :
    (m.setEtwObjs (m.etwObjs.insert key e)).join = m.join.setEtw key (some e.noWait) := by
  refine Join.ext rfl (funext fun k => ?_) rfl rfl rfl rfl
  show ((m.etwObjs.insert key e).lookup k).map EtwObj.noWait = _
  rw [lookup_insert_eq, Join.setEtw_etw, Function.update_apply]
  split <;> rfl

theorem join_eraseEtw (m : Model) (key : ℕ) :
    (m.setEtwObjs (m.etwObjs.erase key)).join = m.join.setEtw key none := by
  refine Join.ext rfl (funext fun k => ?_) rfl rfl rfl rfl
  show ((m.etwObjs.erase key).lookup k).map EtwObj.noWait = _
  rw [lookup_erase_eq, Join.setEtw_etw, Function.update_apply]
  split <;> rfl

/-- The key that a library id resolves to. -/
theorem join_insertAlias (m : Model) (x key : ℕ) :
    (m.setEtwAlias (m.etwAlias.insert x key)).join = m.join.setCanon x (some key) := by
  refine Join.ext rfl rfl (funext fun i => ?_) rfl rfl rfl
  show (m.etwAlias.insert x key).lookup i = _
  rw [lookup_insert_eq, Join.setCanon_canon, Function.update_apply]
  rfl

/-- The key that owns an address. -/
theorem join_insertAddr (m : Model) (a key : ℕ) :
    (m.setEtwByAddr (m.etwByAddr.insert a key)).join = m.join.setByAddr a (some key) := by
  refine Join.ext rfl rfl rfl (funext fun i => ?_) rfl rfl
  show (m.etwByAddr.insert a key).lookup i = _
  rw [lookup_insert_eq, Join.setByAddr_byAddr, Function.update_apply]
  rfl

theorem join_eraseAddr (m : Model) (a : ℕ) :
    (m.setEtwByAddr (m.etwByAddr.erase a)).join = m.join.setByAddr a none := by
  refine Join.ext rfl rfl rfl (funext fun i => ?_) rfl rfl
  show (m.etwByAddr.erase a).lookup i = _
  rw [lookup_erase_eq, Join.setByAddr_byAddr, Function.update_apply]
  rfl

/-- An ETW object is stored once; its library id resolves to itself again after
each report. -/
theorem join_storeEtw (m : Model) (libId : ℕ) (e : EtwObj) :
    (m.storeEtw libId e).join = (if (m.join.etw libId).isSome then m.join
      else m.join.setEtw libId (some e.noWait)).setCanon libId (some libId) := by
  unfold storeEtw
  dsimp only
  rw [join_insertAlias, join_etw, Option.isSome_map]
  split
  · rfl
  · rw [join_insertEtw]

/-- A report of a new object is the same report in the join. -/
theorem join_onEtwObjectCreated {m : Model} (hetw : m.etwEnabled = true) (ts : ℤ) (libId : ℕ)
    (type : Etw.ObjType) (size : ℕ) (group : Etw.Group) :
    (m.onEtwObjectCreated ts libId type size group).join = m.join.etwCreated libId
      { type := type, size := size, group := fromGroup group, createdTs := m.convTs ts } := by
  unfold onEtwObjectCreated Join.etwCreated
  rw [hetw, join_canon, Bool.not_true, Bool.false_or]
  split
  · rfl
  · dsimp only
    rw [join_updStats, join_storeEtw, join_driverAgg]
    rfl

/-- A library id that is new is stored, and resolves to itself. -/
theorem onEtwObjectCreated_of_unknown {m : Model} (hetw : m.etwEnabled = true) {r : ℕ}
    (hr : m.etwAlias.lookup r = none) (hobj : m.etwObjs.lookup r = none) (ts : ℤ)
    (type : Etw.ObjType)
    (size : ℕ) (group : Etw.Group) :
    m.onEtwObjectCreated ts r type size group =
      let e : EtwObj :=
        { type := type, size := size, group := fromGroup group, createdTs := m.convTs ts }
      let m := (m.driverAgg e 1).setEtwObjs (m.etwObjs.insert r e)
      (m.setEtwAlias (m.etwAlias.insert r r)).updStats fun t =>
        { t with created := t.created + 1 } := by
  have hobjs : ∀ (e : EtwObj) (sign : ℤ), (m.driverAgg e sign).etwObjs = m.etwObjs := by
    intro e sign
    unfold driverAgg
    dsimp only
    split_ifs <;> rfl
  unfold onEtwObjectCreated storeEtw
  dsimp only
  rw [hetw, hr]
  simp only [Bool.not_true, Option.isSome_none, Bool.or_self, Bool.false_eq_true, if_false, hobjs,
    hobj]

/-- What a fold does before its last attempt to bind. -/
def merged (m : Model) (key : ℕ) (e : EtwObj) (into : ℕ) (old : EtwObj) : Model :=
  let ts := e.createdTs
  let m := m.updStats fun t => { t with rundownDuplicates := t.rundownDuplicates + 1 }
  let m := if e.size ≠ 0 then m.applySize into e.size ts else m
  let m := if e.group ≠ .unknown ∧ e.group ≠ old.group then m.applyGroup into e.group ts else m
  let m := m.driverAgg e (-1)
  let m := m.setEtwObjs (m.etwObjs.erase key)
  let m := m.updEtw into (·.addAlias key)
  m.setEtwAlias (m.etwAlias.insert key into)

/-- A fold is the merge and one more attempt to bind. -/
theorem foldRundown_eq (m : Model) (env : Env) (key : ℕ) (e : EtwObj) (into : ℕ) (old : EtwObj) :
    m.foldRundown env key e into old
      = (m.merged key e into old).tryBindEtw env into e.createdTs := rfl

/-- The merge of two entries: the older one takes the size and the group, and
then the key as an alias. -/
theorem join_merged (m : Model) (key : ℕ) (e : EtwObj) (into : ℕ) (old : EtwObj) :
    (m.merged key e into old).join
      = (m.join.refresh e.noWait into old.noWait).absorb key into := by
  have hsize : ∀ r : Model, (if e.size ≠ 0 then r.applySize into e.size e.createdTs else r).join
      = if e.size ≠ 0 then r.join.applySize into e.size else r.join := by
    intro r; split
    · exact join_applySize r into e.size e.createdTs
    · rfl
  have hgroup : ∀ r : Model, (if e.group ≠ .unknown ∧ e.group ≠ old.group then
      r.applyGroup into e.group e.createdTs else r).join
      = if e.group ≠ .unknown ∧ e.group ≠ old.group then r.join.applyGroup into e.group
        else r.join := by
    intro r; split
    · exact join_applyGroup r into e.group e.createdTs
    · rfl
  unfold merged Join.refresh Join.absorb
  dsimp only
  rw [join_insertAlias, join_updEtw (g := (·.addAlias key)) _ into fun _ => rfl,
    join_eraseEtw, join_driverAgg, hgroup, hsize, join_updStats]
  rfl

/-- **A fold of a re-reported object is the fold of the join.** -/
theorem join_foldRundown (m : Model) (env : Env) (key : ℕ) (e : EtwObj) (into : ℕ) (old : EtwObj) :
    (m.foldRundown env key e into old).join
      = m.join.foldRundown key e.noWait into old.noWait := by
  rw [foldRundown_eq, join_tryBindEtw, join_merged, Join.foldRundown_eq]

/-- An entry that gets its address owns it, and is bound if the object is
there. -/
theorem join_takeAddress (m : Model) (env : Env) (key : ℕ) (e : EtwObj) (address : ℕ) :
    (m.takeAddress env key e address).join = m.join.takeAddress key address := by
  unfold takeAddress Join.takeAddress Join.own
  dsimp only
  rw [join_tryBindEtw, join_sideLine, join_insertAddr,
    join_updEtw (g := (·.setAddress address)) _ key fun _ => rfl]

/-- **An address from ETW is an address in the join**: ignored, folded into the
entry that owns the address, or taken. -/
theorem join_onEtwObjectAddress {m : Model} (hetw : m.etwEnabled = true) (env : Env)
    (libId address : ℕ) :
    (m.onEtwObjectAddress env libId address).join = m.join.etwAddress libId address := by
  unfold onEtwObjectAddress Join.etwAddress
  rw [hetw, join_findEtw]
  by_cases h0 : address = 0
  · rw [if_pos h0]; simp [h0]
  · rw [if_neg h0, if_neg (by simp [h0])]
    cases m.findEtw libId with
    | none => rfl
    | some x =>
      obtain ⟨key, e⟩ := x
      dsimp only [Option.map_some]
      show _ = if e.address ≠ 0 then _ else _
      -- an entry that has an address keeps it
      by_cases hadr : e.address ≠ 0
      · rw [if_pos hadr, if_pos hadr]
      · rw [if_neg hadr, if_neg hadr, join_byAddr]
        cases m.etwByAddr.lookup address with
        | none => exact join_takeAddress m env key e address
        | some into =>
          dsimp only
          -- the entry itself may own the address already
          by_cases hk : into = key
          · rw [if_pos hk, if_pos hk]
            exact join_takeAddress m env key e address
          · rw [if_neg hk, if_neg hk, join_etw]
            cases m.etwObjs.lookup into with
            | none => exact join_takeAddress m env key e address
            | some old =>
              dsimp only [Option.map_some]
              show _ = if old.type = e.type then _ else _
              split
              · exact join_foldRundown m env key e into old
              · exact join_takeAddress m env key e address

/-- Erasing a list of keys. -/
theorem lookup_foldl_erase (xs : List ℕ) (t : Table ℕ ℕ) (x : ℕ) :
    (xs.foldl (fun t a => Finmap.erase a t) t).lookup x = if x ∈ xs then none else t.lookup x := by
  induction xs generalizing t with
  | nil => simp
  | cons a xs ih =>
    rw [List.foldl_cons, ih, lookup_erase_eq]
    -- the tail erases `x`, or the head does, or nothing does
    by_cases hx : x ∈ xs
    · simp [hx]
    · by_cases ha : x = a <;> simp [hx, ha]

/-- The partner of an entry that goes away is unbound, if it still points
there. -/
theorem join_unkey (m : Model) (key : ℕ) (e : EtwObj) :
    (m.unkey key e).join = m.join.unkey key e.noWait := by
  unfold unkey Join.unkey
  have hbound : e.noWait.boundId = e.boundId := rfl
  rw [hbound, join_live]
  split
  · rfl
  · cases m.live.lookup e.boundId with
    | none => rfl
    | some o =>
      dsimp only [Option.map_some]
      show _ = if o.etwKey = key then _ else _
      split
      · exact join_updLive m e.boundId fun o => o.noLoc_setEtwKey 0
      · rfl

/-- An entry goes with its key, all its aliases, and the address if it owns
it. -/
theorem join_dropEtw (m : Model) (key : ℕ) (e : EtwObj) :
    (m.dropEtw key e).join = m.join.drop key e.noWait := by
  have hcanon : (m.setEtwAlias
      ((e.aliases.foldl (fun t a => Finmap.erase a t) m.etwAlias).erase key)).join
      = { m.join with canon := fun x => if x = key ∨ x ∈ e.aliases then none
            else m.join.canon x } := by
    refine Join.ext rfl rfl (funext fun x => ?_) rfl rfl rfl
    show ((e.aliases.foldl (fun t a => Finmap.erase a t) m.etwAlias).erase key).lookup x = _
    rw [lookup_erase_eq, lookup_foldl_erase]
    by_cases hk : x = key
    · simp [hk]
    · by_cases ha : x ∈ e.aliases
      · simp [hk, ha]
      · simp [hk, ha, join_canon]
  unfold dropEtw Join.drop
  dsimp only
  rw [join_eraseEtw, join_driverAgg]
  show _ = Join.setEtw (if e.address ≠ 0 ∧ m.etwByAddr.lookup e.address = some key then _ else _)
    key none
  -- the address may have gone to another entry meanwhile
  by_cases ha : e.address ≠ 0 ∧ m.etwByAddr.lookup e.address = some key
  · rw [if_pos ha, if_pos (by exact ha), join_eraseAddr, hcanon]
    rfl
  · rw [if_neg ha, if_neg (by exact ha), hcanon]
    rfl

/-- A destruction from ETW drops the entry in both. -/
theorem join_onEtwObjectDestroyed {m : Model} (hetw : m.etwEnabled = true) (ts : ℤ) (libId : ℕ) :
    (m.onEtwObjectDestroyed ts libId).join = m.join.etwDestroyed libId := by
  unfold onEtwObjectDestroyed Join.etwDestroyed
  rw [hetw, join_findEtw]
  cases m.findEtw libId with
  | none => rfl
  | some x =>
    obtain ⟨key, e⟩ := x
    have hline : (if e.address ≠ 0 then m.sideLine (.etwObjectDestroyed (m.convTs ts) key)
        else m).join = m.join := by
      split
      · exact join_sideLine m _
      · rfl
    dsimp only [Option.map_some]
    rw [Bool.not_true, if_neg Bool.false_ne_true, join_dropEtw, join_unkey, hline]

/-- A size from ETW goes to the entry that the library id resolves to. -/
theorem join_onEtwObjectSize {m : Model} (hetw : m.etwEnabled = true) (ts : ℤ)
    (libId size : ℕ) : (m.onEtwObjectSize ts libId size).join = m.join.etwSize libId size := by
  unfold onEtwObjectSize Join.etwSize
  rw [hetw, join_findEtw]
  cases m.findEtw libId with
  | none => rfl
  | some x => exact join_applySize m x.1 size _

/-- The state of the process is not part of the join. -/
@[simp] theorem join_pollChildLocked (m : Model) (env : Env) :
    (m.pollChildLocked env).join = m.join := by
  have hmark : ∀ now code, (m.markExiting now code).join = m.join := fun now code =>
    join_sideLine _ _
  unfold pollChildLocked
  dsimp only
  split
  · rfl
  · split
    · split
      · rfl
      · split
        · rfl
        · exact hmark _ _
    · exact hmark _ _

@[simp] theorem join_afterChildExitLocked (m : Model) (env : Env) (ts : ℕ) :
    (m.afterChildExitLocked env ts).2.join = m.join := by
  unfold afterChildExitLocked
  dsimp only
  split
  · exact join_pollChildLocked m env
  · rfl

theorem findEtw_updStats (m : Model) (f : EtwSnapshot → EtwSnapshot) (libId : ℕ) :
    (m.updStats f).findEtw libId = m.findEtw libId := rfl

/-- A group change that is not ignored. -/
theorem join_regroup (m : Model) (c : Etw.GroupChange) (ts : ℕ) :
    (m.regroup c ts).join = m.join.etwGroup c.libId (fromGroup c.group) := by
  unfold regroup Join.etwGroup
  rw [join_findEtw]
  dsimp only
  rw [findEtw_updStats]
  cases m.findEtw c.libId with
  | none => rfl
  | some x =>
    obtain ⟨key, e⟩ := x
    dsimp only [Option.map_some]
    show _ = if fromGroup c.group ≠ e.group then _ else _
    split
    · exact join_applyGroup (m.updStats _) key _ _
    · rfl

/-- A group change is ignored, or it is a group change of the join. -/
theorem join_onEtwGroupChange (m : Model) (c : Etw.GroupChange) (env : Env) :
    (m.onEtwGroupChange c env).join =
      if (m.afterChildExitLocked env (m.convTs c.ts)).1 then m.join
      else m.join.etwGroup c.libId (fromGroup c.group) := by
  unfold onEtwGroupChange
  dsimp only
  split
  · rw [join_updStats, join_afterChildExitLocked]
  · rw [join_regroup, join_afterChildExitLocked]

/-- The line of a paging operation is not part of the join. -/
theorem join_residencyLine (m : Model) (ts libId : ℕ) (type : Etw.ObjType) (op : Etw.ResidencyOp) :
    (m.residencyLine ts libId type op).join = m.join := by
  unfold residencyLine
  split <;> exact join_sideLine m _

theorem join_countResidency (m : Model) (ts libId : ℕ) (type : Etw.ObjType)
    (op : Etw.ResidencyOp) : (m.countResidency ts libId type op).join = m.join := by
  cases op with
  | makeResident => rfl
  | evict => rfl
  | pageIn => exact join_residencyLine _ ts libId type _
  | pageOut => exact join_residencyLine _ ts libId type _

/-- Neither are the residency counts. -/
theorem join_onEtwResidency (m : Model) (env : Env) (ts : ℤ) (libId : ℕ) (type : Etw.ObjType)
    (op : Etw.ResidencyOp) : (m.onEtwResidency env ts libId type op).join = m.join := by
  unfold onEtwResidency
  dsimp only
  split
  · rfl
  · split
    · rw [join_updStats, join_afterChildExitLocked]
    · rw [join_countResidency, join_afterChildExitLocked]

/-- Neither are the budget counters. -/
theorem join_onEtwCounter (m : Model) (env : Env) (ts : ℤ) (counterId : ℕ)
    (kind : Etw.CounterKind) (bytes : ℕ) :
    (m.onEtwCounter env ts counterId kind bytes).join = m.join := by
  unfold onEtwCounter
  dsimp only
  split
  · rfl
  · split
    · rfl
    · split
      · exact join_afterChildExitLocked m env _
      · exact join_afterChildExitLocked m env _

/-- Neither is a diagnostic. -/
theorem join_onEtwDiagnostic (m : Model) (env : Env) (error : Bool) (code : ℤ) (msg : WString) :
    (m.onEtwDiagnostic env error code msg).join = m.join := by
  unfold onEtwDiagnostic
  dsimp only
  split
  · rfl
  · rw [join_sideLine, join_updStats]

/-! ### The main thread -/

/-- What expires is the wait, which the join forgets. -/
theorem join_expirePending (nowMs : ℕ) (q : List ℕ) (m : Model) :
    (expirePending nowMs q m).join = m.join := by
  induction q generalizing m with
  | nil => rfl
  | cons k q ih =>
    unfold expirePending
    split
    · exact ih m
    · split
      · exact ih m
      · split
        · rfl
        · dsimp only
          rw [ih, join_updStats]
          exact join_updEtw_wait m k fun _ => rfl

/-- Pruning touches nothing but the dead. -/
theorem join_forgetDead (nowTs : ℕ) (q : List (ℕ × ℕ)) (m : Model) :
    (forgetDead nowTs q m).join = { m.join with dead := (forgetDead nowTs q m).join.dead } := by
  induction q generalizing m with
  | nil => rfl
  | cons x q ih =>
    obtain ⟨ts, ptr⟩ := x
    unfold forgetDead
    split
    · dsimp only
      split
      · exact ih m
      · rw [ih]; rfl
    · rfl

@[simp] theorem join_refreshJoinStats (m : Model) : m.refreshJoinStats.join = m.join := rfl

/-- **A tick touches nothing but the dead**: the pending entries, the second's
line and the counts are not part of the join. -/
theorem join_etwTick (m : Model) (env : Env) (st : Etw.Stats) :
    (m.etwTick env st).join = { m.join with dead := (m.etwTick env st).join.dead } := by
  have hlast : ∀ r : Model, ({ r with lastSecondMs := env.nowMs } : Model).join = r.join :=
    fun _ => rfl
  unfold etwTick
  split
  · rfl
  · dsimp only
    split
    · rw [join_forgetDead, join_expirePending, join_updStats]
    · split
      · rw [join_sideLine, join_refreshJoinStats, hlast, join_forgetDead, join_expirePending,
          join_updStats]
      · rw [join_refreshJoinStats, hlast, join_forgetDead, join_expirePending, join_updStats]

/-- The last line is written from counts that are not part of the join. -/
theorem join_finishEtw (m : Model) (env : Env) (st : Etw.Stats) :
    (m.finishEtw env st).join = m.join := by
  unfold finishEtw
  dsimp only
  split
  · rfl
  · split
    · show (Model.sideLine _ _).join = _
      rw [join_sideLine, join_refreshJoinStats, join_updStats]
    · rfl

end Model

end Dx12Track
