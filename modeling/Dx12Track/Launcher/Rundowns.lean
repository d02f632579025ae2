import Dx12Track.Launcher.Waiting

/-!
# Rundowns are transparent

Every few seconds ETW reports the objects that exist, each under a library id of
its own.  Such a re-report is counted as a new object, and merged into the object
it repeats as soon as its address is known.  A run in which objects are re-reported
is compared here with the run in which they are not, and in which the calls use
the id of the original object instead of the id of a re-report.

* `Item`, `reported`, `plain` — a run with rundowns, and the run without them.
* `unknown_step` — a library id is unknown until it is reported.
* `step_mapLibIds` — a call with another id of the same object is the same call.
* `sansRundowns_rundown` — **a re-report changes nothing**.
* `rundowns_transparent` — **the two runs agree**.
-/

namespace Dx12Track

open Etw (ObjType Group ResidencyOp CounterKind GroupChange Stats)
open Model (liveOfCreated)

/-! ### Unknown ids -/

namespace Join

theorem canon_tryBind (j : Join) (key : ℕ) : (j.tryBind key).canon = j.canon := by
  rcases j.tryBind_cases key with hj | ⟨e, id, o, -, -, -, -, -, hj⟩ | ⟨e, x, -, -, -, hj⟩
  · rw [hj]
  · rw [hj]
    exact (bind_frame j key id e o).1
  · rw [hj]
    rfl

theorem canon_bindReported (j : Join) (id : ℕ) : (j.bindReported id).canon = j.canon := by
  rcases j.bindReported_cases id with hsame | ⟨o, key, e, -, -, -, -, -, hbind⟩
  · rw [hsame]
  · rw [hbind]
    exact (bind_frame j key id e o).1

/-- A fold gives a new owner to an id that is known. -/
theorem canon_foldRundown {j : Join} (key : ℕ) (e : EtwObj) (into : ℕ) (old : EtwObj) {x : ℕ}
    (hx : x ≠ key) : (j.foldRundown key e into old).canon x = j.canon x := by
  have hcanon : (j.refresh e into old).canon = j.canon :=
    refresh_frame canon_updEtw canon_updLive j e into old
  rw [foldRundown_eq, canon_tryBind]
  rw [canon_absorb, if_neg hx]
  exact congrFun hcanon x

theorem unknown_etwAddress {j : Join} (h : j.Index) {x : ℕ} (hx : j.canon x = none)
    (libId address : ℕ) : (j.etwAddress libId address).canon x = none := by
  rcases j.etwAddress_cases libId address with hsame | ⟨key, e, hfind, -, -, htake | hfold⟩
  · rw [hsame]
    exact hx
  · rw [htake, takeAddress, canon_tryBind]
    exact hx
  · obtain ⟨into, old, -, -, -, -, hfold⟩ := hfold
    have hne : x ≠ key := by
      rintro rfl
      rw [(h.etw_key (find_some hfind).2).2] at hx
      cases hx
    rw [hfold, canon_foldRundown _ _ _ _ hne]
    exact hx

/-- **A library id is unknown until it is reported.** -/
theorem unknown_step {j : Join} (h : j.Index) {op : Op} {x : ℕ} (hop : op.libId ≠ some x)
    (hx : j.canon x = none) : (j.step op).canon x = none := by
  cases op with
  | created tsNs p =>
    show (j.created (liveOfCreated tsNs p)).canon x = none
    rw [created, canon_bindReported, occupy_canon]
    exact hx
  | renamed id name => exact hx
  | destroyed id ts =>
    show (j.destroyed id ts).canon x = none
    cases ho : j.live id with
    | none =>
      unfold destroyed
      rw [ho]
      exact hx
    | some o =>
      rw [(destroyed_frame ho ts).2.1]
      exact hx
  | etwCreated libId type size group createdTs =>
    have hne : x ≠ libId := fun hxl => hop (congrArg some hxl.symm)
    show (j.etwCreated libId _).canon x = none
    unfold etwCreated
    split
    · exact hx
    · rw [setCanon_canon, Function.update_of_ne hne]
      split <;> exact hx
  | etwAddress libId address => exact unknown_etwAddress h hx libId address
  | etwDestroyed libId =>
    show (j.etwDestroyed libId).canon x = none
    unfold etwDestroyed
    split
    · exact hx
    · next key e _ =>
      rw [canon_drop, (unkey_frame j key e).1, hx]
      split <;> rfl
  | etwSize libId size =>
    show (j.etwSize libId size).canon x = none
    unfold etwSize
    split
    · exact hx
    · rw [applySize_frame canon_updEtw canon_updLive]
      exact hx
  | etwGroup libId group =>
    show (j.etwGroup libId group).canon x = none
    unfold etwGroup
    split
    · exact hx
    · split
      · rw [applyGroup_frame canon_updEtw canon_updLive]
        exact hx
      · exact hx
  | prune dead => exact hx

end Join

namespace Model

theorem unknown_step {m : Model} (hetw : m.etwEnabled = true) (hinv : m.join.Inv) {x : Step} {k : ℕ}
    (hk : x.libId ≠ some k) (h : m.etwAlias.lookup k = none) :
    (m.step x).etwAlias.lookup k = none := by
  have hbatch : ∀ (cs : List (GroupChange × Env)) (r : Model),
      (cs.foldl (fun m c => m.onEtwGroupChange c.1 c.2) r).etwAlias.lookup k
        = r.etwAlias.lookup k := by
    intro cs
    induction cs with
    | nil => exact fun _ => rfl
    | cons c cs ih =>
      intro r
      rw [List.foldl_cons, ih, etwAlias_onEtwGroupChange]
  have one : ∀ op, m.ops x = [op] → op.libId ≠ some k → (m.step x).join.canon k = none := by
    intro op hop hlib
    rw [join_step hetw, hop]
    exact Join.unknown_step hinv.index hlib h
  have none' : m.ops x = [] → (m.step x).join.canon k = none := by
    intro hop
    rw [join_step hetw, hop]
    exact h
  cases x with
  | event ts r =>
    cases r with
    | created p => exact one _ rfl (by simp [Join.Op.libId])
    | renamed p => exact one _ rfl (by simp [Join.Op.libId])
    | destroyed p => exact one _ rfl (by simp [Join.Op.libId])
    | _ => exact none' rfl
  | objectCreated ts libId type size group => exact one _ rfl hk
  | objectAddress env libId address => exact one _ rfl (by simp [Join.Op.libId])
  | objectDestroyed ts libId => exact one _ rfl (by simp [Join.Op.libId])
  | objectSize ts libId size => exact one _ rfl (by simp [Join.Op.libId])
  | groupChanges changes =>
    show (m.onEtwGroupChanges changes).etwAlias.lookup k = none
    unfold onEtwGroupChanges
    split
    · exact h
    · rw [hbatch]
      exact h
  | tick env st => exact one _ rfl (by simp [Join.Op.libId])
  | _ => exact none' rfl

end Model

/-! ### Ids of the same object -/

/-- The call with other library ids; the id of a new object stays. -/
def Step.mapLibIds (f : ℕ → ℕ) : Step → Step
  | .objectAddress env libId address => .objectAddress env (f libId) address
  | .objectDestroyed ts libId => .objectDestroyed ts (f libId)
  | .objectSize ts libId size => .objectSize ts (f libId) size
  | .groupChanges changes =>
    .groupChanges (changes.map fun c => ({ c.1 with libId := f c.1.libId }, c.2))
  | .residency env ts libId type op => .residency env ts (f libId) type op
  | x => x

namespace Model

variable {m : Model}

theorem findEtw_congr {k k' : ℕ} (h : m.etwAlias.lookup k' = m.etwAlias.lookup k) :
    m.findEtw k' = m.findEtw k := by
  unfold findEtw
  rw [h]

theorem onEtwGroupChange_congr {c : GroupChange} {k : ℕ}
    (h : m.etwAlias.lookup k = m.etwAlias.lookup c.libId) (env : Env) :
    m.onEtwGroupChange { c with libId := k } env = m.onEtwGroupChange c env := by
  have hregroup : ∀ (r : Model) (ts : ℕ), r.etwAlias.lookup k = r.etwAlias.lookup c.libId →
      r.regroup { c with libId := k } ts = r.regroup c ts := by
    intro r ts hr
    have hfind : ∀ f : EtwSnapshot → EtwSnapshot,
        (r.updStats f).findEtw k = (r.updStats f).findEtw c.libId := fun f => findEtw_congr hr
    unfold regroup
    dsimp only
    rw [hfind]
  unfold onEtwGroupChange
  dsimp only
  rw [hregroup]
  rw [etwAlias_afterChildExitLocked, etwAlias_afterChildExitLocked, h]

theorem countResidency_congr {k k' : ℕ} (h : m.etwAlias.lookup k' = m.etwAlias.lookup k)
    (hk : k' = k ∨ (m.findEtw k).isSome) (ts : ℕ) (type : ObjType) (op : ResidencyOp) :
    m.countResidency ts k' type op = m.countResidency ts k type op := by
  have hline : ∀ f : EtwSnapshot → EtwSnapshot, (m.updStats f).residencyLine ts k' type op
      = (m.updStats f).residencyLine ts k type op := by
    intro f
    have hfind : (m.updStats f).findEtw k' = (m.updStats f).findEtw k := findEtw_congr h
    unfold residencyLine
    rw [hfind]
    rcases hk with rfl | hsome
    · rfl
    · -- the line of a known object does not name the id it was given
      cases hf : (m.updStats f).findEtw k with
      | none =>
        have hnone : m.findEtw k = none := hf
        rw [hnone] at hsome
        cases hsome
      | some ke => rfl
  unfold countResidency
  cases op with
  | makeResident => rfl
  | evict => rfl
  | pageIn => exact hline _
  | pageOut => exact hline _

/-- **A call with another id of the same object is the same call.** -/
theorem step_mapLibIds {f : ℕ → ℕ} {x : Step}
    (hf : ∀ k ∈ x.resolved, m.etwAlias.lookup (f k) = m.etwAlias.lookup k ∧
      (f k = k ∨ (m.findEtw k).isSome)) : m.step (x.mapLibIds f) = m.step x := by
  cases x with
  | objectAddress env libId address =>
    have hfind := findEtw_congr (hf libId (List.mem_singleton.mpr rfl)).1
    show m.onEtwObjectAddress env (f libId) address = m.onEtwObjectAddress env libId address
    unfold onEtwObjectAddress
    rw [hfind]
  | objectDestroyed ts libId =>
    have hfind := findEtw_congr (hf libId (List.mem_singleton.mpr rfl)).1
    show m.onEtwObjectDestroyed ts (f libId) = m.onEtwObjectDestroyed ts libId
    unfold onEtwObjectDestroyed
    rw [hfind]
  | objectSize ts libId size =>
    have hfind := findEtw_congr (hf libId (List.mem_singleton.mpr rfl)).1
    show m.onEtwObjectSize ts (f libId) size = m.onEtwObjectSize ts libId size
    unfold onEtwObjectSize
    rw [hfind]
  | groupChanges changes =>
    -- the index is the same all through the batch, so each change is resolved alike
    have hfold : ∀ (cs : List (GroupChange × Env)) (r : Model),
        (∀ c ∈ cs, r.etwAlias.lookup (f c.1.libId) = r.etwAlias.lookup c.1.libId) →
        (cs.map fun c => ({ c.1 with libId := f c.1.libId }, c.2)).foldl
          (fun m c => m.onEtwGroupChange c.1 c.2) r
          = cs.foldl (fun m c => m.onEtwGroupChange c.1 c.2) r := by
      intro cs
      induction cs with
      | nil => exact fun _ _ => rfl
      | cons c cs ih =>
        intro r hr
        rw [List.map_cons, List.foldl_cons, List.foldl_cons,
          onEtwGroupChange_congr (hr c List.mem_cons_self)]
        refine ih _ fun d hd => ?_
        rw [etwAlias_onEtwGroupChange, etwAlias_onEtwGroupChange]
        exact hr d (List.mem_cons_of_mem c hd)
    have hall : ∀ c ∈ changes,
        m.etwAlias.lookup (f c.1.libId) = m.etwAlias.lookup c.1.libId :=
      fun c hc => (hf c.1.libId (List.mem_map.mpr ⟨c, hc, rfl⟩)).1
    show m.onEtwGroupChanges _ = m.onEtwGroupChanges changes
    unfold onEtwGroupChanges
    rw [hfold changes m hall]
  | residency env ts libId type op =>
    obtain ⟨halias, hknown⟩ := hf libId (List.mem_singleton.mpr rfl)
    -- the look at the process does not touch the ETW objects
    have hpolled : ∀ t, (m.afterChildExitLocked env t).2.findEtw libId = none →
        m.findEtw libId = none := by
      intro t ht
      have hj := join_findEtw (m.afterChildExitLocked env t).2 libId
      rw [join_afterChildExitLocked, ht, join_findEtw] at hj
      exact Option.map_eq_none_iff.mp hj
    show m.onEtwResidency env ts (f libId) type op = m.onEtwResidency env ts libId type op
    unfold onEtwResidency
    dsimp only
    rw [countResidency_congr]
    · rw [etwAlias_afterChildExitLocked, etwAlias_afterChildExitLocked, halias]
    · refine hknown.imp_right fun hsome => ?_
      rw [Option.isSome_iff_ne_none] at hsome ⊢
      exact fun hnone => hsome (hpolled _ hnone)
  | _ => rfl

/-! ### A re-report -/

/-- Counting an object and withdrawing it again. -/
theorem driverAgg_cancel (m : Model) (e : EtwObj)
    (hfit : isDriverType e.type = true → m.s.etw.bytes e.type + e.size < 2 ^ 64) :
    (m.driverAgg e 1).driverAgg e (-1) = m := by
  -- a cell that is raised and lowered again
  have hcell : ∀ (t : ObjType → ℕ) (v n : ℕ), v = t e.type + n →
      setAt (setAt t e.type v) e.type (setAt t e.type v e.type - n) = t := by
    intro t v n hv
    rw [setAt_setAt, setAt_same, hv, Nat.add_sub_cancel]
    exact setAt_eq_self rfl
  have hstats : ∀ {live sized bytes : ObjType → ℕ}, live = m.s.etw.live →
      sized = m.s.etw.sized → bytes = m.s.etw.bytes →
      (m.updStats fun s => { s with live := live, sized := sized, bytes := bytes }) = m := by
    rintro _ _ _ rfl rfl rfl
    rfl
  have hlive := hcell m.s.etw.live _ 1 rfl
  rw [driverAgg_pos, driverAgg_neg]
  cases hc : countsSize e with
  | false => exact hstats hlive rfl rfl
  | true =>
    have hdriver : isDriverType e.type = true := (Bool.and_eq_true_iff.mp hc).1
    have hsized := hcell m.s.etw.sized _ 1 rfl
    have hbytes := hcell m.s.etw.bytes _ e.size (Nat.mod_eq_of_lt (hfit hdriver))
    exact hstats hlive hsized hbytes

theorem driverAgg_setEtwObjs (m : Model) (t : Table ℕ EtwObj) (e : EtwObj) (sign : ℤ) :
    (m.setEtwObjs t).driverAgg e sign = (m.driverAgg e sign).setEtwObjs t := by
  unfold driverAgg
  dsimp only
  split_ifs <;> rfl

theorem sansRundowns_insertAlias_of_mem {R : List ℕ} {x : ℕ} (hx : x ∈ R) (m : Model) (key : ℕ) :
    (m.setEtwAlias (m.etwAlias.insert x key)).sansRundowns R = m.sansRundowns R := by
  have hnot : decide (x ∉ R) = false := by simp [hx]
  have htable := Finmap.restrict_insert_of_not (p := fun x => decide (x ∉ R)) hnot key m.etwAlias
  unfold setEtwAlias sansRundowns
  rw [htable]

theorem sansRundowns_addAlias_of_mem {R : List ℕ} {x : ℕ} (hx : x ∈ R) (m : Model) (key : ℕ) :
    (m.updEtw key (·.addAlias x)).sansRundowns R = m.sansRundowns R := by
  have htable : (m.etwObjs.modify key (·.addAlias x)).mapVal (EtwObj.sansAliases R)
      = m.etwObjs.mapVal (EtwObj.sansAliases R) := by
    refine (Finmap.mapVal_modify (h := fun e => e) (EtwObj.sansAliases_addAlias_of_mem hx) key
      m.etwObjs).trans ?_
    exact Finmap.modify_eq_self fun _ _ => rfl
  unfold updEtw setEtwObjs sansRundowns
  rw [htable]

/-- A re-report that repeats size and group is merged into nothing. -/
theorem merged_of_same {m : Model} {key into : ℕ} {e old : EtwObj}
    (hold : m.etwObjs.lookup into = some old) (hsize : e.size = old.size)
    (hgroup : e.group = old.group) :
    m.merged key e into old =
      let m := (m.updStats fun t =>
        { t with rundownDuplicates := t.rundownDuplicates + 1 }).driverAgg e (-1)
      let m := m.setEtwObjs (m.etwObjs.erase key)
      let m := m.updEtw into (·.addAlias key)
      m.setEtwAlias (m.etwAlias.insert key into) := by
  have happly : ∀ r : Model, r.etwObjs.lookup into = some old →
      (if e.size ≠ 0 then r.applySize into e.size e.createdTs else r) = r := by
    intro r hr
    split
    · unfold applySize
      rw [hr]
      exact if_pos (.inr hsize)
    · rfl
  have hregroup : ¬(e.group ≠ .unknown ∧ e.group ≠ old.group) := fun h => h.2 hgroup
  unfold merged
  dsimp only
  rw [happly, if_neg hregroup]
  exact hold

/-- **A re-report changes nothing.** -/
theorem sansRundowns_rundown {m : Model} {R : List ℕ} (hetw : m.etwEnabled = true)
    {r into address : ℕ} {old : EtwObj} (hR : r ∈ R) (hr : m.etwAlias.lookup r = none)
    (hobj : m.etwObjs.lookup r = none) (hown : m.etwByAddr.lookup address = some into)
    (hold : m.etwObjs.lookup into = some old) {group : Group} (hgroup : old.group = fromGroup group)
    (hfit : isDriverType old.type = true → m.s.etw.bytes old.type + old.size < 2 ^ 64)
    (ts : ℤ) (env : Env) {n : Model} (hn : n = m.onEtwObjectCreated ts r old.type old.size group)
    (hinv : n.join.Inv) (hs : n.join.Settled ∅) (hw : n.Watched ∅) :
    (n.onEtwObjectAddress env r address).sansRundowns R = m.sansRundowns R := by
  let e : EtwObj :=
    { type := old.type, size := old.size, group := fromGroup group, createdTs := m.convTs ts }
  rw [onEtwObjectCreated_of_unknown hetw hr hobj] at hn
  dsimp only at hn
  have hne : into ≠ r := by
    rintro rfl
    rw [hobj] at hold
    cases hold
  -- what the second call finds
  have hbyAddr : n.etwByAddr.lookup address = some into := by
    rw [hn, driverAgg_pos]
    exact hown
  have he : n.etwObjs.lookup r = some e := by
    rw [hn]
    exact Finmap.lookup_insert _
  have hold' : n.etwObjs.lookup into = some old := by
    rw [hn]
    exact (Finmap.lookup_insert_of_ne _ hne).trans hold
  have hfind : n.findEtw r = some (r, e) := by
    have halias : n.etwAlias.lookup r = some r := by
      rw [hn]
      exact Finmap.lookup_insert _
    unfold findEtw
    rw [halias]
    dsimp only
    rw [he]
    rfl
  have haddr : old.address = address := by
    obtain ⟨-, old', hold₁, hadr⟩ := hinv.index.byAddr hbyAddr
    rw [join_etw, hold'] at hold₁
    cases hold₁
    exact hadr
  have hfold := foldRundown_of_settled hinv hs hw he rfl hold' hne (haddr ▸ hbyAddr) env
  have hcall : n.onEtwObjectAddress env r address = n.merged r e into old := by
    have hetw' : n.etwEnabled = true := by
      rw [hn, driverAgg_pos]
      exact hetw
    have ha : address ≠ 0 := (hinv.index.byAddr hbyAddr).1
    have hopen : ¬(!n.etwEnabled || decide (address = 0)) = true := by simp [hetw', ha]
    unfold onEtwObjectAddress
    rw [if_neg hopen, hfind]
    dsimp only
    rw [if_neg (fun h => h rfl), hbyAddr]
    dsimp only
    rw [if_neg hne, hold']
    exact (if_pos rfl).trans hfold
  -- the new object is counted, stored, withdrawn and erased
  have hprojected : n.sansRundowns R = ((m.sansRundowns R).driverAgg e 1).setEtwObjs
      ((m.sansRundowns R).etwObjs.insert r (e.sansAliases R)) := by
    have htable := Finmap.mapVal_insert (EtwObj.sansAliases R) r e m.etwObjs
    rw [hn]
    show (((m.driverAgg e 1).setEtwObjs (m.etwObjs.insert r e)).setEtwAlias _).sansRundowns R = _
    rw [sansRundowns_insertAlias_of_mem hR, ← sansRundowns_driverAgg]
    unfold setEtwObjs sansRundowns
    rw [htable]
  have hcount : (n.updStats fun t =>
      { t with rundownDuplicates := t.rundownDuplicates + 1 }).sansRundowns R
        = n.sansRundowns R := rfl
  have hnone : (m.sansRundowns R).etwObjs.lookup r = none := by
    rw [etwObjs_sansRundowns, hobj]
    rfl
  rw [hcall, merged_of_same (e := e) hold' rfl hgroup.symm]
  dsimp only
  rw [sansRundowns_insertAlias_of_mem hR, sansRundowns_addAlias_of_mem hR, sansRundowns_eraseEtw,
    sansRundowns_driverAgg, hcount, hprojected, driverAgg_setEtwObjs,
    driverAgg_cancel (m.sansRundowns R) e hfit]
  show (m.sansRundowns R).setEtwObjs (((m.sansRundowns R).etwObjs.insert r _).erase r) = _
  rw [Finmap.erase_insert_of_none hnone]
  rfl

end Model

/-! ### Runs with rundowns -/

/-- What happens in a run: a call, or the re-report of an object, which is two calls. -/
inductive Item
  | call (x : Step)
  | rundown (ts : ℤ) (libId : ℕ) (type : ObjType) (size : ℕ) (group : Group) (env : Env)
      (address : ℕ)

/-- The calls of an item. -/
def Item.steps : Item → List Step
  | .call x => [x]
  | .rundown ts libId type size group env address =>
    [.objectCreated ts libId type size group, .objectAddress env libId address]

/-- The library id of a re-report. -/
def Item.rundownId : Item → Option ℕ
  | .call _ => none
  | .rundown _ libId _ _ _ _ _ => some libId

/-- The run with rundowns, as the calls it consists of. -/
def reported (is : List Item) : List Step := is.flatMap Item.steps

def rundownIds (is : List Item) : List ℕ := is.filterMap Item.rundownId

theorem reported_cons (i : Item) (is : List Item) :
    reported (i :: is) = i.steps ++ reported is := List.flatMap_cons

/-- Every re-report has a library id that nothing else is reported under. -/
def RundownIdsFresh (is : List Item) : Prop :=
  ∀ r ∈ rundownIds is, (libIds (reported is)).count r = 1

instance (is : List Item) : Decidable (RundownIdsFresh is) :=
  inferInstanceAs (Decidable (∀ r ∈ rundownIds is, _))

namespace Model

/-- The id of the original object behind the id of a re-report. -/
def canonical (m : Model) (R : List ℕ) (x : ℕ) : ℕ :=
  if x ∈ R then (m.etwAlias.lookup x).getD x else x

/-- What an item is in the run without rundowns: nothing, or a call with the ids of original
objects, as they are known in `m`. -/
def plainItem (m : Model) (R : List ℕ) : Item → List Step
  | .call x => [x.mapLibIds (m.canonical R)]
  | .rundown .. => []

/-- The run without rundowns. -/
def plain (R : List ℕ) : Model → List Item → List Step
  | _, [] => []
  | m, i :: is => m.plainItem R i ++ plain R (m.after i.steps) is

/-- What may happen in the state `m`: nobody is created where another object lives, and a
re-report repeats type, size and group of the object that owns the address. -/
def Faithful (m : Model) : Item → Prop
  | .call x => m.Vacant x
  | .rundown _ _ type size group _ address =>
    ∃ k old, m.etwByAddr.lookup address = some k ∧ m.etwObjs.lookup k = some old ∧
      old.type = type ∧ old.size = size ∧ old.group = fromGroup group

/-- A second time the size of the object still fits into the total of its type. -/
def FitsTwice (m : Model) : Item → Prop
  | .call _ => True
  | .rundown _ _ type size _ _ _ =>
    isDriverType type = true → m.s.etw.bytes type + size < 2 ^ 64

/-- `P` holds of every item, in the state in which it happens. -/
def Along (P : Model → Item → Prop) : Model → List Item → Prop
  | _, [] => True
  | m, i :: is => P m i ∧ Along P (m.after i.steps) is

/-! ### The two runs -/

/-- The run with the re-reports `R` is in state `m`, and the run without them in state `n`. -/
structure Alike (R : List ℕ) (m n : Model) : Prop where
  enabled : m.etwEnabled = true
  inv : m.join.Inv
  settled : m.join.Settled ∅
  watched : m.Watched ∅
  /-- Nothing is stored under the id of a re-report. -/
  stored : ∀ r ∈ R, m.etwObjs.lookup r = none
  same : m.sansRundowns R = n.sansRundowns []

variable {R : List ℕ} {m n : Model}

/-- The invariants of one call. -/
theorem Alike.invariants (h : m.Alike R n) {x : Step}
    (hid : ∀ id, x.createdId = some id → id ≠ 0 ∧ m.live.lookup id = none)
    (hlib : ∀ k, x.libId = some k → k ≠ 0) (hvacant : m.Vacant x) :
    (m.step x).join.Inv ∧ (m.step x).join.Settled ∅ ∧ (m.step x).Watched ∅ :=
  ⟨inv_step h.enabled h.inv x hid hlib, settled_step h.enabled h.inv h.settled x hid hlib hvacant,
    watched_step h.enabled h.inv h.watched x hid⟩

/-- Nothing is stored under an id that is not reported. -/
theorem stored_step (hetw : m.etwEnabled = true) {x : Step} {r : ℕ} (hr : x.libId ≠ some r)
    (h : m.etwObjs.lookup r = none) : (m.step x).etwObjs.lookup r = none := by
  have hbefore : Join.Buried False r m.join := by
    intro e he
    rw [join_etw, h] at he
    cases he
  have hids : r ∉ libIds [x] := fun hmem => hr (by simpa [libIds] using hmem)
  have hafter := buried_after hetw hbefore [x] hids
  by_contra hsome
  obtain ⟨e, he⟩ := Option.ne_none_iff_exists'.mp hsome
  have hj : (m.after [x]).join.etw r = some e.noWait := by
    rw [join_etw]
    show ((m.step x).etwObjs.lookup r).map _ = _
    rw [he]
    rfl
  exact (hafter _ hj).1

/-- The canonical id of an id leads where the id leads, and to no re-report. -/
theorem Alike.canonical (h : m.Alike R n) (k : ℕ) :
    m.etwAlias.lookup (m.canonical R k) = m.etwAlias.lookup k ∧
      (m.canonical R k = k ∨ (m.findEtw k).isSome) ∧ m.Apart R (m.canonical R k) := by
  by_cases hk : k ∈ R
  · cases halias : m.etwAlias.lookup k with
    | none =>
      have hsame : m.canonical R k = k := by
        unfold Model.canonical
        rw [if_pos hk, halias]
        rfl
      rw [hsame]
      exact ⟨halias, .inl rfl, fun _ => halias⟩
    | some key =>
      have hcan : m.canonical R k = key := by
        unfold Model.canonical
        rw [if_pos hk, halias]
        rfl
      obtain ⟨e, he, -⟩ := h.inv.index.canon (x := k) (k := key) halias
      obtain ⟨e', he', -⟩ := Option.map_eq_some_iff.mp he
      have he' : m.etwObjs.lookup key = some e' := he'
      rw [hcan]
      refine ⟨(h.inv.index.etw_key he).2, .inr ?_, fun hR => ?_⟩
      · unfold findEtw
        rw [halias]
        dsimp only
        rw [he']
        rfl
      · rw [h.stored key hR] at he'
        cases he'
  · have hsame : m.canonical R k = k := if_neg hk
    rw [hsame]
    exact ⟨rfl, .inl rfl, fun hR => absurd hR hk⟩

/-- **A call** does the same in both runs. -/
theorem Alike.call (h : m.Alike R n) {x : Step}
    (hid : ∀ id, x.createdId = some id → id ≠ 0 ∧ m.live.lookup id = none)
    (hlib : ∀ k, x.libId = some k → k ≠ 0 ∧ k ∉ R) (hvacant : m.Vacant x) :
    (m.step x).Alike R (n.step (x.mapLibIds (m.canonical R))) := by
  obtain ⟨hinv, hsettled, hwatched⟩ := h.invariants hid (fun k hk => (hlib k hk).1) hvacant
  have hstored : ∀ r ∈ R, (m.step x).etwObjs.lookup r = none := fun r hr =>
    stored_step h.enabled (fun hx => (hlib r hx).2 hr) (h.stored r hr)
  have hnew : ∀ k, (x.mapLibIds (m.canonical R)).libId = some k → k ∉ R ∧ k ∉ ([] : List ℕ) := by
    intro k hk
    refine ⟨(hlib k ?_).2, List.not_mem_nil⟩
    cases x <;> exact hk
  -- the ids that the plain run resolves are the canonical ones
  have hresolved : ∀ k ∈ (x.mapLibIds (m.canonical R)).resolved,
      ∃ k' ∈ x.resolved, k = m.canonical R k' := by
    intro k hk
    cases x with
    | groupChanges changes =>
      obtain ⟨c, hc, rfl⟩ := List.mem_map.mp hk
      obtain ⟨c', hc', rfl⟩ := List.mem_map.mp hc
      exact ⟨c'.1.libId, List.mem_map.mpr ⟨c', hc', rfl⟩, rfl⟩
    | objectAddress env libId address => exact ⟨libId, .head _, List.mem_singleton.mp hk⟩
    | objectDestroyed ts libId => exact ⟨libId, .head _, List.mem_singleton.mp hk⟩
    | objectSize ts libId size => exact ⟨libId, .head _, List.mem_singleton.mp hk⟩
    | residency env ts libId type op => exact ⟨libId, .head _, List.mem_singleton.mp hk⟩
    | _ => cases hk
  refine ⟨(etwEnabled_step m x).trans h.enabled, hinv, hsettled, hwatched, hstored, ?_⟩
  -- the canonical id resolves to the same record, so the step may use it
  rw [← step_mapLibIds (f := m.canonical R) fun k _ => ⟨(h.canonical k).1, (h.canonical k).2.1⟩]
  refine sansRundowns_step h.same hnew ?_ (fun k _ hk => absurd hk List.not_mem_nil) ?_
    fun k _ => List.not_mem_nil
  · intro k hk
    obtain ⟨k', -, rfl⟩ := hresolved k hk
    exact (h.canonical k').2.2
  · intro k hk hR
    rw [h.stored k hR] at hk
    cases hk

/-- **A re-report** does nothing. -/
theorem Alike.rundown (h : m.Alike R n) {ts : ℤ} {r : ℕ} {type : ObjType} {size : ℕ}
    {group : Group} {env : Env} {address : ℕ} (hR : r ∈ R) (hr0 : r ≠ 0)
    (hr : m.etwAlias.lookup r = none)
    (hfaithful : m.Faithful (.rundown ts r type size group env address))
    (hfits : m.FitsTwice (.rundown ts r type size group env address)) :
    (m.after (Item.rundown ts r type size group env address).steps).Alike R n := by
  obtain ⟨into, old, hown, hold, rfl, rfl, hgroup⟩ := hfaithful
  let m₁ := m.step (.objectCreated ts r old.type old.size group)
  obtain ⟨hinv, hsettled, hwatched⟩ :=
    h.invariants (x := .objectCreated ts r old.type old.size group) (fun id hid => by cases hid)
      (fun k hk => by cases hk; exact hr0) trivial
  have henabled : m₁.etwEnabled = true := (etwEnabled_step m _).trans h.enabled
  have hchanged :=
    sansRundowns_rundown h.enabled hR hr (h.stored r hR) hown hold hgroup hfits ts env
    rfl hinv hsettled hwatched
  have hstored : ∀ r' ∈ R, (m₁.onEtwObjectAddress env r address).etwObjs.lookup r' = none := by
    intro r' hr'
    have halike := etwObjs_alike hchanged r'
    rw [h.stored r' hr'] at halike
    exact Option.map_eq_none_iff.mp halike
  refine ⟨(etwEnabled_step m₁ (.objectAddress env r address)).trans henabled, ?_, ?_, ?_, hstored,
    hchanged.trans h.same⟩
  · exact inv_step henabled hinv (.objectAddress env r address) (fun id hid => by cases hid)
      fun k hk => by cases hk
  · exact settled_step henabled hinv hsettled (.objectAddress env r address)
      (fun id hid => by cases hid) (fun k hk => by cases hk) trivial
  · exact watched_onEtwObjectAddress hinv hwatched env r address

/-- What is left of a run, when it has come to `m`. -/
structure Rest (R : List ℕ) (m : Model) (is : List Item) : Prop where
  created : (createdIds (reported is)).Nodup ∧ ∀ id ∈ createdIds (reported is),
    id ≠ 0 ∧ m.live.lookup id = none
  libIds : 0 ∉ libIds (reported is)
  /-- A call reports nothing under the id of a re-report. -/
  calls : ∀ x, .call x ∈ is → ∀ k, x.libId = some k → k ∉ R
  /-- The ids of the re-reports to come are unknown. -/
  rundowns : (rundownIds is).Nodup ∧ ∀ r ∈ rundownIds is, r ∈ R ∧ m.etwAlias.lookup r = none

/-- Nobody is brought to life under an id that is not created. -/
theorem live_after {m : Model} (xs : List Step) {id : ℕ} (hid : id ∉ createdIds xs)
    (h : m.live.lookup id = none) : (m.after xs).live.lookup id = none := by
  induction xs generalizing m with
  | nil => exact h
  | cons x xs ih =>
    have hx : x.createdId ≠ some id := fun hx => hid (by simp [createdIds, hx])
    have hxs : id ∉ createdIds xs := by
      intro hmem
      have hcons : createdIds (x :: xs) = createdIds [x] ++ createdIds xs :=
        createdIds_append [x] xs
      exact hid (hcons ▸ List.mem_append_right _ hmem)
    refine ih (m := m.step x) hxs ?_
    by_contra hsome
    rcases live_step m x (Option.isSome_iff_ne_none.mpr hsome) with hlive | hcreated
    · rw [h] at hlive
      cases hlive
    · exact hx hcreated

/-- What is left of a run after one item. -/
theorem Rest.tail {i : Item} {is : List Item} (h : m.Rest R (i :: is))
    (hunknown : ∀ r ∈ rundownIds is, (m.after i.steps).etwAlias.lookup r = none) :
    (m.after i.steps).Rest R is := by
  have hcreated := h.created
  have hlib := h.libIds
  rw [reported_cons, createdIds_append] at hcreated
  rw [reported_cons, libIds_append] at hlib
  obtain ⟨hnodup, hfresh⟩ := hcreated
  have hsub : ∀ r ∈ rundownIds is, r ∈ rundownIds (i :: is) := by
    intro r hr
    unfold rundownIds at hr ⊢
    obtain ⟨j, hj, hjr⟩ := List.mem_filterMap.mp hr
    exact List.mem_filterMap.mpr ⟨j, List.mem_cons_of_mem i hj, hjr⟩
  refine ⟨⟨(List.nodup_append.mp hnodup).2.1, fun id hid => ?_⟩,
    fun h0 => hlib (List.mem_append_right _ h0),
    fun x hx => h.calls x (List.mem_cons_of_mem i hx), ?_, fun r hr => ?_⟩
  · obtain ⟨h0, hnone⟩ := hfresh id (List.mem_append_right _ hid)
    refine ⟨h0, live_after i.steps (fun hmem => ?_) hnone⟩
    exact (List.nodup_append.mp hnodup).2.2 id hmem id hid rfl
  · have hids := h.rundowns.1
    unfold rundownIds at hids ⊢
    rw [List.filterMap_cons] at hids
    split at hids
    · exact hids
    · exact hids.of_cons
  · exact ⟨(h.rundowns.2 r (hsub r hr)).1, hunknown r hr⟩

/-- **Rundowns are transparent**, from any two states that are alike. -/
theorem Alike.after (is : List Item) (h : m.Alike R n) (hrest : m.Rest R is)
    (hfaithful : Along Faithful m is) (hfits : Along FitsTwice m is) :
    (m.after (reported is)).Alike R (n.after (plain R m is)) := by
  induction is generalizing m n with
  | nil => exact h
  | cons i is ih =>
    rw [reported_cons, after_append]
    cases i with
    | call x =>
      -- the ids of the call are new to both models
      have hid : ∀ id, x.createdId = some id → id ≠ 0 ∧ m.live.lookup id = none := by
        intro id hx
        refine hrest.created.2 id ?_
        rw [reported_cons, createdIds_append]
        exact List.mem_append_left _ (by simp [Item.steps, createdIds, hx])
      have hlib : ∀ k, x.libId = some k → k ≠ 0 ∧ k ∉ R := by
        intro k hx
        refine ⟨?_, hrest.calls x List.mem_cons_self k hx⟩
        rintro rfl
        refine hrest.libIds ?_
        rw [reported_cons, libIds_append]
        exact List.mem_append_left _ (by simp [Item.steps, libIds, hx])
      -- no later rundown id is known after the call
      have hunknown : ∀ r ∈ rundownIds is, (m.step x).etwAlias.lookup r = none := by
        intro r hr
        obtain ⟨hR, hnone⟩ := hrest.rundowns.2 r hr
        exact unknown_step h.enabled h.inv (fun hx => (hlib r hx).2 hR) hnone
      exact ih (h.call hid hlib hfaithful.1) (hrest.tail hunknown) hfaithful.2 hfits.2
    | rundown ts r type size group env address =>
      obtain ⟨hR, hnone⟩ := hrest.rundowns.2 r (by simp [rundownIds, Item.rundownId])
      have hr0 : r ≠ 0 := by
        rintro rfl
        refine hrest.libIds ?_
        rw [reported_cons, libIds_append]
        exact List.mem_append_left _ (by simp [Item.steps, libIds, Step.libId])
      have hnodup : (r :: rundownIds is).Nodup := hrest.rundowns.1
      have hunknown : ∀ r' ∈ rundownIds is, (m.after
          (Item.rundown ts r type size group env address).steps).etwAlias.lookup r' = none := by
        intro r' hr'
        have hne : r ≠ r' := by
          rintro rfl
          exact (List.nodup_cons.mp hnodup).1 hr'
        have hnone' := (hrest.rundowns.2 r' (List.mem_cons_of_mem r hr')).2
        -- the two calls of a rundown, one after the other
        obtain ⟨hinv, -, -⟩ :=
          h.invariants (x := .objectCreated ts r type size group) (fun id hid => by cases hid)
            (fun k hk => by cases hk; exact hr0) trivial
        refine unknown_step (x := .objectAddress env r address)
          ((etwEnabled_step m _).trans h.enabled) hinv (by simp [Step.libId]) ?_
        exact unknown_step h.enabled h.inv (by simpa [Step.libId] using hne) hnone'
      exact ih (h.rundown hR hr0 hnone hfaithful.1 hfits.1) (hrest.tail hunknown) hfaithful.2
        hfits.2

end Model

/-- The ids that calls report objects under. -/
def callLibIds (is : List Item) : List ℕ :=
  is.filterMap fun i => match i with
    | .call x => x.libId
    | .rundown .. => none

theorem count_libIds (is : List Item) (r : ℕ) :
    (libIds (reported is)).count r = (rundownIds is).count r + (callLibIds is).count r := by
  induction is with
  | nil => rfl
  | cons i is ih =>
    rw [reported_cons, libIds_append, List.count_append, ih]
    cases i with
    | call x =>
      have hrundowns : rundownIds (.call x :: is) = rundownIds is := rfl
      cases hx : x.libId with
      | none =>
        have hsteps : libIds (Item.call x).steps = [] := by simp [Item.steps, libIds, hx]
        have hcalls : callLibIds (.call x :: is) = callLibIds is := by simp [callLibIds, hx]
        rw [hsteps, hcalls, hrundowns, List.count_nil, Nat.zero_add]
      | some k =>
        have hsteps : libIds (Item.call x).steps = [k] := by simp [Item.steps, libIds, hx]
        have hcalls : callLibIds (.call x :: is) = k :: callLibIds is := by simp [callLibIds, hx]
        rw [hsteps, hcalls, hrundowns, List.count_cons, List.count_cons, List.count_nil]
        omega
    | rundown ts k type size group env address =>
      have hsteps : libIds (Item.rundown ts k type size group env address).steps = [k] := rfl
      have hids : rundownIds (.rundown ts k type size group env address :: is)
          = k :: rundownIds is := rfl
      have hcalls : callLibIds (.rundown ts k type size group env address :: is)
          = callLibIds is := rfl
      rw [hsteps, hids, hcalls, List.count_cons, List.count_cons, List.count_nil]
      omega

namespace Model

/-- **Rundowns are transparent.**  In every run in which an object is only created where no
other one lives, re-reports change nothing but the counts of new objects and of
duplicates, and the ids that lead to their originals, as long as the size of every
re-reported object fits a second time into the total of its type. -/
theorem rundowns_transparent (etw : EtwOptions) (is : List Item)
    (ht : TrackerIdsFresh (reported is)) (hl : 0 ∉ libIds (reported is))
    (hr : RundownIdsFresh is) (hfaithful : Along Faithful (start etw) is)
    (hfits : Along FitsTwice (start etw) is) :
    ((start etw).after (reported is)).sansRundowns (rundownIds is)
      = ((start etw).after (plain (rundownIds is) (start etw) is)).sansRundowns [] := by
  have hone : ∀ r ∈ rundownIds is, (rundownIds is).count r = 1 ∧ (callLibIds is).count r = 0 := by
    intro r hmem
    have hcount := hr r hmem
    have hpos := List.count_pos_iff.mpr hmem
    rw [count_libIds] at hcount
    omega
  have hstart : (start etw).Alike (rundownIds is) (start etw) := by
    refine ⟨rfl, ?_, ?_, fun a k _ hk => ?_, fun r _ => rfl, rfl⟩
    · rw [join_start]
      exact Join.inv_empty
    · rw [join_start]
      exact Join.settled_empty
    · cases hk
  have hrest : (start etw).Rest (rundownIds is) is := by
    refine ⟨⟨ht.1, fun id hid => ⟨fun h0 => ht.2 (h0 ▸ hid), rfl⟩⟩, hl, fun x hx k hk hmem => ?_,
      List.nodup_iff_count_le_one.mpr fun r => ?_, fun r hmem => ⟨hmem, rfl⟩⟩
    · have hcall : k ∈ callLibIds is := List.mem_filterMap.mpr ⟨.call x, hx, hk⟩
      exact absurd (hone k hmem).2 (List.count_pos_iff.mpr hcall).ne'
    · by_cases hmem : r ∈ rundownIds is
      · exact (hone r hmem).1.le
      · rw [List.count_eq_zero.mpr hmem]
        exact Nat.zero_le 1
  exact (hstart.after is hrest hfaithful hfits).same

/-- A descriptor heap that is bound, re-reported, and then resized under the new id. -/
def resizedRun : List Item :=
  [.call (.event 10 (.created (plainCreated 1 .descriptorHeap .none 4096 0 0))),
    .call (.objectCreated 0 7 .descriptorHeap 512 .local), .call (.objectAddress {} 7 4096),
    .rundown 5 8 .descriptorHeap 512 .local {} 4096, .call (.objectSize 6 8 1024)]

/-- The tracked object gets the size, with the re-report or without it. -/
theorem rundowns_transparent_resizedRun :
    let m := (start ⟨true, [], [], 5000⟩).after (reported resizedRun)
    let n := (start ⟨true, [], [], 5000⟩).after
      (plain (rundownIds resizedRun) (start ⟨true, [], [], 5000⟩) resizedRun)
    m.sansRundowns (rundownIds resizedRun) = n.sansRundowns [] ∧
      (m.live.lookup 1).map (·.driverSize) = some 1024 ∧
      (n.live.lookup 1).map (·.driverSize) = some 1024 ∧
      m.s.etw.rundownDuplicates = 1 ∧ n.s.etw.rundownDuplicates = 0 := by
  refine ⟨rundowns_transparent _ resizedRun (by decide) (by decide) (by decide) ?_ ?_, by decide,
    by decide, by decide, by decide⟩
  · refine ⟨fun _ id o ho => ?_, trivial, trivial, ?_, trivial, trivial⟩
    · cases ho
    · let old : EtwObj :=
        { type := .descriptorHeap, address := 4096, size := 512, group := .vram, boundId := 1 }
      exact ⟨7, old, by decide, by decide, rfl, rfl, rfl⟩
  · exact ⟨trivial, trivial, trivial, fun _ => by decide, trivial, trivial⟩

/-- A descriptor heap of half the address space, re-reported. -/
def hugeRun : List Item :=
  [.call (.objectCreated 0 7 .descriptorHeap (2 ^ 63) .local), .call (.objectAddress {} 7 4096),
    .rundown 5 8 .descriptorHeap (2 ^ 63) .local {} 4096]

/-- The re-report takes the total past `2 ^ 64`, and withdrawing it does not bring it back. -/
theorem rundowns_not_transparent :
    ¬∀ (etw : EtwOptions) (is : List Item), TrackerIdsFresh (reported is) →
      0 ∉ libIds (reported is) → RundownIdsFresh is → Along Faithful (start etw) is →
      ((start etw).after (reported is)).sansRundowns (rundownIds is)
        = ((start etw).after (plain (rundownIds is) (start etw) is)).sansRundowns [] := by
  intro h
  have hfaithful : Along Faithful (start ⟨true, [], [], 5000⟩) hugeRun := by
    refine ⟨trivial, trivial, ?_, trivial⟩
    let old : EtwObj :=
      { type := .descriptorHeap, address := 4096, size := 2 ^ 63, group := .vram,
        pendingSinceMs := 1 }
    exact ⟨7, old, by decide, by decide, rfl, rfl, rfl⟩
  have heq := h ⟨true, [], [], 5000⟩ hugeRun (by decide) (by decide) (by decide) hfaithful
  have hbytes := congrArg (fun m => m.s.etw.bytes .descriptorHeap) heq
  have hlost : ((start ⟨true, [], [], 5000⟩).after (reported hugeRun)).s.etw.bytes
      .descriptorHeap = 0 := by decide
  have hkept : ((start ⟨true, [], [], 5000⟩).after (plain (rundownIds hugeRun)
      (start ⟨true, [], [], 5000⟩) hugeRun)).s.etw.bytes .descriptorHeap = 2 ^ 63 := by decide
  exact absurd (hlost.symm.trans (hbytes.trans hkept)) (by decide)

end Model

end Dx12Track
