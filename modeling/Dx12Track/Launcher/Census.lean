import Dx12Track.Launcher.JoinInv

/-!
# The counts of the ETW objects

`live`, `sized` and `bytes` of the snapshot count the ETW objects by type.  They
are raised and lowered by hand wherever an object is stored, resized, merged or
dropped.  The census of a model is what these updates read and write: type and
size of every object, the three counts, and how many objects were ever reported.

* `Census`, `Model.census` — the projection.
* `Census.Exact` — the counts are the sums over the objects.
* `exact_insert`, `exact_erase` — what an update does to both.
* `census_tryBindEtw`, … — the rest of the model does not touch the census.
* `Model.indexes_and_aggregates` — **indexes and counts agree with the objects**.
-/

namespace Dx12Track

open Etw (ObjType Group ResidencyOp CounterKind GroupChange Stats)
open Finmap

/-- The ETW objects and what is counted of them. -/
structure Census where
  objs : Table ℕ (ObjType × ℕ)
  live : ObjType → ℕ
  sized : ObjType → ℕ
  bytes : ObjType → ℕ
  created : ℕ
  duplicates : ℕ

namespace Census

/-- An object of type `t` and size `n` is counted. -/
def count (c : Census) (t : ObjType) (n : ℕ) : Census :=
  let sized := isDriverType t && decide (n ≠ 0)
  { c with
    live := setAt c.live t (c.live t + 1)
    sized := if sized then setAt c.sized t (c.sized t + 1) else c.sized
    bytes := if sized then setAt c.bytes t (add64 (c.bytes t) n) else c.bytes }

/-- An object of type `t` and size `n` is withdrawn. -/
def withdraw (c : Census) (t : ObjType) (n : ℕ) : Census :=
  let sized := isDriverType t && decide (n ≠ 0)
  { c with
    live := setAt c.live t (c.live t - 1)
    sized := if sized then setAt c.sized t (c.sized t - 1) else c.sized
    bytes := if sized then setAt c.bytes t (c.bytes t - n) else c.bytes }

def setObjs (c : Census) (t : Table ℕ (ObjType × ℕ)) : Census := { c with objs := t }

/-- The total size of the objects of a type. -/
def total (c : Census) (t : ObjType) : ℕ := c.objs.sumBy Prod.fst Prod.snd t

/-- The counts are the sums over the objects; the bytes are if `B`, which says that no total
has gone past `2 ^ 64`. -/
structure Exact (B : Prop) (c : Census) : Prop where
  live : ∀ t, c.live t = c.objs.sumBy Prod.fst (fun _ => 1) t
  sized : ∀ t, isDriverType t = true →
    c.sized t = c.objs.sumBy Prod.fst (fun x => if x.2 ≠ 0 then 1 else 0) t
  bytes : B → ∀ t, isDriverType t = true → c.bytes t = c.total t

variable {B : Prop} {c : Census} {k n : ℕ} {t : ObjType}

/-- The cells of `count`, for a driver type. -/
theorem count_cells (ht : isDriverType t = true) :
    (c.count t n).sized = setAt c.sized t (c.sized t + if n ≠ 0 then 1 else 0) ∧
      (c.count t n).bytes = if n = 0 then c.bytes else setAt c.bytes t (add64 (c.bytes t) n) := by
  unfold count
  dsimp only
  by_cases hn : n = 0
  · rw [hn, ht]
    exact ⟨(setAt_eq_self rfl).symm, rfl⟩
  · simp [ht, hn]

/-- The cells of `withdraw`, for a driver type. -/
theorem withdraw_cells (ht : isDriverType t = true) :
    (c.withdraw t n).sized = setAt c.sized t (c.sized t - if n ≠ 0 then 1 else 0) ∧
      (c.withdraw t n).bytes = setAt c.bytes t (c.bytes t - n) := by
  unfold withdraw
  dsimp only
  by_cases hn : n = 0
  · rw [hn, ht]
    exact ⟨(setAt_eq_self rfl).symm, (setAt_eq_self rfl).symm⟩
  · simp [ht, hn]

/-- The cells of the other types stay. -/
theorem count_other {t' : ObjType} (ht : t' ≠ t) :
    (c.count t n).live t' = c.live t' ∧ (c.count t n).sized t' = c.sized t' ∧
      (c.count t n).bytes t' = c.bytes t' := by
  have hcell : ∀ (f : ObjType → ℕ) (v : ℕ), setAt f t v t' = f t' := fun f v => if_neg ht
  unfold count
  dsimp only
  refine ⟨hcell _ _, ?_, ?_⟩
  · split
    · exact hcell _ _
    · rfl
  · split
    · exact hcell _ _
    · rfl

/-- The other kinds keep their totals. -/
theorem withdraw_other {t' : ObjType} (ht : t' ≠ t) :
    (c.withdraw t n).live t' = c.live t' ∧ (c.withdraw t n).sized t' = c.sized t' ∧
      (c.withdraw t n).bytes t' = c.bytes t' := by
  have hcell : ∀ (f : ObjType → ℕ) (v : ℕ), setAt f t v t' = f t' := fun f v => if_neg ht
  unfold withdraw
  dsimp only
  refine ⟨hcell _ _, ?_, ?_⟩
  · split
    · exact hcell _ _
    · rfl
  · split
    · exact hcell _ _
    · rfl

/-- **A new object** is counted and stored. -/
theorem exact_insert (h : c.Exact B) (hnew : c.objs.lookup k = none)
    (hfit : B → isDriverType t = true → c.total t + n < 2 ^ 64) :
    ((c.count t n).setObjs (c.objs.insert k (t, n))).Exact B := by
  have hsum : ∀ (w : ObjType × ℕ → ℕ) (t' : ObjType), (c.objs.insert k (t, n)).sumBy Prod.fst w t'
      = (if t = t' then w (t, n) else 0) + c.objs.sumBy Prod.fst w t' :=
    fun w t' => sumBy_insert Prod.fst w hnew t'
  constructor
  · intro t'
    refine Eq.trans ?_ (hsum _ t').symm
    by_cases ht : t' = t
    · subst ht
      rw [if_pos rfl, ← h.live]
      exact (setAt_same _ _ _).trans (Nat.add_comm _ _)
    · rw [if_neg (Ne.symm ht), Nat.zero_add, ← h.live]
      exact (count_other (n := n) ht).1
  · intro t' hd
    refine Eq.trans ?_ (hsum _ t').symm
    by_cases ht : t' = t
    · subst ht
      rw [if_pos rfl, ← h.sized t' hd]
      refine (congrFun (count_cells hd).1 t').trans ?_
      rw [setAt_same]
      exact Nat.add_comm _ _
    · rw [if_neg (Ne.symm ht), Nat.zero_add, ← h.sized t' hd]
      exact (count_other ht).2.1
  · intro hB t' hd
    refine Eq.trans ?_ (hsum _ t').symm
    have hb := h.bytes hB t' hd
    unfold total at hb
    by_cases ht : t' = t
    · subst ht
      rw [if_pos rfl, ← hb]
      refine (congrFun (count_cells hd).2 t').trans ?_
      split
      · next hn => rw [hn, Nat.zero_add]
      · have hlt : c.bytes t' + n < 2 ^ 64 := h.bytes hB t' hd ▸ hfit hB hd
        rw [setAt_same, add64, Nat.mod_eq_of_lt hlt]
        exact Nat.add_comm _ _
    · rw [if_neg (Ne.symm ht), Nat.zero_add, ← hb]
      exact (count_other ht).2.2

/-- **An object** is withdrawn and erased. -/
theorem exact_erase (h : c.Exact B) (hk : c.objs.lookup k = some (t, n)) :
    ((c.withdraw t n).setObjs (c.objs.erase k)).Exact B := by
  have hsum : ∀ (w : ObjType × ℕ → ℕ) (t' : ObjType),
      (if t = t' then w (t, n) else 0) + (c.objs.erase k).sumBy Prod.fst w t'
        = c.objs.sumBy Prod.fst w t' := fun w t' => sumBy_erase_add Prod.fst w hk t'
  constructor
  · intro t'
    have hs := hsum (fun _ => 1) t'
    rw [← h.live] at hs
    by_cases ht : t' = t
    · subst ht
      rw [if_pos rfl] at hs
      have hlow : c.live t' - 1 = (c.objs.erase k).sumBy Prod.fst (fun _ => 1) t' := by omega
      exact (setAt_same _ _ _).trans hlow
    · rw [if_neg (Ne.symm ht), Nat.zero_add] at hs
      exact (withdraw_other (n := n) ht).1.trans hs.symm
  · intro t' hd
    have hs := hsum (fun x => if x.2 ≠ 0 then 1 else 0) t'
    rw [← h.sized t' hd] at hs
    by_cases ht : t' = t
    · subst ht
      rw [if_pos rfl] at hs
      refine (congrFun (withdraw_cells hd).1 t').trans ?_
      rw [setAt_same]
      exact Nat.sub_eq_of_eq_add (by rw [Nat.add_comm]; exact hs.symm)
    · rw [if_neg (Ne.symm ht), Nat.zero_add] at hs
      exact (withdraw_other ht).2.1.trans hs.symm
  · intro hB t' hd
    have hs := hsum Prod.snd t'
    have hb := h.bytes hB t' hd
    unfold total at hb
    rw [← hb] at hs
    by_cases ht : t' = t
    · subst ht
      rw [if_pos rfl] at hs
      refine (congrFun (withdraw_cells hd).2 t').trans ?_
      rw [setAt_same]
      exact Nat.sub_eq_of_eq_add (by rw [Nat.add_comm]; exact hs.symm)
    · rw [if_neg (Ne.symm ht), Nat.zero_add] at hs
      exact (withdraw_other ht).2.2.trans hs.symm

/-- **An object** gets another size. -/
theorem exact_resize (h : c.Exact B) (hk : c.objs.lookup k = some (t, n)) {n' : ℕ}
    (hfit : B → isDriverType t = true → c.total t + n' < 2 ^ 64 + n) :
    (((c.withdraw t n).count t n').setObjs (c.objs.modify k fun x => (x.1, n'))).Exact B := by
  have hobjs : c.objs.modify k (fun x => (x.1, n')) = (c.objs.erase k).insert k (t, n') := by
    refine ext_lookup fun k' => ?_
    rw [lookup_modify, lookup_insert_eq, lookup_erase_eq]
    split
    · next hkk => rw [hkk, hk]; rfl
    · rfl
  have hrest : (if t = t then n else 0) + (c.objs.erase k).sumBy Prod.fst Prod.snd t = c.total t :=
    sumBy_erase_add Prod.fst Prod.snd hk t
  rw [if_pos rfl] at hrest
  have hadd := exact_insert (t := t) (n := n') (exact_erase h hk) (lookup_erase k c.objs)
    fun hB hd => by
      have hfit := hfit hB hd
      show (c.objs.erase k).sumBy Prod.fst Prod.snd t + n' < 2 ^ 64
      omega
  rw [hobjs]
  exact hadd

/-- The objects are those that were reported, without the duplicates and the `d` destroyed
ones. -/
def Balanced (d : ℤ) (c : Census) : Prop :=
  (c.created : ℤ) - c.duplicates - d = c.objs.keys.card

end Census

namespace Model

/-- The part of a model that is counted. -/
def census (m : Model) : Census where
  objs := m.etwObjs.mapVal fun e => (e.type, e.size)
  live := m.s.etw.live
  sized := m.s.etw.sized
  bytes := m.s.etw.bytes
  created := m.s.etw.created
  duplicates := m.s.etw.rundownDuplicates

/-- Of an entry the kind and the size are counted. -/
theorem census_lookup (m : Model) (k : ℕ) :
    m.census.objs.lookup k = (m.etwObjs.lookup k).map fun e => (e.type, e.size) :=
  lookup_mapVal _ _ _

/-! ### What does not touch the census

Each lemma takes a model whose census is `c` to one whose census is `c` again. -/

section Frame

variable {c : Census} {m n : Model}

/-- Location work. -/
theorem census_of_sansLoc (h : n.census = c) {n' : Model} (hs : n'.sansLoc = n.sansLoc) :
    n'.census = c := (congrArg (fun v => v.rest.census) hs).trans h

/-- Lines and locations are not. -/
theorem census_sideLine (h : n.census = c) (l : SideLine) : (n.sideLine l).census = c :=
  census_of_sansLoc h (sansLoc_sideLine n l)
theorem census_recomputeLoc (h : n.census = c) (id ts : ℕ) (force : Bool) :
    (n.recomputeLoc id ts force).census = c :=
  census_of_sansLoc h (sansLoc_recomputeLoc n id ts force)
theorem census_recomputeChildren (h : n.census = c) (heapId ts : ℕ) :
    (n.recomputeChildren heapId ts).census = c :=
  census_of_sansLoc h (sansLoc_recomputeChildren n heapId ts)
/-- Neither are the live objects. -/
theorem census_updLive (h : n.census = c) (id : ℕ) (f : LiveObject → LiveObject) :
    (n.updLive id f).census = c := h

/-- A write to an ETW object that keeps its type and its size. -/
theorem census_updEtw (h : n.census = c) (key : ℕ) {f : EtwObj → EtwObj}
    (hf : ∀ e, (f e).type = e.type ∧ (f e).size = e.size) : (n.updEtw key f).census = c := by
  have htable : (n.etwObjs.modify key f).mapVal (fun e => (e.type, e.size))
      = n.etwObjs.mapVal fun e => (e.type, e.size) := by
    refine (mapVal_modify (h := fun x => x) (fun e => ?_) key n.etwObjs).trans ?_
    · rw [(hf e).1, (hf e).2]
    · exact modify_eq_self fun _ _ => rfl
  rw [← h]
  unfold updEtw setEtwObjs census
  rw [htable]

/-- A branch. -/
theorem census_ite {p : Prop} [Decidable p] {n' : Model} (h : n.census = c) (h' : n'.census = c) :
    (if p then n else n').census = c := by
  split
  · exact h
  · exact h'

/-- **A binding counts nothing**, and sizes nothing. -/
theorem census_bind (h : n.census = c) (key id ts : ℕ) : (n.bind key id ts).census = c := by
  unfold bind
  split
  · next e o _ _ =>
    have hother : (n.unbindOther key o).census = c := by
      unfold unbindOther
      exact census_ite (census_updEtw h o.etwKey fun _ => ⟨rfl, rfl⟩) h
    have hbound := census_updEtw hother key (f := fun e => (e.setBoundId o.id).setPending 0)
      fun _ => ⟨rfl, rfl⟩
    have hjoined : (((n.unbindOther key o).updEtw key
        fun e => (e.setBoundId o.id).setPending 0).updLive id (·.setEtwKey key)
          |>.updStats fun t => { t with binds := t.binds + 1 }).census = c := hbound
    have hplaced := census_recomputeLoc (census_updLive (census_sideLine hjoined
      (.etwBind ts o.id key e.type o.objectPtr false)) id (·.setOwnLoc e.group)) id ts
      (!o.locReported)
    have hkids :=
      census_ite (p := o.type = .heap) (census_recomputeChildren hplaced o.id ts) hplaced
    have hsized := census_updLive hkids id (·.setDriverSize e.size)
    exact census_ite (census_ite (census_sideLine hsized _) hsized) hkids
  · exact h

/-- Neither does an attempt to bind. -/
theorem census_tryBindEtw (h : n.census = c) (env : Env) (key ts : ℕ) :
    (n.tryBindEtw env key ts).census = c := by
  rcases n.tryBindEtw_cases env key ts with hsame | ⟨e, -, ⟨id, -, hbind⟩ | ⟨x, hlate⟩ | hwait⟩
  · rw [hsame]
    exact h
  · rw [hbind]
    exact census_bind h key id ts
  · have horphan := census_updEtw h key
      (f := fun e => (e.setOrphanTs (if x.destroyedNs ≠ 0 then x.destroyedNs else 1)).setPending 0)
      fun _ => ⟨rfl, rfl⟩
    have hcounted : ((n.updEtw key fun e => (e.setOrphanTs (if x.destroyedNs ≠ 0 then
        x.destroyedNs else 1)).setPending 0).updStats
          fun t => { t with lateMatches := t.lateMatches + 1 }).census = c := horphan
    rw [hlate]
    exact census_sideLine hcounted _
  · have hwaits := census_updEtw h key
      (f := (·.setPending (if env.nowMs ≠ 0 then env.nowMs else 1))) fun _ => ⟨rfl, rfl⟩
    rw [hwait]
    unfold waitForObject
    exact census_ite hwaits h

/-- Neither does a group. -/
theorem census_applyGroup (h : n.census = c) (key : ℕ) (g : MemLoc) (ts : ℕ) :
    (n.applyGroup key g ts).census = c := by
  have hupd := census_updEtw h key (f := (·.setGroup g)) fun _ => ⟨rfl, rfl⟩
  unfold applyGroup
  split
  · exact h
  · next e _ =>
    dsimp only
    split
    · exact hupd
    · split
      · exact hupd
      · next o _ =>
        have hmoved := census_recomputeLoc (census_updLive hupd e.boundId (·.setOwnLoc g))
          e.boundId ts false
        exact census_ite (census_recomputeChildren hmoved o.id ts) hmoved

/-! ### The pipe -/

/-- A created object may be bound at once. -/
theorem census_bindReported (h : n.census = c) (id ts : ℕ) : (n.bindReported id ts).census = c := by
  rcases n.bindReported_cases id ts with hsame | ⟨o, key, e, -, -, -, -, -, hbind⟩
  · rw [hsame]
    exact h
  · rw [hbind]
    exact census_bind h key id ts

/-- The ETW part of a creation. -/
theorem census_etwOnCreated (h : n.census = c) (id ts : ℕ) : (n.etwOnCreated id ts).census = c := by
  unfold etwOnCreated
  split
  · exact h
  · next o _ =>
    have hindexed : (n.indexOccupant id o).census = c := by
      unfold indexOccupant
      exact census_ite h h
    have hkids : ((n.indexOccupant id o).addChild o).census = c := by
      unfold addChild
      exact census_ite hindexed hindexed
    exact census_bindReported (census_of_sansLoc hkids (sansLoc_firstLoc _ id ts)) id ts

/-- The ETW part of a death: the partner is an orphan, and is still counted. -/
theorem census_etwOnDestroyed (h : n.census = c) (id ts : ℕ) :
    (n.etwOnDestroyed id ts).census = c := by
  unfold etwOnDestroyed
  split
  · exact h
  · next o _ =>
    have hloc : (n.addLoc o (-1)).census = c := census_of_sansLoc h (sansLoc_addLoc n o (-1))
    have hforgot : ((n.addLoc o (-1)).forgetOccupant o ts).census = c := by
      unfold forgetOccupant
      refine census_ite hloc ?_
      exact census_ite (p := (n.addLoc o (-1)).ptrToId.lookup o.objectPtr = some o.id) hloc hloc
    have horphan : (((n.addLoc o (-1)).forgetOccupant o ts).orphanBound id o ts).census = c := by
      unfold orphanBound
      refine census_ite hforgot (census_updLive ?_ id _)
      split
      · exact hforgot
      · exact census_ite (census_updEtw hforgot o.etwKey fun _ => ⟨rfl, rfl⟩) hforgot
    have hremoved : ((((n.addLoc o (-1)).forgetOccupant o ts).orphanBound id o ts).removeChild
        o).census = c := by
      unfold removeChild
      refine census_ite ?_ horphan
      split
      · exact horphan
      · exact census_ite horphan horphan
    have hfold : ∀ (kids : List ℕ) {r : Model}, r.census = c →
        (kids.foldl (fun m cid => m.dropToOwnLoc cid ts) r).census = c := by
      intro kids
      induction kids with
      | nil => exact fun h => h
      | cons k kids ih => exact fun h => ih (census_of_sansLoc h (sansLoc_dropToOwnLoc _ k ts))
    unfold dropChildren
    refine census_ite ?_ hremoved
    split
    · exact hremoved
    · exact hfold _ hremoved

/-- **No record from the pipe is seen.** -/
theorem census_onEvent (m : Model) (ts : ℕ) (r : Record) : (m.onEvent ts r).census = m.census := by
  have hlatest : (m.setLatestNs ts).census = m.census := rfl
  cases r with
  | hello p =>
    show ((m.setLatestNs ts).onHello ts p).census = _
    unfold onHello
    exact census_ite hlatest hlatest
  | created p =>
    show ((m.setLatestNs ts).onCreated ts p).census = _
    have hjoin : ∀ r : Model, r.census = m.census →
        (if r.etwEnabled then r.etwOnCreated (liveOfCreated ts p).id ts else r).census = m.census :=
      fun r hr => census_ite (census_etwOnCreated hr _ ts) hr
    exact hjoin _ rfl
  | renamed p => rfl
  | destroyed p =>
    show ((m.setLatestNs ts).onDestroyed ts p).census = _
    unfold onDestroyed
    split
    · rfl
    · have hjoin : (if (m.setLatestNs ts).etwEnabled then (m.setLatestNs ts).etwOnDestroyed p.id ts
          else m.setLatestNs ts).census = m.census :=
        census_ite (census_etwOnDestroyed hlatest p.id ts) hlatest
      exact hjoin
  | goodbye p => rfl
  | other => rfl

/-! ### The child, the counters and the main thread -/

/-- The state of the process. -/
theorem census_pollChildLocked (h : n.census = c) (env : Env) :
    (n.pollChildLocked env).census = c := by
  have hmark : ∀ now code, (n.markExiting now code).census = c := by
    intro now code
    have hexit : ({ n with childExiting := true, exitCutoffTs := n.childAliveTs } : Model).census
        = c := h
    exact census_sideLine hexit _
  unfold pollChildLocked
  dsimp only
  split
  · exact h
  · split
    · split
      · exact h
      · split
        · exact h
        · exact hmark _ _
    · exact hmark _ _

theorem census_afterChildExitLocked (h : n.census = c) (env : Env) (ts : ℕ) :
    (n.afterChildExitLocked env ts).2.census = c := by
  unfold afterChildExitLocked
  exact census_ite (census_pollChildLocked h env) h

/-- A group change, ignored or not. -/
theorem census_onEtwGroupChange (h : n.census = c) (d : GroupChange) (env : Env) :
    (n.onEtwGroupChange d env).census = c := by
  have hpolled := census_afterChildExitLocked h env (n.convTs d.ts)
  unfold onEtwGroupChange
  refine census_ite hpolled ?_
  unfold regroup
  dsimp only
  split
  · exact hpolled
  · next key e _ =>
    exact census_ite (census_applyGroup (n := updStats _ fun t =>
      { t with groupChanges := t.groupChanges + 1 }) hpolled key _ _) hpolled

/-- A batch, one by one. -/
theorem census_onEtwGroupChanges (m : Model) (changes : List (GroupChange × Env)) :
    (m.onEtwGroupChanges changes).census = m.census := by
  have hfold : ∀ {r : Model}, r.census = m.census →
      (changes.foldl (fun m c => m.onEtwGroupChange c.1 c.2) r).census = m.census := by
    induction changes with
    | nil => exact fun h => h
    | cons d ds ih => exact fun h => ih (census_onEtwGroupChange h d.1 d.2)
  unfold onEtwGroupChanges
  exact census_ite rfl (hfold rfl)

/-- Paging has counts of its own. -/
theorem census_onEtwResidency (m : Model) (env : Env) (ts : ℤ) (libId : ℕ) (type : ObjType)
    (op : ResidencyOp) : (m.onEtwResidency env ts libId type op).census = m.census := by
  have hpolled : (m.afterChildExitLocked env (m.convTs ts)).2.census = m.census :=
    census_afterChildExitLocked rfl env _
  have hline : ∀ {r : Model} (t : ℕ), r.census = m.census →
      (r.residencyLine t libId type op).census = m.census := by
    intro r t hr
    unfold residencyLine
    split
    · exact census_sideLine hr _
    · exact census_sideLine hr _
  unfold onEtwResidency
  refine census_ite rfl (census_ite hpolled ?_)
  unfold countResidency
  split
  · exact hpolled
  · exact hpolled
  · exact hline _ hpolled
  · exact hline _ hpolled

theorem census_onEtwCounter (m : Model) (env : Env) (ts : ℤ) (counterId : ℕ) (kind : CounterKind)
    (bytes : ℕ) : (m.onEtwCounter env ts counterId kind bytes).census = m.census := by
  have hpolled : (m.afterChildExitLocked env (m.convTs ts)).2.census = m.census :=
    census_afterChildExitLocked rfl env _
  unfold onEtwCounter
  exact census_ite rfl (census_ite rfl (census_ite hpolled hpolled))

/-- What expires is a wait. -/
theorem census_expirePending (nowMs : ℕ) (q : List ℕ) (h : n.census = c) :
    (n.expirePending nowMs q).census = c := by
  induction q generalizing n with
  | nil => exact h
  | cons k q ih =>
    unfold expirePending
    split
    · exact ih h
    · split
      · exact ih h
      · split
        · exact h
        · have hexpired := census_updEtw h k (f := fun e => (e.setPending 0).setExpired)
            fun _ => ⟨rfl, rfl⟩
          exact ih (n := updStats _ fun t => { t with pendingExpired := t.pendingExpired + 1 })
            hexpired

/-- What is forgotten is a dead record. -/
theorem census_forgetDead (nowTs : ℕ) (q : List (ℕ × ℕ)) (h : n.census = c) :
    (n.forgetDead nowTs q).census = c := by
  induction q generalizing n with
  | nil => exact h
  | cons d q ih =>
    obtain ⟨ts, ptr⟩ := d
    unfold forgetDead
    split
    · dsimp only
      split
      · exact ih h
      · exact ih (n := setDeadByPtr n _) h
    · exact h

/-- **A tick is not seen.** -/
theorem census_etwTick (m : Model) (env : Env) (st : Stats) :
    (m.etwTick env st).census = m.census := by
  have hexpired : ((m.updStats fun t => { t with session := st }).expirePending env.nowMs
      m.pendingQ).census = m.census := census_expirePending env.nowMs m.pendingQ rfl
  have htimers : ∀ nowTs (r : Model), r.census = m.census →
      (r.forgetDead nowTs r.destroyHist).census = m.census :=
    fun nowTs r h => census_forgetDead nowTs r.destroyHist h
  have hlast : ∀ r : Model, r.census = m.census →
      ({ r with lastSecondMs := env.nowMs } : Model).refreshJoinStats.census = m.census :=
    fun _ h => h
  unfold etwTick
  refine census_ite rfl (census_ite (htimers _ _ hexpired) ?_)
  exact census_ite (census_sideLine (hlast _ (htimers _ _ hexpired)) _)
    (hlast _ (htimers _ _ hexpired))

theorem census_finishEtw (m : Model) (env : Env) (st : Stats) :
    (m.finishEtw env st).census = m.census := by
  have hrefresh : ((m.updStats fun t =>
      { t with session := st, running := false }).refreshJoinStats).census = m.census := rfl
  have hclose : ∀ r : Model, r.closeSide.census = r.census := fun _ => rfl
  unfold finishEtw
  refine census_ite rfl (census_ite ?_ hrefresh)
  rw [hclose]
  exact census_sideLine hrefresh _

end Frame

/-! ### What changes the census -/

variable {m : Model}

/-- `DriverAgg` with a plus counts one object, -/
theorem census_driverAgg_pos (m : Model) (e : EtwObj) :
    (m.driverAgg e 1).census = m.census.count e.type e.size := by
  rw [driverAgg_pos]
  rfl

/-- and with a minus it takes one back. -/
theorem census_driverAgg_neg (m : Model) (e : EtwObj) :
    (m.driverAgg e (-1)).census = m.census.withdraw e.type e.size := by
  rw [driverAgg_neg]
  rfl

/-- An entry that goes. -/
theorem census_eraseEtw (m : Model) (key : ℕ) :
    (m.setEtwObjs (m.etwObjs.erase key)).census
      = m.census.setObjs (m.census.objs.erase key) := by
  have htable := mapVal_erase (fun e : EtwObj => (e.type, e.size)) key m.etwObjs
  unfold setEtwObjs census Census.setObjs
  rw [htable]

/-- An entry that comes. -/
theorem census_insertEtw (m : Model) (key : ℕ) (e : EtwObj) :
    (m.setEtwObjs (m.etwObjs.insert key e)).census
      = m.census.setObjs (m.census.objs.insert key (e.type, e.size)) := by
  have htable := mapVal_insert (fun e : EtwObj => (e.type, e.size)) key e m.etwObjs
  unfold setEtwObjs census Census.setObjs
  rw [htable]

/-- An entry with a new size. -/
theorem census_setSize (m : Model) (key size : ℕ) :
    (m.updEtw key (·.setSize size)).census
      = m.census.setObjs (m.census.objs.modify key fun x => (x.1, size)) := by
  have htable := mapVal_modify (f := fun e : EtwObj => (e.type, e.size)) (g := (·.setSize size))
    (h := fun x => (x.1, size)) (fun _ => rfl) key m.etwObjs
  unfold updEtw setEtwObjs census Census.setObjs
  rw [htable]

/-- The total size of the ETW objects of a type. -/
def totalSize (m : Model) (t : ObjType) : ℕ := m.etwObjs.sumBy EtwObj.type EtwObj.size t

/-- The sum of the sizes of a kind. -/
theorem total_census (m : Model) (t : ObjType) : m.census.total t = m.totalSize t :=
  sum_mapVal (fun x : ObjType × ℕ => if x.1 = t then x.2 else 0)
    (fun e : EtwObj => (e.type, e.size))
    m.etwObjs

/-- The number of entries. -/
theorem card_census (m : Model) : m.census.objs.keys.card = m.etwObjs.keys.card := by
  rw [card_keys_eq_sum, card_keys_eq_sum]
  exact sum_mapVal (fun _ => (1 : ℕ)) (fun e : EtwObj => (e.type, e.size)) m.etwObjs

/-- A resize withdraws the object and counts it again, or does nothing. -/
theorem census_applySize (m : Model) (key size ts : ℕ) :
    ((∀ e, m.etwObjs.lookup key = some e → size = 0 ∨ size = e.size) ∧
      (m.applySize key size ts).census = m.census) ∨
      ∃ e, m.etwObjs.lookup key = some e ∧ size ≠ 0 ∧ (m.applySize key size ts).census =
        ((m.census.withdraw e.type e.size).count e.type size).setObjs
          (m.census.objs.modify key fun x => (x.1, size)) := by
  unfold applySize
  split
  · next hnone => exact .inl ⟨fun e he => (by rw [hnone] at he; cases he), rfl⟩
  · next e he =>
    split
    · next hs => exact .inl ⟨fun e' he' => (by rw [he] at he'; cases he'; exact hs), rfl⟩
    · next hs =>
      push Not at hs
      have hresized : (((m.driverAgg e (-1)).updEtw key (·.setSize size)).driverAgg
          (e.setSize size) 1).census
            = ((m.census.withdraw e.type e.size).count e.type size).setObjs
                (m.census.objs.modify key fun x => (x.1, size)) := by
        rw [census_driverAgg_pos, census_setSize, census_driverAgg_neg]
        rfl
      refine .inr ⟨e, he, hs.1, ?_⟩
      dsimp only
      split
      · exact hresized
      · split
        · exact hresized
        · exact census_ite hresized (census_sideLine (census_updLive hresized _ _) _)

/-- The total after a resize. -/
theorem totalSize_applySize {key size : ℕ} {e : EtwObj} (he : m.etwObjs.lookup key = some e)
    (hs : size ≠ 0) (ts : ℕ) :
    (m.applySize key size ts).totalSize e.type + e.size = m.totalSize e.type + size := by
  rw [← total_census, ← total_census]
  rcases m.census_applySize key size ts with ⟨hsame, hc⟩ | ⟨e', he', -, hc⟩
  · rcases hsame e he with h0 | heq
    · exact absurd h0 hs
    · rw [hc, heq]
  · rw [he] at he'
    cases he'
    have hk : m.census.objs.lookup key = some (e.type, e.size) := by
      rw [census_lookup, he]
      rfl
    have hsum := sumBy_modify_add Prod.fst Prod.snd (fun x => (x.1, size)) hk e.type
    rw [if_pos rfl, if_pos rfl] at hsum
    rw [hc]
    show (m.census.objs.modify key fun x => (x.1, size)).sumBy Prod.fst Prod.snd e.type + e.size
      = m.census.objs.sumBy Prod.fst Prod.snd e.type + size
    omega

/-- The total after a new object. -/
theorem totalSize_objectCreated (hetw : m.etwEnabled = true) {libId : ℕ}
    (halias : m.etwAlias.lookup libId = none) (hnone : m.etwObjs.lookup libId = none) (ts : ℤ)
    (type : ObjType) (size : ℕ) (group : Group) :
    (m.onEtwObjectCreated ts libId type size group).totalSize type = m.totalSize type + size := by
  rw [onEtwObjectCreated_of_unknown hetw halias hnone]
  refine (sumBy_insert EtwObj.type EtwObj.size hnone type).trans ?_
  exact (congrArg (· + m.totalSize type) (if_pos rfl)).trans (Nat.add_comm _ _)

/-! ### One call -/

/-- The counts are right, after `d` objects were destroyed. -/
structure Tallied (B : Prop) (m : Model) (d : ℤ) : Prop where
  exact : m.census.Exact B
  balanced : m.census.Balanced d

variable {B : Prop} {d : ℤ}

/-- The tally looks at the census only. -/
theorem Tallied.of_census (h : m.Tallied B d) {m' : Model} (hc : m'.census = m.census) :
    m'.Tallied B d := ⟨hc ▸ h.exact, hc ▸ h.balanced⟩

theorem Tallied.lookup {key : ℕ} {e : EtwObj} (he : m.etwObjs.lookup key = some e) :
    m.census.objs.lookup key = some (e.type, e.size) := by
  rw [census_lookup, he]
  rfl

/-- **A new size is withdrawn and counted again**, and between the two there is
room. -/
theorem Tallied.applySize (h : m.Tallied B d) {key size : ℕ}
    (hfit : B → ∀ e, m.etwObjs.lookup key = some e → size ≠ 0 → isDriverType e.type = true →
      m.totalSize e.type + size < 2 ^ 64 + e.size) (ts : ℕ) :
    (m.applySize key size ts).Tallied B d := by
  rcases m.census_applySize key size ts with ⟨-, hc⟩ | ⟨e, he, hs, hc⟩
  · exact h.of_census hc
  · constructor
    · rw [hc]
      refine Census.exact_resize h.exact (Tallied.lookup he) fun hB hd => ?_
      rw [total_census]
      exact hfit hB e he hs hd
    · rw [hc]
      show (m.census.created : ℤ) - m.census.duplicates - d
        = (m.census.objs.modify key fun x => (x.1, size)).keys.card
      rw [keys_modify]
      exact h.balanced

/-- **A new object** is counted. -/
theorem Tallied.objectCreated (hetw : m.etwEnabled = true) (h : m.Tallied B d)
    (hinv : m.join.Inv) {libId size : ℕ}
    {type : ObjType} {group : Group} {ts : ℤ}
    (hfit : B → isDriverType type = true →
      (m.onEtwObjectCreated ts libId type size group).totalSize type < 2 ^ 64) :
    (m.onEtwObjectCreated ts libId type size group).Tallied B d := by
  cases halias : m.etwAlias.lookup libId with
  | some key =>
    unfold onEtwObjectCreated
    rw [halias, hetw]
    exact h
  | none =>
    have hnone : m.etwObjs.lookup libId = none := by
      by_contra hsome
      obtain ⟨e, he⟩ := Option.ne_none_iff_exists'.mp hsome
      have hj : m.join.etw libId = some e.noWait := by rw [join_etw, he]; rfl
      have hcanon : m.etwAlias.lookup libId = some libId := (hinv.index.etw_key hj).2
      rw [halias] at hcanon
      cases hcanon
    have hnew : m.census.objs.lookup libId = none := by
      rw [census_lookup, hnone]
      rfl
    rw [totalSize_objectCreated hetw halias hnone] at hfit
    rw [onEtwObjectCreated_of_unknown hetw halias hnone]
    dsimp only
    let e : EtwObj :=
      { type := type, size := size, group := fromGroup group, createdTs := m.convTs ts }
    have hstored : ((m.driverAgg e 1).setEtwObjs (m.etwObjs.insert libId e)).census
        = (m.census.count type size).setObjs (m.census.objs.insert libId (type, size)) := by
      rw [driverAgg_pos]
      exact census_insertEtw _ libId e
    constructor
    · have hexact := Census.exact_insert h.exact hnew (t := type) (n := size) fun hB hd => by
        rw [total_census]
        exact hfit hB hd
      rw [← hstored] at hexact
      exact ⟨hexact.live, hexact.sized, hexact.bytes⟩
    · have hcard : (m.census.objs.insert libId (type, size)).keys.card
          = m.census.objs.keys.card + 1 := card_keys_insert hnew _
      have hb : (m.census.created : ℤ) - m.census.duplicates - d = m.census.objs.keys.card :=
        h.balanced
      have hcreated := congrArg Census.created hstored
      have hdup := congrArg Census.duplicates hstored
      have hobjs := congrArg (fun c => c.objs.keys.card) hstored
      dsimp only [Census.setObjs, Census.count] at hcreated hdup hobjs
      show ((((m.driverAgg e 1).setEtwObjs (m.etwObjs.insert libId e)).census.created + 1 : ℕ) : ℤ)
        - ((m.driverAgg e 1).setEtwObjs (m.etwObjs.insert libId e)).census.duplicates - d
          = ((m.driverAgg e 1).setEtwObjs (m.etwObjs.insert libId e)).census.objs.keys.card
      rw [hcreated, hdup, hobjs, hcard]
      omega

/-- **An object disappears**: it is withdrawn and erased. -/
theorem Tallied.drop (h : m.Tallied B d) {key : ℕ} {e : EtwObj}
    (he : m.census.objs.lookup key = some (e.type, e.size)) :
    ((m.driverAgg e (-1)).setEtwObjs ((m.driverAgg e (-1)).etwObjs.erase key)).Tallied
      B (d + 1) := by
  have hcensus : ((m.driverAgg e (-1)).setEtwObjs ((m.driverAgg e (-1)).etwObjs.erase key)).census
      = (m.census.withdraw e.type e.size).setObjs (m.census.objs.erase key) := by
    rw [census_eraseEtw, census_driverAgg_neg]
    rfl
  constructor
  · rw [hcensus]
    exact Census.exact_erase h.exact he
  · have hb : (m.census.created : ℤ) - m.census.duplicates - d = m.census.objs.keys.card :=
      h.balanced
    have hcard := card_keys_erase he
    rw [hcensus]
    show (m.census.created : ℤ) - m.census.duplicates - (d + 1)
      = (m.census.objs.erase key).keys.card
    omega

/-- **A re-report is merged**: one object less, and one duplicate more. -/
theorem Tallied.foldRundown (h : m.Tallied B d) {key into : ℕ} {e old : EtwObj}
    (he : m.etwObjs.lookup key = some e) (hold : m.etwObjs.lookup into = some old)
    (hne : into ≠ key) (htype : old.type = e.type)
    (hfit : B → e.size ≠ 0 → isDriverType e.type = true →
      m.totalSize e.type + e.size < 2 ^ 64 + old.size) (env : Env) :
    (m.foldRundown env key e into old).Tallied B d := by
  -- one duplicate more, so one completed destroy less, until the record is dropped
  have hcounted : (m.updStats fun t =>
      { t with rundownDuplicates := t.rundownDuplicates + 1 }).Tallied B (d - 1) := by
    have hb : (m.census.created : ℤ) - m.census.duplicates - d = m.census.objs.keys.card :=
      h.balanced
    refine ⟨⟨h.exact.live, h.exact.sized, h.exact.bytes⟩, ?_⟩
    show (m.census.created : ℤ) - ((m.census.duplicates + 1 : ℕ) : ℤ) - (d - 1)
      = m.census.objs.keys.card
    omega
  have hlookup : (m.updStats fun t => { t with rundownDuplicates := t.rundownDuplicates +
      1 }).census.objs.lookup key = some (e.type, e.size) := Tallied.lookup he
  -- the size goes over to the other record, and the record itself is still there
  have hsized : ∀ r : Model, r.etwObjs = m.etwObjs → r.Tallied B (d - 1) →
      r.census.objs.lookup key = some (e.type, e.size) →
      (if e.size ≠ 0 then r.applySize into e.size e.createdTs else r).Tallied B (d - 1) ∧
        (if e.size ≠ 0 then r.applySize into e.size e.createdTs else r).census.objs.lookup key
          = some (e.type, e.size) := by
    intro r hobjs hr hkey
    split
    · refine ⟨hr.applySize (fun hB e' he' hs hd => ?_) _, ?_⟩
      · rw [hobjs, hold] at he'
        cases he'
        have htotal : r.totalSize old.type = m.totalSize old.type := by
          unfold totalSize
          rw [hobjs]
        rw [htotal, htype]
        exact hfit hB hs (htype ▸ hd)
      · rcases r.census_applySize into e.size e.createdTs with ⟨-, hc⟩ | ⟨_, _, _, hc⟩
        · rw [hc]
          exact hkey
        · rw [hc]
          exact (lookup_modify_of_ne hne.symm _ _).trans hkey
    · exact ⟨hr, hkey⟩
  let m₁ := m.updStats fun t => { t with rundownDuplicates := t.rundownDuplicates + 1 }
  let m₂ := if e.size ≠ 0 then m₁.applySize into e.size e.createdTs else m₁
  let m₃ := if e.group ≠ .unknown ∧ e.group ≠ old.group then
    m₂.applyGroup into e.group e.createdTs else m₂
  let m₄ := (m₃.driverAgg e (-1)).setEtwObjs ((m₃.driverAgg e (-1)).etwObjs.erase key)
  let m₅ := m₄.updEtw into (·.addAlias key)
  obtain ⟨hresized, hkey⟩ := hsized m₁ rfl hcounted hlookup
  have hgroup : m₃.census = m₂.census :=
    census_ite (census_applyGroup rfl into e.group e.createdTs) rfl
  have hdropped : m₄.Tallied B (d - 1 + 1) := (hresized.of_census hgroup).drop (hgroup ▸ hkey)
  rw [Int.sub_add_cancel] at hdropped
  have halias : m₅.census = m₄.census := census_updEtw rfl into fun _ => ⟨rfl, rfl⟩
  -- the alias and the binding are no part of the census
  have hend : (m₅.setEtwAlias (m₅.etwAlias.insert key into)).census = m₄.census := halias
  exact hdropped.of_census (census_tryBindEtw hend env into e.createdTs)

/-- An address is not counted. -/
theorem census_takeAddress (m : Model) (env : Env) (key : ℕ) (e : EtwObj) (address : ℕ) :
    (m.takeAddress env key e address).census = m.census := by
  have hupd := census_updEtw (n := m) rfl key (f := (·.setAddress address)) fun _ => ⟨rfl, rfl⟩
  have hindexed : ((m.updEtw key (·.setAddress address)).setEtwByAddr
      ((m.updEtw key (·.setAddress address)).etwByAddr.insert address key)).census
        = m.census := hupd
  exact census_tryBindEtw (census_sideLine hindexed _) env key e.createdTs

/-- If the object gets an address that another object of its type has, the total fits with its
size in the place of the other's. -/
def FoldFits (m : Model) : Step → Prop
  | .objectAddress _ libId address =>
    ∀ ke ∈ m.findEtw libId, ∀ into ∈ m.etwByAddr.lookup address, ∀ old ∈ m.etwObjs.lookup into,
      into ≠ ke.1 → old.type = ke.2.type → isDriverType ke.2.type = true →
      m.totalSize ke.2.type + ke.2.size < 2 ^ 64 + old.size
  | _ => True

/-- **An address keeps the tally**: a fold takes one object back. -/
theorem Tallied.objectAddress (h : m.Tallied B d) {env : Env} {libId address : ℕ}
    (hfits : B → m.FoldFits (.objectAddress env libId address)) :
    (m.onEtwObjectAddress env libId address).Tallied B d := by
  rcases m.onEtwObjectAddress_cases env libId address with
    hsame | ⟨key, e, hfind, -, -, htake | hfold⟩
  · rw [hsame]
    exact h
  · rw [htake]
    exact h.of_census (census_takeAddress m env key e address)
  · obtain ⟨into, old, hinto, hne, hold, htype, hfold⟩ := hfold
    rw [hfold]
    exact h.foldRundown (findEtw_some hfind).2 hold hne htype
      (fun hB _ => hfits hB (key, e) hfind into hinto old hold hne htype) env

/-- Whether a call destroys an ETW object: one that is known. -/
def destroysEtw (m : Model) : Step → Bool
  | .objectDestroyed _ libId => (m.findEtw libId).isSome
  | _ => false

/-- **So does a destruction**: one object and one entry less. -/
theorem Tallied.objectDestroyed (hetw : m.etwEnabled = true) (h : m.Tallied B d) (ts : ℤ)
    (libId : ℕ) : (m.onEtwObjectDestroyed ts libId).Tallied B
      (d + if (m.findEtw libId).isSome then 1 else 0) := by
  have hoff : ¬(!m.etwEnabled) = true := by simp [hetw]
  unfold onEtwObjectDestroyed
  rw [if_neg hoff]
  cases hfind : m.findEtw libId with
  | none =>
    show m.Tallied B (d + 0)
    rw [Int.add_zero]
    exact h
  | some ke =>
    obtain ⟨key, e⟩ := ke
    obtain ⟨-, he⟩ := findEtw_some hfind
    let m₁ := if e.address ≠ 0 then m.sideLine (.etwObjectDestroyed (m.convTs ts) key) else m
    have hline : m₁.census = m.census := census_ite (census_sideLine rfl _) rfl
    have hunkey : (m₁.unkey key e).census = m.census := by
      rcases m₁.unkey_cases key e with hsame | hcut
      · rw [hsame]
        exact hline
      · rw [hcut]
        exact census_updLive hline _ _
    let m₂ := (m₁.unkey key e).setEtwAlias
      ((e.aliases.foldl (fun t a => Finmap.erase a t) (m₁.unkey key e).etwAlias).erase key)
    let m₃ := if e.address ≠ 0 ∧ m₂.etwByAddr.lookup e.address = some key then
      m₂.setEtwByAddr (m₂.etwByAddr.erase e.address) else m₂
    have hindex : m₃.census = m.census := census_ite hunkey hunkey
    have hkey : m₃.census.objs.lookup key = some (e.type, e.size) := by
      rw [hindex]
      exact Tallied.lookup he
    exact (h.of_census hindex).drop hkey

/-- **One call** keeps the counts right, if the totals fit after it. -/
theorem tallied_step (hetw : m.etwEnabled = true) (hinv : m.join.Inv) (h : m.Tallied B d) {x : Step}
    (hfold : B → m.FoldFits x)
    (hfit : B → ∀ t, isDriverType t = true → (m.step x).totalSize t < 2 ^ 64) :
    (m.step x).Tallied B (d + if m.destroysEtw x then 1 else 0) := by
  -- only the destruction of an ETW object adds to the completed ones
  have hkeep : ∀ y : Step, m.destroysEtw y = false → (m.step y).Tallied B d →
      (m.step y).Tallied B (d + if m.destroysEtw y then 1 else 0) := by
    intro y hy hc
    rw [hy]
    simpa using hc
  cases x with
  | event ts r => exact hkeep _ rfl (h.of_census (census_onEvent m ts r))
  | objectCreated ts libId type size group =>
    exact hkeep _ rfl (h.objectCreated hetw hinv fun hB => hfit hB type)
  | objectAddress env libId address => exact hkeep _ rfl (h.objectAddress hfold)
  | objectDestroyed ts libId => exact h.objectDestroyed hetw ts libId
  | objectSize ts libId size =>
    refine hkeep _ rfl ?_
    have hoff : ¬(!m.etwEnabled) = true := by simp [hetw]
    show (m.onEtwObjectSize ts libId size).Tallied B d
    have hfit : B → ∀ t, isDriverType t = true →
        (m.onEtwObjectSize ts libId size).totalSize t < 2 ^ 64 := hfit
    unfold onEtwObjectSize at hfit ⊢
    rw [if_neg hoff] at hfit ⊢
    cases hfind : m.findEtw libId with
    | none => exact h
    | some ke =>
      rw [hfind] at hfit
      refine h.applySize (fun hB e he hs hd => ?_) _
      -- no wraparound: the new total is one that the run promises to fit
      have htotal := totalSize_applySize he hs (m.convTs ts)
      have hafter := hfit hB e.type hd
      dsimp only at hafter
      omega
  | groupChanges changes => exact hkeep _ rfl (h.of_census (census_onEtwGroupChanges m changes))
  | residency env ts libId type op =>
    exact hkeep _ rfl (h.of_census (census_onEtwResidency m env ts libId type op))
  | counter env ts counterId kind bytes =>
    exact hkeep _ rfl (h.of_census (census_onEtwCounter m env ts counterId kind bytes))
  | diagnostic env error code msg =>
    have hdiag : (m.onEtwDiagnostic env error code msg).census = m.census := by
      unfold onEtwDiagnostic
      exact census_ite rfl (census_sideLine (n := m.updStats _) rfl _)
    exact hkeep _ rfl (h.of_census hdiag)
  | tick env st => exact hkeep _ rfl (h.of_census (census_etwTick m env st))
  | pollChild env => exact hkeep _ rfl (h.of_census (census_pollChildLocked rfl env))
  | setChildProcess => exact hkeep _ rfl (h.of_census rfl)
  | setChildExitQpc exitQpc =>
    have hset : (m.setChildExitQpc exitQpc).census = m.census := by
      unfold setChildExitQpc
      exact census_ite rfl rfl
    exact hkeep _ rfl (h.of_census hset)
  | markChildExited exitCode => exact hkeep _ rfl (h.of_census rfl)
  | setEtwRunning running => exact hkeep _ rfl (h.of_census rfl)
  | finish env st => exact hkeep _ rfl (h.of_census (census_finishEtw m env st))

/-- The destructions of a run that removed an object. -/
def completedDestroys : Model → List Step → ℕ
  | _, [] => 0
  | m, x :: xs => (if m.destroysEtw x then 1 else 0) + completedDestroys (m.step x) xs

/-- One more call completes one destruction or none. -/
theorem completedDestroys_concat (m : Model) (xs : List Step) (x : Step) :
    completedDestroys m (xs ++ [x])
      = completedDestroys m xs + if (m.after xs).destroysEtw x then 1 else 0 := by
  induction xs generalizing m with
  | nil => exact Nat.add_comm _ _
  | cons y ys ih =>
    show _ + completedDestroys (m.step y) (ys ++ [x]) = _
    rw [ih, ← Nat.add_assoc]
    rfl

/-- In every state of the run the objects of each driver type have a total size below `2 ^ 64`. -/
def TotalsFit (etw : EtwOptions) (xs : List Step) : Prop :=
  ∀ us, us <+: xs → ∀ t, isDriverType t = true → ((start etw).after us).totalSize t < 2 ^ 64

/-- So do they while a re-report is merged. -/
def FoldsFit (etw : EtwOptions) (xs : List Step) : Prop :=
  ∀ us x, us ++ [x] <+: xs → ((start etw).after us).FoldFits x

/-- **The counts are right after every run.** -/
theorem tallied_after (etw : EtwOptions) (xs : List Step) (ht : TrackerIdsFresh xs)
    (hl : LibIdsFresh xs) :
    ((start etw).after xs).Tallied (TotalsFit etw xs ∧ FoldsFit etw xs)
      (completedDestroys (start etw) xs) := by
  -- the bounds of the whole run bound every prefix of it
  have hprefix : ∀ us, us <+: xs → TrackerIdsFresh us → LibIdsFresh us →
      ((start etw).after us).Tallied (TotalsFit etw xs ∧ FoldsFit etw xs)
        (completedDestroys (start etw) us) := by
    intro us
    induction us using List.reverseRecOn with
    | nil =>
      intro _ _ _
      exact ⟨⟨fun _ => rfl, fun _ _ => rfl, fun _ _ _ => rfl⟩, rfl⟩
    | append_singleton us x ih =>
      intro hus ht hl
      have hprev := ih ((List.prefix_append us [x]).trans hus) ht.of_append hl.of_append
      have hinv := inv_after etw us ht.of_append hl.of_append
      have hafter : (start etw).after (us ++ [x]) = ((start etw).after us).step x :=
        after_concat (start etw) us x
      have hstep := tallied_step (etwEnabled_start etw us) hinv hprev (fun hB => hB.2 us x hus)
        fun hB t hd => hafter ▸ hB.1 (us ++ [x]) hus t hd
      have hcast : ((if ((start etw).after us).destroysEtw x then 1 else 0 : ℕ) : ℤ)
          = if ((start etw).after us).destroysEtw x then 1 else 0 := by split <;> rfl
      rw [completedDestroys_concat, hafter, Int.natCast_add, hcast]
      exact hstep
  exact hprefix xs List.prefix_rfl ht hl

/-- **Indexes and counts agree with the objects.**  In every state of a run the library ids
resolve to the objects, under their own id and their aliases, both address tables name
objects at their address, and the snapshot counts the objects by type.  The bytes are the
total sizes as long as these stay below `2 ^ 64`, also while a re-report is merged. -/
theorem indexes_and_aggregates (etw : EtwOptions) (xs : List Step) (ht : TrackerIdsFresh xs)
    (hl : LibIdsFresh xs) :
    let m := (start etw).after xs
    (∀ x k, m.etwAlias.lookup x = some k → ∃ e, m.etwObjs.lookup k = some e) ∧
    (∀ k e, m.etwObjs.lookup k = some e → m.etwAlias.lookup k = some k ∧
      ∀ x, x ∈ e.aliases ↔ x ≠ k ∧ m.etwAlias.lookup x = some k) ∧
    (∀ a k, m.etwByAddr.lookup a = some k → ∃ e, m.etwObjs.lookup k = some e ∧ e.address = a) ∧
    (∀ p id, m.ptrToId.lookup p = some id → ∃ o, m.live.lookup id = some o ∧ o.objectPtr = p) ∧
    (∀ t, m.s.etw.live t = m.etwObjs.sumBy EtwObj.type (fun _ => 1) t) ∧
    (∀ t, isDriverType t = true →
      m.s.etw.sized t = m.etwObjs.sumBy EtwObj.type (fun e => if e.size ≠ 0 then 1 else 0) t) ∧
    (TotalsFit etw xs → FoldsFit etw xs →
      ∀ t, isDriverType t = true → m.s.etw.bytes t = m.etwObjs.sumBy EtwObj.type EtwObj.size t) ∧
    (m.s.etw.created : ℤ) - m.s.etw.rundownDuplicates - completedDestroys (start etw) xs
      = m.etwObjs.keys.card := by
  intro m
  have hinv : m.join.Inv := inv_after etw xs ht hl
  have htallied := tallied_after etw xs ht hl
  -- the join sees the table without the wait counters
  have hetw : ∀ {k e}, m.join.etw k = some e → ∃ e', m.etwObjs.lookup k = some e' ∧
      e'.noWait = e := fun he => Option.map_eq_some_iff.mp he
  have hjoin : ∀ {k e}, m.etwObjs.lookup k = some e → m.join.etw k = some e.noWait := by
    intro k e he; rw [join_etw, he]; rfl
  refine ⟨?canon, ?entry, ?address, ?occupant, ?live, ?sized, ?bytes, ?count⟩
  case canon =>
    intro x k hx
    obtain ⟨e, he, -⟩ := hinv.index.canon (x := x) (k := k) hx
    obtain ⟨e', he', -⟩ := hetw he
    exact ⟨e', he'⟩
  case entry =>
    intro k e he
    refine ⟨(hinv.index.etw_key (hjoin he)).2, fun x => ⟨fun hx => ?_, fun hx => ?_⟩⟩
    · exact hinv.index.aliases (hjoin he) hx
    · obtain ⟨e', he', hxe⟩ := hinv.index.canon (x := x) (k := k) hx.2
      rw [hjoin he] at he'
      cases he'
      -- an alias other than the key is listed in the record
      exact hxe.resolve_left hx.1
  case address =>
    intro a k ha
    obtain ⟨-, e, he, hadr⟩ := hinv.index.byAddr (a := a) (k := k) ha
    obtain ⟨e', he', rfl⟩ := hetw he
    exact ⟨e', he', hadr⟩
  case occupant =>
    intro p i hp
    have hp' : m.join.occupant p = some i := hp
    obtain ⟨-, o, ho, hptr⟩ := hinv.index.occupant hp'
    obtain ⟨o', ho', rfl⟩ := Option.map_eq_some_iff.mp ho
    exact ⟨o', ho', hptr⟩
  case live =>
    intro t
    exact (htallied.exact.live t).trans
      (sum_mapVal (fun x : ObjType × ℕ => if x.1 = t then 1 else 0)
      (fun e : EtwObj => (e.type, e.size)) m.etwObjs)
  case sized =>
    intro t hd
    exact (htallied.exact.sized t hd).trans (sum_mapVal
      (fun x : ObjType × ℕ => if x.1 = t then if x.2 ≠ 0 then 1 else 0 else 0)
      (fun e : EtwObj => (e.type, e.size)) m.etwObjs)
  case bytes =>
    intro hfit hfold t hd
    exact (htallied.exact.bytes ⟨hfit, hfold⟩ t hd).trans (total_census m t)
  case count =>
    exact htallied.balanced.trans (congrArg Nat.cast (card_census m))

/-- Two descriptor heaps; the second turns out to be the first one, with another size. -/
def resizedHeapRun (size size' : ℕ) : List Step :=
  [.objectCreated 0 7 .descriptorHeap size .local, .objectAddress {} 7 4096,
    .objectCreated 5 8 .descriptorHeap size' .local, .objectAddress {} 8 4096]

/-- The states of the run, one by one. -/
theorem prefix_resizedHeapRun {size size' : ℕ} {us : List Step}
    (h : us <+: resizedHeapRun size size') :
    us = [] ∨ us = [.objectCreated 0 7 .descriptorHeap size .local] ∨
      us = [.objectCreated 0 7 .descriptorHeap size .local, .objectAddress {} 7 4096] ∨
      us = [.objectCreated 0 7 .descriptorHeap size .local, .objectAddress {} 7 4096,
        .objectCreated 5 8 .descriptorHeap size' .local] ∨
      us = resizedHeapRun size size' := by
  have hmem := (List.mem_inits us (resizedHeapRun size size')).mpr h
  simpa [resizedHeapRun] using hmem

/-- The heap that is left is counted once, with its new size. -/
theorem indexes_and_aggregates_resizedHeapRun :
    let m := (start ⟨true, [], [], 5000⟩).after (resizedHeapRun 512 1024)
    m.etwAlias.lookup 8 = some 7 ∧ m.s.etw.live .descriptorHeap = 1 ∧
      m.s.etw.bytes .descriptorHeap = 1024 ∧
      (m.s.etw.created : ℤ) - m.s.etw.rundownDuplicates = m.etwObjs.keys.card := by
  have hfit : TotalsFit ⟨true, [], [], 5000⟩ (resizedHeapRun 512 1024) := by
    intro us hus t hd
    rcases prefix_resizedHeapRun hus with rfl | rfl | rfl | rfl | rfl <;> cases t <;> decide
  have hfold : FoldsFit ⟨true, [], [], 5000⟩ (resizedHeapRun 512 1024) := by
    intro us x hus
    rcases prefix_resizedHeapRun hus with h | h | h | h | h <;>
      have hus := congrArg List.dropLast h <;> have hx := congrArg List.getLast? h <;>
      simp [resizedHeapRun] at hus hx <;> subst us x
    · exact trivial
    · unfold FoldFits
      decide
    · exact trivial
    · unfold FoldFits
      decide
  obtain ⟨-, -, -, -, hlive, -, hbytes, hcount⟩ :=
    indexes_and_aggregates ⟨true, [], [], 5000⟩ (resizedHeapRun 512 1024) (by decide) (by decide)
  refine ⟨by decide, (hlive .descriptorHeap).trans (by decide),
    (hbytes hfit hfold .descriptorHeap rfl).trans (by decide), ?_⟩
  have hdestroys :
      completedDestroys (start ⟨true, [], [], 5000⟩) (resizedHeapRun 512 1024) = 0 := by decide
  rw [hdestroys] at hcount
  simpa using hcount

/-- While the re-report is merged both heaps have the new size, which is too much. -/
theorem not_indexes_and_aggregates :
    ¬∀ (etw : EtwOptions) (xs : List Step), TrackerIdsFresh xs → LibIdsFresh xs →
      TotalsFit etw xs → ∀ t, isDriverType t = true →
        ((start etw).after xs).s.etw.bytes t
          = ((start etw).after xs).etwObjs.sumBy EtwObj.type EtwObj.size t := by
  intro h
  have hfit : TotalsFit ⟨true, [], [], 5000⟩ (resizedHeapRun 1 (2 ^ 63)) := by
    intro us hus t hd
    rcases prefix_resizedHeapRun hus with rfl | rfl | rfl | rfl | rfl <;> cases t <;> decide
  have hbytes := h ⟨true, [], [], 5000⟩ (resizedHeapRun 1 (2 ^ 63)) (by decide) (by decide) hfit
    .descriptorHeap rfl
  exact absurd hbytes (by decide)

end Model

end Dx12Track
