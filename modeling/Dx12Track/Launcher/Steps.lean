import Dx12Track.Lib.Run
import Dx12Track.Launcher.JoinSim
import Dx12Track.Launcher.SansJoin

/-!
# Runs of the launcher's model

Every public member function of `Model` takes `mu_` for its whole body, so a run
of the launcher is a list of calls, in the order in which they got the lock.

* `Step`, `Model.step`, `Model.launch`, `Model.after` — runs.
* `createdIds`, `libIds` — the ids a run uses.
* `Model.ops`, `join_step`, `join_after` — a run of the model is a run of the
  join.
-/

namespace Dx12Track

open Etw (ObjType Group ResidencyOp CounterKind GroupChange Stats)
open Finmap (lookup_insert_eq lookup_erase_eq)

/-- What `--etw` sets up: whether the sidecar could be opened, and what its first
line repeats. -/
structure EtwOptions where
  opened : Bool
  sessionName : WString
  mainLogPath : WString
  rundownIntervalMs : ℕ

/-- A call of a public member function. -/
inductive Step
  /-- The pipe reader delivers a record. -/
  | event (tsNs : ℕ) (r : Record)
  | objectCreated (ts : ℤ) (libId : ℕ) (type : ObjType) (size : ℕ) (group : Group)
  | objectAddress (env : Env) (libId address : ℕ)
  | objectDestroyed (ts : ℤ) (libId : ℕ)
  | objectSize (ts : ℤ) (libId size : ℕ)
  | groupChanges (changes : List (GroupChange × Env))
  | residency (env : Env) (ts : ℤ) (libId : ℕ) (type : ObjType) (op : ResidencyOp)
  | counter (env : Env) (ts : ℤ) (counterId : ℕ) (kind : CounterKind) (bytes : ℕ)
  | diagnostic (env : Env) (error : Bool) (code : ℤ) (msg : WString)
  | tick (env : Env) (st : Stats)
  | pollChild (env : Env)
  | setChildProcess
  | setChildExitQpc (exitQpc : ℕ)
  | markChildExited (exitCode : ℕ)
  | setEtwRunning (running : Bool)
  | finish (env : Env) (st : Stats)

namespace Step

/-- The tracker id a `created` record introduces. -/
def createdId : Step → Option ℕ
  | .event _ (.created p) => some p.id
  | _ => none

/-- The library id an `OnEtwObjectCreated` introduces. -/
def libId : Step → Option ℕ
  | .objectCreated _ libId _ _ _ => some libId
  | _ => none

end Step

/-- A `created` record for an object without a name and without a call stack. -/
def plainCreated (id : ℕ) (type : ObjectType) (alloc : AllocationKind)
    (objectPtr sizeBytes parentHeapId : ℕ) : CreatedPayload where
  id := id
  sizeBytes := sizeBytes
  parentHeapId := parentHeapId
  parentHeapPtr := 0
  objectPtr := objectPtr
  heapOffset := 0
  heapType := 1
  dimension := 1
  format := 0
  type := type
  alloc := alloc
  frameCount := 0
  name := NameBuf.copy []
  frames := []

/-- The tracker ids of the `created` records of a run. -/
def createdIds (xs : List Step) : List ℕ := xs.filterMap Step.createdId

/-- The library ids of the objects ETW reports in a run. -/
def libIds (xs : List Step) : List ℕ := xs.filterMap Step.libId

/-- Tracker ids start at 1 and are never reused. -/
def TrackerIdsFresh (xs : List Step) : Prop := (createdIds xs).Nodup ∧ 0 ∉ createdIds xs

/-- Library ids are not 0 and are never reused. -/
def LibIdsFresh (xs : List Step) : Prop := (libIds xs).Nodup ∧ 0 ∉ libIds xs

instance (xs : List Step) : Decidable (TrackerIdsFresh xs) :=
  inferInstanceAs (Decidable (_ ∧ _))

instance (xs : List Step) : Decidable (LibIdsFresh xs) :=
  inferInstanceAs (Decidable (_ ∧ _))

theorem createdIds_append (xs ys : List Step) :
    createdIds (xs ++ ys) = createdIds xs ++ createdIds ys := List.filterMap_append

theorem libIds_append (xs ys : List Step) : libIds (xs ++ ys) = libIds xs ++ libIds ys :=
  List.filterMap_append

theorem TrackerIdsFresh.of_append {xs ys : List Step} (h : TrackerIdsFresh (xs ++ ys)) :
    TrackerIdsFresh xs := by
  unfold TrackerIdsFresh at h ⊢
  rw [createdIds_append] at h
  exact ⟨(List.nodup_append.mp h.1).1, fun h0 => h.2 (List.mem_append_left _ h0)⟩

theorem LibIdsFresh.of_append {xs ys : List Step} (h : LibIdsFresh (xs ++ ys)) :
    LibIdsFresh xs := by
  unfold LibIdsFresh at h ⊢
  rw [libIds_append] at h
  exact ⟨(List.nodup_append.mp h.1).1, fun h0 => h.2 (List.mem_append_left _ h0)⟩

/-- The id of a `created` record that comes last is a new one. -/
theorem TrackerIdsFresh.last {xs : List Step} {x : Step} (h : TrackerIdsFresh (xs ++ [x])) {id : ℕ}
    (hx : x.createdId = some id) : id ≠ 0 ∧ id ∉ createdIds xs := by
  unfold TrackerIdsFresh at h
  have hids : createdIds (xs ++ [x]) = createdIds xs ++ [id] := by
    rw [createdIds_append]; simp [createdIds, hx]
  rw [hids] at h
  refine ⟨fun h0 => h.2 (by simp [h0]), fun hmem => ?_⟩
  exact (List.nodup_append.mp h.1).2.2 id hmem id (by simp) rfl

theorem LibIdsFresh.last {xs : List Step} {x : Step} (h : LibIdsFresh (xs ++ [x])) {k : ℕ}
    (hx : x.libId = some k) : k ≠ 0 ∧ k ∉ libIds xs := by
  unfold LibIdsFresh at h
  have hids : libIds (xs ++ [x]) = libIds xs ++ [k] := by
    rw [libIds_append]; simp [libIds, hx]
  rw [hids] at h
  refine ⟨fun h0 => h.2 (by simp [h0]), fun hmem => ?_⟩
  exact (List.nodup_append.mp h.1).2.2 k hmem k (by simp) rfl

namespace Model

def step (m : Model) : Step → Model
  | .event tsNs r => m.onEvent tsNs r
  | .objectCreated ts libId type size group => m.onEtwObjectCreated ts libId type size group
  | .objectAddress env libId address => m.onEtwObjectAddress env libId address
  | .objectDestroyed ts libId => m.onEtwObjectDestroyed ts libId
  | .objectSize ts libId size => m.onEtwObjectSize ts libId size
  | .groupChanges changes => m.onEtwGroupChanges changes
  | .residency env ts libId type op => m.onEtwResidency env ts libId type op
  | .counter env ts counterId kind bytes => m.onEtwCounter env ts counterId kind bytes
  | .diagnostic env error code msg => m.onEtwDiagnostic env error code msg
  | .tick env st => m.etwTick env st
  | .pollChild env => m.pollChild env
  | .setChildProcess => m.setChildProcess
  | .setChildExitQpc exitQpc => m.setChildExitQpc exitQpc
  | .markChildExited exitCode => m.markChildExited exitCode
  | .setEtwRunning running => m.setEtwRunning running
  | .finish env st => m.finishEtw env st

/-- The launcher's model when the child is started with `--etw`. -/
def start (etw : EtwOptions) : Model :=
  ({} : Model).enableEtw etw.opened etw.sessionName etw.mainLogPath etw.rundownIntervalMs

/-- The launcher's model when the child is started, with `--etw` or without. -/
def launch : Option EtwOptions → Model
  | none => {}
  | some etw => start etw

/-- The model after a run. -/
def after (m : Model) (xs : List Step) : Model := Machine.run step m xs

theorem after_append (m : Model) (xs ys : List Step) : m.after (xs ++ ys) = (m.after xs).after ys :=
  Machine.run_append step m xs ys

theorem after_concat (m : Model) (xs : List Step) (x : Step) :
    m.after (xs ++ [x]) = (m.after xs).step x := Machine.run_concat step m xs x

end Model

/-! ### What the pipe's records do, and the other calls do not -/

/-- The counters over the live objects. -/
def Snapshot.counters (s : Snapshot) : Snapshot where
  totals := s.totals
  liveCount := s.liveCount
  liveBytes := s.liveBytes
  perTypeCounts := s.perTypeCounts

/-- The part of a model that only records of the pipe change. -/
structure Core where
  etwEnabled : Bool
  counts : Snapshot
  live : ℕ → Option LiveObject

def View.core (v : View) : Core where
  etwEnabled := v.rest.etwEnabled
  counts := v.rest.s.counters
  live := v.live

namespace Model

def core (m : Model) : Core := m.sansJoin.core

theorem core_of_sansJoin {m m' : Model} (h : m.sansJoin = m'.sansJoin) : m.core = m'.core :=
  congrArg View.core h

theorem core_pollChildLocked (m : Model) (env : Env) : (m.pollChildLocked env).core = m.core := by
  have hmark : ∀ now code, (m.markExiting now code).core = m.core := fun now code =>
    (core_of_sansJoin (sansJoin_sideLine _ _)).trans rfl
  unfold pollChildLocked
  dsimp only
  split
  · rfl
  · split
    · split
      · rfl
      · split
        · rfl
        · exact hmark _ _
    · exact hmark _ _

theorem core_afterChildExitLocked (m : Model) (env : Env) (ts : ℕ) :
    (m.afterChildExitLocked env ts).2.core = m.core := by
  unfold afterChildExitLocked
  dsimp only
  split
  · exact core_pollChildLocked m env
  · rfl

theorem etwEnabled_core (m : Model) : m.core.etwEnabled = m.etwEnabled := rfl

theorem core_updStats (m : Model) (f : EtwSnapshot → EtwSnapshot) :
    (m.updStats f).core = m.core := rfl

theorem core_setCounters (m : Model) (t : Table ℕ CounterVal) :
    (m.setCounters t).core = m.core := rfl

theorem core_closeSide (m : Model) : m.closeSide.core = m.core := rfl

theorem core_onEtwGroupChange (m : Model) (c : GroupChange) (env : Env) :
    (m.onEtwGroupChange c env).core = m.core := by
  unfold onEtwGroupChange
  dsimp only
  split
  · rw [core_updStats, core_afterChildExitLocked]
  · rw [core_of_sansJoin (sansJoin_regroup _ c _), core_afterChildExitLocked]

theorem core_onEtwGroupChanges (m : Model) (changes : List (GroupChange × Env)) :
    (m.onEtwGroupChanges changes).core = m.core := by
  have hfold : ∀ r : Model, (changes.foldl (fun m c => m.onEtwGroupChange c.1 c.2) r).core
      = r.core := by
    induction changes with
    | nil => exact fun _ => rfl
    | cons c cs ih =>
      intro r
      rw [List.foldl_cons, ih, core_onEtwGroupChange]
  unfold onEtwGroupChanges
  split
  · rfl
  · exact hfold m

theorem core_onEtwResidency (m : Model) (env : Env) (ts : ℤ) (libId : ℕ) (type : ObjType)
    (op : ResidencyOp) : (m.onEtwResidency env ts libId type op).core = m.core := by
  unfold onEtwResidency
  dsimp only
  split
  · rfl
  · split
    · rw [core_updStats, core_afterChildExitLocked]
    · rw [core_of_sansJoin (sansJoin_countResidency _ _ libId type op), core_afterChildExitLocked]

theorem core_onEtwCounter (m : Model) (env : Env) (ts : ℤ) (counterId : ℕ) (kind : CounterKind)
    (bytes : ℕ) : (m.onEtwCounter env ts counterId kind bytes).core = m.core := by
  unfold onEtwCounter
  dsimp only
  split
  · rfl
  · split
    · rfl
    · split
      · rw [core_afterChildExitLocked]
      · rw [core_setCounters, core_afterChildExitLocked]

theorem core_finishEtw (m : Model) (env : Env) (st : Stats) :
    (m.finishEtw env st).core = m.core := by
  unfold finishEtw
  dsimp only
  split
  · rfl
  · split
    · rw [core_closeSide, core_of_sansJoin (sansJoin_sideLine _ _)]
      rfl
    · rfl

/-- Only a record of the pipe changes the core. -/
theorem core_step_of_not_event (m : Model) {x : Step} (hx : ∀ tsNs r, x ≠ .event tsNs r) :
    (m.step x).core = m.core := by
  cases x with
  | event tsNs r => exact absurd rfl (hx tsNs r)
  | objectCreated ts libId type size group =>
    exact core_of_sansJoin (sansJoin_onEtwObjectCreated m ts libId type size group)
  | objectAddress env libId address =>
    exact core_of_sansJoin (sansJoin_onEtwObjectAddress m env libId address)
  | objectDestroyed ts libId => exact core_of_sansJoin (sansJoin_onEtwObjectDestroyed m ts libId)
  | objectSize ts libId size => exact core_of_sansJoin (sansJoin_onEtwObjectSize m ts libId size)
  | groupChanges changes => exact core_onEtwGroupChanges m changes
  | residency env ts libId type op => exact core_onEtwResidency m env ts libId type op
  | counter env ts counterId kind bytes => exact core_onEtwCounter m env ts counterId kind bytes
  | diagnostic env error code msg =>
    exact core_of_sansJoin (sansJoin_onEtwDiagnostic m env error code msg)
  | tick env st => exact core_of_sansJoin (sansJoin_etwTick m env st)
  | pollChild env => exact core_pollChildLocked m env
  | setChildProcess => rfl
  | setChildExitQpc exitQpc =>
    show (m.setChildExitQpc exitQpc).core = _
    unfold setChildExitQpc
    split <;> rfl
  | markChildExited exitCode => rfl
  | setEtwRunning running => rfl
  | finish env st => exact core_finishEtw m env st

theorem core_insertLive (m : Model) (s : Snapshot) (id : ℕ) (o : LiveObject) :
    ((m.setLive (m.live.insert id o)).setSnapshot s).core =
      { m.core with
        counts := s.counters, live := Function.update m.core.live id (some o.payload) } := by
  have hlive : ((m.setLive (m.live.insert id o)).setSnapshot s).core.live
      = Function.update m.core.live id (some o.payload) := by
    funext i
    show ((m.setLive (m.live.insert id o)).setSnapshot s).sansJoin.live i
      = Function.update m.sansJoin.live id (some o.payload) i
    rw [sansJoin_live, Function.update_apply, sansJoin_live]
    show ((m.live.insert id o).lookup i).map LiveObject.payload = _
    rw [lookup_insert_eq]
    split <;> rfl
  exact congrArg (Core.mk m.etwEnabled s.counters) hlive

theorem core_eraseLive (m : Model) (s : Snapshot) (id : ℕ) :
    ((m.setLive (m.live.erase id)).setSnapshot s).core =
      { m.core with counts := s.counters, live := Function.update m.core.live id none } := by
  have hlive : ((m.setLive (m.live.erase id)).setSnapshot s).core.live
      = Function.update m.core.live id none := by
    funext i
    show ((m.setLive (m.live.erase id)).setSnapshot s).sansJoin.live i
      = Function.update m.sansJoin.live id none i
    rw [sansJoin_live, Function.update_apply, sansJoin_live]
    show ((m.live.erase id).lookup i).map LiveObject.payload = _
    rw [lookup_erase_eq]
    split <;> rfl
  exact congrArg (Core.mk m.etwEnabled s.counters) hlive

@[simp] theorem core_pushRecent (m : Model) (line : ActivityLine) :
    (m.pushRecent line).core = m.core := rfl

/-- **A `created` record enters the table and the counters.** -/
theorem core_onCreated (m : Model) (ts : ℕ) (p : CreatedPayload) :
    (m.onCreated ts p).core =
      { m.core with
        counts := countCreated m.core.counts (liveOfCreated ts p)
          (m.live.insert p.id (liveOfCreated ts p)).keys.card
        live := Function.update m.core.live p.id (some (liveOfCreated ts p)) } := by
  have hjoin : ∀ r : Model, (if r.etwEnabled then r.etwOnCreated p.id ts else r).core = r.core := by
    intro r
    split
    · exact core_of_sansJoin (sansJoin_etwOnCreated r p.id ts)
    · rfl
  unfold onCreated
  dsimp only
  rw [core_pushRecent]
  refine (hjoin _).trans ?_
  exact core_insertLive m _ p.id (liveOfCreated ts p)

/-- The number of live objects is part of the core. -/
theorem keys_live_of_core {m m' : Model} (h : m.core = m'.core) : m.live.keys = m'.live.keys := by
  ext i
  have hi : m.sansJoin.live i = m'.sansJoin.live i := congrArg (fun c => c.live i) h
  rw [sansJoin_live, sansJoin_live] at hi
  rw [Finmap.mem_keys, Finmap.mem_keys, ← Finmap.lookup_isSome, ← Finmap.lookup_isSome]
  simpa using congrArg Option.isSome hi

/-- **A `destroyed` record leaves the table and the counters.** -/
theorem core_onDestroyed {m : Model} {p : DestroyedPayload} {o : LiveObject} (ts : ℕ)
    (ho : m.live.lookup p.id = some o) :
    (m.onDestroyed ts p).core =
      { m.core with
        counts := { countDestroyed m.core.counts o with
          liveCount := (m.live.erase p.id).keys.card }
        live := Function.update m.core.live p.id none } := by
  have hjoin : ∀ r : Model,
      (if r.etwEnabled then r.etwOnDestroyed p.id ts else r).core = r.core := by
    intro r
    split
    · exact core_of_sansJoin (sansJoin_etwOnDestroyed r p.id ts)
    · rfl
  unfold onDestroyed
  rw [ho]
  dsimp only
  have hr := hjoin m
  generalize (if m.etwEnabled then m.etwOnDestroyed p.id ts else m) = r at hr ⊢
  have hcard : (r.live.erase p.id).keys.card = (m.live.erase p.id).keys.card := by
    rw [Finmap.keys_erase, Finmap.keys_erase, keys_live_of_core hr]
  refine (core_eraseLive r _ p.id).trans ?_
  rw [← hr, ← hcard]
  rfl

theorem onDestroyed_of_none {m : Model} {p : DestroyedPayload} (ts : ℕ)
    (ho : m.live.lookup p.id = none) : m.onDestroyed ts p = m := by
  unfold onDestroyed
  rw [ho]

@[simp] theorem core_setLatestNs (m : Model) (ts : ℕ) : (m.setLatestNs ts).core = m.core := rfl

/-- A record that is neither `created` nor `destroyed` changes no counter. -/
theorem core_onEvent_other (m : Model) (ts : ℕ) {r : Record} (hc : ∀ p, r ≠ .created p)
    (hr : ∀ p, r ≠ .renamed p) (hd : ∀ p, r ≠ .destroyed p) : (m.onEvent ts r).core = m.core := by
  cases r with
  | hello p =>
    show (Model.onHello _ ts p).core = _
    unfold onHello
    dsimp only
    split <;> rfl
  | created p => exact absurd rfl (hc p)
  | renamed p => exact absurd rfl (hr p)
  | destroyed p => exact absurd rfl (hd p)
  | goodbye p => rfl
  | other => rfl

theorem core_onRenamed (m : Model) (p : RenamedPayload) :
    (m.onRenamed p).core = { m.core with
      live := Function.update m.core.live p.id
        ((m.core.live p.id).map fun o => o.setName p.name.read) } := by
  have hlive : (m.onRenamed p).core.live = Function.update m.core.live p.id
      ((m.core.live p.id).map (·.setName p.name.read)) := by
    funext i
    show (m.onRenamed p).sansJoin.live i = Function.update m.sansJoin.live p.id
      ((m.sansJoin.live p.id).map (·.setName p.name.read)) i
    rw [sansJoin_live, Function.update_apply, sansJoin_live, sansJoin_live]
    show ((m.live.modify p.id (·.setName p.name.read)).lookup i).map LiveObject.payload = _
    rw [Finmap.lookup_modify]
    split
    · next h =>
      subst h
      rw [Option.map_map, Option.map_map]
      rfl
    · rfl
  exact congrArg (Core.mk m.etwEnabled m.s.counters) hlive

/-- `--etw` is a setting. -/
@[simp] theorem etwEnabled_step (m : Model) (x : Step) :
    (m.step x).etwEnabled = m.etwEnabled := by
  have of_core : ∀ m' : Model, m'.core = m.core → m'.etwEnabled = m.etwEnabled :=
    fun m' h => congrArg Core.etwEnabled h
  cases x with
  | event ts r =>
    cases r with
    | created p =>
      show ((m.setLatestNs ts).onCreated ts p).etwEnabled = _
      rw [← etwEnabled_core, core_onCreated]
      rfl
    | renamed p => rfl
    | destroyed p =>
      show ((m.setLatestNs ts).onDestroyed ts p).etwEnabled = _
      cases ho : m.live.lookup p.id with
      | none => rw [onDestroyed_of_none (m := m.setLatestNs ts) ts ho]; rfl
      | some o => exact congrArg Core.etwEnabled (core_onDestroyed (m := m.setLatestNs ts) ts ho)
    | hello p => exact of_core _ (core_onEvent_other m ts (by simp) (by simp) (by simp))
    | goodbye p => rfl
    | other => rfl
  | _ => exact of_core _ (core_step_of_not_event m (by simp))

theorem etwEnabled_after (m : Model) (xs : List Step) : (m.after xs).etwEnabled = m.etwEnabled := by
  induction xs generalizing m with
  | nil => rfl
  | cons x xs ih => exact (ih (m.step x)).trans (etwEnabled_step m x)

theorem etwEnabled_start (etw : EtwOptions) (xs : List Step) :
    ((start etw).after xs).etwEnabled = true := etwEnabled_after _ xs

/-! ### The live ids of a run -/

theorem core_live_isSome (m : Model) (id : ℕ) :
    (m.core.live id).isSome = (m.live.lookup id).isSome := by
  show (m.sansJoin.live id).isSome = _
  rw [sansJoin_live, Option.isSome_map]

/-- Only a `created` record brings an id to life. -/
theorem live_step (m : Model) (x : Step) {id : ℕ} (h : ((m.step x).live.lookup id).isSome) :
    (m.live.lookup id).isSome ∨ x.createdId = some id := by
  rw [← core_live_isSome] at h ⊢
  -- only a create adds an id
  have unchanged : (m.step x).core = m.core → (m.core.live id).isSome ∨ x.createdId = some id :=
    fun hc => .inl (hc ▸ h)
  cases x with
  | event ts r =>
    cases r with
    | created p =>
      have hc : (m.step (.event ts (.created p))).core = _ := core_onCreated (m.setLatestNs ts) ts p
      rw [hc] at h
      dsimp only at h
      rw [Function.update_apply] at h
      split at h
      · next hid => exact .inr (congrArg some hid.symm)
      · exact .inl h
    | renamed p =>
      have hc : (m.step (.event ts (.renamed p))).core = _ := core_onRenamed (m.setLatestNs ts) p
      rw [hc] at h
      dsimp only at h
      rw [Function.update_apply] at h
      split at h
      · next hid => rw [Option.isSome_map, ← hid] at h; exact .inl h
      · exact .inl h
    | destroyed p =>
      cases ho : m.live.lookup p.id with
      | none =>
        have hm : m.step (.event ts (.destroyed p)) = m.setLatestNs ts :=
          onDestroyed_of_none (m := m.setLatestNs ts) ts ho
        exact unchanged (by rw [hm, core_setLatestNs])
      | some o =>
        have hc : (m.step (.event ts (.destroyed p))).core = _ :=
          core_onDestroyed (m := m.setLatestNs ts) ts ho
        rw [hc] at h
        dsimp only at h
        rw [Function.update_apply] at h
        split at h
        · cases h
        · exact .inl h
    | hello p => exact unchanged (core_onEvent_other m ts (by simp) (by simp) (by simp))
    | goodbye p => exact unchanged rfl
    | other => exact unchanged rfl
  | _ => exact unchanged (core_step_of_not_event m (by simp))

/-- The live ids of a run were created in it. -/
theorem createdIds_of_live {m : Model} (h0 : ∀ id, (m.live.lookup id).isSome = false)
    (xs : List Step) {id : ℕ} (h : ((m.after xs).live.lookup id).isSome) : id ∈ createdIds xs := by
  induction xs using List.reverseRecOn with
  | nil => rw [show m.after [] = m from rfl, h0] at h; cases h
  | append_singleton xs x ih =>
    rw [after_concat] at h
    rw [createdIds_append, List.mem_append]
    rcases live_step _ x h with h | h
    · exact .inl (ih h)
    · exact .inr (by simp [createdIds, h])

/-! ### A run of the model is a run of the join -/

/-- The group changes that are not ignored. -/
def groupOps : Model → List (GroupChange × Env) → List Join.Op
  | _, [] => []
  | m, c :: cs =>
    let rest := groupOps (m.onEtwGroupChange c.1 c.2) cs
    if (m.afterChildExitLocked c.2 (m.convTs c.1.ts)).1 then rest
    else .etwGroup c.1.libId (fromGroup c.1.group) :: rest

/-- What a call does to the join. -/
def ops (m : Model) : Step → List Join.Op
  | .event tsNs (.created p) => [.created tsNs p]
  | .event _ (.renamed p) => [.renamed p.id p.name.read]
  | .event tsNs (.destroyed p) => [.destroyed p.id tsNs]
  | .objectCreated ts libId type size group =>
    [.etwCreated libId type size (fromGroup group) (m.convTs ts)]
  | .objectAddress _ libId address => [.etwAddress libId address]
  | .objectDestroyed _ libId => [.etwDestroyed libId]
  | .objectSize _ libId size => [.etwSize libId size]
  | .groupChanges changes => m.groupOps changes
  | .tick env st => [.prune (m.etwTick env st).join.dead]
  | _ => []

theorem join_groupChanges (changes : List (GroupChange × Env)) (m : Model) :
    (changes.foldl (fun m c => m.onEtwGroupChange c.1 c.2) m).join
      = Machine.run Join.step m.join (m.groupOps changes) := by
  induction changes generalizing m with
  | nil => rfl
  | cons c cs ih =>
    rw [List.foldl_cons, ih, groupOps]
    have hc := join_onEtwGroupChange m c.1 c.2
    split
    · next h => rw [hc, if_pos h]
    · next h => rw [hc, if_neg h, Machine.run_cons]; rfl

/-- **One call of the model is its operations on the join.** -/
theorem join_step {m : Model} (hetw : m.etwEnabled = true) (x : Step) :
    (m.step x).join = Machine.run Join.step m.join (m.ops x) := by
  cases x with
  | event tsNs r =>
    show (m.onEvent tsNs r).join = _
    rw [join_onEvent hetw]
    cases r <;> rfl
  | objectCreated ts libId type size group =>
    exact join_onEtwObjectCreated hetw ts libId type size group
  | objectAddress env libId address => exact join_onEtwObjectAddress hetw env libId address
  | objectDestroyed ts libId => exact join_onEtwObjectDestroyed hetw ts libId
  | objectSize ts libId size => exact join_onEtwObjectSize hetw ts libId size
  | groupChanges changes =>
    show (m.onEtwGroupChanges changes).join = _
    unfold onEtwGroupChanges
    rw [hetw]
    exact join_groupChanges changes m
  | residency env ts libId type op => exact join_onEtwResidency m env ts libId type op
  | counter env ts counterId kind bytes => exact join_onEtwCounter m env ts counterId kind bytes
  | diagnostic env error code msg => exact join_onEtwDiagnostic m env error code msg
  | tick env st => exact join_etwTick m env st
  | pollChild env => exact join_pollChildLocked m env
  | setChildProcess => rfl
  | setChildExitQpc exitQpc =>
    show (m.setChildExitQpc exitQpc).join = _
    unfold setChildExitQpc
    split <;> rfl
  | markChildExited exitCode => rfl
  | setEtwRunning running => rfl
  | finish env st => exact join_finishEtw m env st

/-- The operations of a run. -/
def runOps : Model → List Step → List Join.Op
  | _, [] => []
  | m, x :: xs => m.ops x ++ runOps (m.step x) xs

/-- **A run of the model is a run of the join.** -/
theorem join_after {m : Model} (hetw : m.etwEnabled = true) (xs : List Step) :
    (m.after xs).join = Machine.run Join.step m.join (m.runOps xs) := by
  induction xs generalizing m with
  | nil => rfl
  | cons x xs ih =>
    have hx : (m.step x).etwEnabled = true := (etwEnabled_step m x).trans hetw
    rw [runOps, Machine.run_append, ← join_step hetw x]
    exact ih hx

theorem join_start (etw : EtwOptions) :
    (start etw).join = Join.empty := rfl

end Model

end Dx12Track
