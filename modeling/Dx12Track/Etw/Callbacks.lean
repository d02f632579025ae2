import Dx12Track.Launcher.Session
import Dx12Track.Launcher.Arguments

/-!
# The callbacks of the timing-capture library

`class Callbacks` of `src/etw/EtwMonitor.cpp` stands between the library and the sink.
The library calls it on the consumer thread; its base classes number the objects and
the counters, and it keeps the kinds of the counters of the traced process.

The library is not part of the repository.  What is used of it is the promise in the
source that the numbers are unique, not zero, and increasing.

* `NoOpIds` — the numbers of the base classes.
* `Callback` — a call of the library, `Callbacks.on` — what it does.
* `Feed`, `feed` — the calls of the sink between the other calls of the model.
* `libIdsFresh_feed` — **no library id comes twice**.
* `counters_feed` — **the model only knows counters of the traced process, under the kinds
  of their names**.
-/

namespace Dx12Track.Etw

open Dx12Track (Step Model Env WString)

/-! ### The types of the library -/

/-- `MemorySegmentGroup`; the other enumerators are not known. -/
inductive MemorySegmentGroup
  | «local» | nonLocal | other

/-- `ResidencyOperationType`; the other enumerators are not known. -/
inductive ResidencyOperationType
  | makeResident | evict | pageIn | pageOut | other

/-- `ObjectPlacementInfo`. -/
structure ObjectPlacementInfo where
  gpuVirtualSize : ℕ
  residentSegmentGroup : MemorySegmentGroup

/-- `AllocationSegmentGroupChange`. -/
structure AllocationSegmentGroupChange where
  timestamp : ℤ
  objectId : ℕ
  /-- `static_cast<int>` of the object type. -/
  objectType : ℤ
  segmentGroup : MemorySegmentGroup

/-- `ResidencyOperation`. -/
structure ResidencyOperation where
  timestamp : ℤ
  objectId : ℕ
  objectType : ℤ
  operationType : ResidencyOperationType

/-- `CounterDataPoint`, with a value in `D`. -/
structure CounterDataPoint (D : Type) where
  timestamp : ℤ
  counterId : ℕ
  value : D

/-- What the base classes give out as the ids of objects and of counters, in this order. -/
structure NoOpIds where
  object : ℕ → ℕ
  counter : ℕ → ℕ
  object_strictMono : StrictMono object
  object_pos : ∀ n, 0 < object n
  counter_strictMono : StrictMono counter

/-- A call of the library; a null pointer is `none`. -/
inductive Callback (D : Type)
  | deviceCreation (ts : ℤ)
  | descriptorHeapCreation (ts : ℤ) (pl : Option ObjectPlacementInfo)
  | committedResourceCreation (ts : ℤ) (pl : Option ObjectPlacementInfo)
  | placedResourceCreation (ts : ℤ) (pl : Option ObjectPlacementInfo)
  | reservedResourceCreation (ts : ℤ)
  | heapCreation (ts : ℤ) (pl : Option ObjectPlacementInfo)
  | pipelineStateCreation (ts : ℤ) (pl : Option ObjectPlacementInfo)
  | stateObjectCreation (ts : ℤ) (pl : Option ObjectPlacementInfo)
  | commandAllocatorCreation (ts : ℤ) (pl : Option ObjectPlacementInfo)
  | metaCommandCreation (ts : ℤ) (pl : Option ObjectPlacementInfo)
  | objectDestruction (ts : ℤ) (type : ℤ) (id : ℕ)
  | apiObjectName
  | apiObjectSizeAndAddress (ts : ℤ) (type : ℤ) (id size : ℕ)
  | apiObjectAddress (type : ℤ) (id address : ℕ)
  | residencyOperation (op : Option ResidencyOperation)
  | allocationSegmentGroupChanges (data : Option (List AllocationSegmentGroupChange))
  | pixCounterInfo (pid : ℕ) (name : Option WString)
  | pixCounterInfoWithDefinition (pid : ℕ) (name : Option WString)
  | pixCounterData (points : Option (List (CounterDataPoint D)))
  | diagnostic (error : Bool) (code : ℤ) (msg : WString)

/-! ### `class Callbacks` -/

/-- The enumerators of `ObjType` but `Invalid`, from 1 on. -/
def objTypeEnumerators : List ObjType :=
  [.device, .resource, .heap, .pipelineState, .stateObject, .commandAllocator, .descriptorHeap,
    .metaCommand]

/-- `ToObjType`. -/
def toObjType (v : ℤ) : ObjType :=
  if v ≤ 0 ∨ v ≥ 9 then .invalid else objTypeEnumerators.getD (v.toNat - 1) .invalid

/-- `ToGroup`. -/
def toGroup : MemorySegmentGroup → Group
  | .local => .local
  | .nonLocal => .nonLocal
  | .other => .unknown

/-- `ToResidencyOp`. -/
def toResidencyOp : ResidencyOperationType → ResidencyOp
  | .evict => .evict
  | .pageIn => .pageIn
  | .pageOut => .pageOut
  | _ => .makeResident

/-- `kMap`. -/
def kMap : List (String × CounterKind) :=
  [("Local Budget", .localBudget), ("Local Resident", .localResident),
    ("Local Usage", .localUsage), ("Non-Local Budget", .nonLocalBudget),
    ("Non-Local Resident", .nonLocalResident), ("Non-Local Usage", .nonLocalUsage),
    ("Minimum Priority", .demotedMin), ("Low Priority", .demotedLow),
    ("Normal Priority", .demotedNormal), ("High Priority", .demotedHigh),
    ("Maximum Priority", .demotedMax),
    ("Local to Non-Local Paging", .pagingLocalToNonLocal),
    ("Non-Local to Local Paging", .pagingNonLocalToLocal)]

/-- `CounterKindFromName`. -/
def counterKindFromName (name : Option WString) : Option CounterKind :=
  name.bind fun name => (kMap.find? fun e => wliteral e.1 = name).map Prod.snd

/-- A call of the sink. -/
inductive SinkCall (D : Type)
  | objectCreated (ts : ℤ) (libId : ℕ) (type : ObjType) (size : ℕ) (group : Group)
  | objectAddress (libId : ℕ) (type : ObjType) (address : ℕ)
  | objectDestroyed (ts : ℤ) (libId : ℕ) (type : ObjType)
  | objectSize (ts : ℤ) (libId : ℕ) (type : ObjType) (size : ℕ)
  | groupChanges (changes : List GroupChange)
  | residency (ts : ℤ) (libId : ℕ) (type : ObjType) (op : ResidencyOp)
  | counter (ts : ℤ) (counterId : ℕ) (kind : CounterKind) (value : D)
  | diagnostic (error : Bool) (code : ℤ) (msg : WString)

/-- The members of `class Callbacks` and of its base classes. -/
structure Callbacks where
  pid : ℕ
  /-- How many ids the base classes have given out. -/
  objects : ℕ := 0
  infos : ℕ := 0
  /-- `counters_`. -/
  counters : Table ℕ CounterKind := ∅

namespace Callbacks

variable {D : Type} (ids : NoOpIds) (c : Callbacks)

/-- An object gets its id from the base class, and the sink is told of it. -/
def create (ts : ℤ) (type : ObjType) (size : ℕ) (group : Group) : Callbacks × List (SinkCall D) :=
  ({ c with objects := c.objects + 1 },
    [.objectCreated ts (ids.object c.objects) type size group])

/-- `Created`. -/
def created (ts : ℤ) (type : ObjType) (pl : Option ObjectPlacementInfo) :
    Callbacks × List (SinkCall D) :=
  c.create ids ts type ((pl.map (·.gpuVirtualSize)).getD 0)
    ((pl.map fun pl => toGroup pl.residentSegmentGroup).getD .unknown)

/-- A counter gets its id from the base class; `NoteCounter`. -/
def noteCounter (pid : ℕ) (name : Option WString) : Callbacks :=
  let id := ids.counter c.infos
  let c := { c with infos := c.infos + 1 }
  match if pid = c.pid then counterKindFromName name else none with
  | none => c
  | some kind => { c with counters := c.counters.insert id kind }

/-- What a call of the library does, and the calls of the sink that it makes. -/
def on : Callback D → Callbacks × List (SinkCall D)
  | .deviceCreation ts => c.create ids ts .device 0 .unknown
  | .descriptorHeapCreation ts pl => c.created ids ts .descriptorHeap pl
  | .committedResourceCreation ts pl => c.created ids ts .resource pl
  | .placedResourceCreation ts pl => c.created ids ts .resource pl
  | .reservedResourceCreation ts => c.create ids ts .resource 0 .unknown
  | .heapCreation ts pl => c.created ids ts .heap pl
  | .pipelineStateCreation ts pl => c.created ids ts .pipelineState pl
  | .stateObjectCreation ts pl => c.created ids ts .stateObject pl
  | .commandAllocatorCreation ts pl => c.created ids ts .commandAllocator pl
  | .metaCommandCreation ts pl => c.created ids ts .metaCommand pl
  | .objectDestruction ts type id => (c, [.objectDestroyed ts id (toObjType type)])
  | .apiObjectName => (c, [])
  | .apiObjectSizeAndAddress ts type id size => (c, [.objectSize ts id (toObjType type) size])
  | .apiObjectAddress type id address => (c, [.objectAddress id (toObjType type) address])
  | .residencyOperation none => (c, [])
  | .residencyOperation (some op) =>
    (c, [.residency op.timestamp op.objectId (toObjType op.objectType)
      (toResidencyOp op.operationType)])
  | .allocationSegmentGroupChanges none => (c, [])
  | .allocationSegmentGroupChanges (some data) =>
    if data = [] then (c, [])
    else
      (c, [.groupChanges (data.map fun d =>
        ⟨d.timestamp, d.objectId, toObjType d.objectType, toGroup d.segmentGroup⟩)])
  | .pixCounterInfo pid name => (c.noteCounter ids pid name, [])
  | .pixCounterInfoWithDefinition pid name => (c.noteCounter ids pid name, [])
  | .pixCounterData none => (c, [])
  | .pixCounterData (some points) =>
    (c, points.filterMap fun p => (c.counters.lookup p.counterId).map fun kind =>
      .counter p.timestamp p.counterId kind p.value)
  | .diagnostic error code msg => (c, [.diagnostic error code msg])

end Callbacks

/-! ### The calls between the other calls -/

/-- The call of the model; what its parts read from outside is `env`, and `toBytes` is the
conversion of a value in megabytes. -/
def SinkCall.step {D : Type} (toBytes : D → ℕ) (env : ℕ → Env) : SinkCall D → Step
  | .objectCreated ts libId type size group => .objectCreated ts libId type size group
  | .objectAddress libId _ address => .objectAddress (env 0) libId address
  | .objectDestroyed ts libId _ => .objectDestroyed ts libId
  | .objectSize ts libId _ size => .objectSize ts libId size
  | .groupChanges changes => .groupChanges (changes.zipIdx.map fun c => (c.1, env c.2))
  | .residency ts libId type op => .residency (env 0) ts libId type op
  | .counter ts counterId kind value => .counter (env 0) ts counterId kind (toBytes value)
  | .diagnostic error code msg => .diagnostic (env 0) error code msg

/-- The calls of one call of the library. -/
def sinkSteps {D : Type} (toBytes : D → ℕ) (env : ℕ → ℕ → Env) (cs : List (SinkCall D)) :
    List Step := cs.zipIdx.map fun c => c.1.step toBytes (env c.2)

/-- A call of the library, with what the calls of the sink in it read, or a call of another
thread. -/
inductive Feed (D : Type)
  | library (x : Callback D) (env : ℕ → ℕ → Env)
  | other (x : Step) (plain : x.ofSink = false)

section Feed

variable {D : Type} (ids : NoOpIds) (toBytes : D → ℕ)

/-- The callbacks, and the calls of the model so far. -/
def feedStep (s : Callbacks × List Step) : Feed D → Callbacks × List Step
  | .library x env =>
    let r := s.1.on ids x
    (r.1, s.2 ++ sinkSteps toBytes env r.2)
  | .other x _ => (s.1, s.2 ++ [x])

def feed (pid : ℕ) (xs : List (Feed D)) : Callbacks × List Step :=
  Machine.run (feedStep ids toBytes) ({ pid := pid }, []) xs

theorem feed_concat (pid : ℕ) (xs : List (Feed D)) (x : Feed D) :
    feed ids toBytes pid (xs ++ [x]) = feedStep ids toBytes (feed ids toBytes pid xs) x :=
  Machine.run_concat (feedStep ids toBytes) _ xs x

/-! ### The ids of the objects -/

/-- The id that a call of the sink introduces. -/
def SinkCall.libId : SinkCall D → Option ℕ
  | .objectCreated _ libId _ _ _ => some libId
  | _ => none

theorem libIds_sinkSteps (env : ℕ → ℕ → Env) (cs : List (SinkCall D)) :
    libIds (sinkSteps toBytes env cs) = cs.filterMap SinkCall.libId := by
  have hstep : ∀ c : SinkCall D × ℕ, (c.1.step toBytes (env c.2)).libId = c.1.libId := by
    rintro ⟨c, n⟩
    cases c <;> rfl
  unfold libIds sinkSteps
  rw [List.filterMap_map]
  have hfst : cs = cs.zipIdx.map Prod.fst := (List.zipIdx_map_fst 0 cs).symm
  conv_rhs => rw [hfst, List.filterMap_map]
  exact List.filterMap_congr fun c _ => hstep c

/-- What a call of the library does with the ids of objects: it takes the next one, and makes one
call with it, or it takes none. -/
theorem on_libIds (c : Callbacks) (x : Callback D) :
    ((c.on ids x).2.filterMap SinkCall.libId = [ids.object c.objects] ∧
        (c.on ids x).1.objects = c.objects + 1) ∨
      ((c.on ids x).2.filterMap SinkCall.libId = [] ∧ (c.on ids x).1.objects = c.objects) := by
  have hnote : ∀ pid name, (c.noteCounter ids pid name).objects = c.objects := by
    intro pid name
    unfold Callbacks.noteCounter
    dsimp only
    split <;> rfl
  cases x with
  | pixCounterInfo pid name => exact Or.inr ⟨rfl, hnote pid name⟩
  | pixCounterInfoWithDefinition pid name => exact Or.inr ⟨rfl, hnote pid name⟩
  | pixCounterData points =>
    refine Or.inr ⟨?_, by cases points <;> rfl⟩
    cases points with
    | none => rfl
    | some points =>
      simp only [Callbacks.on, List.filterMap_filterMap]
      refine List.filterMap_eq_nil_iff.mpr fun p _ => ?_
      cases c.counters.lookup p.counterId <;> rfl
  | residencyOperation op => cases op <;> exact Or.inr ⟨rfl, rfl⟩
  | allocationSegmentGroupChanges data =>
    cases data with
    | none => exact Or.inr ⟨rfl, rfl⟩
    | some data =>
      simp only [Callbacks.on]
      split <;> exact Or.inr ⟨rfl, rfl⟩
  | objectDestruction => exact Or.inr ⟨rfl, rfl⟩
  | apiObjectName => exact Or.inr ⟨rfl, rfl⟩
  | apiObjectSizeAndAddress => exact Or.inr ⟨rfl, rfl⟩
  | apiObjectAddress => exact Or.inr ⟨rfl, rfl⟩
  | diagnostic => exact Or.inr ⟨rfl, rfl⟩
  | _ => exact Or.inl ⟨rfl, rfl⟩

theorem libIds_feed (pid : ℕ) (xs : List (Feed D)) :
    libIds (feed ids toBytes pid xs).2 =
      (List.range (feed ids toBytes pid xs).1.objects).map ids.object := by
  induction xs using List.reverseRecOn with
  | nil => rfl
  | append_singleton xs x ih =>
    rw [feed_concat]
    generalize feed ids toBytes pid xs = s at ih ⊢
    cases x with
    | library x env =>
      simp only [feedStep]
      rw [libIds_append, ih, libIds_sinkSteps]
      rcases on_libIds ids s.1 x with ⟨hids, hobjects⟩ | ⟨hids, hobjects⟩
      · rw [hids, hobjects, List.range_succ, List.map_append]
        rfl
      · rw [hids, hobjects, List.append_nil]
    | other x plain =>
      simp only [feedStep]
      rw [libIds_append, ih]
      have hnone : libIds [x] = [] := by cases x <;> first | rfl | cases plain
      rw [hnone, List.append_nil]

/-- **No library id comes twice**, and none is zero, whatever the library calls and in whatever
order with the other calls of the model. -/
theorem libIdsFresh_feed (pid : ℕ) (xs : List (Feed D)) :
    LibIdsFresh (feed ids toBytes pid xs).2 := by
  unfold LibIdsFresh
  rw [libIds_feed]
  refine ⟨List.nodup_range.map ids.object_strictMono.injective, fun hzero => ?_⟩
  obtain ⟨n, -, hn⟩ := List.mem_map.mp hzero
  exact Nat.ne_of_gt (ids.object_pos n) hn

end Feed

/-! ### What the model keeps of a counter -/

theorem counters_of_sansJoin {m m' : Model} (h : m'.sansJoin = m.sansJoin) :
    m'.counters = m.counters := congrArg (fun v => v.rest.counters) h

theorem counters_sideLine (m : Model) (l : SideLine) : (m.sideLine l).counters = m.counters :=
  counters_of_sansJoin (Model.sansJoin_sideLine m l)

theorem counters_poll (m : Model) (env : Env) : (m.pollChildLocked env).counters = m.counters := by
  have hmark : ∀ now code, (m.markExiting now code).counters = m.counters :=
    fun _ _ => counters_sideLine _ _
  unfold Model.pollChildLocked
  split
  · rfl
  · dsimp only
    split
    · split
      · rfl
      · split
        · rfl
        · exact hmark _ _
    · exact hmark _ _

theorem counters_after (m : Model) (env : Env) (ts : ℕ) :
    (m.afterChildExitLocked env ts).2.counters = m.counters := by
  unfold Model.afterChildExitLocked
  dsimp only
  split
  · exact counters_poll m env
  · rfl

theorem counters_onCreated (m : Model) (ts : ℕ) (p : CreatedPayload) :
    (m.onCreated ts p).counters = m.counters := by
  have hjoin : ∀ r : Model,
      (if r.etwEnabled then r.etwOnCreated p.id ts else r).counters = r.counters := by
    intro r
    split
    · exact counters_of_sansJoin (Model.sansJoin_etwOnCreated r _ _)
    · rfl
  exact hjoin _

theorem counters_onDestroyed (m : Model) (ts : ℕ) (p : DestroyedPayload) :
    (m.onDestroyed ts p).counters = m.counters := by
  have hjoin : (if m.etwEnabled then m.etwOnDestroyed p.id ts else m).counters = m.counters := by
    split
    · exact counters_of_sansJoin (Model.sansJoin_etwOnDestroyed m _ _)
    · rfl
  unfold Model.onDestroyed
  split
  · rfl
  · exact hjoin

/-- Only a sample with a time changes the counters. -/
theorem counters_step (m : Model) (x : Step) :
    (m.step x).counters = m.counters ∨ ∃ env ts id kind bytes, x = .counter env ts id kind bytes ∧
      0 < ts ∧ (m.step x).counters = m.counters.insert id ⟨kind, bytes⟩ := by
  have hjoin : ∀ {m' : Model}, m'.sansJoin = m.sansJoin → m'.counters = m.counters :=
    counters_of_sansJoin
  cases x with
  | event ts r =>
    left
    cases r with
    | hello p =>
      show ((m.setLatestNs ts).onHello ts p).counters = m.counters
      unfold Model.onHello
      dsimp only
      split <;> rfl
    | created p => exact counters_onCreated (m.setLatestNs ts) ts p
    | renamed p => rfl
    | destroyed p => exact counters_onDestroyed (m.setLatestNs ts) ts p
    | goodbye p => rfl
    | other => rfl
  | objectCreated ts libId type size group =>
    exact Or.inl (hjoin (m.sansJoin_onEtwObjectCreated ts libId type size group))
  | objectAddress env libId address =>
    exact Or.inl (hjoin (m.sansJoin_onEtwObjectAddress env libId address))
  | objectDestroyed ts libId => exact Or.inl (hjoin (m.sansJoin_onEtwObjectDestroyed ts libId))
  | objectSize ts libId size => exact Or.inl (hjoin (m.sansJoin_onEtwObjectSize ts libId size))
  | groupChanges changes =>
    left
    have hone : ∀ (r : Model) (c : GroupChange) (env : Env),
        (r.onEtwGroupChange c env).counters = r.counters := by
      intro r c env
      unfold Model.onEtwGroupChange
      dsimp only
      split
      · exact counters_after r env _
      · rw [counters_of_sansJoin (Model.sansJoin_regroup _ _ _), counters_after]
    have hall : ∀ (cs : List (GroupChange × Env)) (r : Model),
        (cs.foldl (fun m c => m.onEtwGroupChange c.1 c.2) r).counters = r.counters := by
      intro cs
      induction cs with
      | nil => exact fun _ => rfl
      | cons c cs ih => exact fun r => (ih _).trans (hone r c.1 c.2)
    show (m.onEtwGroupChanges changes).counters = m.counters
    unfold Model.onEtwGroupChanges
    split
    · rfl
    · exact hall changes m
  | residency env ts libId type op =>
    left
    show (m.onEtwResidency env ts libId type op).counters = m.counters
    unfold Model.onEtwResidency
    split
    · rfl
    · dsimp only
      split
      · exact counters_after m env _
      · rw [counters_of_sansJoin (Model.sansJoin_countResidency _ _ _ _ _), counters_after]
  | counter env ts id kind bytes =>
    have hkept : (m.onEtwCounter env ts id kind bytes).counters = m.counters ∨
        0 < ts ∧ (m.onEtwCounter env ts id kind bytes).counters =
          m.counters.insert id ⟨kind, bytes⟩ := by
      unfold Model.onEtwCounter
      split
      · exact Or.inl rfl
      · split
        · exact Or.inl rfl
        · next hts =>
          dsimp only
          split
          · exact Or.inl (counters_after m env _)
          · refine Or.inr ⟨not_le.mp hts, ?_⟩
            show (Model.counters _).insert _ _ = _
            rw [counters_after]
    exact hkept.imp_right fun ⟨hts, hset⟩ => ⟨env, ts, id, kind, bytes, rfl, hts, hset⟩
  | diagnostic env error code msg =>
    exact Or.inl (hjoin (m.sansJoin_onEtwDiagnostic env error code msg))
  | tick env st => exact Or.inl (hjoin (m.sansJoin_etwTick env st))
  | pollChild env => exact Or.inl (counters_poll m env)
  | setChildProcess => exact Or.inl rfl
  | setChildExitQpc exitQpc =>
    left
    show (m.setChildExitQpc exitQpc).counters = m.counters
    unfold Model.setChildExitQpc
    split <;> rfl
  | markChildExited exitCode => exact Or.inl rfl
  | setEtwRunning running => exact Or.inl rfl
  | finish env st =>
    left
    show (m.finishEtw env st).counters = m.counters
    unfold Model.finishEtw
    dsimp only
    split
    · rfl
    · split
      · exact counters_sideLine _ _
      · rfl

/-! ### The counters of the traced process -/

section Counters

variable {D : Type}

/-- The process and the name of a counter that the library announces. -/
def Callback.info : Callback D → Option (ℕ × Option WString)
  | .pixCounterInfo pid name => some (pid, name)
  | .pixCounterInfoWithDefinition pid name => some (pid, name)
  | _ => none

/-- The announcements of a run, in order. -/
def infosOf (xs : List (Feed D)) : List (ℕ × Option WString) :=
  xs.filterMap fun x => match x with
    | .library x _ => x.info
    | .other _ _ => none

/-- The library has announced `id` as a counter of the process `pid` with the name of `kind`. -/
def Announced (ids : NoOpIds) (pid : ℕ) (xs : List (Feed D)) (id : ℕ) (kind : CounterKind) : Prop :=
  ∃ n name, (infosOf xs)[n]? = some (pid, name) ∧ ids.counter n = id ∧
    counterKindFromName name = some kind

/-- A sample in a run. -/
def Sampled (ids : NoOpIds) (pid : ℕ) (xs : List (Feed D)) (id : ℕ) (kind : CounterKind)
    (value : D) : Prop :=
  ∃ us points env vs p, xs = us ++ .library (.pixCounterData (some points)) env :: vs ∧
    p ∈ points ∧ p.counterId = id ∧ 0 < p.timestamp ∧ p.value = value ∧ Announced ids pid us id kind

variable (ids : NoOpIds) (toBytes : D → ℕ)

theorem infosOf_concat (xs : List (Feed D)) (x : Callback D) (env : ℕ → ℕ → Env) :
    infosOf (xs ++ [.library x env]) = infosOf xs ++ x.info.toList := by
  unfold infosOf
  rw [List.filterMap_append]
  cases hx : x.info <;> simp [hx]

/-- **The registry.**  It holds exactly what was announced. -/
structure Registry (pid : ℕ) (xs : List (Feed D)) (c : Callbacks) : Prop where
  process : c.pid = pid
  infos : c.infos = (infosOf xs).length
  known : ∀ id kind, c.counters.lookup id = some kind ↔ Announced ids pid xs id kind

variable {ids}

theorem Registry.note {pid : ℕ} {xs : List (Feed D)} {c : Callbacks} (h : Registry ids pid xs c)
    {x : Callback D} {pid' : ℕ} {name : Option WString} (hx : x.info = some (pid', name))
    (env : ℕ → ℕ → Env) :
    Registry ids pid (xs ++ [.library x env]) (c.noteCounter ids pid' name) := by
  have hinfos : infosOf (xs ++ [.library x env]) = infosOf xs ++ [(pid', name)] := by
    rw [infosOf_concat, hx]
    rfl
  -- what was announced before, and the new counter
  have hannounced : ∀ id kind, Announced ids pid (xs ++ [.library x env]) id kind ↔
      Announced ids pid xs id kind ∨
        (ids.counter (infosOf xs).length = id ∧ pid' = pid ∧
          counterKindFromName name = some kind) := by
    intro id kind
    unfold Announced
    rw [hinfos]
    constructor
    · rintro ⟨n, name', hn, hid, hkind⟩
      rcases Nat.lt_or_ge n (infosOf xs).length with hlt | hge
      · rw [List.getElem?_append_left hlt] at hn
        exact Or.inl ⟨n, name', hn, hid, hkind⟩
      · obtain rfl : n = (infosOf xs).length := by
          have := (List.getElem?_eq_some_iff.mp hn).1
          rw [List.length_append, List.length_singleton] at this
          omega
        rw [List.getElem?_concat_length] at hn
        obtain ⟨rfl, rfl⟩ := Prod.mk.inj (Option.some.inj hn)
        exact Or.inr ⟨hid, rfl, hkind⟩
    · rintro (⟨n, name', hn, hid, hkind⟩ | ⟨hid, rfl, hkind⟩)
      · refine ⟨n, name', ?_, hid, hkind⟩
        rw [List.getElem?_append_left (List.getElem?_eq_some_iff.mp hn).1]
        exact hn
      · exact ⟨_, name, List.getElem?_concat_length, hid, hkind⟩
  have hnew : ∀ kind, ¬Announced ids pid xs (ids.counter (infosOf xs).length) kind := by
    rintro kind ⟨n, name', hn, hid, -⟩
    have hlt := (List.getElem?_eq_some_iff.mp hn).1
    exact Nat.ne_of_lt hlt (ids.counter_strictMono.injective hid)
  have hlength : (infosOf (xs ++ [.library x env])).length = c.infos + 1 := by
    rw [hinfos, List.length_append, h.infos]
    rfl
  unfold Callbacks.noteCounter
  dsimp only
  split
  · next hnone =>
    refine ⟨h.process, hlength.symm, fun id kind => ?_⟩
    rw [hannounced]
    refine (h.known id kind).trans (or_iff_left ?_).symm
    rintro ⟨-, rfl, hkind⟩
    rw [if_pos h.process.symm, hkind] at hnone
    cases hnone
  · next kind' hkind' =>
    obtain ⟨rfl, hname⟩ : pid' = c.pid ∧ counterKindFromName name = some kind' := by
      split at hkind'
      · next hpid => exact ⟨hpid, hkind'⟩
      · cases hkind'
    refine ⟨h.process, hlength.symm, fun id kind => ?_⟩
    rw [hannounced]
    show (c.counters.insert (ids.counter c.infos) kind').lookup id = some kind ↔ _
    rw [Finmap.lookup_insert_eq, h.infos]
    by_cases hid : id = ids.counter (infosOf xs).length
    · subst hid
      rw [if_pos rfl, or_iff_right (hnew kind), hname]
      exact ⟨fun hk => ⟨rfl, h.process, hk⟩, fun hk => hk.2.2⟩
    · rw [if_neg hid, h.known]
      exact (or_iff_left fun hk => hid hk.1.symm).symm

/-- A call that announces nothing leaves the registry alone. -/
theorem Registry.same {pid : ℕ} {xs : List (Feed D)} {c c' : Callbacks} (h : Registry ids pid xs c)
    {x : Feed D} (hinfos : infosOf (xs ++ [x]) = infosOf xs) (hpid : c'.pid = c.pid)
    (hcount : c'.infos = c.infos) (hcounters : c'.counters = c.counters) :
    Registry ids pid (xs ++ [x]) c' := by
  refine ⟨hpid.trans h.process, ?_, fun id kind => ?_⟩
  · rw [hinfos, hcount, h.infos]
  · rw [hcounters, h.known]
    unfold Announced
    rw [hinfos]

/-- A call that announces nothing. -/
theorem on_rest (c : Callbacks) {x : Callback D} (hx : x.info = none) :
    (c.on ids x).1.pid = c.pid ∧ (c.on ids x).1.infos = c.infos ∧
      (c.on ids x).1.counters = c.counters := by
  cases x with
  | pixCounterInfo => cases hx
  | pixCounterInfoWithDefinition => cases hx
  | pixCounterData points => cases points <;> exact ⟨rfl, rfl, rfl⟩
  | residencyOperation op => cases op <;> exact ⟨rfl, rfl, rfl⟩
  | allocationSegmentGroupChanges data =>
    cases data with
    | none => exact ⟨rfl, rfl, rfl⟩
    | some data =>
      simp only [Callbacks.on]
      split <;> exact ⟨rfl, rfl, rfl⟩
  | _ => exact ⟨rfl, rfl, rfl⟩

theorem registry_feed (pid : ℕ) (xs : List (Feed D)) :
    Registry ids pid xs (feed ids toBytes pid xs).1 := by
  induction xs using List.reverseRecOn with
  | nil =>
    refine ⟨rfl, rfl, fun id kind => ⟨nofun, ?_⟩⟩
    rintro ⟨n, name, hn, -⟩
    cases hn
  | append_singleton xs x ih =>
    rw [feed_concat]
    generalize feed ids toBytes pid xs = s at ih ⊢
    cases x with
    | other x plain =>
      exact ih.same (by simp [infosOf]) rfl rfl rfl
    | library x env =>
      show Registry ids pid _ (s.1.on ids x).1
      cases hx : x.info with
      | none =>
        obtain ⟨hpid, hcount, hcounters⟩ := @on_rest D ids s.1 x hx
        refine ih.same ?_ hpid hcount hcounters
        rw [infosOf_concat, hx]
        exact List.append_nil _
      | some info =>
        cases x with
        | pixCounterInfo pid' name => exact ih.note rfl env
        | pixCounterInfoWithDefinition pid' name => exact ih.note rfl env
        | _ => cases hx

/-! ### What the model knows -/

/-- A counter of a model was there before some calls, or comes from one of them. -/
theorem counters_afterSteps (ys : List Step) (m : Model) {id : ℕ} {v : CounterVal}
    (h : (m.after ys).counters.lookup id = some v) :
    m.counters.lookup id = some v ∨
      ∃ env ts, 0 < ts ∧ Step.counter env ts id v.kind v.bytes ∈ ys := by
  induction ys generalizing m with
  | nil => exact Or.inl h
  | cons y ys ih =>
    rcases ih (m.step y) h with hold | ⟨env, ts, hts, hmem⟩
    · rcases counters_step m y with hsame | ⟨env, ts, id', kind, bytes, rfl, hts, hset⟩
      · exact Or.inl (hsame ▸ hold)
      · rw [hset, Finmap.lookup_insert_eq] at hold
        split at hold
        · next hid =>
          subst hid
          cases hold
          exact Or.inr ⟨env, ts, hts, List.mem_cons_self⟩
        · exact Or.inl hold
    · exact Or.inr ⟨env, ts, hts, List.mem_cons_of_mem _ hmem⟩

/-- A sample that a call of the library hands on is one of a registered counter. -/
theorem sampled_on {pid : ℕ} {xs : List (Feed D)} {c : Callbacks} (h : Registry ids pid xs c)
    {x : Callback D} (env : ℕ → ℕ → Env) {ts : ℤ} {id : ℕ} {kind : CounterKind} {value : D}
    (hts : 0 < ts) (hmem : SinkCall.counter ts id kind value ∈ (c.on ids x).2) :
    Sampled ids pid (xs ++ [.library x env]) id kind value := by
  cases x with
  | pixCounterData points =>
    cases points with
    | none => simp [Callbacks.on] at hmem
    | some points =>
      obtain ⟨p, hp, hcall⟩ := List.mem_filterMap.mp hmem
      obtain ⟨kind', hkind', heq⟩ := Option.map_eq_some_iff.mp hcall
      cases heq
      exact ⟨xs, points, env, [], p, rfl, hp, rfl, hts, rfl, (h.known _ _).mp hkind'⟩
  | residencyOperation op => cases op <;> simp [Callbacks.on] at hmem
  | allocationSegmentGroupChanges data =>
    cases data with
    | none => simp [Callbacks.on] at hmem
    | some data =>
      simp only [Callbacks.on] at hmem
      split at hmem <;> simp at hmem
  | _ => simp [Callbacks.on, Callbacks.created, Callbacks.create] at hmem

theorem Sampled.append {pid : ℕ} {xs : List (Feed D)} {id : ℕ} {kind : CounterKind} {value : D}
    (h : Sampled ids pid xs id kind value) (ys : List (Feed D)) :
    Sampled ids pid (xs ++ ys) id kind value := by
  obtain ⟨us, points, env, vs, p, rfl, hp, hid, hts, hvalue, hknown⟩ := h
  exact ⟨us, points, env, vs ++ ys, p, by simp, hp, hid, hts, hvalue, hknown⟩

variable (ids)

/-- **The model only knows counters of the traced process.**  Whatever the library calls and in
whatever order with the other calls: a counter that the model keeps has been announced before, as
one of the process `pid` and with the name of its kind, and its value is that of a sample with a
time. -/
theorem counters_feed (etw : EtwOptions) (pid : ℕ) (xs : List (Feed D)) {id : ℕ} {v : CounterVal}
    (h : ((Model.start etw).after (feed ids toBytes pid xs).2).counters.lookup id = some v) :
    ∃ value, Sampled ids pid xs id v.kind value ∧ v.bytes = toBytes value := by
  induction xs using List.reverseRecOn with
  | nil => cases h
  | append_singleton xs x ih =>
    have hreg : Registry ids pid xs (feed ids toBytes pid xs).1 := registry_feed toBytes pid xs
    rw [feed_concat] at h
    generalize feed ids toBytes pid xs = s at h ih hreg
    have hold : ((Model.start etw).after s.2).counters.lookup id = some v →
        ∃ value, Sampled ids pid (xs ++ [x]) id v.kind value ∧ v.bytes = toBytes value := by
      intro hv
      obtain ⟨value, hsampled, hbytes⟩ := ih hv
      exact ⟨value, hsampled.append [x], hbytes⟩
    cases x with
    | other x plain =>
      rw [feedStep, Model.after_append] at h
      rcases counters_afterSteps [x] _ h with hv | ⟨env, ts, -, hmem⟩
      · exact hold hv
      · rw [← List.mem_singleton.mp hmem] at plain
        cases plain
    | library x env =>
      rw [feedStep, Model.after_append] at h
      rcases counters_afterSteps _ _ h with hv | ⟨env', ts, hts, hmem⟩
      · exact hold hv
      · obtain ⟨⟨c, n⟩, hc, hstep⟩ := List.mem_map.mp hmem
        have hc : c ∈ (s.1.on ids x).2 := List.fst_mem_of_mem_zipIdx hc
        obtain ⟨kind, bytes⟩ := v
        cases c with
        | counter ts' id' kind' value =>
          cases hstep
          exact ⟨value, sampled_on hreg env hts hc, rfl⟩
        | _ => cases hstep

end Counters

/-! ### A run -/

/-- Ids that count up from 1. -/
def plainIds : NoOpIds where
  object n := n + 1
  counter n := n + 1
  object_strictMono := fun _ _ h => Nat.add_lt_add_right h 1
  object_pos := Nat.succ_pos
  counter_strictMono := fun _ _ h => Nat.add_lt_add_right h 1

/-- A counter of the traced process 7 and one of another process, with a sample of each. -/
def counterRun : List (Feed ℕ) :=
  [.library (.pixCounterInfo 8 (some (wliteral "Local Usage"))) fun _ _ => {},
    .library (.pixCounterInfo 7 (some (wliteral "Local Usage"))) fun _ _ => {},
    .library (.pixCounterData (some [⟨5, 1, 64⟩, ⟨6, 2, 32⟩])) fun _ _ => {}]

theorem counters_feed_counterRun :
    ∃ value, Sampled plainIds 7 counterRun 2 .localUsage value ∧ 32000000 = value * 1000000 :=
  counters_feed plainIds (fun mb => mb * 1000000) ⟨true, [], [], 0⟩ 7 counterRun
    (v := ⟨.localUsage, 32000000⟩) rfl

end Dx12Track.Etw
