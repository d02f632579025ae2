import Dx12Track.Launcher.Steps
import Dx12Track.Dll.Stream

/-!
# The launcher replays the tracker

The records that the tracker sends are all the launcher knows of it.  Delivered
in order, they make the launcher's live table a copy of the tracker's table, up
to names that do not fit their field.

* `Tracked` — what both tables know of an object.
* `replay` — the two machines, with the stream between them.
* `Sim` — the simulation relation, `sim_step` — one call keeps it.
* `tracker_refined` — **the two tables agree after every run**.
-/

namespace Dx12Track

open Finmap (lookup_insert_eq lookup_erase_eq lookup_erase_some)
open Tracker (Call)
open Model (liveOfCreated)

/-- What the launcher and the tracker both know of an object. -/
structure Tracked where
  id : ℕ
  type : ObjectType
  alloc : AllocationKind
  heapType : ℕ
  dimension : ℕ
  format : ℕ
  sizeBytes : ℕ
  parentHeapId : ℕ
  objectPtr : ℕ
  name : WString
  deriving DecidableEq

def LiveObject.tracked (o : LiveObject) : Tracked where
  id := o.id
  type := o.type
  alloc := o.alloc
  heapType := o.heapType
  dimension := o.dimension
  format := o.format
  sizeBytes := o.sizeBytes
  parentHeapId := o.parentHeapId
  objectPtr := o.objectPtr
  name := o.name

/-- The name is cut to what its field holds before the terminator. -/
def ObjectInfo.tracked (info : ObjectInfo) : Tracked where
  id := info.id
  type := info.type
  alloc := info.alloc
  heapType := info.heapType
  dimension := info.dimension
  format := info.format
  sizeBytes := info.sizeBytes
  parentHeapId := info.parentHeapId
  objectPtr := info.objectPtr
  name := info.name.take (kMaxNameChars - 1)

/-! ### One record -/

namespace Model

/-- The live table, as far as the tracker knows it. -/
def trackedLive (m : Model) (id : ℕ) : Option Tracked := (m.core.live id).map LiveObject.tracked

theorem trackedLive_eq (m : Model) (id : ℕ) :
    m.trackedLive id = (m.live.lookup id).map LiveObject.tracked := by
  unfold trackedLive
  rw [show m.core.live id = (m.live.lookup id).map LiveObject.payload from sansJoin_live m id,
    Option.map_map]
  rfl

theorem trackedLive_created (m : Model) (ts : ℕ) (p : CreatedPayload) (id : ℕ) :
    (m.onEvent ts (.created p)).trackedLive id
      = if id = p.id then some (liveOfCreated ts p).tracked else m.trackedLive id := by
  unfold trackedLive
  rw [show (m.onEvent ts (.created p)).core = _ from core_onCreated (m.setLatestNs ts) ts p]
  dsimp only
  rw [Function.update_apply]
  split <;> rfl

theorem trackedLive_renamed (m : Model) (ts : ℕ) (p : RenamedPayload) (id : ℕ) :
    (m.onEvent ts (.renamed p)).trackedLive id
      = if id = p.id then (m.trackedLive id).map fun o => { o with name := p.name.read }
        else m.trackedLive id := by
  unfold trackedLive
  rw [show (m.onEvent ts (.renamed p)).core = _ from core_onRenamed (m.setLatestNs ts) p]
  dsimp only
  rw [Function.update_apply]
  split
  · next hid =>
    rw [hid, Option.map_map, Option.map_map]
    rfl
  · rfl

theorem trackedLive_destroyed (m : Model) (ts : ℕ) (p : DestroyedPayload) (id : ℕ) :
    (m.onEvent ts (.destroyed p)).trackedLive id
      = if id = p.id then none else m.trackedLive id := by
  cases ho : m.live.lookup p.id with
  | none =>
    have hnop : m.onEvent ts (.destroyed p) = m.setLatestNs ts :=
      onDestroyed_of_none (m := m.setLatestNs ts) ts ho
    rw [hnop]
    split
    · next hid =>
      rw [trackedLive_eq, hid]
      show (m.live.lookup p.id).map _ = none
      rw [ho]
      rfl
    · rfl
  | some o =>
    unfold trackedLive
    rw [show (m.onEvent ts (.destroyed p)).core = _ from
      core_onDestroyed (m := m.setLatestNs ts) ts ho]
    dsimp only
    rw [Function.update_apply]
    split <;> rfl

end Model

/-! ### Runs of the two machines -/

/-- One call of the tracker at `ts`, and the delivery of what it sends. -/
def replayStep (s : Tracker × Model) (x : ℕ × Call) : Tracker × Model :=
  ((s.1.step x.2).1, (s.1.step x.2).2.foldl (fun m r => m.onEvent x.1 r) s.2)

/-- A run of the tracker from the start of the DLL, replayed into `m`. -/
def replay (m : Model) (xs : List (ℕ × Call)) : Tracker × Model :=
  Machine.run replayStep ({}, m) xs

/-- The name that comes with a registration has no zero in it. -/
def Tracker.Call.NameNulFree : Call → Prop
  | .register _ info => NulFree info.name
  | _ => True

instance : (x : Call) → Decidable x.NameNulFree
  | .register _ info => inferInstanceAs (Decidable (NulFree info.name))
  | .setName _ _ => .isTrue trivial
  | .releaseToZero _ => .isTrue trivial

theorem replay_fst (m : Model) (xs : List (ℕ × Call)) :
    (replay m xs).1 = (Tracker.traced (xs.map Prod.snd)).1 := by
  induction xs using List.reverseRecOn with
  | nil => rfl
  | append_singleton xs x ih =>
    unfold replay at ih ⊢
    rw [Machine.run_concat, List.map_append, List.map_singleton, Tracker.traced_concat]
    show ((Machine.run replayStep ({}, m) xs).1.step x.2).1 = _
    rw [ih]
    rfl

/-- **The simulation relation**: the launcher's table holds the tracker's entries
under their ids, and nothing else. -/
structure Sim (t : Tracker) (m : Model) : Prop where
  entry : ∀ obj info, t.objects.lookup obj = some info →
    m.trackedLive info.id = some info.tracked
  only : ∀ id, (m.trackedLive id).isSome →
    ∃ obj info, t.objects.lookup obj = some info ∧ info.id = id
  nulFree : ∀ obj info, t.objects.lookup obj = some info → NulFree info.name

section Calls

variable {t : Tracker} {m : Model} {es : List Record} {obj : ℕ}

theorem Sim.registered (h : Sim t m) (hinv : Tracker.Inv (t, es)) (ts : ℕ) {info : ObjectInfo}
    (hnone : t.objects.lookup obj = none) (hname : NulFree info.name) :
    Sim (t.takeId.put obj (Tracker.stamp info obj t.nextId))
      (m.onEvent ts (Tracker.emitCreated (Tracker.stamp info obj t.nextId))) := by
  set stored := Tracker.stamp info obj t.nextId
  have hnul : NulFree stored.name := hname
  -- a name without a NUL comes over whole, as far as the buffer goes
  obtain ⟨p, hp, hpid, hview⟩ : ∃ p, Tracker.emitCreated stored = .created p ∧
      p.id = t.nextId ∧ (liveOfCreated ts p).tracked = stored.tracked := by
    refine ⟨_, rfl, rfl, ?_⟩
    have hread := read_copy_take hnul
    simp only [liveOfCreated, LiveObject.tracked, ObjectInfo.tracked, hread]
  have hlook : ∀ obj', (t.takeId.put obj stored).objects.lookup obj'
      = if obj' = obj then some stored else t.objects.lookup obj' :=
    fun obj' => lookup_insert_eq obj obj' _ t.objects
  have hlive : ∀ id, (m.onEvent ts (Tracker.emitCreated stored)).trackedLive id
      = if id = t.nextId then some stored.tracked else m.trackedLive id := by
    intro id
    rw [hp, Model.trackedLive_created, hpid, hview]
  constructor
  · intro obj' info' hinfo'
    rw [hlook] at hinfo'
    refine (hlive info'.id).trans ?_
    split at hinfo'
    · cases hinfo'
      rw [if_pos (show stored.id = t.nextId from rfl)]
    · -- the other entries have older ids
      have hlt : info'.id < t.nextId := hinv.id_lt hinfo'
      rw [if_neg (Nat.ne_of_lt hlt)]
      exact h.entry obj' info' hinfo'
  · intro id hid
    replace hid : ((m.onEvent ts (Tracker.emitCreated stored)).trackedLive id).isSome := hid
    rw [hlive] at hid
    split at hid
    · next heq => exact ⟨obj, stored, (hlook obj).trans (if_pos rfl), heq.symm⟩
    · obtain ⟨obj', info', hinfo', hid'⟩ := h.only id hid
      have hne : obj' ≠ obj := by
        rintro rfl
        rw [hnone] at hinfo'
        cases hinfo'
      exact ⟨obj', info', (hlook obj').trans ((if_neg hne).trans hinfo'), hid'⟩
  · intro obj' info' hinfo'
    rw [hlook] at hinfo'
    split at hinfo'
    · cases hinfo'
      exact hnul
    · exact h.nulFree obj' info' hinfo'

theorem Sim.renamed (h : Sim t m) (hinv : Tracker.Inv (t, es)) (ts : ℕ) {info : ObjectInfo}
    (hinfo : t.objects.lookup obj = some info) {incoming : WString} (hnul : NulFree incoming) :
    Sim (t.put obj { info with name := incoming })
      (m.onEvent ts (Tracker.emitRenamed info.id incoming)) := by
  -- the message carries the name as far as the buffer goes
  obtain ⟨p, hp, hpid, hread⟩ : ∃ p, Tracker.emitRenamed info.id incoming = .renamed p ∧
      p.id = info.id ∧ p.name.read = incoming.take (kMaxNameChars - 1) := by
    refine ⟨_, rfl, rfl, ?_⟩
    dsimp only
    rw [take_wcsnlen_of_nulFree hnul]
    exact read_copy_take hnul
  have hlook : ∀ obj', (t.put obj { info with name := incoming }).objects.lookup obj'
      = if obj' = obj then some { info with name := incoming } else t.objects.lookup obj' :=
    fun obj' => lookup_insert_eq obj obj' _ t.objects
  have hlive : ∀ id, (m.onEvent ts (Tracker.emitRenamed info.id incoming)).trackedLive id
      = if id = info.id then
          (m.trackedLive id).map fun o => { o with name := incoming.take (kMaxNameChars - 1) }
        else m.trackedLive id := by
    intro id
    rw [hp, Model.trackedLive_renamed, hpid, hread]
  constructor
  · intro obj' info' hinfo'
    rw [hlook] at hinfo'
    refine (hlive info'.id).trans ?_
    split at hinfo'
    · cases hinfo'
      rw [if_pos rfl, h.entry obj info hinfo]
      rfl
    · next hne =>
      -- another entry has another id, so its object keeps its name
      have hid : info'.id ≠ info.id := fun heq => hne (hinv.one_id obj' obj _ _ hinfo' hinfo heq)
      rw [if_neg hid]
      exact h.entry obj' info' hinfo'
  · intro id hid
    replace hid : ((m.onEvent ts (Tracker.emitRenamed info.id incoming)).trackedLive id).isSome :=
      hid
    have hold : (m.trackedLive id).isSome := by
      rw [hlive] at hid
      split at hid
      · rwa [Option.isSome_map] at hid
      · exact hid
    obtain ⟨obj', info', hinfo', hid'⟩ := h.only id hold
    by_cases ho : obj' = obj
    · subst ho
      rw [hinfo] at hinfo'
      cases hinfo'
      exact ⟨obj', _, (hlook obj').trans (if_pos rfl), hid'⟩
    · exact ⟨obj', info', (hlook obj').trans ((if_neg ho).trans hinfo'), hid'⟩
  · intro obj' info' hinfo'
    rw [hlook] at hinfo'
    split at hinfo'
    · cases hinfo'
      exact hnul
    · exact h.nulFree obj' info' hinfo'

theorem Sim.destroyed (h : Sim t m) (hinv : Tracker.Inv (t, es)) (ts : ℕ) {info : ObjectInfo}
    (hinfo : t.objects.lookup obj = some info) :
    Sim { t with objects := t.objects.erase obj }
      (m.onEvent ts (Tracker.emitDestroyed info.id)) := by
  have hlive : ∀ id, (m.onEvent ts (Tracker.emitDestroyed info.id)).trackedLive id
      = if id = info.id then none else m.trackedLive id :=
    Model.trackedLive_destroyed m ts ⟨info.id⟩
  constructor
  · intro obj' info' hinfo'
    obtain ⟨hne, hinfo₀⟩ := lookup_erase_some hinfo'
    have hid : info'.id ≠ info.id := fun heq => hne (hinv.one_id obj' obj _ _ hinfo₀ hinfo heq)
    refine (hlive info'.id).trans ?_
    rw [if_neg hid]
    exact h.entry obj' info' hinfo₀
  · intro id hid
    replace hid : ((m.onEvent ts (Tracker.emitDestroyed info.id)).trackedLive id).isSome := hid
    rw [hlive] at hid
    split at hid
    · cases hid
    · next hne =>
      obtain ⟨obj', info', hinfo', hid'⟩ := h.only id hid
      refine ⟨obj', info', ?_, hid'⟩
      show (t.objects.erase obj).lookup obj' = some info'
      rw [lookup_erase_eq, if_neg, hinfo']
      rintro rfl
      rw [hinfo] at hinfo'
      cases hinfo'
      exact hne hid'.symm
  · exact fun obj' info' hinfo' => h.nulFree obj' info' (lookup_erase_some hinfo').2

end Calls

/-- **One call keeps the tables in agreement.** -/
theorem sim_step {t : Tracker} {m : Model} {es : List Record} (h : Sim t m)
    (hinv : Tracker.Inv (t, es)) (ts : ℕ) (x : Call) (hx : ¬x.Reregisters t)
    (hname : x.NameNulFree) :
    Sim (t.step x).1 ((t.step x).2.foldl (fun m r => m.onEvent ts r) m) := by
  have heff := Tracker.step_effect t x
  generalize t.step x = out at heff ⊢
  cases heff with
  | idle x hidle => exact h
  | registered obj info hobj =>
    have hnone : t.objects.lookup obj = none := by
      by_contra hsome
      exact hx ⟨hobj, Option.isSome_iff_ne_none.mpr hsome⟩
    exact h.registered hinv ts hnone hname
  | renamed obj name info hinfo =>
    have hnul : NulFree ((name.map Subtype.val).getD []) := by
      cases name with
      | none =>
        intro c hc
        cases hc
      | some s => exact s.2
    exact h.renamed hinv ts hinfo hnul
  | destroyed obj info hinfo => exact h.destroyed hinv ts hinfo

theorem sim_replay {m : Model} (hm : m.live = ∅) (xs : List (ℕ × Call))
    (hregister : ¬Tracker.Reregisters (xs.map Prod.snd)) (hnames : ∀ x ∈ xs, x.2.NameNulFree) :
    Sim (replay m xs).1 (replay m xs).2 := by
  refine Machine.run_induction replayStep ({}, m)
    (fun xs => ¬Tracker.Reregisters (xs.map Prod.snd) ∧ ∀ x ∈ xs, x.2.NameNulFree)
    (fun _ s => Sim s.1 s.2) ?_ ?_ ?_ xs ⟨hregister, hnames⟩
  · rintro xs x ⟨hr, hn⟩
    refine ⟨?_, fun y hy => hn y (List.mem_append_left _ hy)⟩
    rintro ⟨us, y, vs, heq, hy⟩
    exact hr ⟨us, y, vs ++ [x.2], by simp [heq], hy⟩
  · refine ⟨fun obj info h => ?_, fun id h => ?_, fun obj info h => ?_⟩
    · cases h
    · rw [Model.trackedLive_eq, hm] at h
      cases h
    · cases h
  · rintro xs x ⟨hr, hn⟩ hsim
    have hfst := replay_fst m xs
    unfold replay at hfst
    have hno : ¬Tracker.Reregisters (xs.map Prod.snd) := by
      rintro ⟨us, y, vs, heq, hy⟩
      exact hr ⟨us, y, vs ++ [x.2], by simp [heq], hy⟩
    have hinv : Tracker.Inv ((Machine.run replayStep ({}, m) xs).1,
        (Tracker.traced (xs.map Prod.snd)).2) := by
      rw [hfst]
      exact Tracker.inv_traced hno
    refine sim_step hsim hinv x.1 x.2 (fun hx => hr ?_) (hn x (by simp))
    rw [hfst] at hx
    exact ⟨xs.map Prod.snd, x.2, [], by simp, hx⟩

/-- **The launcher's live table is the tracker's table**: the same ids, and for
each the same fields and the same name up to what its field holds, after every
run that registers no tracked pointer. -/
theorem tracker_refined (m : Model) (hm : m.live = ∅) (xs : List (ℕ × Call))
    (hregister : ¬Tracker.Reregisters (xs.map Prod.snd)) (hnames : ∀ x ∈ xs, x.2.NameNulFree) :
    let s := replay m xs
    (∀ id, (s.2.live.lookup id).isSome ↔
      ∃ obj info, s.1.objects.lookup obj = some info ∧ info.id = id) ∧
    ∀ obj info, s.1.objects.lookup obj = some info →
      ∃ o, s.2.live.lookup info.id = some o ∧ o.tracked = info.tracked := by
  intro s
  have hsim : Sim s.1 s.2 := sim_replay hm xs hregister hnames
  have hentry : ∀ obj info, s.1.objects.lookup obj = some info →
      ∃ o, s.2.live.lookup info.id = some o ∧ o.tracked = info.tracked := by
    intro obj info hinfo
    have := hsim.entry obj info hinfo
    rw [Model.trackedLive_eq] at this
    exact Option.map_eq_some_iff.mp this
  refine ⟨fun id => ⟨fun hid => ?_, ?_⟩, hentry⟩
  · refine hsim.only id ?_
    rwa [Model.trackedLive_eq, Option.isSome_map]
  · rintro ⟨obj, info, hinfo, rfl⟩
    obtain ⟨o, ho, -⟩ := hentry obj info hinfo
    rw [ho]
    rfl

/-- An object is created, named twice with the same name, and destroyed; its
address is then used again. -/
def renameRun : List (ℕ × Call) :=
  [(10, .register 4096 { type := .resource, alloc := .committed, sizeBytes := 65536 }),
    (11, .setName 4096 (some ⟨[77, 105, 112], by decide⟩)),
    (12, .setName 4096 (some ⟨[77, 105, 112], by decide⟩)),
    (13, .register 8192 { type := .fence }),
    (14, .releaseToZero 8192),
    (15, .register 8192 { type := .rootSignature })]

theorem tracker_refined_renameRun :
    (replay ({} : Model) renameRun).1.lookupId 8192 = 3 ∧
    ((replay ({} : Model) renameRun).2.live.lookup 2).isSome = false ∧
    ∃ o, (replay ({} : Model) renameRun).2.live.lookup 1 = some o ∧ o.name = [77, 105, 112] := by
  obtain ⟨hids, hentry⟩ := tracker_refined {} rfl renameRun (by decide) (by decide)
  refine ⟨by decide, ?_, ?_⟩
  · rw [← Bool.not_eq_true, hids 2]
    rintro ⟨obj, info, hinfo, hid⟩
    have hmem := Finmap.lookup_isSome.mp (Option.isSome_of_eq_some hinfo)
    have hkeys : (replay ({} : Model) renameRun).1.objects.keys = {4096, 8192} := by decide
    rw [← Finmap.mem_keys, hkeys] at hmem
    simp only [Finset.mem_insert, Finset.mem_singleton] at hmem
    rcases hmem with rfl | rfl
    · have h₁ : ((replay ({} : Model) renameRun).1.objects.lookup 4096).map ObjectInfo.id
          = some 1 := by decide
      rw [hinfo, Option.map_some, hid] at h₁
      cases h₁
    · have h₃ : ((replay ({} : Model) renameRun).1.objects.lookup 8192).map ObjectInfo.id
          = some 3 := by decide
      rw [hinfo, Option.map_some, hid] at h₃
      cases h₃
  · obtain ⟨info, hinfo, hname⟩ : ∃ info, (replay ({} : Model) renameRun).1.objects.lookup 4096
        = some info ∧ (info.id, info.tracked.name) = (1, [77, 105, 112]) :=
      Option.map_eq_some_iff.mp (by decide)
    obtain ⟨o, ho, htracked⟩ := hentry 4096 info hinfo
    obtain ⟨hid, hname⟩ := Prod.mk.inj hname
    rw [hid] at ho
    exact ⟨o, ho, (congrArg Tracked.name htracked).trans hname⟩

end Dx12Track
