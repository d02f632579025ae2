import Mathlib.Data.List.Chain
import Dx12Track.Launcher.Locations

/-!
# The sidecar replays to the model

Whoever reads the sidecar knows of an object's location what its `location` lines
say.  The lines are written in several places, not all of them by `recomputeLoc`.
Here the groups of the lines of each object are compared with its cached
location, in every state of a run in which the sidecar is open.

* `Model.groups` — the groups of the `location` lines of one object, in order.
* `Tracks`, `Settles` — what these say about the object.
* `Model.Logged` — **the invariant**: the last group is the location, no group is
  repeated, and only objects that exist or existed have lines.
* `logged_recomputeLoc`, `logged_dropToOwnLoc` — where lines are written.
* `Model.sidecar_replays` — **the sidecar replays to the model**.
-/

namespace Dx12Track

open Etw (ObjType Group ResidencyOp CounterKind GroupChange Stats)
open Model (liveOfCreated)

/-- The group of a `location` line of the object `id`. -/
def SideLine.groupOf (id : ℕ) : SideLine → Option MemLoc
  | .location _ i g _ => if i = id then some g else none
  | _ => none

/-- `FinishEtw` writes the last line and closes the sidecar. -/
def Step.closesSide : Step → Bool
  | .finish _ _ => true
  | _ => false

/-- The lines of `o` say what `o` says: `h` are their groups. -/
structure Tracks (o : LiveObject) (h : List MemLoc) : Prop where
  reported : o.locReported = true ↔ h ≠ []
  last : ∀ g ∈ h.getLast?, g = o.effLoc

/-- An object without lines has no location, and is not bound. -/
structure Settles (o : LiveObject) (h : List MemLoc) : Prop where
  silent : h = [] → o.effLoc = .unknown
  known : o.ownLoc ≠ .unknown → o.effLoc ≠ .unknown
  bound : o.etwKey ≠ 0 → o.locReported = true

namespace Model

/-- What was produced for the sidecar, in order. -/
def lines (m : Model) : List SideLine := m.sideFile ++ m.sidePrebuf

/-- The groups of the `location` lines of the object `id`, in order. -/
def groups (m : Model) (id : ℕ) : List MemLoc := m.lines.filterMap (SideLine.groupOf id)

/-- The lines describe the objects, but for the objects in `off`, which are being moved.  The
lines in `past` are still there. -/
structure Logged (past : ℕ → List MemLoc) (used off : Set ℕ) (m : Model) : Prop where
  enabled : m.etwEnabled = true
  side : m.side = true
  flushed : m.helloSeen = true → m.sidePrebuf = []
  live_id : ∀ {id o}, m.live.lookup id = some o → o.id = id ∧ id ∈ used
  heard : ∀ {id}, m.groups id ≠ [] → id ∈ used
  grown : ∀ id, past id <+: m.groups id
  fresh : ∀ id, (m.groups id).IsChain (· ≠ ·)
  tracks : ∀ {id o}, m.live.lookup id = some o → Tracks o (m.groups id)
  settles : ∀ {id o}, m.live.lookup id = some o → id ∉ off → Settles o (m.groups id)

variable {past : ℕ → List MemLoc} {used off : Set ℕ} {m : Model}

/-- More objects may be off. -/
theorem Logged.mono (h : m.Logged past used off) {off' : Set ℕ} (hoff : off ⊆ off') :
    m.Logged past used off' :=
  { h with settles := fun ho hid => h.settles ho fun hmem => hid (hoff hmem) }

/-! ### Lines -/

/-- A line goes to the end, to the file or to the buffer. -/
theorem lines_sideLine (hside : m.side = true) (hflushed : m.helloSeen = true → m.sidePrebuf = [])
    (l : SideLine) : (m.sideLine l).lines = m.lines ++ [l] := by
  unfold sideLine lines
  rw [hside]
  cases hs : m.helloSeen with
  | false => exact (List.append_assoc _ _ _).symm
  | true =>
    have hempty : m.sidePrebuf = [] := hflushed hs
    simp [hempty]

/-- It adds a location to those of the object it is about. -/
theorem groups_sideLine (h : m.Logged past used off) (l : SideLine) (id : ℕ) :
    (m.sideLine l).groups id = m.groups id ++ (l.groupOf id).toList := by
  unfold groups
  rw [lines_sideLine h.side h.flushed, List.filterMap_append]
  cases hl : l.groupOf id <;> simp [hl]

/-- It changes nothing else. -/
theorem sideLine_frame (m : Model) (l : SideLine) :
    (m.sideLine l).live = m.live ∧ (m.sideLine l).side = m.side ∧
      (m.sideLine l).helloSeen = m.helloSeen ∧ (m.sideLine l).etwEnabled = m.etwEnabled := by
  unfold sideLine
  split
  · exact ⟨rfl, rfl, rfl, rfl⟩
  · split <;> exact ⟨rfl, rfl, rfl, rfl⟩

/-- After the hello nothing is buffered. -/
theorem flushed_sideLine (hflushed : m.helloSeen = true → m.sidePrebuf = []) (l : SideLine) :
    (m.sideLine l).helloSeen = true → (m.sideLine l).sidePrebuf = [] := by
  unfold sideLine
  split
  · exact hflushed
  · split
    · next hs =>
      intro hseen
      have hseen : m.helloSeen = true := hseen
      simp [hseen] at hs
    · exact hflushed

/-- A line of another kind. -/
theorem Logged.sideLine (h : m.Logged past used off) {l : SideLine}
    (hl : ∀ id, l.groupOf id = none) :
    (m.sideLine l).Logged past used off := by
  obtain ⟨hlive, hside, -, hetw⟩ := sideLine_frame m l
  have hgroups : ∀ id, (m.sideLine l).groups id = m.groups id := by
    intro id
    rw [groups_sideLine h, hl id]
    exact List.append_nil _
  constructor
  case enabled => exact hetw.trans h.enabled
  case side => exact hside.trans h.side
  case flushed => exact flushed_sideLine h.flushed l
  case live_id =>
    rw [hlive]
    exact h.live_id
  case heard =>
    intro id hid
    exact h.heard (hgroups id ▸ hid)
  case grown =>
    intro id
    rw [hgroups]
    exact h.grown id
  case fresh =>
    intro id
    rw [hgroups]
    exact h.fresh id
  case tracks =>
    intro id o ho
    rw [hgroups]
    exact h.tracks (hlive ▸ ho)
  case settles =>
    intro id o ho hid
    rw [hgroups]
    exact h.settles (hlive ▸ ho) hid

/-! ### Changes that leave the locations alone -/

/-- Changes that touch neither the sidecar nor what it says. -/
theorem Logged.of_frame (h : m.Logged past used off) {m' : Model}
    (hetw : m'.etwEnabled = m.etwEnabled)
    (hside : m'.side = m.side) (hhello : m'.helloSeen = m.helloSeen)
    (hfile : m'.sideFile = m.sideFile) (hpre : m'.sidePrebuf = m.sidePrebuf)
    (hlive : ∀ {id o'}, m'.live.lookup id = some o' → ∃ o, m.live.lookup id = some o ∧
      o'.id = o.id ∧ o'.locReported = o.locReported ∧ o'.effLoc = o.effLoc ∧
      (id ∉ off → o'.ownLoc = o.ownLoc ∧ (o'.etwKey ≠ 0 → o.etwKey ≠ 0))) :
    m'.Logged past used off := by
  have hgroups : ∀ id, m'.groups id = m.groups id := by
    intro id
    unfold groups lines
    rw [hfile, hpre]
  constructor
  case enabled => exact hetw.trans h.enabled
  case side => exact hside.trans h.side
  case flushed =>
    rw [hhello, hpre]
    exact h.flushed
  case live_id =>
    intro id o' ho'
    obtain ⟨o, ho, hid, -⟩ := hlive ho'
    rw [hid]
    exact h.live_id ho
  case heard =>
    intro id hid
    exact h.heard (hgroups id ▸ hid)
  case grown =>
    intro id
    rw [hgroups]
    exact h.grown id
  case fresh =>
    intro id
    rw [hgroups]
    exact h.fresh id
  case tracks =>
    intro id o' ho'
    obtain ⟨o, ho, -, hrep, heff, -⟩ := hlive ho'
    have ht := h.tracks ho
    rw [hgroups]
    exact ⟨by rw [hrep]; exact ht.reported, by rw [heff]; exact ht.last⟩
  case settles =>
    intro id o' ho' hid
    obtain ⟨o, ho, -, hrep, heff, hself⟩ := hlive ho'
    obtain ⟨hown, hkey⟩ := hself hid
    have hs := h.settles ho hid
    rw [hgroups]
    refine ⟨by rw [heff]; exact hs.silent, by rw [hown, heff]; exact hs.known, fun hk => ?_⟩
    rw [hrep]
    exact hs.bound (hkey hk)

/-- Changes that do not touch the live objects either. -/
theorem Logged.same (h : m.Logged past used off) {m' : Model}
    (hf : m'.etwEnabled = m.etwEnabled ∧ m'.side = m.side ∧ m'.helloSeen = m.helloSeen ∧
      m'.sideFile = m.sideFile ∧ m'.sidePrebuf = m.sidePrebuf ∧ m'.live = m.live) :
    m'.Logged past used off := by
  obtain ⟨hetw, hside, hhello, hfile, hpre, hlive⟩ := hf
  refine h.of_frame hetw hside hhello hfile hpre fun ho => ?_
  rw [hlive] at ho
  exact ⟨_, ho, rfl, rfl, rfl, fun _ => ⟨rfl, fun hk => hk⟩⟩

/-- The counts are not in the lines. -/
theorem Logged.updStats (h : m.Logged past used off) (f : EtwSnapshot → EtwSnapshot) :
    (m.updStats f).Logged past used off := h.same ⟨rfl, rfl, rfl, rfl, rfl, rfl⟩
theorem Logged.updEtw (h : m.Logged past used off) (key : ℕ) (f : EtwObj → EtwObj) :
    (m.updEtw key f).Logged past used off := h.same ⟨rfl, rfl, rfl, rfl, rfl, rfl⟩

theorem Logged.pushRecent (h : m.Logged past used off) (line : ActivityLine) :
    (m.pushRecent line).Logged past used off := h.same ⟨rfl, rfl, rfl, rfl, rfl, rfl⟩

theorem Logged.driverAgg (h : m.Logged past used off) (e : EtwObj) (sign : ℤ) :
    (m.driverAgg e sign).Logged past used off := by
  refine h.same ?_
  unfold Model.driverAgg
  dsimp only
  split_ifs <;> exact ⟨rfl, rfl, rfl, rfl, rfl, rfl⟩

/-- Neither is the table of bytes by location. -/
theorem Logged.addLoc (h : m.Logged past used off) (o : LiveObject) (sign : ℤ) :
    (m.addLoc o sign).Logged past used off := by
  refine h.same ?_
  unfold Model.addLoc
  split_ifs <;> exact ⟨rfl, rfl, rfl, rfl, rfl, rfl⟩

/-- A write to a live object that leaves its location alone, unless it is being moved. -/
theorem Logged.updLive (h : m.Logged past used off) (id : ℕ) {f : LiveObject → LiveObject}
    (hf : ∀ o, (f o).id = o.id ∧ (f o).locReported = o.locReported ∧ (f o).effLoc = o.effLoc)
    (hset : ∀ o, id ∉ off → (f o).ownLoc = o.ownLoc ∧ ((f o).etwKey ≠ 0 → o.etwKey ≠ 0)) :
    (m.updLive id f).Logged past used off := by
  refine h.of_frame rfl rfl rfl rfl rfl fun {i o'} ho' => ?_
  have ho' : (m.live.modify id f).lookup i = some o' := ho'
  rw [Finmap.lookup_modify] at ho'
  split at ho'
  · next hi =>
    obtain ⟨o, ho, rfl⟩ := Option.map_eq_some_iff.mp ho'
    obtain ⟨hid, hrep, heff⟩ := hf o
    exact ⟨o, hi ▸ ho, hid, hrep, heff, fun hoff => hset o (hi ▸ hoff)⟩
  · exact ⟨o', ho', rfl, rfl, rfl, fun _ => ⟨rfl, fun hk => hk⟩⟩

/-- A branch. -/
theorem Logged.ite (h : m.Logged past used off) {n : Model} (hn : n.Logged past used off) {c : Prop}
    [Decidable c] : (if c then m else n).Logged past used off := by
  split
  · exact h
  · exact hn

/-! ### Location lines -/

/-- **An object is moved and a line says so**: the line names its new location, and not the
last one again. -/
theorem Logged.report {id : ℕ} {o : LiveObject} {l : MemLoc} (h : m.Logged past used {id})
    (ho : m.live.lookup id = some o) (o' : LiveObject) {n : Model}
    (hf : n.etwEnabled = m.etwEnabled ∧ n.side = m.side ∧ n.helloSeen = m.helloSeen ∧
      n.sideFile = m.sideFile ∧ n.sidePrebuf = m.sidePrebuf)
    (hlive : ∀ i, n.live.lookup i = if i = id then some o' else m.live.lookup i)
    (hid : o'.id = id) (hrep : o'.locReported = true) (heff : o'.effLoc = l)
    (hnew : ∀ g ∈ (m.groups id).getLast?, g ≠ l) (hknown : o'.ownLoc ≠ .unknown → l ≠ .unknown)
    (ts : ℕ) (via : Bool) : (n.sideLine (.location ts id l via)).Logged past used ∅ := by
  obtain ⟨hetw, hside, hhello, hfile, hpre⟩ := hf
  have hused := (h.live_id ho).2
  have hflushed : n.helloSeen = true → n.sidePrebuf = [] := by
    rw [hhello, hpre]
    exact h.flushed
  obtain ⟨hlive', hside', -, hetw'⟩ := sideLine_frame n (.location ts id l via)
  -- the new line extends the groups of `id` alone
  have hgroups : ∀ i, (n.sideLine (.location ts id l via)).groups i
      = m.groups i ++ if i = id then [l] else [] := by
    intro i
    unfold groups
    rw [lines_sideLine (hside.trans h.side) hflushed, List.filterMap_append]
    have hlines : n.lines = m.lines := by
      unfold lines
      rw [hfile, hpre]
    rw [hlines]
    by_cases hi : i = id
    · simp [SideLine.groupOf, hi]
    · simp [SideLine.groupOf, hi, Ne.symm hi]
  have hself : (n.sideLine (.location ts id l via)).groups id = m.groups id ++ [l] := by
    rw [hgroups, if_pos rfl]
  have hother : ∀ {i}, i ≠ id → (n.sideLine (.location ts id l via)).groups i = m.groups i := by
    intro i hi
    rw [hgroups, if_neg hi, List.append_nil]
  have hlookup : ∀ {i o₁}, (n.sideLine (.location ts id l via)).live.lookup i = some o₁ →
      (i = id ∧ o₁ = o') ∨ (i ≠ id ∧ m.live.lookup i = some o₁) := by
    intro i o₁ ho₁
    rw [hlive', hlive] at ho₁
    split at ho₁
    · next hi =>
      cases ho₁
      exact .inl ⟨hi, rfl⟩
    · next hi => exact .inr ⟨hi, ho₁⟩
  constructor
  case enabled => exact (hetw'.trans hetw).trans h.enabled
  case side => exact (hside'.trans hside).trans h.side
  case flushed => exact flushed_sideLine hflushed _
  case live_id =>
    intro i o₁ ho₁
    rcases hlookup ho₁ with ⟨rfl, rfl⟩ | ⟨-, ho₁⟩
    · exact ⟨hid, hused⟩
    · exact h.live_id ho₁
  case heard =>
    intro i hi
    by_cases hii : i = id
    · rw [hii]
      exact hused
    · exact h.heard (hother hii ▸ hi)
  case grown =>
    intro i
    rw [hgroups]
    exact (h.grown i).trans (List.prefix_append _ _)
  case fresh =>
    intro i
    by_cases hi : i = id
    · rw [hi, hself]
      -- no two neighbouring groups agree: the new one differs from the last
      refine List.IsChain.append (h.fresh id) (List.isChain_singleton l) ?_
      intro g hg l' hl'
      cases hl'
      exact hnew g hg
    · rw [hother hi]
      exact h.fresh i
  case tracks =>
    intro i o₁ ho₁
    rcases hlookup ho₁ with ⟨rfl, rfl⟩ | ⟨hi, ho₁⟩
    · rw [hself]
      refine ⟨⟨fun _ => by simp, fun _ => hrep⟩, fun g hg => ?_⟩
      rw [List.getLast?_concat] at hg
      cases hg
      exact heff.symm
    · rw [hother hi]
      exact h.tracks ho₁
  case settles =>
    intro i o₁ ho₁ _
    rcases hlookup ho₁ with ⟨rfl, rfl⟩ | ⟨hi, ho₁⟩
    · rw [hself]
      refine ⟨fun hnil => by simp at hnil, fun hown => ?_, fun _ => hrep⟩
      rw [heff]
      exact hknown hown
    · rw [hother hi]
      exact h.settles ho₁ (by simpa using hi)

/-- What has a location of its own has a location. -/
theorem effLoc_known (m : Model) {o : LiveObject} (ho : o.ownLoc ≠ .unknown) :
    (m.effLoc o).1 ≠ .unknown := by
  unfold effLoc
  split
  · split
    · split
      · next hk => exact hk
      · exact ho
    · exact ho
  · exact ho

/-- A move changes one cached location. -/
theorem lookup_moveLoc (m : Model) {id : ℕ} {o : LiveObject} (ho : m.live.lookup id = some o)
    (l : MemLoc) (i : ℕ) :
    (m.moveLoc id o l).live.lookup i
      = if i = id then some (o.setEffLoc l) else m.live.lookup i := by
  rw [live_moveLoc, Finmap.lookup_modify]
  split
  · next hi => rw [hi, ho]; rfl
  · rfl

/-- It changes nothing of the file. -/
theorem moveLoc_frame (m : Model) (id : ℕ) (o : LiveObject) (l : MemLoc) :
    (m.moveLoc id o l).etwEnabled = m.etwEnabled ∧ (m.moveLoc id o l).side = m.side ∧
      (m.moveLoc id o l).helloSeen = m.helloSeen ∧ (m.moveLoc id o l).sideFile = m.sideFile ∧
      (m.moveLoc id o l).sidePrebuf = m.sidePrebuf := by
  have hadd : ∀ (r : Model) (o : LiveObject) (sign : ℤ),
      (r.addLoc o sign).etwEnabled = r.etwEnabled ∧ (r.addLoc o sign).side = r.side ∧
        (r.addLoc o sign).helloSeen = r.helloSeen ∧ (r.addLoc o sign).sideFile = r.sideFile ∧
        (r.addLoc o sign).sidePrebuf = r.sidePrebuf := by
    intro r o sign
    unfold addLoc
    split_ifs <;> exact ⟨rfl, rfl, rfl, rfl, rfl⟩
  obtain ⟨h₁, h₂, h₃, h₄, h₅⟩ := hadd m o (-1)
  obtain ⟨h₁', h₂', h₃', h₄', h₅'⟩ := hadd ((m.addLoc o (-1)).updLive id (·.setEffLoc l))
    { o with effLoc := l } 1
  exact ⟨h₁'.trans h₁, h₂'.trans h₂, h₃'.trans h₃, h₄'.trans h₄, h₅'.trans h₅⟩

/-- **Recomputing a location** brings the object and its lines together again. A line is only
forced for an object that has none. -/
theorem logged_recomputeLoc {id : ℕ} (h : m.Logged past used {id}) (ts : ℕ) {force : Bool}
    (hforce : ∀ o, m.live.lookup id = some o → force = true → o.locReported = false)
    (hbound : ∀ o, m.live.lookup id = some o → o.etwKey ≠ 0 → o.locReported = false →
      force = true) : (m.recomputeLoc id ts force).Logged past used ∅ := by
  unfold recomputeLoc
  cases ho : m.live.lookup id with
  | none =>
    refine { h with settles := fun {i o} hi _ => h.settles hi ?_ }
    rintro rfl
    rw [ho] at hi
    cases hi
  | some o =>
    have hid := (h.live_id ho).1
    have ht := h.tracks ho
    have hempty : o.locReported = false → m.groups id = [] := by
      intro hrep
      by_contra hne
      rw [ht.reported.mpr hne] at hrep
      cases hrep
    dsimp only
    split
    · next hc =>
      -- a line is written
      rw [hid]
      have hmoved : ∀ i, (if decide ((m.effLoc o).1 ≠ o.effLoc) then
          m.moveLoc id o (m.effLoc o).1 else m).live.lookup i
            = if i = id then some (o.setEffLoc (m.effLoc o).1) else m.live.lookup i := by
        intro i
        by_cases hch : (m.effLoc o).1 = o.effLoc
        · rw [if_neg (by simp [hch]), hch]
          split
          · next hi => rw [hi, ho]; rfl
          · rfl
        · rw [if_pos (by simp [hch])]
          exact lookup_moveLoc m ho _ i
      refine h.report ho ((o.setEffLoc (m.effLoc o).1).setLocReported true)
        (n := updLive _ id (·.setLocReported true)) ?_ ?_ hid rfl rfl ?_ (effLoc_known m) ts _
      · split
        · exact moveLoc_frame m id o _
        · exact ⟨rfl, rfl, rfl, rfl, rfl⟩
      · intro i
        refine (Finmap.lookup_modify _ _ _ _).trans ?_
        rw [hmoved]
        by_cases hi : i = id
        · simp only [if_pos hi]
          rfl
        · simp only [if_neg hi]
      · intro g hg
        have hlast := ht.last g hg
        by_cases hch : (m.effLoc o).1 = o.effLoc
        · -- without a change the object has no lines yet
          have hrep : o.locReported = false := by
            simp only [hch, ne_eq, not_true_eq_false, decide_false, Bool.false_or, Bool.or_eq_true,
              Bool.and_eq_true, Bool.not_eq_true'] at hc
            rcases hc with hc | ⟨hc, -⟩
            · exact hforce o ho hc
            · exact hc
          rw [hempty hrep] at hg
          cases hg
        · rw [hlast]
          exact fun heq => hch heq.symm
    · next hc =>
      simp only [Bool.or_eq_true, decide_eq_true_eq, Bool.and_eq_true, Bool.not_eq_true', not_or,
        not_not, not_and, Bool.not_eq_true] at hc
      obtain ⟨⟨hsame, hnoforce⟩, hsilent⟩ := hc
      rw [if_neg (by simp [hsame])]
      refine { h with settles := fun {i o₁} hi _ => ?_ }
      by_cases hii : i = id
      · subst hii
        rw [ho] at hi
        cases hi
        refine ⟨fun hnil => ?_, fun hown => ?_, fun hk => ?_⟩
        · have hrep : o.locReported = false := by
            rw [← Bool.not_eq_true, ht.reported]
            exact fun hne => hne hnil
          rw [← hsame]
          exact hsilent hrep
        · rw [← hsame]
          exact effLoc_known m hown
        · by_contra hrep
          have hrep : o.locReported = false := by simpa using hrep
          rw [hbound o ho hk hrep] at hnoforce
          cases hnoforce
      · exact h.settles hi (by simpa using hii)

/-- What is bound has a line already, so that a child is reported only if it moves. -/
theorem logged_recomputeChild (h : m.Logged past used ∅) (id ts : ℕ) :
    (m.recomputeLoc id ts false).Logged past used ∅ := by
  refine logged_recomputeLoc (h.mono (Set.empty_subset _)) ts (fun _ _ hf => by cases hf) ?_
  intro o ho hk hrep
  rw [(h.settles ho (Set.notMem_empty _)).bound hk] at hrep
  cases hrep

/-- The children of a heap, one by one. -/
theorem logged_recomputeChildren (h : m.Logged past used ∅) (heapId ts : ℕ) :
    (m.recomputeChildren heapId ts).Logged past used ∅ := by
  unfold recomputeChildren
  generalize (m.children.lookup heapId).getD [] = ks
  induction ks generalizing m with
  | nil => exact h
  | cons k ks ih => exact ih (logged_recomputeChild h k ts)

/-- **A child of a dying heap** is moved without `recomputeLoc`. It had a line, since it had the
location of its heap. -/
theorem logged_dropToOwnLoc (h : m.Logged past used ∅) (cid ts : ℕ) :
    (m.dropToOwnLoc cid ts).Logged past used ∅ := by
  unfold dropToOwnLoc
  cases ho : m.live.lookup cid with
  | none => exact h
  | some o =>
    dsimp only
    split
    · next hne =>
      have hs := h.settles ho (Set.notMem_empty _)
      have ht := h.tracks ho
      have hsaid : m.groups cid ≠ [] := by
        intro hnil
        have hunknown := hs.silent hnil
        refine hs.known (fun hown => hne ?_) hunknown
        rw [hunknown, hown]
      have hid := (h.live_id ho).1
      rw [hid]
      refine (h.mono (Set.empty_subset _)).report ho (o.setEffLoc o.ownLoc)
        (moveLoc_frame m cid o _) (lookup_moveLoc m ho _) hid (ht.reported.mpr hsaid) rfl ?_
        (fun hown => hown) ts false
      intro g hg
      rw [ht.last g hg]
      exact hne
    · exact h

/-! ### The join -/

/-- Who loses its partner keeps its location. -/
theorem Logged.unbindOther (h : m.Logged past used off) (key : ℕ) (o : LiveObject) :
    (m.unbindOther key o).Logged past used off := by
  unfold Model.unbindOther
  exact (h.updEtw _ _).ite h

/-- A bound object, or its ETW object, gets a group: it is moved and so are its children. -/
theorem logged_relocate {id : ℕ} (h : m.Logged past used {id}) (g : MemLoc) (ts : ℕ)
    (force : Bool) {o : LiveObject} (ho : m.live.lookup id = some o)
    (hforce : force = true → o.locReported = false)
    (hbound : o.etwKey ≠ 0 → o.locReported = false → force = true) (heap : ℕ) (c : Prop)
    [Decidable c] :
    (if c then ((m.updLive id (·.setOwnLoc g)).recomputeLoc id ts force).recomputeChildren heap ts
      else (m.updLive id (·.setOwnLoc g)).recomputeLoc id ts force).Logged past used ∅ := by
  have hset : (m.updLive id (·.setOwnLoc g)).Logged past used {id} :=
    h.updLive id (fun _ => ⟨rfl, rfl, rfl⟩) fun _ hid => absurd rfl hid
  have hself : ∀ {o₁}, (m.updLive id (·.setOwnLoc g)).live.lookup id = some o₁ →
      o₁ = o.setOwnLoc g := by
    intro o₁ ho₁
    have ho₁ : (m.live.modify id (·.setOwnLoc g)).lookup id = some o₁ := ho₁
    rw [Finmap.lookup_modify_self, ho] at ho₁
    cases ho₁
    rfl
  have hmoved := logged_recomputeLoc hset ts
    (fun o₁ ho₁ => by rw [hself ho₁]; exact hforce)
    (fun o₁ ho₁ => by rw [hself ho₁]; exact hbound)
  exact (logged_recomputeChildren hmoved heap ts).ite hmoved

/-- **A binding writes the location it gives to the object.** -/
theorem logged_bind (h : m.Logged past used ∅) (key id ts : ℕ) :
    (m.bind key id ts).Logged past used ∅ := by
  unfold bind
  cases he : m.etwObjs.lookup key with
  | none => exact h
  | some e =>
    cases ho : m.live.lookup id with
    | none => exact h
    | some o =>
      dsimp only
      have hlive : (m.unbindOther key o).live = m.live := by
        unfold unbindOther
        split <;> rfl
      have hkey : (((m.unbindOther key o).updEtw key fun e =>
          (e.setBoundId o.id).setPending 0).updLive id (·.setEtwKey key)).Logged past used {id} :=
        (((h.mono (Set.empty_subset {id})).unbindOther key o).updEtw key _).updLive id
          (fun _ => ⟨rfl, rfl, rfl⟩) fun _ hid => absurd rfl hid
      have hbound := (hkey.updStats fun t => { t with binds := t.binds + 1 }).sideLine
        (l := .etwBind ts o.id key e.type o.objectPtr false) fun _ => rfl
      have hself : ((((m.unbindOther key o).updEtw key fun e =>
          (e.setBoundId o.id).setPending 0).updLive id (·.setEtwKey key)).updStats fun t =>
            { t with binds := t.binds + 1 }).live.lookup id = some (o.setEtwKey key) := by
        refine (Finmap.lookup_modify_self _ _ _).trans ?_
        refine (congrArg (fun t => (Finmap.lookup id t).map (·.setEtwKey key)) hlive).trans ?_
        rw [ho]
        rfl
      -- the first bind is reported even if nothing is known of the location
      have hmoved := logged_relocate (o := o.setEtwKey key) hbound e.group ts
        (!o.locReported) (by rw [(sideLine_frame _ _).1]; exact hself)
        (fun hf => (Bool.not_eq_true' o.locReported).mp hf)
        (fun _ hrep => (Bool.not_eq_true' o.locReported).mpr hrep) o.id (o.type = .heap)
      have hsize : ∀ r : Model, r.Logged past used ∅ →
          (r.updLive id (·.setDriverSize e.size)).Logged past used ∅ := fun r hr =>
        hr.updLive id (fun _ => ⟨rfl, rfl, rfl⟩) fun _ _ => ⟨rfl, fun hk => hk⟩
      exact (((hsize _ hmoved).sideLine fun _ => rfl).ite (hsize _ hmoved)).ite hmoved

/-- An attempt to bind writes it if it succeeds. -/
theorem logged_tryBindEtw (h : m.Logged past used ∅) (env : Env) (key ts : ℕ) :
    (m.tryBindEtw env key ts).Logged past used ∅ := by
  rcases m.tryBindEtw_cases env key ts with hsame | ⟨e, -, ⟨id, -, hbind⟩ | ⟨x, hlate⟩ | hwait⟩
  · rw [hsame]
    exact h
  · rw [hbind]
    exact logged_bind h key id ts
  · rw [hlate]
    exact ((h.updEtw key _).updStats _).sideLine fun _ => rfl
  · rw [hwait]
    unfold waitForObject
    split
    · exact h.same ⟨rfl, rfl, rfl, rfl, rfl, rfl⟩
    · exact h

/-- **A new group writes the locations it changes.** -/
theorem logged_applyGroup (h : m.Logged past used ∅) (key : ℕ) (g : MemLoc) (ts : ℕ) :
    (m.applyGroup key g ts).Logged past used ∅ := by
  have hg : (m.updEtw key (·.setGroup g)).Logged past used ∅ := h.updEtw key _
  unfold applyGroup
  split
  · exact h
  · next e _ =>
    dsimp only
    split
    · exact hg
    · split
      · exact hg
      · next o ho =>
        refine logged_relocate (hg.mono (Set.empty_subset _)) g ts false ho (fun hf => by cases hf)
          (fun hk hrep => ?_) o.id (o.type = .heap)
        rw [(hg.settles ho (Set.notMem_empty _)).bound hk] at hrep
        cases hrep

/-- A size is a line of another kind. -/
theorem logged_applySize (h : m.Logged past used ∅) (key size ts : ℕ) :
    (m.applySize key size ts).Logged past used ∅ := by
  unfold applySize
  split
  · exact h
  · next e _ =>
    dsimp only
    have hsize := ((h.driverAgg e (-1)).updEtw key (·.setSize size)).driverAgg (e.setSize size) 1
    split
    · exact h
    · split
      · exact hsize
      · split
        · exact hsize
        · refine hsize.ite (Logged.sideLine (Logged.updLive hsize _ ?_ ?_) fun _ => rfl)
          · exact fun _ => ⟨rfl, rfl, rfl⟩
          · exact fun _ _ => ⟨rfl, fun hk => hk⟩

/-- A re-report may bring a group, and may bind. -/
theorem logged_foldRundown (h : m.Logged past used ∅) (env : Env) (key : ℕ) (e : EtwObj)
    (into : ℕ) (old : EtwObj) : (m.foldRundown env key e into old).Logged past used ∅ := by
  have hsized : ∀ r : Model, r.Logged past used ∅ →
      (if e.size ≠ 0 then r.applySize into e.size e.createdTs else r).Logged past used ∅ :=
    fun r hr => (logged_applySize hr into e.size e.createdTs).ite hr
  have hgrouped : ∀ r : Model, r.Logged past used ∅ →
      (if e.group ≠ .unknown ∧ e.group ≠ old.group then
        r.applyGroup into e.group e.createdTs else r).Logged past used ∅ :=
    fun r hr => (logged_applyGroup hr into e.group e.createdTs).ite hr
  have hfolded : ∀ r : Model, r.Logged past used ∅ →
      (((r.setEtwObjs (r.etwObjs.erase key)).updEtw into (·.addAlias key)).setEtwAlias
        (r.etwAlias.insert key into)).Logged past used ∅ :=
    fun r hr => hr.same ⟨rfl, rfl, rfl, rfl, rfl, rfl⟩
  unfold foldRundown
  refine logged_tryBindEtw ?_ env into e.createdTs
  exact hfolded _ ((hgrouped _ (hsized _ (h.updStats _))).driverAgg e (-1))

/-- An address may bind. -/
theorem logged_takeAddress (h : m.Logged past used ∅) (env : Env) (key : ℕ) (e : EtwObj)
    (address : ℕ) : (m.takeAddress env key e address).Logged past used ∅ := by
  unfold takeAddress
  refine logged_tryBindEtw (Logged.sideLine ?_ fun _ => rfl) env key e.createdTs
  exact h.same ⟨rfl, rfl, rfl, rfl, rfl, rfl⟩

/-! ### The ETW sink -/

/-- A new entry is bound to nothing. -/
theorem logged_onEtwObjectCreated (h : m.Logged past used ∅) (ts : ℤ) (libId : ℕ) (type : ObjType)
    (size : ℕ) (group : Group) :
    (m.onEtwObjectCreated ts libId type size group).Logged past used ∅ := by
  have hstored : ∀ (r : Model) (e : EtwObj), r.Logged past used ∅ →
      (r.storeEtw libId e).Logged past used ∅ := by
    intro r e hr
    unfold storeEtw
    dsimp only
    split <;> exact hr.same ⟨rfl, rfl, rfl, rfl, rfl, rfl⟩
  unfold onEtwObjectCreated
  exact h.ite ((hstored _ _ (h.driverAgg _ 1)).updStats _)

/-- **An address keeps the log.** -/
theorem logged_onEtwObjectAddress (h : m.Logged past used ∅) (env : Env) (libId address : ℕ) :
    (m.onEtwObjectAddress env libId address).Logged past used ∅ := by
  rcases m.onEtwObjectAddress_cases env libId address with
    hsame | ⟨key, e, -, -, -, htake | ⟨into, old, -, -, -, -, hfold⟩⟩
  · rw [hsame]
    exact h
  · rw [htake]
    exact logged_takeAddress h env key e address
  · rw [hfold]
    exact logged_foldRundown h env key e into old

/-- The partner of a destroyed entry stays where it was seen last. -/
theorem logged_onEtwObjectDestroyed (h : m.Logged past used ∅) (ts : ℤ) (libId : ℕ) :
    (m.onEtwObjectDestroyed ts libId).Logged past used ∅ := by
  have hunkey : ∀ (r : Model) (key : ℕ) (e : EtwObj), r.Logged past used ∅ →
      (r.unkey key e).Logged past used ∅ := by
    intro r key e hr
    rcases r.unkey_cases key e with hsame | hcut
    · rw [hsame]
      exact hr
    · rw [hcut]
      exact hr.updLive _ (fun _ => ⟨rfl, rfl, rfl⟩) fun _ _ => ⟨rfl, fun hk => absurd rfl hk⟩
  have hdrop : ∀ (r : Model) (key : ℕ) (e : EtwObj), r.Logged past used ∅ →
      (r.dropEtw key e).Logged past used ∅ := by
    intro r key e hr
    have halias : ∀ t, (r.setEtwAlias t).Logged past used ∅ :=
      fun t => hr.same ⟨rfl, rfl, rfl, rfl, rfl, rfl⟩
    have haddr : ∀ t t', ((r.setEtwAlias t).setEtwByAddr t').Logged past used ∅ :=
      fun t t' => hr.same ⟨rfl, rfl, rfl, rfl, rfl, rfl⟩
    unfold dropEtw
    exact (((haddr _ _).ite (halias _)).driverAgg e (-1)).same ⟨rfl, rfl, rfl, rfl, rfl, rfl⟩
  unfold onEtwObjectDestroyed
  split
  · exact h
  · split
    · exact h
    · next key e _ =>
      have hline := h.sideLine (l := .etwObjectDestroyed (m.convTs ts) key) fun _ => rfl
      exact hdrop _ _ _ (hunkey _ _ _ (hline.ite h))

theorem logged_onEtwObjectSize (h : m.Logged past used ∅) (ts : ℤ) (libId size : ℕ) :
    (m.onEtwObjectSize ts libId size).Logged past used ∅ := by
  unfold onEtwObjectSize
  split
  · exact h
  · split
    · exact h
    · exact logged_applySize h _ size _

/-- The exit line names no object. -/
theorem logged_pollChildLocked (h : m.Logged past used ∅) (env : Env) :
    (m.pollChildLocked env).Logged past used ∅ := by
  have hmark : ∀ now code, (m.markExiting now code).Logged past used ∅ := by
    intro now code
    unfold markExiting
    refine Logged.sideLine ?_ fun _ => rfl
    exact h.same ⟨rfl, rfl, rfl, rfl, rfl, rfl⟩
  unfold pollChildLocked
  dsimp only
  split
  · exact h
  · split
    · split
      · exact h
      · split
        · exact h.same ⟨rfl, rfl, rfl, rfl, rfl, rfl⟩
        · exact hmark _ _
    · exact hmark _ _

theorem logged_afterChildExitLocked (h : m.Logged past used ∅) (env : Env) (ts : ℕ) :
    (m.afterChildExitLocked env ts).2.Logged past used ∅ :=
  (logged_pollChildLocked h env).ite h

/-- A group change, ignored or not. -/
theorem logged_onEtwGroupChange (h : m.Logged past used ∅) (c : GroupChange) (env : Env) :
    (m.onEtwGroupChange c env).Logged past used ∅ := by
  have hafter := logged_afterChildExitLocked h env (m.convTs c.ts)
  unfold onEtwGroupChange
  dsimp only
  split
  · exact hafter.updStats _
  · unfold regroup
    dsimp only
    split
    · exact hafter.updStats _
    · exact (logged_applyGroup (hafter.updStats _) _ _ _).ite (hafter.updStats _)

/-- A batch, one by one. -/
theorem logged_onEtwGroupChanges (h : m.Logged past used ∅) (changes : List (GroupChange × Env)) :
    (m.onEtwGroupChanges changes).Logged past used ∅ := by
  have hfold : ∀ r : Model, r.Logged past used ∅ →
      (changes.foldl (fun m c => m.onEtwGroupChange c.1 c.2) r).Logged past used ∅ := by
    induction changes with
    | nil => exact fun r hr => hr
    | cons c cs ih =>
      intro r hr
      exact ih _ (logged_onEtwGroupChange hr c.1 c.2)
  unfold onEtwGroupChanges
  exact h.ite (hfold m h)

/-- The line of a paging operation is no location. -/
theorem logged_onEtwResidency (h : m.Logged past used ∅) (env : Env) (ts : ℤ) (libId : ℕ)
    (type : ObjType) (op : ResidencyOp) :
    (m.onEtwResidency env ts libId type op).Logged past used ∅ := by
  have hafter := logged_afterChildExitLocked h env (m.convTs ts)
  have hline : ∀ (r : Model) (ts : ℕ) (op : ResidencyOp), r.Logged past used ∅ →
      (r.residencyLine ts libId type op).Logged past used ∅ := by
    intro r ts op hr
    unfold residencyLine
    split <;> exact hr.sideLine fun _ => rfl
  unfold onEtwResidency
  refine h.ite (Logged.ite (hafter.updStats _) ?_)
  cases op with
  | makeResident => exact hafter.updStats fun t => { t with makeResident := t.makeResident + 1 }
  | evict => exact hafter.updStats fun t => { t with evict := t.evict + 1 }
  | pageIn => exact hline _ _ _ (hafter.updStats _)
  | pageOut => exact hline _ _ _ (hafter.updStats _)

/-- Nor are the counters. -/
theorem logged_onEtwCounter (h : m.Logged past used ∅) (env : Env) (ts : ℤ) (counterId : ℕ)
    (kind : CounterKind) (bytes : ℕ) :
    (m.onEtwCounter env ts counterId kind bytes).Logged past used ∅ := by
  have hafter := logged_afterChildExitLocked h env (m.convTs ts)
  unfold onEtwCounter
  refine h.ite (h.ite (hafter.ite ?_))
  exact hafter.same ⟨rfl, rfl, rfl, rfl, rfl, rfl⟩

theorem logged_onEtwDiagnostic (h : m.Logged past used ∅) (env : Env) (error : Bool) (code : ℤ)
    (msg : WString) : (m.onEtwDiagnostic env error code msg).Logged past used ∅ := by
  unfold onEtwDiagnostic
  split
  · exact h
  · exact (h.updStats _).sideLine fun _ => rfl

/-! ### The main thread -/

/-- What expires is a wait. -/
theorem logged_expirePending (nowMs : ℕ) (q : List ℕ) {m : Model} (h : m.Logged past used ∅) :
    (expirePending nowMs q m).Logged past used ∅ := by
  induction q generalizing m with
  | nil => exact h.same ⟨rfl, rfl, rfl, rfl, rfl, rfl⟩
  | cons k q ih =>
    unfold expirePending
    split
    · exact ih h
    · split_ifs
      · exact ih h
      · exact h.same ⟨rfl, rfl, rfl, rfl, rfl, rfl⟩
      · exact ih ((h.updEtw k _).updStats _)

/-- What is forgotten is dead already. -/
theorem logged_forgetDead (nowTs : ℕ) (q : List (ℕ × ℕ)) {m : Model} (h : m.Logged past used ∅) :
    (forgetDead nowTs q m).Logged past used ∅ := by
  induction q generalizing m with
  | nil => exact h.same ⟨rfl, rfl, rfl, rfl, rfl, rfl⟩
  | cons x q ih =>
    unfold forgetDead
    split_ifs
    · dsimp only
      split
      · exact ih h
      · exact ih (h.same ⟨rfl, rfl, rfl, rfl, rfl, rfl⟩)
    · exact h.same ⟨rfl, rfl, rfl, rfl, rfl, rfl⟩

/-- **A tick writes no location.** -/
theorem logged_etwTick (h : m.Logged past used ∅) (env : Env) (st : Stats) :
    (m.etwTick env st).Logged past used ∅ := by
  have hqueues : ∀ r : Model, r.Logged past used ∅ →
      (forgetDead (nowTsLocked r env) r.destroyHist r).Logged past used ∅ :=
    fun r hr => logged_forgetDead _ _ hr
  have hdone := hqueues _
    (logged_expirePending env.nowMs m.pendingQ (h.updStats fun t => { t with session := st }))
  have hstats : ∀ r : Model, r.Logged past used ∅ →
      ({ r with lastSecondMs := env.nowMs } : Model).refreshJoinStats.Logged past used ∅ :=
    fun r hr => hr.same ⟨rfl, rfl, rfl, rfl, rfl, rfl⟩
  unfold etwTick
  dsimp only
  split
  · exact h
  · split
    · exact hdone
    · refine Logged.ite (Logged.sideLine (hstats _ hdone) fun _ => rfl) (hstats _ hdone)

/-! ### Records from the pipe -/

/-- The lines that waited for the hello record follow it, in their order. -/
theorem logged_onHello (h : m.Logged past used ∅) (ts : ℕ) (p : HelloPayload) :
    (m.onHello ts p).Logged past used ∅ := by
  have hgroups : ∀ id, (m.onHello ts p).groups id = m.groups id := by
    intro id
    unfold onHello
    dsimp only
    split
    · unfold groups lines
      simp only [List.append_assoc, List.append_nil, List.filterMap_append]
      rfl
    · rfl
  have hlive : (m.onHello ts p).live = m.live := by
    unfold onHello
    dsimp only
    split <;> rfl
  refine ⟨?_, ?_, fun _ => ?_, hlive ▸ h.live_id, fun hid => h.heard (hgroups _ ▸ hid),
    fun id => hgroups id ▸ h.grown id, fun id => hgroups id ▸ h.fresh id, ?_, ?_⟩
  · unfold onHello
    dsimp only
    split <;> exact h.enabled
  · unfold onHello
    dsimp only
    split <;> exact h.side
  · unfold onHello
    dsimp only
    split
    · rfl
    · next hc =>
      rw [h.enabled, h.side] at hc
      exact h.flushed (by simpa using hc)
  · intro id o ho
    rw [hgroups]
    exact h.tracks (hlive ▸ ho)
  · intro id o ho hid
    rw [hgroups]
    exact h.settles (hlive ▸ ho) hid

/-- A new object has no lines, and no location to report. -/
theorem Logged.insert (h : m.Logged past used ∅) (ts : ℕ) (p : CreatedPayload)
    (hnew : p.id ∉ used) :
    (m.setLive (m.live.insert p.id (liveOfCreated ts p))).Logged past (insert p.id used) ∅ := by
  have hnil : m.groups p.id = [] := by
    by_contra hne
    exact hnew (h.heard hne)
  have hlookup : ∀ {i o}, (m.live.insert p.id (liveOfCreated ts p)).lookup i = some o →
      (i = p.id ∧ o = liveOfCreated ts p) ∨ m.live.lookup i = some o := by
    intro i o ho
    by_cases hi : i = p.id
    · subst hi
      rw [Finmap.lookup_insert] at ho
      cases ho
      exact .inl ⟨rfl, rfl⟩
    · rw [Finmap.lookup_insert_of_ne _ hi] at ho
      exact .inr ho
  refine ⟨h.enabled, h.side, h.flushed, fun ho => ?_, fun hid => Or.inr (h.heard hid), h.grown,
    h.fresh, fun {i o} ho => ?_, fun {i o} ho hid => ?_⟩
  · rcases hlookup ho with ⟨rfl, rfl⟩ | ho
    · exact ⟨rfl, .inl rfl⟩
    · obtain ⟨hid, hmem⟩ := h.live_id ho
      exact ⟨hid, .inr hmem⟩
  · show Tracks o (m.groups i)
    rcases hlookup ho with ⟨rfl, rfl⟩ | ho
    · rw [hnil]
      exact ⟨⟨fun hf => Bool.noConfusion hf, fun hne => absurd rfl hne⟩, fun g hg => by cases hg⟩
    · exact h.tracks ho
  · show Settles o (m.groups i)
    rcases hlookup ho with ⟨rfl, rfl⟩ | ho
    · exact ⟨fun _ => rfl, fun hown => absurd rfl hown, fun hk => absurd rfl hk⟩
    · exact h.settles ho hid

/-- **The first location of an object** under a located heap is its first line. -/
theorem logged_firstLoc {id : ℕ} (h : m.Logged past used ∅) (hnil : m.groups id = []) (ts : ℕ) :
    (m.firstLoc id ts).Logged past used ∅ := by
  unfold firstLoc
  cases ho : m.live.lookup id with
  | none => exact h
  | some o =>
    dsimp only
    have ht := h.tracks ho
    have hs := h.settles ho (Set.notMem_empty _)
    -- nothing was reported, since there is no line
    have hrep : o.locReported = false := by
      by_contra hne
      exact ht.reported.mp (by simpa using hne) hnil
    generalize (m.effLoc o).1 = l
    have hlookup : ∀ {i o'}, (m.updLive id (·.setEffLoc l)).live.lookup i = some o' →
        (i = id ∧ o' = o.setEffLoc l) ∨ (i ≠ id ∧ m.live.lookup i = some o') := by
      intro i o' ho'
      have ho' : (m.live.modify id (·.setEffLoc l)).lookup i = some o' := ho'
      rw [Finmap.lookup_modify] at ho'
      split at ho'
      · next hi =>
        rw [hi, ho] at ho'
        cases ho'
        exact .inl ⟨hi, rfl⟩
      · next hi => exact .inr ⟨hi, ho'⟩
    -- all but `id` agree with their lines
    have hset : (m.updLive id (·.setEffLoc l)).Logged past used {id} := by
      refine ⟨h.enabled, h.side, h.flushed, fun ho' => ?_, h.heard, h.grown, h.fresh,
        fun {i o'} ho' => ?_, fun {i o'} ho' hi => ?_⟩
      · rcases hlookup ho' with ⟨rfl, rfl⟩ | ⟨-, ho'⟩
        · exact ⟨(h.live_id ho).1, (h.live_id ho).2⟩
        · exact h.live_id ho'
      · show Tracks o' (m.groups i)
        rcases hlookup ho' with ⟨rfl, rfl⟩ | ⟨-, ho'⟩
        · refine ⟨ht.reported, fun g hg => ?_⟩
          rw [hnil] at hg
          cases hg
        · exact h.tracks ho'
      · rcases hlookup ho' with ⟨rfl, rfl⟩ | ⟨-, ho'⟩
        · exact absurd rfl hi
        · exact h.settles ho' (Set.notMem_empty _)
    have hcounted := hset.addLoc { o with effLoc := l } 1
    have hself : ∀ {o'},
        ((m.updLive id (·.setEffLoc l)).addLoc { o with effLoc := l } 1).live.lookup id = some o' →
          o' = o.setEffLoc l := by
      intro o' ho'
      rw [live_addLoc] at ho'
      rcases hlookup ho' with ⟨-, heq⟩ | ⟨hne, -⟩
      · exact heq
      · exact absurd rfl hne
    split
    · refine logged_recomputeLoc hcounted ts (fun o' ho' _ => ?_) fun _ _ _ _ => rfl
      rw [hself ho']
      exact hrep
    · next hl =>
      have hl : l = .unknown := not_not.mp hl
      refine { hcounted with settles := fun {i o'} ho' _ => ?_ }
      -- an unknown location is not logged, and silence is what that says
      by_cases hi : i = id
      · subst hi
        have hgroups : ((m.updLive i (·.setEffLoc l)).addLoc { o with effLoc := l } 1).groups i
            = m.groups i := by
          unfold addLoc
          split <;> rfl
        rw [hself ho', hgroups]
        refine ⟨fun _ => hl, fun hown => absurd (hs.silent hnil) (hs.known hown), fun hk => ?_⟩
        exact absurd hnil (ht.reported.mp (hs.bound hk))
      · exact hcounted.settles ho' (by simpa using hi)

/-- A created object may be bound at once. -/
theorem logged_bindReported (h : m.Logged past used ∅) (id ts : ℕ) :
    (m.bindReported id ts).Logged past used ∅ := by
  rcases m.bindReported_cases id ts with hsame | ⟨o, key, e, -, -, -, -, -, hbind⟩
  · rw [hsame]
    exact h
  · rw [hbind]
    exact logged_bind h key id ts

/-- **A `created` record starts the history of its object.** -/
theorem logged_onCreated (h : m.Logged past used ∅) (ts : ℕ) (p : CreatedPayload)
    (hnew : p.id ∉ used) : (m.onCreated ts p).Logged past (insert p.id used) ∅ := by
  have hnil : m.groups p.id = [] := by
    by_contra hne
    exact hnew (h.heard hne)
  have hin : ((m.setLive (m.live.insert p.id (liveOfCreated ts p))).setSnapshot
      (countCreated m.s (liveOfCreated ts p)
        (m.live.insert p.id (liveOfCreated ts p)).keys.card)).Logged past (insert p.id used) ∅ :=
    (h.insert ts p hnew).same ⟨rfl, rfl, rfl, rfl, rfl, rfl⟩
  unfold onCreated
  refine Logged.pushRecent (Logged.ite ?_ hin) _
  unfold etwOnCreated
  split
  · exact hin
  · next o _ =>
    refine logged_bindReported (logged_firstLoc ?_ ?_ ts) _ ts
    · have hindex : ∀ r : Model, r.Logged past (insert p.id used) ∅ →
          (r.indexOccupant p.id o).Logged past (insert p.id used) ∅ := by
        intro r hr
        unfold indexOccupant
        split
        · exact hr
        · have hset := hr.updLive p.id (f := (·.setPrevDestroyNs (r.prevDeath o)))
            (fun _ => ⟨rfl, rfl, rfl⟩) fun _ _ => ⟨rfl, fun hk => hk⟩
          exact hset.same ⟨rfl, rfl, rfl, rfl, rfl, rfl⟩
      have hchild : ∀ r : Model, r.Logged past (insert p.id used) ∅ →
          (r.addChild o).Logged past (insert p.id used) ∅ := by
        intro r hr
        unfold addChild
        split
        · exact hr.same ⟨rfl, rfl, rfl, rfl, rfl, rfl⟩
        · exact hr
      exact hchild _ (hindex _ hin)
    · refine Eq.trans ?_ hnil
      unfold addChild indexOccupant
      split_ifs <;> rfl

/-- The children of a dying heap are written one by one. -/
theorem logged_dropChildren (h : m.Logged past used ∅) (o : LiveObject) (ts : ℕ) :
    (m.dropChildren o ts).Logged past used ∅ := by
  have hfold : ∀ (ks : List ℕ) (r : Model), r.Logged past used ∅ →
      (ks.foldl (fun m cid => m.dropToOwnLoc cid ts) r).Logged past used ∅ := by
    intro ks
    induction ks with
    | nil => exact fun r hr => hr
    | cons c cs ih => exact fun r hr => ih _ (logged_dropToOwnLoc hr c ts)
  unfold dropChildren
  split
  · split
    · exact h
    · exact hfold _ _ (h.same ⟨rfl, rfl, rfl, rfl, rfl, rfl⟩)
  · exact h

/-- The ETW part of a death, block by block. -/
theorem logged_etwOnDestroyed (h : m.Logged past used ∅) (id ts : ℕ) :
    (m.etwOnDestroyed id ts).Logged past used ∅ := by
  have hforget : ∀ (r : Model) (o : LiveObject), r.Logged past used ∅ →
      (r.forgetOccupant o ts).Logged past used ∅ := by
    intro r o hr
    refine hr.same ?_
    unfold forgetOccupant
    dsimp only
    split_ifs <;> exact ⟨rfl, rfl, rfl, rfl, rfl, rfl⟩
  have horphan : ∀ (r : Model) (o : LiveObject), r.Logged past used ∅ →
      (r.orphanBound id o ts).Logged past used ∅ := by
    intro r o hr
    unfold orphanBound
    split
    · exact hr
    · refine Logged.updLive ?_ _ (fun _ => ⟨rfl, rfl, rfl⟩) fun _ _ =>
        ⟨rfl, fun hk => absurd rfl hk⟩
      split
      · exact hr
      · exact (hr.updEtw _ _).ite hr
  have hremove : ∀ (r : Model) (o : LiveObject), r.Logged past used ∅ →
      (r.removeChild o).Logged past used ∅ := by
    intro r o hr
    refine hr.same ?_
    unfold removeChild
    dsimp only
    split
    · split
      · exact ⟨rfl, rfl, rfl, rfl, rfl, rfl⟩
      · split <;> exact ⟨rfl, rfl, rfl, rfl, rfl, rfl⟩
    · exact ⟨rfl, rfl, rfl, rfl, rfl, rfl⟩
  unfold etwOnDestroyed
  split
  · exact h
  · exact logged_dropChildren
      (hremove _ _ (horphan _ _ (hforget _ _ (h.addLoc _ (-1))))) _ ts

/-- **A `destroyed` record keeps the log.** -/
theorem logged_onDestroyed (h : m.Logged past used ∅) (ts : ℕ) (p : DestroyedPayload) :
    (m.onDestroyed ts p).Logged past used ∅ := by
  unfold onDestroyed
  split
  · exact h
  · next o _ =>
    have hetw := (logged_etwOnDestroyed h p.id ts).ite h (c := m.etwEnabled = true)
    refine hetw.of_frame rfl rfl rfl rfl rfl fun {i o'} ho' => ?_
    refine ⟨o', ?_, rfl, rfl, rfl, fun _ => ⟨rfl, fun hk => hk⟩⟩
    have ho' : (Finmap.erase p.id (Model.live _)).lookup i = some o' := ho'
    by_cases hi : i = p.id
    · rw [hi, Finmap.lookup_erase] at ho'
      cases ho'
    · rwa [Finmap.lookup_erase_ne hi] at ho'

/-! ### Runs -/

/-- **One call keeps the sidecar true.** -/
theorem logged_step {xs : List Step} (h : m.Logged past {id | id ∈ createdIds xs} ∅) {x : Step}
    (hopen : x.closesSide = false) (hfresh : (createdIds (xs ++ [x])).Nodup) :
    (m.step x).Logged past {id | id ∈ createdIds (xs ++ [x])} ∅ := by
  have hids : createdIds (xs ++ [x]) = createdIds xs ++ x.createdId.toList := by
    rw [createdIds_append]
    cases hx : x.createdId <;> simp [createdIds, hx]
  rw [hids] at hfresh ⊢
  have old : x.createdId = none → (m.step x).Logged past {id | id ∈ createdIds xs} ∅ →
      (m.step x).Logged past {id | id ∈ createdIds xs ++ x.createdId.toList} ∅ := by
    intro hx hm
    rw [hx, Option.toList_none, List.append_nil]
    exact hm
  cases x with
  | event ts r =>
    have hl : (m.setLatestNs ts).Logged past {id | id ∈ createdIds xs} ∅ :=
      h.same ⟨rfl, rfl, rfl, rfl, rfl, rfl⟩
    cases r with
    | created p =>
      have hnew : p.id ∉ createdIds xs := fun hmem =>
        (List.nodup_append.mp hfresh).2.2 p.id hmem p.id List.mem_cons_self rfl
      have hused : {id | id ∈ createdIds xs ++ (Step.event ts (.created p)).createdId.toList}
          = insert p.id {id | id ∈ createdIds xs} := by
        ext i
        simp [Step.createdId, or_comm]
      rw [hused]
      exact logged_onCreated hl ts p hnew
    | renamed p =>
      exact old rfl (hl.updLive _ (fun _ => ⟨rfl, rfl, rfl⟩) fun _ _ => ⟨rfl, fun hk => hk⟩)
    | destroyed p => exact old rfl (logged_onDestroyed hl ts p)
    | hello p => exact old rfl (logged_onHello hl ts p)
    | goodbye p => exact old rfl (hl.same ⟨rfl, rfl, rfl, rfl, rfl, rfl⟩)
    | other => exact old rfl hl
  | objectCreated ts libId type size group =>
    exact old rfl (logged_onEtwObjectCreated h ts libId type size group)
  | objectAddress env libId address =>
    exact old rfl (logged_onEtwObjectAddress h env libId address)
  | objectDestroyed ts libId => exact old rfl (logged_onEtwObjectDestroyed h ts libId)
  | objectSize ts libId size => exact old rfl (logged_onEtwObjectSize h ts libId size)
  | groupChanges changes => exact old rfl (logged_onEtwGroupChanges h changes)
  | residency env ts libId type op =>
    exact old rfl (logged_onEtwResidency h env ts libId type op)
  | counter env ts counterId kind bytes =>
    exact old rfl (logged_onEtwCounter h env ts counterId kind bytes)
  | diagnostic env error code msg => exact old rfl (logged_onEtwDiagnostic h env error code msg)
  | tick env st => exact old rfl (logged_etwTick h env st)
  | pollChild env => exact old rfl (logged_pollChildLocked h env)
  | setChildProcess => exact old rfl (h.same ⟨rfl, rfl, rfl, rfl, rfl, rfl⟩)
  | setChildExitQpc exitQpc =>
    refine old rfl ?_
    show (m.setChildExitQpc exitQpc).Logged past _ ∅
    unfold setChildExitQpc
    split
    · exact h
    · exact h.same ⟨rfl, rfl, rfl, rfl, rfl, rfl⟩
  | markChildExited exitCode => exact old rfl (h.same ⟨rfl, rfl, rfl, rfl, rfl, rfl⟩)
  | setEtwRunning running => exact old rfl (h.same ⟨rfl, rfl, rfl, rfl, rfl, rfl⟩)
  | finish env st => cases hopen

/-- Nothing is written yet, and nothing is alive. -/
theorem logged_start (etw : EtwOptions) (hopen : etw.opened = true) :
    (start etw).Logged (fun _ => []) {id | id ∈ createdIds []} ∅ where
  enabled := rfl
  side := hopen
  flushed := fun _ => rfl
  live_id := fun ho => by cases ho
  heard := fun hid => absurd rfl hid
  grown := fun _ => List.prefix_refl _
  fresh := fun _ => List.isChain_nil
  tracks := fun ho => by cases ho
  settles := fun ho => by cases ho

/-- Whatever else is called between them, as long as the sidecar is not closed. -/
theorem logged_after {us : List Step} (h : m.Logged past {id | id ∈ createdIds us} ∅)
    (vs : List Step) (hopen : ∀ x ∈ vs, x.closesSide = false)
    (hfresh : (createdIds (us ++ vs)).Nodup) :
    (m.after vs).Logged past {id | id ∈ createdIds (us ++ vs)} ∅ := by
  refine Machine.run_induction step m
    (fun vs => (∀ x ∈ vs, x.closesSide = false) ∧ (createdIds (us ++ vs)).Nodup)
    (fun vs n => n.Logged past {id | id ∈ createdIds (us ++ vs)} ∅) ?_ ?_ ?_ vs ⟨hopen, hfresh⟩
  · intro vs x hl
    refine ⟨fun y hy => hl.1 y (List.mem_append_left _ hy), ?_⟩
    have hnodup := hl.2
    rw [← List.append_assoc, createdIds_append] at hnodup
    exact (List.nodup_append.mp hnodup).1
  · rw [List.append_nil]
    exact h
  · intro vs x hl hvs
    rw [← List.append_assoc]
    exact logged_step hvs (hl.1 x (List.mem_append_right _ List.mem_cons_self))
      (by rw [List.append_assoc]; exact hl.2)

/-- The lines of `m` are still there in `m'`. -/
theorem Logged.restart (h : m.Logged past used off) : m.Logged m.groups used off :=
  { h with grown := fun _ => List.prefix_refl _ }

/-- Where a reader of the sidecar takes the object `id` to be. -/
def replayed (m : Model) (id : ℕ) : MemLoc := (m.groups id).getLast?.getD .unknown

/-- What a reader works out last is what is cached. -/
theorem Logged.replayed_eq (h : m.Logged past used ∅) {id : ℕ} {o : LiveObject}
    (ho : m.live.lookup id = some o) : m.replayed id = o.effLoc := by
  unfold replayed
  cases hlast : (m.groups id).getLast? with
  | none =>
    exact ((h.settles ho (Set.notMem_empty _)).silent (List.getLast?_eq_none_iff.mp hlast)).symm
  | some g => exact (h.tracks ho).last g hlast

/-- **The sidecar replays to the model.**  Whatever the records of the pipe and the calls of
ETW, a reader of the sidecar knows the location of every live object, no line repeats the one
before it, and an object that was ever bound has a line. -/
theorem sidecar_replays (etw : EtwOptions) (hside : etw.opened = true) (xs : List Step)
    (hfresh : (createdIds xs).Nodup) (hopen : ∀ x ∈ xs, x.closesSide = false) :
    let m := (start etw).after xs
    (∀ id o, m.live.lookup id = some o → m.replayed id = o.effLoc) ∧
    (ParentsAreHeaps (createdPayloads xs) → SizesFit xs →
      ∀ id o, m.live.lookup id = some o → m.replayed id = (m.effLoc o).1) ∧
    (∀ id, (m.groups id).IsChain (· ≠ ·)) ∧
    ∀ us, us <+: xs → ∀ id o, ((start etw).after us).live.lookup id = some o → o.etwKey ≠ 0 →
      m.groups id ≠ [] := by
  intro m
  have hrun : ∀ us, us <+: xs →
      ((start etw).after us).Logged (fun _ => []) {id | id ∈ createdIds us} ∅ := by
    rintro us ⟨vs, rfl⟩
    rw [createdIds_append] at hfresh
    exact logged_after (logged_start etw hside) us
      (fun x hx => hopen x (List.mem_append_left _ hx)) (List.nodup_append.mp hfresh).1
  have hm := hrun xs (List.prefix_refl _)
  refine ⟨fun id o ho => hm.replayed_eq ho, fun hheaps hsize id o ho => ?_, hm.fresh, ?_⟩
  · rw [hm.replayed_eq ho]
    exact (located_after etw xs hfresh hheaps hsize).cached id o (Set.notMem_empty _) ho
  · intro us hus id o ho hk
    have hmid := hrun us hus
    have hsaid : ((start etw).after us).groups id ≠ [] := (hmid.tracks ho).reported.mp
      ((hmid.settles ho (Set.notMem_empty _)).bound hk)
    obtain ⟨vs, rfl⟩ := hus
    have hlater := logged_after hmid.restart vs
      (fun x hx => hopen x (List.mem_append_right _ hx)) hfresh
    intro hnil
    have hgrown := hlater.grown id
    rw [← after_append, show groups _ id = [] from hnil] at hgrown
    exact hsaid (List.prefix_nil.mp hgrown)

/-- The resource follows its heap to system memory, and its last line says so. -/
theorem sidecar_replays_heapMoveRun :
    let m := (start ⟨true, [], [], 5000⟩).after heapMoveRun
    m.groups 2 = [.vram, .sys] ∧ m.replayed 2 = .sys ∧ m.groups 1 ≠ [] := by
  obtain ⟨hreplayed, -, -, hbound⟩ := sidecar_replays ⟨true, [], [], 5000⟩ rfl heapMoveRun
    (by decide) (by decide)
  refine ⟨by decide, ?_, ?_⟩
  · obtain ⟨o, ho, heff⟩ : ∃ o, ((start ⟨true, [], [], 5000⟩).after heapMoveRun).live.lookup 2
        = some o ∧ o.effLoc = .sys := ⟨_, rfl, by decide⟩
    exact (hreplayed 2 o ho).trans heff
  · exact hbound heapMoveRun (List.prefix_refl _) 1 _ rfl (by decide)

end Model

end Dx12Track
