import Dx12Track.Launcher.Locations
import Dx12Track.Launcher.Settled

/-!
# The exit cutoff and the rundowns

Once the child was seen exiting, a group change stamped later than the cutoff is
taken for teardown and ignored.  A rundown re-report carries a group as well, and
`onEtwObjectAddress` applies it to the object it repeats without asking for the
cutoff.

* `Locations`, `Model.locations` — the locations of the live objects, and the bytes by location.
* `Model.Folds` — a re-report is merged into the owner of its address.
* `Model.locations_foldRundown_of_same` — a merge that brings no new group to a
  bound object moves nothing: the owner of an address never fits its occupant.
* `Model.ownLoc_foldRundown` — any other merge moves the tracked object.
* `Model.cutoff_obeyed_iff` — **when the rundowns obey the cutoff**.
-/

namespace Dx12Track

open Etw (ObjType Group GroupChange)

/-- Where the live objects are, and the bytes by location. -/
@[ext] structure Locations where
  ownLoc : ℕ → Option MemLoc
  effLoc : ℕ → Option MemLoc
  locBytes : ℕ → MemLoc → ℕ

/-! ### A merge, in the join -/

namespace Join

/-- What a refresh leaves of the old object. -/
theorem etw_refresh_self {j : Join} {into : ℕ} {old : EtwObj} (hold : j.etw into = some old)
    (e : EtwObj) : ∃ old', (j.refresh e into old).etw into = some old' ∧
      old'.boundId = old.boundId ∧
      old'.group = if e.group ≠ .unknown ∧ e.group ≠ old.group then e.group else old.group := by
  have hsized : ∃ old', (if e.size ≠ 0 then j.applySize into e.size else j).etw into = some old' ∧
      old'.boundId = old.boundId ∧ old'.group = old.group := by
    split
    · rw [etw_applySize, etw_updEtw, if_pos rfl, hold]
      refine ⟨_, rfl, ?_⟩
      dsimp only
      split <;> exact ⟨rfl, rfl⟩
    · exact ⟨old, hold, rfl, rfl⟩
  obtain ⟨old₁, hold₁, hbound, hgroup⟩ := hsized
  unfold refresh
  dsimp only
  split
  · rw [etw_applyGroup, etw_updEtw, if_pos rfl, hold₁]
    exact ⟨_, rfl, hbound, rfl⟩
  · exact ⟨old₁, hold₁, hbound, hgroup⟩

end Join

namespace Model

def locations (m : Model) : Locations where
  ownLoc := fun id => (m.live.lookup id).map LiveObject.ownLoc
  effLoc := fun id => (m.live.lookup id).map LiveObject.effLoc
  locBytes := m.s.etw.locBytes

theorem locations_of_places {m m' : Model} (h : m'.places = m.places) :
    m'.locations = m.locations := by
  have heff : ∀ id, (m'.live.lookup id).map LiveObject.effLoc
      = (m.live.lookup id).map LiveObject.effLoc := by
    intro id
    have hid := congrArg (fun p : Places => (p.live id).map LiveObject.effLoc) h
    rwa [places_live, places_live, Option.map_map, Option.map_map] at hid
  exact Locations.ext (funext (own_of_places h)) (funext heff) (congrArg Places.locBytes h)

/-- The address `address` of the object `e` that is reported under `key` belongs to `old`, which
`e` repeats. -/
structure Folds (m : Model) (libId address key : ℕ) (e : EtwObj) (into : ℕ) (old : EtwObj) :
    Prop where
  report : m.findEtw libId = some (key, e)
  placed : address ≠ 0
  unplaced : e.address = 0
  owner : m.etwByAddr.lookup address = some into
  other : into ≠ key
  stored : m.etwObjs.lookup into = some old
  same : old.type = e.type

variable {m : Model}

theorem Folds.onEtwObjectAddress {libId address key into : ℕ} {e old : EtwObj}
    (h : m.Folds libId address key e into old) (hetw : m.etwEnabled = true) (env : Env) :
    m.onEtwObjectAddress env libId address = m.foldRundown env key e into old := by
  unfold Model.onEtwObjectAddress
  rw [if_neg (by simp [hetw, h.placed]), h.report]
  dsimp only
  rw [if_neg (not_not.mpr h.unplaced), h.owner]
  dsimp only
  rw [if_neg h.other, h.stored]
  exact if_pos h.same

/-- The two objects and the address, in the join. -/
theorem Folds.join {libId address key into : ℕ} {e old : EtwObj}
    (h : m.Folds libId address key e into old) (hinv : m.join.Inv) :
    m.join.etw key = some e.noWait ∧ m.join.etw into = some old.noWait ∧
      m.join.byAddr old.noWait.address = some into := by
  have he : m.join.find libId = some (key, e.noWait) := by
    rw [join_findEtw, h.report]
    rfl
  have hold : m.join.etw into = some old.noWait := by
    rw [join_etw, h.stored]
    rfl
  obtain ⟨-, old', hold', haddr⟩ := hinv.index.byAddr h.owner
  rw [hold] at hold'
  cases hold'
  exact ⟨(Join.find_some he).2, hold, haddr ▸ h.owner⟩

/-! ### What moves nothing -/

/-- An attempt to bind that must fail. -/
theorem places_tryBindEtw_of_quiet {alone : Prop} {key : ℕ}
    (hq : ∀ e, m.etwObjs.lookup key = some e → m.join.QuietIf alone e.noWait) (env : Env) (ts : ℕ) :
    (m.tryBindEtw env key ts).places = m.places := by
  rcases m.tryBindEtw_cases env key ts with
    hsame | ⟨e, he, ⟨id, hbt, -⟩ | ⟨x, hlate⟩ | hwait⟩
  · rw [hsame]
  · -- the occupant of the address is not the object it looks for
    obtain ⟨hocc, o, ho, hcan⟩ := bindTarget_some hbt
    obtain ⟨hb, horph, hcomp, -⟩ := (canBind_iff e o).mp hcan
    have hno := (hq e he hb horph (bindable_of_compatible hcomp)).1 id o.noLoc hocc
      (by rw [join_live, ho]; rfl)
    rw [canBind_noWait_noLoc, hcan] at hno
    cases hno
  · rw [hlate, places_attributeLate]
  · rw [hwait, places_waitForObject]

/-- A group that concerns no tracked object. -/
theorem places_applyGroup_of_unbound {key : ℕ}
    (h : ∀ e, m.etwObjs.lookup key = some e → e.boundId = 0) (g : MemLoc) (ts : ℕ) :
    (m.applyGroup key g ts).places = m.places := by
  unfold applyGroup
  cases he : m.etwObjs.lookup key with
  | none => rfl
  | some e =>
    dsimp only
    rw [if_pos (h e he), places_updEtw]

/-- A re-report of an unbound object, or one with no new group. -/
theorem places_merged {key into : ℕ} {e old : EtwObj} (hold : m.etwObjs.lookup into = some old)
    (h : old.boundId = 0 ∨ old.group = e.group) :
    (m.merged key e into old).places = m.places := by
  have hsize : ∀ r : Model,
      (if e.size ≠ 0 then r.applySize into e.size e.createdTs else r).places = r.places := by
    intro r
    split
    · exact places_applySize into e.size e.createdTs
    · rfl
  -- the new size does not bind the old object
  have hbound : ∀ r : Model, r.etwObjs.lookup into = some old → ∀ e',
      (if e.size ≠ 0 then r.applySize into e.size e.createdTs else r).etwObjs.lookup into
        = some e' → e'.boundId = old.boundId := by
    intro r hr e' he'
    split at he'
    · have hj : (r.applySize into e.size e.createdTs).join.etw into = some e'.noWait := by
        rw [join_etw, he']
        rfl
      rw [join_applySize, Join.etw_applySize, Join.etw_updEtw, if_pos rfl, join_etw, hr] at hj
      dsimp only [Option.map_some] at hj
      have hb := congrArg EtwObj.boundId (Option.some.inj hj)
      split at hb <;> exact hb.symm
    · rw [hr] at he'
      cases he'
      rfl
  have hgroup : ∀ r : Model, (∀ e', r.etwObjs.lookup into = some e' → e'.boundId = old.boundId) →
      (if e.group ≠ .unknown ∧ e.group ≠ old.group then r.applyGroup into e.group e.createdTs
        else r).places = r.places := by
    intro r hr
    split
    · next hnew =>
      rcases h with h | h
      · exact places_applyGroup_of_unbound (fun e' he' => (hr e' he').trans h) e.group e.createdTs
      · exact absurd h.symm hnew.2
    · rfl
  have hfolded : ∀ r : Model,
      (((r.setEtwObjs (r.etwObjs.erase key)).updEtw into (·.addAlias key)).setEtwAlias
        (r.etwAlias.insert key into)).places = r.places := fun _ => rfl
  unfold merged
  refine (hfolded _).trans ?_
  rw [places_driverAgg, hgroup _ (hbound (m.updStats _) hold), hsize]
  rfl

/-- **A merge moves nothing**, if the owner of the address is unbound or has the group. -/
theorem locations_foldRundown_of_same {libId address key into : ℕ} {e old : EtwObj}
    (hinv : m.join.Inv) (hs : m.join.SettledIf False ∅) (hf : m.Folds libId address key e into old)
    (h : old.boundId = 0 ∨ old.group = e.group) (env : Env) :
    (m.foldRundown env key e into old).locations = m.locations := by
  obtain ⟨he, hold, hown⟩ := hf.join hinv
  have hsettled := Join.settled_absorb (e := e.noWait) hs hold hf.other hown
  have howner := (Join.absorbed_absorb hinv he hf.unplaced hold hf.other hown).owner
  rw [← join_merged] at hsettled howner
  have hquiet : ∀ e', (m.merged key e into old).etwObjs.lookup into = some e' →
      (m.merged key e into old).join.QuietIf False e'.noWait := fun e' he' =>
    hsettled.quiet (Set.notMem_empty into) howner (by rw [join_etw, he']; rfl)
  refine locations_of_places ?_
  rw [foldRundown_eq, places_tryBindEtw_of_quiet hquiet, places_merged hf.stored h]

/-! ### What moves the tracked object -/

/-- **Any other merge moves the object that the owner of the address is bound to.** -/
theorem ownLoc_foldRundown {libId address key into : ℕ} {e old : EtwObj} (hinv : m.join.Inv)
    (hf : m.Folds libId address key e into old) (hknown : e.group ≠ .unknown)
    (hb : old.boundId ≠ 0) (hg : old.group ≠ e.group) (env : Env) :
    m.locations.ownLoc old.boundId = some old.group ∧
      (m.foldRundown env key e into old).locations.ownLoc old.boundId = some e.group := by
  -- a bound object and its tracked object agree on the location, before and after
  have hagree : ∀ {n : Model} {k : ℕ} {x : EtwObj}, n.join.Inv → n.join.etw k = some x →
      x.boundId ≠ 0 → n.locations.ownLoc x.boundId = some x.group := by
    intro n k x hn hx hxb
    obtain ⟨o, ho, hp⟩ := hn.pairs.bound hx hxb
    obtain ⟨o', ho', rfl⟩ := Option.map_eq_some_iff.mp ho
    show (n.live.lookup x.boundId).map LiveObject.ownLoc = some x.group
    rw [ho', ← hp.group]
    rfl
  obtain ⟨he, hold, hown⟩ := hf.join hinv
  refine ⟨hagree (x := old.noWait) hinv hold hb, ?_⟩
  obtain ⟨old', hold', hbound, hgroup⟩ := Join.etw_refresh_self hold e.noWait
  rw [if_pos ⟨hknown, hg.symm⟩] at hgroup
  -- the owner has the new group, and is still bound to the same object
  have hinv' : (m.foldRundown env key e into old).join.Inv := by
    rw [join_foldRundown]
    exact Join.inv_foldRundown hinv he hf.unplaced hold hf.other (hinv.index.byAddr hown).1
  have hmerged : ((m.join.refresh e.noWait into old.noWait).absorb key into).etw into
      = some (old'.addAlias key) := Join.etw_absorb_self hold' hf.other
  have hetw : (m.foldRundown env key e into old).join.etw into = some (old'.addAlias key) := by
    rw [join_foldRundown, Join.foldRundown_eq,
      Join.tryBind_of_quiet hmerged fun hb' => absurd (hbound.symm.trans hb') hb]
    exact hmerged
  have hb' : (old'.addAlias key).boundId = old.boundId := hbound
  have hmoved := hagree hinv' hetw (by rw [hb']; exact hb)
  rw [hb'] at hmoved
  exact hmoved.trans (congrArg some hgroup)

/-! ### Runs -/

/-- In every run the owner of an address does not fit its occupant. -/
theorem settledIf_after (etw : EtwOptions) (xs : List Step) (ht : TrackerIdsFresh xs)
    (hl : LibIdsFresh xs) : ((start etw).after xs).join.SettledIf False ∅ := by
  refine Machine.run_induction step (start etw) (fun xs => TrackerIdsFresh xs ∧ LibIdsFresh xs)
    (fun _ m => m.join.SettledIf False ∅) ?_ ?_ ?_ xs ⟨ht, hl⟩
  · exact fun xs x h => ⟨h.1.of_append, h.2.of_append⟩
  · rw [join_start]
    exact Join.settledIf_empty False
  · intro xs x hlegal h
    have hinv := inv_after etw xs hlegal.1.of_append hlegal.2.of_append
    refine settledIf_step (etwEnabled_start etw xs) hinv h x (fun id hid => ?_)
      (fun k hk => (hlegal.2.last hk).1) False.elim
    obtain ⟨h0, hnew⟩ := hlegal.1.last hid
    refine ⟨h0, ?_⟩
    by_contra hsome
    exact hnew (createdIds_of_live (fun _ => rfl) xs (Option.isSome_iff_ne_none.mpr hsome))

/-- A group change stamped later than the cutoff moves nothing. -/
theorem locations_onEtwGroupChanges_of_late (hexit : m.childExiting = true) (c : GroupChange)
    (env : Env) (hlate : m.exitCutoffTs < m.convTs c.ts) :
    (m.onEtwGroupChanges [(c, env)]).locations = m.locations := by
  have hpoll : m.pollChildLocked env = m := if_pos (by simp [hexit])
  have hafter : m.afterChildExitLocked env (m.convTs c.ts) = (true, m) := by
    unfold afterChildExitLocked
    rw [hpoll, ite_self]
    simp [hlate]
  have hone : (m.onEtwGroupChange c env).locations = m.locations := by
    unfold onEtwGroupChange
    dsimp only
    rw [hafter]
    rfl
  unfold onEtwGroupChanges
  split
  · rfl
  · exact hone

/-- The report of a new id stores the object, with the converted stamp. -/
theorem etwObjs_onEtwObjectCreated (hetw : m.etwEnabled = true) (hinv : m.join.Inv) {libId : ℕ}
    (hnew : m.etwAlias.lookup libId = none) (ts : ℤ) (type : ObjType) (size : ℕ) (group : Group) :
    (m.onEtwObjectCreated ts libId type size group).etwObjs.lookup libId = some
      { type := type, size := size, group := fromGroup group, createdTs := m.convTs ts } := by
  have hnone : m.etwObjs.lookup libId = none := by
    cases he : m.etwObjs.lookup libId with
    | none => rfl
    | some e =>
      have hcanon := (hinv.index.etw_key (k := libId) (e := e.noWait) (by rw [join_etw, he]; rfl)).2
      rw [join_canon, hnew] at hcanon
      cases hcanon
  rw [onEtwObjectCreated_of_unknown hetw hnew hnone]
  exact Finmap.lookup_insert m.etwObjs

/-- **When the rundowns obey the cutoff.** -/
theorem cutoff_obeyed_iff (etw : EtwOptions) (xs : List Step) (ht : TrackerIdsFresh xs)
    (hl : LibIdsFresh xs) (hexit : ((start etw).after xs).childExiting = true) :
    let m := (start etw).after xs
    (∀ ts libId type size group,
      (m.onEtwObjectCreated ts libId type size group).locations = m.locations ∧
      (m.etwAlias.lookup libId = none →
        (m.onEtwObjectCreated ts libId type size group).etwObjs.lookup libId = some
          { type := type, size := size, group := fromGroup group, createdTs := m.convTs ts })) ∧
    (∀ c env, m.exitCutoffTs < m.convTs c.ts →
      (m.onEtwGroupChanges [(c, env)]).locations = m.locations) ∧
    ∀ env libId address key e into old, m.Folds libId address key e into old →
      e.group ≠ .unknown → m.exitCutoffTs < e.createdTs →
      ((m.onEtwObjectAddress env libId address).locations = m.locations ↔
        old.boundId = 0 ∨ old.group = e.group) := by
  intro m
  have hetw : m.etwEnabled = true := etwEnabled_start etw xs
  have hinv : m.join.Inv := inv_after etw xs ht hl
  refine ⟨fun ts libId type size group => ⟨?_, fun hnew => ?_⟩, ?_, ?_⟩
  · exact locations_of_places (places_onEtwObjectCreated ts libId type size group)
  · exact etwObjs_onEtwObjectCreated hetw hinv hnew ts type size group
  · exact fun c env hlate => locations_onEtwGroupChanges_of_late hexit c env hlate
  · intro env libId address key e into old hf hknown _
    rw [hf.onEtwObjectAddress hetw]
    constructor
    · intro hsame
      by_contra hnot
      push Not at hnot
      obtain ⟨hbefore, hafter⟩ := ownLoc_foldRundown hinv hf hknown hnot.1 hnot.2 env
      rw [hsame, hbefore] at hafter
      exact hnot.2 (Option.some.inj hafter)
    · exact fun h => locations_foldRundown_of_same hinv (settledIf_after etw xs ht hl) hf h env

/-- A resource in video memory, seen running at 30 and exiting at 50, and a rundown at 60. -/
def exitRundown (group : Group) : List Step :=
  [.event 0 (.hello ⟨1, 1, 1000000000, 0, NameBuf.copy []⟩), .setChildProcess,
    .event 10 (.created (plainCreated 1 .resource .committed 4096 65536 0)),
    .objectCreated 10 7 .resource 65536 .local, .objectAddress {} 7 4096,
    .pollChild { qpc := 30 }, .pollChild { qpc := 50, exitCode := some 1 },
    .objectCreated 60 8 .resource 65536 group]

/-- The re-report folds into the object of the first report. -/
theorem folds_exitRundown (group : Group) (hgroup : group = .local ∨ group = .nonLocal) :
    ((start ⟨true, [], [], 5000⟩).after (exitRundown group)).Folds 8 4096 8
      { type := .resource, size := 65536, group := fromGroup group, createdTs := 60 } 7
      { type := .resource, address := 4096, size := 65536, group := .vram, createdTs := 10,
        boundId := 1 } := by
  rcases hgroup with rfl | rfl
  · exact ⟨by decide, by decide, rfl, by decide, by decide, by decide, rfl⟩
  · exact ⟨by decide, by decide, rfl, by decide, by decide, by decide, rfl⟩

/-- The eviction of the resource is ignored as a group change and believed as a rundown; a
rundown that finds it where it was moves nothing. -/
theorem cutoff_obeyed_iff_exitRundown :
    let m := (start ⟨true, [], [], 5000⟩).after (exitRundown .nonLocal)
    let n := (start ⟨true, [], [], 5000⟩).after (exitRundown .local)
    (m.onEtwGroupChanges [(⟨60, 7, .resource, .nonLocal⟩, {})]).locations = m.locations ∧
      (m.onEtwObjectAddress {} 8 4096).locations ≠ m.locations ∧
      (n.onEtwObjectAddress {} 8 4096).locations = n.locations := by
  obtain ⟨-, hchange, hmoved⟩ := cutoff_obeyed_iff ⟨true, [], [], 5000⟩ (exitRundown .nonLocal)
    (by decide) (by decide) (by decide)
  obtain ⟨-, -, hkept⟩ := cutoff_obeyed_iff ⟨true, [], [], 5000⟩ (exitRundown .local)
    (by decide) (by decide) (by decide)
  refine ⟨hchange _ _ (by decide), fun hsame => ?_, ?_⟩
  · have h := (hmoved {} 8 4096 8 _ 7 _ (folds_exitRundown .nonLocal (.inr rfl)) (by decide)
      (by decide)).mp hsame
    exact absurd h (by decide)
  · exact (hkept {} 8 4096 8 _ 7 _ (folds_exitRundown .local (.inl rfl)) (by decide)
      (by decide)).mpr (.inr rfl)

/-- **The rundowns do not obey the cutoff.** -/
theorem rundown_not_cut_off :
    ¬∀ (etw : EtwOptions) (xs : List Step), TrackerIdsFresh xs → LibIdsFresh xs →
      ((start etw).after xs).childExiting = true →
      ∀ env libId address key e into old,
        ((start etw).after xs).Folds libId address key e into old → e.group ≠ .unknown →
        ((start etw).after xs).exitCutoffTs < e.createdTs →
        (((start etw).after xs).onEtwObjectAddress env libId address).locations
          = ((start etw).after xs).locations := by
  intro h
  have hsame := h ⟨true, [], [], 5000⟩ (exitRundown .nonLocal) (by decide) (by decide) (by decide)
    {} 8 4096 8 _ 7 _ (folds_exitRundown .nonLocal (.inr rfl)) (by decide) (by decide)
  have hown := congrArg (fun l : Locations => l.ownLoc 1) hsame
  have hafter : (((start ⟨true, [], [], 5000⟩).after (exitRundown .nonLocal)).onEtwObjectAddress
      {} 8 4096).locations.ownLoc 1 = some .sys := by decide
  have hbefore : ((start ⟨true, [], [], 5000⟩).after
      (exitRundown .nonLocal)).locations.ownLoc 1 = some .vram := by decide
  exact absurd (hafter.symm.trans (hown.trans hbefore)) (by decide)

end Model

end Dx12Track
