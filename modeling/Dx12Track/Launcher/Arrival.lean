import Dx12Track.Launcher.History

/-!
# Either side may arrive first

The join of a history, for all orders in which the two streams reach it.  As long
as no step is out of turn, the pairs are the right ones in every state: an ETW
object is bound to a tracked object exactly if the two belong together and both
are alive.  One step out of turn is enough to lose a pair for good.

* `Mirrors`, `Reports` — an entry of the join, and the object it is about.
* `Sync` — **the invariant**: the join holds what has been seen of the history.
* `sync_created` … `sync_etwDestroyed` — what one event does to it.
* `Model.bound_iff` — the pairs of an orderly interleaving.
-/

namespace Dx12Track

open Etw (ObjType Group)
open Model (canBind lateMatch liveOfCreated)

namespace History

variable {ι : Type*} (H : History ι)

/-- What an event is to the join. -/
def op : Ev ι → Join.Op
  | .created i => .created (H.life i).createdNs (H.life i).payload
  | .destroyed i => .destroyed (H.life i).id (H.life i).destroyedNs
  | .etwCreated i =>
    .etwCreated (H.life i).libId (H.life i).etwType (H.life i).size (fromGroup (H.life i).group)
      (H.life i).etwNs
  | .etwAddress i => .etwAddress (H.life i).libId (H.life i).ptr
  | .etwDestroyed i => .etwDestroyed (H.life i).libId

/-- The live entry `o` is about `i`: the death before it lies between the last occupant and
the ETW object. -/
structure Mirrors (i : ι) (o : LiveObject) : Prop where
  type : o.type = (H.life i).type
  ptr : o.objectPtr = (H.life i).ptr
  newer : (H.life i).Reported → o.prevDestroyNs ≤ (H.life i).etwNs
  older : ∀ k, (H.life k).Precedes (H.life i) → (H.life k).destroyedNs ≤ o.prevDestroyNs

/-- The ETW entry `e` is about `i`. -/
structure Reports (us : List (Ev ι)) (i : ι) (e : EtwObj) : Prop where
  type : e.type = (H.life i).etwType
  createdTs : e.createdTs = (H.life i).etwNs
  aliases : e.aliases = []
  owns : .etwAddress i ∈ us → e.address = (H.life i).ptr
  unplaced : .etwAddress i ∉ us → e.address = 0 ∧ e.orphanTs = 0

/-- **The invariant.**  The tables hold the objects that are alive, and the pairs are the
right ones; at most the object `hole` has not yet been looked at. -/
structure Sync (us : List (Ev ι)) (hole : Option ι) (j : Join) : Prop where
  inv : j.Inv
  live : ∀ {id o}, j.live id = some o → ∃ i, Alive us i ∧ (H.life i).id = id ∧ H.Mirrors i o
  alive : ∀ {i}, Alive us i → ∃ o, j.live (H.life i).id = some o
  etw : ∀ {k e}, j.etw k = some e → ∃ i, Known us i ∧ (H.life i).libId = k ∧ H.Reports us i e
  known : ∀ {i}, Known us i → ∃ e, j.etw (H.life i).libId = some e
  owner : ∀ {i}, Owns us i → j.byAddr (H.life i).ptr = some (H.life i).libId
  occupant : ∀ {i}, Alive us i → j.occupant (H.life i).ptr = some (H.life i).id
  dead : ∀ {p x}, x ∈ j.dead p → ∃ i, .destroyed i ∈ us ∧ (H.life i).ptr = p ∧
    x.type = (H.life i).type ∧ x.destroyedNs = (H.life i).destroyedNs
  last : ∀ {i}, .destroyed i ∈ us → ∃ x, (j.dead (H.life i).ptr).getLast? = some x ∧
    (H.life i).destroyedNs ≤ x.destroyedNs
  bound : ∀ {i e}, hole ≠ some i → Alive us i → Owns us i → j.etw (H.life i).libId = some e →
    e.boundId = (H.life i).id
  only : ∀ {i e}, Known us i → j.etw (H.life i).libId = some e → e.boundId ≠ 0 →
    e.boundId = (H.life i).id
  /-- An ETW object that was given away before its tracked object came. -/
  orphan : ∀ {i e}, Known us i → j.etw (H.life i).libId = some e → e.orphanTs ≠ 0 →
    .created i ∉ us → ∃ k, (H.life k).Precedes (H.life i) ∧ (H.life i).Fits (H.life k) ∧
      (H.life i).etwNs ≤ (H.life k).destroyedNs + kBindSlackNs

/-- Nothing has arrived. -/
theorem sync_nil : H.Sync [] none Join.empty where
  inv := Join.inv_empty
  live h := by cases h
  alive h := by cases h.1
  etw h := by cases h
  known h := by cases h.1
  owner h := by cases h.1
  occupant h := by cases h.1
  dead h := by cases h
  last h := by cases h
  bound _ h := by cases h.1
  only h := by cases h.1
  orphan h := by cases h.1

variable {H} {us : List (Ev ι)} {hole : Option ι} {j : Join}

/-! ### Reading the tables -/

/-- A live object of the join is one of the history, and alive. -/
theorem Sync.mirrors (h : H.Sync us hole j) {i : ι} {o : LiveObject}
    (ho : j.live (H.life i).id = some o) : Alive us i ∧ H.Mirrors i o := by
  obtain ⟨i', hi', hid, hm⟩ := h.live ho
  obtain rfl := H.id_inj i' i hid
  exact ⟨hi', hm⟩

/-- An entry of the join is one of the history, and known. -/
theorem Sync.reports (h : H.Sync us hole j) (hf : H.Facts us) {i : ι}
    (hi : (H.life i).Reported) {e : EtwObj} (he : j.etw (H.life i).libId = some e) :
    Known us i ∧ H.Reports us i e := by
  obtain ⟨i', hi', hlib, hr⟩ := h.etw he
  obtain rfl := H.lib_inj i' i (hf.reported i' hi'.1) hi hlib
  exact ⟨hi', hr⟩

/-- The owner of an address, and its object. -/
theorem Sync.owner_of_byAddr (h : H.Sync us hole j) {p k : ℕ} (hp : j.byAddr p = some k) :
    ∃ i e, Owns us i ∧ (H.life i).ptr = p ∧ (H.life i).libId = k ∧ j.etw k = some e ∧
      H.Reports us i e := by
  obtain ⟨hp0, e, he, hadr⟩ := h.inv.index.byAddr hp
  obtain ⟨i, hi, hlib, hr⟩ := h.etw he
  by_cases hown : .etwAddress i ∈ us
  · exact ⟨i, e, ⟨hown, hi.2⟩, (hr.owns hown).symm.trans hadr, hlib, he, hr⟩
  · exact absurd (hadr.symm.trans (hr.unplaced hown).1) hp0

/-- The occupant of an address, and its object. -/
theorem Sync.alive_of_occupant (h : H.Sync us hole j) {p id : ℕ}
    (hp : j.occupant p = some id) :
    ∃ i o, Alive us i ∧ (H.life i).ptr = p ∧ (H.life i).id = id ∧ j.live id = some o ∧
      H.Mirrors i o := by
  obtain ⟨-, o, ho, hptr⟩ := h.inv.index.occupant hp
  obtain ⟨i, hi, hid, hm⟩ := h.live ho
  exact ⟨i, o, hi, hm.ptr.symm.trans hptr, hid, ho, hm⟩

/-- What a report says is only changed by the event that brings the address. -/
theorem Reports.concat {i : ι} {e : EtwObj} (hr : H.Reports us i e) {x : Ev ι}
    (hx : .etwAddress i ≠ x) : H.Reports (us ++ [x]) i e := by
  have hmem : .etwAddress i ∈ us ++ [x] ↔ .etwAddress i ∈ us := by simp [hx]
  exact { hr with
    owns := fun ha => hr.owns (hmem.mp ha)
    unplaced := fun ha => hr.unplaced fun hold => ha (hmem.mpr hold) }

/-! ### Who can bind to whom -/

/-- The two sides of one object can bind. -/
theorem canBind_own {i : ι} {e : EtwObj} {o : LiveObject} (hi : (H.life i).Reported)
    (hr : H.Reports us i e) (hm : H.Mirrors i o) (hb : e.boundId = 0) (ho : e.orphanTs = 0) :
    canBind e o = true := by
  refine (canBind_iff e o).mpr ⟨hb, ho, ?_, ?_⟩
  · rw [hr.type, hm.type]
    exact hi
  · have hfits := H.fits i hi
    have hnewer := hm.newer hi
    rw [hr.createdTs, add64, Nat.mod_eq_of_lt hfits]
    omega

/-- An ETW object cannot bind to a later occupant of its address. -/
theorem not_canBind_later {i k : ι} {e : EtwObj} {o : LiveObject} (hi : (H.life i).Reported)
    (hr : H.Reports us i e) (hm : H.Mirrors k o) (hik : (H.life i).Precedes (H.life k)) :
    canBind e o = false := by
  rw [Bool.eq_false_iff]
  intro hc
  obtain ⟨-, -, -, hts⟩ := (canBind_iff e o).mp hc
  have hfits := H.fits i hi
  have hstamped := H.stamped i hi
  have hlasts := H.lasts i
  have holder := hm.older i hik
  rw [hr.createdTs, add64, Nat.mod_eq_of_lt hfits] at hts
  omega

/-- Who passes the guard of a binding is of a kind that fits. -/
theorem fits_of_canBind {i k : ι} {e : EtwObj} {o : LiveObject} (hr : H.Reports us i e)
    (hm : H.Mirrors k o) (hc : canBind e o = true) : (H.life i).Fits (H.life k) := by
  obtain ⟨-, -, hcompat, -⟩ := (canBind_iff e o).mp hc
  rw [hr.type, hm.type] at hcompat
  exact hcompat

/-! ### Closing the hole -/

/-- An object that has been looked at without a change. -/
theorem Sync.close (h : H.Sync us hole j) {i : ι} (hole_eq : hole = some i)
    (hi : Alive us i → Owns us i → ∀ e, j.etw (H.life i).libId = some e →
      e.boundId = (H.life i).id) : H.Sync us none j :=
  { h with
    bound := fun {k e} _ hk hown he => by
      by_cases hki : k = i
      · subst hki
        exact hi hk hown e he
      · exact h.bound (by rw [hole_eq]; exact fun hh => hki (Option.some.inj hh).symm) hk hown he }

/-- Nobody else holds the tracked object of an ETW object that is not bound. -/
theorem Sync.unkeyed (h : H.Sync us hole j) {i : ι} {e : EtwObj} {o : LiveObject}
    (ho : j.live (H.life i).id = some o) (he : j.etw (H.life i).libId = some e)
    (hb : e.boundId = 0) : o.etwKey = 0 := by
  by_contra hk
  obtain ⟨e', he', hb'⟩ := h.inv.pairs.keyed ho hk
  have hb0 : e'.boundId ≠ 0 := by
    rw [hb']
    exact H.id_ne i
  obtain ⟨i', hi', hlib', -⟩ := h.etw he'
  have hid' := h.only hi' (by rw [hlib']; exact he') hb0
  obtain rfl := H.id_inj i i' (hb'.symm.trans hid')
  rw [← hlib', he] at he'
  cases he'
  exact hb0 hb

/-- The two sides of one object are bound. -/
theorem Sync.bind (h : H.Sync us hole j) (hf : H.Facts us) {i : ι} {e : EtwObj} {o : LiveObject}
    (hole_eq : hole = some i) (hi : Alive us i) (hown : Owns us i)
    (he : j.etw (H.life i).libId = some e) (ho : j.live (H.life i).id = some o)
    (hc : canBind e o = true) :
    H.Sync us none (j.bind (H.life i).libId (H.life i).id e o) := by
  have hknown := hf.known_of_owns hown
  have hrep := hf.reported i hknown.1
  obtain ⟨-, hr⟩ := h.reports hf hrep he
  obtain ⟨-, hm⟩ := h.mirrors ho
  obtain ⟨hid, -⟩ := h.inv.index.live_id ho
  have hadr : e.address = o.objectPtr := (hr.owns hown.1).trans hm.ptr.symm
  have hadr0 : e.address ≠ 0 := by
    rw [hr.owns hown.1]
    exact H.placed i
  have hkey := h.unkeyed ho he ((canBind_iff e o).mp hc).1
  have hetw : ∀ k, (j.bind (H.life i).libId (H.life i).id e o).etw k =
      if k = (H.life i).libId then (j.etw k).map (·.setBoundId (H.life i).id) else j.etw k := by
    intro k
    rw [Join.etw_bind, hid]
    by_cases hk : k = (H.life i).libId
    · rw [if_pos hk, if_pos hk]
    · rw [if_neg hk, if_neg hk, if_neg fun hh => hh.2 hkey]
  have hback : ∀ {k e'}, (j.bind (H.life i).libId (H.life i).id e o).etw k = some e' →
      ∃ e₀, j.etw k = some e₀ ∧ (k ≠ (H.life i).libId ∧ e' = e₀ ∨
        k = (H.life i).libId ∧ e' = e₀.setBoundId (H.life i).id) := by
    intro k e' he'
    rw [hetw] at he'
    split at he'
    · next hk =>
      obtain ⟨e₀, he₀, rfl⟩ := Option.map_eq_some_iff.mp he'
      exact ⟨e₀, he₀, .inr ⟨hk, rfl⟩⟩
    · next hk => exact ⟨e', he', .inl ⟨hk, rfl⟩⟩
  obtain ⟨-, hbyAddr, hocc, hdead⟩ := Join.bind_frame j (H.life i).libId (H.life i).id e o
  constructor
  case inv => exact Join.inv_bind h.inv he ho hc hadr hadr0
  case live =>
    intro id o' ho'
    rw [Join.live_bind] at ho'
    split at ho'
    · obtain ⟨o'', ho'', rfl⟩ := Option.map_eq_some_iff.mp ho'
      obtain ⟨i', hi', hid', hm'⟩ := h.live ho''
      exact ⟨i', hi', hid', ⟨hm'.type, hm'.ptr, hm'.newer, hm'.older⟩⟩
    · exact h.live ho'
  case alive =>
    intro i' hi'
    obtain ⟨o', ho'⟩ := h.alive hi'
    rw [Join.live_bind, ho']
    split
    · exact ⟨_, rfl⟩
    · exact ⟨o', rfl⟩
  case etw =>
    intro k e' he'
    obtain ⟨e₀, he₀, ⟨-, rfl⟩ | ⟨-, rfl⟩⟩ := hback he'
    · exact h.etw he₀
    · obtain ⟨i', hi', hlib', hr'⟩ := h.etw he₀
      exact ⟨i', hi', hlib', ⟨hr'.type, hr'.createdTs, hr'.aliases, hr'.owns, hr'.unplaced⟩⟩
  case known =>
    intro i' hi'
    obtain ⟨e', he'⟩ := h.known hi'
    rw [hetw, he']
    split
    · exact ⟨_, rfl⟩
    · exact ⟨e', rfl⟩
  case owner =>
    intro i' hi'
    rw [hbyAddr]
    exact h.owner hi'
  case occupant =>
    intro i' hi'
    rw [hocc]
    exact h.occupant hi'
  case dead =>
    intro p x hx
    rw [hdead] at hx
    exact h.dead hx
  case last =>
    intro i' hi'
    rw [hdead]
    exact h.last hi'
  case bound =>
    intro i' e' _ hi' hown' he'
    obtain ⟨e₀, he₀, ⟨hne, rfl⟩ | ⟨heq, rfl⟩⟩ := hback he'
    · refine h.bound ?_ hi' hown' he₀
      rw [hole_eq]
      intro hh
      cases hh
      exact hne rfl
    · obtain rfl := H.lib_inj i' i (hf.reported i' (hf.known_of_owns hown').1) hrep heq
      rfl
  case only =>
    intro i' e' hi' he' hb'
    obtain ⟨e₀, he₀, ⟨-, rfl⟩ | ⟨heq, rfl⟩⟩ := hback he'
    · exact h.only hi' he₀ hb'
    · obtain rfl := H.lib_inj i' i (hf.reported i' hi'.1) hrep heq
      rfl
  case orphan =>
    intro i' e' hi' he' ho' hnew
    obtain ⟨e₀, he₀, ⟨-, rfl⟩ | ⟨-, rfl⟩⟩ := hback he'
    · exact h.orphan hi' he₀ ho' hnew
    · exact h.orphan hi' he₀ ho' hnew

/-- The ETW object that came too late, or is taken to have. -/
theorem Sync.late (h : H.Sync us hole j) (hf : H.Facts us) {i : ι} {e : EtwObj} {x : DeadObj}
    (hole_eq : hole = some i) (hown : Owns us i) (he : j.etw (H.life i).libId = some e)
    (hb : e.boundId = 0) (hx : x ∈ j.dead e.address) (hlate : lateMatch e x = true)
    (hi : ¬Alive us i) : H.Sync us none (j.attributeLate (H.life i).libId x) := by
  have hknown := hf.known_of_owns hown
  have hrep := hf.reported i hknown.1
  obtain ⟨-, hr⟩ := h.reports hf hrep he
  have hback : ∀ {k e'}, (j.attributeLate (H.life i).libId x).etw k = some e' →
      ∃ e₀, j.etw k = some e₀ ∧ (k ≠ (H.life i).libId ∧ e' = e₀ ∨ k = (H.life i).libId ∧
        e' = e₀.setOrphanTs (if x.destroyedNs ≠ 0 then x.destroyedNs else 1)) := by
    intro k e' he'
    rw [Join.attributeLate, Join.etw_updEtw] at he'
    split at he'
    · next hk =>
      obtain ⟨e₀, he₀, rfl⟩ := Option.map_eq_some_iff.mp he'
      exact ⟨e₀, he₀, .inr ⟨hk, rfl⟩⟩
    · next hk => exact ⟨e', he', .inl ⟨hk, rfl⟩⟩
  -- the dead object had the address before
  have hgiven : .created i ∉ us → ∃ k, (H.life k).Precedes (H.life i) ∧
      (H.life i).Fits (H.life k) ∧ (H.life i).etwNs ≤ (H.life k).destroyedNs + kBindSlackNs := by
    intro hnew
    obtain ⟨k, hk, hptr, htype, hts⟩ := h.dead hx
    rw [hr.owns hown.1] at hptr
    obtain ⟨hboth, -⟩ := Bool.and_eq_true_iff.mp hlate
    obtain ⟨hcompat, hle⟩ := Bool.and_eq_true_iff.mp hboth
    refine ⟨k, hf.precedes_of_dead hk hnew hptr, ?_, ?_⟩
    · rw [hr.type, htype] at hcompat
      exact hcompat
    · rw [← hr.createdTs, ← hts]
      exact (of_decide_eq_true hle).trans (Nat.mod_le _ _)
  constructor
  case inv =>
    exact Join.inv_updEtw h.inv he (fun _ => rfl) (fun _ => rfl) rfl (.inr hb)
      fun hb0 => absurd hb hb0
  case live => exact h.live
  case alive => exact h.alive
  case etw =>
    intro k e' he'
    obtain ⟨e₀, he₀, ⟨-, rfl⟩ | ⟨rfl, rfl⟩⟩ := hback he'
    · exact h.etw he₀
    · obtain ⟨-, hr₀⟩ := h.reports hf hrep he₀
      exact ⟨i, hknown, rfl, ⟨hr₀.type, hr₀.createdTs, hr₀.aliases, hr₀.owns,
        fun hno => absurd hown.1 hno⟩⟩
  case known =>
    intro i' hi'
    obtain ⟨e', he'⟩ := h.known hi'
    rw [Join.attributeLate, Join.etw_updEtw, he']
    split
    · exact ⟨_, rfl⟩
    · exact ⟨e', rfl⟩
  case owner => exact h.owner
  case occupant => exact h.occupant
  case dead => exact h.dead
  case last => exact h.last
  case bound =>
    intro i' e' _ hi' hown' he'
    obtain ⟨e₀, he₀, ⟨hne, rfl⟩ | ⟨heq, rfl⟩⟩ := hback he'
    · refine h.bound ?_ hi' hown' he₀
      rw [hole_eq]
      intro hh
      cases hh
      exact hne rfl
    · obtain rfl := H.lib_inj i' i (hf.reported i' (hf.known_of_owns hown').1) hrep heq
      exact absurd hi' hi
  case only =>
    intro i' e' hi' he' hb'
    obtain ⟨e₀, he₀, ⟨-, rfl⟩ | ⟨-, rfl⟩⟩ := hback he'
    · exact h.only hi' he₀ hb'
    · exact h.only (e := e₀) hi' he₀ hb'
  case orphan =>
    intro i' e' hi' he' ho' hnew
    obtain ⟨e₀, he₀, ⟨-, rfl⟩ | ⟨heq, rfl⟩⟩ := hback he'
    · exact h.orphan hi' he₀ ho' hnew
    · obtain rfl := H.lib_inj i' i (hf.reported i' hi'.1) hrep heq
      exact hgiven hnew

/-! ### Events of the pipe -/

/-- A new object remembers the last death at its address, which is that of the occupant before. -/
theorem mirrors_occupied (h : H.Sync us none j) (hf : H.Facts us) {i : ι}
    (hx : H.Next us (.created i)) {o : LiveObject} (htype : o.type = (H.life i).type)
    (hptr : o.objectPtr = (H.life i).ptr) (hprev0 : o.prevDestroyNs = 0) :
    H.Mirrors i (j.occupied o) := by
  obtain ⟨hnew, horder⟩ := hx
  have hptr0 : o.objectPtr ≠ 0 := by
    rw [hptr]
    exact H.placed i
  rw [Join.occupied, if_neg hptr0]
  constructor
  case type => exact htype
  case ptr => exact hptr
  case newer =>
    intro hrep
    show j.prevDeath o ≤ _
    unfold Join.prevDeath
    cases hlast : (j.dead o.objectPtr).getLast? with
    | none => exact hprev0.trans_le (Nat.zero_le _)
    | some x =>
      obtain ⟨k, hk, hkp, -, hts⟩ := h.dead (List.mem_of_getLast? hlast)
      have hprec := hf.precedes_of_dead hk hnew (hkp.trans hptr)
      have hafter := H.after i k hrep hprec
      show x.destroyedNs ≤ _
      rw [hts]
      exact Nat.le_of_lt hafter
  case older =>
    intro k hk
    show _ ≤ j.prevDeath o
    obtain ⟨x, hlast, hle⟩ := h.last (horder k hk)
    rw [hk.1, ← hptr] at hlast
    unfold Join.prevDeath
    rw [hlast]
    exact hle

/-- The tables after a new object has moved in, before it is looked at. -/
theorem sync_occupy (h : H.Sync us none j) (hf : H.Facts us) {i : ι}
    (hx : H.Next us (.created i)) :
    H.Sync (us ++ [.created i]) (some i)
      (j.occupy (liveOfCreated (H.life i).createdNs (H.life i).payload)) := by
  obtain ⟨hnew, horder⟩ := hx
  obtain ⟨o, ho⟩ : ∃ o, liveOfCreated (H.life i).createdNs (H.life i).payload = o := ⟨_, rfl⟩
  have hid : o.id = (H.life i).id := by rw [← ho]; rfl
  have hptr : o.objectPtr = (H.life i).ptr := by rw [← ho]; rfl
  have htype : o.type = (H.life i).type := by rw [← ho]; rfl
  have hkey : o.etwKey = 0 := by rw [← ho]; rfl
  have hprev0 : o.prevDestroyNs = 0 := by rw [← ho]; rfl
  have hptr0 : o.objectPtr ≠ 0 := by rw [hptr]; exact H.placed i
  rw [ho]
  have hnone : j.live o.id = none := by
    by_contra hsome
    obtain ⟨o', ho'⟩ := Option.ne_none_iff_exists'.mp hsome
    rw [hid] at ho'
    exact hnew (h.mirrors ho').1.1
  have hgone : .destroyed i ∉ us := fun hd => hnew (hf.born i hd)
  have hm : H.Mirrors i (j.occupied o) :=
    mirrors_occupied h hf ⟨hnew, horder⟩ htype hptr hprev0
  have hlive : ∀ id, (j.occupy o).live id = if id = o.id then some (j.occupied o) else j.live id :=
    Join.live_occupy j o
  constructor
  case inv => exact Join.inv_occupy h.inv (by rw [hid]; exact H.id_ne i) hnone hkey
  case live =>
    intro id o' ho'
    rw [hlive] at ho'
    split at ho'
    · next heq =>
      cases ho'
      exact ⟨i, (alive_created hgone).mpr (.inr rfl), (heq.trans hid).symm, hm⟩
    · obtain ⟨i', hi', hid', hm'⟩ := h.live ho'
      exact ⟨i', (alive_created hgone).mpr (.inl hi'), hid', hm'⟩
  case alive =>
    intro k hk
    rw [hlive, hid]
    by_cases hki : (H.life k).id = (H.life i).id
    · rw [if_pos hki]
      exact ⟨_, rfl⟩
    · rw [if_neg hki]
      refine h.alive (((alive_created hgone).mp hk).resolve_right ?_)
      rintro rfl
      exact hki rfl
  case etw =>
    intro k e he
    rw [Join.occupy_etw] at he
    obtain ⟨i', hi', hlib, hr⟩ := h.etw he
    exact ⟨i', known_created.mpr hi', hlib, hr.concat nofun⟩
  case known =>
    intro k hk
    rw [Join.occupy_etw]
    exact h.known (known_created.mp hk)
  case owner =>
    intro k hk
    rw [Join.occupy_byAddr]
    exact h.owner (owns_created.mp hk)
  case occupant =>
    intro k hk
    rw [Join.occupant_occupy]
    split
    · next hp =>
      -- the address is free before
      rcases (alive_created hgone).mp hk with hold | rfl
      · have hne : k ≠ i := fun hki => hnew (hki ▸ hold.1)
        rcases H.apart k i hne (hp.1.trans hptr) with hki | hik
        · exact absurd (horder k hki) hold.2
        · exact absurd (hf.order k i hold.1 hik) hgone
      · rw [hid]
    · next hp =>
      refine h.occupant (((alive_created hgone).mp hk).resolve_right ?_)
      rintro rfl
      exact hp ⟨hptr.symm, hptr0⟩
  case dead =>
    intro p x hxd
    rw [Join.occupy_dead] at hxd
    obtain ⟨k, hk, hrest⟩ := h.dead hxd
    exact ⟨k, List.mem_append_left _ hk, hrest⟩
  case last =>
    intro k hk
    rw [Join.occupy_dead]
    exact h.last (by simpa using hk)
  case bound =>
    intro k e hhole hk hown he
    rw [Join.occupy_etw] at he
    have hne : k ≠ i := by
      rintro rfl
      exact hhole rfl
    have hold := ((alive_created hgone).mp hk).resolve_right hne
    exact h.bound (by simp) hold (owns_created.mp hown) he
  case only =>
    intro k e hk he hb
    rw [Join.occupy_etw] at he
    exact h.only (known_created.mp hk) he hb
  case orphan =>
    intro k e hk he hb hck
    rw [Join.occupy_etw] at he
    exact h.orphan (known_created.mp hk) he hb fun hmem => hck (List.mem_append_left _ hmem)

/-- **A `created` record in turn.** -/
theorem sync_created (h : H.Sync us none j) (hf : H.Facts us) {i : ι}
    (hx : H.Next us (.created i)) (ht : H.InTurn us (.created i)) :
    H.Sync (us ++ [.created i]) none (j.step (H.op (.created i))) := by
  have hocc := sync_occupy h hf hx
  have hf' := H.facts_concat hf hx
  obtain ⟨hnew, -⟩ := hx
  have hi' : Alive (us ++ [.created i]) i :=
    ⟨by simp, by simpa using fun hd => hnew (hf.born i hd)⟩
  show H.Sync _ none (Join.bindReported _ (H.life i).id)
  obtain ⟨j₁, hj₁⟩ : ∃ j₁, j.occupy (liveOfCreated (H.life i).createdNs (H.life i).payload) = j₁ :=
    ⟨_, rfl⟩
  have hetw : j₁.etw = j.etw := by rw [← hj₁, Join.occupy_etw]
  rw [hj₁] at hocc ⊢
  obtain ⟨o, ho⟩ := hocc.alive hi'
  obtain ⟨-, hm⟩ := hocc.mirrors ho
  have hp0 : o.objectPtr ≠ 0 := by
    rw [hm.ptr]
    exact H.placed i
  -- its own ETW object, if that is there already, has been waiting for it
  have hwaits : Owns us i → ∀ e, j₁.etw (H.life i).libId = some e → canBind e o = true := by
    intro hown e he
    have hrep := hf.reported i (hf.known i hown.1)
    have hknown := hf'.known_of_owns (owns_created.mpr hown)
    obtain ⟨-, hr⟩ := hocc.reports hf' hrep he
    refine canBind_own hrep hr hm ?_ ?_
    · by_contra hb
      rw [hetw] at he
      have hid := h.only (hf.known_of_owns hown) he hb
      obtain ⟨o', ho', -⟩ := h.inv.pairs.bound he hb
      rw [hid] at ho'
      exact hnew (h.mirrors ho').1.1
    · by_contra horph
      rw [hetw] at he
      obtain ⟨k, hk, hfits, hle⟩ := h.orphan (hf.known_of_owns hown) he horph hnew
      have := ht.2 hown k hk hfits
      omega
  rcases Join.bindReported_cases_of_live j₁ ho hp0 with
    ⟨hsame, hcannot⟩ | ⟨key, e, hkey, he, hc, hbind⟩
  · rw [hsame]
    refine hocc.close rfl fun _ hown e he => ?_
    have hkey := hocc.owner hown
    rw [← hm.ptr] at hkey
    have hcan := hwaits (owns_created.mp hown) e he
    rw [hcannot _ e hkey he] at hcan
    cases hcan
  · rw [hbind]
    obtain ⟨l, e', hown, hptr, hlib, he', hr⟩ := hocc.owner_of_byAddr hkey
    rw [he] at he'
    cases he'
    have hrep := hf.reported l (hf.known l (owns_created.mp hown).1)
    have hli : l = i := by
      by_contra hne
      rcases H.apart l i hne (hptr.trans hm.ptr) with hli | hil
      · rw [not_canBind_later hrep hr hm hli] at hc
        cases hc
      · exact ht.1 l (owns_created.mp hown) hil (fits_of_canBind hr hm hc)
    subst hli
    rw [← hlib] at he ⊢
    exact hocc.bind hf' rfl hi' hown he ho hc

/-- **A `destroyed` record.** -/
theorem sync_destroyed (h : H.Sync us none j) (hf : H.Facts us) {i : ι}
    (hx : H.Next us (.destroyed i)) :
    H.Sync (us ++ [.destroyed i]) none (j.step (H.op (.destroyed i))) := by
  have hi : Alive us i := hx
  obtain ⟨o, ho⟩ := h.alive hi
  obtain ⟨-, hm⟩ := h.mirrors ho
  obtain ⟨hid, -⟩ := h.inv.index.live_id ho
  obtain ⟨hlive, -, hbyAddr, hocc, hdead⟩ := Join.destroyed_frame ho (H.life i).destroyedNs
  have hetw := Join.etw_destroyed h.inv ho (H.life i).destroyedNs
  show H.Sync _ none (j.destroyed (H.life i).id (H.life i).destroyedNs)
  have hinv := Join.inv_destroyed h.inv (H.life i).id (H.life i).destroyedNs
  generalize j.destroyed (H.life i).id (H.life i).destroyedNs = j' at *
  -- what the ETW objects were before: only one bound to `i` has changed
  have hback : ∀ {k e'}, j'.etw k = some e' → ∃ e₀, j.etw k = some e₀ ∧ (e' = e₀ ∨
      e₀.boundId = (H.life i).id ∧ e' = (e₀.setBoundId 0).setOrphanTs
        (if (H.life i).destroyedNs ≠ 0 then (H.life i).destroyedNs else 1)) := by
    intro k e' he'
    rw [hetw] at he'
    split at he'
    · next hk =>
      obtain ⟨e₀, he₀, rfl⟩ := Option.map_eq_some_iff.mp he'
      obtain ⟨e₁, he₁, hb⟩ := h.inv.pairs.keyed ho hk.2
      rw [← hk.1, he₀] at he₁
      cases he₁
      exact ⟨e₀, he₀, .inr ⟨hb, rfl⟩⟩
    · exact ⟨e', he', .inl rfl⟩
  constructor
  case inv => exact hinv
  case live =>
    intro id o' ho'
    rw [hlive, Function.update_apply] at ho'
    split at ho'
    · cases ho'
    · next hne =>
      obtain ⟨i', hi', hid', hm'⟩ := h.live ho'
      refine ⟨i', alive_destroyed.mpr ⟨hi', ?_⟩, hid', hm'⟩
      rintro rfl
      exact hne hid'.symm
  case alive =>
    intro k hk
    obtain ⟨hk, hne⟩ := alive_destroyed.mp hk
    rw [hlive, Function.update_of_ne fun heq => hne (H.id_inj k i heq)]
    exact h.alive hk
  case etw =>
    intro k e' he'
    obtain ⟨e₀, he₀, hcase⟩ := hback he'
    obtain ⟨i', hi', hlib, hr⟩ := h.etw he₀
    refine ⟨i', known_destroyed.mpr hi', hlib, ?_⟩
    rcases hcase with rfl | ⟨hb, rfl⟩
    · exact hr.concat nofun
    · refine ⟨hr.type, hr.createdTs, hr.aliases, fun ha => hr.owns (by simpa using ha), ?_⟩
      intro ha
      have hz := (hr.unplaced (by simpa using ha)).1
      rw [h.inv.pairs.unplaced he₀ hz] at hb
      exact absurd hb.symm (H.id_ne i)
  case known =>
    intro k hk
    obtain ⟨e, he⟩ := h.known (known_destroyed.mp hk)
    rw [hetw, he]
    split
    · exact ⟨_, rfl⟩
    · exact ⟨e, rfl⟩
  case owner =>
    intro k hk
    rw [hbyAddr]
    exact h.owner (owns_destroyed.mp hk)
  case occupant =>
    intro k hk
    obtain ⟨hk, hne⟩ := alive_destroyed.mp hk
    rw [hocc, Join.occupant_forgetOccupant, if_neg]
    · exact h.occupant hk
    · rintro ⟨hp, -, -⟩
      exact hne (hf.alive_unique hk hi (hp.trans hm.ptr))
  case dead =>
    intro p x hxd
    rw [hdead, Join.dead_forgetOccupant] at hxd
    split at hxd
    · next hp =>
      rcases Join.mem_remember hxd with hxd | rfl
      · obtain ⟨k, hk, hrest⟩ := h.dead hxd
        exact ⟨k, List.mem_append_left _ hk, hrest⟩
      · exact ⟨i, by simp, hm.ptr.symm.trans hp.1.symm, hm.type, rfl⟩
    · obtain ⟨k, hk, hrest⟩ := h.dead hxd
      exact ⟨k, List.mem_append_left _ hk, hrest⟩
  case last =>
    intro k hk
    rw [hdead, Join.dead_forgetOccupant]
    split
    · next hp =>
      rw [Join.getLast?_remember]
      refine ⟨_, rfl, ?_⟩
      rcases List.mem_append.mp hk with hk | hk
      · exact hf.dies_last hi hk (hp.1.trans hm.ptr)
      · cases List.mem_singleton.mp hk
        exact le_rfl
    · next hp =>
      have hki : k ≠ i := by
        rintro rfl
        exact hp ⟨hm.ptr.symm, hm.ptr ▸ H.placed k⟩
      exact h.last (by simpa [hki] using hk)
  case bound =>
    intro k e' _ hk hown he'
    obtain ⟨hk, hne⟩ := alive_destroyed.mp hk
    obtain ⟨e₀, he₀, rfl | ⟨hb, -⟩⟩ := hback he'
    · exact h.bound (by simp) hk (owns_destroyed.mp hown) he₀
    · have hbk := h.bound (by simp) hk (owns_destroyed.mp hown) he₀
      exact absurd (H.id_inj k i (hbk.symm.trans hb)) hne
  case only =>
    intro k e' hk he' hb'
    obtain ⟨e₀, he₀, rfl | ⟨-, rfl⟩⟩ := hback he'
    · exact h.only (known_destroyed.mp hk) he₀ hb'
    · exact absurd rfl hb'
  case orphan =>
    intro k e' hk he' horph hnew
    have hnew' : .created k ∉ us := fun hmem => hnew (List.mem_append_left _ hmem)
    obtain ⟨e₀, he₀, rfl | ⟨hb, -⟩⟩ := hback he'
    · exact h.orphan (known_destroyed.mp hk) he₀ horph hnew'
    · have hbk := h.only (known_destroyed.mp hk) he₀ (by rw [hb]; exact H.id_ne i)
      obtain rfl := H.id_inj k i (hbk.symm.trans hb)
      exact absurd hi.1 hnew'

/-! ### Events of ETW -/

/-- The join has not seen the library id of an ETW object before that object is created. -/
theorem Sync.unseen (h : H.Sync us hole j) (hf : H.Facts us) {i : ι} (hrep : (H.life i).Reported)
    (hnew : .etwCreated i ∉ us) :
    j.etw (H.life i).libId = none ∧ j.canon (H.life i).libId = none := by
  have hnone : j.etw (H.life i).libId = none := by
    by_contra hsome
    obtain ⟨e, he⟩ := Option.ne_none_iff_exists'.mp hsome
    exact hnew (h.reports hf hrep he).1.1
  refine ⟨hnone, ?_⟩
  by_contra hsome
  obtain ⟨k, hk⟩ := Option.ne_none_iff_exists'.mp hsome
  obtain ⟨e, he, hxe⟩ := h.inv.index.canon hk
  obtain ⟨i', -, hlib, hr⟩ := h.etw he
  rw [hr.aliases] at hxe
  -- no entry has an alias, so that the id could only be its own
  rcases hxe with heq | hxe
  · rw [← heq, hnone] at he
    cases he
  · cases hxe

/-- **A new ETW object.** -/
theorem sync_etwCreated (h : H.Sync us none j) (hf : H.Facts us) {i : ι}
    (hx : H.Next us (.etwCreated i)) :
    H.Sync (us ++ [.etwCreated i]) none (j.step (H.op (.etwCreated i))) := by
  have hf' := H.facts_concat hf hx
  obtain ⟨hrep, hnew, -⟩ := hx
  have hplace : .etwAddress i ∉ us := fun ha => hnew (hf.known i ha)
  have hgone : .etwDestroyed i ∉ us := fun hd => hplace (hf.owned i hd)
  obtain ⟨hnone, hcanon⟩ := h.unseen hf hrep hnew
  obtain ⟨e, he⟩ : ∃ e : EtwObj, e =
      { type := (H.life i).etwType
        size := (H.life i).size
        group := fromGroup (H.life i).group
        createdTs := (H.life i).etwNs } := ⟨_, rfl⟩
  have hr : H.Reports (us ++ [.etwCreated i]) i e := by
    rw [he]
    exact ⟨rfl, rfl, rfl, fun ha => absurd ha (by simpa using hplace), fun _ => ⟨rfl, rfl⟩⟩
  have hstep : j.step (H.op (.etwCreated i))
      = (j.setEtw (H.life i).libId (some e)).setCanon (H.life i).libId (some (H.life i).libId) := by
    show j.etwCreated (H.life i).libId _ = _
    rw [← he, Join.etwCreated, hcanon, hnone]
    rfl
  have hinv : (j.step (H.op (.etwCreated i))).Inv :=
    Join.inv_etwCreated h.inv (H.lib_ne i hrep) rfl rfl rfl
  rw [hstep] at hinv ⊢
  -- an entry is the new one, or an old one
  have hback : ∀ {k e'}, ((j.setEtw (H.life i).libId (some e)).setCanon (H.life i).libId
      (some (H.life i).libId)).etw k = some e' →
      (k = (H.life i).libId ∧ e' = e) ∨ (k ≠ (H.life i).libId ∧ j.etw k = some e') := by
    intro k e' he'
    simp only [Join.setCanon_etw, Join.setEtw_etw, Function.update_apply] at he'
    split at he'
    · next hk => exact .inl ⟨hk, (Option.some.inj he').symm⟩
    · next hk => exact .inr ⟨hk, he'⟩
  constructor
  case inv => exact hinv
  case live =>
    intro id o ho
    obtain ⟨i', hi', hrest⟩ := h.live ho
    exact ⟨i', alive_etwCreated.mpr hi', hrest⟩
  case alive =>
    intro k hk
    exact h.alive (alive_etwCreated.mp hk)
  case etw =>
    intro k e' he'
    rcases hback he' with ⟨rfl, rfl⟩ | ⟨-, he'⟩
    · exact ⟨i, (known_etwCreated hgone).mpr (.inr rfl), rfl, hr⟩
    · obtain ⟨i', hi', hlib, hr'⟩ := h.etw he'
      exact ⟨i', (known_etwCreated hgone).mpr (.inl hi'), hlib, hr'.concat nofun⟩
  case known =>
    intro k hk
    by_cases hki : (H.life k).libId = (H.life i).libId
    · exact ⟨e, by simp [hki]⟩
    · have hne : k ≠ i := fun heq => hki (congrArg (fun l => (H.life l).libId) heq)
      obtain ⟨e', he'⟩ := h.known (((known_etwCreated hgone).mp hk).resolve_right hne)
      exact ⟨e', by simp [Function.update_of_ne hki, he']⟩
  case owner =>
    intro k hk
    exact h.owner (owns_etwCreated.mp hk)
  case occupant =>
    intro k hk
    exact h.occupant (alive_etwCreated.mp hk)
  case dead =>
    intro p x hxd
    obtain ⟨k, hk, hrest⟩ := h.dead hxd
    exact ⟨k, List.mem_append_left _ hk, hrest⟩
  case last =>
    intro k hk
    exact h.last (by simpa using hk)
  case bound =>
    intro k e' _ hk hown he'
    rcases hback he' with ⟨heq, -⟩ | ⟨-, he'⟩
    · have hown' := owns_etwCreated.mp hown
      obtain rfl := H.lib_inj k i (hf.reported k (hf.known k hown'.1)) hrep heq
      exact absurd hown'.1 hplace
    · exact h.bound (by simp) (alive_etwCreated.mp hk) (owns_etwCreated.mp hown) he'
  case only =>
    intro k e' hk he' hb'
    rcases hback he' with ⟨-, rfl⟩ | ⟨hne, he'⟩
    · rw [he] at hb'
      exact absurd rfl hb'
    · refine h.only (((known_etwCreated hgone).mp hk).resolve_right ?_) he' hb'
      rintro rfl
      exact hne rfl
  case orphan =>
    intro k e' hk he' horph hck
    rcases hback he' with ⟨-, rfl⟩ | ⟨hne, he'⟩
    · rw [he] at horph
      exact absurd rfl horph
    · have hold := ((known_etwCreated hgone).mp hk).resolve_right fun hki => hne (by rw [hki])
      exact h.orphan hold he' horph (by simpa using hck)

/-- The tables after an ETW object has got its address, before it is looked at. -/
theorem sync_own (h : H.Sync us none j) (hf : H.Facts us) {i : ι}
    (hx : H.Next us (.etwAddress i)) :
    H.Sync (us ++ [.etwAddress i]) (some i) (j.own (H.life i).libId (H.life i).ptr) := by
  obtain ⟨hc, hnew⟩ := hx
  have hrep := hf.reported i hc
  have hgone : .etwDestroyed i ∉ us := fun hd => hnew (hf.owned i hd)
  have hki : Known us i := ⟨hc, hgone⟩
  obtain ⟨e, he⟩ := h.known hki
  obtain ⟨-, hr⟩ := h.reports hf hrep he
  -- no address message yet: the record is unplaced and waits for nothing
  obtain ⟨hz, horph0⟩ := hr.unplaced hnew
  have hb0 := h.inv.pairs.unplaced he hz
  have hetw : ∀ k, (j.own (H.life i).libId (H.life i).ptr).etw k =
      if k = (H.life i).libId then some (e.setAddress (H.life i).ptr) else j.etw k := by
    intro k
    rw [Join.own, Join.setByAddr_etw, Join.etw_updEtw]
    split
    · next hk => rw [hk, he]; rfl
    · rfl
  have hlib : ∀ {k}, Known us k → (H.life k).libId = (H.life i).libId → k = i := fun hk heq =>
    H.lib_inj _ i (hf.reported _ hk.1) hrep heq
  constructor
  case inv => exact Join.inv_own h.inv he hz (H.placed i)
  case live =>
    intro id o ho
    obtain ⟨i', hi', hrest⟩ := h.live ho
    exact ⟨i', alive_etwAddress.mpr hi', hrest⟩
  case alive =>
    intro k hk
    exact h.alive (alive_etwAddress.mp hk)
  case etw =>
    intro k e' he'
    rw [hetw] at he'
    split at he'
    · next hk =>
      cases he'
      exact ⟨i, known_etwAddress.mpr hki, hk.symm, ⟨hr.type, hr.createdTs, hr.aliases, fun _ => rfl,
        fun hno => absurd (List.mem_append_right us (List.mem_singleton.mpr rfl)) hno⟩⟩
    · next hk =>
      obtain ⟨i', hi', hlib', hr'⟩ := h.etw he'
      refine ⟨i', known_etwAddress.mpr hi', hlib', hr'.concat ?_⟩
      rintro ⟨⟩
      exact hk hlib'.symm
  case known =>
    intro k hk
    rw [hetw]
    split
    · exact ⟨_, rfl⟩
    · exact h.known (known_etwAddress.mp hk)
  case owner =>
    intro k hk
    rw [Join.own, Join.setByAddr_byAddr, Function.update_apply]
    rcases (owns_etwAddress hgone).mp hk with hold | rfl
    · -- no other ETW object has this address
      rw [if_neg]
      · exact h.owner hold
      · intro hp
        have hki' := hf.known_unique (hf.known_of_owns hold) hki hp
        exact hnew (hki' ▸ hold.1)
    · rw [if_pos rfl]
  case occupant =>
    intro k hk
    exact h.occupant (alive_etwAddress.mp hk)
  case dead =>
    intro p x hxd
    obtain ⟨k, hk, hrest⟩ := h.dead hxd
    exact ⟨k, List.mem_append_left _ hk, hrest⟩
  case last =>
    intro k hk
    exact h.last (by simpa using hk)
  case bound =>
    intro k e' hhole hk hown he'
    have hne : k ≠ i := by
      rintro rfl
      exact hhole rfl
    have hown' := ((owns_etwAddress hgone).mp hown).resolve_right hne
    rw [hetw, if_neg fun heq => hne (hlib (hf.known_of_owns hown') heq)] at he'
    exact h.bound (by simp) (alive_etwAddress.mp hk) hown' he'
  case only =>
    intro k e' hk he' hb'
    rw [hetw] at he'
    split at he'
    · cases he'
      exact absurd hb0 hb'
    · exact h.only (known_etwAddress.mp hk) he' hb'
  case orphan =>
    intro k e' hk he' horph hck
    rw [hetw] at he'
    split at he'
    · cases he'
      exact absurd horph0 horph
    · exact h.orphan (known_etwAddress.mp hk) he' horph (by simpa using hck)

/-- **The address of an ETW object, in turn.** -/
theorem sync_etwAddress (h : H.Sync us none j) (hf : H.Facts us) {i : ι}
    (hx : H.Next us (.etwAddress i)) (ht : H.InTurn us (.etwAddress i)) :
    H.Sync (us ++ [.etwAddress i]) none (j.step (H.op (.etwAddress i))) := by
  have hown := sync_own h hf hx
  have hf' := H.facts_concat hf hx
  obtain ⟨hc, hnew⟩ := hx
  have hrep := hf.reported i hc
  have hgone : .etwDestroyed i ∉ us := fun hd => hnew (hf.owned i hd)
  have hki : Known us i := ⟨hc, hgone⟩
  have hoi : Owns (us ++ [.etwAddress i]) i := ⟨by simp, by simpa using hgone⟩
  obtain ⟨e, he⟩ := h.known hki
  obtain ⟨-, hr⟩ := h.reports hf hrep he
  obtain ⟨hz, horph0⟩ := hr.unplaced hnew
  have hb0 := h.inv.pairs.unplaced he hz
  have hfree : j.byAddr (H.life i).ptr = none := by
    by_contra hsome
    obtain ⟨k, hk⟩ := Option.ne_none_iff_exists'.mp hsome
    obtain ⟨l, -, hl, hptr, -, -, -⟩ := h.owner_of_byAddr hk
    obtain rfl := hf.known_unique (hf.known_of_owns hl) hki hptr
    exact hnew hl.1
  have hstep : j.step (H.op (.etwAddress i))
      = (j.own (H.life i).libId (H.life i).ptr).tryBind (H.life i).libId := by
    show j.etwAddress _ _ = _
    have hfind : j.find (H.life i).libId = some ((H.life i).libId, e) := by
      rw [Join.find, (h.inv.index.etw_key he).2, Option.bind_some, he]
      rfl
    rw [Join.etwAddress, if_neg (H.placed i), hfind]
    dsimp only
    rw [if_neg (not_not_intro hz), hfree]
    rfl
  rw [hstep]
  obtain ⟨j₁, hj₁⟩ : ∃ j₁, j.own (H.life i).libId (H.life i).ptr = j₁ := ⟨_, rfl⟩
  have he₁ : j₁.etw (H.life i).libId = some (e.setAddress (H.life i).ptr) := by
    rw [← hj₁, Join.own, Join.setByAddr_etw, Join.etw_updEtw, if_pos rfl, he]
    rfl
  rw [hj₁] at hown ⊢
  obtain ⟨-, hr₁⟩ := hown.reports hf' hrep he₁
  have hbindable : bindable (H.life i).etwType = true := by
    have hcompat := hrep
    unfold Life.Reported at hcompat
    revert hcompat
    cases (H.life i).etwType <;> simp [compatible, bindable]
  -- its own object, if that is there already
  have hcan : ∀ o, j₁.live (H.life i).id = some o →
      canBind (e.setAddress (H.life i).ptr) o = true := fun o ho =>
    canBind_own hrep hr₁ (hown.mirrors ho).2 hb0 horph0
  have hunbound : j₁.bindTarget (e.setAddress (H.life i).ptr) = none →
      ¬Alive (us ++ [.etwAddress i]) i := by
    intro hnone hi
    obtain ⟨o, ho⟩ := hown.alive hi
    have hcan' := hcan o ho
    rw [Join.bindTarget_none hnone (hown.occupant hi) ho] at hcan'
    cases hcan'
  rcases Join.tryBind_open he₁ hb0 horph0 (H.placed i) (by
      show bindable e.type = true
      rw [hr.type]
      exact hbindable) with
    ⟨id, o, hocc, ho, hc', hbind⟩ | ⟨x, hxd, hlate, hnone, hatt⟩ | ⟨hsame, hnone, -⟩
  · rw [hbind]
    obtain ⟨k, o', hk, hptr, hid, ho', hm⟩ := hown.alive_of_occupant hocc
    rw [ho] at ho'
    cases ho'
    have hki' : k = i := by
      by_contra hne
      rcases H.apart k i hne hptr with hki' | hik
      · exact ht k (alive_etwAddress.mp hk) hki' (fits_of_canBind hr₁ hm hc')
      · rw [not_canBind_later hrep hr₁ hm hik] at hc'
        cases hc'
    subst hki'
    rw [← hid] at ho ⊢
    exact hown.bind hf' rfl hk hoi he₁ ho hc'
  · rw [hatt]
    exact hown.late hf' rfl hoi he₁ hb0 hxd hlate (hunbound hnone)
  · rw [hsame]
    exact hown.close rfl fun hi => absurd hi (hunbound hnone)

/-- **The death of an ETW object.** -/
theorem sync_etwDestroyed (h : H.Sync us none j) (hf : H.Facts us) {i : ι}
    (hx : H.Next us (.etwDestroyed i)) :
    H.Sync (us ++ [.etwDestroyed i]) none (j.step (H.op (.etwDestroyed i))) := by
  obtain ⟨ha, hgone⟩ := hx
  have hki : Known us i := ⟨hf.known i ha, hgone⟩
  have hrep := hf.reported i hki.1
  obtain ⟨e, he⟩ := h.known hki
  obtain ⟨-, hr⟩ := h.reports hf hrep he
  have hinv : (j.step (H.op (.etwDestroyed i))).Inv := Join.inv_etwDestroyed h.inv _
  -- the object is found under its own library id
  have hstep : j.step (H.op (.etwDestroyed i))
      = (j.unkey (H.life i).libId e).drop (H.life i).libId e := by
    show j.etwDestroyed _ = _
    have hfind : j.find (H.life i).libId = some ((H.life i).libId, e) := by
      rw [Join.find, (h.inv.index.etw_key he).2, Option.bind_some, he]
      rfl
    rw [Join.etwDestroyed, hfind]
  rw [hstep] at hinv ⊢
  obtain ⟨-, hbyAddr, hocc, hdead⟩ := Join.unkey_frame j (H.life i).libId e
  have hlib : ∀ {k}, Known us k → (H.life k).libId = (H.life i).libId → k = i := fun hk heq =>
    H.lib_inj _ i (hf.reported _ hk.1) hrep heq
  -- what is left was there before, and is another object
  have hback : ∀ {k e'}, ((j.unkey (H.life i).libId e).drop (H.life i).libId e).etw k = some e' →
      k ≠ (H.life i).libId ∧ j.etw k = some e' := by
    intro k e' he'
    rw [Join.etw_drop, Join.etw_unkey] at he'
    split at he'
    · cases he'
    · next hk => exact ⟨hk, he'⟩
  constructor
  case inv => exact hinv
  case live =>
    intro id o ho
    rw [Join.live_drop] at ho
    obtain ⟨o', ho', hcase⟩ := Join.live_unkey ho
    obtain ⟨i', hi', hid, hm⟩ := h.live ho'
    refine ⟨i', alive_etwDestroyed.mpr hi', hid, ?_⟩
    rcases hcase with ⟨rfl, -⟩ | rfl
    · exact hm
    · exact ⟨hm.type, hm.ptr, hm.newer, hm.older⟩
  case alive =>
    intro k hk
    rw [Join.live_drop]
    obtain ⟨o, ho⟩ := h.alive (alive_etwDestroyed.mp hk)
    exact Join.live_unkey_isSome ho
  case etw =>
    intro k e' he'
    obtain ⟨hk, he'⟩ := hback he'
    obtain ⟨i', hi', hlib', hr'⟩ := h.etw he'
    refine ⟨i', known_etwDestroyed.mpr ⟨hi', ?_⟩, hlib', hr'.concat nofun⟩
    rintro rfl
    exact hk hlib'.symm
  case known =>
    intro k hk
    obtain ⟨hk, hne⟩ := known_etwDestroyed.mp hk
    rw [Join.etw_drop, Join.etw_unkey, if_neg fun heq => hne (hlib hk heq)]
    exact h.known hk
  case owner =>
    intro k hk
    obtain ⟨hk, hne⟩ := owns_etwDestroyed.mp hk
    rw [Join.byAddr_drop, hbyAddr, if_neg]
    · exact h.owner hk
    · rintro ⟨hp, -, -⟩
      rw [hr.owns ha] at hp
      exact hne (hf.known_unique (hf.known_of_owns hk) hki hp)
  case occupant =>
    intro k hk
    rw [Join.occupant_drop, hocc]
    exact h.occupant (alive_etwDestroyed.mp hk)
  case dead =>
    intro p x hxd
    rw [Join.dead_drop, hdead] at hxd
    obtain ⟨k, hk, hrest⟩ := h.dead hxd
    exact ⟨k, List.mem_append_left _ hk, hrest⟩
  case last =>
    intro k hk
    rw [Join.dead_drop, hdead]
    exact h.last (by simpa using hk)
  case bound =>
    intro k e' _ hk hown he'
    exact h.bound (by simp) (alive_etwDestroyed.mp hk) (owns_etwDestroyed.mp hown).1 (hback he').2
  case only =>
    intro k e' hk he' hb'
    exact h.only (known_etwDestroyed.mp hk).1 (hback he').2 hb'
  case orphan =>
    intro k e' hk he' horph hck
    exact h.orphan (known_etwDestroyed.mp hk).1 (hback he').2 horph (by simpa using hck)

/-! ### Interleavings -/

/-- **The next event of an interleaving, wherever it comes from.** -/
theorem sync_step (h : H.Sync us none j) (hf : H.Facts us) {x : Ev ι} (hx : H.Next us x)
    (ht : H.InTurn us x) : H.Sync (us ++ [x]) none (j.step (H.op x)) := by
  cases x with
  | created i => exact sync_created h hf hx ht
  | destroyed i => exact sync_destroyed h hf hx
  | etwCreated i => exact sync_etwCreated h hf hx
  | etwAddress i => exact sync_etwAddress h hf hx ht
  | etwDestroyed i => exact sync_etwDestroyed h hf hx

/-- **The invariant holds after every orderly interleaving.** -/
theorem sync_run {xs : List (Ev ι)} (hxs : H.Interleaving xs) (ht : H.Orderly xs) :
    H.Facts xs ∧ H.Sync xs none (Machine.run (fun j x => j.step (H.op x)) Join.empty xs) := by
  refine Machine.run_induction _ Join.empty (fun xs => H.Interleaving xs ∧ H.Orderly xs)
    (fun xs j => H.Facts xs ∧ H.Sync xs none j) ?_ ?_ ?_ xs ⟨hxs, ht⟩
  · rintro xs x ⟨hall, hturn⟩
    refine ⟨fun ⟨us, y, vs, heq, hy⟩ => hall ⟨us, y, vs ++ [x], by simp [heq], hy⟩,
      fun ⟨us, y, vs, heq, hy⟩ => hturn ⟨us, y, vs ++ [x], by simp [heq], hy⟩⟩
  · refine ⟨⟨?_, ?_, ?_, ?_, ?_, ?_⟩, H.sync_nil⟩ <;> simp
  · rintro xs x ⟨hall, hturn⟩ ⟨hf, h⟩
    have hx : H.Next xs x := by
      by_contra hx
      exact hall ⟨xs, x, [], rfl, hx⟩
    have ht : H.InTurn xs x := by
      by_contra ht
      exact hturn ⟨xs, x, [], rfl, ht⟩
    exact ⟨H.facts_concat hf hx, sync_step h hf hx ht⟩

/-- The call of the launcher's model that an event is; `start` is when the clock of the pipe
began, on the clock of ETW. -/
def call (H : History ι) (start : ℕ) : Ev ι → Step
  | .created i => .event (H.life i).createdNs (.created (H.life i).payload)
  | .destroyed i => .event (H.life i).destroyedNs (.destroyed ⟨(H.life i).id⟩)
  | .etwCreated i =>
    .objectCreated ((H.life i).etwNs + start : ℕ) (H.life i).libId (H.life i).etwType
      (H.life i).size (H.life i).group
  | .etwAddress i => .objectAddress (H.life i).env (H.life i).libId (H.life i).ptr
  | .etwDestroyed i => .objectDestroyed (H.life i).etwGoneTs (H.life i).libId

end History

namespace Model

variable {ι : Type*}

/-! ### The clock -/

/-- Whether, and when, the clock of the pipe began. -/
def clock (m : Model) : Bool × ℕ := (m.helloSeen, m.qpcStartNs)

/-- The clock has nothing to do with the join. -/
theorem clock_of_sansJoin {m m' : Model} (h : m.sansJoin = m'.sansJoin) : m.clock = m'.clock :=
  congrArg (fun v => (v.rest.helloSeen, v.rest.qpcStartNs)) h

theorem clock_onCreated (m : Model) (ts : ℕ) (p : CreatedPayload) :
    (m.onCreated ts p).clock = m.clock := by
  have hjoin : ∀ r : Model, (if r.etwEnabled then r.etwOnCreated p.id ts else r).clock
      = r.clock := by
    intro r
    split
    · exact clock_of_sansJoin (sansJoin_etwOnCreated r p.id ts)
    · rfl
  exact (hjoin _).trans rfl

theorem clock_onDestroyed (m : Model) (ts : ℕ) (p : DestroyedPayload) :
    (m.onDestroyed ts p).clock = m.clock := by
  have hjoin : (if m.etwEnabled then m.etwOnDestroyed p.id ts else m).clock = m.clock := by
    split
    · exact clock_of_sansJoin (sansJoin_etwOnDestroyed m p.id ts)
    · rfl
  unfold onDestroyed
  cases m.live.lookup p.id with
  | none => rfl
  | some o => exact hjoin

/-- No event of the history sets the clock. -/
theorem clock_call (H : History ι) (m : Model) (start : ℕ) (x : Ev ι) :
    (m.step (H.call start x)).clock = m.clock := by
  cases x with
  | created i => exact clock_onCreated (m.setLatestNs _) _ _
  | destroyed i => exact clock_onDestroyed (m.setLatestNs _) _ _
  | etwCreated i => exact clock_of_sansJoin (sansJoin_onEtwObjectCreated m _ _ _ _ _)
  | etwAddress i => exact clock_of_sansJoin (sansJoin_onEtwObjectAddress m _ _ _)
  | etwDestroyed i => exact clock_of_sansJoin (sansJoin_onEtwObjectDestroyed m _ _)

/-- A stamp of ETW, on the clock of the pipe. -/
theorem convTs_add {m : Model} {start : ℕ} (h : m.clock = (true, start)) (t : ℕ) :
    m.convTs ((t + start : ℕ) : ℤ) = t := by
  obtain ⟨hhello, hstart⟩ := Prod.mk.inj h
  unfold convTs
  rw [hhello, hstart]
  by_cases h0 : ((t + start : ℕ) : ℤ) ≤ 0
  · have : t = 0 := by omega
    simp [this]
  · have hpos : (!true || decide (((t + start : ℕ) : ℤ) ≤ 0)) = false := by
      simp only [Bool.not_true, Bool.false_or, decide_eq_false_iff_not]
      exact h0
    rw [hpos, if_neg Bool.false_ne_true, Int.toNat_natCast]
    split <;> omega

/-- Each event is one operation of the join. -/
theorem join_calls (H : History ι) {m : Model} (hetw : m.etwEnabled = true) {start : ℕ}
    (h : m.clock = (true, start)) (xs : List (Ev ι)) :
    (m.after (xs.map (H.call start))).join
      = Machine.run (fun j x => j.step (H.op x)) m.join xs := by
  induction xs generalizing m with
  | nil => rfl
  | cons x xs ih =>
    have hx : (m.step (H.call start x)).join = m.join.step (H.op x) := by
      rw [join_step hetw]
      cases x with
      | etwCreated i =>
        show Machine.run _ _ [Join.Op.etwCreated _ _ _ _ (m.convTs _)] = _
        rw [convTs_add h]
        rfl
      | _ => rfl
    rw [Machine.run_cons, ← hx]
    exact ih ((etwEnabled_step m _).trans hetw) ((clock_call H m start x).trans h)

/-! ### The pairs -/

/-- The ETW object `k` is bound to the tracked object `id`. -/
def Bound (m : Model) (id k : ℕ) : Prop :=
  ∃ e, m.etwObjs.lookup k = some e ∧ e.boundId = id ∧ id ≠ 0

/-- The launcher's model after the hello record. -/
def greeted (etw : EtwOptions) (helloNs : ℕ) (hello : HelloPayload) : Model :=
  (start etw).step (.event helloNs (.hello hello))

/-- The model after some events of a history. -/
def seen (etw : EtwOptions) (helloNs : ℕ) (hello : HelloPayload) (H : History ι)
    (xs : List (Ev ι)) : Model :=
  (greeted etw helloNs hello).after (xs.map (H.call (greeted etw helloNs hello).qpcStartNs))

/-- The join of the launcher is the join of the events. -/
theorem join_seen (etw : EtwOptions) (helloNs : ℕ) (hello : HelloPayload) (H : History ι)
    (xs : List (Ev ι)) :
    (seen etw helloNs hello H xs).join
      = Machine.run (fun j x => j.step (H.op x)) Join.empty xs := by
  have hhello : (greeted etw helloNs hello).helloSeen = true := by
    show (Model.onHello _ _ _).helloSeen = true
    unfold onHello
    dsimp only
    split <;> rfl
  have hetw : (greeted etw helloNs hello).etwEnabled = true :=
    etwEnabled_start etw [.event helloNs (.hello hello)]
  have hjoin : (greeted etw helloNs hello).join = Join.empty :=
    (join_after (m := start etw) rfl [.event helloNs (.hello hello)]).trans (join_start etw)
  rw [seen, join_calls H hetw (by rw [clock, hhello]), hjoin]

/-- **Either side may arrive first.**  As long as no step is out of turn, whatever order the
two streams arrive in, the pairs are those of the objects that are alive in both. -/
theorem bound_iff (etw : EtwOptions) (helloNs : ℕ) (hello : HelloPayload) (H : History ι)
    (xs : List (Ev ι)) (hxs : H.Interleaving xs) (ht : H.Orderly xs) (id k : ℕ) :
    (seen etw helloNs hello H xs).Bound id k ↔
      ∃ i, (H.life i).id = id ∧ (H.life i).libId = k ∧ History.Alive xs i ∧ History.Owns xs i := by
  obtain ⟨hf, h⟩ := History.sync_run hxs ht
  rw [← join_seen etw helloNs hello H xs] at h
  generalize seen etw helloNs hello H xs = m at h ⊢
  constructor
  · rintro ⟨e, he, hid, hid0⟩
    have he' : m.join.etw k = some e.noWait := by
      rw [join_etw, he]
      rfl
    have hb : e.noWait.boundId ≠ 0 := by
      show e.boundId ≠ 0
      rw [hid]
      exact hid0
    obtain ⟨i, hi, hlib, hr⟩ := h.etw he'
    have hbi : e.boundId = (H.life i).id := h.only (e := e.noWait) hi (by rw [hlib]; exact he') hb
    -- it has its address, and its tracked object is there
    have hown : .etwAddress i ∈ xs := by
      by_contra hno
      exact hb (h.inv.pairs.unplaced (e := e.noWait) he' (hr.unplaced hno).1)
    obtain ⟨o, ho, -⟩ := h.inv.pairs.bound (e := e.noWait) he' hb
    have ho' : m.join.live (H.life i).id = some o := by
      rw [← hbi]
      exact ho
    exact ⟨i, hbi.symm.trans hid, hlib, (h.mirrors ho').1, hown, hi.2⟩
  · rintro ⟨i, rfl, rfl, halive, hown⟩
    obtain ⟨e, he⟩ := h.known (hf.known_of_owns hown)
    have hb := h.bound (by simp) halive hown he
    rw [join_etw] at he
    obtain ⟨e', he', rfl⟩ := Option.map_eq_some_iff.mp he
    exact ⟨e', he', hb, H.id_ne i⟩

/-! ### One reuse of an address -/

/-- Two resources, one after the other at the same address. -/
def reuse : History Bool where
  life i :=
    { payload := plainCreated (i.toNat + 1) .resource .committed 4096 65536 0
      createdNs := 1000000 + 2000000 * i.toNat
      destroyedNs := 2000000 + 2000000 * i.toNat
      libId := i.toNat + 7
      etwType := .resource
      size := 0
      group := .local
      etwNs := 900000 + 2000000 * i.toNat }
  id_ne := by decide
  id_inj := by decide
  lib_ne := by decide
  lib_inj := by decide
  placed := by decide
  lasts := by decide
  apart := by decide
  stamped := by decide
  after := by decide
  fits := by decide

/-- The streams keep step. -/
def stepwise : List (Ev Bool) :=
  [.etwCreated false, .etwAddress false, .created false, .destroyed false,
    .etwDestroyed false, .created true, .etwCreated true, .etwAddress true]

/-- ETW runs ahead of the pipe past the reuse. -/
def ahead : List (Ev Bool) :=
  [.etwCreated false, .etwAddress false, .etwDestroyed false, .etwCreated true,
    .etwAddress true, .created false, .destroyed false, .created true]

/-- The hello of the target. -/
def greeting : HelloPayload :=
  { protocolVersion := 5, pid := 1, qpcFrequency := 10000000, qpcStart := 50,
    exePath := NameBuf.copy [] }

/-- In step with the events, the second object is bound to the second entry. -/
theorem bound_iff_stepwise :
    (seen ⟨true, [], [], 5000⟩ 0 greeting reuse stepwise).Bound 2 8 :=
  (bound_iff ⟨true, [], [], 5000⟩ 0 greeting reuse stepwise (by decide) (by decide) 2 8).mpr
    ⟨true, rfl, rfl, by decide, by decide⟩

/-- **The order of arrival matters.**  The same two streams, of which ETW's comes first: the
second ETW object is bound to the first resource and dies with it, and the second resource is
left alone, although both sides of it are alive. -/
theorem not_bound_ahead :
    reuse.Interleaving stepwise ∧ reuse.Interleaving ahead ∧
      (stepwise.filter fun x => x matches .created _ | .destroyed _) =
        (ahead.filter fun x => x matches .created _ | .destroyed _) ∧
      (stepwise.filter fun x => !x matches .created _ | .destroyed _) =
        (ahead.filter fun x => !x matches .created _ | .destroyed _) ∧
      (seen ⟨true, [], [], 5000⟩ 0 greeting reuse stepwise).Bound 2 8 ∧
      ¬(seen ⟨true, [], [], 5000⟩ 0 greeting reuse ahead).Bound 2 8 := by
  refine ⟨by decide, by decide, by decide, by decide, ?_, ?_⟩
  · have hb : ((seen ⟨true, [], [], 5000⟩ 0 greeting reuse stepwise).etwObjs.lookup 8).map
        EtwObj.boundId = some 2 := by decide
    obtain ⟨e, he, hid⟩ := Option.map_eq_some_iff.mp hb
    exact ⟨e, he, hid, by decide⟩
  · rintro ⟨e, he, hid, -⟩
    have hb : ((seen ⟨true, [], [], 5000⟩ 0 greeting reuse ahead).etwObjs.lookup 8).map
        EtwObj.boundId = some 0 := by decide
    rw [he, Option.map_some, hid] at hb
    cases hb

end Model

end Dx12Track
