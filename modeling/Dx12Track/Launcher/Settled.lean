import Mathlib.Data.Set.Insert
import Dx12Track.Launcher.JoinMoves

/-!
# The owner of an address has nothing left to try

When no two tracked objects are alive at one address, an ETW object looks for its
tracked object once: when it takes its address.  If it finds none it can only be
found, by a new object at the address; a second attempt would do nothing.

* `Join.Quiet` — no object, alive or dead, at its address is the one `e` looks for.
* `Join.Settled` — every live object occupies its address, and every owner of an
  address is quiet.
* `Join.QuietIf`, `Join.SettledIf` — what is left of them when two objects may be
  alive at one address: the dead are not looked at.
* `Join.settledIf_step` — **every operation keeps the join settled**.
* `Join.tryBind_of_quiet` — the second attempt.
-/

namespace Dx12Track

open Model (canBind lateMatch obituary remember liveOfCreated)

/-- What cannot bind to a live object is not attributed to it once it is dead. -/
theorem lateMatch_of_canBind {e : EtwObj} {o : LiveObject} (hb : e.boundId = 0)
    (ho : e.orphanTs = 0) (hc : canBind e o = false) (ts : ℕ) :
    lateMatch e (obituary o ts) = false := by
  rw [← Bool.not_eq_true]
  intro hl
  simp only [lateMatch, obituary, Bool.and_eq_true] at hl
  have hcan : canBind e o = true :=
    (canBind_iff e o).mpr ⟨hb, ho, hl.1.1, of_decide_eq_true hl.2⟩
  rw [hcan] at hc
  cases hc

namespace Join

/-- If `e` is neither bound nor an orphan, neither the occupant of its address nor a dead
one is its tracked object. -/
def Quiet (j : Join) (e : EtwObj) : Prop :=
  e.boundId = 0 → e.orphanTs = 0 → bindable e.type = true →
    (∀ id o, j.occupant e.address = some id → j.live id = some o → canBind e o = false) ∧
    ∀ x ∈ j.dead e.address, lateMatch e x = false

/-- The same of the occupant, and of the dead if no two objects are alive at one address. -/
def QuietIf (alone : Prop) (j : Join) (e : EtwObj) : Prop :=
  e.boundId = 0 → e.orphanTs = 0 → bindable e.type = true →
    (∀ id o, j.occupant e.address = some id → j.live id = some o → canBind e o = false) ∧
    (alone → ∀ x ∈ j.dead e.address, lateMatch e x = false)

/-- Every live object occupies its address, and every owner outside `off` is quiet. -/
structure Settled (off : Set ℕ) (j : Join) : Prop where
  occupied : ∀ {id o}, j.live id = some o → o.objectPtr ≠ 0 → j.occupant o.objectPtr = some id
  quiet : ∀ {a k e}, k ∉ off → j.byAddr a = some k → j.etw k = some e → j.Quiet e

/-- The same, with what is known of the dead and of the live that no two of them share an
address. -/
structure SettledIf (alone : Prop) (off : Set ℕ) (j : Join) : Prop where
  occupied : ∀ {id o}, alone → j.live id = some o → o.objectPtr ≠ 0 →
    j.occupant o.objectPtr = some id
  quiet : ∀ {a k e}, k ∉ off → j.byAddr a = some k → j.etw k = some e → j.QuietIf alone e

theorem quietIf_true {j : Join} {e : EtwObj} : j.QuietIf True e ↔ j.Quiet e := by
  unfold QuietIf Quiet
  simp only [true_imp_iff]

theorem settledIf_true {off : Set ℕ} {j : Join} : j.SettledIf True off ↔ j.Settled off := by
  constructor
  · intro h
    exact ⟨h.occupied trivial, fun hk ha he => quietIf_true.mp (h.quiet hk ha he)⟩
  · intro h
    exact ⟨fun _ => h.occupied, fun hk ha he => quietIf_true.mpr (h.quiet hk ha he)⟩

theorem settledIf_empty (alone : Prop) : empty.SettledIf alone ∅ := by
  constructor <;> simp [empty]

theorem settled_empty : empty.Settled ∅ := settledIf_true.mp (settledIf_empty True)

variable {alone : Prop}

theorem SettledIf.mono {j : Join} {off off' : Set ℕ} (h : j.SettledIf alone off)
    (hoff : off ⊆ off') : j.SettledIf alone off' :=
  ⟨h.occupied, fun hk => h.quiet fun hk' => hk (hoff hk')⟩

/-- A bound object is quiet. -/
theorem quiet_of_bound {j : Join} {e : EtwObj} (hb : e.boundId ≠ 0) : j.QuietIf alone e :=
  fun hb' => absurd hb' hb

/-- An orphan is quiet. -/
theorem quiet_of_orphan {j : Join} {e : EtwObj} (ho : e.orphanTs ≠ 0) : j.QuietIf alone e :=
  fun _ ho' => absurd ho' ho

/-- **A second attempt does nothing.** -/
theorem tryBind_of_quiet {j : Join} {key : ℕ} {e : EtwObj} (he : j.etw key = some e)
    (hq : j.Quiet e) : j.tryBind key = j := by
  by_cases hg : e.boundId ≠ 0 ∨ e.orphanTs ≠ 0 ∨ e.address = 0 ∨ bindable e.type = false
  · unfold tryBind
    rw [he]
    exact if_pos hg
  · push Not at hg
    obtain ⟨hb, ho, ha, ht⟩ := hg
    have ht : bindable e.type = true := by simpa using ht
    obtain ⟨hlive, hdead⟩ := hq hb ho ht
    rcases tryBind_open he hb ho ha ht with ⟨id, o, hocc, hl, hc, -⟩ | ⟨x, hx, hl, -⟩ | ⟨hj, -⟩
    · rw [hlive id o hocc hl] at hc
      cases hc
    · rw [hdead x hx] at hl
      cases hl
    · exact hj

/-! ### What keeps an object quiet -/

/-- An object stays quiet while what it reads does not change. -/
theorem QuietIf.congr {j j' : Join} {e e' : EtwObj} (h : j.QuietIf alone e)
    (he : e'.type = e.type ∧ e'.createdTs = e.createdTs ∧ e'.address = e.address)
    (hopen : e'.boundId = 0 → e'.orphanTs = 0 → e.boundId = 0 ∧ e.orphanTs = 0)
    (hlive : ∀ id o', j'.occupant e.address = some id → j'.live id = some o' →
      ∃ o, j.occupant e.address = some id ∧ j.live id = some o ∧ o'.type = o.type ∧
        o'.prevDestroyNs = o.prevDestroyNs)
    (hdead : alone → ∀ x ∈ j'.dead e.address, x ∈ j.dead e.address) : j'.QuietIf alone e' := by
  obtain ⟨htype, hts, haddr⟩ := he
  intro hb' ho' ht'
  obtain ⟨hb, ho⟩ := hopen hb' ho'
  obtain ⟨hl, hd⟩ := h hb ho (htype ▸ ht')
  rw [haddr]
  constructor
  · intro id o' hocc' hlive'
    obtain ⟨o, hocc, hlo, hot, hop⟩ := hlive id o' hocc' hlive'
    have hc := hl id o hocc hlo
    rw [← Bool.not_eq_true, canBind_iff] at hc ⊢
    rintro ⟨-, -, hcomp, hprev⟩
    rw [htype, hot] at hcomp
    rw [hop, hts] at hprev
    exact hc ⟨hb, ho, hcomp, hprev⟩
  · intro hal x hx
    have hx := hd hal x (hdead hal x hx)
    unfold lateMatch at hx ⊢
    rw [htype, hts]
    exact hx

/-- A write to a live object that keeps its type, its address and its predecessor. -/
theorem SettledIf.updLive {j : Join} {off : Set ℕ} (h : j.SettledIf alone off) (id : ℕ)
    {f : LiveObject → LiveObject}
    (hf : ∀ o, (f o).type = o.type ∧ (f o).prevDestroyNs = o.prevDestroyNs ∧
      (f o).objectPtr = o.objectPtr) : (j.updLive id f).SettledIf alone off := by
  have hback : ∀ {i o'}, (j.updLive id f).live i = some o' →
      ∃ o, j.live i = some o ∧ o'.type = o.type ∧ o'.prevDestroyNs = o.prevDestroyNs ∧
        o'.objectPtr = o.objectPtr := by
    intro i o' ho'
    rw [live_updLive] at ho'
    split at ho'
    · obtain ⟨o, ho, rfl⟩ := Option.map_eq_some_iff.mp ho'
      exact ⟨o, ho, hf o⟩
    · exact ⟨o', ho', rfl, rfl, rfl⟩
  constructor
  · intro i o' hal ho' hp
    obtain ⟨o, ho, -, -, hptr⟩ := hback ho'
    rw [hptr] at hp ⊢
    exact h.occupied hal ho hp
  · intro a k e hk hkey he
    refine QuietIf.congr (h.quiet hk hkey he) ⟨rfl, rfl, rfl⟩ (fun hb ho => ⟨hb, ho⟩) ?_
      fun _ x hx => hx
    intro i o' hocc ho'
    obtain ⟨o, ho, htype, hprev, -⟩ := hback ho'
    exact ⟨o, hocc, ho, htype, hprev⟩

/-- A write to an ETW object that keeps its type, its address and its age, and frees it of
no binding. -/
theorem SettledIf.updEtw {j : Join} {off : Set ℕ} (h : j.SettledIf alone off) (key : ℕ)
    {f : EtwObj → EtwObj}
    (hf : ∀ e, (f e).type = e.type ∧ (f e).createdTs = e.createdTs ∧ (f e).address = e.address)
    (hopen : (∀ a, j.byAddr a ≠ some key) ∨
      ∀ e, (f e).boundId = 0 → (f e).orphanTs = 0 → e.boundId = 0 ∧ e.orphanTs = 0) :
    (j.updEtw key f).SettledIf alone off := by
  refine ⟨h.occupied, fun {a k e'} hk hkey he' => ?_⟩
  rw [etw_updEtw] at he'
  split at he'
  · next hkk =>
    obtain ⟨e, he, rfl⟩ := Option.map_eq_some_iff.mp he'
    rcases hopen with hno | hopen
    · exact absurd (hkk ▸ hkey) (hno a)
    · refine QuietIf.congr (h.quiet hk hkey he) (hf e) (hopen e) ?_ fun _ x hx => hx
      exact fun i o hocc ho => ⟨o, hocc, ho, rfl, rfl⟩
  · exact h.quiet hk hkey he'

/-- A change of what is neither read nor owned. -/
theorem SettledIf.of_frame {j j' : Join} {off : Set ℕ} (h : j.SettledIf alone off)
    (hlive : j'.live = j.live) (hocc : j'.occupant = j.occupant)
    (hdead : alone → ∀ a, ∀ x ∈ j'.dead a, x ∈ j.dead a)
    (hown : ∀ {a k e}, k ∉ off → j'.byAddr a = some k → j'.etw k = some e →
      j.byAddr a = some k ∧ j.etw k = some e) : j'.SettledIf alone off := by
  constructor
  · rw [hlive, hocc]
    exact h.occupied
  · intro a k e hk hkey he
    obtain ⟨hkey, he⟩ := hown hk hkey he
    refine QuietIf.congr (h.quiet hk hkey he) ⟨rfl, rfl, rfl⟩ (fun hb ho => ⟨hb, ho⟩) ?_
      fun hal => hdead hal e.address
    rw [hlive, hocc]
    exact fun i o hi ho => ⟨o, hi, ho, rfl, rfl⟩

/-! ### Binding -/

/-- When the owner `key` of `o`'s address binds to `o`, whoever loses `o` owns no address. -/
theorem unowned_of_lost {j : Join} {key id : ℕ} {o : LiveObject} (hinv : j.Inv)
    (ho : j.live id = some o) (hown : j.byAddr o.objectPtr = some key) (h0 : o.etwKey ≠ 0)
    (hne : o.etwKey ≠ key) (a : ℕ) : j.byAddr a ≠ some o.etwKey := by
  intro ha
  obtain ⟨e', he', hb'⟩ := hinv.pairs.keyed ho h0
  obtain ⟨o', ho', hp⟩ := hinv.pairs.bound he' (by rw [hb']; exact (hinv.index.live_id ho).2)
  rw [hb', ho] at ho'
  cases ho'
  -- it was bound to `o`, so it had the same address, which belongs to `key`
  obtain ⟨-, e'', he'', haddr⟩ := hinv.index.byAddr ha
  rw [he'] at he''
  cases he''
  rw [← haddr, hp.address, hown] at ha
  cases ha
  exact hne rfl

/-- The owner `key` of `o`'s address binds to `o`. -/
theorem settled_bind {j : Join} {key id : ℕ} {e : EtwObj} {o : LiveObject} (hinv : j.Inv)
    (h : j.SettledIf alone {key}) (ho : j.live id = some o)
    (hown : j.byAddr o.objectPtr = some key) :
    (j.bind key id e o).SettledIf alone ∅ := by
  obtain ⟨hid, hid0⟩ := hinv.index.live_id ho
  obtain ⟨-, hbyAddr, hocc, hdead⟩ := bind_frame j key id e o
  have hlost : (j.unbindOther key o).SettledIf alone {key} := by
    unfold unbindOther
    split
    · next hother =>
      exact h.updEtw o.etwKey (fun _ => ⟨rfl, rfl, rfl⟩)
        (.inl (unowned_of_lost hinv ho hown hother.1 hother.2))
    · exact h
  have hpaired : (j.bind key id e o).SettledIf alone {key} := by
    unfold bind
    refine SettledIf.updLive ?_ id fun _ => ⟨rfl, rfl, rfl⟩
    refine ⟨hlost.occupied, fun {a k e'} hk hkey he' => ?_⟩
    rw [etw_updEtw, if_neg (by simpa using hk)] at he'
    exact hlost.quiet hk hkey he'
  -- and `key` is bound now
  refine ⟨hpaired.occupied, fun {a k e'} _ hkey he' => ?_⟩
  by_cases hk : k = key
  · rw [etw_bind, if_pos hk] at he'
    obtain ⟨e₀, -, rfl⟩ := Option.map_eq_some_iff.mp he'
    exact quiet_of_bound (by rw [EtwObj.setBoundId, hid]; exact hid0)
  · exact hpaired.quiet (by simpa using hk) hkey he'

/-- The attempt of the owner of an address settles it. -/
theorem settled_tryBind {j : Join} {key : ℕ} {e : EtwObj} (hinv : j.Inv)
    (h : j.SettledIf alone {key}) (he : j.etw key = some e) (hown : j.byAddr e.address = some key) :
    (j.tryBind key).SettledIf alone ∅ := by
  -- it is enough that `key` is quiet afterwards, if it was all that was open
  have hclose : j.QuietIf alone e → j.SettledIf alone ∅ := by
    intro hq
    refine ⟨h.occupied, fun {a k e'} _ hkey he' => ?_⟩
    by_cases hk : k = key
    · rw [hk, he] at he'
      cases he'
      exact hq
    · exact h.quiet (by simpa using hk) hkey he'
  by_cases hg : e.boundId ≠ 0 ∨ e.orphanTs ≠ 0 ∨ e.address = 0 ∨ bindable e.type = false
  · have hj : j.tryBind key = j := by
      unfold tryBind
      rw [he]
      exact if_pos hg
    rw [hj]
    refine hclose fun hb ho ht => ?_
    rcases hg with hg | hg | hg | hg
    · exact absurd hb hg
    · exact absurd ho hg
    · exact absurd hg (hinv.index.byAddr hown).1
    · rw [ht] at hg
      cases hg
  · push Not at hg
    obtain ⟨hb, ho, ha, ht⟩ := hg
    rcases tryBind_open he hb ho ha (by simpa using ht) with
      ⟨id, o, hocc, hl, -, hj⟩ | ⟨x, -, -, -, hj⟩ | ⟨hj, htarget, hdead⟩
    · obtain ⟨-, o', ho', hptr⟩ := hinv.index.occupant hocc
      rw [hl] at ho'
      cases ho'
      rw [hj]
      exact settled_bind hinv h hl (hptr ▸ hown)
    · rw [hj]
      unfold attributeLate
      refine ⟨h.occupied, fun {a k e'} _ hkey he' => ?_⟩
      rw [etw_updEtw] at he'
      split at he'
      · obtain ⟨e₀, -, rfl⟩ := Option.map_eq_some_iff.mp he'
        refine quiet_of_orphan ?_
        show (if x.destroyedNs ≠ 0 then x.destroyedNs else 1) ≠ 0
        split
        · next hx => exact hx
        · exact Nat.one_ne_zero
      · next hk => exact h.quiet (by simpa using hk) hkey he'
    · rw [hj]
      exact hclose fun _ _ _ =>
        ⟨fun id o hocc hl => bindTarget_none htarget hocc hl, fun _ => hdead⟩

/-! ### The pipe -/

/-- A new object at an address where nobody lives. -/
theorem settled_created {j : Join} (hinv : j.Inv) (h : j.SettledIf alone ∅) {o : LiveObject}
    (h0 : o.id ≠ 0) (hnew : j.live o.id = none) (hkey : o.etwKey = 0)
    (hvacant : alone → o.objectPtr ≠ 0 → ∀ i o', j.live i = some o' → o'.objectPtr ≠ o.objectPtr) :
    (j.created o).SettledIf alone ∅ := by
  have hinv' : (j.occupy o).Inv := inv_occupy hinv h0 hnew hkey
  have hptr : (j.occupied o).objectPtr = o.objectPtr := by
    unfold occupied
    split <;> rfl
  have hself : (j.occupy o).live o.id = some (j.occupied o) := by
    rw [live_occupy, if_pos rfl]
  have hoccupied : ∀ {i o'}, alone → (j.occupy o).live i = some o' → o'.objectPtr ≠ 0 →
      (j.occupy o).occupant o'.objectPtr = some i := by
    intro i o' hal ho' hp
    rw [live_occupy] at ho'
    rw [occupant_occupy]
    split at ho'
    · next hi =>
      cases ho'
      rw [hptr] at hp ⊢
      rw [if_pos ⟨rfl, hp⟩, hi]
    · rw [if_neg fun hh => hvacant hal hh.2 i o' ho' hh.1]
      exact h.occupied hal ho' hp
  -- the owners of other addresses see the same occupant and the same dead
  have hquiet : ∀ {a k e}, a ≠ o.objectPtr ∨ o.objectPtr = 0 → (j.occupy o).byAddr a = some k →
      (j.occupy o).etw k = some e → (j.occupy o).QuietIf alone e := by
    intro a k e ha hk he
    rw [occupy_byAddr] at hk
    rw [occupy_etw] at he
    obtain ⟨-, e', he', haddr⟩ := hinv.index.byAddr hk
    rw [he] at he'
    cases he'
    refine QuietIf.congr (h.quiet (Set.notMem_empty k) hk he) ⟨rfl, rfl, rfl⟩
      (fun hb ho => ⟨hb, ho⟩) (fun i o' hocc ho' => ?_) fun _ x hx => occupy_dead j o ▸ hx
    rw [haddr, occupant_occupy, if_neg fun hh => ha.elim (fun ha => ha hh.1) hh.2] at hocc
    obtain ⟨-, o'', ho'', -⟩ := hinv.index.occupant hocc
    have hi : i ≠ o.id := by
      rintro rfl
      rw [hnew] at ho''
      cases ho''
    rw [live_occupy, if_neg hi] at ho'
    exact ⟨o', haddr ▸ hocc, ho', rfl, rfl⟩
  unfold created
  by_cases hp : o.objectPtr = 0
  · have hj : (j.occupy o).bindReported o.id = j.occupy o := by
      unfold bindReported
      rw [hself]
      exact if_pos (hptr.trans hp)
    rw [hj]
    exact ⟨hoccupied, fun _ hk he => hquiet (.inr hp) hk he⟩
  · rcases bindReported_cases_of_live (j.occupy o) hself (by rw [hptr]; exact hp) with
      ⟨hj, hcannot⟩ | ⟨key, e, hk, -, -, hj⟩
    · rw [hj]
      refine ⟨hoccupied, fun {a k e} _ hk he => ?_⟩
      by_cases ha : a = o.objectPtr
      · -- the owner cannot bind to the new occupant, and none of the dead was its own
        have hc := hcannot k e (by rw [hptr, ← ha]; exact hk) he
        obtain ⟨-, e', he', haddr⟩ := hinv'.index.byAddr hk
        rw [he] at he'
        cases he'
        intro hb ho ht
        rw [occupy_byAddr] at hk
        rw [occupy_etw] at he
        obtain ⟨-, hdead⟩ := h.quiet (Set.notMem_empty k) hk he hb ho ht
        refine ⟨fun i o' hocc ho' => ?_, by rw [occupy_dead]; exact hdead⟩
        rw [haddr, ha, occupant_occupy, if_pos ⟨rfl, hp⟩] at hocc
        cases hocc
        rw [hself] at ho'
        cases ho'
        exact hc
      · exact hquiet (.inl ha) hk he
    · rw [hj]
      refine settled_bind hinv' ⟨hoccupied, fun {a k e'} hkk hk' he' => ?_⟩ hself hk
      by_cases ha : a = o.objectPtr
      · rw [ha] at hk'
        rw [hptr, hk'] at hk
        cases hk
        exact absurd rfl hkk
      · exact hquiet (.inl ha) hk' he'

/-- The death of the occupant of an address. -/
theorem settled_destroyed {j : Join} (hinv : j.Inv) (h : j.SettledIf alone ∅) (id ts : ℕ) :
    (j.destroyed id ts).SettledIf alone ∅ := by
  cases ho : j.live id with
  | none =>
    have hj : j.destroyed id ts = j := by
      unfold destroyed
      rw [ho]
    rw [hj]
    exact h
  | some o =>
    obtain ⟨hlive, -, hbyAddr, hocc, hdead⟩ := destroyed_frame ho ts
    obtain ⟨hid, -⟩ := hinv.index.live_id ho
    constructor
    · intro i o' hal ho' hp
      rw [hlive, Function.update_apply] at ho'
      split at ho'
      · cases ho'
      · next hi =>
        -- another object at its address is not the one that the index forgets
        have hown := h.occupied hal ho' hp
        rw [hocc, occupant_forgetOccupant, if_neg]
        · exact hown
        · rintro ⟨hptr, -, hocc'⟩
          rw [hptr, hocc', hid] at hown
          cases hown
          exact hi rfl
    · intro a k e' _ hk he'
      rw [hbyAddr] at hk
      rw [etw_destroyed hinv ho] at he'
      split at he'
      · obtain ⟨e, -, rfl⟩ := Option.map_eq_some_iff.mp he'
        -- the ETW object of the dead one becomes an orphan, which nothing joins
        refine quiet_of_orphan ?_
        show (if ts ≠ 0 then ts else 1) ≠ 0
        split
        · next hts => exact hts
        · exact Nat.one_ne_zero
      · intro hb horph ht
        obtain ⟨hl, hd⟩ := h.quiet (Set.notMem_empty k) hk he' hb horph ht
        constructor
        · intro i o' hocc' ho'
          rw [hocc, occupant_forgetOccupant] at hocc'
          split at hocc'
          · cases hocc'
          · rw [hlive, Function.update_apply] at ho'
            split at ho'
            · cases ho'
            · exact hl i o' hocc' ho'
        · intro hal x hx
          rw [hdead, dead_forgetOccupant] at hx
          split at hx
          · next hat =>
            rcases mem_remember hx with hx | rfl
            · exact hd hal x hx
            · -- the dead one was the occupant, and could not be bound to
              have hocc' := h.occupied hal ho hat.2
              exact lateMatch_of_canBind hb horph (hl id o (hat.1 ▸ hocc') ho) ts
          · exact hd hal x hx

/-! ### The ETW sink -/

theorem settled_applyGroup {j : Join} {off : Set ℕ} (h : j.SettledIf alone off) (key : ℕ)
    (g : MemLoc) : (j.applyGroup key g).SettledIf alone off := by
  have hupd := h.updEtw key (f := (·.setGroup g)) (fun _ => ⟨rfl, rfl, rfl⟩)
    (.inr fun _ hb ho => ⟨hb, ho⟩)
  unfold applyGroup
  split
  · exact h
  · dsimp only
    split
    · exact hupd
    · exact hupd.updLive _ fun _ => ⟨rfl, rfl, rfl⟩

theorem settled_applySize {j : Join} {off : Set ℕ} (h : j.SettledIf alone off) (key size : ℕ) :
    (j.applySize key size).SettledIf alone off := by
  have hupd := h.updEtw key (f := (·.setSize size)) (fun _ => ⟨rfl, rfl, rfl⟩)
    (.inr fun _ hb ho => ⟨hb, ho⟩)
  unfold applySize
  split
  · exact h
  · split
    · exact h
    · dsimp only
      split
      · exact hupd
      · exact hupd.updLive _ fun _ => ⟨rfl, rfl, rfl⟩

theorem settled_etwCreated {j : Join} (hinv : j.Inv) (h : j.SettledIf alone ∅) (libId : ℕ)
    (e : EtwObj) : (j.etwCreated libId e).SettledIf alone ∅ := by
  unfold etwCreated
  split
  · exact h
  · next hcanon =>
    have hnone : j.etw libId = none := by
      cases he : j.etw libId with
      | none => rfl
      | some e' =>
        rw [(hinv.index.etw_key he).2] at hcanon
        exact absurd rfl hcanon
    rw [hnone]
    refine h.of_frame rfl rfl (fun _ _ _ hx => hx) fun {a k e'} _ hk he' => ⟨hk, ?_⟩
    obtain ⟨-, e'', he'', -⟩ := hinv.index.byAddr hk
    have hkl : k ≠ libId := by
      rintro rfl
      rw [hnone] at he''
      cases he''
    have hother : (j.setEtw libId (some e)).etw k = some e' := he'
    rwa [setEtw_etw, Function.update_of_ne hkl] at hother

theorem settled_takeAddress {j : Join} (hinv : j.Inv) (h : j.SettledIf alone ∅) {key a : ℕ}
    {e : EtwObj} (he : j.etw key = some e) (hz : e.address = 0) (ha : a ≠ 0) :
    (j.takeAddress key a).SettledIf alone ∅ := by
  have hself : (j.own key a).etw key = some (e.setAddress a) := by
    unfold own
    rw [setByAddr_etw, etw_updEtw, if_pos rfl, he]
    rfl
  have hown : (j.own key a).byAddr a = some key := by
    unfold own
    rw [setByAddr_byAddr, Function.update_self]
  refine settled_tryBind (inv_own hinv he hz ha) ?_ hself hown
  refine (h.mono (Set.empty_subset {key})).of_frame rfl rfl (fun _ _ _ hx => hx) ?_
  intro a' k e' hk hk' he'
  have hkk : k ≠ key := by simpa using hk
  unfold own at hk' he'
  rw [setByAddr_byAddr, Function.update_apply] at hk'
  rw [setByAddr_etw, etw_updEtw, if_neg hkk] at he'
  split at hk'
  · cases hk'
    exact absurd rfl hkk
  · exact ⟨hk', he'⟩

theorem settled_refresh {j : Join} {off : Set ℕ} (h : j.SettledIf alone off) (e : EtwObj) (into : ℕ)
    (old : EtwObj) : (j.refresh e into old).SettledIf alone off :=
  refresh_of (P := fun j' => j'.SettledIf alone off) (fun _ n h' => settled_applySize h' into n)
    (fun _ g h' => settled_applyGroup h' into g) h e old

/-- The re-report under `key` of the owner `into` of an address was merged into it. -/
structure Absorbed (j : Join) (key into : ℕ) (old : EtwObj) : Prop where
  inv : j.Inv
  stored : ∃ e, j.etw into = some e ∧ e.address = old.address
  owner : j.byAddr old.address = some into
  gone : j.etw key = none

theorem absorbed_absorb {j : Join} (hinv : j.Inv) {key into : ℕ} {e old : EtwObj}
    (he : j.etw key = some e) (hz : e.address = 0) (hold : j.etw into = some old)
    (hne : into ≠ key) (hown : j.byAddr old.address = some into) :
    ((j.refresh e into old).absorb key into).Absorbed key into old := by
  have ha : old.address ≠ 0 := (hinv.index.byAddr hown).1
  -- what the updates of the old object keep
  have hinv' := inv_refresh hinv e into old
  have he' : (j.refresh e into old).etw key = some e := by
    rw [etw_refresh_of_ne j e hne.symm]
    exact he
  obtain ⟨old', hold', haddr⟩ := address_refresh hold e old
  refine ⟨inv_absorb hinv' he' hz hold' hne (haddr ▸ ha),
    ⟨_, etw_absorb_self hold' hne, haddr⟩, ?_, ?_⟩
  · show (j.refresh e into old).byAddr old.address = some into
    rw [byAddr_refresh]
    exact hown
  · exact etw_absorb_gone hne

/-- The re-report `e` under `key` of the owner `into` of an address, just merged. -/
structure Merged (j : Join) (key into : ℕ) (old : EtwObj) : Prop where
  inv : j.Inv
  quiet : ∃ e, j.etw into = some e ∧ e.address = old.address ∧ j.Quiet e
  settled : j.Settled ∅
  owner : j.byAddr old.address = some into
  gone : j.etw key = none

theorem settled_absorb {j : Join} (h : j.SettledIf alone ∅) {key into : ℕ} {e old : EtwObj}
    (hold : j.etw into = some old) (hne : into ≠ key)
    (hown : j.byAddr old.address = some into) :
    ((j.refresh e into old).absorb key into).SettledIf alone ∅ := by
  have h' := settled_refresh h e into old
  have howner : (j.refresh e into old).byAddr old.address = some into := by
    rw [byAddr_refresh]
    exact hown
  obtain ⟨old', hold', haddr⟩ := address_refresh hold e old
  generalize j.refresh e into old = j' at h' howner hold'
  have hmerged := etw_absorb_self hold' hne
  have hother : ∀ {k e'}, k ≠ into → (j'.absorb key into).etw k = some e' → j'.etw k = some e' := by
    intro k e' hki he''
    unfold absorb at he''
    rw [setCanon_etw, etw_updEtw, if_neg hki, setEtw_etw, Function.update_apply] at he''
    split at he''
    · cases he''
    · exact he''
  refine ⟨h'.occupied, fun {a k e''} hk hk' he'' => ?_⟩
  by_cases hki : k = into
  · rw [hki, hmerged] at he''
    cases he''
    refine QuietIf.congr (h'.quiet (Set.notMem_empty into) howner hold') ⟨rfl, rfl, rfl⟩
      (fun hb ho => ⟨hb, ho⟩) (fun i o hocc ho => ⟨o, hocc, ho, rfl, rfl⟩) fun _ x hx => hx
  · exact QuietIf.congr (h'.quiet hk hk' (hother hki he'')) ⟨rfl, rfl, rfl⟩
      (fun hb ho => ⟨hb, ho⟩) (fun i o hocc ho => ⟨o, hocc, ho, rfl, rfl⟩) fun _ x hx => hx

/-- **A merge leaves nothing to try.** -/
theorem merged_absorb {j : Join} (hinv : j.Inv) (h : j.Settled ∅) {key into : ℕ}
    {e old : EtwObj} (he : j.etw key = some e) (hz : e.address = 0) (hold : j.etw into = some old)
    (hne : into ≠ key) (hown : j.byAddr old.address = some into) :
    ((j.refresh e into old).absorb key into).Merged key into old := by
  have habsorbed := absorbed_absorb hinv he hz hold hne hown
  have hsettled := settledIf_true.mp
    (settled_absorb (e := e) (settledIf_true.mpr h) hold hne hown)
  obtain ⟨e', he', haddr⟩ := habsorbed.stored
  exact ⟨habsorbed.inv,
    ⟨e', he', haddr, hsettled.quiet (Set.notMem_empty into) habsorbed.owner he'⟩, hsettled,
    habsorbed.owner, habsorbed.gone⟩

theorem settled_foldRundown {j : Join} (hinv : j.Inv) (h : j.SettledIf alone ∅) {key into : ℕ}
    {e old : EtwObj} (he : j.etw key = some e) (hz : e.address = 0) (hold : j.etw into = some old)
    (hne : into ≠ key) (hown : j.byAddr old.address = some into) :
    (j.foldRundown key e into old).SettledIf alone ∅ := by
  have habsorbed := absorbed_absorb hinv he hz hold hne hown
  have hsettled := settled_absorb (e := e) h hold hne hown
  obtain ⟨e', he', haddr⟩ := habsorbed.stored
  rw [foldRundown_eq]
  exact settled_tryBind habsorbed.inv (hsettled.mono (Set.empty_subset {into})) he'
    (haddr ▸ habsorbed.owner)

theorem settled_etwAddress {j : Join} (hinv : j.Inv) (h : j.SettledIf alone ∅) (libId address : ℕ) :
    (j.etwAddress libId address).SettledIf alone ∅ := by
  rcases j.etwAddress_cases libId address with hsame | ⟨key, e, hfind, ha, hz, htake | hfold⟩
  · rw [hsame]
    exact h
  · rw [htake]
    exact settled_takeAddress hinv h (find_some hfind).2 hz ha
  · obtain ⟨into, old, hinto, hne, hold, -, hfold⟩ := hfold
    obtain ⟨-, old', hold', hadr⟩ := hinv.index.byAddr hinto
    rw [hold] at hold'
    cases hold'
    rw [hfold]
    exact settled_foldRundown hinv h (find_some hfind).2 hz hold hne (hadr ▸ hinto)

theorem settled_etwDestroyed {j : Join} (h : j.SettledIf alone ∅) (libId : ℕ) :
    (j.etwDestroyed libId).SettledIf alone ∅ := by
  unfold etwDestroyed
  split
  · exact h
  · next key e _ =>
    have hunkey : (j.unkey key e).SettledIf alone ∅ := by
      rcases j.unkey_cases key e with ⟨hsame, -⟩ | ⟨o, -, -, -, hcut⟩
      · rw [hsame]
        exact h
      · rw [hcut]
        exact h.updLive _ fun _ => ⟨rfl, rfl, rfl⟩
    refine hunkey.of_frame (live_drop _ key e) (occupant_drop _ key e)
      (fun _ a x hx => dead_drop _ key e ▸ hx) ?_
    intro a k e' _ hk he'
    rw [byAddr_drop] at hk
    rw [etw_drop] at he'
    split at hk
    · cases hk
    · split at he'
      · cases he'
      · exact ⟨hk, he'⟩

/-! ### The machine -/

namespace Op

/-- A new object is created where nobody lives, and pruning invents no dead. -/
def Orderly (j : Join) : Op → Prop
  | .created _ p => p.objectPtr ≠ 0 → ∀ i o, j.live i = some o → o.objectPtr ≠ p.objectPtr
  | .prune dead => ∀ a, ∀ x ∈ dead a, x ∈ j.dead a
  | _ => True

end Op

/-- **Every operation keeps the join settled.** -/
theorem settledIf_step {j : Join} (hinv : j.Inv) (h : j.SettledIf alone ∅) {op : Op}
    (hf : op.Fresh j) (ho : alone → op.Orderly j) : (j.step op).SettledIf alone ∅ := by
  cases op with
  | created tsNs p =>
    obtain ⟨h0, hnew⟩ := hf.created rfl
    exact settled_created hinv h h0 hnew rfl ho
  | renamed id name => exact h.updLive id fun _ => ⟨rfl, rfl, rfl⟩
  | destroyed id ts => exact settled_destroyed hinv h id ts
  | etwCreated libId type size group createdTs => exact settled_etwCreated hinv h libId _
  | etwAddress libId address => exact settled_etwAddress hinv h libId address
  | etwDestroyed libId => exact settled_etwDestroyed h libId
  | etwSize libId size =>
    show (j.etwSize libId size).SettledIf alone ∅
    unfold etwSize
    split
    · exact h
    · exact settled_applySize h _ size
  | etwGroup libId group =>
    show (j.etwGroup libId group).SettledIf alone ∅
    unfold etwGroup
    split
    · exact h
    · split
      · exact settled_applyGroup h _ group
      · exact h
  | prune dead =>
    exact h.of_frame rfl rfl ho fun _ hk he => ⟨hk, he⟩

end Join

/-! ### The model -/

namespace Model

/-- Pruning invents no dead. -/
theorem dead_forgetDead (nowTs : ℕ) (q : List (ℕ × ℕ)) (m : Model) (a : ℕ) :
    ∀ x ∈ (forgetDead nowTs q m).join.dead a, x ∈ m.join.dead a := by
  induction q generalizing m with
  | nil => exact fun x hx => hx
  | cons d q ih =>
    obtain ⟨ts, ptr⟩ := d
    intro x hx
    unfold forgetDead at hx
    split at hx
    · dsimp only at hx
      split at hx
      · exact ih m x hx
      · next dead hdead =>
        have hx := ih _ x hx
        rw [join_dead] at hx ⊢
        by_cases hap : a = ptr
        · rw [hap, hdead]
          rw [hap] at hx
          have hkept : x ∈ dead.dropWhile fun x =>
              decide (x.destroyedNs < nowTs - kDestroyHistoryNs) := by
            split at hx
            · rw [setDeadByPtr, Finmap.lookup_erase] at hx
              cases hx
            · rw [setDeadByPtr, Finmap.lookup_insert] at hx
              exact hx
          exact (List.dropWhile_sublist _).mem hkept
        · split at hx
          · rw [setDeadByPtr, Finmap.lookup_erase_ne hap] at hx
            exact hx
          · rw [setDeadByPtr, Finmap.lookup_insert_of_ne _ hap] at hx
            exact hx
    · exact hx

theorem dead_etwTick (m : Model) (env : Env) (st : Etw.Stats) (a : ℕ) :
    ∀ x ∈ (m.etwTick env st).join.dead a, x ∈ m.join.dead a := by
  have hlast : ∀ r : Model, ({ r with lastSecondMs := env.nowMs } : Model).join = r.join :=
    fun _ => rfl
  have htimers : ∀ (nowTs : ℕ) (n : Model), n.join = m.join →
      ∀ x ∈ (forgetDead nowTs n.destroyHist n).join.dead a, x ∈ m.join.dead a := by
    intro nowTs n hn x hx
    rw [← hn]
    exact dead_forgetDead nowTs n.destroyHist n a x hx
  intro x hx
  unfold etwTick at hx
  split at hx
  · exact hx
  · dsimp only at hx
    have hexpire := join_expirePending env.nowMs m.pendingQ
      (m.updStats fun t => { t with session := st })
    rw [join_updStats] at hexpire
    split at hx
    · exact htimers _ _ hexpire x hx
    · split at hx
      · rw [join_sideLine, join_refreshJoinStats, hlast] at hx
        exact htimers _ _ hexpire x hx
      · rw [join_refreshJoinStats, hlast] at hx
        exact htimers _ _ hexpire x hx

/-- A batch of group changes regroups, and does nothing else. -/
theorem mem_groupOps (changes : List (Etw.GroupChange × Env)) (m : Model) {op : Join.Op}
    (hop : op ∈ m.groupOps changes) : ∃ libId g, op = .etwGroup libId g := by
  induction changes generalizing m with
  | nil => cases hop
  | cons c cs ih =>
    unfold groupOps at hop
    dsimp only at hop
    split at hop
    · exact ih _ hop
    · rcases List.mem_cons.mp hop with rfl | hop
      · exact ⟨_, _, rfl⟩
      · exact ih _ hop

/-- No live object has the address of a new one. -/
def Vacant (m : Model) : Step → Prop
  | .event _ (.created p) =>
    p.objectPtr ≠ 0 → ∀ id o, m.live.lookup id = some o → o.objectPtr ≠ p.objectPtr
  | _ => True

/-- One call keeps the join settled. -/
theorem settledIf_step {alone : Prop} {m : Model} (hetw : m.etwEnabled = true)
    (hinv : m.join.Inv) (h : m.join.SettledIf alone ∅) (x : Step)
    (hid : ∀ id, x.createdId = some id → id ≠ 0 ∧ m.live.lookup id = none)
    (hlib : ∀ k, x.libId = some k → k ≠ 0) (hvacant : alone → m.Vacant x) :
    (m.step x).join.SettledIf alone ∅ := by
  rw [join_step hetw]
  have one : ∀ op : Join.Op, op.createdId = x.createdId → op.libId = x.libId →
      (alone → op.Orderly m.join) → (Machine.run Join.step m.join [op]).SettledIf alone ∅ := by
    intro op hc hl ho
    refine Join.settledIf_step hinv h ⟨fun {id} hop => ?_, fun {k} hop => hlib k (hl ▸ hop)⟩ ho
    obtain ⟨h0, hnone⟩ := hid id (hc ▸ hop)
    exact ⟨h0, by rw [join_live, hnone]; rfl⟩
  -- a batch of group changes is a run of the join
  have hbatch : ∀ (ops : List Join.Op) (j : Join), j.Inv → j.SettledIf alone ∅ →
      (∀ op ∈ ops, op.createdId = none ∧ op.libId = none ∧ ∀ j, op.Orderly j) →
      (Machine.run Join.step j ops).SettledIf alone ∅ := by
    intro ops
    induction ops with
    | nil => exact fun _ _ h _ => h
    | cons op ops ih =>
      intro j hinv h hops
      obtain ⟨hc, hl, ho⟩ := hops op List.mem_cons_self
      have hfresh : op.Fresh j := by
        constructor
        · intro id hid
          rw [hc] at hid
          cases hid
        · intro k hk
          rw [hl] at hk
          cases hk
      exact ih _ (Join.inv_step hinv hfresh) (Join.settledIf_step hinv h hfresh fun _ => ho j)
        fun op' hop' => hops op' (List.mem_cons_of_mem _ hop')
  cases x with
  | event ts r =>
    cases r with
    | created p =>
      refine one _ rfl rfl fun hal hp i o ho => ?_
      obtain ⟨o', ho', rfl⟩ := Option.map_eq_some_iff.mp ho
      exact hvacant hal hp i o' ho'
    | renamed p => exact one _ rfl rfl fun _ => trivial
    | destroyed p => exact one _ rfl rfl fun _ => trivial
    | _ => exact h
  | objectCreated ts libId type size group => exact one _ rfl rfl fun _ => trivial
  | objectAddress env libId address => exact one _ rfl rfl fun _ => trivial
  | objectDestroyed ts libId => exact one _ rfl rfl fun _ => trivial
  | objectSize ts libId size => exact one _ rfl rfl fun _ => trivial
  | groupChanges changes =>
    refine hbatch _ _ hinv h fun op hop => ?_
    obtain ⟨libId, g, rfl⟩ := mem_groupOps changes m hop
    exact ⟨rfl, rfl, fun _ => trivial⟩
  | tick env st => exact one _ rfl rfl fun _ => dead_etwTick m env st
  | _ => exact h

/-- **One call keeps the join settled**, when no object is created where another one lives. -/
theorem settled_step {m : Model} (hetw : m.etwEnabled = true) (hinv : m.join.Inv)
    (h : m.join.Settled ∅) (x : Step)
    (hid : ∀ id, x.createdId = some id → id ≠ 0 ∧ m.live.lookup id = none)
    (hlib : ∀ k, x.libId = some k → k ≠ 0) (hvacant : m.Vacant x) :
    (m.step x).join.Settled ∅ :=
  Join.settledIf_true.mp
    (settledIf_step hetw hinv (Join.settledIf_true.mpr h) x hid hlib fun _ => hvacant)

end Model

end Dx12Track
