import Dx12Track.Launcher.JoinInv

/-!
# The moves of the join

What the operations of the join do to each table, when the invariant holds: the
inversion lemmas that the results about whole histories start from.

* `bindReported_cases_of_live`, `tryBind_open` — the two places where a pair is made.
* `live_destroyed`, `etw_destroyed`, … — the death of a tracked object.
* `live_unkey_isSome`, `unkey_frame`, `drop_frame` — the death of an ETW object.
-/

namespace Dx12Track

open Model (canBind lateMatch obituary remember)

namespace Join

/-! ### Pairing -/

/-- A new object binds to the owner of its address, or cannot. -/
theorem bindReported_cases_of_live (j : Join) {id : ℕ} {o : LiveObject} (ho : j.live id = some o)
    (hp : o.objectPtr ≠ 0) :
    (j.bindReported id = j ∧ ∀ key e, j.byAddr o.objectPtr = some key → j.etw key = some e →
      canBind e o = false) ∨
    ∃ key e, j.byAddr o.objectPtr = some key ∧ j.etw key = some e ∧ canBind e o = true ∧
      j.bindReported id = j.bind key id e o := by
  unfold bindReported
  rw [ho]
  dsimp only
  rw [if_neg hp]
  cases hkey : j.byAddr o.objectPtr with
  | none => exact .inl ⟨rfl, fun key e hk => by cases hk⟩
  | some key =>
    dsimp only
    cases he : j.etw key with
    | none =>
      refine .inl ⟨rfl, fun key' e hk he' => ?_⟩
      cases hk
      rw [he] at he'
      cases he'
    | some e =>
      dsimp only
      cases hc : canBind e o with
      | true => exact .inr ⟨key, e, rfl, he, hc, rfl⟩
      | false =>
        refine .inl ⟨rfl, fun key' e' hk he' => ?_⟩
        cases hk
        rw [he] at he'
        cases he'
        exact hc

theorem bindTarget_none {j : Join} {e : EtwObj} (h : j.bindTarget e = none) {id : ℕ}
    {o : LiveObject} (hocc : j.occupant e.address = some id) (ho : j.live id = some o) :
    canBind e o = false := by
  unfold bindTarget at h
  rw [hocc] at h
  dsimp only at h
  rw [ho] at h
  dsimp only at h
  by_cases hc : canBind e o = true
  · rw [if_pos hc] at h
    cases h
  · exact Bool.eq_false_iff.mpr hc

/-- An ETW object that waits binds to the occupant of its address; if it cannot, it goes to
a dead one, or waits on. -/
theorem tryBind_open {j : Join} {key : ℕ} {e : EtwObj} (he : j.etw key = some e)
    (hb : e.boundId = 0) (ho : e.orphanTs = 0) (ha : e.address ≠ 0)
    (ht : bindable e.type = true) :
    (∃ id o, j.occupant e.address = some id ∧ j.live id = some o ∧ canBind e o = true ∧
      j.tryBind key = j.bind key id e o) ∨
    (∃ x ∈ j.dead e.address, lateMatch e x = true ∧ j.bindTarget e = none ∧
      j.tryBind key = j.attributeLate key x) ∨
    j.tryBind key = j ∧ j.bindTarget e = none ∧ ∀ x ∈ j.dead e.address, lateMatch e x = false := by
  have hguard : ¬(e.boundId ≠ 0 ∨ e.orphanTs ≠ 0 ∨ e.address = 0 ∨ bindable e.type = false) := by
    rintro (h | h | h | h)
    · exact h hb
    · exact h ho
    · exact ha h
    · rw [ht] at h; cases h
  unfold tryBind
  rw [he]
  dsimp only
  rw [if_neg hguard]
  cases hbt : j.bindTarget e with
  | some x =>
    obtain ⟨hocc, hlive, hc⟩ := bindTarget_some hbt
    exact .inl ⟨x.1, x.2, hocc, hlive, hc, rfl⟩
  | none =>
    dsimp only
    cases hd : (j.dead e.address).find? (lateMatch e) with
    | some x =>
      exact .inr (.inl ⟨x, List.mem_of_find?_eq_some hd, List.find?_some hd, rfl, rfl⟩)
    | none =>
      refine .inr (.inr ⟨rfl, rfl, fun x hx => ?_⟩)
      simpa using List.find?_eq_none.mp hd x hx

theorem bind_frame (j : Join) (key id : ℕ) (e : EtwObj) (o : LiveObject) :
    (j.bind key id e o).canon = j.canon ∧ (j.bind key id e o).byAddr = j.byAddr ∧
      (j.bind key id e o).occupant = j.occupant ∧ (j.bind key id e o).dead = j.dead := by
  unfold bind unbindOther
  split <;> exact ⟨rfl, rfl, rfl, rfl⟩

theorem occupy_dead (j : Join) (o : LiveObject) : (j.occupy o).dead = j.dead := by
  unfold occupy; split <;> rfl

/-! ### The death of a tracked object -/

theorem mem_remember {dead : List DeadObj} {x y : DeadObj} (h : y ∈ remember dead x) :
    y ∈ dead ∨ y = x := by
  have hmem : y ∈ dead ++ [x] := by
    unfold remember at h
    dsimp only at h
    split at h
    · exact List.mem_of_mem_tail h
    · exact h
  simpa using hmem

theorem getLast?_remember (dead : List DeadObj) (x : DeadObj) :
    (remember dead x).getLast? = some x := by
  unfold remember
  dsimp only
  split
  · next h =>
    -- a list that is cut has more than one element
    cases dead with
    | nil => simp [kDeadPerAddress] at h
    | cons y ys => simp
  · simp

theorem dead_forgetOccupant (j : Join) (o : LiveObject) (ts p : ℕ) :
    (j.forgetOccupant o ts).dead p =
      if p = o.objectPtr ∧ o.objectPtr ≠ 0 then remember (j.dead p) (obituary o ts)
      else j.dead p := by
  unfold forgetOccupant
  by_cases h0 : o.objectPtr = 0
  · rw [if_pos h0, if_neg fun hh => hh.2 h0]
  · rw [if_neg h0, setDead_dead, Function.update_apply]
    have hdead : (if j.occupant o.objectPtr = some o.id then j.setOccupant o.objectPtr none
        else j).dead = j.dead := by split <;> rfl
    by_cases hp : p = o.objectPtr
    · rw [if_pos hp, if_pos ⟨hp, h0⟩, hp]
    · rw [if_neg hp, hdead, if_neg fun hh => hp hh.1]

/-- Everything but the ETW objects. -/
theorem destroyed_frame {j : Join} {id : ℕ} {o : LiveObject}
    (ho : j.live id = some o) (ts : ℕ) :
    (j.destroyed id ts).live = Function.update j.live id none ∧
      (j.destroyed id ts).canon = j.canon ∧ (j.destroyed id ts).byAddr = j.byAddr ∧
      (j.destroyed id ts).occupant = (j.forgetOccupant o ts).occupant ∧
      (j.destroyed id ts).dead = (j.forgetOccupant o ts).dead := by
  obtain ⟨hlive, -, hcanon, hbyAddr⟩ := forgetOccupant_frame j o ts
  unfold destroyed
  rw [ho]
  dsimp only
  have horph : ∀ j₁ : Join, (j₁.orphanBound o ts).live = j₁.live ∧
      (j₁.orphanBound o ts).canon = j₁.canon ∧ (j₁.orphanBound o ts).byAddr = j₁.byAddr ∧
      (j₁.orphanBound o ts).occupant = j₁.occupant ∧ (j₁.orphanBound o ts).dead = j₁.dead := by
    intro j₁
    unfold orphanBound
    split
    · exact ⟨rfl, rfl, rfl, rfl, rfl⟩
    · split
      · exact ⟨rfl, rfl, rfl, rfl, rfl⟩
      · split <;> exact ⟨rfl, rfl, rfl, rfl, rfl⟩
  obtain ⟨h₁, h₂, h₃, h₄, h₅⟩ := horph (j.forgetOccupant o ts)
  refine ⟨?_, h₂.trans hcanon, h₃.trans hbyAddr, h₄, h₅⟩
  rw [← hlive, ← h₁]
  rfl

/-- The ETW object bound to the dead one is orphaned, and no other changes. -/
theorem etw_destroyed {j : Join} (h : j.Inv) {id : ℕ} {o : LiveObject}
    (ho : j.live id = some o) (ts k : ℕ) :
    (j.destroyed id ts).etw k =
      if k = o.etwKey ∧ o.etwKey ≠ 0 then (j.etw k).map fun e =>
        (e.setBoundId 0).setOrphanTs (if ts ≠ 0 then ts else 1)
      else j.etw k := by
  obtain ⟨hlive, hetw, -, -⟩ := forgetOccupant_frame j o ts
  have hpairs := h.pairs.forgetOccupant o ts
  unfold destroyed
  rw [ho]
  dsimp only
  rw [setLive_etw, orphanBound_of_inv hpairs (by rw [hlive]; exact ho) (h.index.live_id ho).1]
  by_cases hk : o.etwKey = 0
  · rw [if_pos hk, if_neg fun hh => hh.2 hk, hetw]
  · rw [if_neg hk, etw_updEtw, hetw]
    by_cases hkk : k = o.etwKey
    · simp only [hkk, hk, ne_eq, not_false_eq_true, and_self, if_true]
    · simp only [hkk, false_and, if_false]

/-! ### The death of an ETW object -/

theorem unkey_frame (j : Join) (key : ℕ) (e : EtwObj) :
    (j.unkey key e).canon = j.canon ∧ (j.unkey key e).byAddr = j.byAddr ∧
      (j.unkey key e).occupant = j.occupant ∧ (j.unkey key e).dead = j.dead := by
  rcases j.unkey_cases key e with ⟨hsame, -⟩ | ⟨o, -, -, -, hcut⟩
  · rw [hsame]
    exact ⟨rfl, rfl, rfl, rfl⟩
  · rw [hcut]
    exact ⟨rfl, rfl, rfl, rfl⟩

/-- `unkey` loses no live object. -/
theorem live_unkey_isSome {j : Join} {key i : ℕ} {e : EtwObj} {o : LiveObject}
    (ho : j.live i = some o) : ∃ o', (j.unkey key e).live i = some o' := by
  rcases j.unkey_cases key e with ⟨hsame, -⟩ | ⟨o', -, -, -, hcut⟩
  · rw [hsame]
    exact ⟨o, ho⟩
  · rw [hcut, live_updLive, ho]
    split
    · exact ⟨_, rfl⟩
    · exact ⟨o, rfl⟩

theorem dead_drop (j : Join) (key : ℕ) (e : EtwObj) : (j.drop key e).dead = j.dead := by
  unfold drop
  dsimp only
  split <;> rfl

end Join

end Dx12Track
