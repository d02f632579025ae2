import Dx12Track.Launcher.JoinMoves

/-!
# Histories and their interleavings

A history of tracked objects, each with the ETW object that the driver made for
it, reaches the launcher as two streams that are interleaved in any way.  An
address has one occupant after the other, so the launcher must tell from stamps
and types alone which ETW object belongs to which occupant.

* `Life`, `History` — the objects, and what is assumed of their stamps.
* `Ev`, `Interleaving` — the two streams, one into the other.
* `InTurn`, `Orderly` — the steps with which neither stream runs ahead of the
  other past a reuse of an address.
* `alive_created` … `owns_etwCreated` — what one more event changes.
* `Facts` — what an event says about the events before it.
-/

namespace Dx12Track

open Etw (ObjType Group)
open Model (canBind lateMatch liveOfCreated)

/-- A tracked object and its ETW object. -/
structure Life where
  payload : CreatedPayload
  /-- The stamps of the records of the pipe. -/
  createdNs : ℕ
  destroyedNs : ℕ
  libId : ℕ
  etwType : ObjType
  size : ℕ
  group : Group
  /-- When the ETW object was created, on the clock of the pipe. -/
  etwNs : ℕ
  /-- The raw stamp of its destruction. -/
  etwGoneTs : ℤ := 0
  /-- What the call that brings its address reads. -/
  env : Env := {}

namespace Life

def id (l : Life) : ℕ := l.payload.id
def type (l : Life) : ObjectType := l.payload.type
def ptr (l : Life) : ℕ := l.payload.objectPtr

/-- ETW reports the objects of a type that it has a compatible one for. -/
def Reported (l : Life) : Prop := compatible l.etwType l.type = true

instance (l : Life) : Decidable l.Reported := inferInstanceAs (Decidable (_ = _))

/-- `k` had the address before `l`, and was gone in time. -/
def Precedes (k l : Life) : Prop :=
  k.ptr = l.ptr ∧ k.destroyedNs + 2 * kBindSlackNs < l.createdNs

instance (k l : Life) : Decidable (k.Precedes l) := inferInstanceAs (Decidable (_ ∧ _))

/-- The ETW object of `l` is of a type that the tracked object `k` could have. -/
def Fits (l k : Life) : Prop := compatible l.etwType k.type = true

instance (l k : Life) : Decidable (l.Fits k) := inferInstanceAs (Decidable (_ = _))

end Life

/-- A history: the occupants of one address do not overlap, live longer than the slack of
the join and are further apart than it, and an ETW object is made between the death of the
occupant before it and the creation of its own tracked object. -/
structure History (ι : Type*) where
  life : ι → Life
  id_ne : ∀ i, (life i).id ≠ 0
  id_inj : ∀ i k, (life i).id = (life k).id → i = k
  lib_ne : ∀ i, (life i).Reported → (life i).libId ≠ 0
  lib_inj : ∀ i k, (life i).Reported → (life k).Reported →
    (life i).libId = (life k).libId → i = k
  placed : ∀ i, (life i).ptr ≠ 0
  lasts : ∀ i, (life i).createdNs + 2 * kBindSlackNs < (life i).destroyedNs
  apart : ∀ i k, i ≠ k → (life i).ptr = (life k).ptr →
    (life i).Precedes (life k) ∨ (life k).Precedes (life i)
  stamped : ∀ i, (life i).Reported → (life i).etwNs ≤ (life i).createdNs
  after : ∀ i k, (life i).Reported → (life k).Precedes (life i) →
    (life k).destroyedNs < (life i).etwNs
  fits : ∀ i, (life i).Reported → (life i).etwNs + kBindSlackNs < 2 ^ 64

/-- An event of one of the two streams. -/
inductive Ev (ι : Type*)
  | created (i : ι)
  | destroyed (i : ι)
  | etwCreated (i : ι)
  | etwAddress (i : ι)
  | etwDestroyed (i : ι)
  deriving DecidableEq

namespace History

variable {ι : Type*} (H : History ι)

/-! ### Interleavings -/

/-- What each stream may bring next: the pipe has the occupants of an address one after the
other, and so has ETW. -/
def Next (us : List (Ev ι)) : Ev ι → Prop
  | .created i => .created i ∉ us ∧ ∀ k, (H.life k).Precedes (H.life i) → .destroyed k ∈ us
  | .destroyed i => .created i ∈ us ∧ .destroyed i ∉ us
  | .etwCreated i => (H.life i).Reported ∧ .etwCreated i ∉ us ∧
    ∀ k, (H.life k).Reported → (H.life k).Precedes (H.life i) → .etwDestroyed k ∈ us
  | .etwAddress i => .etwCreated i ∈ us ∧ .etwAddress i ∉ us
  | .etwDestroyed i => .etwAddress i ∈ us ∧ .etwDestroyed i ∉ us

/-- The two streams, as far as they have come, in some order of arrival. -/
def Interleaving (xs : List (Ev ι)) : Prop := ¬∃ us x vs, xs = us ++ x :: vs ∧ ¬H.Next us x

/-- The tracked object is alive, as far as the pipe has come. -/
def Alive (us : List (Ev ι)) (i : ι) : Prop := .created i ∈ us ∧ .destroyed i ∉ us

/-- The ETW object is alive, as far as ETW has come. -/
def Known (us : List (Ev ι)) (i : ι) : Prop := .etwCreated i ∈ us ∧ .etwDestroyed i ∉ us

/-- The ETW object is alive and has its address. -/
def Owns (us : List (Ev ι)) (i : ι) : Prop := .etwAddress i ∈ us ∧ .etwDestroyed i ∉ us

/-- The step does not bring an ETW object together with an occupant before its own: none that
it could have is alive when it gets its address, its own one is the next that is created, and
by then it could not have been taken for the ETW object of a dead one. -/
def InTurn (us : List (Ev ι)) : Ev ι → Prop
  | .created i =>
    (∀ l, Owns us l → (H.life i).Precedes (H.life l) → ¬(H.life l).Fits (H.life i)) ∧
    (Owns us i → ∀ k, (H.life k).Precedes (H.life i) → (H.life i).Fits (H.life k) →
      (H.life k).destroyedNs + kBindSlackNs < (H.life i).etwNs)
  | .etwAddress l =>
    ∀ i, Alive us i → (H.life i).Precedes (H.life l) → ¬(H.life l).Fits (H.life i)
  | _ => True

/-- Every step is in turn. -/
def Orderly (xs : List (Ev ι)) : Prop := ¬∃ us x vs, xs = us ++ x :: vs ∧ ¬H.InTurn us x

section Decidable

variable [Fintype ι] [DecidableEq ι]

instance (us : List (Ev ι)) (i : ι) : Decidable (Alive us i) := inferInstanceAs (Decidable (_ ∧ _))
instance (us : List (Ev ι)) (i : ι) : Decidable (Owns us i) := inferInstanceAs (Decidable (_ ∧ _))

instance (us : List (Ev ι)) : (x : Ev ι) → Decidable (H.Next us x)
  | .created _ | .destroyed _ | .etwCreated _ | .etwAddress _ | .etwDestroyed _ =>
    inferInstanceAs (Decidable (_ ∧ _))

instance (us : List (Ev ι)) : (x : Ev ι) → Decidable (H.InTurn us x)
  | .created _ => inferInstanceAs (Decidable (_ ∧ _))
  | .etwAddress _ => inferInstanceAs (Decidable (∀ i, Alive us i → _))
  | .destroyed _ | .etwCreated _ | .etwDestroyed _ => .isTrue trivial

instance (xs : List (Ev ι)) : Decidable (H.Interleaving xs) :=
  decidable_of_iff _ (not_congr (Machine.exists_split_iff (fun us x => ¬H.Next us x) xs)).symm

instance (xs : List (Ev ι)) : Decidable (H.Orderly xs) :=
  decidable_of_iff _ (not_congr (Machine.exists_split_iff (fun us x => ¬H.InTurn us x) xs)).symm

end Decidable

/-! ### One more event -/

section Concat

variable {us : List (Ev ι)} {i k : ι}

theorem alive_created (h : .destroyed i ∉ us) :
    Alive (us ++ [.created i]) k ↔ Alive us k ∨ k = i := by
  have hlives : k = i → .destroyed k ∉ us := fun hki => hki ▸ h
  simp [Alive, or_and_right, and_iff_left_of_imp hlives]

theorem alive_destroyed : Alive (us ++ [.destroyed i]) k ↔ Alive us k ∧ k ≠ i := by
  simp [Alive, and_assoc]

theorem known_etwCreated (h : .etwDestroyed i ∉ us) :
    Known (us ++ [.etwCreated i]) k ↔ Known us k ∨ k = i := by
  have hlives : k = i → .etwDestroyed k ∉ us := fun hki => hki ▸ h
  simp [Known, or_and_right, and_iff_left_of_imp hlives]

theorem known_etwDestroyed : Known (us ++ [.etwDestroyed i]) k ↔ Known us k ∧ k ≠ i := by
  simp [Known, and_assoc]

theorem owns_etwAddress (h : .etwDestroyed i ∉ us) :
    Owns (us ++ [.etwAddress i]) k ↔ Owns us k ∨ k = i := by
  have hlives : k = i → .etwDestroyed k ∉ us := fun hki => hki ▸ h
  simp [Owns, or_and_right, and_iff_left_of_imp hlives]

theorem owns_etwDestroyed : Owns (us ++ [.etwDestroyed i]) k ↔ Owns us k ∧ k ≠ i := by
  simp [Owns, and_assoc]

-- The other events are of the other side, or of another moment.

theorem alive_etwCreated : Alive (us ++ [.etwCreated i]) k ↔ Alive us k := by simp [Alive]

theorem alive_etwAddress : Alive (us ++ [.etwAddress i]) k ↔ Alive us k := by simp [Alive]

theorem alive_etwDestroyed : Alive (us ++ [.etwDestroyed i]) k ↔ Alive us k := by simp [Alive]

theorem known_created : Known (us ++ [.created i]) k ↔ Known us k := by simp [Known]

theorem known_destroyed : Known (us ++ [.destroyed i]) k ↔ Known us k := by simp [Known]

theorem known_etwAddress : Known (us ++ [.etwAddress i]) k ↔ Known us k := by simp [Known]

theorem owns_created : Owns (us ++ [.created i]) k ↔ Owns us k := by simp [Owns]

theorem owns_destroyed : Owns (us ++ [.destroyed i]) k ↔ Owns us k := by simp [Owns]

theorem owns_etwCreated : Owns (us ++ [.etwCreated i]) k ↔ Owns us k := by simp [Owns]

end Concat

/-! ### What the streams have said -/

/-- What the rules for the next event make of the events so far. -/
structure Facts (us : List (Ev ι)) : Prop where
  born : ∀ i, .destroyed i ∈ us → .created i ∈ us
  order : ∀ i k, .created i ∈ us → (H.life k).Precedes (H.life i) → .destroyed k ∈ us
  known : ∀ i, .etwAddress i ∈ us → .etwCreated i ∈ us
  owned : ∀ i, .etwDestroyed i ∈ us → .etwAddress i ∈ us
  reported : ∀ i, .etwCreated i ∈ us → (H.life i).Reported
  turns : ∀ i k, .etwCreated i ∈ us → (H.life k).Reported →
    (H.life k).Precedes (H.life i) → .etwDestroyed k ∈ us

theorem facts_concat {us : List (Ev ι)} (h : H.Facts us) {x : Ev ι} (hx : H.Next us x) :
    H.Facts (us ++ [x]) := by
  have old : ∀ {y}, y ∈ us → y ∈ us ++ [x] := fun hy => List.mem_append_left _ hy
  have cases_last : ∀ {y}, y ∈ us ++ [x] → y ∈ us ∨ y = x := fun hy => by simpa using hy
  constructor
  case born =>
    intro i hi
    rcases cases_last hi with hi | rfl
    · exact old (h.born i hi)
    · exact old hx.1
  case order =>
    intro i k hi hk
    rcases cases_last hi with hi | rfl
    · exact old (h.order i k hi hk)
    · exact old (hx.2 k hk)
  case known =>
    intro i hi
    rcases cases_last hi with hi | rfl
    · exact old (h.known i hi)
    · exact old hx.1
  case owned =>
    intro i hi
    rcases cases_last hi with hi | rfl
    · exact old (h.owned i hi)
    · exact old hx.1
  case reported =>
    intro i hi
    rcases cases_last hi with hi | rfl
    · exact h.reported i hi
    · exact hx.1
  case turns =>
    intro i k hi hr hk
    rcases cases_last hi with hi | rfl
    · exact old (h.turns i k hi hr hk)
    · exact old (hx.2.2 k hr hk)

variable {H}

/-- The rules keep the occupants of an address apart. -/
theorem Facts.alive_unique {us : List (Ev ι)} (h : H.Facts us) {i k : ι} (hi : Alive us i)
    (hk : Alive us k) (hp : (H.life i).ptr = (H.life k).ptr) : i = k := by
  by_contra hne
  rcases H.apart i k hne hp with hik | hki
  · exact hi.2 (h.order k i hk.1 hik)
  · exact hk.2 (h.order i k hi.1 hki)

/-- So they do with the ETW objects at an address. -/
theorem Facts.known_unique {us : List (Ev ι)} (h : H.Facts us) {i k : ι} (hi : Known us i)
    (hk : Known us k) (hp : (H.life i).ptr = (H.life k).ptr) : i = k := by
  by_contra hne
  rcases H.apart i k hne hp with hik | hki
  · exact hi.2 (h.turns k i hk.1 (h.reported i hi.1) hik)
  · exact hk.2 (h.turns i k hi.1 (h.reported k hk.1) hki)

theorem Facts.known_of_owns {us : List (Ev ι)} (h : H.Facts us) {i : ι} (hi : Owns us i) :
    Known us i := ⟨h.known i hi.1, hi.2⟩

/-- Whoever is alive outlives those that died at its address. -/
theorem Facts.dies_last {us : List (Ev ι)} (h : H.Facts us) {i k : ι} (hi : Alive us i)
    (hk : .destroyed k ∈ us) (hp : (H.life k).ptr = (H.life i).ptr) :
    (H.life k).destroyedNs ≤ (H.life i).destroyedNs := by
  have hne : k ≠ i := by
    rintro rfl
    exact hi.2 hk
  rcases H.apart k i hne hp with hki | hik
  · have hlasts := H.lasts i
    have hbefore := hki.2
    omega
  · exact absurd (h.order k i (h.born k hk) hik) hi.2

/-- An object that died on the pipe had the address before one that is not yet created. -/
theorem Facts.precedes_of_dead {us : List (Ev ι)} (h : H.Facts us) {i k : ι}
    (hk : .destroyed k ∈ us) (hi : .created i ∉ us) (hp : (H.life k).ptr = (H.life i).ptr) :
    (H.life k).Precedes (H.life i) := by
  have hne : k ≠ i := by
    rintro rfl
    exact hi (h.born k hk)
  rcases H.apart k i hne hp with hki | hik
  · exact hki
  · exact absurd (h.born i (h.order k i (h.born k hk) hik)) hi

end History

end Dx12Track
