import Dx12Track.Launcher.Model

/-!
# The join of the two event streams

The launcher learns of an object twice: from the pipe, under a tracker id, and
from ETW, under a library id.  This module states the join on its own, as a
machine whose state is a handful of partial functions: no locations, no
statistics, no sidecar, no waiting queue.  `Launcher.JoinSim` shows that
`Model` is this machine with the rest added.

## Main definitions

* `Join` — the state: both tables and the indexes between them.
* `Join.bind`, `Join.tryBind` — the two sides come together.
* `Join.Op`, `Join.step` — what the streams do to it.
-/

namespace Dx12Track

open Etw (ObjType Group)
open Model (canBind lateMatch obituary remember liveOfCreated)

/-- A live object without its cached location. -/
def LiveObject.noLoc (o : LiveObject) : LiveObject :=
  { o with effLoc := .unknown, locReported := false }

/-- An ETW object without its place in the waiting queue. -/
def EtwObj.noWait (e : EtwObj) : EtwObj := { e with pendingSinceMs := 0, expired := false }

/-- The state of the join. -/
@[ext] structure Join where
  /-- Live tracked objects by tracker id. -/
  live : ℕ → Option LiveObject
  /-- ETW objects by canonical library id. -/
  etw : ℕ → Option EtwObj
  /-- Library id to canonical library id. -/
  canon : ℕ → Option ℕ
  /-- Address to canonical library id. -/
  byAddr : ℕ → Option ℕ
  /-- Address to live tracker id. -/
  occupant : ℕ → Option ℕ
  /-- Address to its destroyed occupants, oldest first. -/
  dead : ℕ → List DeadObj

/-- The tracked object's side of a binding to `e`. -/
def joined (key : ℕ) (e : EtwObj) (o : LiveObject) : LiveObject :=
  { o with
    etwKey := key
    ownLoc := e.group
    driverSize := if isDriverType e.type then e.size else o.driverSize }

namespace Join

def empty : Join where
  live := fun _ => none
  etw := fun _ => none
  canon := fun _ => none
  byAddr := fun _ => none
  occupant := fun _ => none
  dead := fun _ => []

/-! ### Writes -/

@[simps] def setLive (j : Join) (id : ℕ) (o : Option LiveObject) : Join :=
  { j with live := Function.update j.live id o }

@[simps] def setEtw (j : Join) (key : ℕ) (e : Option EtwObj) : Join :=
  { j with etw := Function.update j.etw key e }

@[simps] def setCanon (j : Join) (x : ℕ) (key : Option ℕ) : Join :=
  { j with canon := Function.update j.canon x key }

@[simps] def setByAddr (j : Join) (a : ℕ) (key : Option ℕ) : Join :=
  { j with byAddr := Function.update j.byAddr a key }

@[simps] def setOccupant (j : Join) (a : ℕ) (id : Option ℕ) : Join :=
  { j with occupant := Function.update j.occupant a id }

@[simps] def setDead (j : Join) (a : ℕ) (dead : List DeadObj) : Join :=
  { j with dead := Function.update j.dead a dead }

/-- A write through a reference to a live object. -/
def updLive (j : Join) (id : ℕ) (f : LiveObject → LiveObject) : Join :=
  j.setLive id ((j.live id).map f)

/-- A write through a reference to an ETW object. -/
def updEtw (j : Join) (key : ℕ) (f : EtwObj → EtwObj) : Join :=
  j.setEtw key ((j.etw key).map f)

/-! ### Binding -/

/-- The object behind a library id. -/
def find (j : Join) (libId : ℕ) : Option (ℕ × EtwObj) :=
  (j.canon libId).bind fun key => (j.etw key).map fun e => (key, e)

/-- Another ETW object loses `o`. -/
def unbindOther (j : Join) (key : ℕ) (o : LiveObject) : Join :=
  if o.etwKey ≠ 0 ∧ o.etwKey ≠ key then j.updEtw o.etwKey (·.setBoundId 0)
  else j

/-- The ETW object `e` under `key` and the live object `o` under `id` are bound. -/
def bind (j : Join) (key id : ℕ) (e : EtwObj) (o : LiveObject) : Join :=
  ((j.unbindOther key o).updEtw key (·.setBoundId o.id)).updLive id (joined key e)

/-- The occupant of `e`'s address, if `e` can bind to it. -/
def bindTarget (j : Join) (e : EtwObj) : Option (ℕ × LiveObject) :=
  match j.occupant e.address with
  | none => none
  | some id =>
    match j.live id with
    | none => none
    | some o => if canBind e o then some (id, o) else none

/-- `e`, under `key`, is attributed to the destroyed object `x`. -/
def attributeLate (j : Join) (key : ℕ) (x : DeadObj) : Join :=
  j.updEtw key (·.setOrphanTs (if x.destroyedNs ≠ 0 then x.destroyedNs else 1))

/-- The object under `key` looks for its tracked object. -/
def tryBind (j : Join) (key : ℕ) : Join :=
  match j.etw key with
  | none => j
  | some e =>
    if e.boundId ≠ 0 ∨ e.orphanTs ≠ 0 ∨ e.address = 0 ∨ bindable e.type = false then j
    else
      match j.bindTarget e with
      | some (id, o) => j.bind key id e o
      | none =>
        match (j.dead e.address).find? (lateMatch e) with
        | some x => j.attributeLate key x
        | none => j

/-! ### The pipe -/

/-- When the previous occupant of `o`'s address died. -/
def prevDeath (j : Join) (o : LiveObject) : ℕ :=
  match (j.dead o.objectPtr).getLast? with
  | some d => d.destroyedNs
  | none => o.prevDestroyNs

/-- `o` is live, and the occupant of its address. -/
def occupy (j : Join) (o : LiveObject) : Join :=
  if o.objectPtr = 0 then j.setLive o.id (some o)
  else
    (j.setLive o.id (some (o.setPrevDestroyNs (j.prevDeath o)))).setOccupant o.objectPtr (some o.id)

/-- The new object `id` looks for the ETW object that owns its address. -/
def bindReported (j : Join) (id : ℕ) : Join :=
  match j.live id with
  | none => j
  | some o =>
    if o.objectPtr = 0 then j
    else
      match j.byAddr o.objectPtr with
      | none => j
      | some key =>
        match j.etw key with
        | none => j
        | some e => if canBind e o then j.bind key id e o else j

/-- A `created` record. -/
def created (j : Join) (o : LiveObject) : Join := (j.occupy o).bindReported o.id

/-- The occupant of an address becomes history. -/
def forgetOccupant (j : Join) (o : LiveObject) (ts : ℕ) : Join :=
  if o.objectPtr = 0 then j
  else
    (if j.occupant o.objectPtr = some o.id then j.setOccupant o.objectPtr none else j).setDead
      o.objectPtr (remember (j.dead o.objectPtr) (obituary o ts))

/-- The ETW object bound to `o` is orphaned. -/
def orphanBound (j : Join) (o : LiveObject) (ts : ℕ) : Join :=
  if o.etwKey = 0 then j
  else
    match j.etw o.etwKey with
    | none => j
    | some e =>
      if e.boundId = o.id then
        j.updEtw o.etwKey fun e => (e.setBoundId 0).setOrphanTs (if ts ≠ 0 then ts else 1)
      else j

/-- A `destroyed` record. -/
def destroyed (j : Join) (id ts : ℕ) : Join :=
  match j.live id with
  | none => j
  | some o =>
    ((j.forgetOccupant o ts).orphanBound o ts).setLive id none

/-! ### The ETW sink -/

def applyGroup (j : Join) (key : ℕ) (g : MemLoc) : Join :=
  match j.etw key with
  | none => j
  | some e =>
    let j := j.updEtw key (·.setGroup g)
    if e.boundId = 0 then j else j.updLive e.boundId (·.setOwnLoc g)

def applySize (j : Join) (key size : ℕ) : Join :=
  match j.etw key with
  | none => j
  | some e =>
    if size = 0 ∨ size = e.size then j
    else
      let j := j.updEtw key (·.setSize size)
      if e.boundId = 0 ∨ isDriverType e.type = false then j
      else j.updLive e.boundId (·.setDriverSize size)

def etwCreated (j : Join) (libId : ℕ) (e : EtwObj) : Join :=
  if (j.canon libId).isSome then j
  else
    (if (j.etw libId).isSome then j else j.setEtw libId (some e)).setCanon libId (some libId)

/-- The object under `key` disappears into the one under `into`. -/
def absorb (j : Join) (key into : ℕ) : Join :=
  ((j.setEtw key none).updEtw into (·.addAlias key)).setCanon key (some into)

/-- The re-report `key` of the object `into` is merged into it. -/
def foldRundown (j : Join) (key : ℕ) (e : EtwObj) (into : ℕ) (old : EtwObj) : Join :=
  let j := if e.size ≠ 0 then j.applySize into e.size else j
  let j := if e.group ≠ .unknown ∧ e.group ≠ old.group then j.applyGroup into e.group else j
  (j.absorb key into).tryBind into

/-- What a re-report `e` says about the old object that it repeats. -/
def refresh (j : Join) (e : EtwObj) (into : ℕ) (old : EtwObj) : Join :=
  let j := if e.size ≠ 0 then j.applySize into e.size else j
  if e.group ≠ .unknown ∧ e.group ≠ old.group then j.applyGroup into e.group else j

/-- The object under `key` becomes the owner of `address`. -/
def own (j : Join) (key address : ℕ) : Join :=
  (j.updEtw key (·.setAddress address)).setByAddr address (some key)

def takeAddress (j : Join) (key address : ℕ) : Join := (j.own key address).tryBind key

def etwAddress (j : Join) (libId address : ℕ) : Join :=
  if address = 0 then j
  else
    match j.find libId with
    | none => j
    | some (key, e) =>
      if e.address ≠ 0 then j
      else
        match j.byAddr address with
        | none => j.takeAddress key address
        | some into =>
          if into = key then j.takeAddress key address
          else
            match j.etw into with
            | none => j.takeAddress key address
            | some old =>
              if old.type = e.type then j.foldRundown key e into old
              else j.takeAddress key address

/-- The tracked object keeps its location, but not its key. -/
def unkey (j : Join) (key : ℕ) (e : EtwObj) : Join :=
  if e.boundId = 0 then j
  else
    match j.live e.boundId with
    | none => j
    | some o => if o.etwKey = key then j.updLive e.boundId (·.setEtwKey 0) else j

/-- The object under `key` and everything that resolves to it are gone. -/
def drop (j : Join) (key : ℕ) (e : EtwObj) : Join :=
  let j := { j with canon := fun x => if x = key ∨ x ∈ e.aliases then none else j.canon x }
  (if e.address ≠ 0 ∧ j.byAddr e.address = some key then j.setByAddr e.address none
    else j).setEtw key none

def etwDestroyed (j : Join) (libId : ℕ) : Join :=
  match j.find libId with
  | none => j
  | some (key, e) => (j.unkey key e).drop key e

def etwSize (j : Join) (libId size : ℕ) : Join :=
  match j.find libId with
  | none => j
  | some (key, _) => j.applySize key size

def etwGroup (j : Join) (libId : ℕ) (g : MemLoc) : Join :=
  match j.find libId with
  | none => j
  | some (key, e) => if g ≠ e.group then j.applyGroup key g else j

/-! ### The machine -/

/-- What the two streams, and the main thread, do to the join. -/
inductive Op
  | created (tsNs : ℕ) (p : CreatedPayload)
  | renamed (id : ℕ) (name : WString)
  | destroyed (id ts : ℕ)
  | etwCreated (libId : ℕ) (type : ObjType) (size : ℕ) (group : MemLoc) (createdTs : ℕ)
  | etwAddress (libId address : ℕ)
  | etwDestroyed (libId : ℕ)
  | etwSize (libId size : ℕ)
  | etwGroup (libId : ℕ) (group : MemLoc)
  /-- Old deaths are forgotten. -/
  | prune (dead : ℕ → List DeadObj)

def step (j : Join) : Op → Join
  | .created tsNs p => j.created (liveOfCreated tsNs p)
  | .renamed id name => j.updLive id (·.setName name)
  | .destroyed id ts => j.destroyed id ts
  | .etwCreated libId type size group createdTs =>
    j.etwCreated libId { type := type, size := size, group := group, createdTs := createdTs }
  | .etwAddress libId address => j.etwAddress libId address
  | .etwDestroyed libId => j.etwDestroyed libId
  | .etwSize libId size => j.etwSize libId size
  | .etwGroup libId group => j.etwGroup libId group
  | .prune dead => { j with dead := dead }

/-! ### Lookup after a write -/

@[simp] theorem live_updLive (j : Join) (id i : ℕ) (f : LiveObject → LiveObject) :
    (j.updLive id f).live i = if i = id then (j.live i).map f else j.live i := by
  rw [updLive, setLive_live, Function.update_apply]
  split
  · next h => rw [h]
  · rfl

@[simp] theorem etw_updLive (j : Join) (id : ℕ) (f : LiveObject → LiveObject) :
    (j.updLive id f).etw = j.etw := rfl
@[simp] theorem canon_updLive (j : Join) (id : ℕ) (f : LiveObject → LiveObject) :
    (j.updLive id f).canon = j.canon := rfl
@[simp] theorem byAddr_updLive (j : Join) (id : ℕ) (f : LiveObject → LiveObject) :
    (j.updLive id f).byAddr = j.byAddr := rfl
@[simp] theorem occupant_updLive (j : Join) (id : ℕ) (f : LiveObject → LiveObject) :
    (j.updLive id f).occupant = j.occupant := rfl
@[simp] theorem dead_updLive (j : Join) (id : ℕ) (f : LiveObject → LiveObject) :
    (j.updLive id f).dead = j.dead := rfl

@[simp] theorem etw_updEtw (j : Join) (key k : ℕ) (f : EtwObj → EtwObj) :
    (j.updEtw key f).etw k = if k = key then (j.etw k).map f else j.etw k := by
  rw [updEtw, setEtw_etw, Function.update_apply]
  split
  · next h => rw [h]
  · rfl

@[simp] theorem live_updEtw (j : Join) (key : ℕ) (f : EtwObj → EtwObj) :
    (j.updEtw key f).live = j.live := rfl
@[simp] theorem canon_updEtw (j : Join) (key : ℕ) (f : EtwObj → EtwObj) :
    (j.updEtw key f).canon = j.canon := rfl
@[simp] theorem byAddr_updEtw (j : Join) (key : ℕ) (f : EtwObj → EtwObj) :
    (j.updEtw key f).byAddr = j.byAddr := rfl
@[simp] theorem occupant_updEtw (j : Join) (key : ℕ) (f : EtwObj → EtwObj) :
    (j.updEtw key f).occupant = j.occupant := rfl
@[simp] theorem dead_updEtw (j : Join) (key : ℕ) (f : EtwObj → EtwObj) :
    (j.updEtw key f).dead = j.dead := rfl

/-- A write through a dangling reference. -/
theorem updLive_of_none {j : Join} {id : ℕ} (f : LiveObject → LiveObject)
    (h : j.live id = none) : j.updLive id f = j := by
  unfold updLive setLive
  rw [h, Option.map_none, Function.update_eq_self_iff.mpr h.symm]

/-- A write of what is there already. -/
theorem updLive_eq_self {j : Join} {id : ℕ} {f : LiveObject → LiveObject}
    (h : ∀ o, j.live id = some o → f o = o) : j.updLive id f = j := by
  have hmap : (j.live id).map f = j.live id := by
    cases ho : j.live id with
    | none => rfl
    | some o => rw [Option.map_some, h o ho]
  unfold updLive setLive
  rw [hmap, Function.update_eq_self_iff.mpr rfl]

theorem updLive_updLive (j : Join) (id : ℕ) (f g : LiveObject → LiveObject) :
    (j.updLive id f).updLive id g = j.updLive id (g ∘ f) := by
  unfold updLive setLive
  simp

/-! ### Binding and addresses -/

/-- A new object binds to the owner of its address, or nothing happens. -/
theorem bindReported_cases (j : Join) (id : ℕ) :
    j.bindReported id = j ∨
      ∃ o key e, j.live id = some o ∧ o.objectPtr ≠ 0 ∧ j.byAddr o.objectPtr = some key ∧
        j.etw key = some e ∧ canBind e o = true ∧ j.bindReported id = j.bind key id e o := by
  unfold bindReported
  split
  · exact .inl rfl
  · next o ho =>
    split
    · exact .inl rfl
    · next hp =>
      split
      · exact .inl rfl
      · next key hkey =>
        split
        · exact .inl rfl
        · next e he =>
          split
          · next hc => exact .inr ⟨o, key, e, ho, hp, hkey, he, hc, rfl⟩
          · exact .inl rfl

/-- What becomes of an address: nothing, or the object takes it, or is merged into its owner. -/
theorem etwAddress_cases (j : Join) (libId address : ℕ) :
    j.etwAddress libId address = j ∨
      ∃ key e, j.find libId = some (key, e) ∧ address ≠ 0 ∧ e.address = 0 ∧
        (j.etwAddress libId address = j.takeAddress key address ∨
          ∃ into old, j.byAddr address = some into ∧ into ≠ key ∧ j.etw into = some old ∧
            old.type = e.type ∧ j.etwAddress libId address = j.foldRundown key e into old) := by
  unfold etwAddress
  split
  · exact .inl rfl
  · next ha =>
    split
    · exact .inl rfl
    · next key e hfind =>
      split
      · exact .inl rfl
      · next hz =>
        refine .inr ⟨key, e, hfind, ha, not_not.mp hz, ?_⟩
        split
        · exact .inl rfl
        · next into hinto =>
          split
          · exact .inl rfl
          · next hne =>
            split
            · exact .inl rfl
            · next old hold =>
              split
              · next htype => exact .inr ⟨into, old, hinto, hne, hold, htype, rfl⟩
              · exact .inl rfl

/-- The tracked object loses its key, unless it has another one. -/
theorem unkey_cases (j : Join) (key : ℕ) (e : EtwObj) :
    (j.unkey key e = j ∧
      ∀ o, e.boundId ≠ 0 → j.live e.boundId = some o → o.etwKey ≠ key) ∨
    ∃ o, e.boundId ≠ 0 ∧ j.live e.boundId = some o ∧ o.etwKey = key ∧
      j.unkey key e = j.updLive e.boundId (·.setEtwKey 0) := by
  unfold unkey
  split
  · next hb => exact .inl ⟨rfl, fun _ hne => absurd hb hne⟩
  · next hb =>
    cases ho : j.live e.boundId with
    | none => exact .inl ⟨rfl, fun _ _ ho' => by cases ho'⟩
    | some o =>
      dsimp only
      split
      · next hk => exact .inr ⟨o, hb, rfl, hk, rfl⟩
      · next hk =>
        refine .inl ⟨rfl, fun o' _ ho' => ?_⟩
        cases ho'
        exact hk

/-! ### The merge of a re-report -/

/-- What the writes to an object and to its tracked object keep, a new group keeps. -/
theorem applyGroup_frame {γ : Type} {f : Join → γ} (hetw : ∀ j key h, f (updEtw j key h) = f j)
    (hlive : ∀ j id h, f (updLive j id h) = f j) (j : Join) (key : ℕ) (g : MemLoc) :
    f (j.applyGroup key g) = f j := by
  unfold applyGroup
  split
  · rfl
  · dsimp only
    split
    · exact hetw j key _
    · rw [hlive, hetw]

theorem applySize_frame {γ : Type} {f : Join → γ} (hetw : ∀ j key h, f (updEtw j key h) = f j)
    (hlive : ∀ j id h, f (updLive j id h) = f j) (j : Join) (key size : ℕ) :
    f (j.applySize key size) = f j := by
  unfold applySize
  split
  · rfl
  · split
    · rfl
    · dsimp only
      split
      · exact hetw j key _
      · rw [hlive, hetw]

theorem foldRundown_eq (j : Join) (key : ℕ) (e : EtwObj) (into : ℕ) (old : EtwObj) :
    j.foldRundown key e into old = ((j.refresh e into old).absorb key into).tryBind into := rfl

/-- What the updates of an object keep, a refresh keeps. -/
theorem refresh_of {P : Join → Prop} {into : ℕ} (hsize : ∀ j n, P j → P (j.applySize into n))
    (hgroup : ∀ j g, P j → P (j.applyGroup into g)) {j : Join} (h : P j) (e old : EtwObj) :
    P (j.refresh e into old) := by
  have hsized : P (if e.size ≠ 0 then j.applySize into e.size else j) := by
    split
    · exact hsize j e.size h
    · exact h
  unfold refresh
  dsimp only
  split
  · exact hgroup _ e.group hsized
  · exact hsized

theorem refresh_frame {γ : Type} {f : Join → γ} (hetw : ∀ j key h, f (updEtw j key h) = f j)
    (hlive : ∀ j id h, f (updLive j id h) = f j) (j : Join) (e : EtwObj) (into : ℕ)
    (old : EtwObj) : f (j.refresh e into old) = f j := by
  -- the updates are compared with what was there before the first of them
  refine refresh_of (P := fun j' => f j' = f j) ?_ ?_ rfl e old
  · intro j' n h
    rw [applySize_frame hetw hlive, h]
  · intro j' g h
    rw [applyGroup_frame hetw hlive, h]

end Join

end Dx12Track
