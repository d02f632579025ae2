import Mathlib.Data.List.Chain
import Dx12Track.Launcher.JoinInv

/-!
# Which occupant of an address an ETW object belongs to

An address is used by one object after another, and an ETW object created there at
time `T` belongs to the one whose lifetime contains `T`.  The launcher asks the live
occupant first and the remembered dead ones after it, oldest first, and each answers
for its lifetime widened by `kBindSlackNs`.  Here the occupants are listed with their
lifetimes, and the answer is compared with the lifetimes.

* `Occupant`, `Model.occupants` — the tracked objects seen at an address.
* `Model.Contended` — they take turns, and each could be the one.
* `Model.AttributedTo` — what the launcher decided.
* `attributedTo_live`, `attributedTo_oldest` — the widened lifetimes decide.
* `attributed_of_contains` — **the lifetime decides**, away from its ends.
-/

namespace Dx12Track

open Model (canBind lateMatch)

/-- A tracked object seen at an address. -/
inductive Occupant
  | dead (x : DeadObj)
  | live (id : ℕ) (o : LiveObject)

namespace Occupant

def type : Occupant → ObjectType
  | dead x => x.type
  | live _ o => o.type

def prevDestroyNs : Occupant → ℕ
  | dead x => x.prevDestroyNs
  | live _ o => o.prevDestroyNs

/-- The lifetime of the occupant contains `t`. -/
def Contains (t : ℕ) : Occupant → Prop
  | dead x => x.prevDestroyNs < t ∧ t ≤ x.destroyedNs
  | live _ o => o.prevDestroyNs < t

/-- `b` is the next occupant after `a`. -/
def Before (a b : Occupant) : Prop :=
  match a with
  | dead x => b.prevDestroyNs = x.destroyedNs
  | live _ _ => False

end Occupant

namespace Model

/-- The remembered dead occupants of `p`, oldest first. -/
def deadAt (m : Model) (p : ℕ) : List DeadObj := (m.deadByPtr.lookup p).getD []

/-- The live occupant of `p`. -/
def liveAt (m : Model) (p : ℕ) : Option (ℕ × LiveObject) :=
  (m.ptrToId.lookup p).bind fun id => (m.live.lookup id).map fun o => (id, o)

/-- The tracked objects seen at `p`, oldest first. -/
def occupants (m : Model) (p : ℕ) : List Occupant :=
  (m.deadAt p).map .dead ++ (m.liveAt p).toList.map fun x => .live x.1 x.2

/-- The ETW object `e`, under `key`, is still to be attributed, and every occupant of its address
could be the one it belongs to. -/
structure Contended (m : Model) (key : ℕ) (e : EtwObj) : Prop where
  etw : m.etwObjs.lookup key = some e
  unbound : e.boundId = 0
  unmatched : e.orphanTs = 0
  addressed : e.address ≠ 0
  stamped : 0 < e.createdTs
  turns : (m.occupants e.address).IsChain Occupant.Before
  compatible : ∀ c ∈ m.occupants e.address, compatible e.type c.type = true

/-- No stamp is so large that adding the slack to it wraps around. -/
structure SlackFits (m : Model) (e : EtwObj) : Prop where
  created : e.createdTs + kBindSlackNs < 2 ^ 64
  destroyed : ∀ x, .dead x ∈ m.occupants e.address → x.destroyedNs + kBindSlackNs < 2 ^ 64

/-- From `m` to `m'` one line was written. -/
def Wrote (m m' : Model) (line : SideLine) : Prop :=
  m'.sideFile = (m.sideLine line).sideFile ∧ m'.sidePrebuf = (m.sideLine line).sidePrebuf

/-- From `m` to `m'` the object `e`, under `key`, was attributed to the occupant: bound to it if
it is live, orphaned with its id in the `etw_bind` line if it is dead. -/
def AttributedTo (m m' : Model) (key ts : ℕ) (e : EtwObj) : Occupant → Prop
  | .live id o =>
    (∃ e', m'.etwObjs.lookup key = some e' ∧ e'.boundId = o.id ∧ e'.orphanTs = 0) ∧
      ∃ o', m'.live.lookup id = some o' ∧ o'.etwKey = key
  | .dead x =>
    (∃ e', m'.etwObjs.lookup key = some e' ∧ e'.boundId = 0 ∧
      e'.orphanTs = if x.destroyedNs ≠ 0 then x.destroyedNs else 1) ∧
      m.Wrote m' (.etwBind ts x.id key e.type e.address true)

variable {m : Model} {key : ℕ} {e : EtwObj}

theorem mem_occupants_live {p id : ℕ} {o : LiveObject} :
    .live id o ∈ m.occupants p ↔ m.liveAt p = some (id, o) := by
  simp [occupants]

theorem liveAt_eq_some {p id : ℕ} {o : LiveObject} (h : m.liveAt p = some (id, o)) :
    m.ptrToId.lookup p = some id ∧ m.live.lookup id = some o := by
  obtain ⟨i, hi, hmap⟩ := Option.bind_eq_some_iff.mp h
  obtain ⟨o', ho, heq⟩ := Option.map_eq_some_iff.mp hmap
  cases heq
  exact ⟨hi, ho⟩

/-- The occupants older than a dead one are those before it in the history. -/
theorem deadAt_of_occupants {p : ℕ} {older younger : List Occupant} {x : DeadObj}
    (h : m.occupants p = older ++ .dead x :: younger) :
    ∃ before after, m.deadAt p = before ++ x :: after ∧ older = before.map .dead := by
  unfold occupants at h
  rcases List.append_eq_append_iff.mp h with ⟨l, rfl, hl⟩ | ⟨l, hd, hl⟩
  · -- the live part has no dead occupant
    have hmem : Occupant.dead x ∈ l ++ Occupant.dead x :: younger := by simp
    rw [← hl] at hmem
    simp at hmem
  · cases l with
    | nil =>
      have hmem : Occupant.dead x ∈ (m.liveAt p).toList.map fun x => Occupant.live x.1 x.2 := by
        rw [List.nil_append] at hl
        simp [← hl]
      simp at hmem
    | cons c l =>
      obtain ⟨rfl, -⟩ := List.cons.inj hl
      obtain ⟨before, rest, heq, hbefore, hrest⟩ := List.map_eq_append_iff.mp hd
      obtain ⟨y, after, rfl, hy, -⟩ := List.map_eq_cons_iff.mp hrest
      cases hy
      exact ⟨before, after, heq, hbefore.symm⟩

/-! ### The live occupant -/

/-- The occupant that `e` could bind to decides. -/
theorem tryBindEtw_of_contended (h : m.Contended key e) {c : Occupant}
    (hc : c ∈ m.occupants e.address) (env : Env) (ts : ℕ) :
    m.tryBindEtw env key ts =
      match m.bindTarget e with
      | some id => m.bind key id ts
      | none =>
        match (m.deadAt e.address).find? (lateMatch e) with
        | some x => m.attributeLate key ts e x
        | none => m.waitForObject env key e := by
  have hopen : ¬(e.boundId ≠ 0 ∨ e.orphanTs ≠ 0 ∨ e.address = 0 ∨ bindable e.type = false) := by
    simp [h.unbound, h.unmatched, h.addressed, bindable_of_compatible (h.compatible c hc)]
  unfold tryBindEtw
  rw [h.etw]
  exact if_neg hopen

theorem canBind_of_contended (h : m.Contended key e) (hfit : m.SlackFits e) {id : ℕ}
    {o : LiveObject} (ho : .live id o ∈ m.occupants e.address) :
    canBind e o = decide (o.prevDestroyNs ≤ e.createdTs + kBindSlackNs) := by
  have hc : compatible e.type o.type = true := h.compatible _ ho
  unfold canBind add64
  rw [Nat.mod_eq_of_lt hfit.created]
  simp [h.unbound, h.unmatched, hc]

/-- **A live occupant takes `e`** from the slack before its birth on. -/
theorem attributedTo_live (h : m.Contended key e) (hfit : m.SlackFits e) {id : ℕ}
    {o : LiveObject} (ho : .live id o ∈ m.occupants e.address)
    (hT : o.prevDestroyNs ≤ e.createdTs + kBindSlackNs) (env : Env) (ts : ℕ) :
    m.AttributedTo (m.tryBindEtw env key ts) key ts e (.live id o) := by
  obtain ⟨hptr, hlive⟩ := liveAt_eq_some (mem_occupants_live.mp ho)
  have htarget : m.bindTarget e = some id := by
    unfold bindTarget
    simp [hptr, hlive, canBind_of_contended h hfit ho, hT]
  have hbind : m.tryBindEtw env key ts = m.bind key id ts := by
    rw [tryBindEtw_of_contended h ho, htarget]
  have hjoin : (m.bind key id ts).join = m.join.bind key id e.noWait o.noLoc :=
    join_bind ts h.etw hlive
  have hetw := congrArg (fun j => j.etw key) hjoin
  have hobj := congrArg (fun j => j.live id) hjoin
  simp only [join_etw, Join.etw_bind, if_true, h.etw, Option.map_some] at hetw
  simp only [join_live, Join.live_bind, if_true, hlive, Option.map_some] at hobj
  obtain ⟨e', he', heq⟩ := Option.map_eq_some_iff.mp hetw
  obtain ⟨o', ho', hoeq⟩ := Option.map_eq_some_iff.mp hobj
  rw [hbind]
  refine ⟨⟨e', he', ?_, ?_⟩, o', ho', ?_⟩
  · exact congrArg EtwObj.boundId heq
  · exact (congrArg EtwObj.orphanTs heq).trans h.unmatched
  · exact congrArg LiveObject.etwKey hoeq

/-! ### The dead occupants -/

/-- What `lateMatch` asks, of the stamps alone. -/
theorem lateMatch_iff (h : m.Contended key e) (hfit : m.SlackFits e) {x : DeadObj}
    (hx : .dead x ∈ m.occupants e.address) :
    lateMatch e x = true ↔ e.createdTs ≤ x.destroyedNs + kBindSlackNs ∧
      x.prevDestroyNs ≤ e.createdTs + kBindSlackNs := by
  have hc : compatible e.type x.type = true := h.compatible _ hx
  unfold lateMatch add64
  rw [Nat.mod_eq_of_lt hfit.created, Nat.mod_eq_of_lt (hfit.destroyed x hx)]
  simp [hc]

/-- The oldest dead occupant that matches is found. -/
theorem find?_lateMatch {before after : List DeadObj} {x : DeadObj}
    (hbefore : ∀ y ∈ before, lateMatch e y = false) (hx : lateMatch e x = true) :
    (before ++ x :: after).find? (lateMatch e) = some x := by
  induction before with
  | nil => simp [hx]
  | cons y before ih =>
    rw [List.cons_append, List.find?_cons_of_neg (by simp [hbefore y])]
    exact ih fun z hz => hbefore z (List.mem_cons_of_mem y hz)

theorem attributedTo_attributeLate (h : m.Contended key e) (ts : ℕ) (x : DeadObj) :
    m.AttributedTo (m.attributeLate key ts e x) key ts e (.dead x) := by
  have hjoin : (m.attributeLate key ts e x).join = m.join.attributeLate key x :=
    join_attributeLate m key ts e x
  have hetw := congrArg (fun j => j.etw key) hjoin
  unfold Join.attributeLate at hetw
  simp only [join_etw, Join.etw_updEtw, if_true, h.etw, Option.map_some] at hetw
  obtain ⟨e', he', heq⟩ := Option.map_eq_some_iff.mp hetw
  refine ⟨⟨e', he', ?_, ?_⟩, ?_⟩
  · exact (congrArg EtwObj.boundId heq).trans h.unbound
  · exact congrArg EtwObj.orphanTs heq
  · -- the line is the last thing that happens
    unfold Wrote attributeLate sideLine updStats updEtw setEtwObjs setSnapshot
    dsimp only
    split_ifs <;> exact ⟨rfl, rfl⟩

/-- **The oldest dead occupant that matches gets `e`**, if the live one does not. -/
theorem attributedTo_oldest (h : m.Contended key e) (hfit : m.SlackFits e)
    {older younger : List Occupant} {x : DeadObj}
    (hocc : m.occupants e.address = older ++ .dead x :: younger) (hx : lateMatch e x = true)
    (hlive : ∀ id o, .live id o ∈ m.occupants e.address →
      e.createdTs + kBindSlackNs < o.prevDestroyNs)
    (holder : ∀ y, .dead y ∈ older → lateMatch e y = false) (env : Env) (ts : ℕ) :
    m.AttributedTo (m.tryBindEtw env key ts) key ts e (.dead x) := by
  have hmem : Occupant.dead x ∈ m.occupants e.address := by simp [hocc]
  obtain ⟨before, after, hdead, rfl⟩ := deadAt_of_occupants hocc
  have htarget : m.bindTarget e = none := by
    cases ht : m.bindTarget e with
    | none => rfl
    | some id =>
      obtain ⟨hptr, o, ho, hcan⟩ := bindTarget_some ht
      have hat : m.liveAt e.address = some (id, o) := by simp [liveAt, hptr, ho]
      have hlate := hlive id o (mem_occupants_live.mpr hat)
      rw [canBind_of_contended h hfit (mem_occupants_live.mpr hat)] at hcan
      have := of_decide_eq_true hcan
      omega
  have hfind : (m.deadAt e.address).find? (lateMatch e) = some x := by
    rw [hdead]
    exact find?_lateMatch (fun y hy => holder y (List.mem_map_of_mem hy)) hx
  rw [tryBindEtw_of_contended h hmem, htarget, hfind]
  exact attributedTo_attributeLate h ts x

/-- **A dead occupant keeps `e`** if its lifetime contains the creation, and neither the live one
nor an older one is within the slack. -/
theorem attributedTo_dead (h : m.Contended key e) (hfit : m.SlackFits e)
    {older younger : List Occupant} {x : DeadObj}
    (hocc : m.occupants e.address = older ++ .dead x :: younger)
    (hx : (Occupant.dead x).Contains e.createdTs)
    (hlive : ∀ id o, .live id o ∈ m.occupants e.address →
      e.createdTs + kBindSlackNs < o.prevDestroyNs)
    (holder : ∀ y, .dead y ∈ older → y.destroyedNs + kBindSlackNs < e.createdTs)
    (env : Env) (ts : ℕ) :
    m.AttributedTo (m.tryBindEtw env key ts) key ts e (.dead x) := by
  have hmem : Occupant.dead x ∈ m.occupants e.address := by simp [hocc]
  apply attributedTo_oldest h hfit hocc _ hlive
  · intro y hy
    have hy' : Occupant.dead y ∈ m.occupants e.address := by
      rw [hocc]
      exact List.mem_append_left _ hy
    have hlt := holder y hy
    rw [← Bool.not_eq_true, lateMatch_iff h hfit hy']
    omega
  · rw [lateMatch_iff h hfit hmem]
    obtain ⟨hborn, hdied⟩ := hx
    omega

/-! ### The lifetime decides -/

/-- The occupant whose lifetime contains the creation of `e` gets it, but for the slack: a live
occupant also gets what was created up to `kBindSlackNs` before the death of the one before it, and
a dead one is only sure of what was created later than that after the deaths before its own. -/
theorem attributed_of_contains (h : m.Contended key e) (hfit : m.SlackFits e) (env : Env)
    (ts : ℕ) :
    (∀ id o, .live id o ∈ m.occupants e.address →
      o.prevDestroyNs ≤ e.createdTs + kBindSlackNs →
      m.AttributedTo (m.tryBindEtw env key ts) key ts e (.live id o)) ∧
    ∀ (older younger : List Occupant) (c : Occupant),
      m.occupants e.address = older ++ c :: younger → c.Contains e.createdTs →
      (∀ id o, .live id o ∈ younger → e.createdTs + kBindSlackNs < o.prevDestroyNs) →
      (∀ y, .dead y ∈ older → y.destroyedNs + kBindSlackNs < e.createdTs) →
      m.AttributedTo (m.tryBindEtw env key ts) key ts e c := by
  refine ⟨fun id o ho hT => attributedTo_live h hfit ho hT env ts, ?_⟩
  intro older younger c hocc hc hlive holder
  cases c with
  | live id o =>
    have hborn : o.prevDestroyNs < e.createdTs := hc
    exact attributedTo_live h hfit (by simp [hocc]) (by omega) env ts
  | dead x =>
    apply attributedTo_dead h hfit hocc hc _ holder
    intro id o ho
    -- the live occupant is younger than any dead one
    obtain ⟨before, after, -, hbefore⟩ := deadAt_of_occupants hocc
    rw [hocc, hbefore] at ho
    rcases List.mem_append.mp ho with hmem | hmem
    · simp at hmem
    · rcases List.mem_cons.mp hmem with heq | hmem
      · cases heq
      · exact hlive id o hmem

/-- The second of two resources at address 4096. -/
def second : LiveObject :=
  (liveOfCreated 1000000 (plainCreated 2 .resource .committed 4096 65536 0)).setPrevDestroyNs
    1000000

/-- An ETW object created at the same address at `t`. -/
def resourceAt (t : ℕ) : EtwObj := { type := .resource, address := 4096, createdTs := t }

/-- The first of them died when the second was created, and `resourceAt t` has the key 7. -/
def churned (t : ℕ) : Model :=
  { live := (∅ : Table ℕ LiveObject).insert 2 second
    ptrToId := (∅ : Table ℕ ℕ).insert 4096 2
    deadByPtr := (∅ : Table ℕ (List DeadObj)).insert 4096 [⟨1, .resource, 0, 1000000⟩]
    etwObjs := (∅ : Table ℕ EtwObj).insert 7 (resourceAt t) }

theorem occupants_churned (t : ℕ) :
    (churned t).occupants 4096 = [.dead ⟨1, .resource, 0, 1000000⟩, .live 2 second] := rfl

theorem contended_churned {t : ℕ} (ht : 0 < t) : (churned t).Contended 7 (resourceAt t) where
  etw := rfl
  unbound := rfl
  unmatched := rfl
  addressed := Nat.succ_ne_zero 4095
  stamped := ht
  turns := List.isChain_pair.mpr rfl
  compatible := by
    intro c hc
    rw [show (resourceAt t).address = 4096 from rfl, occupants_churned] at hc
    rcases List.mem_pair.mp hc with rfl | rfl <;> rfl

theorem slackFits_churned {t : ℕ} (ht : t < 2000000) :
    (churned t).SlackFits (resourceAt t) where
  created := by
    show t + 100000 < 2 ^ 64
    omega
  destroyed := by
    intro x hx
    rw [show (resourceAt t).address = 4096 from rfl, occupants_churned] at hx
    rcases List.mem_pair.mp hx with hx | hx <;> cases hx
    decide

/-- In the middle of the first lifetime. -/
theorem attributed_of_contains_churned :
    (churned 500000).AttributedTo ((churned 500000).tryBindEtw {} 7 600000) 7 600000
      (resourceAt 500000) (.dead ⟨1, .resource, 0, 1000000⟩) := by
  have hocc : (churned 500000).occupants (resourceAt 500000).address
      = [] ++ .dead ⟨1, .resource, 0, 1000000⟩ :: [.live 2 second] := occupants_churned 500000
  have hin : (Occupant.dead ⟨1, .resource, 0, 1000000⟩).Contains (resourceAt 500000).createdTs :=
    ⟨by decide, by decide⟩
  refine (attributed_of_contains (contended_churned (by decide)) (slackFits_churned (by decide))
    {} 600000).2 _ _ _ hocc hin ?_ ?_
  · intro id o ho
    cases List.mem_singleton.mp ho
    decide
  · intro y hy
    cases hy

/-- 50 µs before its end the second resource gets it: the stamp of a death may be that late. -/
theorem not_attributed_of_contains :
    ¬∀ (m : Model) (env : Env) (key ts : ℕ) (e : EtwObj) (c : Occupant), m.Contended key e →
      c ∈ m.occupants e.address → c.Contains e.createdTs →
      m.AttributedTo (m.tryBindEtw env key ts) key ts e c := by
  intro h
  have hsecond : Occupant.live 2 second ∈ (churned 950000).occupants 4096 := by
    rw [occupants_churned]
    simp
  have hfirst : Occupant.dead ⟨1, .resource, 0, 1000000⟩ ∈ (churned 950000).occupants 4096 := by
    rw [occupants_churned]
    simp
  obtain ⟨⟨e', he', hbound, -⟩, -⟩ := attributedTo_live (contended_churned (by decide))
    (slackFits_churned (by decide)) hsecond (by decide) {} 1000000
  obtain ⟨⟨e'', he'', hunbound, -⟩, -⟩ := h (churned 950000) {} 7 1000000 (resourceAt 950000) _
    (contended_churned (by decide)) hfirst ⟨by decide, by decide⟩
  rw [he'] at he''
  cases he''
  rw [hbound] at hunbound
  cases hunbound

end Model

end Dx12Track
