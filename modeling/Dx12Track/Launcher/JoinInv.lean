import Dx12Track.Launcher.Steps

/-!
# The join is a partial bijection

The invariant of the join, in two parts.  `Join.Index` says that the indexes
agree with the tables they index, and `Join.Pairs` says that the two cross
pointers agree with each other and with the fields they mirror.

## Main results

* `Join.inv_step` — every operation with a fresh id preserves the invariant.
* `Join.inv_run` — it holds after every run.
* `Model.binding_consistent` — **the binding is a partial bijection, recorded on
  both sides**.
-/

namespace Dx12Track

open Model (canBind liveOfCreated)

/-- `e`, under `key`, and `o` describe one object, and say so. -/
structure Paired (key : ℕ) (e : EtwObj) (o : LiveObject) : Prop where
  key : o.etwKey = key
  compatible : compatible e.type o.type = true
  address : e.address = o.objectPtr
  group : o.ownLoc = e.group
  size : isDriverType e.type = true → o.driverSize = e.size

/-- What can be paired with some type can be bound. -/
theorem bindable_of_compatible {e : EtwObj} {t : ObjectType}
    (h : compatible e.type t = true) : bindable e.type = true := by
  unfold compatible at h
  unfold bindable
  cases ht : e.type <;> simp_all

/-- Who can be bound to whom: two unbound objects of one kind, if the last
object at the address died early enough. -/
theorem canBind_iff (e : EtwObj) (o : LiveObject) :
    canBind e o = true ↔ e.boundId = 0 ∧ e.orphanTs = 0 ∧ compatible e.type o.type = true ∧
      o.prevDestroyNs ≤ add64 e.createdTs kBindSlackNs := by
  unfold canBind
  by_cases h : e.boundId ≠ 0 ∨ e.orphanTs ≠ 0 ∨ compatible e.type o.type = false
  · rw [if_pos h]
    constructor
    · intro hf; cases hf
    · rintro ⟨hb, ho, hc, -⟩
      rcases h with h | h | h
      · exact absurd hb h
      · exact absurd ho h
      · rw [hc] at h; cases h
  · rw [if_neg h]
    push Not at h
    rw [decide_eq_true_iff]
    exact ⟨fun ht => ⟨h.1, h.2.1, by simpa using h.2.2, ht⟩, fun ht => ht.2.2.2⟩

namespace Join

/-- The indexes agree with the tables. -/
structure Index (j : Join) : Prop where
  live_id : ∀ {id o}, j.live id = some o → o.id = id ∧ id ≠ 0
  etw_key : ∀ {k e}, j.etw k = some e → k ≠ 0 ∧ j.canon k = some k
  occupant : ∀ {p id}, j.occupant p = some id →
    p ≠ 0 ∧ ∃ o, j.live id = some o ∧ o.objectPtr = p
  byAddr : ∀ {a k}, j.byAddr a = some k → a ≠ 0 ∧ ∃ e, j.etw k = some e ∧ e.address = a
  canon : ∀ {x k}, j.canon x = some k → ∃ e, j.etw k = some e ∧ (x = k ∨ x ∈ e.aliases)
  aliases : ∀ {k e x}, j.etw k = some e → x ∈ e.aliases → x ≠ k ∧ j.canon x = some k
  unplaced : ∀ {k e}, j.etw k = some e → e.address = 0 → e.aliases = []

/-- The cross pointers agree with each other and with what they mirror. -/
structure Pairs (j : Join) : Prop where
  bound : ∀ {k e}, j.etw k = some e → e.boundId ≠ 0 →
    ∃ o, j.live e.boundId = some o ∧ Paired k e o
  keyed : ∀ {id o}, j.live id = some o → o.etwKey ≠ 0 →
    ∃ e, j.etw o.etwKey = some e ∧ e.boundId = id
  orphan : ∀ {k e}, j.etw k = some e → e.orphanTs ≠ 0 → e.boundId = 0
  unplaced : ∀ {k e}, j.etw k = some e → e.address = 0 → e.boundId = 0

/-- The invariant of the join. -/
structure Inv (j : Join) : Prop where
  index : j.Index
  pairs : j.Pairs

/-- Before anything was reported there is nothing to agree on. -/
theorem inv_empty : empty.Inv where
  index := by constructor <;> simp [empty]
  pairs := by constructor <;> simp [empty]

/-! ### The indexes -/

/-- A write to a live object that keeps its id and its pointer. -/
theorem Index.updLive {j : Join} (h : j.Index) (id : ℕ) {f : LiveObject → LiveObject}
    (hid : ∀ o, (f o).id = o.id) (hptr : ∀ o, (f o).objectPtr = o.objectPtr) :
    (j.updLive id f).Index where
  live_id := by
    intro i o ho
    rw [live_updLive] at ho
    split at ho
    · obtain ⟨o', ho', rfl⟩ := Option.map_eq_some_iff.mp ho
      rw [hid]
      exact h.live_id ho'
    · exact h.live_id ho
  etw_key := h.etw_key
  occupant := by
    intro p i hp
    obtain ⟨hp0, o, ho, rfl⟩ := h.occupant hp
    rw [live_updLive, ho]
    split
    · exact ⟨hp0, f o, rfl, hptr o⟩
    · exact ⟨hp0, o, rfl, rfl⟩
  byAddr := h.byAddr
  canon := h.canon
  aliases := h.aliases
  unplaced := h.unplaced

/-- A write to an entry that keeps its address and its aliases. -/
theorem Index.updEtw {j : Join} (h : j.Index) (key : ℕ) {f : EtwObj → EtwObj}
    (hadr : ∀ e, (f e).address = e.address) (hals : ∀ e, (f e).aliases = e.aliases) :
    (j.updEtw key f).Index := by
  -- an entry of the new table comes from one with the same address and aliases
  have hback : ∀ {k e}, (j.updEtw key f).etw k = some e →
      ∃ e', j.etw k = some e' ∧ e.address = e'.address ∧ e.aliases = e'.aliases := by
    intro k e he
    rw [etw_updEtw] at he
    split at he
    · obtain ⟨e', he', rfl⟩ := Option.map_eq_some_iff.mp he
      exact ⟨e', he', hadr e', hals e'⟩
    · exact ⟨e, he, rfl, rfl⟩
  have hforth : ∀ {k e}, j.etw k = some e → ∃ e', (j.updEtw key f).etw k = some e' ∧
      e'.address = e.address ∧ e'.aliases = e.aliases := by
    intro k e he
    rw [etw_updEtw, he]
    split
    · exact ⟨f e, rfl, hadr e, hals e⟩
    · exact ⟨e, rfl, rfl, rfl⟩
  constructor
  case live_id => exact h.live_id
  case etw_key =>
    intro k e he
    obtain ⟨e', he', -, -⟩ := hback he
    exact h.etw_key he'
  case occupant => exact h.occupant
  case byAddr =>
    intro a k ha
    obtain ⟨ha0, e, he, hea⟩ := h.byAddr ha
    obtain ⟨e', he', hadr', -⟩ := hforth he
    exact ⟨ha0, e', he', hadr'.trans hea⟩
  case canon =>
    intro x k hx
    obtain ⟨e, he, hxe⟩ := h.canon hx
    obtain ⟨e', he', -, hals'⟩ := hforth he
    exact ⟨e', he', hals' ▸ hxe⟩
  case aliases =>
    intro k e x he hx
    obtain ⟨e', he', -, hals'⟩ := hback he
    exact h.aliases he' (hals' ▸ hx)
  case unplaced =>
    intro k e he hz
    obtain ⟨e', he', hadr', hals'⟩ := hback he
    rw [hals']
    exact h.unplaced he' (hadr' ▸ hz)

/-! ### Binding -/

/-- To let go of an object is such a write. -/
theorem Index.unbindOther {j : Join} (h : j.Index) (key : ℕ) (o : LiveObject) :
    (j.unbindOther key o).Index := by
  unfold Join.unbindOther
  split
  · exact h.updEtw _ (fun _ => rfl) fun _ => rfl
  · exact h

/-- So is each of the two writes of a binding. -/
theorem Index.bind {j : Join} (h : j.Index) (key id : ℕ) (e : EtwObj) (o : LiveObject) :
    (j.bind key id e o).Index := by
  unfold Join.bind
  refine Index.updLive (Index.updEtw (h.unbindOther key o) key ?_ ?_) id ?_ ?_ <;>
    exact fun _ => rfl

/-- The ETW objects after a binding. -/
theorem etw_bind (j : Join) (key id : ℕ) (e : EtwObj) (o : LiveObject) (k : ℕ) :
    (j.bind key id e o).etw k =
      if k = key then (j.etw k).map (·.setBoundId o.id)
      else if k = o.etwKey ∧ o.etwKey ≠ 0 then (j.etw k).map (·.setBoundId 0)
      else j.etw k := by
  unfold bind unbindOther
  rw [etw_updLive, etw_updEtw]
  by_cases hk : k = key
  · subst hk
    rw [if_pos rfl, if_pos rfl]
    split
    · next ho => rw [etw_updEtw, if_neg (Ne.symm ho.2)]
    · rfl
  · rw [if_neg hk, if_neg hk]
    split
    · next ho =>
      rw [etw_updEtw]
      split
      · next hko => rw [if_pos ⟨hko, ho.1⟩]
      · next hko => rw [if_neg fun h => hko h.1]
    · next ho =>
      rw [if_neg]
      rintro ⟨hko, h0⟩
      exact ho ⟨h0, fun h => hk (hko.trans h)⟩

/-- The live objects after a binding. -/
theorem live_bind (j : Join) (key id : ℕ) (e : EtwObj) (o : LiveObject) (i : ℕ) :
    (j.bind key id e o).live i = if i = id then (j.live i).map (joined key e) else j.live i := by
  unfold bind unbindOther
  rw [live_updLive, live_updEtw]
  split <;> split <;> rfl

/-- **A binding makes a pair**: the former partner of the object is let go, and
everybody else stays paired as before. -/
theorem inv_bind {j : Join} (h : j.Inv) {key id : ℕ} {e : EtwObj} {o : LiveObject}
    (he : j.etw key = some e) (ho : j.live id = some o) (hc : canBind e o = true)
    (ha : e.address = o.objectPtr) (ha0 : e.address ≠ 0) : (j.bind key id e o).Inv := by
  obtain ⟨hunb, horph, hcompat, -⟩ := (canBind_iff e o).mp hc
  obtain ⟨hid, hid0⟩ := h.index.live_id ho
  have hkey0 : key ≠ 0 := (h.index.etw_key he).1
  refine ⟨h.index.bind key id e o, ?bound, ?keyed, ?orphan, ?unplaced⟩
  case bound =>
    intro k e' he' hb
    rw [etw_bind] at he'
    split at he'
    · next hk =>
      subst hk
      rw [he] at he'
      cases he'
      refine ⟨joined k e o, ?_, rfl, hcompat, ha, rfl, fun hd => ?_⟩
      · show (j.bind k id e o).live o.id = _
        rw [live_bind, if_pos hid, hid, ho]
        rfl
      · show (if isDriverType e.type then e.size else o.driverSize) = e.size
        exact if_pos hd
    · next hk =>
      split at he'
      · obtain ⟨e'', -, rfl⟩ := Option.map_eq_some_iff.mp he'
        exact absurd rfl hb
      · next hko =>
        obtain ⟨o', ho', hp⟩ := h.pairs.bound he' hb
        have hne : e'.boundId ≠ id := by
          intro hbid
          -- then `o` would be the object that was just taken from `e'`
          rw [hbid, ho] at ho'
          cases ho'
          have hk0 : k ≠ 0 := (h.index.etw_key he').1
          exact hko ⟨hp.key.symm, hp.key ▸ hk0⟩
        refine ⟨o', ?_, hp⟩
        rw [live_bind, if_neg hne]
        exact ho'
  case keyed =>
    intro i o' ho' hk0
    rw [live_bind] at ho'
    split at ho'
    · next hi =>
      subst hi
      rw [ho] at ho'
      cases ho'
      refine ⟨e.setBoundId o.id, ?_, hid⟩
      show (j.bind key _ e o).etw key = _
      rw [etw_bind, if_pos rfl, he]
      rfl
    · next hi =>
      obtain ⟨e', he', hb⟩ := h.pairs.keyed ho' hk0
      have hi0 : i ≠ 0 := (h.index.live_id ho').2
      -- the entry was unbound, so nobody points to it
      have hne : o'.etwKey ≠ key := by
        intro hk
        rw [hk, he] at he'
        cases he'
        exact hi0 (hb.symm.trans hunb)
      -- two objects with one key would both be bound to its entry
      have hne' : ¬(o'.etwKey = o.etwKey ∧ o.etwKey ≠ 0) := by
        rintro ⟨hk, hok0⟩
        obtain ⟨e'', he'', hb''⟩ := h.pairs.keyed ho hok0
        rw [← hk, he'] at he''
        cases he''
        exact hi (hb.symm.trans hb'')
      refine ⟨e', ?_, hb⟩
      rw [etw_bind, if_neg hne, if_neg hne']
      exact he'
  case orphan =>
    intro k e' he' ho'
    rw [etw_bind] at he'
    split at he'
    · next hk =>
      subst hk
      rw [he] at he'
      cases he'
      exact absurd horph ho'
    · split at he'
      · obtain ⟨e'', -, rfl⟩ := Option.map_eq_some_iff.mp he'
        rfl
      · exact h.pairs.orphan he' ho'
  case unplaced =>
    intro k e' he' hz
    rw [etw_bind] at he'
    split at he'
    · next hk =>
      subst hk
      rw [he] at he'
      cases he'
      exact absurd hz ha0
    · split at he'
      · obtain ⟨e'', -, rfl⟩ := Option.map_eq_some_iff.mp he'
        rfl
      · exact h.pairs.unplaced he' hz

/-! ### Writes that keep the pairs -/

/-- A write to an ETW object that its tracked object does not mirror. -/
theorem inv_updEtw {j : Join} (h : j.Inv) {key : ℕ} {e : EtwObj} {f : EtwObj → EtwObj}
    (he : j.etw key = some e) (hadr : ∀ e, (f e).address = e.address)
    (hals : ∀ e, (f e).aliases = e.aliases) (hb : (f e).boundId = e.boundId)
    (ho : (f e).orphanTs = e.orphanTs ∨ e.boundId = 0)
    (hp : e.boundId ≠ 0 → ∀ o, Paired key e o → Paired key (f e) o) : (j.updEtw key f).Inv := by
  have hkey : (j.updEtw key f).etw key = some (f e) := by rw [etw_updEtw, if_pos rfl, he]; rfl
  have hother : ∀ {k}, k ≠ key → (j.updEtw key f).etw k = j.etw k := by
    intro k hk; rw [etw_updEtw, if_neg hk]
  refine ⟨h.index.updEtw key hadr hals, ?bound, ?keyed, ?orphan, ?unplaced⟩
  case bound =>
    intro k e' he' hb'
    by_cases hk : k = key
    · subst hk
      rw [hkey] at he'
      cases he'
      obtain ⟨o, ho', hpo⟩ := h.pairs.bound he (hb ▸ hb')
      exact ⟨o, hb.symm ▸ ho', hp (hb ▸ hb') o hpo⟩
    · exact h.pairs.bound ((hother hk).symm.trans he') hb'
  case keyed =>
    intro i o ho' hk0
    obtain ⟨e', he', hbi⟩ := h.pairs.keyed ho' hk0
    by_cases hk : o.etwKey = key
    · rw [hk, he] at he'
      cases he'
      exact ⟨f e, hk.symm ▸ hkey, hb.trans hbi⟩
    · exact ⟨e', (hother hk).trans he', hbi⟩
  case orphan =>
    intro k e' he' ho'
    by_cases hk : k = key
    · subst hk
      rw [hkey] at he'
      cases he'
      rcases ho with ho | ho
      · exact hb.trans (h.pairs.orphan he (ho ▸ ho'))
      · exact hb.trans ho
    · exact h.pairs.orphan ((hother hk).symm.trans he') ho'
  case unplaced =>
    intro k e' he' hz
    by_cases hk : k = key
    · subst hk
      rw [hkey] at he'
      cases he'
      exact hb.trans (h.pairs.unplaced he (hadr e ▸ hz))
    · exact h.pairs.unplaced ((hother hk).symm.trans he') hz

/-- A write to a tracked object that its ETW object does not see. -/
theorem inv_updLive {j : Join} (h : j.Inv) (id : ℕ) {g : LiveObject → LiveObject}
    (hid : ∀ o, (g o).id = o.id) (hptr : ∀ o, (g o).objectPtr = o.objectPtr)
    (hkey : ∀ o, (g o).etwKey = o.etwKey)
    (hp : ∀ k e o, Paired k e o → Paired k e (g o)) : (j.updLive id g).Inv := by
  refine ⟨h.index.updLive id hid hptr, ?_, ?_, h.pairs.orphan, h.pairs.unplaced⟩
  · intro k e he hb
    obtain ⟨o, ho, hpo⟩ := h.pairs.bound he hb
    rw [live_updLive, ho]
    split
    · exact ⟨g o, rfl, hp k e o hpo⟩
    · exact ⟨o, rfl, hpo⟩
  · intro i o ho hk0
    rw [live_updLive] at ho
    split at ho
    · obtain ⟨o', ho', rfl⟩ := Option.map_eq_some_iff.mp ho
      rw [hkey] at hk0 ⊢
      exact h.pairs.keyed ho' hk0
    · exact h.pairs.keyed ho hk0

/-- A write to both sides of a pair. -/
theorem inv_updPair {j : Join} (h : j.Inv) {key : ℕ} {e : EtwObj} {o : LiveObject}
    {f : EtwObj → EtwObj} {g : LiveObject → LiveObject} (he : j.etw key = some e)
    (hb0 : e.boundId ≠ 0) (ho : j.live e.boundId = some o)
    (hadr : ∀ e, (f e).address = e.address) (hals : ∀ e, (f e).aliases = e.aliases)
    (hid : ∀ o, (g o).id = o.id) (hptr : ∀ o, (g o).objectPtr = o.objectPtr)
    (hb : (f e).boundId = e.boundId) (horph : (f e).orphanTs = e.orphanTs)
    (hp : Paired key e o → Paired key (f e) (g o)) :
    ((j.updEtw key f).updLive e.boundId g).Inv := by
  -- the two records agree before the update
  have hpair : Paired key e o := by
    obtain ⟨o', ho', hpo⟩ := h.pairs.bound he hb0
    rw [ho] at ho'
    cases ho'
    exact hpo
  have hkey : (j.updEtw key f).etw key = some (f e) := by rw [etw_updEtw, if_pos rfl, he]; rfl
  have hother : ∀ {k}, k ≠ key → (j.updEtw key f).etw k = j.etw k := by
    intro k hk; rw [etw_updEtw, if_neg hk]
  have hlive : ((j.updEtw key f).updLive e.boundId g).live e.boundId = some (g o) := by
    rw [live_updLive, if_pos rfl, live_updEtw, ho]; rfl
  have hlive' : ∀ {i}, i ≠ e.boundId →
      ((j.updEtw key f).updLive e.boundId g).live i = j.live i := by
    intro i hi; rw [live_updLive, if_neg hi]; rfl
  refine ⟨(h.index.updEtw key hadr hals).updLive e.boundId hid hptr, ?bound, ?keyed, ?orphan,
    ?unplaced⟩
  case bound =>
    intro k e' he' hb'
    by_cases hk : k = key
    · subst hk
      have he'' : some (f e) = some e' := hkey.symm.trans he'
      cases he''
      exact ⟨g o, hb.symm ▸ hlive, hp hpair⟩
    · obtain ⟨o', ho', hpo⟩ := h.pairs.bound ((hother hk).symm.trans he') hb'
      -- two ETW objects bound to one object would share its key
      have hne : e'.boundId ≠ e.boundId := by
        intro hbb
        rw [hbb, ho] at ho'
        cases ho'
        exact hk (hpo.key.symm.trans hpair.key)
      exact ⟨o', (hlive' hne).trans ho', hpo⟩
  case keyed =>
    intro i o' ho' hk0
    by_cases hi : i = e.boundId
    · subst hi
      have ho'' : some (g o) = some o' := hlive.symm.trans ho'
      cases ho''
      refine ⟨f e, ?_, hb⟩
      rw [(hp hpair).key]
      exact hkey
    · have hoi := (hlive' hi).symm.trans ho'
      obtain ⟨e', he', hbi⟩ := h.pairs.keyed hoi hk0
      have hne : o'.etwKey ≠ key := by
        intro hk
        rw [hk, he] at he'
        cases he'
        exact hi hbi.symm
      exact ⟨e', (hother hne).trans he', hbi⟩
  case orphan =>
    intro k e' he' ho'
    by_cases hk : k = key
    · subst hk
      have he'' : some (f e) = some e' := hkey.symm.trans he'
      cases he''
      exact hb.trans (h.pairs.orphan he (horph ▸ ho'))
    · exact h.pairs.orphan ((hother hk).symm.trans he') ho'
  case unplaced =>
    intro k e' he' hz
    by_cases hk : k = key
    · subst hk
      have he'' : some (f e) = some e' := hkey.symm.trans he'
      cases he''
      exact hb.trans (h.pairs.unplaced he (hadr e ▸ hz))
    · exact h.pairs.unplaced ((hother hk).symm.trans he') hz

/-! ### The functions of the join -/

/-- The object to bind occupies the address and may be bound. -/
theorem bindTarget_some {j : Join} {e : EtwObj} {id : ℕ} {o : LiveObject}
    (h : j.bindTarget e = some (id, o)) :
    j.occupant e.address = some id ∧ j.live id = some o ∧ canBind e o = true := by
  unfold bindTarget at h
  cases hp : j.occupant e.address with
  | none => rw [hp] at h; cases h
  | some id' =>
    rw [hp] at h
    dsimp only at h
    cases ho : j.live id' with
    | none => rw [ho] at h; cases h
    | some o' =>
      rw [ho] at h
      dsimp only at h
      by_cases hc : canBind e o'
      · rw [if_pos hc] at h
        cases h
        exact ⟨rfl, ho, hc⟩
      · rw [if_neg hc] at h; cases h

/-- What a bind attempt can do. -/
theorem tryBind_cases (j : Join) (key : ℕ) :
    j.tryBind key = j ∨
      (∃ e id o, j.etw key = some e ∧ e.address ≠ 0 ∧ j.occupant e.address = some id ∧
        j.live id = some o ∧ canBind e o = true ∧ j.tryBind key = j.bind key id e o) ∨
      ∃ e x, j.etw key = some e ∧ e.boundId = 0 ∧ x ∈ j.dead e.address ∧
        j.tryBind key = j.attributeLate key x := by
  unfold tryBind
  cases he : j.etw key with
  | none => exact .inl rfl
  | some e =>
    dsimp only
    by_cases hg : e.boundId ≠ 0 ∨ e.orphanTs ≠ 0 ∨ e.address = 0 ∨ bindable e.type = false
    · rw [if_pos hg]; exact .inl rfl
    · rw [if_neg hg]
      push Not at hg
      cases ht : j.bindTarget e with
      | some x =>
        obtain ⟨hocc, ho, hc⟩ := bindTarget_some ht
        exact .inr (.inl ⟨e, x.1, x.2, rfl, hg.2.2.1, hocc, ho, hc, rfl⟩)
      | none =>
        cases hd : (j.dead e.address).find? (Model.lateMatch e) with
        | none => exact .inl rfl
        | some x => exact .inr (.inr ⟨e, x, rfl, hg.1, List.mem_of_find?_eq_some hd, rfl⟩)

/-- **An attempt to bind keeps the invariant**: it binds, makes an orphan of an
unbound entry, or does nothing. -/
theorem inv_tryBind {j : Join} (h : j.Inv) (key : ℕ) : (j.tryBind key).Inv := by
  rcases j.tryBind_cases key with hj | ⟨e, id, o, he, ha0, hocc, ho, hc, hj⟩ | ⟨e, x, he, hb, -, hj⟩
  · rw [hj]; exact h
  · rw [hj]
    obtain ⟨-, o', ho', hptr⟩ := h.index.occupant hocc
    rw [ho] at ho'
    cases ho'
    exact inv_bind h he ho hc hptr.symm ha0
  · rw [hj]
    exact inv_updEtw h he (fun _ => rfl) (fun _ => rfl) rfl (.inr hb) fun hb0 => absurd hb hb0

/-- A group goes to both sides of a pair. -/
theorem inv_applyGroup {j : Join} (h : j.Inv) (key : ℕ) (g : MemLoc) :
    (j.applyGroup key g).Inv := by
  unfold applyGroup
  cases he : j.etw key with
  | none => exact h
  | some e =>
    dsimp only
    split
    · next hb =>
      exact inv_updEtw h he (fun _ => rfl) (fun _ => rfl) rfl (.inl rfl) fun hb0 => absurd hb hb0
    · next hb =>
      obtain ⟨o, ho, -⟩ := h.pairs.bound he hb
      refine inv_updPair h he hb ho ?_ ?_ ?_ ?_ rfl rfl fun hp => ?_
      · exact fun _ => rfl
      · exact fun _ => rfl
      · exact fun _ => rfl
      · exact fun _ => rfl
      · exact ⟨hp.key, hp.compatible, hp.address, rfl, hp.size⟩

/-- So does a size, if the driver knows sizes of the type. -/
theorem inv_applySize {j : Join} (h : j.Inv) (key size : ℕ) : (j.applySize key size).Inv := by
  unfold applySize
  cases he : j.etw key with
  | none => exact h
  | some e =>
    dsimp only
    split
    · exact h
    · split
      · next hb =>
        refine inv_updEtw h he (fun _ => rfl) (fun _ => rfl) rfl (.inl rfl) fun hb0 o hp => ?_
        have hd : isDriverType e.type = false := hb.resolve_left hb0
        exact ⟨hp.key, hp.compatible, hp.address, hp.group,
          fun ht => absurd ht (by simp [EtwObj.setSize, hd])⟩
      · next hb =>
        push Not at hb
        obtain ⟨o, ho, -⟩ := h.pairs.bound he hb.1
        refine inv_updPair h he hb.1 ho ?_ ?_ ?_ ?_ rfl rfl fun hp => ?_
        · exact fun _ => rfl
        · exact fun _ => rfl
        · exact fun _ => rfl
        · exact fun _ => rfl
        · exact ⟨hp.key, hp.compatible, hp.address, hp.group, fun _ => rfl⟩

/-! ### The ETW sink -/

/-- **A new entry is unbound, has no address and resolves to itself.** -/
theorem inv_etwCreated {j : Join} (h : j.Inv) {libId : ℕ} {e : EtwObj} (h0 : libId ≠ 0)
    (hadr : e.address = 0) (hb : e.boundId = 0) (hals : e.aliases = []) :
    (j.etwCreated libId e).Inv := by
  unfold etwCreated
  split
  · exact h
  · next hc =>
    have hcanon : j.canon libId = none := by simpa using hc
    have hnone : j.etw libId = none := by
      cases he : j.etw libId with
      | none => rfl
      | some e' => rw [(h.index.etw_key he).2] at hcanon; cases hcanon
    rw [hnone, Option.isSome_none, if_neg Bool.false_ne_true]
    -- an entry of the new table is the new object or an old one under another key
    have hback : ∀ {k e'}, ((j.setEtw libId (some e)).setCanon libId (some libId)).etw k = some e' →
        (k = libId ∧ e' = e) ∨ (k ≠ libId ∧ j.etw k = some e') := by
      intro k e' he'
      simp only [setCanon_etw, setEtw_etw, Function.update_apply] at he'
      split at he'
      · next hk => exact .inl ⟨hk, (Option.some.inj he').symm⟩
      · next hk => exact .inr ⟨hk, he'⟩
    have hforth : ∀ {k e'}, j.etw k = some e' →
        ((j.setEtw libId (some e)).setCanon libId (some libId)).etw k = some e' := by
      intro k e' he'
      have hk : k ≠ libId := by rintro rfl; rw [hnone] at he'; cases he'
      simp only [setCanon_etw, setEtw_etw, Function.update_of_ne hk]
      exact he'
    have hcan : ∀ {x}, x ≠ libId →
        ((j.setEtw libId (some e)).setCanon libId (some libId)).canon x = j.canon x := by
      intro x hx
      simp only [setCanon_canon, setEtw_canon, Function.update_of_ne hx]
    have hself :
        ((j.setEtw libId (some e)).setCanon libId (some libId)).canon libId = some libId := by
      simp only [setCanon_canon, Function.update_self]
    -- an id that resolves is not the new one
    have hne : ∀ {x k}, j.canon x = some k → x ≠ libId := by
      intro x k hx hxl
      rw [hxl, hcanon] at hx
      cases hx
    refine ⟨⟨h.index.live_id, ?etw_key, h.index.occupant, ?byAddr, ?canon, ?aliases, ?unplaced⟩,
      ⟨?bound, ?keyed, ?orphan, ?unbound⟩⟩
    case etw_key =>
      intro k e' he'
      rcases hback he' with ⟨rfl, -⟩ | ⟨hk, he'⟩
      · exact ⟨h0, hself⟩
      · exact ⟨(h.index.etw_key he').1, (hcan hk).trans (h.index.etw_key he').2⟩
    case byAddr =>
      intro a k ha
      obtain ⟨ha0, e', he', hadr'⟩ := h.index.byAddr ha
      exact ⟨ha0, e', hforth he', hadr'⟩
    case canon =>
      intro x k hx
      by_cases hxl : x = libId
      · subst hxl
        have hk : some x = some k := hself.symm.trans hx
        cases hk
        refine ⟨e, ?_, .inl rfl⟩
        simp only [setCanon_etw, setEtw_etw, Function.update_self]
      · obtain ⟨e', he', hxe⟩ := h.index.canon ((hcan hxl).symm.trans hx)
        exact ⟨e', hforth he', hxe⟩
    case aliases =>
      intro k e' x he' hx
      rcases hback he' with ⟨rfl, rfl⟩ | ⟨hk, he'⟩
      · rw [hals] at hx; cases hx
      · obtain ⟨hxk, hxc⟩ := h.index.aliases he' hx
        exact ⟨hxk, (hcan (hne hxc)).trans hxc⟩
    case unplaced =>
      intro k e' he' hz
      rcases hback he' with ⟨-, rfl⟩ | ⟨hk, he'⟩
      · exact hals
      · exact h.index.unplaced he' hz
    case bound =>
      intro k e' he' hb'
      rcases hback he' with ⟨-, rfl⟩ | ⟨hk, he'⟩
      · exact absurd hb hb'
      · exact h.pairs.bound he' hb'
    case keyed =>
      intro i o ho hk0
      obtain ⟨e', he', hbi⟩ := h.pairs.keyed ho hk0
      exact ⟨e', hforth he', hbi⟩
    case orphan =>
      intro k e' he' ho'
      rcases hback he' with ⟨-, rfl⟩ | ⟨hk, he'⟩
      · exact hb
      · exact h.pairs.orphan he' ho'
    case unbound =>
      intro k e' he' hz
      rcases hback he' with ⟨-, rfl⟩ | ⟨hk, he'⟩
      · exact hb
      · exact h.pairs.unplaced he' hz

/-- The object under `key` becomes the owner of an address. -/
theorem inv_own {j : Join} (h : j.Inv) {key a : ℕ} {e : EtwObj} (he : j.etw key = some e)
    (hz : e.address = 0) (ha : a ≠ 0) : (j.own key a).Inv := by
  have hb0 : e.boundId = 0 := h.pairs.unplaced he hz
  have hals0 : e.aliases = [] := h.index.unplaced he hz
  have hkey : (j.own key a).etw key = some (e.setAddress a) := by
    unfold own
    rw [setByAddr_etw, etw_updEtw, if_pos rfl, he]
    rfl
  have hother : ∀ {k}, k ≠ key → (j.own key a).etw k = j.etw k := by
    intro k hk
    unfold own
    rw [setByAddr_etw, etw_updEtw, if_neg hk]
  refine ⟨⟨h.index.live_id, ?etw_key, h.index.occupant, ?byAddr, ?canon, ?aliases, ?unplaced⟩,
    ⟨?bound, ?keyed, ?orphan, ?unbound⟩⟩
  case etw_key =>
    intro k e' he'
    by_cases hk : k = key
    · subst hk; exact h.index.etw_key he
    · exact h.index.etw_key ((hother hk).symm.trans he')
  case byAddr =>
    intro b k hb
    unfold own at hb
    rw [setByAddr_byAddr, Function.update_apply] at hb
    split at hb
    · next hba =>
      cases hb
      exact ⟨hba ▸ ha, _, hkey, hba.symm⟩
    · obtain ⟨hb0, e', he', hadr⟩ := h.index.byAddr hb
      refine ⟨hb0, e', (hother ?_).trans he', hadr⟩
      -- the owner of `b` has an address already
      rintro rfl
      rw [he] at he'
      cases he'
      exact hb0 (hadr.symm.trans hz)
  case canon =>
    intro x k hx
    obtain ⟨e', he', hxe⟩ := h.index.canon hx
    by_cases hk : k = key
    · subst hk
      rw [he] at he'
      cases he'
      exact ⟨e.setAddress a, hkey, hxe⟩
    · exact ⟨e', (hother hk).trans he', hxe⟩
  case aliases =>
    intro k e' x he' hx
    by_cases hk : k = key
    · subst hk
      rw [hkey] at he'
      cases he'
      exact h.index.aliases he hx
    · exact h.index.aliases ((hother hk).symm.trans he') hx
  case unplaced =>
    intro k e' he' hz'
    by_cases hk : k = key
    · subst hk
      rw [hkey] at he'
      cases he'
      exact absurd hz' ha
    · exact h.index.unplaced ((hother hk).symm.trans he') hz'
  case bound =>
    intro k e' he' hb'
    by_cases hk : k = key
    · subst hk
      rw [hkey] at he'
      cases he'
      exact absurd hb0 hb'
    · exact h.pairs.bound ((hother hk).symm.trans he') hb'
  case keyed =>
    intro i o ho hk0
    obtain ⟨e', he', hbi⟩ := h.pairs.keyed ho hk0
    refine ⟨e', (hother ?_).trans he', hbi⟩
    intro hk
    rw [hk, he] at he'
    cases he'
    -- an unbound entry is nobody's partner
    exact (h.index.live_id ho).2 (hbi.symm.trans hb0)
  case orphan =>
    intro k e' he' ho'
    by_cases hk : k = key
    · subst hk
      rw [hkey] at he'
      cases he'
      exact hb0
    · exact h.pairs.orphan ((hother hk).symm.trans he') ho'
  case unbound =>
    intro k e' he' hz'
    by_cases hk : k = key
    · subst hk
      rw [hkey] at he'
      cases he'
      exact hb0
    · exact h.pairs.unplaced ((hother hk).symm.trans he') hz'

/-! The tables after the re-report under `key` disappeared into the entry under `into`. -/

section Absorb

variable {j : Join} {key into : ℕ} {e old : EtwObj}

/-- The object that a merge leaves under `into`. -/
theorem etw_absorb_self (hold : j.etw into = some old) (hne : into ≠ key) :
    (j.absorb key into).etw into = some (old.addAlias key) := by
  unfold absorb
  rw [setCanon_etw, etw_updEtw, if_pos rfl, setEtw_etw, Function.update_of_ne hne, hold]
  rfl

theorem etw_absorb_gone (hne : into ≠ key) : (j.absorb key into).etw key = none := by
  unfold absorb
  rw [setCanon_etw, etw_updEtw, if_neg (Ne.symm hne), setEtw_etw, Function.update_self]

theorem etw_absorb_of_ne {k : ℕ} (hk : k ≠ key) (hki : k ≠ into) :
    (j.absorb key into).etw k = j.etw k := by
  unfold absorb
  rw [setCanon_etw, etw_updEtw, if_neg hki, setEtw_etw, Function.update_of_ne hk]

theorem canon_absorb (x : ℕ) :
    (j.absorb key into).canon x = if x = key then some into else j.canon x := by
  unfold absorb
  rw [setCanon_canon, Function.update_apply]
  rfl

/-- An entry comes from one that differs in its aliases at most. -/
theorem absorb_back (hold : j.etw into = some old) (hne : into ≠ key) {k : ℕ} {e' : EtwObj}
    (he' : (j.absorb key into).etw k = some e') : k ≠ key ∧
      ∃ e₀, j.etw k = some e₀ ∧ e'.address = e₀.address ∧ e'.boundId = e₀.boundId ∧
        e'.orphanTs = e₀.orphanTs ∧ (∀ o, Paired k e₀ o → Paired k e' o) := by
  have hk : k ≠ key := by
    rintro rfl
    rw [etw_absorb_gone hne] at he'
    cases he'
  refine ⟨hk, ?_⟩
  by_cases hki : k = into
  · subst hki
    rw [etw_absorb_self hold hne] at he'
    cases he'
    exact ⟨old, hold, rfl, rfl, rfl, fun o hp =>
      ⟨hp.key, hp.compatible, hp.address, hp.group, hp.size⟩⟩
  · exact ⟨e', (etw_absorb_of_ne hk hki).symm.trans he', rfl, rfl, rfl, fun _ hp => hp⟩

/-- An entry other than the re-report is still there, with its aliases. -/
theorem absorb_forth (hold : j.etw into = some old) (hne : into ≠ key) {k : ℕ} {e' : EtwObj}
    (hk : k ≠ key) (he' : j.etw k = some e') : ∃ e₁, (j.absorb key into).etw k = some e₁ ∧
      e₁.address = e'.address ∧ e₁.boundId = e'.boundId ∧ (∀ x ∈ e'.aliases, x ∈ e₁.aliases) := by
  by_cases hki : k = into
  · subst hki
    rw [hold] at he'
    cases he'
    exact ⟨old.addAlias key, etw_absorb_self hold hne, rfl, rfl,
      fun x hx => List.mem_append_left _ hx⟩
  · exact ⟨e', (etw_absorb_of_ne hk hki).trans he', rfl, rfl, fun _ hx => hx⟩

/-- **The indexes without the re-report**: it has no address and no aliases, and
its key becomes an alias itself. -/
theorem Index.absorb (h : j.Index) (he : j.etw key = some e) (hz : e.address = 0)
    (hold : j.etw into = some old) (hne : into ≠ key) (ha : old.address ≠ 0) :
    (j.absorb key into).Index := by
  have hkeyed : j.canon key = some key := (h.etw_key he).2
  have hcan : ∀ {x}, x ≠ key → (j.absorb key into).canon x = j.canon x := by
    intro x hx
    rw [canon_absorb, if_neg hx]
  have hcankey : (j.absorb key into).canon key = some into := by rw [canon_absorb, if_pos rfl]
  -- an id that resolves to another entry is not the key of the re-report
  have hxkey : ∀ {x k}, k ≠ key → j.canon x = some k → x ≠ key := by
    rintro x k hk hx rfl
    rw [hkeyed] at hx
    cases hx
    exact hk rfl
  refine ⟨h.live_id, ?etw_key, h.occupant, ?byAddr, ?canon, ?aliases, ?unplaced⟩
  case etw_key =>
    intro k e' he'
    obtain ⟨hk, e₀, he₀, -⟩ := absorb_back hold hne he'
    exact ⟨(h.etw_key he₀).1, (hcan hk).trans (h.etw_key he₀).2⟩
  case byAddr =>
    intro b k hb
    obtain ⟨hb0', e', he', hadr⟩ := h.byAddr hb
    -- the re-report owns no address, so the owner of `b` stays
    have hk : k ≠ key := by
      rintro rfl
      rw [he] at he'
      cases he'
      exact hb0' (hadr.symm.trans hz)
    obtain ⟨e₁, he₁, hadr₁, -⟩ := absorb_forth hold hne hk he'
    exact ⟨hb0', e₁, he₁, hadr₁.trans hadr⟩
  case canon =>
    intro x k hx
    by_cases hxk : x = key
    · subst hxk
      have hk : some into = some k := hcankey.symm.trans hx
      cases hk
      exact ⟨_, etw_absorb_self hold hne,
        .inr (List.mem_append_right _ (List.mem_singleton_self _))⟩
    · obtain ⟨e', he', hxe⟩ := h.canon ((hcan hxk).symm.trans hx)
      have hk : k ≠ key := by
        rintro rfl
        rw [he] at he'
        cases he'
        rcases hxe with hxe | hxe
        · exact hxk hxe
        · rw [h.unplaced he hz] at hxe
          cases hxe
      obtain ⟨e₁, he₁, -, -, hals₁⟩ := absorb_forth hold hne hk he'
      exact ⟨e₁, he₁, hxe.imp id fun hxe => hals₁ x hxe⟩
  case aliases =>
    intro k e' x he' hx
    by_cases hki : k = into
    · subst hki
      rw [etw_absorb_self hold hne] at he'
      cases he'
      rcases List.mem_append.mp hx with hx | hx
      · obtain ⟨hxk, hxc⟩ := h.aliases hold hx
        exact ⟨hxk, (hcan (hxkey hne hxc)).trans hxc⟩
      · rw [List.mem_singleton.mp hx]
        exact ⟨Ne.symm hne, hcankey⟩
    · obtain ⟨hk, -⟩ := absorb_back hold hne he'
      obtain ⟨hxk, hxc⟩ := h.aliases ((etw_absorb_of_ne hk hki).symm.trans he') hx
      exact ⟨hxk, (hcan (hxkey hk hxc)).trans hxc⟩
  case unplaced =>
    intro k e' he' hz'
    by_cases hki : k = into
    · subst hki
      rw [etw_absorb_self hold hne] at he'
      cases he'
      exact absurd hz' ha
    · obtain ⟨hk, -⟩ := absorb_back hold hne he'
      exact h.unplaced ((etw_absorb_of_ne hk hki).symm.trans he') hz'

/-- **The pairs without the re-report**, which was unbound. -/
theorem inv_absorb (h : j.Inv) (he : j.etw key = some e) (hz : e.address = 0)
    (hold : j.etw into = some old) (hne : into ≠ key) (ha : old.address ≠ 0) :
    (j.absorb key into).Inv := by
  refine ⟨h.index.absorb he hz hold hne ha, ?bound, ?keyed, ?orphan, ?unplaced⟩
  case bound =>
    intro k e' he' hb'
    obtain ⟨-, e₀, he₀, -, hb, -, hp⟩ := absorb_back hold hne he'
    obtain ⟨o, ho, hpo⟩ := h.pairs.bound he₀ (hb ▸ hb')
    exact ⟨o, hb ▸ ho, hp o hpo⟩
  case keyed =>
    intro i o ho hk0
    obtain ⟨e', he', hbi⟩ := h.pairs.keyed ho hk0
    have hk : o.etwKey ≠ key := by
      intro hk
      rw [hk, he] at he'
      cases he'
      exact (h.index.live_id ho).2 (hbi.symm.trans (h.pairs.unplaced he hz))
    obtain ⟨e₁, he₁, -, hb₁, -⟩ := absorb_forth hold hne hk he'
    exact ⟨e₁, he₁, hb₁.trans hbi⟩
  case orphan =>
    intro k e' he' ho'
    obtain ⟨-, e₀, he₀, -, hb, horph, -⟩ := absorb_back hold hne he'
    exact hb.trans (h.pairs.orphan he₀ (horph ▸ ho'))
  case unplaced =>
    intro k e' he' hz'
    obtain ⟨-, e₀, he₀, hadr, hb, -⟩ := absorb_back hold hne he'
    exact hb.trans (h.pairs.unplaced he₀ (hadr ▸ hz'))

end Absorb

/-- What `applySize` does to the entries. -/
theorem etw_applySize (j : Join) (key size : ℕ) :
    (j.applySize key size).etw =
      (j.updEtw key fun e => if size = 0 ∨ size = e.size then e else e.setSize size).etw := by
  funext k
  rw [etw_updEtw]
  unfold applySize
  cases he : j.etw key with
  | none =>
    dsimp only
    split
    · next hk => rw [hk, he]; rfl
    · rfl
  | some e =>
    dsimp only
    by_cases hs : size = 0 ∨ size = e.size
    · rw [if_pos hs]
      split
      · next hk => rw [hk, he, Option.map_some, if_pos hs]
      · rfl
    · rw [if_neg hs]
      have hupd : (j.updEtw key (·.setSize size)).etw k = if k = key then
          (j.etw k).map (fun e => if size = 0 ∨ size = e.size then e else e.setSize size)
          else j.etw k := by
        rw [etw_updEtw]
        split
        · next hk => rw [hk, he, Option.map_some, Option.map_some, if_neg hs]
        · rfl
      split
      · exact hupd
      · exact hupd

/-- What `applyGroup` does to the entries. -/
theorem etw_applyGroup (j : Join) (key : ℕ) (g : MemLoc) :
    (j.applyGroup key g).etw = (j.updEtw key (·.setGroup g)).etw := by
  unfold applyGroup
  cases he : j.etw key with
  | none =>
    funext k
    show j.etw k = _
    rw [etw_updEtw]
    split
    · next hk => rw [hk, he]; rfl
    · rfl
  | some e =>
    dsimp only
    split <;> rfl

/-- The new owner of an address tries to bind. -/
theorem inv_takeAddress {j : Join} (h : j.Inv) {key a : ℕ} {e : EtwObj} (he : j.etw key = some e)
    (hz : e.address = 0) (ha : a ≠ 0) : (j.takeAddress key a).Inv :=
  inv_tryBind (inv_own h he hz ha) key

/-- The old entry takes the size and the group of the re-report, with its
partner. -/
theorem inv_refresh {j : Join} (h : j.Inv) (e : EtwObj) (into : ℕ) (old : EtwObj) :
    (j.refresh e into old).Inv :=
  refresh_of (P := Inv) (fun _ n h' => inv_applySize h' into n)
    (fun _ g h' => inv_applyGroup h' into g) h e old

/-- Only the old entry is refreshed. -/
theorem etw_refresh_of_ne (j : Join) (e : EtwObj) {into k : ℕ} (hk : k ≠ into) (old : EtwObj) :
    (j.refresh e into old).etw k = j.etw k := by
  refine refresh_of (P := fun j' => j'.etw k = j.etw k) ?_ ?_ rfl e old
  · intro j' n h
    rw [etw_applySize, etw_updEtw, if_neg hk, h]
  · intro j' g h
    rw [etw_applyGroup, etw_updEtw, if_neg hk, h]

/-- A refresh moves no address. -/
theorem byAddr_refresh (j : Join) (e : EtwObj) (into : ℕ) (old : EtwObj) :
    (j.refresh e into old).byAddr = j.byAddr :=
  refresh_frame byAddr_updEtw byAddr_updLive j e into old

/-- The old object stays where it is. -/
theorem address_refresh {j : Join} {into : ℕ} {o : EtwObj} (ho : j.etw into = some o)
    (e old : EtwObj) :
    ∃ o', (j.refresh e into old).etw into = some o' ∧ o'.address = o.address := by
  refine refresh_of (P := fun j' => ∃ o', j'.etw into = some o' ∧ o'.address = o.address)
    ?_ ?_ ⟨o, ho, rfl⟩ e old
  · rintro j' n ⟨o', ho', haddr⟩
    rw [etw_applySize, etw_updEtw, if_pos rfl, ho']
    refine ⟨_, rfl, ?_⟩
    dsimp only
    split <;> exact haddr
  · rintro j' g ⟨o', ho', haddr⟩
    rw [etw_applyGroup, etw_updEtw, if_pos rfl, ho']
    exact ⟨_, rfl, haddr⟩

/-- **A fold keeps the invariant**: refresh, absorb, and one more attempt to
bind. -/
theorem inv_foldRundown {j : Join} (h : j.Inv) {key into : ℕ} {e old : EtwObj}
    (he : j.etw key = some e) (hz : e.address = 0) (hold : j.etw into = some old)
    (hne : into ≠ key) (ha : old.address ≠ 0) : (j.foldRundown key e into old).Inv := by
  have he' : (j.refresh e into old).etw key = some e := by
    rw [etw_refresh_of_ne j e hne.symm]
    exact he
  obtain ⟨old', hold', haddr⟩ := address_refresh hold e old
  have habsorb := inv_absorb (inv_refresh h e into old) he' hz hold' hne (haddr ▸ ha)
  rw [foldRundown_eq]
  exact inv_tryBind habsorb into

/-- What a library id leads to is stored under the key it resolves to. -/
theorem find_some {j : Join} {libId key : ℕ} {e : EtwObj} (h : j.find libId = some (key, e)) :
    j.canon libId = some key ∧ j.etw key = some e := by
  unfold find at h
  obtain ⟨key', hkey', he⟩ := Option.bind_eq_some_iff.mp h
  obtain ⟨e', he', heq⟩ := Option.map_eq_some_iff.mp he
  cases heq
  exact ⟨hkey', he'⟩

/-- **An address keeps the invariant.** -/
theorem inv_etwAddress {j : Join} (h : j.Inv) (libId address : ℕ) :
    (j.etwAddress libId address).Inv := by
  rcases j.etwAddress_cases libId address with hsame | ⟨key, e, hfind, ha, hz, htake | hfold⟩
  · rw [hsame]
    exact h
  · rw [htake]
    exact inv_takeAddress h (find_some hfind).2 hz ha
  · obtain ⟨into, old, hinto, hne, hold, -, hfold⟩ := hfold
    obtain ⟨-, old', hold', hadr⟩ := h.index.byAddr hinto
    rw [hold] at hold'
    cases hold'
    rw [hfold]
    exact inv_foldRundown h (find_some hfind).2 hz hold hne (hadr ▸ ha)

/-- The ETW objects that survive the death of `key`. -/
theorem etw_drop (j : Join) (key : ℕ) (e : EtwObj) (k : ℕ) :
    (j.drop key e).etw k = if k = key then none else j.etw k := by
  unfold drop
  rw [setEtw_etw, Function.update_apply]
  split
  · rfl
  · dsimp only
    split <;> rfl

/-- Nothing that led to the dropped entry resolves any more. -/
theorem canon_drop (j : Join) (key : ℕ) (e : EtwObj) (x : ℕ) :
    (j.drop key e).canon x = if x = key ∨ x ∈ e.aliases then none else j.canon x := by
  unfold drop
  dsimp only
  split <;> rfl

/-- Its address has no owner any more, if it was the owner. -/
theorem byAddr_drop (j : Join) (key : ℕ) (e : EtwObj) (a : ℕ) :
    (j.drop key e).byAddr a =
      if a = e.address ∧ e.address ≠ 0 ∧ j.byAddr e.address = some key then none
      else j.byAddr a := by
  unfold drop
  dsimp only
  split
  · next hc =>
    rw [setEtw_byAddr, setByAddr_byAddr, Function.update_apply]
    by_cases ha : a = e.address
    · rw [if_pos ha, if_pos ⟨ha, hc⟩]
    · rw [if_neg ha, if_neg fun hh => ha hh.1]
  · next hc =>
    rw [if_neg fun hh => hc hh.2]
    rfl

/-- The live objects are none of it. -/
theorem live_drop (j : Join) (key : ℕ) (e : EtwObj) : (j.drop key e).live = j.live := by
  unfold drop
  dsimp only
  split <;> rfl

/-- Neither are the occupants. -/
theorem occupant_drop (j : Join) (key : ℕ) (e : EtwObj) : (j.drop key e).occupant = j.occupant := by
  unfold drop
  dsimp only
  split <;> rfl

/-- Nothing leads to `key` once its object is gone, and the rest is as it was. -/
theorem Index.drop {j : Join} (h : j.Index) {key : ℕ} {e : EtwObj} (he : j.etw key = some e) :
    (j.drop key e).Index := by
  have hback : ∀ {k e'}, (j.drop key e).etw k = some e' → k ≠ key ∧ j.etw k = some e' := by
    intro k e' he'
    rw [etw_drop] at he'
    split at he'
    · cases he'
    · next hk => exact ⟨hk, he'⟩
  -- an id that resolves to another object is neither `key` nor one of its aliases
  have hcan : ∀ {x k}, k ≠ key → j.canon x = some k → (j.drop key e).canon x = some k := by
    intro x k hk hx
    rw [canon_drop, if_neg]
    · exact hx
    · rintro (rfl | hxe)
      · rw [(h.etw_key he).2] at hx
        cases hx
        exact hk rfl
      · rw [(h.aliases he hxe).2] at hx
        cases hx
        exact hk rfl
  refine ⟨?live_id, ?etw_key, ?occupant, ?byAddr, ?canon, ?aliases, ?unplaced⟩
  case live_id =>
    intro i o ho
    rw [live_drop] at ho
    exact h.live_id ho
  case etw_key =>
    intro k e' he'
    obtain ⟨hk, he'⟩ := hback he'
    exact ⟨(h.etw_key he').1, hcan hk (h.etw_key he').2⟩
  case occupant =>
    intro p i hp
    rw [occupant_drop] at hp
    rw [live_drop]
    exact h.occupant hp
  case byAddr =>
    intro a k ha
    rw [byAddr_drop] at ha
    split at ha
    · cases ha
    · next hc =>
      obtain ⟨ha0, e', he', hadr⟩ := h.byAddr ha
      have hk : k ≠ key := by
        rintro rfl
        rw [he] at he'
        cases he'
        -- an address that `key` owned went with it
        exact hc ⟨hadr.symm, hadr ▸ ha0, hadr ▸ ha⟩
      exact ⟨ha0, e', by rw [etw_drop, if_neg hk]; exact he', hadr⟩
  case canon =>
    intro x k hx
    rw [canon_drop] at hx
    split at hx
    · cases hx
    · next hc =>
      obtain ⟨e', he', hxe⟩ := h.canon hx
      have hk : k ≠ key := by
        rintro rfl
        rw [he] at he'
        cases he'
        exact hc hxe
      exact ⟨e', by rw [etw_drop, if_neg hk]; exact he', hxe⟩
  case aliases =>
    intro k e' x he' hx
    obtain ⟨hk, he'⟩ := hback he'
    obtain ⟨hxk, hxc⟩ := h.aliases he' hx
    exact ⟨hxk, hcan hk hxc⟩
  case unplaced =>
    intro k e' he' hz
    exact h.unplaced (hback he').2 hz

/-- The live objects after `unkey`. -/
theorem live_unkey {j : Join} {key : ℕ} {e : EtwObj} {i : ℕ} {o : LiveObject}
    (ho : (j.unkey key e).live i = some o) :
    ∃ o', j.live i = some o' ∧ ((o = o' ∧ (i ≠ e.boundId ∨ e.boundId = 0 ∨ o'.etwKey ≠ key)) ∨
      o = o'.setEtwKey 0) := by
  rcases j.unkey_cases key e with ⟨hsame, hother⟩ | ⟨o₀, -, -, -, hcut⟩
  · rw [hsame] at ho
    refine ⟨o, ho, .inl ⟨rfl, ?_⟩⟩
    by_cases hi : i = e.boundId
    · subst hi
      by_cases hb : e.boundId = 0
      · exact .inr (.inl hb)
      · exact .inr (.inr (hother o hb ho))
    · exact .inl hi
  · rw [hcut, live_updLive] at ho
    split at ho
    · obtain ⟨o', ho', rfl⟩ := Option.map_eq_some_iff.mp ho
      exact ⟨o', ho', .inr rfl⟩
    · next hi => exact ⟨o, ho, .inl ⟨rfl, .inl hi⟩⟩

/-- `unkey` writes to a live object. -/
theorem etw_unkey (j : Join) (key : ℕ) (e : EtwObj) : (j.unkey key e).etw = j.etw := by
  rcases j.unkey_cases key e with ⟨hsame, -⟩ | ⟨o, -, -, -, hcut⟩
  · rw [hsame]
  · rw [hcut, etw_updLive]

/-- So the indexes stay as they are. -/
theorem Index.unkey {j : Join} (h : j.Index) (key : ℕ) (e : EtwObj) : (j.unkey key e).Index := by
  rcases j.unkey_cases key e with ⟨hsame, -⟩ | ⟨o, -, -, -, hcut⟩
  · rw [hsame]
    exact h
  · rw [hcut]
    exact h.updLive _ (fun _ => rfl) fun _ => rfl

/-- Another pair is not touched by `unkey`. -/
theorem live_unkey_of_ne {j : Join} {key i : ℕ} {e : EtwObj} {o : LiveObject}
    (ho : j.live i = some o) (hk : o.etwKey ≠ key) : (j.unkey key e).live i = some o := by
  rcases j.unkey_cases key e with ⟨hsame, -⟩ | ⟨o', -, ho', hk', hcut⟩
  · rw [hsame]
    exact ho
  · have hne : i ≠ e.boundId := by
      rintro rfl
      rw [ho] at ho'
      cases ho'
      exact hk hk'
    rw [hcut, live_updLive, if_neg hne]
    exact ho

/-- **A destruction from ETW keeps the invariant**: the partner of the entry is
unbound before the entry goes. -/
theorem inv_etwDestroyed {j : Join} (h : j.Inv) (libId : ℕ) : (j.etwDestroyed libId).Inv := by
  unfold etwDestroyed
  split
  · exact h
  · next key e hfind =>
    obtain ⟨-, he⟩ := find_some hfind
    have he' : (j.unkey key e).etw key = some e := (congrFun (etw_unkey j key e) key).trans he
    -- what is left was there before, under another key
    have hback : ∀ {k e'}, ((j.unkey key e).drop key e).etw k = some e' →
        k ≠ key ∧ j.etw k = some e' := by
      intro k e' hk
      rw [etw_drop, etw_unkey] at hk
      split at hk
      · cases hk
      · next hne => exact ⟨hne, hk⟩
    refine ⟨(h.index.unkey key e).drop he', ?bound, ?keyed, ?orphan, ?unplaced⟩
    case bound =>
      intro k e' hk hb
      obtain ⟨hne, hk⟩ := hback hk
      obtain ⟨o, ho, hp⟩ := h.pairs.bound hk hb
      rw [live_drop]
      exact ⟨o, live_unkey_of_ne ho (hp.key.symm ▸ hne), hp⟩
    case keyed =>
      intro i o ho hk0
      rw [live_drop] at ho
      obtain ⟨o', ho', ⟨rfl, hcase⟩ | rfl⟩ := live_unkey ho
      -- an object with the destroyed key would have lost it
      · obtain ⟨e', hk, hbi⟩ := h.pairs.keyed ho' hk0
        refine ⟨e', ?_, hbi⟩
        rw [etw_drop, etw_unkey, if_neg]
        · exact hk
        · intro hkey
          rw [hkey, he] at hk
          cases hk
          have hi0 : i ≠ 0 := (h.index.live_id ho').2
          rcases hcase with hi | hb | hne
          · exact hi hbi.symm
          · exact hi0 (hbi.symm.trans hb)
          · exact hne hkey
      · exact absurd rfl hk0
    case orphan =>
      intro k e' hk ho'
      exact h.pairs.orphan (hback hk).2 ho'
    case unplaced =>
      intro k e' hk hz
      exact h.pairs.unplaced (hback hk).2 hz

/-! ### The pipe -/

/-- The live entry `occupy` makes. -/
def occupied (j : Join) (o : LiveObject) : LiveObject :=
  if o.objectPtr = 0 then o else o.setPrevDestroyNs (j.prevDeath o)

/-- The live objects after a creation. -/
theorem live_occupy (j : Join) (o : LiveObject) (i : ℕ) :
    (j.occupy o).live i = if i = o.id then some (j.occupied o) else j.live i := by
  unfold occupy occupied
  split
  · rw [setLive_live, Function.update_apply]
  · rw [setOccupant_live, setLive_live, Function.update_apply]

/-- The new object occupies its address, whoever did before. -/
theorem occupant_occupy (j : Join) (o : LiveObject) (p : ℕ) :
    (j.occupy o).occupant p =
      if p = o.objectPtr ∧ o.objectPtr ≠ 0 then some o.id else j.occupant p := by
  unfold occupy
  split
  · next h => rw [if_neg fun hh => hh.2 h]; rfl
  · next h =>
    rw [setOccupant_occupant, Function.update_apply]
    by_cases hp : p = o.objectPtr
    · rw [if_pos hp, if_pos ⟨hp, h⟩]
    · rw [if_neg hp, if_neg fun hh => hp hh.1]
      rfl

/-- A creation is nothing to the entries. -/
theorem occupy_etw (j : Join) (o : LiveObject) : (j.occupy o).etw = j.etw := by
  unfold occupy; split <;> rfl
theorem occupy_canon (j : Join) (o : LiveObject) : (j.occupy o).canon = j.canon := by
  unfold occupy; split <;> rfl
theorem occupy_byAddr (j : Join) (o : LiveObject) : (j.occupy o).byAddr = j.byAddr := by
  unfold occupy; split <;> rfl

/-- **A new live object is unbound**, and the address leads to it. -/
theorem inv_occupy {j : Join} (h : j.Inv) {o : LiveObject} (h0 : o.id ≠ 0)
    (hnew : j.live o.id = none) (hk : o.etwKey = 0) : (j.occupy o).Inv := by
  have hid : (j.occupied o).id = o.id := by unfold occupied; split <;> rfl
  have hptr : (j.occupied o).objectPtr = o.objectPtr := by unfold occupied; split <;> rfl
  have hkey : (j.occupied o).etwKey = 0 := by unfold occupied; split <;> exact hk
  have hother : ∀ {i o'}, j.live i = some o' → (j.occupy o).live i = some o' := by
    intro i o' ho'
    rw [live_occupy, if_neg]
    · exact ho'
    · rintro rfl
      rw [hnew] at ho'
      cases ho'
  refine ⟨⟨?live_id, ?etw_key, ?occupant, ?byAddr, ?canon, ?aliases, ?unplaced⟩,
    ⟨?bound, ?keyed, ?orphan, ?unbound⟩⟩
  case live_id =>
    intro i o' ho'
    rw [live_occupy] at ho'
    split at ho'
    · next hi => cases ho'; exact ⟨hid.trans hi.symm, hi ▸ h0⟩
    · exact h.index.live_id ho'
  case etw_key =>
    rw [occupy_etw, occupy_canon]; exact h.index.etw_key
  case occupant =>
    intro p i hp
    -- the address now leads to the new object
    rw [occupant_occupy] at hp
    split at hp
    · next hc =>
      cases hp
      refine ⟨hc.1 ▸ hc.2, j.occupied o, ?_, hptr.trans hc.1.symm⟩
      rw [live_occupy, if_pos rfl]
    · obtain ⟨hp0, o', ho', hp'⟩ := h.index.occupant hp
      exact ⟨hp0, o', hother ho', hp'⟩
  case byAddr =>
    rw [occupy_etw, occupy_byAddr]; exact h.index.byAddr
  case canon =>
    rw [occupy_etw, occupy_canon]; exact h.index.canon
  case aliases =>
    rw [occupy_etw, occupy_canon]; exact h.index.aliases
  case unplaced =>
    rw [occupy_etw]; exact h.index.unplaced
  case bound =>
    intro k e he hb
    rw [occupy_etw] at he
    obtain ⟨o', ho', hp⟩ := h.pairs.bound he hb
    exact ⟨o', hother ho', hp⟩
  -- a new object has no key
  case keyed =>
    intro i o' ho' hk0
    rw [live_occupy] at ho'
    split at ho'
    · cases ho'; exact absurd hkey hk0
    · rw [occupy_etw]; exact h.pairs.keyed ho' hk0
  case orphan =>
    rw [occupy_etw]; exact h.pairs.orphan
  case unbound =>
    rw [occupy_etw]; exact h.pairs.unplaced

/-- A reported owner of the address is bound to the object. -/
theorem inv_bindReported {j : Join} (h : j.Inv) (id : ℕ) : (j.bindReported id).Inv := by
  rcases j.bindReported_cases id with hsame | ⟨o, key, e, ho, -, hkey, he, hc, hbind⟩
  · rw [hsame]
    exact h
  · obtain ⟨ha0, e', he', hadr⟩ := h.index.byAddr hkey
    rw [he] at he'
    cases he'
    rw [hbind]
    exact inv_bind h he ho hc hadr (hadr.symm ▸ ha0)

/-- **A creation keeps the invariant.** -/
theorem inv_created {j : Join} (h : j.Inv) {o : LiveObject} (h0 : o.id ≠ 0)
    (hnew : j.live o.id = none) (hk : o.etwKey = 0) : (j.created o).Inv :=
  inv_bindReported (inv_occupy h h0 hnew hk) o.id

/-- The occupants after a death. -/
theorem occupant_forgetOccupant (j : Join) (o : LiveObject) (ts p : ℕ) :
    (j.forgetOccupant o ts).occupant p =
      if p = o.objectPtr ∧ o.objectPtr ≠ 0 ∧ j.occupant o.objectPtr = some o.id then none
      else j.occupant p := by
  unfold forgetOccupant
  split
  · next h0 => rw [if_neg fun hh => hh.2.1 h0]
  · next h0 =>
    rw [setDead_occupant]
    split
    · next hocc =>
      rw [setOccupant_occupant, Function.update_apply]
      by_cases hp : p = o.objectPtr
      · rw [if_pos hp, if_pos ⟨hp, h0, hocc⟩]
      · rw [if_neg hp, if_neg fun hh => hp hh.1]
    · next hocc => rw [if_neg fun hh => hocc hh.2.2]

/-- `forgetOccupant` touches the occupants and the dead only. -/
theorem forgetOccupant_frame (j : Join) (o : LiveObject) (ts : ℕ) :
    (j.forgetOccupant o ts).live = j.live ∧ (j.forgetOccupant o ts).etw = j.etw ∧
      (j.forgetOccupant o ts).canon = j.canon ∧ (j.forgetOccupant o ts).byAddr = j.byAddr := by
  unfold forgetOccupant
  split
  · exact ⟨rfl, rfl, rfl, rfl⟩
  · dsimp only [setDead]
    split <;> exact ⟨rfl, rfl, rfl, rfl⟩

/-- The address is free, or another object's. -/
theorem Index.forgetOccupant {j : Join} (h : j.Index) (o : LiveObject) (ts : ℕ) :
    (j.forgetOccupant o ts).Index := by
  obtain ⟨hlive, hetw, hcanon, hbyAddr⟩ := forgetOccupant_frame j o ts
  constructor
  case live_id => rw [hlive]; exact h.live_id
  case etw_key => rw [hetw, hcanon]; exact h.etw_key
  case occupant =>
    intro p i hp
    rw [occupant_forgetOccupant] at hp
    split at hp
    · cases hp
    · rw [hlive]; exact h.occupant hp
  case byAddr => rw [hetw, hbyAddr]; exact h.byAddr
  case canon => rw [hetw, hcanon]; exact h.canon
  case aliases => rw [hetw, hcanon]; exact h.aliases
  case unplaced => rw [hetw]; exact h.unplaced

theorem Pairs.forgetOccupant {j : Join} (h : j.Pairs) (o : LiveObject) (ts : ℕ) :
    (j.forgetOccupant o ts).Pairs := by
  obtain ⟨hlive, hetw, -, -⟩ := forgetOccupant_frame j o ts
  refine ⟨?bound, ?keyed, ?orphan, ?unplaced⟩
  case bound =>
    rw [hetw, hlive]
    exact h.bound
  case keyed =>
    rw [hetw, hlive]
    exact h.keyed
  case orphan =>
    rw [hetw]
    exact h.orphan
  case unplaced =>
    rw [hetw]
    exact h.unplaced

/-- After `forgetOccupant`, no address leads to the dying object. -/
theorem occupant_forgetOccupant_ne {j : Join} (h : j.Index) {id : ℕ} {o : LiveObject}
    (ho : j.live id = some o) (ts p : ℕ) : (j.forgetOccupant o ts).occupant p ≠ some id := by
  intro hp
  rw [occupant_forgetOccupant] at hp
  split at hp
  · cases hp
  · next hc =>
    obtain ⟨hp0, o', ho', rfl⟩ := h.occupant hp
    rw [ho] at ho'
    cases ho'
    exact hc ⟨rfl, hp0, (h.live_id ho).1.symm ▸ hp⟩

/-- An object that no address leads to can be erased. -/
theorem Index.setLive_none {j : Join} (h : j.Index) {id : ℕ} (hgone : ∀ p, j.occupant p ≠ some id) :
    (j.setLive id none).Index := by
  refine ⟨?_, h.etw_key, ?_, h.byAddr, h.canon, h.aliases, h.unplaced⟩
  · intro i o ho
    rw [setLive_live, Function.update_apply] at ho
    split at ho
    · cases ho
    · exact h.live_id ho
  · intro p i hp
    obtain ⟨hp0, o, ho, hptr⟩ := h.occupant hp
    refine ⟨hp0, o, ?_, hptr⟩
    rw [setLive_live, Function.update_of_ne]
    · exact ho
    · rintro rfl
      exact hgone p hp

/-- The orphaning of the bound ETW object, under the invariant. -/
theorem orphanBound_of_inv {j : Join} (h : j.Pairs) {id : ℕ} {o : LiveObject}
    (ho : j.live id = some o) (hid : o.id = id) (ts : ℕ) :
    j.orphanBound o ts = if o.etwKey = 0 then j else j.updEtw o.etwKey fun e =>
      (e.setBoundId 0).setOrphanTs (if ts ≠ 0 then ts else 1) := by
  unfold orphanBound
  split
  · rfl
  · next hk =>
    obtain ⟨e, he, hb⟩ := h.keyed ho hk
    rw [he]
    exact if_pos (hb.trans hid.symm)

/-- **A death keeps the invariant**: the partner becomes an orphan, and then the
object is erased. -/
theorem inv_destroyed {j : Join} (h : j.Inv) (id ts : ℕ) : (j.destroyed id ts).Inv := by
  unfold destroyed
  split
  · exact h
  · next o ho =>
    obtain ⟨hid, -⟩ := h.index.live_id ho
    obtain ⟨hlive, hetw, -, -⟩ := forgetOccupant_frame j o ts
    have hindex := h.index.forgetOccupant o ts
    have hgone := occupant_forgetOccupant_ne h.index ho ts
    have hpairs := h.pairs.forgetOccupant o ts
    have ho' : (j.forgetOccupant o ts).live id = some o := by rw [hlive]; exact ho
    generalize j.forgetOccupant o ts = j₁ at hindex hgone hpairs ho' ⊢
    rw [orphanBound_of_inv hpairs ho' hid]
    -- only the ETW object under `o`'s key can be bound to `o`
    have hkey : ∀ {k e}, j₁.etw k = some e → e.boundId ≠ 0 → k ≠ o.etwKey → e.boundId ≠ id := by
      intro k e he hb hk hbid
      obtain ⟨o', hlo, hp⟩ := hpairs.bound he hb
      rw [hbid, ho'] at hlo
      cases hlo
      exact hk hp.key.symm
    split
    · next hk =>
      refine ⟨hindex.setLive_none hgone, ?_, ?_, hpairs.orphan, hpairs.unplaced⟩
      · intro k e he hb
        have hk0 : k ≠ o.etwKey := hk ▸ (hindex.etw_key he).1
        obtain ⟨o', hlo, hp⟩ := hpairs.bound he hb
        refine ⟨o', ?_, hp⟩
        rw [setLive_live, Function.update_of_ne (hkey he hb hk0)]
        exact hlo
      · intro i o' hlo hk0
        rw [setLive_live, Function.update_apply] at hlo
        split at hlo
        · cases hlo
        · exact hpairs.keyed hlo hk0
    · next hk =>
      have hindex' : (j₁.updEtw o.etwKey fun e =>
          (e.setBoundId 0).setOrphanTs (if ts ≠ 0 then ts else 1)).Index :=
        hindex.updEtw _ (fun _ => rfl) fun _ => rfl
      refine ⟨hindex'.setLive_none hgone, ?bound, ?keyed, ?orphan, ?unplaced⟩
      case bound =>
        intro k e he hb
        rw [setLive_etw, etw_updEtw] at he
        split at he
        · obtain ⟨e', -, rfl⟩ := Option.map_eq_some_iff.mp he
          exact absurd rfl hb
        · next hne =>
          obtain ⟨o', hlo, hp⟩ := hpairs.bound he hb
          refine ⟨o', ?_, hp⟩
          rw [setLive_live, Function.update_of_ne (hkey he hb hne)]
          exact hlo
      case keyed =>
        intro i o' hlo hk0
        rw [setLive_live, Function.update_apply] at hlo
        split at hlo
        · cases hlo
        · next hi =>
          obtain ⟨e, he, hb⟩ := hpairs.keyed hlo hk0
          refine ⟨e, ?_, hb⟩
          rw [setLive_etw, etw_updEtw, if_neg]
          · exact he
          · intro hkk
            -- a second object with the key of `o` would be `o`
            obtain ⟨e', he', hb'⟩ := hpairs.keyed ho' hk
            rw [← hkk, he] at he'
            cases he'
            exact hi (hb.symm.trans hb')
      case orphan =>
        intro k e he horph
        rw [setLive_etw, etw_updEtw] at he
        split at he
        · obtain ⟨e', -, rfl⟩ := Option.map_eq_some_iff.mp he
          rfl
        · exact hpairs.orphan he horph
      case unplaced =>
        intro k e he hz
        rw [setLive_etw, etw_updEtw] at he
        split at he
        · obtain ⟨e', -, rfl⟩ := Option.map_eq_some_iff.mp he
          rfl
        · exact hpairs.unplaced he hz

/-- A size that an id leads with. -/
theorem inv_etwSize {j : Join} (h : j.Inv) (libId size : ℕ) : (j.etwSize libId size).Inv := by
  unfold etwSize
  split
  · exact h
  · exact inv_applySize h _ size

/-- A group that an id leads with. -/
theorem inv_etwGroup {j : Join} (h : j.Inv) (libId : ℕ) (g : MemLoc) :
    (j.etwGroup libId g).Inv := by
  unfold etwGroup
  split
  · exact h
  · split
    · exact inv_applyGroup h _ g
    · exact h

/-! ### Runs -/

namespace Op

/-- The id of a created object. -/
def createdId : Op → Option ℕ
  | .created _ p => some p.id
  | _ => none

/-- The library id of a new entry. -/
def libId : Op → Option ℕ
  | .etwCreated libId _ _ _ _ => some libId
  | _ => none

/-- The ids an operation introduces are new ones. -/
structure Fresh (j : Join) (op : Op) : Prop where
  created : ∀ {id}, op.createdId = some id → id ≠ 0 ∧ j.live id = none
  lib : ∀ {k}, op.libId = some k → k ≠ 0

end Op

/-- **One operation preserves the invariant.** -/
theorem inv_step {j : Join} (h : j.Inv) {op : Op} (hf : op.Fresh j) : (j.step op).Inv := by
  cases op with
  | created tsNs p =>
    obtain ⟨h0, hnew⟩ := hf.created rfl
    exact inv_created h h0 hnew rfl
  | renamed id name =>
    refine inv_updLive h id ?_ ?_ ?_ fun k e o hp => ?_
    · exact fun _ => rfl
    · exact fun _ => rfl
    · exact fun _ => rfl
    · exact ⟨hp.key, hp.compatible, hp.address, hp.group, hp.size⟩
  | destroyed id ts => exact inv_destroyed h id ts
  | etwCreated libId type size group createdTs => exact inv_etwCreated h (hf.lib rfl) rfl rfl rfl
  | etwAddress libId address => exact inv_etwAddress h libId address
  | etwDestroyed libId => exact inv_etwDestroyed h libId
  | etwSize libId size => exact inv_etwSize h libId size
  | etwGroup libId group => exact inv_etwGroup h libId group
  | prune dead =>
    exact ⟨⟨h.index.live_id, h.index.etw_key, h.index.occupant, h.index.byAddr, h.index.canon,
      h.index.aliases, h.index.unplaced⟩, ⟨h.pairs.bound, h.pairs.keyed, h.pairs.orphan,
      h.pairs.unplaced⟩⟩

/-- Operations that introduce no id can be run without a condition. -/
theorem inv_run {ops : List Op} (hops : ∀ op ∈ ops, op.createdId = none ∧ op.libId = none)
    {j : Join} (h : j.Inv) : (Machine.run step j ops).Inv := by
  induction ops generalizing j with
  | nil => exact h
  | cons op ops ih =>
    obtain ⟨hc, hl⟩ := hops op List.mem_cons_self
    refine ih (fun op' h' => hops op' (List.mem_cons_of_mem _ h')) (inv_step h ⟨?_, ?_⟩)
    · intro id hid; rw [hc] at hid; cases hid
    · intro k hk; rw [hl] at hk; cases hk

/-! ### Orphans -/

/-- No object under `k` can bind any more: if there is one, which takes `P`, it is
an orphan. -/
def Buried (P : Prop) (k : ℕ) (j : Join) : Prop := ∀ e, j.etw k = some e → P ∧ e.orphanTs ≠ 0

variable {P : Prop}

/-- A write that leaves orphans orphans. -/
theorem Buried.updEtw {k : ℕ} {j : Join} (h : Buried P k j) (key : ℕ) {f : EtwObj → EtwObj}
    (hf : ∀ e, e.orphanTs ≠ 0 → (f e).orphanTs ≠ 0) : Buried P k (j.updEtw key f) := by
  intro e he
  rw [etw_updEtw] at he
  split at he
  · obtain ⟨e', he', rfl⟩ := Option.map_eq_some_iff.mp he
    exact ⟨(h e' he').1, hf e' (h e' he').2⟩
  · exact h e he

/-- A step that does not touch the entry under `k`. -/
theorem Buried.of_etw {k : ℕ} {j j' : Join} (h : Buried P k j) (hetw : j'.etw k = j.etw k) :
    Buried P k j' := fun e he => h e (hetw ▸ he)

/-- Who is bound was no orphan, and who is let go stays one. -/
theorem Buried.bind {k : ℕ} {j : Join} (h : Buried P k j) (key id : ℕ) (e : EtwObj)
    (o : LiveObject) : Buried P k (j.bind key id e o) := by
  have hother : Buried P k (j.unbindOther key o) := by
    unfold Join.unbindOther
    split
    · exact h.updEtw _ fun _ he => he
    · exact h
  exact (hother.updEtw key (f := (·.setBoundId o.id)) fun _ he => he).of_etw rfl

/-- An attempt to bind passes an orphan by. -/
theorem Buried.tryBind {k : ℕ} {j : Join} (h : Buried P k j) (key : ℕ) :
    Buried P k (j.tryBind key) := by
  rcases j.tryBind_cases key with hj | ⟨e, id, o, -, -, -, -, -, hj⟩ | ⟨e, x, -, -, -, hj⟩
  · rw [hj]; exact h
  · rw [hj]; exact h.bind key id e o
  · rw [hj]
    refine h.updEtw key fun e _ => ?_
    show (if x.destroyedNs ≠ 0 then x.destroyedNs else 1) ≠ 0
    split
    · assumption
    · exact one_ne_zero

/-- A group does not raise the dead. -/
theorem Buried.applyGroup {k : ℕ} {j : Join} (h : Buried P k j) (key : ℕ) (g : MemLoc) :
    Buried P k (j.applyGroup key g) :=
  (h.updEtw key (f := (·.setGroup g)) fun _ he => he).of_etw
    (congrFun (etw_applyGroup j key g) k)

/-- Neither does a size. -/
theorem Buried.applySize {k : ℕ} {j : Join} (h : Buried P k j) (key size : ℕ) :
    Buried P k (j.applySize key size) := by
  refine (h.updEtw key (f := fun e => if size = 0 ∨ size = e.size then e else e.setSize size)
    fun e he => ?_).of_etw (congrFun (etw_applySize j key size) k)
  split <;> exact he

/-- A re-report that is merged takes nothing back. -/
theorem Buried.foldRundown {k : ℕ} {j : Join} (h : Buried P k j) (key : ℕ) (e : EtwObj) (into : ℕ)
    (old : EtwObj) : Buried P k (j.foldRundown key e into old) := by
  have habsorb : ∀ j' : Join, Buried P k j' → Buried P k (j'.absorb key into) := by
    intro j' h'
    have herase : Buried P k (j'.setEtw key none) := by
      intro e' he'
      rw [setEtw_etw, Function.update_apply] at he'
      split at he'
      · cases he'
      · exact h' e' he'
    exact (herase.updEtw into (f := (·.addAlias key)) fun _ he => he).of_etw rfl
  have hrefresh : Buried P k (j.refresh e into old) :=
    refresh_of (P := Buried P k) (fun _ n h' => h'.applySize into n)
      (fun _ g h' => h'.applyGroup into g) h e old
  rw [foldRundown_eq]
  exact (habsorb _ hrefresh).tryBind into

/-- Neither does an address. -/
theorem Buried.takeAddress {k : ℕ} {j : Join} (h : Buried P k j) (key a : ℕ) :
    Buried P k (j.takeAddress key a) := by
  have hown : Buried P k (j.own key a) :=
    (h.updEtw key (f := (·.setAddress a)) fun _ he => he).of_etw rfl
  exact hown.tryBind key

/-- Taken or folded, an address leaves the buried alone. -/
theorem Buried.etwAddress {k : ℕ} {j : Join} (h : Buried P k j) (libId address : ℕ) :
    Buried P k (j.etwAddress libId address) := by
  rcases j.etwAddress_cases libId address with hsame | ⟨key, e, -, -, -, htake | hfold⟩
  · rw [hsame]
    exact h
  · rw [htake]
    exact h.takeAddress key address
  · obtain ⟨into, old, -, -, -, -, hfold⟩ := hfold
    rw [hfold]
    exact h.foldRundown key e into old

/-- A new live object binds an entry that is no orphan. -/
theorem Buried.bindReported {k : ℕ} {j : Join} (h : Buried P k j) (id : ℕ) :
    Buried P k (j.bindReported id) := by
  rcases j.bindReported_cases id with hsame | ⟨o, key, e, -, -, -, -, -, hbind⟩
  · rw [hsame]
    exact h
  · rw [hbind]
    exact h.bind key id e o

/-- A death adds an orphan. -/
theorem Buried.destroyed {k : ℕ} {j : Join} (h : Buried P k j) (id ts : ℕ) :
    Buried P k (j.destroyed id ts) := by
  unfold Join.destroyed
  split
  · exact h
  · next o _ =>
    have h₁ : Buried P k (j.forgetOccupant o ts) :=
      h.of_etw (congrFun (forgetOccupant_frame j o ts).2.1 k)
    generalize j.forgetOccupant o ts = j₁ at h₁ ⊢
    have h₂ : Buried P k (j₁.orphanBound o ts) := by
      unfold Join.orphanBound
      split
      · exact h₁
      · split
        · exact h₁
        · split
          · refine h₁.updEtw _ fun e _ => ?_
            show (if ts ≠ 0 then ts else 1) ≠ 0
            split
            · assumption
            · exact one_ne_zero
          · exact h₁
    exact h₂.of_etw rfl

/-- **What is buried stays buried**, unless its library id is used again. -/
theorem Buried.step {k : ℕ} {j : Join} (h : Buried P k j) {op : Op} (hop : op.libId ≠ some k) :
    Buried P k (j.step op) := by
  cases op with
  | created tsNs p =>
    exact (h.of_etw (congrFun (occupy_etw j (liveOfCreated tsNs p)) k)).bindReported _
  | renamed id name => exact h
  | destroyed id ts => exact h.destroyed id ts
  | etwCreated libId type size group createdTs =>
    -- the new object goes under its own library id
    have hk : k ≠ libId := fun hk => hop (congrArg some hk.symm)
    refine h.of_etw ?_
    show (Join.etwCreated j libId _).etw k = j.etw k
    unfold Join.etwCreated
    split
    · rfl
    · rw [setCanon_etw]
      split
      · rfl
      · rw [setEtw_etw, Function.update_of_ne hk]
  | etwAddress libId address => exact h.etwAddress libId address
  | etwDestroyed libId =>
    show Buried P k (j.etwDestroyed libId)
    unfold Join.etwDestroyed
    split
    · exact h
    · next key e _ =>
      intro e' he'
      -- an entry that is dropped is buried all the more
      rw [etw_drop, etw_unkey] at he'
      split at he'
      · cases he'
      · exact h e' he'
  | etwSize libId size =>
    show Buried P k (j.etwSize libId size)
    unfold Join.etwSize
    split
    · exact h
    · exact h.applySize _ size
  | etwGroup libId group =>
    show Buried P k (j.etwGroup libId group)
    unfold Join.etwGroup
    split
    · exact h
    · split
      · exact h.applyGroup _ group
      · exact h
  | prune dead => exact h

/-- **What is buried stays buried over a run** that does not use its id
again. -/
theorem Buried.run {k : ℕ} {ops : List Op} (hops : ∀ op ∈ ops, op.libId ≠ some k) {j : Join}
    (h : Buried P k j) : Buried P k (Machine.run Join.step j ops) := by
  induction ops generalizing j with
  | nil => exact h
  | cons op ops ih =>
    exact ih (fun op' h' => hops op' (List.mem_cons_of_mem _ h'))
      (h.step (hops op List.mem_cons_self))

end Join

/-! ### The model -/

namespace Model

/-- The ids a call introduces are those of its operations. -/
theorem ids_groupOps (changes : List (Etw.GroupChange × Env)) (m : Model) :
    ∀ op ∈ m.groupOps changes, op.createdId = none ∧ op.libId = none := by
  induction changes generalizing m with
  | nil => intro op hop; cases hop
  | cons c cs ih =>
    intro op hop
    unfold groupOps at hop
    dsimp only at hop
    split at hop
    · exact ih _ op hop
    · rcases List.mem_cons.mp hop with rfl | hop
      · exact ⟨rfl, rfl⟩
      · exact ih _ op hop

/-- **One call preserves the invariant of the join.** -/
theorem inv_step {m : Model} (hetw : m.etwEnabled = true) (h : m.join.Inv) (x : Step)
    (hid : ∀ id, x.createdId = some id → id ≠ 0 ∧ m.live.lookup id = none)
    (hlib : ∀ k, x.libId = some k → k ≠ 0) : (m.step x).join.Inv := by
  rw [join_step hetw]
  have one : ∀ op : Join.Op, op.createdId = x.createdId → op.libId = x.libId →
      (Machine.run Join.step m.join [op]).Inv := by
    intro op hc hl
    refine Join.inv_step h ⟨fun {id} hop => ?_, fun {k} hop => hlib k (hl ▸ hop)⟩
    obtain ⟨h0, hnone⟩ := hid id (hc ▸ hop)
    exact ⟨h0, by rw [join_live, hnone]; rfl⟩
  cases x with
  | event ts r =>
    cases r with
    | created p => exact one _ rfl rfl
    | renamed p => exact one _ rfl rfl
    | destroyed p => exact one _ rfl rfl
    | _ => exact h
  | objectCreated ts libId type size group => exact one _ rfl rfl
  | objectAddress env libId address => exact one _ rfl rfl
  | objectDestroyed ts libId => exact one _ rfl rfl
  | objectSize ts libId size => exact one _ rfl rfl
  | groupChanges changes => exact Join.inv_run (ids_groupOps changes m) h
  | tick env st => exact one _ rfl rfl
  | _ => exact h

/-- **The invariant of the join holds after every run.** -/
theorem inv_after (etw : EtwOptions) (xs : List Step)
    (ht : TrackerIdsFresh xs) (hl : LibIdsFresh xs) :
    ((start etw).after xs).join.Inv := by
  refine Machine.run_induction step (start etw) (fun xs => TrackerIdsFresh xs ∧ LibIdsFresh xs)
    (fun _ m => m.join.Inv) ?_ ?_ ?_ xs ⟨ht, hl⟩
  · exact fun xs x h => ⟨h.1.of_append, h.2.of_append⟩
  · rw [join_start]; exact Join.inv_empty
  · intro xs x hlegal h
    refine inv_step (etwEnabled_start etw xs) h x ?_ fun k hk =>
      (hlegal.2.last hk).1
    intro id hid
    obtain ⟨h0, hnew⟩ := hlegal.1.last hid
    refine ⟨h0, ?_⟩
    by_contra hsome
    exact hnew (createdIds_of_live (fun _ => rfl) xs (Option.isSome_iff_ne_none.mpr hsome))

/-- Operations use the library ids of their call only. -/
theorem libId_ops {m : Model} {x : Step} {op : Join.Op} (h : op ∈ m.ops x) {k : ℕ}
    (hk : op.libId = some k) : x.libId = some k := by
  cases x with
  | event ts r => cases r <;> simp_all [ops, Join.Op.libId]
  | groupChanges changes => rw [(ids_groupOps changes m op h).2] at hk; cases hk
  | objectCreated ts libId type size group => simp_all [ops, Join.Op.libId, Step.libId]
  | _ => simp_all [ops, Join.Op.libId]

/-- An orphan stays one for the rest of the run. -/
theorem buried_after {m : Model} (hetw : m.etwEnabled = true) {P : Prop} {k : ℕ}
    (h : Join.Buried P k m.join) (ys : List Step) (hk : k ∉ libIds ys) :
    Join.Buried P k (m.after ys).join := by
  induction ys generalizing m with
  | nil => exact h
  | cons y ys ih =>
    have hy : y.libId ≠ some k := fun hy => hk (by simp [libIds, hy])
    have hys : k ∉ libIds ys := fun hm => hk (by
      unfold libIds at hm ⊢
      rw [List.filterMap_cons]
      split
      · exact hm
      · exact List.mem_cons_of_mem _ hm)
    refine ih (m := m.step y) ((etwEnabled_step m y).trans hetw) ?_ hys
    rw [join_step hetw]
    exact h.run fun op hop hl => hy (libId_ops hop hl)

/-- An ETW object's library id is one the run has used. -/
theorem libIds_of_etw (etw : EtwOptions) (xs : List Step) {k : ℕ}
    {e : EtwObj} (he : ((start etw).after xs).etwObjs.lookup k = some e) :
    k ∈ libIds xs := by
  by_contra hk
  have hstart : Join.Buried False k (start etw).join := by
    intro e he
    rw [join_start] at he
    cases he
  have hend := buried_after (m := start etw) rfl hstart xs hk
  exact (hend e.noWait (by rw [join_etw, he]; rfl)).1

/-- **The binding is a partial bijection, recorded on both sides.**  In every state
of a run with `--etw`, an ETW object names a live object exactly if that object
names it; what is bound agrees in type, address, location and driver size; and an
orphan is unbound, and stays unbound for the rest of the run. -/
theorem binding_consistent (etw : EtwOptions) (xs ys : List Step)
    (ht : TrackerIdsFresh (xs ++ ys)) (hl : LibIdsFresh (xs ++ ys)) :
    let m := (start etw).after xs
    (∀ k e id, m.etwObjs.lookup k = some e →
      (e.boundId = id ∧ id ≠ 0 ↔ ∃ o, m.live.lookup id = some o ∧ o.etwKey = k)) ∧
    (∀ id o, m.live.lookup id = some o → o.etwKey ≠ 0 →
      ∃ e, m.etwObjs.lookup o.etwKey = some e ∧ e.boundId = id) ∧
    (∀ k e id o, m.etwObjs.lookup k = some e → m.live.lookup id = some o → o.etwKey = k →
      compatible e.type o.type = true ∧ e.address = o.objectPtr ∧ o.ownLoc = e.group ∧
        (isDriverType e.type = true → o.driverSize = e.size)) ∧
    (∀ k e, m.etwObjs.lookup k = some e → e.orphanTs ≠ 0 → e.boundId = 0 ∧
      ∀ e', ((start etw).after (xs ++ ys)).etwObjs.lookup k = some e' →
        e'.boundId = 0) := by
  intro m
  have h : m.join.Inv := inv_after etw xs ht.of_append hl.of_append
  -- the tables of the model and of the join
  have hetw : ∀ {k e}, m.etwObjs.lookup k = some e → m.join.etw k = some e.noWait := by
    intro k e he; rw [join_etw, he]; rfl
  have hlive : ∀ {id o}, m.live.lookup id = some o → m.join.live id = some o.noLoc := by
    intro id o ho; rw [join_live, ho]; rfl
  have hetw' : ∀ {k e}, m.join.etw k = some e → ∃ e', m.etwObjs.lookup k = some e' ∧
      e'.noWait = e := fun he => Option.map_eq_some_iff.mp he
  have hlive' : ∀ {id o}, m.join.live id = some o → ∃ o', m.live.lookup id = some o' ∧
      o'.noLoc = o := fun ho => Option.map_eq_some_iff.mp ho
  have hbound : ∀ {k e id o}, m.etwObjs.lookup k = some e → m.live.lookup id = some o →
      o.etwKey = k → e.boundId = id ∧ id ≠ 0 ∧ Paired k e.noWait o.noLoc := by
    intro k e id o he ho hk
    have hk0 : o.etwKey ≠ 0 := hk ▸ (h.index.etw_key (hetw he)).1
    obtain ⟨e', he', hb⟩ := h.pairs.keyed (hlive ho) hk0
    have hid0 : id ≠ 0 := (h.index.live_id (hlive ho)).2
    have hee : e.noWait = e' := by
      have he'' : m.join.etw k = some e' := hk ▸ he'
      rw [hetw he] at he''
      exact Option.some.inj he''
    subst hee
    obtain ⟨o', ho', hp⟩ := h.pairs.bound (hetw he) (by rw [hb]; exact hid0)
    rw [hb, hlive ho] at ho'
    cases ho'
    exact ⟨hb, hid0, hp⟩
  refine ⟨?named, ?keyed, ?agrees, ?orphan⟩
  case named =>
    intro k e id he
    constructor
    · rintro ⟨rfl, h0⟩
      obtain ⟨o, ho, hp⟩ := h.pairs.bound (hetw he) h0
      obtain ⟨o', ho', rfl⟩ := hlive' ho
      exact ⟨o', ho', hp.key⟩
    · rintro ⟨o, ho, hk⟩
      obtain ⟨hb, h0, -⟩ := hbound he ho hk
      exact ⟨hb, h0⟩
  case keyed =>
    intro id o ho hk0
    obtain ⟨e, he, hb⟩ := h.pairs.keyed (hlive ho) hk0
    obtain ⟨e', he', rfl⟩ := hetw' he
    exact ⟨e', he', hb⟩
  case agrees =>
    intro k e id o he ho hk
    obtain ⟨-, -, hp⟩ := hbound he ho hk
    exact ⟨hp.compatible, hp.address, hp.group, hp.size⟩
  case orphan =>
    intro k e he horph
    refine ⟨h.pairs.orphan (e := e.noWait) (hetw he) horph, fun e' he' => ?_⟩
    -- the orphan's library id is not used again, so it stays buried
    have hk : k ∉ libIds ys := by
      intro hk
      have hnodup : (libIds xs ++ libIds ys).Nodup := libIds_append xs ys ▸ hl.1
      exact (List.nodup_append.mp hnodup).2.2 k (libIds_of_etw etw xs he) k hk rfl
    have hburied : Join.Buried True k m.join := by
      intro e₁ he₁
      rw [hetw he] at he₁
      cases he₁
      exact ⟨trivial, horph⟩
    have hinv := inv_after etw (xs ++ ys) ht hl
    rw [after_append] at he' hinv
    have hend := buried_after (etwEnabled_start etw xs) hburied ys hk
    have hj : (m.after ys).join.etw k = some e'.noWait := by rw [join_etw, he']; rfl
    exact hinv.pairs.orphan (e := e'.noWait) hj (hend _ hj).2

/-- A committed resource that both sides report. -/
def boundRun : List Step :=
  [.event 10 (.created (plainCreated 1 .resource .committed 4096 65536 0)),
    .objectCreated 0 7 .resource 0 .local, .objectAddress {} 7 4096]

/-- In it the two sides find each other; the tracked object then dies. -/
theorem binding_consistent_boundRun :
    (∃ o, ((start ⟨true, [], [], 5000⟩).after boundRun).live.lookup 1 = some o ∧ o.etwKey = 7 ∧
      o.ownLoc = .vram) ∧
    (((start ⟨true, [], [], 5000⟩).after (boundRun ++ [.event 20 (.destroyed ⟨1⟩)])).etwObjs.lookup
      7).map (fun e => (e.boundId, e.orphanTs)) = some (0, 20) := by
  obtain ⟨hbound, -, hagree, -⟩ := binding_consistent ⟨true, [], [], 5000⟩ boundRun
    [.event 20 (.destroyed ⟨1⟩)] (by decide) (by decide)
  have he : (((start ⟨true, [], [], 5000⟩).after boundRun).etwObjs.lookup 7).map
      (fun e => (e.boundId, e.group)) = some (1, .vram) := by decide
  obtain ⟨e, he, heq⟩ := Option.map_eq_some_iff.mp he
  obtain ⟨hid, hgroup⟩ := Prod.mk.inj heq
  obtain ⟨o, ho, hk⟩ := (hbound 7 e 1 he).mp ⟨hid, by decide⟩
  exact ⟨⟨o, ho, hk, (hagree 7 e 1 o he ho hk).2.2.1.trans hgroup⟩, by decide⟩

end Model

end Dx12Track
