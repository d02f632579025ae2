import Dx12Track.Dll.Logging

/-!
# The order of the lines

A log file begins with its `hello` and ends with its `goodbye`, and its stamps do
not decrease, when no thread comes between what another one does in two steps.

* `LogFile.Framed`, `LogFile.InTime` — what is said of the lines of a file.
* `LogWorld.Intrudes` — a line is written between the opening of a file and its
  `hello`, or between its `goodbye` and its closing.
* `framed_of_undisturbed` — **without such a step, every file is framed**.
* `LogWorld.Overtakes` — a line is stamped while another one waits to be written,
  or a line without a stamp follows one with a stamp.
* `inTime_of_inTurn` — **without such a step, the stamps of every file do not
  decrease**.
-/

namespace Dx12Track

/-- `hello` is the first line, and only the last one is a `goodbye`. -/
def LogFile.Framed (f : LogFile) : Prop :=
  (∀ l ∈ f.lines.head?, l.event = .hello) ∧ ∀ l ∈ f.lines.dropLast, l.event ≠ .goodbye

/-- The stamps do not decrease. -/
def LogFile.InTime (f : LogFile) : Prop := f.lines.Pairwise fun l l' => l.tsNs ≤ l'.tsNs

instance (f : LogFile) : Decidable f.Framed :=
  inferInstanceAs (Decidable ((∀ l ∈ f.lines.head?, _) ∧ ∀ l ∈ f.lines.dropLast, _))

instance (f : LogFile) : Decidable f.InTime := inferInstanceAs (Decidable (List.Pairwise _ _))

/-! ### What a thread has still to write -/

namespace LogAct

/-- The record that is about to be written. -/
def record : LogAct → Option LogEvent
  | .append _ e | .write _ e => some e
  | _ => none

/-- The record, if it is written now. -/
def written : LogAct → Option LogEvent
  | .write _ e => some e
  | _ => none

/-- Its stamp, if the clock was read for it. -/
def stamp : LogAct → Option ℕ
  | .append stamp _ | .write stamp _ => stamp
  | _ => none

/-- The clock is read. -/
def reads : LogAct → Bool
  | .emit _ => true
  | _ => false

/-- A line is written with the stamp 0, whatever the clock shows. -/
def writesZero : LogAct → Bool
  | .write stamp _ => stamp.isNone
  | _ => false

/-- The action opens a file. -/
def opens : LogAct → Bool
  | .openLog _ _ => true
  | _ => false

/-- What must follow an action: a `hello` the opening of a file, and the closing of the file a
`goodbye`. -/
def Owes (rest : List LogAct) : LogAct → Prop
  | .openLog _ ok =>
    (ok = true → ∃ a ∈ rest, a.record = some .hello) ∧ ∀ a ∈ rest, a.opens = false
  | .append _ e | .write _ e =>
    e = .goodbye → .closeLog true ∈ rest ∧ ∀ a ∈ rest, a.record ≠ some .goodbye
  | .emit e => e ≠ .hello ∧ e ≠ .goodbye
  | _ => True

/-- It follows. -/
def Owed : List LogAct → Prop
  | [] => True
  | a :: rest => a.Owes rest ∧ Owed rest

theorem owed_append {as rest : List LogAct} (has : ∀ a ∈ as, ∀ rest, Owes rest a)
    (h : Owed rest) : Owed (as ++ rest) := by
  induction as with
  | nil => exact h
  | cons a as ih =>
    exact ⟨has a List.mem_cons_self _, ih fun b hb => has b (List.mem_cons_of_mem a hb)⟩

theorem owed_replicate (n : ℕ) {rest : List LogAct} (h : Owed rest) :
    Owed (List.replicate n (.emit .diag) ++ rest) := by
  refine owed_append (fun a ha rest => ?_) h
  rw [List.eq_of_mem_replicate ha]
  exact ⟨LogEvent.noConfusion, LogEvent.noConfusion⟩

end LogAct

open LogAct

theorem owed_acts (c : LogCall) : Owed c.acts := by
  have hone : ∀ e : LogEvent, e ≠ .hello → e ≠ .goodbye → Owed [.emit e] :=
    fun e hh hg => ⟨⟨hh, hg⟩, trivial⟩
  cases c with
  | attach path callstacks diags =>
    have hend : Owed (.trackModules :: List.replicate (diags - 1) (.emit .diag)) := by
      have h := owed_replicate (diags - 1) (show Owed [] from trivial)
      rw [List.append_nil] at h
      exact ⟨trivial, h⟩
    have hhello : Owed (sendHello ++ (List.replicate (min diags 1) (.emit .diag) ++
        .trackModules :: List.replicate (diags - 1) (.emit .diag))) :=
      ⟨fun h => LogEvent.noConfusion h, owed_replicate _ hend⟩
    have hacts : onAttach path callstacks diags
        = .setCapture callstacks :: ((path.toList.map fun ok => .openLog false ok) ++
          (sendHello ++ (List.replicate (min diags 1) (.emit .diag) ++
            .trackModules :: List.replicate (diags - 1) (.emit .diag)))) := by
      simp [onAttach]
    show Owed (onAttach path callstacks diags)
    rw [hacts]
    refine ⟨trivial, ?_⟩
    cases path with
    | none => exact hhello
    | some ok =>
      have hmem : LogAct.append none .hello ∈ sendHello ++
          (List.replicate (min diags 1) (.emit .diag) ++
            .trackModules :: List.replicate (diags - 1) (.emit .diag)) :=
        List.mem_append_left _ List.mem_cons_self
      refine ⟨⟨fun _ => ⟨_, hmem, rfl⟩, ?_⟩, hhello⟩
      intro a ha
      have ha : a ∈ sendHello ++ (List.replicate (min diags 1) (.emit .diag) ++
          .trackModules :: List.replicate (diags - 1) (.emit .diag)) := ha
      simp only [sendHello, List.mem_append, List.mem_cons, List.not_mem_nil, or_false,
        List.mem_replicate] at ha
      rcases ha with rfl | ⟨-, rfl⟩ | rfl | ⟨-, rfl⟩ <;> rfl
  | detach =>
    refine ⟨fun _ => ⟨by decide, ?_⟩, trivial, trivial, trivial⟩
    intro a ha
    simp only [List.mem_cons, List.not_mem_nil, or_false] at ha
    rcases ha with rfl | rfl <;> exact fun h => by cases h
  | startLogging captureCallstacks ok =>
    refine ⟨trivial, ?_⟩
    cases ok with
    | false => exact ⟨⟨Bool.noConfusion, fun a ha => by cases ha⟩, trivial⟩
    | true =>
      refine ⟨⟨fun _ => ⟨_, List.mem_cons_self, rfl⟩, ?_⟩, fun h => LogEvent.noConfusion h, trivial,
        trivial⟩
      intro a ha
      simp only [sendHello, if_true, List.mem_append, List.mem_cons, List.not_mem_nil,
        or_false] at ha
      rcases ha with rfl | rfl <;> rfl
  | stopLogging => exact ⟨trivial, trivial⟩
  | create => exact ⟨trivial, trivial⟩
  | rename => exact hone _ LogEvent.noConfusion LogEvent.noConfusion
  | release => exact hone _ LogEvent.noConfusion LogEvent.noConfusion
  | setPriority => exact hone _ LogEvent.noConfusion LogEvent.noConfusion
  | diagF => exact hone _ LogEvent.noConfusion LogEvent.noConfusion
  | loadModule base => exact ⟨trivial, trivial⟩
  | unloadModule base => exact ⟨trivial, trivial⟩

/-- What an action adds to what the thread has to do: no opening, no closing, and no `hello` or
`goodbye` but the one it was about. -/
theorem mem_exec {d : Dll} {a b : LogAct} {rest : List LogAct} (ha : a.Owes rest)
    (hb : b ∈ (d.exec a).2) : b.opens = false ∧ (∀ x, b ≠ .closeLog x) ∧
      ∀ e, b.record = some e → (e = .hello ∨ e = .goodbye) → a.record = some e := by
  have plain : ∀ b : LogAct, b.opens = false → (∀ x, b ≠ .closeLog x) → b.record = none →
      b.opens = false ∧ (∀ x, b ≠ .closeLog x) ∧
        ∀ e, b.record = some e → (e = .hello ∨ e = .goodbye) → a.record = some e := by
    intro b hopens hcloses hrecord
    refine ⟨hopens, hcloses, fun e he => ?_⟩
    rw [hrecord] at he
    cases he
  cases Dll.follows_of_mem hb with
  | write stamp e hopen => exact ⟨rfl, fun x h => LogAct.noConfusion h, fun e' h _ => h⟩
  | append e =>
    -- what is emitted is neither of the two
    refine ⟨rfl, fun x h => LogAct.noConfusion h, fun e' he hor => ?_⟩
    obtain rfl : e = e' := Option.some.inj he
    rcases hor with h | h
    · exact absurd h ha.1
    · exact absurd h ha.2
  | _ => exact plain _ rfl (fun x h => LogAct.noConfusion h) rfl

theorem owed_exec {d : Dll} {a : LogAct} {rest : List LogAct} (h : Owed (a :: rest)) :
    Owed ((d.exec a).2 ++ rest) := by
  obtain ⟨ha, hrest⟩ := h
  by_cases happend : ∃ stamp e, a = .append stamp e
  · -- the line that is written owes what its `Append` did
    obtain ⟨stamp, e, rfl⟩ := happend
    show Owed ((if d.file.isSome then [.write stamp e] else []) ++ rest)
    split
    · exact ⟨ha, hrest⟩
    · exact hrest
  · refine owed_append (fun b hb rest' => ?_) hrest
    cases Dll.follows_of_mem hb with
    | write stamp e hopen => exact absurd ⟨stamp, e, rfl⟩ happend
    | append e => exact fun h => absurd h ha.2
    | created | inspected | loaded | unloaded =>
      exact ⟨LogEvent.noConfusion, LogEvent.noConfusion⟩
    | startTracking | enumerate | register | inspect => exact trivial

namespace LogWorld

variable {T : Type} [DecidableEq T]

/-! ### `hello` and `goodbye` -/

/-- The thread has opened a file, and not yet written its `hello`. -/
def Opening (w : LogWorld T) (t : T) : Prop :=
  (∃ a ∈ w.todo t, a.record = some .hello) ∧ ∀ a ∈ w.todo t, a.opens = false

/-- The thread has written its `goodbye`, and not yet closed the file. -/
def Leaving (w : LogWorld T) (t : T) : Prop :=
  .closeLog true ∈ w.todo t ∧ ∀ a ∈ w.todo t, a.record ≠ some .goodbye

/-- A line is written to a file whose `hello` is still to come, or after its `goodbye`. -/
def Intrudes (w : LogWorld T) : LogMove T → Prop
  | .step t => ∃ a ∈ w.next t, ∃ e ∈ a.written, w.dll.file.isSome ∧
    ((e ≠ .hello ∧ ∃ t', w.Opening t') ∨ ∃ t', w.Leaving t')
  | _ => False

/-- No move of the run does so. -/
def Undisturbed (bases : List ℕ) (xs : List (LogMove T)) : Prop :=
  ¬∃ us x vs, xs = us ++ x :: vs ∧ (run bases us).Intrudes x

section Decidable

instance (w : LogWorld T) (t : T) : Decidable (w.Opening t) :=
  inferInstanceAs (Decidable ((∃ a ∈ w.todo t, _) ∧ ∀ a ∈ w.todo t, _))
instance (w : LogWorld T) (t : T) : Decidable (w.Leaving t) :=
  inferInstanceAs (Decidable (_ ∧ ∀ a ∈ w.todo t, _))

variable [Fintype T]

instance (w : LogWorld T) : (x : LogMove T) → Decidable (w.Intrudes x)
  | .step t => inferInstanceAs (Decidable (∃ a ∈ w.next t, ∃ e ∈ a.written, _))
  | .call _ _ | .tick _ => .isFalse id

instance (bases : List ℕ) (xs : List (LogMove T)) : Decidable (Undisturbed bases xs) :=
  decidable_of_iff _
    (not_congr (Machine.exists_split_iff (fun us x => (run bases us).Intrudes x) xs)).symm

end Decidable

/-- The files are framed.  An empty one is about to get its `hello`, and one with a `goodbye` is
about to be closed. -/
structure Ordered (w : LogWorld T) : Prop where
  owed : ∀ t, Owed (w.todo t)
  framed : ∀ f ∈ w.dll.files, f.Framed
  fresh : ∀ f ∈ w.dll.file, f.lines = [] → ∃ t, w.Opening t
  ended : ∀ f ∈ w.dll.file, (∃ l ∈ f.lines, l.event = .goodbye) → ∃ t, w.Leaving t

omit [DecidableEq T] in
theorem ordered_start (bases : List ℕ) : Ordered (start bases : LogWorld T) where
  owed := fun _ => trivial
  framed := fun f hf => by cases hf
  fresh := fun f hf => by cases hf
  ended := fun f hf => by cases hf

/-- A thread that does something else is still opening the file. -/
theorem Opening.exec {w : LogWorld T} (howed : ∀ t, Owed (w.todo t)) {t t' : T}
    (h : w.Opening t') {a : LogAct} {rest : List LogAct} (hnext : w.todo t = a :: rest)
    (hwrite : ∀ stamp e, a ≠ .write stamp e) (hfile : w.dll.file.isSome) {d : Dll} :
    Opening (setTodo { w with dll := d } t ((w.dll.exec a).2 ++ rest)) t' := by
  by_cases ht : t' = t
  · subst ht
    have hacts := howed t'
    rw [hnext] at hacts
    obtain ⟨⟨b, hb, hhello⟩, hopens⟩ := h
    rw [hnext] at hb hopens
    unfold Opening
    rw [todo_setTodo_self]
    refine ⟨?_, fun b hb => ?_⟩
    · rcases List.mem_cons.mp hb with rfl | hb
      · cases b with
        | append stamp e =>
          refine ⟨.write stamp e, List.mem_append_left _ ?_, hhello⟩
          show _ ∈ (if w.dll.file.isSome then [LogAct.write stamp e] else [])
          rw [if_pos hfile]
          exact List.mem_cons_self
        | write stamp e => exact absurd rfl (hwrite stamp e)
        | _ => cases hhello
      · exact ⟨b, List.mem_append_right _ hb, hhello⟩
    · rcases List.mem_append.mp hb with hb | hb
      · exact (mem_exec hacts.1 hb).1
      · exact hopens b (List.mem_cons_of_mem a hb)
  · unfold Opening
    rw [todo_setTodo_of_ne _ ht]
    exact h

/-- A thread that does something else than closing the file is still leaving. -/
theorem Leaving.exec {w : LogWorld T} (howed : ∀ t, Owed (w.todo t)) {t t' : T}
    (h : w.Leaving t') {a : LogAct} {rest : List LogAct} (hnext : w.todo t = a :: rest)
    (hclose : ∀ detaching, a ≠ .closeLog detaching) {d : Dll} :
    Leaving (setTodo { w with dll := d } t ((w.dll.exec a).2 ++ rest)) t' := by
  by_cases ht : t' = t
  · subst ht
    have hacts := howed t'
    rw [hnext] at hacts
    obtain ⟨hb, hbye⟩ := h
    rw [hnext] at hb hbye
    unfold Leaving
    rw [todo_setTodo_self]
    refine ⟨?_, fun b hb he => ?_⟩
    · rcases List.mem_cons.mp hb with heq | hb
      · exact absurd heq.symm (hclose true)
      · exact List.mem_append_right _ hb
    · rcases List.mem_append.mp hb with hb | hb
      · exact hbye a List.mem_cons_self ((mem_exec hacts.1 hb).2.2 _ he (.inr rfl))
      · exact hbye b (List.mem_cons_of_mem a hb) he
  · unfold Leaving
    rw [todo_setTodo_of_ne _ ht]
    exact h

/-- **A line that does not intrude** is a `hello` if it is the first one, and no line follows a
`goodbye`. -/
theorem Ordered.write {w : LogWorld T} (h : Ordered w) {t : T} {stamp : Option ℕ} {e : LogEvent}
    {rest : List LogAct} (hnext : w.todo t = .write stamp e :: rest)
    (hquiet : ¬w.Intrudes (.step t)) :
    Ordered (setTodo { w with dll := w.dll.writeLine ⟨stamp.getD 0, e⟩ } t rest) := by
  have hacts := h.owed t
  rw [hnext] at hacts
  have howed : ∀ t', Owed ((setTodo { w with dll := w.dll.writeLine ⟨stamp.getD 0, e⟩ } t
      rest).todo t') := by
    intro t'
    by_cases ht : t' = t
    · rw [ht, todo_setTodo_self]
      exact hacts.2
    · rw [todo_setTodo_of_ne _ ht]
      exact h.owed t'
  -- with no open file the line is dropped
  cases hfile : w.dll.file with
  | none =>
    have hsame := Dll.writeLine_of_none hfile ⟨stamp.getD 0, e⟩
    refine ⟨howed, ?_, ?_, ?_⟩
    · rw [hsame]
      exact h.framed
    · intro f hf
      rw [hsame] at hf
      have hf : f ∈ w.dll.file := hf
      rw [hfile] at hf
      cases hf
    · intro f hf
      rw [hsame] at hf
      have hf : f ∈ w.dll.file := hf
      rw [hfile] at hf
      cases hf
  | some f =>
    have hmem : f ∈ w.dll.files := by
      unfold Dll.files
      rw [hfile]
      exact List.mem_append_right _ List.mem_cons_self
    have hnextw : w.next t = some (.write stamp e) := by
      unfold next
      rw [hnext]
      rfl
    -- a write that does not intrude: the opening and the leaving are over or its own
    have hnot : ¬((e ≠ .hello ∧ ∃ t', w.Opening t') ∨ ∃ t', w.Leaving t') := fun hor =>
      hquiet ⟨_, hnextw, e, rfl, by rw [hfile]; rfl, hor⟩
    have hnobye : ∀ l ∈ f.lines, l.event ≠ .goodbye := fun l hl hbye =>
      hnot (.inr (h.ended f hfile ⟨l, hl, hbye⟩))
    have hframed : LogFile.Framed { f with lines := f.lines ++ [(⟨stamp.getD 0, e⟩ : Line)] } := by
      refine ⟨fun l hl => ?_, fun l hl => ?_⟩
      -- the first line of the file is this one or was there before
      · cases hlines : f.lines with
        | nil =>
          have hl : l ∈ (f.lines ++ [(⟨stamp.getD 0, e⟩ : Line)]).head? := hl
          rw [hlines] at hl
          obtain rfl := Option.some.inj hl
          by_contra hne
          exact hnot (.inl ⟨hne, h.fresh f hfile hlines⟩)
        | cons l' ls =>
          have hl : l ∈ (f.lines ++ [(⟨stamp.getD 0, e⟩ : Line)]).head? := hl
          rw [hlines] at hl
          refine (h.framed f hmem).1 l ?_
          rw [hlines]
          exact hl
      · have hl : l ∈ (f.lines ++ [(⟨stamp.getD 0, e⟩ : Line)]).dropLast := hl
        rw [List.dropLast_concat] at hl
        exact hnobye l hl
    refine ⟨howed, fun g hg => ?_, fun g hg hempty => ?_, fun g hg hbye => ?_⟩
    · have hg : g ∈ w.dll.closed ++ (w.dll.file.map fun f =>
          { f with lines := f.lines ++ [(⟨stamp.getD 0, e⟩ : Line)] }).toList := hg
      rw [hfile] at hg
      rcases List.mem_append.mp hg with hg | hg
      · exact h.framed g (List.mem_append_left _ hg)
      · obtain rfl := List.mem_singleton.mp hg
        exact hframed
    · have hg : g ∈ w.dll.file.map fun f =>
          { f with lines := f.lines ++ [(⟨stamp.getD 0, e⟩ : Line)] } := hg
      rw [hfile] at hg
      obtain rfl := Option.some.inj hg
      simp at hempty
    · have hg : g ∈ w.dll.file.map fun f =>
          { f with lines := f.lines ++ [(⟨stamp.getD 0, e⟩ : Line)] } := hg
      rw [hfile] at hg
      obtain rfl := Option.some.inj hg
      -- a goodbye in the file can only be the line just written
      obtain ⟨l, hl, hlbye⟩ := hbye
      rcases List.mem_append.mp hl with hl | hl
      · exact absurd hlbye (hnobye l hl)
      · obtain rfl := List.mem_singleton.mp hl
        obtain ⟨hclose, hnone⟩ := hacts.1 hlbye
        refine ⟨t, ?_⟩
        unfold Leaving
        rw [todo_setTodo_self]
        exact ⟨hclose, hnone⟩

theorem owed_move {w : LogWorld T} (h : ∀ t, Owed (w.todo t)) (x : LogMove T) (t : T) :
    Owed ((w.move x).todo t) := by
  have hmoved := moved w x
  generalize w.move x = w' at hmoved
  cases hmoved with
  | stay => exact h t
  | call t' c hidle =>
    by_cases ht : t = t'
    · rw [ht, todo_setTodo_self]
      exact owed_acts c
    · rw [todo_setTodo_of_ne _ ht]
      exact h t
  | step t' a rest hnext =>
    by_cases ht : t = t'
    · rw [ht, todo_setTodo_self]
      exact owed_exec (hnext ▸ h t')
    · rw [todo_setTodo_of_ne _ ht]
      exact h t
  | tick ns => exact h t

/-- **A move that does not intrude keeps the files framed.** -/
theorem ordered_move {w : LogWorld T} (h : Ordered w) (x : LogMove T) (hquiet : ¬w.Intrudes x) :
    Ordered (w.move x) := by
  have howed := owed_move h.owed x
  have hmoved := moved w x
  generalize w.move x = w' at hmoved howed ⊢
  cases hmoved with
  | stay => exact h
  | tick ns => exact ⟨howed, h.framed, h.fresh, h.ended⟩
  | call t c hidle =>
    -- an idle thread has no `hello` and no closing to come
    refine ⟨howed, h.framed, fun f hf hempty => ?_, fun f hf hbye => ?_⟩
    · obtain ⟨t', hopening⟩ := h.fresh f hf hempty
      have hne : t' ≠ t := by
        rintro rfl
        obtain ⟨⟨a, ha, -⟩, -⟩ := hopening
        rw [hidle] at ha
        cases ha
      refine ⟨t', ?_⟩
      unfold Opening
      rw [todo_setTodo_of_ne _ hne]
      exact hopening
    · obtain ⟨t', hleaving⟩ := h.ended f hf hbye
      have hne : t' ≠ t := by
        rintro rfl
        have ha := hleaving.1
        rw [hidle] at ha
        cases ha
      refine ⟨t', ?_⟩
      unfold Leaving
      rw [todo_setTodo_of_ne _ hne]
      exact hleaving
  | step t a rest hnext =>
    have hacts := h.owed t
    rw [hnext] at hacts
    have other : (∀ withStacks ok, a ≠ .openLog withStacks ok) →
        (∀ detaching, a ≠ .closeLog detaching) → (∀ stamp e, a ≠ .write stamp e) →
          Ordered (setTodo { w with dll := (w.dll.exec a).1 } t ((w.dll.exec a).2 ++ rest)) := by
      -- the files stay as they are, and so do the threads at work on them
      intro hopen hclose hwrite
      obtain ⟨hfiles, hfile⟩ := Dll.files_exec w.dll hopen hclose hwrite
      refine ⟨howed, fun f hf => ?_, fun f hf hempty => ?_, fun f hf hbye => ?_⟩
      · have hf : f ∈ (w.dll.exec a).1.files := hf
        rw [hfiles] at hf
        exact h.framed f hf
      · have hf : f ∈ (w.dll.exec a).1.file := hf
        rw [hfile] at hf
        obtain ⟨t', ht'⟩ := h.fresh f hf hempty
        exact ⟨t', ht'.exec h.owed hnext hwrite (by rw [hf]; rfl)⟩
      · have hf : f ∈ (w.dll.exec a).1.file := hf
        rw [hfile] at hf
        obtain ⟨t', ht'⟩ := h.ended f hf hbye
        exact ⟨t', ht'.exec h.owed hnext hclose⟩
    cases a with
    | openLog withStacks ok =>
      refine ⟨howed, fun f hf => ?_, fun f hf hempty => ?_, fun f hf hbye => ?_⟩
      · have hf : f ∈ (w.dll.openFile withStacks ok).files := hf
        rw [Dll.files_openFile] at hf
        rcases List.mem_append.mp hf with hf | hf
        · exact h.framed f hf
        · split at hf
          · obtain rfl := List.mem_singleton.mp hf
            refine ⟨fun l hl => ?_, fun l hl => ?_⟩
            · cases hl
            · cases hl
          · cases hf
      · have hf : f ∈ (w.dll.openFile withStacks ok).file := hf
        cases ok with
        | false => cases hf
        | true =>
          refine ⟨t, ?_⟩
          unfold Opening
          rw [todo_setTodo_self]
          exact ⟨hacts.1.1 rfl, hacts.1.2⟩
      · have hf : f ∈ (w.dll.openFile withStacks ok).file := hf
        cases ok with
        | false => cases hf
        | true =>
          obtain rfl := Option.some.inj hf
          obtain ⟨l, hl, -⟩ := hbye
          cases hl
    | closeLog detaching =>
      refine ⟨howed, fun f hf => ?_, fun f hf => ?_, fun f hf => ?_⟩
      · have hf : f ∈ w.dll.closeFile.files := hf
        rw [Dll.files_closeFile] at hf
        exact h.framed f hf
      · cases hf
      · cases hf
    | write stamp e => exact h.write hnext hquiet
    | _ =>
      exact other (fun _ _ h => LogAct.noConfusion h) (fun _ h => LogAct.noConfusion h)
        fun _ _ h => LogAct.noConfusion h

/-- **Every file of a run that is not disturbed is framed.** -/
theorem framed_of_undisturbed {bases : List ℕ} {xs : List (LogMove T)}
    (h : Undisturbed bases xs) : ∀ f ∈ (run bases xs).dll.files, f.Framed := by
  have hordered : Ordered (run bases xs) := by
    refine Machine.run_induction move (start bases) (Undisturbed bases) (fun _ w => Ordered w) ?_
      (ordered_start bases) ?_ xs h
    · rintro xs x hall ⟨us, y, vs, rfl, hy⟩
      exact hall ⟨us, y, vs ++ [x], by simp, hy⟩
    · intro xs x hall hordered
      exact ordered_move hordered x fun hx => hall ⟨xs, x, [], rfl, hx⟩
  exact hordered.framed

/-- A log is opened, a hook reports a release on another thread, and the DLL is detached. -/
def orderlyLog : List (LogMove Bool) :=
  [.call false (.startLogging false true), .step false, .step false, .step false, .step false,
    .step false, .call true .release, .tick 5, .step true, .step true, .step true,
    .call false .detach, .step false, .step false, .step false, .step false]

/-- The hook reports the release before `StartLogging` has written its `hello`. -/
def disturbedLog : List (LogMove Bool) :=
  [.call false (.startLogging false true), .step false, .step false, .call true .release,
    .step true, .step true, .step true, .step false, .step false]

theorem framed_of_undisturbed_orderlyLog :
    (run [] orderlyLog).dll.files.map (fun f => f.lines.map Line.event)
      = [[.hello, .destroyed, .goodbye]] ∧
    ∀ f ∈ (run [] orderlyLog).dll.files, f.Framed :=
  ⟨by decide, framed_of_undisturbed (by decide)⟩

/-- The file begins with the release. -/
theorem not_framed_disturbedLog :
    ¬∀ (bases : List ℕ) (xs : List (LogMove Bool)), ∀ f ∈ (run bases xs).dll.files, f.Framed := by
  intro h
  exact absurd (h [] disturbedLog) (by decide)

/-! ### Stamps -/

open scoped List

/-- The stamps that the thread has read and not yet written. -/
def stamps (w : LogWorld T) (t : T) : List ℕ := (w.todo t).filterMap LogAct.stamp

/-- The clock is read for a line while another one waits to be written, or a line with the stamp 0
is written after a later one. -/
def Overtakes (w : LogWorld T) : LogMove T → Prop
  | .step t => ∃ a ∈ w.next t, (a.reads = true ∧ ∃ t', w.stamps t' ≠ []) ∨
    (a.writesZero = true ∧ ∃ f ∈ w.dll.file, ∃ l ∈ f.lines, l.tsNs ≠ 0)
  | _ => False

/-- No move of the run does so. -/
def InTurn (bases : List ℕ) (xs : List (LogMove T)) : Prop :=
  ¬∃ us x vs, xs = us ++ x :: vs ∧ (run bases us).Overtakes x

section Decidable

variable [Fintype T]

instance (w : LogWorld T) : (x : LogMove T) → Decidable (w.Overtakes x)
  | .step t => inferInstanceAs (Decidable (∃ a ∈ w.next t, _ ∨ (_ ∧ ∃ f ∈ w.dll.file,
      ∃ l ∈ f.lines, l.tsNs ≠ 0)))
  | .call _ _ | .tick _ => .isFalse id

instance (bases : List ℕ) (xs : List (LogMove T)) : Decidable (InTurn bases xs) :=
  decidable_of_iff _
    (not_congr (Machine.exists_split_iff (fun us x => (run bases us).Overtakes x) xs)).symm

end Decidable

/-- The stamps of the files do not decrease, and the one that is waiting is not before them. -/
structure Timed (w : LogWorld T) : Prop where
  inTime : ∀ f ∈ w.dll.files, f.InTime
  one : ∀ t, (w.stamps t).length ≤ 1
  alone : ∀ t t', w.stamps t ≠ [] → w.stamps t' ≠ [] → t = t'
  late : ∀ t, ∀ ts ∈ w.stamps t, ∀ f ∈ w.dll.file, ∀ l ∈ f.lines, l.tsNs ≤ ts
  past : ∀ f ∈ w.dll.file, ∀ l ∈ f.lines, l.tsNs ≤ w.dll.clock
  read : ∀ t, ∀ ts ∈ w.stamps t, ts ≤ w.dll.clock

omit [DecidableEq T] in
theorem timed_start (bases : List ℕ) : Timed (start bases : LogWorld T) where
  inTime := fun f hf => by cases hf
  one := fun t => Nat.zero_le 1
  alone := fun t t' h => absurd rfl h
  late := fun t ts hts => by cases hts
  past := fun f hf => by cases hf
  read := fun t ts hts => by cases hts

theorem stamps_acts (c : LogCall) : c.acts.filterMap LogAct.stamp = [] := by
  cases c with
  | attach path callstacks diags =>
    show (onAttach path callstacks diags).filterMap LogAct.stamp = []
    rw [List.filterMap_eq_nil_iff]
    intro a ha
    simp only [onAttach, sendHello, List.mem_append, List.mem_cons, List.mem_map,
      List.mem_replicate, List.not_mem_nil, or_false] at ha
    rcases ha with ((((rfl | ⟨ok, -, rfl⟩) | rfl) | ⟨-, rfl⟩) | rfl) | ⟨-, rfl⟩ <;> rfl
  | startLogging captureCallstacks ok => cases ok <;> rfl
  | _ => rfl

/-- An action that does not read the clock adds no stamp. -/
theorem stamps_exec {d : Dll} {a : LogAct} (ha : a.reads = false) :
    (d.exec a).2.filterMap LogAct.stamp <+ a.stamp.toList := by
  by_cases happend : ∃ stamp e, a = .append stamp e
  · -- the stamp goes from `Append` to the line
    obtain ⟨stamp, e, rfl⟩ := happend
    show ((if d.file.isSome then [LogAct.write stamp e] else []).filterMap LogAct.stamp) <+ _
    split
    · cases stamp <;> exact List.Sublist.refl _
    · exact List.nil_sublist _
  · have hnil : (d.exec a).2.filterMap LogAct.stamp = [] := by
      rw [List.filterMap_eq_nil_iff]
      intro b hb
      cases Dll.follows_of_mem hb with
      | write stamp e hopen => exact absurd ⟨stamp, e, rfl⟩ happend
      | append e => cases ha
      | _ => rfl
    rw [hnil]
    exact List.nil_sublist _

omit [DecidableEq T] in
/-- Less that is waiting, and no line that was not there. -/
theorem Timed.shrink {w w' : LogWorld T} (h : Timed w) (hstamps : ∀ t, w'.stamps t <+ w.stamps t)
    (hclock : w.dll.clock ≤ w'.dll.clock) (hfiles : ∀ f ∈ w'.dll.files, f.InTime)
    (hfile : ∀ f ∈ w'.dll.file, ∀ l ∈ f.lines, ∃ g ∈ w.dll.file, l ∈ g.lines) : Timed w' := by
  have hne : ∀ {t}, w'.stamps t ≠ [] → w.stamps t ≠ [] := by
    intro t ht hnil
    have hsub := hstamps t
    rw [hnil] at hsub
    exact ht (List.sublist_nil.mp hsub)
  constructor
  case inTime => exact hfiles
  case one => exact fun t => (hstamps t).length_le.trans (h.one t)
  case alone => exact fun t t' ht ht' => h.alone t t' (hne ht) (hne ht')
  case late =>
    intro t ts hts f hf l hl
    obtain ⟨g, hg, hlg⟩ := hfile f hf l hl
    exact h.late t ts ((hstamps t).subset hts) g hg l hlg
  case past =>
    intro f hf l hl
    obtain ⟨g, hg, hlg⟩ := hfile f hf l hl
    exact (h.past g hg l hlg).trans hclock
  case read => exact fun t ts hts => (h.read t ts ((hstamps t).subset hts)).trans hclock

omit [DecidableEq T] in
theorem stamps_cons {w : LogWorld T} {t : T} {a : LogAct} {rest : List LogAct}
    (hnext : w.todo t = a :: rest) :
    w.stamps t = a.stamp.toList ++ rest.filterMap LogAct.stamp := by
  unfold stamps
  rw [hnext, List.filterMap_cons]
  cases a.stamp <;> rfl

theorem stamps_setTodo (w : LogWorld T) (t : T) (acts : List LogAct) (t' : T) :
    (w.setTodo t acts).stamps t'
      = if t' = t then acts.filterMap LogAct.stamp else w.stamps t' := by
  unfold stamps
  split
  · next ht => rw [ht, todo_setTodo_self]
  · next ht => rw [todo_setTodo_of_ne _ ht]

/-- **A line in turn** is not stamped before the lines of its file. -/
theorem Timed.write {w : LogWorld T} (h : Timed w) {t : T} {stamp : Option ℕ} {e : LogEvent}
    {rest : List LogAct} (hnext : w.todo t = .write stamp e :: rest)
    (hturn : ¬w.Overtakes (.step t)) :
    Timed (setTodo { w with dll := w.dll.writeLine ⟨stamp.getD 0, e⟩ } t rest) := by
  have hstamps := stamps_cons hnext
  have hsub : ∀ t', (setTodo { w with dll := w.dll.writeLine ⟨stamp.getD 0, e⟩ } t rest).stamps t'
      <+ w.stamps t' := by
    intro t'
    rw [stamps_setTodo]
    split
    · next ht =>
      rw [ht, hstamps]
      exact List.sublist_append_right _ _
    · exact List.Sublist.refl _
  have hend : ∀ f ∈ w.dll.file, ∀ l ∈ f.lines, l.tsNs ≤ stamp.getD 0 := by
    intro f hf l hl
    cases stamp with
    | some ts =>
      refine h.late t ts ?_ f hf l hl
      rw [hstamps]
      exact List.mem_append_left _ List.mem_cons_self
    | none =>
      by_contra hlt
      refine hturn ⟨.write none e, ?_, .inr ⟨rfl, f, hf, l, hl, fun h0 => hlt ?_⟩⟩
      · unfold next
        rw [hnext]
        rfl
      · rw [h0]
        exact Nat.zero_le _
  -- nothing else can be waiting behind a stamp that is written
  have hlater : ∀ t', ∀ ts ∈ (setTodo { w with dll := w.dll.writeLine ⟨stamp.getD 0, e⟩ } t
      rest).stamps t', stamp.getD 0 ≤ ts := by
    intro t' ts hts
    cases stamp with
    | none => exact Nat.zero_le _
    | some ts' =>
      have hfull : w.stamps t = ts' :: rest.filterMap LogAct.stamp := hstamps
      have hrest : rest.filterMap LogAct.stamp = [] := by
        have hone := h.one t
        rw [hfull, List.length_cons] at hone
        exact List.length_eq_zero_iff.mp (by omega)
      have hold := (hsub t').subset hts
      have heq : t' = t := h.alone t' t (List.ne_nil_of_mem hold) (by rw [hfull]; simp)
      rw [stamps_setTodo, if_pos heq, hrest] at hts
      cases hts
  have hlines : ∀ g ∈ (w.dll.writeLine ⟨stamp.getD 0, e⟩).file, ∃ f ∈ w.dll.file,
      g.lines = f.lines ++ [⟨stamp.getD 0, e⟩] := by
    intro g hg
    obtain ⟨f, hf, rfl⟩ := Option.map_eq_some_iff.mp hg
    exact ⟨f, hf, rfl⟩
  have hclock : stamp.getD 0 ≤ w.dll.clock := by
    cases stamp with
    | none => exact Nat.zero_le _
    | some ts =>
      refine h.read t ts ?_
      rw [hstamps]
      exact List.mem_append_left _ List.mem_cons_self
  constructor
  case inTime =>
    intro g hg
    rcases List.mem_append.mp hg with hg | hg
    · exact h.inTime g (List.mem_append_left _ hg)
    · obtain ⟨f, hf, hglines⟩ := hlines g (Option.mem_toList.mp hg)
      unfold LogFile.InTime
      rw [hglines, List.pairwise_append]
      refine ⟨h.inTime f (List.mem_append_right _ (Option.mem_toList.mpr hf)),
        List.pairwise_singleton _ _, fun l hl l' hl' => ?_⟩
      obtain rfl := List.mem_singleton.mp hl'
      exact hend f hf l hl
  case one => exact fun t' => (hsub t').length_le.trans (h.one t')
  case alone =>
    intro t₁ t₂ h₁ h₂
    have hne : ∀ {t'}, (setTodo { w with dll := w.dll.writeLine ⟨stamp.getD 0, e⟩ } t
        rest).stamps t' ≠ [] → w.stamps t' ≠ [] := by
      intro t' ht' hnil
      have hs := hsub t'
      rw [hnil] at hs
      exact ht' (List.sublist_nil.mp hs)
    exact h.alone t₁ t₂ (hne h₁) (hne h₂)
  case late =>
    intro t' ts hts g hg l hl
    obtain ⟨f, hf, hglines⟩ := hlines g hg
    rw [hglines] at hl
    rcases List.mem_append.mp hl with hl | hl
    · exact h.late t' ts ((hsub t').subset hts) f hf l hl
    · obtain rfl := List.mem_singleton.mp hl
      exact hlater t' ts hts
  case past =>
    intro g hg l hl
    obtain ⟨f, hf, hglines⟩ := hlines g hg
    rw [hglines] at hl
    rcases List.mem_append.mp hl with hl | hl
    · exact h.past f hf l hl
    · obtain rfl := List.mem_singleton.mp hl
      exact hclock
  case read => exact fun t' ts hts => h.read t' ts ((hsub t').subset hts)

/-- **A move in turn keeps the stamps in order.** -/
theorem timed_move {w : LogWorld T} (h : Timed w) (x : LogMove T) (hturn : ¬w.Overtakes x) :
    Timed (w.move x) := by
  have hmoved := moved w x
  generalize w.move x = w' at hmoved ⊢
  cases hmoved with
  | stay => exact h
  | tick ns =>
    exact h.shrink (fun t => List.Sublist.refl _) (Nat.le_add_right _ _) h.inTime
      fun f hf l hl => ⟨f, hf, hl⟩
  | call t c hidle =>
    refine h.shrink (fun t' => ?_) (le_refl _) h.inTime fun f hf l hl => ⟨f, hf, hl⟩
    rw [stamps_setTodo]
    split
    · rw [stamps_acts]
      exact List.nil_sublist _
    · exact List.Sublist.refl _
  | step t a rest hnext =>
    have hstamps := stamps_cons hnext
    have hhead : a ∈ w.next t := by
      unfold next
      rw [hnext]
      rfl
    have hclock : (w.dll.exec a).1.clock = w.dll.clock := by
      cases a with
      | load base =>
        unfold Dll.exec
        dsimp only
        split <;> rfl
      | openLog withStacks ok => cases ok <;> rfl
      | _ => rfl
    have hless : a.reads = false → ∀ t',
        (setTodo { w with dll := (w.dll.exec a).1 } t ((w.dll.exec a).2 ++ rest)).stamps t'
          <+ w.stamps t' := by
      intro hreads t'
      rw [stamps_setTodo]
      split
      · next ht =>
        rw [ht, hstamps, List.filterMap_append]
        exact (stamps_exec hreads).append (List.Sublist.refl _)
      · exact List.Sublist.refl _
    have other : a.reads = false → (∀ withStacks ok, a ≠ .openLog withStacks ok) →
        (∀ detaching, a ≠ .closeLog detaching) → (∀ stamp e, a ≠ .write stamp e) →
          Timed (setTodo { w with dll := (w.dll.exec a).1 } t ((w.dll.exec a).2 ++ rest)) := by
      intro hreads hopen hclose hwrite
      obtain ⟨hfiles, hfile⟩ := Dll.files_exec w.dll hopen hclose hwrite
      refine h.shrink (hless hreads) (le_of_eq hclock.symm) (fun f hf => ?_) fun f hf l hl => ?_
      · have hf : f ∈ (w.dll.exec a).1.files := hf
        exact h.inTime f (hfiles ▸ hf)
      · have hf : f ∈ (w.dll.exec a).1.file := hf
        exact ⟨f, hfile ▸ hf, hl⟩
    cases a with
    | emit e =>
      -- nothing waits, and every line was stamped before now
      have hnone : ∀ t', w.stamps t' = [] := by
        intro t'
        by_contra hne
        exact hturn ⟨_, hhead, .inl ⟨rfl, t', hne⟩⟩
      have hrest : rest.filterMap LogAct.stamp = [] := by
        have hnil := hnone t
        rw [hstamps] at hnil
        exact (List.append_eq_nil_iff.mp hnil).2
      have hnow : ∀ t', (setTodo w t (.append (some w.dll.clock) e :: rest)).stamps t'
          = if t' = t then [w.dll.clock] else [] := by
        intro t'
        rw [stamps_setTodo]
        split
        · show w.dll.clock :: rest.filterMap LogAct.stamp = _
          rw [hrest]
        · exact hnone t'
      refine ⟨h.inTime, fun t' => ?_, fun t₁ t₂ h₁ h₂ => ?_, fun t' ts hts f hf l hl => ?_, h.past,
        fun t' ts hts => ?_⟩
      · show ((setTodo w t (.append (some w.dll.clock) e :: rest)).stamps t').length ≤ 1
        rw [hnow]
        split <;> simp
      · have hself : ∀ {t'}, (setTodo w t (.append (some w.dll.clock) e :: rest)).stamps t' ≠ [] →
            t' = t := by
          intro t' ht'
          rw [hnow] at ht'
          by_contra hne
          exact ht' (if_neg hne)
        exact (hself h₁).trans (hself h₂).symm
      · have hts : ts ∈ (setTodo w t (.append (some w.dll.clock) e :: rest)).stamps t' := hts
        rw [hnow] at hts
        split at hts
        · obtain rfl := List.mem_singleton.mp hts
          exact h.past f hf l hl
        · cases hts
      · have hts : ts ∈ (setTodo w t (.append (some w.dll.clock) e :: rest)).stamps t' := hts
        rw [hnow] at hts
        split at hts
        · obtain rfl := List.mem_singleton.mp hts
          exact le_refl _
        · cases hts
    | write stamp e => exact h.write hnext hturn
    | openLog withStacks ok =>
      refine h.shrink (hless rfl) (le_of_eq hclock.symm) (fun f hf => ?_) fun f hf l hl => ?_
      · have hf : f ∈ (w.dll.openFile withStacks ok).files := hf
        rw [Dll.files_openFile] at hf
        rcases List.mem_append.mp hf with hf | hf
        · exact h.inTime f hf
        · split at hf
          · obtain rfl := List.mem_singleton.mp hf
            exact List.Pairwise.nil
          · cases hf
      · have hf : f ∈ (w.dll.openFile withStacks ok).file := hf
        cases ok with
        | false => cases hf
        | true =>
          obtain rfl := Option.some.inj hf
          cases hl
    | closeLog detaching =>
      refine h.shrink (hless rfl) (le_of_eq hclock.symm) (fun f hf => ?_) fun f hf l hl => ?_
      · have hf : f ∈ w.dll.closeFile.files := hf
        rw [Dll.files_closeFile] at hf
        exact h.inTime f hf
      · cases hf
    | _ =>
      exact other rfl (fun _ _ h => LogAct.noConfusion h) (fun _ h => LogAct.noConfusion h)
        fun _ _ h => LogAct.noConfusion h

/-- **The stamps of every file do not decrease**, if every line is written in turn. -/
theorem inTime_of_inTurn {bases : List ℕ} {xs : List (LogMove T)} (h : InTurn bases xs) :
    ∀ f ∈ (run bases xs).dll.files, f.InTime := by
  have htimed : Timed (run bases xs) := by
    refine Machine.run_induction move (start bases) (InTurn bases) (fun _ w => Timed w) ?_
      (timed_start bases) ?_ xs h
    · rintro xs x hall ⟨us, y, vs, rfl, hy⟩
      exact hall ⟨us, y, vs ++ [x], by simp, hy⟩
    · intro xs x hall htimed
      exact timed_move htimed x fun hx => hall ⟨xs, x, [], rfl, hx⟩
  exact htimed.inTime

/-- Two hooks report, one after the other, and the log is closed without a `goodbye`. -/
def inTurnLog : List (LogMove Bool) :=
  [.call false (.startLogging false true), .step false, .step false, .step false, .step false,
    .step false, .call true .release, .tick 5, .step true, .step true, .step true,
    .call false .rename, .tick 3, .step false, .step false, .step false,
    .call false .stopLogging, .step false]

theorem inTime_of_inTurn_inTurnLog :
    (run [] inTurnLog).dll.files.map (fun f => f.lines.map Line.tsNs) = [[0, 5, 8]] ∧
    ∀ f ∈ (run [] inTurnLog).dll.files, f.InTime :=
  ⟨by decide, inTime_of_inTurn (by decide)⟩

/-- The release was reported at 5, and the `goodbye` has the stamp 0. -/
theorem not_inTime_orderlyLog :
    ¬∀ (bases : List ℕ) (xs : List (LogMove Bool)), ∀ f ∈ (run bases xs).dll.files, f.InTime := by
  intro h
  exact absurd (h [] orderlyLog) (by decide)

end LogWorld

end Dx12Track
