import Dx12Track.Launcher.Join

/-!
# The model without its location bookkeeping

Locations are derived data: a cached `effLoc` in each live object, the table
`locBytes`, and the sidecar lines that report them.  `Model.sansLoc` is the
model with all of that taken away, and every function that only keeps the
location bookkeeping up to date leaves `sansLoc` as it was.

* `View`, `Model.sansLoc` — the projection.
* `sansLoc_recomputeLoc`, `sansLoc_recomputeChildren`, … — location work is
  invisible to it.
-/

namespace Dx12Track

open Finmap

namespace LiveObject

theorem noLoc_setName (o : LiveObject) (s : WString) :
    (o.setName s).noLoc = o.noLoc.setName s := rfl
theorem noLoc_setPrevDestroyNs (o : LiveObject) (t : ℕ) :
    (o.setPrevDestroyNs t).noLoc = o.noLoc.setPrevDestroyNs t := rfl
theorem noLoc_setEtwKey (o : LiveObject) (k : ℕ) :
    (o.setEtwKey k).noLoc = o.noLoc.setEtwKey k := rfl
theorem noLoc_setOwnLoc (o : LiveObject) (l : MemLoc) :
    (o.setOwnLoc l).noLoc = o.noLoc.setOwnLoc l := rfl
theorem noLoc_setDriverSize (o : LiveObject) (n : ℕ) :
    (o.setDriverSize n).noLoc = o.noLoc.setDriverSize n := rfl
@[simp] theorem noLoc_setEffLoc (o : LiveObject) (l : MemLoc) :
    (o.setEffLoc l).noLoc = o.noLoc := rfl
@[simp] theorem noLoc_setLocReported (o : LiveObject) (b : Bool) :
    (o.setLocReported b).noLoc = o.noLoc := rfl

end LiveObject

/-- A model seen from outside: the live objects by id, and the other members. -/
structure View where
  rest : Model
  live : ℕ → Option LiveObject

namespace Model

/-- The model without its location bookkeeping. -/
def sansLoc (m : Model) : View where
  rest := { m with
    live := ∅
    s.etw.locBytes := fun _ _ => 0
    sideFile := []
    sidePrebuf := [] }
  live := fun id => (m.live.lookup id).map LiveObject.noLoc

@[simp] theorem sansLoc_sideLine (m : Model) (l : SideLine) :
    (m.sideLine l).sansLoc = m.sansLoc := by
  unfold sideLine
  split_ifs <;> rfl

/-- A write to a cached location. -/
theorem sansLoc_updLive_loc (m : Model) (id : ℕ) {f : LiveObject → LiveObject}
    (hf : ∀ o, (f o).noLoc = o.noLoc) : (m.updLive id f).sansLoc = m.sansLoc := by
  have hlive : (fun i => ((m.live.modify id f).lookup i).map LiveObject.noLoc) = m.sansLoc.live :=
    funext fun i => map_lookup_modify id i hf m.live
  unfold sansLoc
  rw [View.mk.injEq]
  exact ⟨rfl, hlive⟩

@[simp] theorem sansLoc_addLoc (m : Model) (o : LiveObject) (sign : ℤ) :
    (m.addLoc o sign).sansLoc = m.sansLoc := by
  unfold addLoc
  split_ifs <;> rfl

@[simp] theorem sansLoc_moveLoc (m : Model) (id : ℕ) (o : LiveObject) (l : MemLoc) :
    (m.moveLoc id o l).sansLoc = m.sansLoc := by
  rw [moveLoc, sansLoc_addLoc, sansLoc_updLive_loc _ _ (fun o => o.noLoc_setEffLoc l),
    sansLoc_addLoc]

@[simp] theorem sansLoc_recomputeLoc (m : Model) (id ts : ℕ) (force : Bool) :
    (m.recomputeLoc id ts force).sansLoc = m.sansLoc := by
  unfold recomputeLoc
  split
  · rfl
  · next o ho =>
    have hmoved : ∀ c : Bool, (if c then m.moveLoc id o (m.effLoc o).1 else m).sansLoc
        = m.sansLoc := by
      intro c; cases c <;> simp
    dsimp only
    split
    · rw [sansLoc_sideLine, sansLoc_updLive_loc _ _ (fun o => o.noLoc_setLocReported true), hmoved]
    · exact hmoved _

@[simp] theorem sansLoc_recomputeChildren (m : Model) (heapId ts : ℕ) :
    (m.recomputeChildren heapId ts).sansLoc = m.sansLoc := by
  unfold recomputeChildren
  generalize (m.children.lookup heapId).getD [] = kids
  induction kids generalizing m with
  | nil => rfl
  | cons k kids ih => rw [List.foldl_cons, ih, sansLoc_recomputeLoc]

@[simp] theorem sansLoc_dropToOwnLoc (m : Model) (cid ts : ℕ) :
    (m.dropToOwnLoc cid ts).sansLoc = m.sansLoc := by
  unfold dropToOwnLoc
  split
  · rfl
  · split
    · rw [sansLoc_sideLine, sansLoc_moveLoc]
    · rfl

/-- The counting of a new object's first location. -/
@[simp] theorem sansLoc_firstLoc (m : Model) (id ts : ℕ) :
    (m.firstLoc id ts).sansLoc = m.sansLoc := by
  unfold firstLoc
  split
  · rfl
  · next o _ =>
    have hupd : ((m.updLive id (·.setEffLoc (m.effLoc o).1)).addLoc
        { o with effLoc := (m.effLoc o).1 } 1).sansLoc = m.sansLoc := by
      rw [sansLoc_addLoc]
      exact sansLoc_updLive_loc m id fun o => o.noLoc_setEffLoc _
    dsimp only
    split
    · rw [sansLoc_recomputeLoc, hupd]
    · exact hupd

end Model

end Dx12Track
