import Mathlib.Logic.Relation
import Stagehand.Proofs.Effects

/-!
# Moves of a machine

A run changes a machine by moves of five kinds: it changes the frame, has an effect on the world,
makes a cell, puts a value into a cell, or keeps an evaluated library. A move within an allowance
touches no cell and no store beyond it and brings nothing in from there. `Does` says of a run that
it makes such moves only and yields what is allowed; a fact about every script is then one lemma for
each kind of move.
-/

namespace Stagehand

namespace Lang

/-- All that a run can get at, and all that it will have made, is within the allowance. -/
structure Machine.Confined (A : Allowance) (m : Machine) : Prop where
  frame : Within A m.frame
  cells : m.realm.heap.Closed A
  fresh : ∀ cell, m.realm.heap.size ≤ cell → A (.cell cell)
  modules : Within A m.realm.modules
  world : m.world.Closed A

theorem Machine.confined_everything (m : Machine) : m.Confined fun _ => True :=
  ⟨within_everything _, fun _ _ _ _ => within_everything _, fun _ _ => trivial,
    within_everything _, fun _ d _ _ => within_everything d⟩

/-- One move of a machine within an allowance. -/
inductive Move (A : Allowance) (m : Machine) : Machine → Prop
  | frame (f : Frame) (hf : Within A f) : Move A m { m with frame := f }
  | effect (e : Effect) (he : e.Allowed A) : Move A m { m with world := e.apply m.world }
  | newCell (held : Held) (hh : Within A held) :
      Move A m { m with realm := { m.realm with heap := m.realm.heap.push held } }
  | setCell (cell : CellId) (v : Value) (hc : A (.cell cell)) (hv : Within A v) :
      Move A m { m with realm := { m.realm with heap := m.realm.heap.modify cell (·.put v) } }
  | keep (file : FilePath) (c : CachedModule) (hc : Within A c) :
      Move A m { m with realm := { m.realm with
        modules := (file, c) :: m.realm.modules.filter (·.1 != file) } }

/-- Moves, one after the other. -/
abbrev Moves (A : Allowance) : Machine → Machine → Prop := Relation.ReflTransGen (Move A)

theorem Heap.Closed.push {A : Allowance} {h : Heap} (hh : h.Closed A) {held : Held}
    (hv : Within A held) : Heap.Closed A (h.push held) := by
  intro cell held' hc hA
  rw [Array.getElem?_push] at hc
  split at hc
  · cases hc
    exact hv
  · exact hh cell held' hc hA

theorem Heap.Closed.modify {A : Allowance} {h : Heap} (hh : h.Closed A) {cell : CellId} {v : Value}
    (hv : Within A v) : Heap.Closed A (h.modify cell (·.put v)) := by
  intro other held hc hA
  rw [Array.getElem?_modify] at hc
  split at hc
  · obtain ⟨before, hb, rfl⟩ := Option.map_eq_some_iff.mp hc
    exact within_held.mpr ⟨hv, (within_held.mp (hh other before hb hA)).2⟩
  · exact hh other held hc hA

/-- A move leaves all that the run can get at within the allowance. -/
theorem Move.confined {A : Allowance} {m m' : Machine} (h : Move A m m') (hm : m.Confined A) :
    m'.Confined A := by
  cases h with
  | frame f hf => exact ⟨hf, hm.cells, hm.fresh, hm.modules, hm.world⟩
  | effect e he => exact ⟨hm.frame, hm.cells, hm.fresh, hm.modules, Effect.closed he hm.world⟩
  | newCell held hh =>
      refine ⟨hm.frame, hm.cells.push hh, fun cell hc => hm.fresh cell ?_, hm.modules, hm.world⟩
      simp only [Array.size_push] at hc
      omega
  | setCell cell v hc hv =>
      refine ⟨hm.frame, hm.cells.modify hv, fun cell hc => hm.fresh cell ?_, hm.modules, hm.world⟩
      simpa only [Array.size_modify] using hc
  | keep file c hc =>
      refine ⟨hm.frame, hm.cells, hm.fresh, within_list.mpr fun e he => ?_, hm.world⟩
      rcases List.mem_cons.mp he with rfl | he
      · exact within_pair.mpr ⟨within_filePath file, hc⟩
      · exact within_list.mp hm.modules e (List.mem_filter.mp he).1

theorem Moves.confined {A : Allowance} {m m' : Machine} (h : Moves A m m') (hm : m.Confined A) :
    m'.Confined A := by
  induction h with
  | refl => exact hm
  | tail _ hmove ih => exact hmove.confined ih

end Lang
end Stagehand
