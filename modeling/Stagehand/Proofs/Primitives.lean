import Stagehand.Proofs.Built

/-!
# Variables, calls and the machine

What the definitions of `Stagehand.Lang.Machine` are built of, one lemma for each, and what a frame
keeps when one of its parts is replaced.
-/

namespace Stagehand.Lang

variable {A : Allowance} {stage : Stage}

instance : Leafy Eval.Mark := ⟨fun _ => []⟩

/-! ## Frames -/

section Frames

variable {f : Frame}

theorem within_frame_vars {vars : List Var} (hf : Within A f) (hv : Within A vars) :
    Within A { f with vars } := by
  obtain ⟨-, ht, hi, hc, hk⟩ := within_frame.mp hf
  exact within_frame.mpr ⟨hv, ht, hi, hc, hk⟩

theorem within_frame_this {this : Option Held} (hf : Within A f) (ht : Within A this) :
    Within A { f with this } := by
  obtain ⟨hv, -, hi, hc, hk⟩ := within_frame.mp hf
  exact within_frame.mpr ⟨hv, ht, hi, hc, hk⟩

theorem within_frame_constants {constants : Option (List (String × Value))} (hf : Within A f)
    (hc : Within A constants) : Within A { f with constants } := by
  obtain ⟨hv, ht, hi, -, hk⟩ := within_frame.mp hf
  exact within_frame.mpr ⟨hv, ht, hi, hc, hk⟩

theorem within_vars (hf : Within A f) : ∀ v ∈ f.vars, Within A v :=
  within_list.mp (within_frame.mp hf).1

theorem within_this (hf : Within A f) : Within A f.this := (within_frame.mp hf).2.1

theorem within_put_held {h : Held} {v : Value} (hh : Within A h) (hv : Within A v) :
    Within A (h.put v) := within_held.mpr ⟨hv, (within_held.mp hh).2⟩

theorem within_alterVar {name : String} {g : Var → Var} (hg : ∀ v, Within A v → Within A (g v)) :
    ∀ {vars : List Var}, (∀ v ∈ vars, Within A v) → ∀ v ∈ Eval.alterVar name g vars, Within A v
  | [], h => h
  | x :: rest, h => by
    rw [List.forall_mem_cons] at h
    rw [Eval.alterVar]
    split
    · exact List.forall_mem_cons.mpr ⟨hg x h.1, h.2⟩
    · exact List.forall_mem_cons.mpr ⟨h.1, within_alterVar hg h.2⟩

/-- What parameters are given makes the variables of a function. -/
theorem within_params {params : List String} {args : List Value} (ha : ∀ v ∈ args, Within A v) :
    Within A ((params.zip args).map fun (name, value) =>
      ({ name, held := { value } } : Var)).reverse := by
  rw [within_list]
  intro v hv
  obtain ⟨⟨name, value⟩, hmem, rfl⟩ := List.mem_map.mp (List.mem_reverse.mp hv)
  exact within_mutable (ha value (List.of_mem_zip hmem).2)

end Frames

/-! ## Parts of runs -/

namespace Built

section Parts

variable {α : Type} [Leafy α]

theorem valueOf {u : Upshot} (hu : Within A u) : Built A stage (Eval.valueOf u) := by
  unfold Eval.valueOf
  have ho := (within_upshot.mp hu).1
  split
  · rename_i v hv
    exact pure (within_ok.mp (hv ▸ ho))
  · rename_i h hh
    exact throw (within_error.mp (hh ▸ ho))

/-- What a run was halted by is passed on. -/
theorem resume : ∀ {r : Except Halt α}, Within A r →
    Built A stage (match r with
      | .ok a => return a
      | .error h => MonadExcept.throw h : Eval α)
  | .ok _, hr => pure hr
  | .error _, hr => throw hr

theorem deeper {x : Eval α} (hx : Built A stage x) : Built A stage (Eval.deeper x) := by
  unfold Eval.deeper
  refine inspect (fun m hm => ?_) fun _ _ => rfl
  refine bind (alter (fun _ hf => hf) (fun _ => rfl) fun _ => rfl) fun _ _ => ?_
  refine (attempt hx).bind fun r hr => ?_
  exact bind (alter (fun _ hf => hf) (fun _ => rfl) fun _ => rfl) fun _ _ => resume hr

theorem var? {name : String} : Built A stage (Eval.var? name) :=
  inspect (fun _ hm => pure <| within_option.mpr fun v hv =>
    within_vars hm.frame v (List.mem_of_find?_eq_some hv)) fun _ _ => rfl

theorem pushVar {v : Var} (hv : Within A v) : Built A stage (Eval.pushVar v) :=
  alter (fun _ hf => within_frame_vars hf <|
    within_list.mpr (List.forall_mem_cons.mpr ⟨hv, within_vars hf⟩)) (fun _ => rfl) fun _ => rfl

theorem bindVar {name : String} {v : Value} (hv : Within A v) : Built A stage (Eval.bind name v) :=
  pushVar (within_mutable hv)

theorem heldBy {v : Var} (hv : Within A v) : Built A stage (Eval.heldBy v) := by
  unfold Eval.heldBy
  split
  · rename_i cell hc
    have hcell : A (.cell cell) := within_shared.mp (hc ▸ (within_held.mp hv).1)
    refine inspect (fun m hm => pure ?_) fun _ _ => rfl
    cases hh : m.realm.heap[cell]? with
    | none => exact within_of_leafless rfl
    | some held => exact hm.cells cell held hh hcell
  · exact pure hv

theorem setVar {v : Var} {value : Value} (hv : Within A v) (hvalue : Within A value) :
    Built A stage (Eval.setVar v value) := by
  unfold Eval.setVar
  split
  · rename_i cell hc
    exact setCell (within_shared.mp (hc ▸ (within_held.mp hv).1)) hvalue
  · refine alter (fun _ hf => within_frame_vars hf (within_list.mpr ?_)) (fun _ => rfl) fun _ => rfl
    refine within_alterVar (fun x hx => ?_) (within_vars hf)
    exact within_var.mpr (within_put_held (within_var.mp hx) hvalue)

theorem shareVar {v : Var} (hv : Within A v) : Built A stage (Eval.shareVar v) := by
  unfold Eval.shareVar
  split
  · exact pure (within_unit ())
  · refine newCell hv fun cell hc => ?_
    refine alter (fun _ hf => within_frame_vars hf (within_list.mpr ?_)) (fun _ => rfl) fun _ => rfl
    exact within_alterVar (fun x _ => within_mutable (within_shared.mpr hc))
      (within_vars hf)

theorem isLocked {v : Value} : Built A stage (Eval.isLocked v) :=
  inspect (fun _ _ => pure (within_bool _)) fun _ _ => rfl

theorem holding {v : Var} {x : Eval α} (hx : Built A stage x) :
    Built A stage (Eval.holding v x) := by
  unfold Eval.holding
  split
  · refine inspect (fun m _ => ?_) fun _ _ => rfl
    refine bind (alter (fun _ hf => hf) (fun _ => rfl) fun _ => rfl) fun _ _ => ?_
    refine (attempt hx).bind fun r hr => ?_
    exact bind (alter (fun _ hf => hf) (fun _ => rfl) fun _ => rfl) fun _ _ => resume hr
  · exact hx

theorem mark : Built A stage Eval.mark :=
  inspect (fun _ _ => pure (within_of_leafless rfl)) fun _ _ => rfl

theorem rewind {mark : Eval.Mark} : Built A stage (Eval.rewind mark) :=
  modifyFrame
    (fun f hf => by
      obtain ⟨hv, ht, hi, hc, hk⟩ := within_frame.mp hf
      refine within_frame.mpr
        ⟨within_list.mpr fun v hmem => ?_, ht, within_list.mpr fun v hmem => ?_, hc, hk⟩
      · exact within_list.mp hv v (List.mem_of_mem_drop hmem)
      · exact within_list.mp hi v (List.mem_of_mem_drop hmem))
    fun _ => ⟨fun _ h => List.mem_of_mem_drop h, fun _ h => h⟩

theorem enclosed {x : Eval α} (hx : Built A stage x) : Built A stage (Eval.enclosed x) := by
  unfold Eval.enclosed
  refine mark.bind fun _ _ => (attempt hx).bind fun r hr => ?_
  exact rewind.bind fun _ _ => resume hr

theorem function? {name : String} {arity : Nat} : Built A stage (Eval.function? name arity) :=
  inspect (fun _ _ => pure (within_option.mpr fun f _ => within_fnDef f)) fun _ _ => rfl

theorem anyFunction? {name : String} : Built A stage (Eval.anyFunction? name) :=
  inspect (fun _ _ => pure (within_option.mpr fun f _ => within_fnDef f)) fun _ _ => rfl

theorem library {path : ModulePath} : Built A stage (Eval.library path) := by
  refine inspect (fun m hm => ?_) fun _ _ => rfl
  split
  · rename_i ms heq
    exact pure (within_pair.mpr (within_library? (within_frame.mp hm.frame).2.2.1 heq))
  · exact raise_leafless rfl

theorem placed {pos : Place} {x : Eval α} (hx : Built A stage x) :
    Built A stage (Lang.placed pos x) := by
  refine (attempt hx).bind fun r hr => ?_
  split
  · exact pure hr
  · exact throw (within_placed.mpr hr)
  · exact throw hr

end Parts

end Built
end Stagehand.Lang
