import Stagehand.Proofs.Imports

/-!
# What chains do

A walk along a chain hands on parts of what it starts from, and what it puts back around a changed
part is made of the two. Variables and `this` take up what the walk yields.
-/

namespace Stagehand.Lang

variable {A : Allowance} {stage : Stage} {run : Run}

instance : Leafy Link := ⟨fun
  | .property _ _ _ => []
  | .method _ args _ _ => Leafy.leaves args
  | .index key _ _ => Leafy.leaves key⟩

instance : Leafy Storing := ⟨fun s => Leafy.leaves s.value⟩

instance : Leafy Slot := ⟨fun
  | .fixed v => Leafy.leaves v
  | .var v => Leafy.leaves v⟩

namespace Built

theorem into {s : Storing} {held : Held} (hs : Within A s) (hh : Within A held) :
    Built A stage (s.into held) := by
  unfold Storing.into
  dsimp only
  split
  · exact raise_bind rfl
  · split
    · exact pure hs
    · exact orRaise (within_assigned _ (within_held.mp hh).1 hs)

theorem sliceBounds {length : Nat} {first last : Int64} {inclusive : Bool} {pos : Place} :
    Built A stage (Lang.sliceBounds length first last inclusive pos) := by
  unfold Lang.sliceBounds
  dsimp only
  split
  · exact (pure (within_nat _)).bind fun _ _ => pure (within_of_leafless rfl)
  · split
    · exact (pure (within_nat _)).bind fun _ _ => pure (within_of_leafless rfl)
    · exact raise_bind rfl

theorem fieldBounds {first last : Int64} {inclusive : Bool} {pos : Place} :
    Built A stage (Lang.fieldBounds first last inclusive pos) := by
  have bound : ∀ n : Int64, Built A stage (do
      if 0 ≤ n && n < 64 then return n.toInt.toNat
      Eval.raise (.bitBounds 64 n.toInt) pos) := by
    intro n
    split
    · exact pure (within_nat _)
    · exact raise_leafless rfl
  unfold Lang.fieldBounds
  exact (bound first).bind fun _ _ => (bound last).bind fun _ _ => pure (within_of_leafless rfl)

theorem blobItem {object key : Value} {pos : Place} :
    Built A stage (item.blobItem pos object key) := by
  unfold item.blobItem
  split
  · split
    · exact pure (within_value_int _)
    · exact raise_leafless rfl
  · exact raise_leafless rfl

/-- A part of a value. -/
theorem item {object key : Value} {pos : Place} (ho : Within A object) :
    Built A stage (Lang.item object key pos) := by
  unfold Lang.item
  split
  · rw [within_array] at ho
    split
    · rename_i v hv
      obtain ⟨i, -, hi⟩ := Option.bind_eq_some_iff.mp hv
      exact pure (ho v (List.mem_of_getElem? hi))
    · exact raise_leafless rfl
  · exact blobItem
  · exact blobItem
  · rw [within_object, ← within_list] at ho
    exact pure (within_getD fun v hv => within_get? ho hv)
  · exact raise_leafless rfl
  · split
    · exact pure (within_value_char _)
    · exact raise_leafless rfl
  · exact sliceBounds.bind fun _ _ => pure (within_value_str _)
  · exact raise_leafless rfl
  · split
    · exact pure (within_value_bool _)
    · exact raise_leafless rfl
  · exact fieldBounds.bind fun _ _ => pure (within_value_int _)
  · exact raise_leafless rfl
  · exact raise_leafless rfl

/-- A value with another part. -/
theorem withItem {object key part : Value} {pos place : Place} (ho : Within A object)
    (hp : Within A part) : Built A stage (Lang.withItem object key part pos place) := by
  unfold Lang.withItem
  split
  · rw [within_array] at ho
    refine pure (within_array.mpr fun v hv => ?_)
    rcases List.mem_or_eq_of_mem_set hv with hv | rfl
    · exact ho v hv
    · exact hp
  · rw [within_object, ← within_list] at ho
    exact pure (within_object.mpr (within_list.mp (within_put hp ho)))
  · exact pure (within_value_str _)
  · exact raise_leafless rfl
  · exact sliceBounds.bind fun _ _ => pure (within_value_str _)
  · exact raise_leafless rfl
  · exact pure (within_value_blob _)
  · exact raise_leafless rfl
  · exact pure (within_value_int _)
  · exact raise_leafless rfl
  · exact fieldBounds.bind fun _ _ => pure (within_value_int _)
  · exact raise_leafless rfl
  · exact pure ho

theorem within_field? {name : String} {v part : Value} (hv : Within A v)
    (h : v.field? name = some part) : Within A part := by
  unfold Value.field? at h
  split at h
  · rw [within_object, ← within_list] at hv
    exact within_get? hv h
  · nomatch h

theorem within_fixedItem {length : Nat} {key fixed part : Value} (hf : Within A fixed)
    (h : fixedItem length key fixed = some part) : Within A part := by
  unfold fixedItem at h
  split at h
  · obtain ⟨i, -, h⟩ := Option.bind_eq_some_iff.mp h
    unfold Value.itemAt? at h
    split at h
    · exact within_array.mp hf part (List.mem_of_getElem? h)
    · nomatch h
  · exact within_field? hf h
  · nomatch h

theorem within_fixedPart {held : Held} {f : Value → Option Value} (hh : Within A held)
    (hf : ∀ v part, Within A v → f v = some part → Within A part) {part : Value}
    (h : held.fixed.bind f = some part) : Within A part := by
  obtain ⟨fixed, hfixed, h⟩ := Option.bind_eq_some_iff.mp h
  exact hf fixed part ((within_held.mp hh).2 fixed hfixed) h

theorem heldItem {held : Held} {key : Value} {pos : Place} (hh : Within A held) :
    Built A stage (Lang.heldItem held key pos) := by
  unfold Lang.heldItem
  refine (item (within_held.mp hh).1).bind fun v hv => pure (within_held.mpr ⟨hv, fun part h => ?_⟩)
  exact within_fixedPart hh (fun _ _ hf h => within_fixedItem hf h) h

theorem around {u : Upshot} {wrap : Value → Eval Value} (hu : Within A u)
    (hw : ∀ part, Within A part → Built A stage (wrap part)) : Built A stage (u.around wrap) := by
  obtain ⟨ho, hc⟩ := within_upshot.mp hu
  unfold Upshot.around
  split
  · exact pure hu
  · rename_i part hpart
    refine (attempt (hw part (within_option.mp hc part hpart))).bind fun r hr => ?_
    split
    · exact pure (within_upshot.mpr ⟨ho, hr⟩)
    · exact pure (within_upshot.mpr ⟨hr, within_none⟩)

theorem caughtWalk {x : Eval Upshot} (hx : Built A stage x) :
    Built A stage (Lang.caughtWalk x) := by
  refine (attempt hx).bind fun r hr => ?_
  split
  · exact pure hr
  · exact pure (within_upshot.mpr ⟨hr, within_none⟩)

section Steps

variable {storing : Option Storing} {last : Bool} {next : Held → Eval Upshot} {held : Held}

theorem walkProperty (hs : Within A storing)
    (hn : ∀ part, Within A part → Built A stage (next part)) {name : String} {pos : Pos}
    (hh : Within A held) :
    Built A stage (Lang.walkProperty storing last next name pos held) := by
  have hvalue := (within_held.mp hh).1
  unfold Lang.walkProperty
  split
  · rename_i fields hfields
    rw [hfields, within_object, ← within_list] at hvalue
    refine (caughtWalk (hn _ (within_held.mpr ⟨?_, fun part h => ?_⟩))).bind fun u hu => ?_
    · exact within_getD fun v hv => within_get? hvalue hv
    · exact within_fixedPart hh (fun _ _ hf h => within_field? hf h) h
    · refine around hu fun part hpart => pure ?_
      exact within_object.mpr (within_list.mp (within_put hpart hvalue))
  · split
    · exact raise_leafless rfl
    · exact raise_leafless rfl
    · rename_i part _ hpart
      have hp : Within A ({ value := part } : Held) :=
        within_mutable (within_property? hpart)
      exact (into (within_some.mp hs) hp).bind fun _ _ => raise_leafless rfl
    · rename_i part _ _ hpart
      refine (hn _ (within_mutable (within_property? hpart))).bind fun u hu => ?_
      exact pure (within_upshot.mpr ⟨(within_upshot.mp hu).1, within_none⟩)

theorem ensureIndexable {object key : Value} {pos : Pos} :
    Built A stage (Lang.ensureIndexable storing last object key pos) := by
  unfold Lang.ensureIndexable
  split
  · split
    · exact pure (within_unit ())
    · exact raise_leafless rfl
  · exact pure (within_unit ())

theorem walkIndex (hn : ∀ part, Within A part → Built A stage (next part)) {key : Value} {pos : Pos}
    (hh : Within A held) : Built A stage (Lang.walkIndex storing last next key pos held) := by
  refine ensureIndexable.bind fun _ _ => (heldItem hh).bind fun part hpart => ?_
  refine (caughtWalk (hn part hpart)).bind fun u hu => around hu fun part hpart => ?_
  exact withItem (within_held.mp hh).1 hpart

theorem walkMethod (hA : Serves A stage) (hrun : RunBuilt A stage run)
    (hn : ∀ part, Within A part → Built A stage (next part)) {name : String} {args : List Value}
    {pos : Pos} (ha : ∀ v ∈ args, Within A v) (hh : Within A held) :
    Built A stage (Lang.walkMethod stage run next name args pos held) := by
  refine (callMethod hA hrun hh ha).bind fun called hcalled => ?_
  obtain ⟨ho, hc⟩ := within_upshot.mp hcalled
  split
  · exact pure hcalled
  · rename_i result hresult
    rw [hresult] at ho
    refine (caughtWalk (hn _ (within_mutable ho))).bind fun u hu => ?_
    exact pure (within_upshot.mpr ⟨(within_upshot.mp hu).1, hc⟩)

theorem walkLink (hA : Serves A stage) (hrun : RunBuilt A stage run) (hs : Within A storing)
    (hn : ∀ part, Within A part → Built A stage (next part)) {link : Link} (hl : Within A link)
    (hh : Within A held) : Built A stage (Lang.walkLink stage run storing last next link held) := by
  cases link with
  | property name _ pos => exact walkProperty hs hn hh
  | method name args _ pos => exact walkMethod hA hrun hn (within_list.mp hl) hh
  | index key _ pos => exact walkIndex hn hh

/-- Along a chain, by induction on its steps: each hands a part on and wraps what comes back. -/
theorem walk (hA : Serves A stage) (hrun : RunBuilt A stage run) (hs : Within A storing) :
    ∀ {links : List Link} {held : Held}, (∀ l ∈ links, Within A l) → Within A held →
      Built A stage (Lang.walk stage run storing links held)
  | [], held, _, hh => by
    unfold Lang.walk
    split
    · exact pure (within_upshot.mpr ⟨(within_held.mp hh).1, within_none⟩)
    · refine (into hs hh).bind fun v hv => ?_
      exact pure (within_upshot.mpr ⟨within_ok.mpr within_value_unit, hv⟩)
  | link :: rest, held, hl, hh => by
    rw [List.forall_mem_cons] at hl
    unfold Lang.walk
    refine (flatten (within_held.mp hh).1).bind fun v hv => ?_
    split
    · exact pure (within_upshot.mpr ⟨within_ok.mpr within_value_unit, within_none⟩)
    · exact walkLink hA hrun hs (fun _ hp => walk hA hrun hs hl.2 hp) hl.1 (within_put_held hh hv)

end Steps

/-! ## Chains -/

theorem evalStep (hrun : RunBuilt A stage run) {s : Step} :
    Built A stage (Lang.evalStep run s) := by
  cases s with
  | property name safe pos => exact pure (within_of_leafless rfl)
  | method name args safe pos =>
      refine (mapM fun e _ => (hrun.expr e).bind fun v hv => flatten hv).bind fun vs hvs => ?_
      exact pure hvs
  | index key safe pos =>
      exact (hrun.expr key).bind fun v hv => (flatten hv).bind fun v hv => pure hv

theorem plainSlot (hA : Serves A stage) {name : String} {pos : Place} :
    Built A stage (Lang.plainSlot stage name pos) := by
  unfold Lang.plainSlot
  split
  · rename_i c hc
    split at hc
    · exact pure (within_handle.mpr (hA.builtin? hc))
    · nomatch hc
  · refine var?.bind fun v hv => ?_
    split
    · exact raise_leafless rfl
    · refine isLocked.bind fun _ _ => ?_
      dsimp only
      split
      · exact raise_bind rfl
      · exact pure hv

theorem slot (hA : Serves A stage) {name : String} {known : Bool} {pos : Place} :
    Built A stage (Lang.slot stage name known pos) := by
  refine ite (plainSlot hA) (anyFunction?.bind fun function _ => ?_)
  cases function with
  | none => exact plainSlot hA
  | some f => exact pure (within_fn.mpr (List.forall_mem_nil _))

theorem memberVars {path : ModulePath} : Built A stage (Lang.memberVars path) := by
  refine inspect (fun m hm => ?_) fun _ _ => rfl
  obtain ⟨-, -, hi, hc, -⟩ := within_frame.mp hm.frame
  dsimp only
  split
  · rename_i lib _ _ hlib
    exact pure (within_module.mp (within_library? hi hlib).2).1
  · refine pure ?_
    cases hcs : m.frame.constants with
    | none => exact within_of_leafless rfl
    | some cs => exact within_option.mp hc cs hcs
  · exact raise_leafless rfl

theorem evalMember {path : ModulePath} {name : String} {pos : Pos} :
    Built A stage (Lang.evalMember path name pos) := by
  refine memberVars.bind fun vars hvars => ?_
  split
  · rename_i v hv
    exact flatten (within_get? hvars hv)
  · exact raise_leafless rfl

theorem setThis {held : Held} {v : Value} (hh : Within A held) (hv : Within A v) :
    Built A stage (Eval.modifyFrame fun f => { f with this := some (held.put v) }) :=
  alter (fun _ hf => within_frame_this hf (within_some.mpr (within_put_held hh hv))) (fun _ => rfl)
    fun _ => rfl

/-- What a walk changed is put back where the chain starts. -/
theorem evalChain (hA : Serves A stage) (hrun : RunBuilt A stage run) {storing : Option Storing}
    (hs : Within A storing) {base : Expr} {steps : List Step} :
    Built A stage (Lang.evalChain stage run storing base steps) := by
  refine (mapM fun s _ => evalStep hrun).bind fun links hlinks => ?_
  have walk : ∀ {held : Held}, Within A held →
      Built A stage (Lang.walk stage run storing links held) :=
    fun hh => Built.walk hA hrun hs (within_list.mp hlinks) hh
  dsimp only
  split
  · refine (slot hA).bind fun s hslot => ?_
    split
    · exact (walk (within_const hslot)).bind fun u hu => valueOf hu
    · rename_i x
      have hx : Within A x := hslot
      refine (holding ((heldBy hx).bind fun held hh => walk hh)).bind fun u hu => ?_
      refine (forM_option fun v hv => ?_).bind fun _ _ => valueOf hu
      exact setVar hx (within_option.mp (within_upshot.mp hu).2 v hv)
  · refine inspect (fun m hm => ?_) fun _ _ => rfl
    have hthis := within_this hm.frame
    split
    · exact raise_leafless rfl
    · rename_i held hheld
      have hh : Within A held := within_option.mp hthis held hheld
      refine (walk hh).bind fun u hu => ?_
      refine (forM_option fun v hv => ?_).bind fun _ _ => valueOf hu
      exact setThis hh (within_option.mp (within_upshot.mp hu).2 v hv)
  · exact evalMember.bind fun v hv => (walk (within_const hv)).bind fun u hu => valueOf hu
  · refine (hrun.expr _).bind fun v hv => (flatten hv).bind fun v hv => ?_
    exact (walk (within_mutable hv)).bind fun u hu => valueOf hu

/-- What is stored was allowed, and so was where it goes. -/
theorem store (hA : Serves A stage) (hrun : RunBuilt A stage run) {op : Option BinaryOp}
    {value : Value} {pos : Pos} {target : Expr} (hv : Within A value) :
    Built A stage (Lang.store stage run op value pos target) := by
  unfold Lang.store
  dsimp only
  split
  · refine (slot hA).bind fun s hslot => ?_
    split
    · exact raise_leafless rfl
    · rename_i x
      have hx : Within A x := hslot
      refine (heldBy hx).bind fun held hh => (into hv hh).bind fun v hv => setVar hx hv
  · refine inspect (fun m hm => ?_) fun _ _ => rfl
    have hthis := within_this hm.frame
    split
    · exact raise_leafless rfl
    · rename_i held hheld
      have hh : Within A held := within_option.mp hthis held hheld
      exact (into hv hh).bind fun v hv => setThis hh hv
  · exact evalMember.bind fun _ _ => raise_leafless rfl
  · exact (evalChain hA hrun (within_some.mpr hv)).bind fun _ _ => pure (within_unit ())
  · exact raise_leafless rfl

end Built
end Stagehand.Lang
