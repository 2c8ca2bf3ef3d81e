import Stagehand.Proofs.ParallelCalls

/-!
# Chains, side by side

The parts of values at keys, the steps into them, and the walks along chains, one lemma for each
definition. Whether a step can be taken depends on the kind of a value and on its keys, never on the
numbers in it.
-/

namespace Stagehand.Lang
namespace Alike

variable {τ : Pairing}

instance : Renames Storing := ⟨fun ρ s => { s with value := ρ.on s.value }⟩

instance : Renames Link := ⟨fun ρ link =>
  match link with
  | .method name args safe pos => .method name (ρ.on args) safe pos
  | .index key safe pos => .index (ρ.on key) safe pos
  | link => link⟩

instance : Renames Slot := ⟨fun ρ s =>
  match s with
  | .fixed v => .fixed (ρ.on v)
  | .var v => .var (ρ.on v)⟩

section Parts

theorem into (s : Storing) (held : Held) :
    Alike τ (s.into held) ((τ.on s).into (τ.on held)) := by
  unfold Storing.into
  rw [on_held_isConstant]
  refine branch (raise rfl) ?_
  rw [show (τ.on s).op = s.op from rfl]
  cases s.op with
  | none => exact pure rfl
  | some op => exact orRaise (assigned_on op held.value s.value)

theorem sliceBounds (length : Nat) (first last : Int64) (inclusive : Bool) (pos : Place) :
    Alike τ (Lang.sliceBounds length first last inclusive pos)
      (Lang.sliceBounds length first last inclusive pos) := by
  unfold Lang.sliceBounds
  refine branch (bind (pure rfl) fun (_ : Nat) => pure rfl) ?_
  cases place? first length with
  | some i => exact bind (pure rfl) fun (_ : Nat) => pure rfl
  | none => exact bind (raise rfl) fun (_ : Nat) => pure rfl

theorem fieldBounds (first last : Int64) (inclusive : Bool) (pos : Place) :
    Alike τ (Lang.fieldBounds first last inclusive pos)
      (Lang.fieldBounds first last inclusive pos) := by
  have bound (n : Int64) : Alike τ (do
      if 0 ≤ n && n < 64 then return n.toInt.toNat
      Eval.raise (.bitBounds 64 n.toInt) pos : Eval Nat) (do
      if 0 ≤ n && n < 64 then return n.toInt.toNat
      Eval.raise (.bitBounds 64 n.toInt) pos) := branch (pure rfl) (raise rfl)
  exact bind (bound first) fun _ => bind (bound last) fun _ => pure rfl

theorem item (object key : Value) (pos : Place) :
    Alike τ (Lang.item object key pos) (Lang.item (τ.on object) (τ.on key) pos) := by
  have refused (expected : String) (k : Value) :
      Alike τ (Eval.raise (.wrongType k.typePath expected) pos : Eval Value)
        (Eval.raise (.wrongType (τ.on k).typePath expected) pos) := by
    rw [typePath_on]
    exact raise rfl
  have partless (v : Value) :
      Alike τ
        (Eval.raise (.notIndexable (v.typeName ++ " [" ++ key.typeName ++ "]")) pos : Eval Value)
        (Eval.raise (.notIndexable ((τ.on v).typeName ++ " [" ++ (τ.on key).typeName ++ "]"))
          pos) := by
    rw [typeName_on, typeName_on]
    exact raise rfl
  cases object with
  | array items =>
      rw [on_value_array]
      cases key with
      | int n =>
          have hitem : (place? n (items.map τ.on).length).bind ((items.map τ.on)[·]?) =
              ((place? n items.length).bind (items[·]?)).map τ.on := by
            rw [List.length_map, Option.map_bind]
            congr 1
            funext i
            exact List.getElem?_map
          rw [on_value_int, Lang.item, Lang.item, hitem, List.length_map]
          cases (place? n items.length).bind (items[·]?) with
          | some v => exact pure rfl
          | none => exact raise rfl
      | _ => exact refused _ _
  | object fields =>
      rw [on_value_object]
      cases key with
      | str key =>
          rw [on_value_str, Lang.item, Lang.item, Entries.get?_on]
          refine pure ?_
          cases Entries.get? key fields <;> rfl
      | _ => exact refused _ _
  | str s =>
      cases key with
      | int n =>
          rw [on_value_str, on_value_int, Lang.item]
          cases (place? n s.length).bind (s.toList[·]?) with
          | some c => exact pure rfl
          | none => exact raise rfl
      | range first last inclusive => exact bind (sliceBounds _ _ _ _ _) fun _ => pure rfl
      | _ => exact refused _ _
  | blob bytes =>
      cases key with
      | int n =>
          rw [on_value_blob, on_value_int, Lang.item, item.blobItem]
          cases (place? n bytes.length).bind (bytes[·]?) with
          | some b => exact pure rfl
          | none => exact raise rfl
      | _ => exact refused _ _
  | int bits =>
      cases key with
      | int n =>
          rw [on_value_int, on_value_int, Lang.item]
          cases place? n 64 with
          | some i => exact pure rfl
          | none => exact raise rfl
      | range first last inclusive => exact bind (fieldBounds _ _ _ _) fun _ => pure rfl
      | _ => exact refused _ _
  | _ => exact partless _

theorem withItem (object key part : Value) (pos place : Place) :
    Alike τ (Lang.withItem object key part pos place)
      (Lang.withItem (τ.on object) (τ.on key) (τ.on part) pos place) := by
  have refused (expected : String) (v : Value) :
      Alike τ (Eval.raise (.wrongType v.typeName expected) pos : Eval Value)
        (Eval.raise (.wrongType (τ.on v).typeName expected) pos) := by
    rw [typeName_on]
    exact raise rfl
  cases object with
  | array items =>
      cases key with
      | int n =>
          rw [on_value_array, on_value_int, Lang.withItem, Lang.withItem, List.length_map,
            ← List.map_set]
          exact pure (on_value_array _).symm
      | _ => exact pure rfl
  | object fields =>
      cases key with
      | str key =>
          rw [on_value_object, on_value_str, Lang.withItem, Lang.withItem, Entries.put_on]
          exact pure (on_value_object _).symm
      | _ => exact pure rfl
  | str s =>
      cases key with
      | int n =>
          cases part with
          | char c => exact pure rfl
          | _ => exact refused _ _
      | range first last inclusive =>
          cases part with
          | str new => exact bind (sliceBounds _ _ _ _ _) fun _ => pure rfl
          | _ => exact refused _ _
      | _ => exact pure rfl
  | blob bytes =>
      cases key with
      | int n =>
          cases part with
          | int b => exact pure rfl
          | _ => exact refused _ _
      | _ => exact pure rfl
  | int bits =>
      cases key with
      | int n =>
          cases part with
          | bool b => exact pure rfl
          | _ => exact refused _ _
      | range first last inclusive =>
          cases part with
          | int new => exact bind (fieldBounds _ _ _ _) fun _ => pure rfl
          | _ => exact refused _ _
      | _ => exact pure rfl
  | _ => exact pure rfl

theorem fixedItem_on (length : Nat) (key fixed : Value) :
    Lang.fixedItem length (τ.on key) (τ.on fixed) = (Lang.fixedItem length key fixed).map τ.on := by
  cases key with
  | int n =>
      rw [on_value_int, Lang.fixedItem, Lang.fixedItem, Option.map_bind]
      congr 1
      funext i
      exact itemAt?_on i fixed
  | str name => exact field?_on name fixed
  | _ => rfl

theorem heldItem (held : Held) (key : Value) (pos : Place) :
    Alike τ (Lang.heldItem held key pos) (Lang.heldItem (τ.on held) (τ.on key) pos) := by
  obtain ⟨value, fixed⟩ := held
  refine bind (item value key pos) fun part => ?_
  have same (length : Nat) :
      Held.mk (τ.on part) ((fixed.map τ.on).bind (Lang.fixedItem length (τ.on key))) =
        τ.on (Held.mk part (fixed.bind (Lang.fixedItem length key))) := by
    cases fixed with
    | none => rfl
    | some fixed => exact congrArg (Held.mk _) (fixedItem_on length key fixed)
  cases value with
  | array items =>
      rw [on_held_mk, on_value_array]
      dsimp only
      rw [List.length_map]
      exact pure (same items.length)
  | _ => exact pure (same 0)

theorem around (u : Upshot) {wrap wrap' : Value → Eval Value}
    (hwrap : ∀ v, Alike τ (wrap v) (wrap' (τ.on v))) :
    Alike τ (u.around wrap) ((τ.on u).around wrap') := by
  obtain ⟨outcome, changed⟩ := u
  cases changed with
  | none => exact pure rfl
  | some part =>
      refine bind (attempt (hwrap part)) fun r => ?_
      cases r with
      | ok whole => exact pure rfl
      | error h => exact pure rfl

theorem caughtWalk {x y : Eval Upshot} (hx : Alike τ x y) :
    Alike τ (Lang.caughtWalk x) (Lang.caughtWalk y) := by
  refine bind (attempt hx) fun r => ?_
  cases r with
  | ok u => exact pure rfl
  | error h => exact pure rfl

end Parts

theorem isIndexable_on (v : Value) : isIndexable (τ.on v) = isIndexable v := by cases v <;> rfl

theorem ensureIndexable (storing : Option Storing) (last : Bool) (object key : Value) (pos : Pos) :
    Alike τ (Lang.ensureIndexable storing last object key pos)
      (Lang.ensureIndexable (storing.map τ.on) last (τ.on object) (τ.on key) pos) := by
  cases storing with
  | none => exact pure rfl
  | some s =>
      cases last with
      | false => exact pure rfl
      | true =>
          have hstored : (τ.on s).value.typeName = s.value.typeName := typeName_on s.value
          rw [Option.map_some, Lang.ensureIndexable, Lang.ensureIndexable, isIndexable_on,
            typeName_on, typeName_on, hstored]
          exact branch (pure rfl) (raise rfl)

/-- The step into a property of what is no object. -/
theorem walkProperty_plain {storing : Option Storing} {last : Bool} {next : Held → Eval Upshot}
    {name : String} {pos : Pos} {held : Held}
    (h : ∀ fields, held.value = .object fields → False) :
    Lang.walkProperty storing last next name pos held =
      match storing, last, property? name held.value with
      | some { op := none, value, .. }, true, _ =>
          Eval.raise (noSetter name held.value value) (some pos)
      | _, _, none => Eval.raise (noGetter name held.value) (some pos)
      | some s, true, some part => do
          Eval.raise (noSetter name held.value (← s.into { value := part })) (some pos)
      | _, _, some part => return { ← next { value := part } with changed := none } := by
  unfold Lang.walkProperty
  split
  · rename_i fields hfields
    exact (h fields hfields).elim
  · rfl

section Steps

variable {storing : Option Storing} {last : Bool} {next next' : Held → Eval Upshot}
  (hnext : ∀ held, Alike τ (next held) (next' (τ.on held)))
include hnext

theorem walkProperty (name : String) (pos : Pos) (held : Held) :
    Alike τ (Lang.walkProperty storing last next name pos held)
      (Lang.walkProperty (storing.map τ.on) last next' name pos (τ.on held)) := by
  have noSetter (stored : Value) :
      Alike τ (Eval.raise (noSetter name held.value stored) (some pos) : Eval Upshot)
        (Eval.raise (noSetter name (τ.on held.value) (τ.on stored)) (some pos)) := by
    unfold Lang.noSetter
    rw [typeName_on, typeName_on]
    exact raise rfl
  have noGetter : Alike τ (Eval.raise (noGetter name held.value) (some pos) : Eval Upshot)
      (Eval.raise (noGetter name (τ.on held.value)) (some pos)) := by
    unfold Lang.noGetter
    rw [typeName_on]
    exact raise rfl
  by_cases hobject : ∃ fields, held.value = .object fields
  · obtain ⟨value, fixed⟩ := held
    obtain ⟨fields, rfl⟩ := hobject
    rw [on_held_mk, on_value_object]
    have hpart : Held.mk ((Entries.get? name (fields.map τ.on)).getD .unit)
        ((fixed.map τ.on).bind (·.field? name)) =
        τ.on (Held.mk ((Entries.get? name fields).getD .unit) (fixed.bind (·.field? name))) := by
      refine congrArg₂ Held.mk ?_ ?_
      · rw [Entries.get?_on]
        cases Entries.get? name fields <;> rfl
      · cases fixed with
        | none => rfl
        | some fixed => exact field?_on name fixed
    unfold Lang.walkProperty
    dsimp only
    rw [hpart]
    refine bind (caughtWalk (hnext _)) fun u => around u fun part => pure ?_
    rw [Entries.put_on, on_value_object]
  · have hplain (fields) (h : held.value = .object fields) : False := hobject ⟨fields, h⟩
    have hplain' (fields) (h : (τ.on held).value = .object fields) : False := by
      obtain ⟨fields, h, -⟩ := on_eq_object.mp h
      exact hobject ⟨fields, h⟩
    rw [walkProperty_plain hplain, walkProperty_plain hplain', on_held_value, property?_on]
    have hwithin {part : Value} (h : property? name held.value = some part) :
        τ.on part = part := on_of_within (within_property? h)
    cases hpart : property? name held.value with
    | none =>
        cases storing with
        | none => exact noGetter
        | some s =>
            obtain ⟨op, value, pos, target, place⟩ := s
            cases last with
            | false => cases op <;> exact noGetter
            | true =>
                cases op with
                | none => exact noSetter value
                | some op => exact noGetter
    | some part =>
        have read : Alike τ (do return { ← next { value := part } with changed := none })
            (do return { ← next' { value := part } with changed := none }) := by
          have h := hnext { value := part }
          rw [on_held_mk, hwithin hpart] at h
          exact bind h fun u => pure rfl
        cases storing with
        | none => exact read
        | some s =>
            obtain ⟨op, value, pos, target, place⟩ := s
            cases last with
            | false => cases op <;> exact read
            | true =>
                cases op with
                | none => exact noSetter value
                | some op =>
                    have h := into (τ := τ) ⟨some op, value, pos, target, place⟩ { value := part }
                    rw [on_held_mk, hwithin hpart] at h
                    exact bind h noSetter

theorem walkIndex (key : Value) (pos : Pos) (held : Held) :
    Alike τ (Lang.walkIndex storing last next key pos held)
      (Lang.walkIndex (storing.map τ.on) last next' (τ.on key) pos (τ.on held)) := by
  have hpos : (storing.map τ.on).map (·.pos) = storing.map (·.pos) := by cases storing <;> rfl
  refine bind (ensureIndexable storing last held.value key pos) fun _ => ?_
  refine bind (heldItem held key (some pos)) fun part => ?_
  refine bind (caughtWalk (hnext part)) fun u => around u fun part => ?_
  exact hpos ▸ withItem held.value key part _ _

end Steps

section Walks

variable [τ.Injective] {stage : Stage} {run run' : Run}
  (hrun : ∀ job, Alike τ (run job) (run' (τ.on job)))
include hrun

theorem walkMethod {next next' : Held → Eval Upshot}
    (hnext : ∀ held, Alike τ (next held) (next' (τ.on held))) (name : String) (args : List Value)
    (pos : Pos) (held : Held) :
    Alike τ (Lang.walkMethod stage run next name args pos held)
      (Lang.walkMethod (τ.on stage) run' next' name (args.map τ.on) pos (τ.on held)) := by
  refine bind (callMethod hrun held name args (some pos)) fun called => ?_
  obtain ⟨outcome, changed⟩ := called
  cases outcome with
  | error h => exact pure rfl
  | ok result => exact bind (caughtWalk (hnext { value := result })) fun u => pure rfl

variable (stage) in
/-- Along a chain, by induction on its steps. -/
theorem walk (storing : Option Storing) : ∀ (links : List Link) (held : Held),
    Alike τ (Lang.walk stage run storing links held)
      (Lang.walk (τ.on stage) run' (storing.map τ.on) (links.map τ.on) (τ.on held))
  | [], held => by
    unfold Lang.walk
    cases storing with
    | none => exact pure rfl
    | some s => exact bind (into s held) fun v => pure rfl
  | link :: rest, held => by
    have hnext := walk storing rest
    have hskips (v : Value) : (τ.on link).skips (τ.on v) = link.skips v := by
      cases v <;> cases link <;> rfl
    unfold Lang.walk
    refine bind (flatten held.value) fun v => ?_
    rw [hskips]
    refine branch (pure rfl) ?_
    rw [List.isEmpty_map]
    cases link with
    | property name safe pos => exact walkProperty hnext name pos (held.put v)
    | method name args safe pos => exact walkMethod hrun hnext name args pos (held.put v)
    | index key safe pos => exact walkIndex hnext key pos (held.put v)

omit [τ.Injective] in
theorem evalStep (s : Step) : Alike τ (Lang.evalStep run s) (Lang.evalStep run' s) := by
  cases s with
  | property name safe pos => exact pure rfl
  | method name args safe pos =>
      refine bind (mapM_same (fun e => bind (hrun (.expr e)) flatten) args) fun vs => pure rfl
  | index key safe pos =>
      exact bind (hrun (.expr key)) fun v => bind (flatten v) fun v => pure rfl

omit hrun [τ.Injective] in
theorem builtin?_on (name : String) :
    (τ.on stage).builtin? name = (stage.builtin? name).map τ.on := by
  fun_cases Stage.builtin? stage name
  case case4 => rw [Stage.builtin?] <;> first | rfl | assumption
  all_goals rfl

omit hrun [τ.Injective] in
theorem plainSlot (name : String) (pos : Place) :
    Alike τ (Lang.plainSlot stage name pos) (Lang.plainSlot (τ.on stage) name pos) := by
  have global :
      (if (τ.on stage).libraries.isGlobal name then (τ.on stage).builtin? name else none) =
      (if stage.libraries.isGlobal name then stage.builtin? name else none).map τ.on := by
    rw [builtin?_on, on_stage_libraries]
    split <;> rfl
  unfold Lang.plainSlot
  rw [global]
  cases if stage.libraries.isGlobal name then stage.builtin? name else none with
  | some c => exact pure rfl
  | none =>
      refine bind (var? name) fun v => ?_
      cases v with
      | none => exact raise rfl
      | some v => exact bind (isLocked v.held.value) fun b => branch (raise rfl) (pure rfl)

omit hrun [τ.Injective] in
variable (stage) in
theorem slot (name : String) (known : Bool) (pos : Place) :
    Alike τ (Lang.slot stage name known pos) (Lang.slot (τ.on stage) name known pos) := by
  refine branch (plainSlot name pos) (bind (anyFunction? name) fun f => ?_)
  cases f with
  | some f => exact pure (congrArg Slot.fixed (on_value_fn f.name [] (some f)).symm)
  | none => exact plainSlot name pos

omit hrun [τ.Injective] in
theorem memberVars (path : ModulePath) :
    Alike τ (Lang.memberVars path) (Lang.memberVars path) := by
  refine look fun m n hm => ?_
  dsimp only
  rw [hm.frame, on_frame_imports, on_frame_constants, library?_on]
  cases Eval.library? path m.frame.imports with
  | some ms => exact pure (on_module_vars ms.2)
  | none =>
      rw [on_option, Option.map_none]
      by_cases hglobal : path.names = ["global"]
      · rw [hglobal]
        refine pure ?_
        cases m.frame.constants <;> rfl
      · split
        · contradiction
        · contradiction
        · exact raise rfl

omit hrun [τ.Injective] in
theorem evalMember (path : ModulePath) (name : String) (pos : Pos) :
    Alike τ (Lang.evalMember path name pos) (Lang.evalMember path name pos) := by
  refine bind (memberVars path) fun vars => ?_
  rw [on_list, Entries.get?_on]
  cases Entries.get? name vars with
  | some v => exact flatten v
  | none => exact raise rfl

theorem evalChain (storing : Option Storing) (base : Expr) (steps : List Step) :
    Alike τ (Lang.evalChain stage run storing base steps)
      (Lang.evalChain (τ.on stage) run' (storing.map τ.on) base steps) := by
  have links : Alike τ (steps.mapM (Lang.evalStep run)) (steps.mapM (Lang.evalStep run')) :=
    mapM_same (evalStep hrun) steps
  refine bind links fun links => ?_
  have walk := walk stage hrun storing links
  dsimp only
  split
  · refine bind (slot stage _ _ _) fun s => ?_
    cases s with
    | fixed v => exact bind (walk (.const v)) valueOf
    | var x =>
        refine bind (holding x (bind (heldBy x) walk)) fun u => ?_
        refine bind (forM_option (fun v => setVar x v) u.changed) fun _ => valueOf u
  · refine look fun m n hm => ?_
    rw [hm.frame, on_frame_this]
    cases m.frame.this with
    | none => exact raise rfl
    | some held =>
        have keep (v : Value) :
            Alike τ (Eval.modifyFrame fun f => { f with this := some (held.put v) })
              (Eval.modifyFrame fun f => { f with this := some ((τ.on held).put (τ.on v)) }) :=
          modifyFrame fun _ => rfl
        exact bind (walk held) fun u => bind (forM_option keep u.changed) fun _ => valueOf u
  · exact bind (evalMember _ _ _) fun v => bind (walk (.const v)) valueOf
  · exact bind (hrun _) fun v => bind (flatten v) fun v => bind (walk { value := v }) valueOf

theorem store (op : Option BinaryOp) (value : Value) (pos : Pos) (target : Expr) :
    Alike τ (Lang.store stage run op value pos target)
      (Lang.store (τ.on stage) run' op (τ.on value) pos target) := by
  unfold Lang.store
  dsimp only
  have hinto (held : Held) := into (τ := τ)
    ⟨op, value, pos, (targetOf target).1, (targetOf target).2⟩ held
  split
  · refine bind (slot stage _ _ _) fun s => ?_
    cases s with
    | fixed v => exact raise rfl
    | var x => exact bind (heldBy x) fun held => bind (hinto held) fun v => setVar x v
  · refine look fun m n hm => ?_
    rw [hm.frame, on_frame_this]
    cases m.frame.this with
    | none => exact raise rfl
    | some held => exact bind (hinto held) fun v => modifyFrame fun frame => rfl
  · exact bind (evalMember _ _ _) fun _ => raise rfl
  · exact bind (evalChain hrun (some ⟨op, value, pos, _, _⟩) _ _) fun _ => pure rfl
  · exact raise rfl

end Walks

end Alike
end Stagehand.Lang
