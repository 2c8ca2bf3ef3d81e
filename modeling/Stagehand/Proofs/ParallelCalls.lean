import Stagehand.Proofs.Parallel

/-!
# Calls, side by side

What scripts do with variables, ask of the host and call, one lemma for each definition. What is
found by the types of its arguments is found under other numbers too, and under those alone
(`Alike.rel_of_some`).
-/

namespace Stagehand.Lang

namespace Alike

variable {τ : Pairing}

instance : Renames Items := ⟨fun ρ items =>
  match items with
  | .list vs => .list (ρ.on vs)
  | .span first stop => .span first stop⟩

instance : Renames Job := ⟨fun ρ job =>
  match job with
  | .forLoop item counter items index body => .forLoop item counter (ρ.on items) index body
  | job => job⟩

instance : Renames Reached := ⟨fun ρ reached =>
  match reached with
  | .inLibrary home source => .inLibrary (ρ.on home) source
  | reached => reached⟩

instance : Renames Offer := ⟨fun ρ o => { o with
  item := ρ.on o.item
  given := ρ.on o.given
  extra := ρ.on o.extra }⟩

/-! ## Variables -/

section Variables

variable {α : Type} [Renames α]

instance : Renames Eval.Mark := ⟨fun _ mark => mark⟩

theorem alterVar_on {f g : Var → Var} (h : ∀ v, g (τ.on v) = τ.on (f v)) (name : String) :
    ∀ vars : List Var, Eval.alterVar name g (vars.map τ.on) = (Eval.alterVar name f vars).map τ.on
  | [] => rfl
  | v :: rest => by
    rw [List.map_cons, Eval.alterVar, Eval.alterVar, on_var_name]
    split
    · rw [h, List.map_cons]
    · rw [alterVar_on h name rest, List.map_cons]

theorem alterVar {f g : Var → Var} (h : ∀ v, g (τ.on v) = τ.on (f v)) (name : String) :
    Alike τ (Eval.modifyFrame fun frame => { frame with vars := Eval.alterVar name f frame.vars })
      (Eval.modifyFrame fun frame => { frame with vars := Eval.alterVar name g frame.vars }) :=
  modifyFrame fun frame =>
    congrArg (fun vars => { τ.on frame with vars }) (alterVar_on h name frame.vars)

theorem find?_vars (vars : List Var) (name : String) :
    (vars.map τ.on).find? (·.name == name) = (vars.find? (·.name == name)).map τ.on := by
  rw [List.find?_map]
  rfl

theorem var? (name : String) : Alike τ (Eval.var? name) (Eval.var? name) :=
  look fun m n hm => pure (by rw [hm.frame, on_frame_vars, find?_vars]; rfl)

theorem pushVar (v : Var) : Alike τ (Eval.pushVar v) (Eval.pushVar (τ.on v)) :=
  modifyFrame fun _ => rfl

theorem bindVar (name : String) (v : Value) :
    Alike τ (Eval.bind name v) (Eval.bind name (τ.on v)) := pushVar _

theorem heldBy (v : Var) : Alike τ (Eval.heldBy v) (Eval.heldBy (τ.on v)) := by
  obtain ⟨name, ⟨value, fixed⟩, aliases⟩ := v
  cases value with
  | shared cell =>
      refine look fun m n hm => pure ?_
      rw [hm.realm, on_realm_heap, Array.getElem?_map]
      cases m.realm.heap[cell]? <;> rfl
  | _ => exact pure rfl

theorem setVar (v : Var) (value : Value) :
    Alike τ (Eval.setVar v value) (Eval.setVar (τ.on v) (τ.on value)) := by
  obtain ⟨name, ⟨held, fixed⟩, aliases⟩ := v
  cases held with
  | shared cell => exact setCell cell value
  | _ =>
      exact alterVar (f := fun v => { v with held := v.held.put value })
        (g := fun v => { v with held := v.held.put (τ.on value) }) (fun _ => rfl) name

theorem shareVar (v : Var) : Alike τ (Eval.shareVar v) (Eval.shareVar (τ.on v)) := by
  obtain ⟨name, ⟨held, fixed⟩, aliases⟩ := v
  cases held with
  | shared cell => exact pure rfl
  | _ =>
      refine bind (newCell _) fun cell => ?_
      exact alterVar (f := fun v => { v with held := { value := .shared cell } })
        (g := fun v => { v with held := { value := .shared cell } }) (fun _ => rfl) name

theorem isLocked (v : Value) : Alike τ (Eval.isLocked v) (Eval.isLocked (τ.on v)) :=
  look fun m n hm => pure (by rw [hm.frame, on_frame_locked, touches_on]; rfl)

theorem enclosed {x y : Eval α} (hx : Alike τ x y) :
    Alike τ (Eval.enclosed x) (Eval.enclosed y) := by
  have mark : Alike τ Eval.mark Eval.mark := look fun m n hm => pure (by
    rw [hm.frame, on_frame_vars, on_frame_imports, List.length_map, List.length_map]
    rfl)
  refine bind mark fun mark => bind (attempt hx) fun r => ?_
  refine bind (modifyFrame fun frame => ?_) fun _ => resume r
  simp only [on_frame_vars, on_frame_imports, List.length_map, ← List.map_drop]
  rfl

theorem map_on_fnDef {ρ : Renaming} (f : Option FnDef) : ρ.on f = f := by cases f <;> rfl

theorem function? (name : String) (arity : Nat) :
    Alike τ (Eval.function? name arity) (Eval.function? name arity) :=
  look fun m n hm => pure (by rw [hm.frame, on_frame_functions, map_on_fnDef])

theorem anyFunction? (name : String) :
    Alike τ (Eval.anyFunction? name) (Eval.anyFunction? name) :=
  look fun m n hm => pure (by rw [hm.frame, on_frame_functions, map_on_fnDef])

theorem library (path : ModulePath) : Alike τ (Eval.library path) (Eval.library path) := by
  refine look fun m n hm => ?_
  rw [hm.frame, on_frame_imports, library?_on]
  cases Eval.library? path m.frame.imports with
  | some ms => exact pure rfl
  | none => exact raise rfl

end Variables

/-! ## Functions of the host -/

section Host

theorem numberOf (v : Value) : Alike τ (Lang.numberOf v) (Lang.numberOf (τ.on v)) := by
  have refused : Alike τ
      (Eval.reject ("expected a number, found '" ++ v.typePath ++ "'") : Eval Float)
      (Eval.reject ("expected a number, found '" ++ (τ.on v).typePath ++ "'")) := by
    rw [typePath_on]
    exact reject _
  cases v with
  | int n => exact pure rfl
  | float x => exact pure rfl
  | _ => exact refused

theorem marshal (v : Value) : Alike τ (Lang.marshal v) (Lang.marshal (τ.on v)) := by
  refine look fun m n hm => ?_
  rw [hm.realm, on_realm_heap, ofScript_on]
  cases HostValue.ofScript m.realm.heap v with
  | ok v => exact pure rfl
  | error e => exact reject _

theorem marshalFields (fields : List (String × Value)) :
    Alike τ (Lang.marshalFields fields) (Lang.marshalFields (fields.map τ.on)) := by
  unfold Lang.marshalFields
  rw [← on_value_object]
  refine bind (marshal _) fun v => ?_
  cases v with
  | map entries =>
      rw [HostValues.on_map]
      exact pure rfl
  | _ => exact pure rfl

theorem act {f g : World → World} (h : ∀ w w', τ.Worlds w w' → τ.Worlds (f w) (g w')) :
    Alike τ (Lang.act f) (Lang.act g) :=
  bind (modifyWorld h) fun _ => pure rfl

instance : Renames AssetError := ⟨fun _ e => e⟩
instance : Renames RangeError := ⟨fun _ e => e⟩

theorem imageAt (path : String) : Alike τ (Lang.imageAt path) (Lang.imageAt path) := by
  refine bind (askWorld fun w w' h => ⟨?_, (h.loadImage path).2⟩) fun r => ?_
  · rw [(h.loadImage path).1]
    cases (w.loadImage path).1 <;> rfl
  · cases r with
    | ok id => exact pure rfl
    | error e => exact reject _

theorem randomIn (low high : Value) :
    Alike τ (Lang.randomIn low high) (Lang.randomIn (τ.on low) (τ.on high)) := by
  refine bind (numberOf low) fun low => bind (numberOf high) fun high => ?_
  refine bind (askWorld fun w w' h => ⟨?_, (h.random low high).2⟩) fun r => ?_
  · rw [on_float, on_float, (h.random low high).1]
    cases (w.random low high).1 <;> rfl
  · cases r with
    | ok x => exact pure rfl
    | error e => exact reject _

theorem drawOnto (target source : ImageId) (x y : Value) :
    Alike τ (Lang.drawOnto target source x y) (Lang.drawOnto target source (τ.on x) (τ.on y)) := by
  refine bind (numberOf x) fun x => bind (numberOf y) fun y => ?_
  exact bind (modifyWorld fun _ _ h => h.drawImage target source x y) fun _ => pure rfl

theorem askHost {f : HostState → Value} (hf : ∀ h, τ.on (f h) = f h) :
    Alike τ (Lang.askHost f) (Lang.askHost f) :=
  look fun m n hm => pure (by rw [hm.world.host, hf])

/-- What is there for arguments is there for them under other numbers, and for those alone. -/
theorem rel_of_some {α : Type} [Renames α] [τ.Injective] {f g : List Value → Option (Eval α)}
    (hsome : ∀ (ρ : Renaming) args, (f args).isSome → (f (args.map ρ.on)).isSome)
    (hsame : ∀ args, (g args).isSome = (f args).isSome)
    (h : ∀ args x, f args = some x → ∃ y, g (args.map τ.on) = some y ∧ Alike τ x y)
    (args : List Value) : Option.Rel (Alike τ) (f args) (g (args.map τ.on)) := by
  cases hf : f args with
  | some x =>
      obtain ⟨y, hy, hxy⟩ := h args x hf
      rw [hy]
      exact .some hxy
  | none =>
      have hnone : (g (args.map τ.on)).isSome = false := by
        rw [hsame, isSome_on hsome, hf]
        rfl
      rw [Option.not_isSome_iff_eq_none.mp (Bool.eq_false_iff.mp hnone)]
      exact .none

theorem store_get?_on (d : DataStore) (key : String) :
    (τ.on d).get? key = (d.get? key).map τ.on := Entries.get?_on key d.entries

theorem store_keys_on (d : DataStore) : (τ.on d).keys = d.keys := Entries.keys_on d.entries

theorem store_set_on (key : String) (v : HostValue) (d : DataStore) :
    (τ.on d).set key (τ.on v) = τ.on (d.set key v) :=
  congrArg DataStore.mk (Entries.put_on key v d.entries)

theorem store_setAll_on (entries : List (String × HostValue)) (d : DataStore) :
    (τ.on d).setAll (entries.map τ.on) = τ.on (d.setAll entries) :=
  congrArg DataStore.mk (Entries.ofList_on entries)

theorem readClock : Alike τ Lang.readClock Lang.readClock :=
  bind (askWorld fun _ _ h => h.tick) fun _ => pure rfl

theorem printed (stage : Stage) (level : Level) (text : String) :
    Alike τ (Lang.printed stage level text) (Lang.printed stage level text) :=
  act fun _ _ h => h.record rfl

variable [τ.Injective]

theorem onHost (name : String) (args : List Value) :
    Option.Rel (Alike τ) (Lang.onHost name args) (Lang.onHost name (args.map τ.on)) := by
  refine rel_of_some (fun ρ args => ?_) (fun _ => rfl) (fun args x h => ?_) args
  · fun_cases Lang.onHost name args <;> first | exact fun _ => rfl | exact fun h => nomatch h
  · revert h
    fun_cases Lang.onHost name args <;> intro h <;> cases h
    · exact ⟨_, rfl, askHost fun _ => rfl⟩
    · exact ⟨_, rfl, act fun _ _ h => h.modifyHost _⟩
    · exact ⟨_, rfl, askHost fun _ => rfl⟩
    · exact ⟨_, rfl, askHost fun _ => rfl⟩
    · exact ⟨_, rfl, askHost fun _ => rfl⟩
    · exact ⟨_, rfl, imageAt _⟩
    · exact ⟨_, rfl, act fun _ _ h => h.record rfl⟩
    · exact ⟨_, rfl, randomIn _ _⟩

theorem onData (id : StoreId) (name : String) (args : List Value) :
    Option.Rel (Alike τ) (Lang.onData id name args)
      (Lang.onData (τ.store id) name (args.map τ.on)) := by
  refine rel_of_some (fun ρ args => ?_) (fun args => ?_) (fun args x h => ?_) args
  · fun_cases Lang.onData id name args <;> first | exact fun _ => rfl | exact fun h => nomatch h
  · unfold Lang.onData
    split <;> rfl
  · revert h
    fun_cases Lang.onData id name args <;> intro h <;> cases h
    · rename_i key
      refine ⟨_, rfl, look fun m n hm => ?_⟩
      rw [hm.world.store, store_get?_on]
      cases (m.world.store id).get? key with
      | some v => exact pure (on_toScript v).symm
      | none => exact pure rfl
    · refine ⟨_, rfl, bind (marshal _) fun v => act fun w w' h => ?_⟩
      exact h.modifyStore id (store_set_on _ v)
    · rename_i fields
      rw [List.map_singleton, on_value_object]
      refine ⟨_, rfl, bind (marshalFields fields) fun entries => act fun w w' h => ?_⟩
      exact h.modifyStore id (store_setAll_on entries)
    · refine ⟨_, rfl, look fun m n hm => pure ?_⟩
      rw [hm.world.store, store_keys_on, on_value_array, List.map_map]
      rfl

theorem onScript (handle : ScriptHandle) (name : String) (args : List Value) :
    Option.Rel (Alike τ) (Lang.onScript handle name args)
      (Lang.onScript (τ.on handle) name (args.map τ.on)) := by
  refine rel_of_some (fun ρ args => ?_) (fun args => ?_) (fun args x h => ?_) args
  · fun_cases Lang.onScript handle name args <;>
      first | exact fun _ => rfl | exact fun h => nomatch h
  · unfold Lang.onScript
    split <;> rfl
  · revert h
    fun_cases Lang.onScript handle name args <;> intro h <;> cases h
    · exact ⟨_, rfl, act fun _ _ h => h.requestRemoval handle.id⟩
    · exact ⟨_, rfl, pure rfl⟩

theorem onImage (id : ImageId) (name : String) (args : List Value) :
    Option.Rel (Alike τ) (Lang.onImage id name args) (Lang.onImage id name (args.map τ.on)) := by
  refine rel_of_some (fun ρ args => ?_) (fun _ => rfl) (fun args x h => ?_) args
  · fun_cases Lang.onImage id name args <;> first | exact fun _ => rfl | exact fun h => nomatch h
  · revert h
    fun_cases Lang.onImage id name args <;> intro h <;> cases h
    · exact ⟨_, rfl, look fun m n hm => pure (by rw [hm.world.imageSize]; rfl)⟩
    · exact ⟨_, rfl, look fun m n hm => pure (by rw [hm.world.imageSize]; rfl)⟩
    · exact ⟨_, rfl, drawOnto _ _ _ _⟩

/-- The host is asked through a reference, which is of the same kind on both sides. -/
theorem hostFunction (name : String) (args : List Value) :
    Option.Rel (Alike τ) (Lang.hostFunction name args)
      (Lang.hostFunction name (args.map τ.on)) := by
  cases args with
  | nil => exact .none
  | cons v rest =>
      cases v with
      | handle c =>
          cases c with
          | host id => exact onHost name rest
          | data id => exact onData id name rest
          | script h => exact onScript h name rest
          | image id => exact onImage id name rest
      | _ => exact .none

theorem outputFunction (stage : Stage) (name : String) (args : List Value) :
    Option.Rel (Alike τ) (Lang.outputFunction stage name args)
      (Lang.outputFunction (τ.on stage) name (args.map τ.on)) := by
  refine rel_of_some (fun ρ args => ?_) (fun args => rfl) (fun args x h => ?_) args
  · fun_cases Lang.outputFunction stage name args <;>
      first | exact fun _ => rfl | exact fun h => nomatch h
  · revert h
    fun_cases Lang.outputFunction stage name args <;> intro h <;> cases h
    · exact ⟨_, rfl, printed stage _ _⟩
    · exact ⟨_, rfl, text_on (ρ := τ.toRenaming) _ ▸ printed stage _ _⟩
    · exact ⟨_, rfl, printed stage _ _⟩
    · exact ⟨_, rfl, debugText_on (ρ := τ.toRenaming) _ ▸ printed stage _ _⟩
    · exact ⟨_, rfl, readClock⟩
    · exact ⟨_, rfl, throw rfl⟩
    · exact ⟨_, rfl, throw rfl⟩

end Host

/-! ## Calls -/

section Calls

theorem placed {α : Type} [Renames α] {x y : Eval α} (pos : Place) (hx : Alike τ x y) :
    Alike τ (Lang.placed pos x) (Lang.placed pos y) := by
  refine bind (attempt hx) fun r => ?_
  rcases r with (f | _ | _ | _ | _) | a
  · exact throw (congrArg Halt.fault (on_placed pos f).symm)
  all_goals first | exact throw rfl | exact pure rfl

theorem ensureFree (name : String) (args : List Value) (pos : Place) :
    Alike τ (Lang.ensureFree name args pos) (Lang.ensureFree name (args.map τ.on) pos) := by
  refine look fun m n hm => ?_
  rw [hm.frame, on_frame_locked]
  dsimp only
  rw [List.findIdx?_map]
  simp only [Function.comp_def, touches_on]
  split
  · exact raise rfl
  · exact pure rfl

theorem params_on (params : List String) (args : List Value) :
    ((params.zip (args.map τ.on)).map fun (name, value) =>
        ({ name, held := { value } } : Var)).reverse =
      (((params.zip args).map fun (name, value) =>
        ({ name, held := { value } } : Var)).reverse).map τ.on := by
  rw [List.zip_map_right, List.map_map, List.map_reverse, List.map_map]
  rfl

theorem forCall_on (outer : Frame) (f : FnDef) (args : List Value) (this : Option Held)
    (reached : Reached) :
    (τ.on outer).forCall f (args.map τ.on) (this.map τ.on) (τ.on reached) =
      τ.on (outer.forCall f args this reached) := by
  have hvars := params_on (τ := τ) f.params args
  unfold Frame.forCall
  dsimp only
  rw [hvars]
  cases reached with
  | byName | byValue => rfl
  | inLibrary m source =>
      change Frame.mk _ _ ((τ.on m).imports ++ (τ.on outer).imports)
        ((τ.on m).functions :: outer.functions) _ (some (τ.on m).constants) _ _ _ _ = _
      rw [on_module_functions, on_module_imports, on_module_constants, on_frame_imports,
        ← List.map_append]
      rfl

theorem upshotOf (f : FnDef) (pos : Place) (inner : Frame) (r : Except Halt Value) :
    Alike τ (Lang.upshotOf f pos inner r) (Lang.upshotOf f pos (τ.on inner) (τ.on r)) := by
  have hchanged : (τ.on inner).this.map (·.value) = (inner.this.map (·.value)).map τ.on := by
    rw [on_frame_this, Option.map_map, Option.map_map]
    rfl
  unfold Lang.upshotOf
  dsimp only
  rw [hchanged]
  rcases r with (fault | v | _ | v | v) | v
  · have htraced : (if (τ.on fault).untraced then (τ.on fault).movedTo pos
        else .inCall (τ.on fault) f.name inner.source pos) =
        τ.on (if fault.untraced then fault.movedTo pos
          else .inCall fault f.name inner.source pos) := by
      rw [untraced_on]
      split
      · exact (on_movedTo pos fault).symm
      · rfl
    exact pure (congrArg (fun fault => Upshot.mk (.error (.fault fault)) _) htraced)
  · exact pure rfl
  · exact pure rfl
  · exact bind (flatten v) fun _ => pure rfl
  · exact pure rfl
  · exact bind (flatten v) fun _ => pure rfl

theorem withObject_on (object : Option Held) (args : List Value) :
    withObject (object.map τ.on) (args.map τ.on) = (withObject object args).map τ.on := by
  cases object <;> rfl

theorem isMissing_on (name : String) (h : Halt) : isMissing name (τ.on h) = isMissing name h := by
  cases h with
  | fault f =>
      cases f with
      | raised cause pos => cases cause <;> rfl
      | _ => rfl
  | _ => rfl

theorem ways_on (o : Offer) : (τ.on o).ways = o.ways.map τ.on := by
  have htaken : (τ.on o).taken = o.taken.map τ.on := by
    unfold Offer.taken
    rw [List.map_append, List.map_cons, List.map_take, List.map_drop]
    rfl
  unfold Offer.ways
  rw [htaken]
  simp only [List.map_cons, List.map_nil]
  rw [on_mk, on_mk, on_mk, on_list, on_list, on_list, List.map_append]
  rfl

/-- The way that fits the parameters of a function. -/
theorem fits_on (offer : Offer) (curried : List Value) (f : FnDef) :
    ((τ.on offer).ways.find? fun (_, args) =>
        f.params.length == (curried.map τ.on).length + args.length) =
      (offer.ways.find? fun (_, args) =>
        f.params.length == curried.length + args.length).map τ.on := by
  have hfits : (fun (way : Option Held × List Value) =>
      f.params.length == (curried.map τ.on).length + way.2.length) ∘ τ.on =
      fun way => f.params.length == curried.length + way.2.length := by
    funext way
    rw [Function.comp_apply, on_snd, on_list, List.length_map, List.length_map]
  rw [ways_on, List.find?_map]
  exact congrArg (fun fits => (offer.ways.find? fits).map τ.on) hfits

/-- What is no function value is none under other numbers. -/
theorem not_fn_on {ρ : Renaming} {v : Value}
    (h : ∀ f curried function, v = .fn f curried function → False) :
    ∀ f curried function, ρ.on v = .fn f curried function → False := by
  intro f curried function hv
  obtain ⟨curried, rfl, -⟩ := on_eq_fn.mp hv
  exact h f curried function rfl

/-- Where no function value comes first, none does under other numbers. -/
theorem not_fn_first_on {ρ : Renaming} {vs : List Value}
    (h : ∀ f curried function rest, vs = .fn f curried function :: rest → False) :
    ∀ f curried function rest, vs.map ρ.on = .fn f curried function :: rest → False := by
  intro f curried function rest hvs
  cases vs with
  | nil => cases hvs
  | cons v vs =>
      have hfirst : ∀ f curried function, v = .fn f curried function → False :=
        fun f curried function hv => h f curried function vs (congrArg (· :: vs) hv)
      exact not_fn_on hfirst f curried function (List.cons.inj hvs).1

variable [τ.Injective] (stage : Stage)

theorem callNative (name : String) (args : List Value) :
    Option.Rel (Alike τ) (Lang.callNative stage name args)
      (Lang.callNative (τ.on stage) name (args.map τ.on)) := by
  have effect {x y : Eval Value} (h : Alike τ x y) :
      Alike τ (do return ({ outcome := .ok (← x) } : Upshot))
        (do return ({ outcome := .ok (← y) } : Upshot)) := bind h fun _ => pure rfl
  have houtput := outputFunction (τ := τ) stage name args
  have hhost := hostFunction (τ := τ) name args
  unfold Lang.callNative
  dsimp only
  generalize Lang.outputFunction stage name args = x at houtput ⊢
  generalize Lang.outputFunction (τ.on stage) name (args.map τ.on) = y at houtput ⊢
  cases houtput with
  | some h => exact .some (effect h)
  | none =>
      dsimp only
      generalize Lang.hostFunction name args = x at hhost ⊢
      generalize Lang.hostFunction name (args.map τ.on) = y at hhost ⊢
      cases hhost with
      | some h => exact .some (effect h)
      | none =>
          dsimp only
          rw [native_on]
          cases native name args with
          | none => exact .none
          | some r => exact .some (bind (orRaise rfl) fun _ => pure rfl)

theorem callByType (name : String) (constant : Bool) (args : List Value) (pos : Place) :
    Alike τ (Lang.callByType stage name constant args pos)
      (Lang.callByType (τ.on stage) name constant (args.map τ.on) pos) := by
  have hnative := callNative (τ := τ) stage name args
  unfold Lang.callByType
  generalize Lang.callNative stage name args = x at hnative ⊢
  generalize Lang.callNative (τ.on stage) name (args.map τ.on) = y at hnative ⊢
  cases hnative with
  | none =>
      rw [signature_on]
      exact raise rfl
  | some h =>
      refine bind (placed pos h) fun u => ?_
      rw [on_upshot_changed, Option.isSome_map]
      exact branch (bind (raise rfl) fun _ => pure rfl) (pure rfl)

variable {stage} {run run' : Run} (hrun : ∀ job, Alike τ (run job) (run' (τ.on job)))
include hrun

omit [τ.Injective] in
theorem callFunction (f : FnDef) (args : List Value) (this : Option Held) (reached : Reached)
    (pos : Place) :
    Alike τ (Lang.callFunction run f args this reached pos)
      (Lang.callFunction run' f (args.map τ.on) (this.map τ.on) (τ.on reached) pos) := by
  rw [callFunction_eq, callFunction_eq]
  refine look fun m n hm => ?_
  rw [hm.frame, on_frame_depth]
  refine branch (raise rfl) (apart (fun frame => ?_) (hrun _) fun inner r => upshotOf f pos inner r)
  exact forCall_on frame f args this reached

theorem callByName (name : String) (object : Option Held) (args : List Value) (pos : Place) :
    Alike τ (Lang.callByName stage run name object args pos)
      (Lang.callByName (τ.on stage) run' name (object.map τ.on) (args.map τ.on) pos) := by
  refine bind (ensureFree _ _ _) fun _ => ?_
  rw [List.length_map]
  refine bind (function? _ _) fun f => ?_
  cases f with
  | some f => exact callFunction hrun f args object .byName pos
  | none =>
      refine bind (mapM flatten args) fun flat => ?_
      have hconstant : ((object.map τ.on).map (·.isConstant)).getD false =
          (object.map (·.isConstant)).getD false := by
        cases object with
        | none => rfl
        | some held => exact on_held_isConstant held
      rw [hconstant, on_list, withObject_on]
      exact callByType stage name _ _ pos

theorem callValue (name : String) (function : Option FnDef) (object : Option Held)
    (args : List Value) (pos : Place) :
    Alike τ (Lang.callValue stage run name function object args pos)
      (Lang.callValue (τ.on stage) run' name function (object.map τ.on) (args.map τ.on) pos) := by
  unfold Lang.callValue
  rw [List.length_map]
  split
  · exact callFunction hrun _ _ _ .byValue _
  · exact callByName hrun _ _ _ _

theorem callInSomeWay (name : String) (curried : List Value) (pos : Place) :
    ∀ ways : List (Option Held × List Value),
      Alike τ (Lang.callInSomeWay stage run name curried pos ways)
        (Lang.callInSomeWay (τ.on stage) run' name (curried.map τ.on) pos (ways.map τ.on))
  | [] => pure rfl
  | (this, args) :: rest => by
    have call : Alike τ
        (do Eval.valueOf (← Lang.callByName stage run name this (curried ++ args) pos))
        (do Eval.valueOf (← Lang.callByName (τ.on stage) run' name (this.map τ.on)
          (curried.map τ.on ++ args.map τ.on) pos)) := by
      rw [← List.map_append]
      exact bind (callByName hrun _ _ _ _) valueOf
    refine bind (attempt call) fun r => ?_
    cases r with
    | ok v => exact pure rfl
    | error h =>
        rw [on_error]
        dsimp only
        rw [isMissing_on, List.isEmpty_map]
        exact branch (callInSomeWay name curried pos rest) (throw rfl)

theorem acceptOffer (name : String) (curried : List Value) (function : Option FnDef) (offer : Offer)
    (pos : Place) :
    Alike τ (Lang.acceptOffer stage run name curried function offer pos)
      (Lang.acceptOffer (τ.on stage) run' name (curried.map τ.on) function (τ.on offer) pos) := by
  have none_fits : Alike τ
      (Eval.deeper (Lang.callInSomeWay stage run name curried pos offer.ways))
      (Eval.deeper (Lang.callInSomeWay (τ.on stage) run' name (curried.map τ.on) pos
        (τ.on offer).ways)) := by
    rw [ways_on]
    exact deeper (callInSomeWay hrun _ _ _ _)
  unfold Lang.acceptOffer
  dsimp only
  cases function with
  | none => exact none_fits
  | some f =>
      rw [Option.bind_some, Option.bind_some, fits_on]
      cases offer.ways.find? fun (_, args) => f.params.length == curried.length + args.length with
      | none => exact none_fits
      | some way =>
          obtain ⟨this, args⟩ := way
          have call := callFunction hrun f (curried ++ args) this .byValue pos
          rw [List.map_append] at call
          exact bind call valueOf

variable (stage) in
theorem mapOffer (name : String) (curried : List Value) (function : Option FnDef) (pos : Place)
    (offer : Offer) :
    Alike τ (Lang.mapOffer stage run name curried function pos offer)
      (Lang.mapOffer (τ.on stage) run' name (curried.map τ.on) function pos (τ.on offer)) := by
  refine bind (attempt (deeper (acceptOffer hrun _ _ _ _ _))) fun r => ?_
  rcases r with (f | _ | _ | _ | v) | v
  all_goals first | exact throw rfl | exact pure rfl

omit hrun [τ.Injective] in
/-- Whether there is something to map depends on the arguments alone. -/
theorem isSome_mapFunction (stage' : Stage) (args : List Value) (pos : Place) :
    (Lang.mapFunction stage' run' args pos).isSome =
      (Lang.mapFunction stage run args pos).isSome := by
  rw [Lang.mapFunction.eq_def stage run]
  split
  case h_4 hnamed hnames hfields => rw [Lang.mapFunction.eq_4 _ _ _ _ hnamed hnames hfields]
  all_goals simp only [Lang.mapFunction, Option.isSome_some]

variable (stage) in
theorem mapFunction (args : List Value) (pos : Place) :
    Option.Rel (Alike τ) (Lang.mapFunction stage run args pos)
      (Lang.mapFunction (τ.on stage) run' (args.map τ.on) pos) := by
  have offers (items : List Value) (name : String) (curried : List Value)
      (function : Option FnDef) :
      Alike τ (do
        let offers := items.zipIdx.map fun p => ⟨p.1, [], 0, [countValue p.2]⟩
        return Value.array (← offers.mapM (Lang.mapOffer stage run name curried function pos)))
        (do
        let offers := (items.map τ.on).zipIdx.map fun p => ⟨p.1, [], 0, [countValue p.2]⟩
        return Value.array (← offers.mapM
          (Lang.mapOffer (τ.on stage) run' name (curried.map τ.on) function pos))) := by
    have h := mapM (k := τ.on) (mapOffer stage hrun name curried function pos)
      (items.zipIdx.map fun p => (⟨p.1, [], 0, [countValue p.2]⟩ : Offer))
    rw [List.map_map] at h
    rw [List.zipIdx_map, List.map_map]
    exact bind h fun vs => pure (on_value_array vs).symm
  refine rel_of_some (τ := τ) (f := fun args => Lang.mapFunction stage run args pos)
    (g := fun args => Lang.mapFunction (τ.on stage) run' args pos)
    (fun ρ args => ?_) (fun args => isSome_mapFunction _ args pos) (fun args x h => ?_) args
  · unfold Lang.mapFunction
    split <;> intro h
    case h_4 => nomatch h
    all_goals
      simp only [List.map_cons, List.map_nil, on_value_array, on_value_object, on_value_fn,
        on_value_str, Option.isSome_some]
  · unfold Lang.mapFunction at h
    split at h <;> cases h
    · rename_i items f curried function
      simp only [List.map_cons, List.map_nil, on_value_array, on_value_fn]
      exact ⟨_, rfl, offers items f curried function⟩
    · rename_i items f
      simp only [List.map_cons, List.map_nil, on_value_array, on_value_str]
      have known : checkName f = τ.on (checkName f) := (on_of_within Built.within_checkName).symm
      exact ⟨_, rfl, bind (orRaise known) fun _ => offers items f [] none⟩
    · rename_i fields f curried function
      simp only [List.map_cons, List.map_nil, on_value_object, on_value_fn]
      refine ⟨_, rfl, bind (mapM (fun field => ?_) fields) fun results => pure ?_⟩
      · exact bind (mapOffer stage hrun f curried function pos _) fun v => pure rfl
      · exact (on_value_object results).symm

theorem callBuiltIn (name : String) (constant : Bool) (args : List Value) (pos : Place) :
    Alike τ (Lang.callBuiltIn stage run name constant args pos)
      (Lang.callBuiltIn (τ.on stage) run' name constant (args.map τ.on) pos) := by
  have hmap := mapFunction stage hrun args pos
  unfold Lang.callBuiltIn
  by_cases hname : (name == "map") = true
  · rw [if_pos hname, if_pos hname]
    generalize Lang.mapFunction stage run args pos = x at hmap ⊢
    generalize Lang.mapFunction (τ.on stage) run' (args.map τ.on) pos = y at hmap ⊢
    cases hmap with
    | none => exact callByType stage name constant args pos
    | some h => exact bind h fun _ => pure rfl
  · rw [if_neg hname, if_neg hname]
    exact callByType stage name constant args pos

theorem callPlain (object : Held) (name : String) (args : List Value) (pos : Place) :
    Alike τ (Lang.callPlain stage run object name args pos)
      (Lang.callPlain (τ.on stage) run' (τ.on object) name (args.map τ.on) pos) := by
  refine bind (ensureFree _ _ _) fun _ => ?_
  rw [List.length_map]
  refine bind (function? _ _) fun f => ?_
  cases f with
  | some f => exact callFunction hrun f args (some object) .byName pos
  | none =>
      rw [on_held_isConstant]
      exact callBuiltIn hrun name object.isConstant (object.value :: args) pos

theorem callMethod (object : Held) (name : String) (args : List Value) (pos : Place) :
    Alike τ (Lang.callMethod stage run object name args pos)
      (Lang.callMethod (τ.on stage) run' (τ.on object) name (args.map τ.on) pos) := by
  have renamed {f : String} {curried : List Value} {function : Option FnDef}
      (hv : object.value = .fn f curried function) :
      (τ.on object).value = .fn f (curried.map τ.on) function := by
    rw [on_held_value, hv, on_value_fn]
  have other (hv : ∀ f curried function, object.value = .fn f curried function → False) :
      ∀ f curried function, (τ.on object).value = .fn f curried function → False :=
    not_fn_on hv
  fun_cases Lang.callMethod stage run object name args pos
  case case1 f curried function hv =>
    rw [Lang.callMethod.eq_1 _ _ _ _ _ _ _ _ (renamed hv), ← List.map_append]
    refine bind (ensureFree _ _ _) fun _ => ?_
    exact bind (callValue hrun f function none (curried ++ args) pos) fun u => pure rfl
  case case2 f curried function hv =>
    rw [Lang.callMethod.eq_2 _ _ _ _ _ _ _ _ (renamed hv), ← List.map_append]
    exact pure (congrArg (fun v => Upshot.mk (.ok v) none) (on_value_fn f _ function).symm)
  case case3 f curried function args hv =>
    rw [List.map_cons, on_value_fn, Lang.callMethod.eq_3 _ _ _ _ _ _ _ _ (other hv),
      ← List.map_append]
    refine bind (ensureFree _ _ _) fun _ => ?_
    exact callValue hrun f function (some object) (curried ++ args) pos
  case case4 hv hargs =>
    rw [Lang.callMethod.eq_4 _ _ _ _ _ (not_fn_first_on hargs) (other hv)]
    cases args with
    | nil =>
        rw [List.map_nil, List.headD_nil, List.headD_nil, on_held_value, typeName_on]
        exact raise rfl
    | cons v rest =>
        rw [List.map_cons, List.headD_cons, List.headD_cons, typeName_on]
        exact raise rfl
  case case5 hv =>
    rw [Lang.callMethod.eq_5 _ _ _ _ _ (other hv), on_held_value, typeName_on]
    exact raise rfl
  case case6 fields hv f curried function hcall hcurry hfield hargs =>
    have hfields : (τ.on object).value = .object (fields.map τ.on) := by
      rw [on_held_value, hv, on_value_object]
    rw [Lang.callMethod.eq_6 _ _ _ _ _ _ _ hfields hcall hcurry
      fun _ _ _ _ h => (hcall h).elim, Entries.get?_on, hfield, Option.map_some, on_value_fn]
    dsimp only
    rw [← List.map_append]
    exact callValue hrun f function (some object) (curried ++ args) pos
  case case7 fields hv hcall hcurry hfield hargs =>
    have hfields : (τ.on object).value = .object (fields.map τ.on) := by
      rw [on_held_value, hv, on_value_object]
    rw [Lang.callMethod.eq_6 _ _ _ _ _ _ _ hfields hcall hcurry
      fun _ _ _ _ h => (hcall h).elim, Entries.get?_on]
    have plain : Alike τ (Lang.callPlain stage run object name args pos) _ :=
      callPlain hrun object name args pos
    cases hgot : Entries.get? name fields with
    | none => exact plain
    | some v =>
        have hnot := not_fn_on (ρ := τ.toRenaming) (v := v) fun f curried function hfn =>
          hfield f curried function (hfn ▸ hgot)
        rw [Option.map_some]
        split
        · rename_i heq
          exact (hnot _ _ _ (Option.some.inj heq)).elim
        · exact plain
  case case8 hobject hcall hcurry hargs hfn hfn' =>
    have hnot (fields) : (τ.on object).value = .object fields → False := fun h => by
      obtain ⟨fields, h, -⟩ := on_eq_object.mp h
      exact hobject fields h
    rw [Lang.callMethod.eq_7 _ _ _ _ _ _ hcall hcurry (fun _ _ _ _ h => (hcall h).elim) hnot
      (fun _ _ _ _ h => hcall h) fun _ _ _ _ h => hcurry h]
    exact callPlain hrun object name args pos

omit hrun [τ.Injective] in
theorem namedFunction (v : Value) (pos : Place) :
    Alike τ (Lang.namedFunction v pos) (Lang.namedFunction (τ.on v) pos) := by
  have refused (v : Value) : Alike τ (Eval.raise (.wrongType v.typeName "string") pos : Eval Value)
      (Eval.raise (.wrongType (τ.on v).typeName "string") pos) := by
    rw [typeName_on]
    exact raise rfl
  cases v with
  | str name =>
      have known : checkName name = τ.on (checkName name) :=
        (on_of_within Built.within_checkName).symm
      exact bind (orRaise known) fun _ => pure (on_value_fn name [] none).symm
  | fn name curried f =>
      rw [on_value_fn]
      exact pure (on_value_fn name curried f).symm
  | array items => exact on_value_array (ρ := τ.toRenaming) items ▸ refused (.array items)
  | object fields => exact on_value_object (ρ := τ.toRenaming) fields ▸ refused (.object fields)
  | _ => exact refused _

variable (stage) in
theorem languageCall (name : String) (args : List Value) (pos : Place) :
    Option.Rel (Alike τ) (Lang.languageCall stage run name args pos)
      (Lang.languageCall (τ.on stage) run' name (args.map τ.on) pos) := by
  have refused (v : Value) : Alike τ (Eval.raise (.wrongType v.typeName "Fn") pos : Eval Value)
      (Eval.raise (.wrongType (τ.on v).typeName "Fn") pos) := by
    rw [typeName_on]
    exact raise rfl
  fun_cases Lang.languageCall stage run name args pos
  case case1 v => exact .some (namedFunction v pos)
  case case2 f curried function rest =>
    rw [List.map_cons, on_value_fn, Lang.languageCall, ← List.map_append]
    refine .some (bind (ensureFree _ _ _) fun _ => ?_)
    exact bind (callValue hrun f function none (curried ++ rest) pos) valueOf
  case case3 v rest hv =>
    rw [List.map_cons, Lang.languageCall.eq_3 _ _ _ _ _ (not_fn_on hv)]
    exact .some (refused v)
  case case4 f curried function arg rest =>
    rw [List.map_cons, on_value_fn, List.map_cons, Lang.languageCall, ← List.map_cons,
      ← List.map_append]
    exact .some (pure (on_value_fn f _ function).symm)
  case case5 v arg rest hv =>
    rw [List.map_cons, List.map_cons, Lang.languageCall.eq_5 _ _ _ _ _ _ (not_fn_on hv)]
    exact .some (refused v)
  case case6 hone _ hcall _ hcurry =>
    have hone' (v : Value) (hname : name = "Fn") (h : args.map τ.on = [v]) : False := by
      obtain ⟨v, rfl, -⟩ := List.map_eq_singleton_iff.mp h
      exact hone v hname rfl
    have hcall' (v : Value) (rest) (hname : name = "call") (h : args.map τ.on = v :: rest) :
        False := by
      obtain ⟨v, rest, rfl, -⟩ := List.map_eq_cons_iff.mp h
      exact hcall v rest hname rfl
    have hcurry' (v arg : Value) (rest) (hname : name = "curry")
        (h : args.map τ.on = v :: arg :: rest) : False := by
      obtain ⟨v, tail, rfl, -, h⟩ := List.map_eq_cons_iff.mp h
      obtain ⟨arg, rest, rfl, -⟩ := List.map_eq_cons_iff.mp h
      exact hcurry v arg rest hname rfl
    rw [Lang.languageCall.eq_6 _ _ _ _ _ hone' (fun f c g => hcall' (.fn f c g)) hcall'
      (fun f c g => hcurry' (.fn f c g)) hcurry']
    exact .none

end Calls

end Alike
end Stagehand.Lang
