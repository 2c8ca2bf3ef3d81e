import Stagehand.Proofs.Imports
import Stagehand.Proofs.ParallelChains

/-!
# Runs, side by side

Expressions, statements and imports, and then whole runs: by induction on the budget, two runs of
the same job in worlds that differ in numbers end alike.
-/

namespace Stagehand.Lang
namespace Alike

variable {τ : Pairing} [τ.Injective]

instance : Renames Receiver := ⟨fun ρ r =>
  match r with
  | .var x => .var (ρ.on x)
  | .this held => .this (ρ.on held)
  | r => r⟩

/-! ## Expressions -/

section Expressions

variable {stage : Stage} {run run' : Run} (hrun : ∀ job, Alike τ (run job) (run' (τ.on job)))
include hrun

omit [τ.Injective] in
theorem flat (e : Expr) : Alike τ (Lang.flat run e) (Lang.flat run' e) := bind (hrun _) flatten

omit [τ.Injective] in
theorem flats (es : List Expr) :
    Alike τ (es.mapM (Lang.flat run)) (es.mapM (Lang.flat run')) := mapM_same (flat hrun) es

omit [τ.Injective] in
theorem evalTest (e : Expr) : Alike τ (Lang.evalTest run e) (Lang.evalTest run' e) := by
  refine bind (flat hrun e) fun v => ?_
  have refused : Alike τ (Eval.raise (.wrongType v.typeName "bool") (some e.pos) : Eval Bool)
      (Eval.raise (.wrongType (τ.on v).typeName "bool") (some e.pos)) := by
    rw [typeName_on]
    exact raise rfl
  cases v with
  | bool b => exact pure rfl
  | _ => exact refused

omit hrun [τ.Injective] in
theorem readName (name : String) (known : Bool) (pos : Pos) :
    Alike τ (Lang.readName stage name known pos) (Lang.readName (τ.on stage) name known pos) := by
  refine bind (slot stage name known (some pos)) fun s => ?_
  cases s <;> exact pure rfl

omit [τ.Injective] in
theorem evalArgs (args : List Expr) :
    Alike τ (Lang.evalArgs stage run args) (Lang.evalArgs (τ.on stage) run' args) := by
  unfold Lang.evalArgs
  split
  · refine bind (flats hrun _) fun rest => bind (slot stage _ _ _) fun s => ?_
    cases s with
    | fixed v => exact pure rfl
    | var x =>
        obtain ⟨name, ⟨value, fixed⟩, aliases⟩ := x
        refine bind (flatten value) fun v => ?_
        cases fixed with
        | none => cases value <;> exact pure rfl
        | some _ => cases value <;> exact pure rfl
  · refine bind (flats hrun _) fun rest => look fun m n hm => ?_
    rw [hm.frame, on_frame_this]
    cases m.frame.this with
    | none => exact raise rfl
    | some held =>
        rw [Option.map_some]
        dsimp only
        rw [on_held_isConstant]
        refine pure (Prod.ext rfl ?_)
        dsimp only
        split <;> rfl
  · exact bind (flats hrun _) fun _ => pure rfl
  · exact bind (flats hrun _) fun _ => pure rfl

omit hrun [τ.Injective] in
theorem keep (r : Receiver) (v : Value) : Alike τ (r.keep v) ((τ.on r).keep (τ.on v)) := by
  cases r with
  | var x => exact setVar x v
  | this held =>
      exact modifyFrame (f := fun f => { f with this := some (held.put v) })
        (g := fun f => { f with this := some ((τ.on held).put (τ.on v)) }) fun _ => rfl
  | copy | constant => exact pure rfl

theorem evalCall (name : String) (args : List Expr) (pos : Pos) :
    Alike τ (Lang.evalCall stage run name args pos)
      (Lang.evalCall (τ.on stage) run' name args pos) := by
  refine bind (evalArgs hrun args) fun ⟨values, receiver⟩ => ?_
  have hlanguage := languageCall stage hrun name values (some pos)
  rw [on_mk]
  dsimp only
  generalize Lang.languageCall stage run name values (some pos) = x at hlanguage ⊢
  generalize hy : Lang.languageCall (τ.on stage) run' name (values.map τ.on) (some pos) = y
    at hlanguage
  rw [on_list, hy]
  cases hlanguage with
  | some h => exact h
  | none =>
      dsimp only
      refine bind (α := Unit) ?_ fun _ => ?_
      · cases receiver with
        | var | this => exact List.map_tail ▸ ensureFree name values.tail (some pos)
        | copy | constant => exact ensureFree name values (some pos)
      · rw [List.length_map]
        refine bind (function? name values.length) fun f => ?_
        cases f with
        | some f => exact bind (callFunction hrun f values none .byName (some pos)) valueOf
        | none =>
            have hconstant : (τ.on receiver).isConstant = receiver.isConstant := by
              cases receiver <;> rfl
            rw [on_option, Option.map_none, hconstant]
            refine bind (callBuiltIn hrun name receiver.isConstant values (some pos)) fun u => ?_
            exact bind (forM_option (keep receiver) u.changed) fun _ => valueOf u

omit [τ.Injective] in
theorem evalMemberCall (path : ModulePath) (name : String) (args : List Expr) (pos : Pos) :
    Alike τ (Lang.evalMemberCall stage run path name args pos)
      (Lang.evalMemberCall (τ.on stage) run' path name args pos) := by
  refine bind (evalArgs hrun args) fun p => bind (library path) fun ms => ?_
  obtain ⟨values, receiver⟩ := p
  obtain ⟨root, m⟩ := ms
  rw [on_mk, on_list]
  dsimp only
  rw [on_module_functions, List.length_map]
  cases m.functions.find? fun f =>
      f.name == name && f.params.length == values.length && !f.isPrivate with
  | some f =>
      have call := callFunction hrun f values none (.inLibrary m root.path) (some pos)
      rw [on_module_path]
      exact bind call valueOf
  | none =>
      dsimp only
      rw [signature_on]
      exact raise rfl

omit hrun [τ.Injective] in
theorem evalClosure (name : String) (captured : List (String × Pos)) :
    Alike τ (Lang.evalClosure stage name captured)
      (Lang.evalClosure (τ.on stage) name captured) := by
  unfold Lang.evalClosure
  refine bind (forM_list (fun c => ?_) captured) fun _ => ?_
  · refine bind (var? c.1) fun v => ?_
    cases v with
    | some v => exact shareVar v
    | none => exact raise rfl
  refine bind (mapM_same (fun c => ?_) captured) fun vs => ?_
  · exact readName c.1 false c.2
  · refine bind (anyFunction? name) fun f => pure ?_
    rw [on_value_fn, map_on_fnDef]
    rfl

theorem evalExpr (e : Expr) :
    Alike τ (Lang.evalExpr stage run e) (Lang.evalExpr (τ.on stage) run' e) := by
  cases e with
  | literal c pos => exact pure (on_ofLiteral c).symm
  | builtin name pos =>
      unfold Lang.evalExpr
      dsimp only
      rw [builtin?_on]
      cases stage.builtin? name with
      | some c => exact pure rfl
      | none => exact pure rfl
  | template parts pos =>
      refine bind (flats hrun parts) fun vs => pure ?_
      rw [on_list, List.map_map, show Value.text ∘ τ.on = Value.text from funext text_on]
      rfl
  | array items pos => exact bind (flats hrun items) fun vs => pure (on_value_array vs).symm
  | object fields pos =>
      refine bind (mapM_same (fun field => ?_) fields) fun fs => pure ?_
      · exact bind (flat hrun field.2) fun v => pure rfl
      · rw [on_value_object, on_list, Entries.ofList_on]
  | var name known pos => exact readName name known pos
  | this pos =>
      refine look fun m n hm => ?_
      rw [hm.frame, on_frame_this]
      cases m.frame.this with
      | some held => exact pure rfl
      | none => exact raise rfl
  | member path name pos => exact evalMember path name pos
  | call name args pos => exact evalCall hrun name args pos
  | memberCall path name args pos => exact evalMemberCall hrun path name args pos
  | unary op operand pos => exact bind (flat hrun operand) fun v => orRaise (unaryOp_on op v)
  | binary op l r pos =>
      exact bind (flat hrun l) fun a => bind (flat hrun r) fun b => orRaise (binaryOp_on op a b)
  | and l r pos =>
      refine bind (evalTest hrun l) fun b => branch ?_ (pure rfl)
      exact bind (evalTest hrun r) fun b => pure rfl
  | or l r pos =>
      refine bind (evalTest hrun l) fun b => branch (pure rfl) ?_
      exact bind (evalTest hrun r) fun b => pure rfl
  | coalesce l r pos =>
      refine bind (flat hrun l) fun v => ?_
      cases v with
      | unit => exact hrun _
      | _ => exact pure rfl
  | chain base steps => exact evalChain hrun none base steps
  | control s pos =>
      cases s with
      | block body pos => exact hrun _
      | _ => exact hrun _
  | closure name captured pos => exact evalClosure name captured

end Expressions

/-! ## Statements -/

section Statements

variable {stage : Stage} {run run' : Run} (hrun : ∀ job, Alike τ (run job) (run' (τ.on job)))
include hrun

omit [τ.Injective] in
theorem evalOption (value : Option Expr) :
    Alike τ (Lang.evalOption run value) (Lang.evalOption run' value) := by
  cases value with
  | none => exact pure rfl
  | some e => exact flat hrun e

omit hrun [τ.Injective] in
theorem declareAs (name : String) (constant exported : Bool) (v : Value) :
    Alike τ (Lang.declareAs name constant exported v)
      (Lang.declareAs name constant exported (τ.on v)) := by
  have declared : Var.declared name constant exported (τ.on v) =
      τ.on (Var.declared name constant exported v) := by
    cases constant <;> rfl
  have push : Alike τ (do
      Eval.pushVar (.declared name constant exported v)
      return Value.unit) (do
      Eval.pushVar (.declared name constant exported (τ.on v))
      return Value.unit) :=
    declared ▸ bind (pushVar _) fun _ => pure rfl
  have constants (frame : Frame) : { τ.on frame with
      constants := (τ.on frame).constants.map (Entries.put name (τ.on v)) } =
      τ.on { frame with constants := frame.constants.map (Entries.put name v) } := by
    have hput : (frame.constants.map (List.map τ.on)).map (Entries.put name (τ.on v)) =
        (frame.constants.map (Entries.put name v)).map (List.map τ.on) := by
      cases frame.constants with
      | none => rfl
      | some entries => exact congrArg some (Entries.put_on name v entries)
    exact congrArg (fun constants => { τ.on frame with constants }) hput
  refine look fun m n hm => ?_
  rw [hm.frame]
  exact branch (bind (modifyFrame constants) fun _ => push) push

omit [τ.Injective] in
theorem evalDeclare (name : String) (constant exported : Bool) (value : Option Expr) :
    Alike τ (Lang.evalDeclare run name constant exported value)
      (Lang.evalDeclare run' name constant exported value) := by
  rw [evalDeclare_eq, evalDeclare_eq]
  cases value with
  | none => exact bind (pure rfl) (declareAs name constant exported)
  | some e => exact bind (flat hrun e) (declareAs name constant exported)

omit [τ.Injective] in
theorem chooseArm : ∀ arms : List (Option Expr × Stmt),
    Alike τ (Lang.chooseArm run arms) (Lang.chooseArm run' arms)
  | [] => pure rfl
  | (none, _) :: _ => pure rfl
  | (some test, _) :: rest =>
    bind (evalTest hrun test) fun _ => branch (pure rfl) (chooseArm rest)

omit hrun [τ.Injective] in
theorem armsFor_on (v : Value) (arms : List (List Pattern × Option Expr × Stmt)) :
    Lang.armsFor (τ.on v) arms = Lang.armsFor v arms := by
  have hliteral (c : Literal) : (τ.on v).same (.ofLiteral c) = v.same (.ofLiteral c) := by
    rw [← on_ofLiteral (ρ := τ.toRenaming) c, same_on, on_ofLiteral]
  simp only [Lang.armsFor, hliteral, rangeAccepts_on]

omit [τ.Injective] in
theorem evalSwitch (v : Value) (arms : List (List Pattern × Option Expr × Stmt)) :
    Alike τ (Lang.evalSwitch run v arms) (Lang.evalSwitch run' (τ.on v) arms) := by
  unfold Lang.evalSwitch
  rw [armsFor_on]
  refine bind (chooseArm hrun _) fun s => ?_
  have hchosen : (s.map τ.on).or (defaultArm? arms) = s.or (defaultArm? arms) := by
    cases s <;> rfl
  rw [on_option, hchosen]
  generalize s.or (defaultArm? arms) = chosen
  cases chosen with
  | none => exact pure rfl
  | some s =>
      cases s with
      | block body pos => exact hrun _
      | _ => exact hrun _

omit hrun [τ.Injective] in
theorem itemsOf (v : Value) (pos : Pos) :
    Alike τ (Lang.itemsOf v pos) (Lang.itemsOf (τ.on v) pos) := by
  cases v with
  | array items => rw [on_value_array]; exact pure rfl
  | str s => exact pure (congrArg Items.list (on_of_within (within_list.mpr fun v hv => by
      obtain ⟨c, -, rfl⟩ := List.mem_map.mp hv
      exact within_of_leafless rfl)).symm)
  | blob bytes => exact pure (congrArg Items.list (on_of_within (within_list.mpr fun v hv => by
      obtain ⟨b, -, rfl⟩ := List.mem_map.mp hv
      exact within_of_leafless rfl)).symm)
  | range first last inclusive => exact pure rfl
  | _ => exact raise rfl

omit hrun [τ.Injective] in
theorem next?_on (items : Items) : (τ.on items).next? = items.next?.map τ.on := by
  cases items with
  | list vs => cases vs <;> rfl
  | span first stop =>
      change Items.next? (.span first stop) = _
      unfold Items.next?
      dsimp only
      split <;> rfl

omit [τ.Injective] in
theorem evalRound (body : List Stmt) :
    Alike τ (Lang.evalRound run body) (Lang.evalRound run' body) := by
  refine bind (attempt (hrun _)) fun r => ?_
  rcases r with (_ | _ | _ | _ | _) | v
  all_goals first | exact pure rfl | exact throw rfl

omit [τ.Injective] in
theorem evalItem (item : String) (counter : Option String) (v : Value) (index : Nat)
    (body : List Stmt) :
    Alike τ (Lang.evalItem run item counter v index body)
      (Lang.evalItem run' item counter (τ.on v) index body) := by
  have count : Alike τ (counter.forM fun name => Eval.bind name (countValue index))
      (counter.forM fun name => Eval.bind name (countValue index)) := by
    cases counter with
    | none => exact pure rfl
    | some name => exact bindVar name (countValue index)
  exact enclosed (bind count fun _ => bind (bindVar item v) fun _ => evalRound hrun body)

omit [τ.Injective] in
theorem evalHandler (f : Fault) (caught : Option String) (handler : List Stmt) :
    Alike τ (Lang.evalHandler run f caught handler)
      (Lang.evalHandler run' (τ.on f) caught handler) := by
  refine enclosed (look fun m n hm => ?_)
  have known : Alike τ (caught.forM fun name => Eval.bind name (f.caught m.frame.source))
      (caught.forM fun name => Eval.bind name ((τ.on f).caught n.frame.source)) := by
    rw [hm.frame, on_frame_source, on_caught]
    cases caught with
    | none => exact pure rfl
    | some name => exact bindVar name _
  refine bind known fun _ => bind (attempt (hrun _)) fun r => ?_
  rcases r with ((⟨cause, pos⟩ | _ | _) | _ | _ | _ | _) | v
  · rcases cause with v | _
    · cases v with
      | unit => exact throw (congrArg Halt.fault (on_movedTo pos f).symm)
      | _ => exact throw rfl
    all_goals exact throw rfl
  all_goals first | exact pure rfl | exact throw rfl

omit [τ.Injective] in
theorem evalTry (body : List Stmt) (caught : Option String) (handler : List Stmt) :
    Alike τ (Lang.evalTry run body caught handler) (Lang.evalTry run' body caught handler) := by
  refine bind (attempt (hrun _)) fun r => ?_
  rcases r with (f | _ | _ | _ | _) | v
  · change Alike τ (if f.catchable then _ else _) (if (τ.on f).catchable then _ else _)
    rw [catchable_on]
    exact branch (evalHandler hrun f caught handler) (throw rfl)
  all_goals first | exact pure rfl | exact throw rfl

omit [τ.Injective] in
theorem evalStmts : ∀ body : List Stmt,
    Alike τ (Lang.evalStmts run body) (Lang.evalStmts run' body)
  | [] => pure rfl
  | [_] => hrun _
  | _ :: t :: rest => bind (hrun _) fun _ => evalStmts (t :: rest)

omit [τ.Injective] in
theorem evalWhile (test : Option Expr) (body : List Stmt) :
    Alike τ (Lang.evalWhile run test body) (Lang.evalWhile run' test body) := by
  have goes : Alike τ (Lang.loopTest run test) (Lang.loopTest run' test) := by
    cases test with
    | none => exact pure rfl
    | some e => exact evalTest hrun e
  refine bind goes fun b => branch (pure rfl) (bind (evalRound hrun body) fun o => ?_)
  cases o with
  | some v => exact pure rfl
  | none => exact hrun _

end Statements

/-! ## Imports -/

section Imports

variable {stage : Stage} {run run' : Run} (hrun : ∀ job, Alike τ (run job) (run' (τ.on job)))
include hrun

omit [τ.Injective] in
theorem evaluateLibrary (script : Script) :
    Alike τ (Lang.evaluateLibrary run script) (Lang.evaluateLibrary run' script) := by
  rw [evaluateLibrary_eq, evaluateLibrary_eq]
  refine apart (fun _ => rfl) (hrun _) fun inner r => ?_
  have hmodule : moduleOf script (τ.on inner) = τ.on (moduleOf script inner) :=
    moduleOf_on script inner
  rcases r with (_ | _ | _ | _ | _) | v
  all_goals first | exact pure hmodule | exact throw rfl

omit [τ.Injective] in
theorem readLibrary (file : FilePath) :
    Alike τ (Lang.readLibrary run file) (Lang.readLibrary run' file) := by
  refine look fun m n hm => ?_
  rw [hm.world.files]
  cases m.world.files.readText file with
  | error e => exact reject _
  | ok source =>
      dsimp only
      cases Script.parse source with
      | error e => exact raise rfl
      | ok script => exact evaluateLibrary hrun _

omit [τ.Injective] hrun in
theorem inModule {α : Type} [Renames α] {x y : Eval α} (text : String) (pos : Place)
    (hx : Alike τ x y) : Alike τ (Lang.inModule text pos x) (Lang.inModule text pos y) := by
  refine bind (attempt hx) fun r => ?_
  rcases r with (f | _ | _ | _ | _) | a
  all_goals first | exact pure rfl | exact throw rfl

omit [τ.Injective] in
/-- What is reported of a load has the number of the instance in it. -/
theorem readAnew (file : FilePath) (modified : Option Instant) (text : String) (pos : Place) :
    Alike τ (Lang.readAnew stage run file modified text pos)
      (Lang.readAnew (τ.on stage) run' file modified text pos) := by
  refine bind (inModule text pos (readLibrary hrun file)) fun module => ?_
  refine bind (modifyWorld fun _ _ h => h.record rfl) fun _ => ?_
  exact bind (keepModule file modified module) fun _ => pure rfl

omit [τ.Injective] in
/-- To load a library is to evaluate it or to find it, and then to keep it. -/
theorem fetchLibrary (file : FilePath) (modified : Option Instant) (text : String) (pos : Place) :
    Alike τ (Lang.fetchLibrary stage run file modified text pos)
      (Lang.fetchLibrary (τ.on stage) run' file modified text pos) := by
  have hcached (realm : Realm) : (τ.on realm).cached? file = (realm.cached? file).map τ.on := by
    rw [Realm.cached?, Realm.cached?, on_realm_modules, List.find?_map, Option.map_map,
      Option.map_map]
    rfl
  have fresh : Alike τ (Lang.readAnew stage run file modified text pos)
      (Lang.readAnew (τ.on stage) run' file modified text pos) :=
    readAnew hrun file modified text pos
  rw [fetchLibrary_eq, fetchLibrary_eq]
  refine look fun m n hm => ?_
  rw [hm.realm, hcached]
  cases m.realm.cached? file with
  | none => exact fresh
  | some cached => exact branch (pure rfl) fresh

omit [τ.Injective] in
theorem resolveLibrary (text : String) (pos : Place) :
    Alike τ (Lang.resolveLibrary stage run text pos)
      (Lang.resolveLibrary (τ.on stage) run' text pos) := by
  unfold Lang.resolveLibrary
  rw [on_stage_libraries]
  cases stage.libraries.path? text with
  | none => exact raise rfl
  | some file =>
      refine look fun m n hm => ?_
      rw [hm.world.files]
      exact fetchLibrary hrun file _ text pos

omit [τ.Injective] in
theorem importLibrary (text : String) (pos : Place) :
    Alike τ (Lang.importLibrary stage run text pos)
      (Lang.importLibrary (τ.on stage) run' text pos) := by
  refine look fun m n hm => ?_
  rw [hm.frame, on_frame_kept, find?_on]
  cases Module.find? text m.frame.kept with
  | some module => exact pure rfl
  | none => exact resolveLibrary hrun text pos

omit [τ.Injective] in
theorem evalImport (path : Expr) (name : Option String) (pos : Pos) :
    Alike τ (Lang.evalImport stage run path name pos)
      (Lang.evalImport (τ.on stage) run' path name pos) := by
  refine bind (flat hrun path) fun v => ?_
  have refused : Alike τ (Eval.raise (.wrongType v.typeName "string") (some path.pos) : Eval Value)
      (Eval.raise (.wrongType (τ.on v).typeName "string") (some path.pos)) := by
    rw [typeName_on]
    exact raise rfl
  cases v with
  | str text =>
      refine bind (importLibrary hrun text (some pos)) fun m => ?_
      have bring (name : String) :
          Alike τ (Eval.modifyFrame fun f => { f with imports := (name, m) :: f.imports })
            (Eval.modifyFrame fun f => { f with imports := (name, τ.on m) :: f.imports }) :=
        modifyFrame fun _ => rfl
      cases name with
      | none => exact bind (pure rfl) fun _ => pure rfl
      | some name => exact bind (bring name) fun _ => pure rfl
  | _ => exact refused

end Imports

/-! ## Jobs -/

section Jobs

variable {stage : Stage} {run run' : Run} (hrun : ∀ job, Alike τ (run job) (run' (τ.on job)))
include hrun

theorem evalStmt (s : Stmt) :
    Alike τ (Lang.evalStmt stage run s) (Lang.evalStmt (τ.on stage) run' s) := by
  cases s with
  | skip => exact pure rfl
  | expr e => exact hrun _
  | declare name constant exported value pos =>
      exact evalDeclare hrun name constant exported value
  | assign op target value pos =>
      refine bind (flat hrun value) fun v => ?_
      exact bind (store hrun op v pos target) fun _ => pure rfl
  | cond test yes no pos => exact bind (evalTest hrun test) fun b => branch (hrun _) (hrun _)
  | switch e arms pos => exact bind (flat hrun e) fun v => evalSwitch hrun v arms
  | whileLoop test body => exact hrun _
  | doLoop body test untilTrue => exact hrun _
  | forLoop item counter items body pos =>
      exact bind (flat hrun items) fun v => bind (itemsOf v items.pos) fun source => hrun _
  | breakLoop value pos => exact bind (evalOption hrun value) fun v => throw rfl
  | continueLoop pos => exact throw rfl
  | ret value pos => exact bind (evalOption hrun value) fun v => throw rfl
  | throw value pos => exact bind (evalOption hrun value) fun v => raise rfl
  | tryCatch body caught handler => exact evalTry hrun body caught handler
  | importModule path name pos => exact evalImport hrun path name pos
  | exportVar name visible pos =>
      refine bind (var? name) fun v => ?_
      cases v with
      | none => exact raise rfl
      | some v =>
          exact bind (alterVar (f := fun v => { v with aliases := v.aliases ++ [visible] })
            (g := fun v => { v with aliases := v.aliases ++ [visible] }) (fun _ => rfl) name)
            fun _ => pure rfl
  | block body pos => exact hrun _

/-- A job is done alike if the jobs inside it are. -/
theorem step (job : Job) :
    Alike τ (Lang.step stage run job) (Lang.step (τ.on stage) run' (τ.on job)) := by
  cases job with
  | expr e => exact evalExpr hrun e
  | stmt s => exact evalStmt hrun s
  | stmts body => exact evalStmts hrun body
  | block body =>
      refine enclosed (bind (modifyFrame fun _ => rfl) fun _ => ?_)
      exact bind (evalStmts hrun body) flatten
  | whileLoop test body => exact evalWhile hrun test body
  | doLoop body test untilTrue =>
      refine bind (evalRound hrun body) fun o => ?_
      cases o with
      | some v => exact pure rfl
      | none => exact bind (evalTest hrun test) fun b => branch (pure rfl) (hrun _)
  | forLoop item counter items index body =>
      change Alike τ _ (Lang.step (τ.on stage) run' (.forLoop item counter (τ.on items) index body))
      unfold Lang.step
      dsimp only
      rw [next?_on]
      cases items.next? with
      | none => exact pure rfl
      | some next =>
          refine bind (evalItem hrun item counter next.1 index body) fun o => ?_
          cases o with
          | some v => exact pure rfl
          | none => exact hrun (.forLoop item counter next.2 (index + 1) body)

end Jobs

/-- Runs of the same job end alike, by induction on the budget. -/
theorem evaluate (stage : Stage) : ∀ (budget : Nat) (job : Job),
    Alike τ (Lang.evaluate stage budget job) (Lang.evaluate (τ.on stage) budget (τ.on job))
  | 0, _ => endless
  | budget + 1, job => step (evaluate stage budget) job

end Alike
end Stagehand.Lang
