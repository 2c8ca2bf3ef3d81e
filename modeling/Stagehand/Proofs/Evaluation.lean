import Stagehand.Proofs.Chains

/-!
# What evaluation does

Every job, done within any budget, is built within the allowance that serves its stage: `step` is
shown to be so whatever other jobs are built of, and a budget is used up by induction.
-/

namespace Stagehand.Lang

variable {A : Allowance} {stage : Stage} {run : Run}

instance : Leafy Receiver := ⟨fun
  | .var x => Leafy.leaves x
  | .this held => Leafy.leaves held
  | _ => []⟩

/-- The variable or the constant that a declaration makes. -/
def Var.declared (name : String) (constant exported : Bool) (v : Value) : Var where
  name
  held := if constant then .const v else { value := v }
  aliases := if exported then [name] else []

/-- A variable or a constant is declared with a value. Functions see the constants of a script. -/
def declareAs (name : String) (constant exported : Bool) (v : Value) : Eval Value := do
  let f := (← get).frame
  if constant && f.level == 0 && f.functions.any (!·.isEmpty) then
    Eval.modifyFrame fun f => { f with constants := f.constants.map (Entries.put name v) }
  Eval.pushVar (.declared name constant exported v)
  return .unit

theorem evalDeclare_eq (run : Run) (name : String) (constant exported : Bool)
    (value : Option Expr) :
    evalDeclare run name constant exported value =
      (match value with
        | some e => flat run e
        | none => pure .unit) >>= declareAs name constant exported := by
  cases value <;> rfl

theorem within_declared {name : String} {constant exported : Bool} {v : Value} (hv : Within A v) :
    Within A (Var.declared name constant exported v) := by
  cases constant with
  | true => exact within_var.mpr (within_const hv)
  | false => exact within_var.mpr (within_mutable hv)

namespace Built

/-! ## Expressions -/

theorem flat (hrun : RunBuilt A stage run) {e : Expr} : Built A stage (Lang.flat run e) :=
  (hrun.expr e).bind fun _ hv => flatten hv

theorem evalTest (hrun : RunBuilt A stage run) {e : Expr} :
    Built A stage (Lang.evalTest run e) := by
  refine (flat hrun).bind fun v _ => ?_
  split
  · exact pure (within_bool _)
  · exact raise_leafless rfl

theorem readName (hA : Serves A stage) {name : String} {known : Bool} {pos : Pos} :
    Built A stage (Lang.readName stage name known pos) := by
  refine (slot hA).bind fun s hslot => ?_
  split
  · exact pure hslot
  · exact pure (within_held.mp hslot).1

theorem evalArgs (hA : Serves A stage) (hrun : RunBuilt A stage run) {args : List Expr} :
    Built A stage (Lang.evalArgs stage run args) := by
  have flats : ∀ {es : List Expr}, Built A stage (es.mapM (Lang.flat run)) :=
    mapM fun _ _ => flat hrun
  have copy : Within A Receiver.copy := within_of_leafless rfl
  unfold Lang.evalArgs
  split
  · refine flats.bind fun rest hrest => (slot hA).bind fun s hslot => ?_
    split
    · exact pure (within_pair.mpr
        ⟨within_list.mpr (List.forall_mem_cons.mpr ⟨hslot, within_list.mp hrest⟩), copy⟩)
    · rename_i x
      have hx : Within A x := hslot
      refine (flatten (within_held.mp hx).1).bind fun v hv => ?_
      have hvs := within_list.mpr (List.forall_mem_cons.mpr ⟨hv, within_list.mp hrest⟩)
      split
      · exact pure (within_pair.mpr ⟨hvs, copy⟩)
      · exact pure (within_pair.mpr ⟨hvs, copy⟩)
      · exact pure (within_pair.mpr ⟨hvs, hx⟩)
  · refine flats.bind fun rest hrest => inspect (fun m hm => ?_) fun _ _ => rfl
    have hthis := within_this hm.frame
    split
    · exact raise_leafless rfl
    · rename_i held hheld
      have hh : Within A held := within_option.mp hthis held hheld
      refine pure (within_pair.mpr ⟨within_list.mpr (List.forall_mem_cons.mpr
        ⟨(within_held.mp hh).1, within_list.mp hrest⟩), ?_⟩)
      dsimp only
      split
      · exact copy
      · exact hh
  · exact flats.bind fun vs hvs => pure (within_pair.mpr ⟨hvs, within_of_leafless rfl⟩)
  · exact flats.bind fun vs hvs => pure (within_pair.mpr ⟨hvs, copy⟩)

theorem keep {r : Receiver} {v : Value} (hr : Within A r) (hv : Within A v) :
    Built A stage (r.keep v) := by
  cases r with
  | var x => exact setVar hr hv
  | this held => exact setThis hr hv
  | copy | constant => exact pure (within_unit ())

theorem evalCall (hA : Serves A stage) (hrun : RunBuilt A stage run) {name : String}
    {args : List Expr} {pos : Pos} : Built A stage (Lang.evalCall stage run name args pos) := by
  refine (evalArgs hA hrun).bind fun p hp => ?_
  obtain ⟨hvs, hr⟩ := within_pair.mp hp
  have ha := within_list.mp hvs
  dsimp only
  split
  · rename_i x hx
    exact languageCall hA hrun ha hx
  · refine ensureFree.bind fun _ _ => function?.bind fun f _ => ?_
    split
    · refine (callFunction hrun ha within_none (within_of_leafless rfl)).bind fun u hu => ?_
      exact valueOf hu
    · refine (callBuiltIn hA hrun ha).bind fun u hu => ?_
      refine (forM_option fun v hv => ?_).bind fun _ _ => valueOf hu
      exact keep hr (within_option.mp (within_upshot.mp hu).2 v hv)

theorem evalMemberCall (hA : Serves A stage) (hrun : RunBuilt A stage run) {path : ModulePath}
    {name : String} {args : List Expr} {pos : Pos} :
    Built A stage (Lang.evalMemberCall stage run path name args pos) := by
  refine (evalArgs hA hrun).bind fun p hp => library.bind fun ms hms => ?_
  have ha := within_list.mp (within_pair.mp hp).1
  dsimp only
  split
  · refine (callFunction hrun ha within_none ?_).bind fun u hu => valueOf hu
    exact (within_pair.mp hms).2
  · exact raise_leafless rfl

theorem evalClosure (hA : Serves A stage) {name : String} {captured : List (String × Pos)} :
    Built A stage (Lang.evalClosure stage name captured) := by
  refine (forM_list fun c _ => ?_).bind fun _ _ => ?_
  · refine var?.bind fun v hv => ?_
    split
    · exact shareVar hv
    · exact raise_leafless rfl
  · refine (mapM fun c _ => readName hA).bind fun vs hvs => anyFunction?.bind fun f _ => ?_
    exact pure (within_fn.mpr (within_list.mp hvs))

theorem evalExpr (hA : Serves A stage) (hrun : RunBuilt A stage run) {e : Expr} :
    Built A stage (Lang.evalExpr stage run e) := by
  cases e with
  | literal c pos => exact pure (within_ofLiteral c)
  | builtin name pos =>
      unfold Lang.evalExpr
      dsimp only
      split
      · rename_i c hc
        exact pure (within_handle.mpr (hA.builtin? hc))
      · exact pure within_value_unit
  | template parts pos =>
      exact (mapM fun _ _ => flat hrun).bind fun vs _ => pure (within_value_str _)
  | array items pos =>
      refine (mapM fun _ _ => flat hrun).bind fun vs hvs => ?_
      exact pure (within_array.mpr (within_list.mp hvs))
  | object fields pos =>
      refine (mapM fun field _ => (flat hrun).bind fun v hv => ?_).bind fun vs hvs => ?_
      · exact pure (within_pair.mpr ⟨within_string _, hv⟩)
      · exact pure (within_object.mpr (within_list.mp (within_ofList hvs)))
  | var name known pos => exact readName hA
  | this pos =>
      refine inspect (fun m hm => ?_) fun _ _ => rfl
      have hthis := within_this hm.frame
      split
      · rename_i held hheld
        exact pure (within_held.mp (within_option.mp hthis held hheld)).1
      · exact raise_leafless rfl
  | member path name pos => exact evalMember
  | call name args pos => exact evalCall hA hrun
  | memberCall path name args pos => exact evalMemberCall hA hrun
  | unary op operand pos => exact (flat hrun).bind fun v _ => orRaise (within_unaryOp op v)
  | binary op l r pos =>
      refine (flat hrun).bind fun a ha => (flat hrun).bind fun b hb => ?_
      exact orRaise (within_binaryOp op ha hb)
  | and l r pos =>
      refine (evalTest hrun).bind fun b _ => ite ?_ (pure (within_value_bool _))
      exact (evalTest hrun).bind fun _ _ => pure (within_value_bool _)
  | or l r pos =>
      refine (evalTest hrun).bind fun b _ => ite (pure (within_value_bool _)) ?_
      exact (evalTest hrun).bind fun _ _ => pure (within_value_bool _)
  | coalesce l r pos =>
      refine (flat hrun).bind fun v hv => ?_
      split
      · exact hrun.expr r
      · exact pure hv
  | chain base steps => exact evalChain hA hrun within_none
  | control s pos =>
      cases s with
      | block body _ => exact hrun.block body
      | _ => exact hrun.stmt _
  | closure name captured pos => exact evalClosure hA

/-! ## Statements -/

theorem declareAs {name : String} {constant exported : Bool} {v : Value} (hv : Within A v) :
    Built A stage (Lang.declareAs name constant exported v) := by
  have push : Built A stage (do
      Eval.pushVar (.declared name constant exported v)
      return Value.unit) :=
    (pushVar (within_declared hv)).bind fun _ _ => pure within_value_unit
  refine inspect (fun m _ => ?_) fun _ _ => rfl
  dsimp only
  split
  · refine bind (alter (fun f hf => within_frame_constants hf ?_) (fun _ => rfl) fun _ => rfl)
      fun _ _ => push
    refine within_option.mpr fun cs hcs => ?_
    obtain ⟨old, hold, rfl⟩ := Option.map_eq_some_iff.mp hcs
    exact within_put hv (within_option.mp (within_frame.mp hf).2.2.2.1 old hold)
  · exact push

theorem evalDeclare (hrun : RunBuilt A stage run) {name : String} {constant exported : Bool}
    {value : Option Expr} : Built A stage (Lang.evalDeclare run name constant exported value) := by
  rw [evalDeclare_eq]
  cases value with
  | none => exact (pure within_value_unit).bind fun v hv => declareAs hv
  | some e => exact (flat hrun).bind fun v hv => declareAs hv

theorem chooseArm (hrun : RunBuilt A stage run) :
    ∀ {arms : List (Option Expr × Stmt)}, Built A stage (Lang.chooseArm run arms)
  | [] => pure within_none
  | (none, body) :: _ => pure (within_some.mpr (within_stmt body))
  | (some test, body) :: rest => by
    unfold Lang.chooseArm
    exact (evalTest hrun).bind fun _ _ => ite (pure (within_some.mpr (within_stmt body)))
      (chooseArm hrun)

theorem evalSwitch (hrun : RunBuilt A stage run) {v : Value}
    {arms : List (List Pattern × Option Expr × Stmt)} :
    Built A stage (Lang.evalSwitch run v arms) := by
  refine (chooseArm hrun).bind fun s _ => ?_
  split
  · exact hrun.block _
  · exact hrun.block _
  · exact pure within_value_unit

theorem itemsOf {v : Value} {pos : Pos} (hv : Within A v) : Built A stage (Lang.itemsOf v pos) := by
  unfold Lang.itemsOf
  split
  · exact pure (show Within A (_ : List Value) from within_list.mpr (within_array.mp hv))
  · refine pure (show Within A (_ : List Value) from within_list.mpr fun v hv => ?_)
    obtain ⟨_, -, rfl⟩ := List.mem_map.mp hv
    exact within_value_char _
  · refine pure (show Within A (_ : List Value) from within_list.mpr fun v hv => ?_)
    obtain ⟨_, -, rfl⟩ := List.mem_map.mp hv
    exact within_value_int _
  · exact pure (within_of_leafless rfl)
  · exact raise_leafless rfl

theorem evalRound (hrun : RunBuilt A stage run) {body : List Stmt} :
    Built A stage (Lang.evalRound run body) := by
  refine (attempt (hrun.block body)).bind fun r hr => ?_
  split
  · exact pure within_none
  · exact pure within_none
  · exact pure (within_some.mpr hr)
  · exact throw hr

theorem evalItem (hrun : RunBuilt A stage run) {item : String} {counter : Option String} {v : Value}
    {index : Nat} {body : List Stmt} (hv : Within A v) :
    Built A stage (Lang.evalItem run item counter v index body) := by
  refine enclosed ?_
  refine (forM_option fun name _ => bindVar (within_value_int _)).bind fun _ _ => ?_
  exact (bindVar hv).bind fun _ _ => evalRound hrun

theorem evalHandler (hrun : RunBuilt A stage run) {f : Fault} {caught : Option String}
    {handler : List Stmt} (hf : Within A f) :
    Built A stage (Lang.evalHandler run f caught handler) := by
  refine enclosed (inspect (fun m _ => ?_) fun _ _ => rfl)
  refine (forM_option fun name _ => bindVar (within_caught _ hf)).bind fun _ _ => ?_
  refine (attempt (hrun.block handler)).bind fun r hr => ?_
  split
  · exact pure within_value_unit
  · exact throw (within_movedTo.mpr hf)
  · exact throw hr

theorem evalTry (hrun : RunBuilt A stage run) {body : List Stmt} {caught : Option String}
    {handler : List Stmt} : Built A stage (Lang.evalTry run body caught handler) := by
  refine (attempt (hrun.block body)).bind fun r hr => ?_
  split
  · exact pure within_value_unit
  · exact ite (evalHandler hrun hr) (throw hr)
  · exact throw hr

theorem evalImport (hrun : RunBuilt A stage run) {path : Expr} {name : Option String} {pos : Pos} :
    Built A stage (Lang.evalImport stage run path name pos) := by
  refine (flat hrun).bind fun v _ => ?_
  split
  · rw [← bind_assoc]
    exact (bringLibrary hrun).bind fun _ _ => pure within_value_unit
  · exact raise_leafless rfl

theorem evalOption (hrun : RunBuilt A stage run) {value : Option Expr} :
    Built A stage (Lang.evalOption run value) := by
  cases value with
  | none => exact pure within_value_unit
  | some e => exact flat hrun

theorem evalStmt (hA : Serves A stage) (hrun : RunBuilt A stage run) {s : Stmt} :
    Built A stage (Lang.evalStmt stage run s) := by
  cases s with
  | skip => exact pure within_value_unit
  | expr e => exact hrun.expr e
  | declare name constant exported value pos => exact evalDeclare hrun
  | assign op target value pos =>
      exact (flat hrun).bind fun v hv => (store hA hrun hv).bind fun _ _ => pure within_value_unit
  | cond test yes no pos =>
      exact (evalTest hrun).bind fun _ _ => ite (hrun.block yes) (hrun.block no)
  | switch e arms pos => exact (flat hrun).bind fun _ _ => evalSwitch hrun
  | whileLoop test body => exact hrun.job _ (within_of_leafless rfl)
  | doLoop body test untilTrue => exact hrun.job _ (within_of_leafless rfl)
  | forLoop item counter items body pos =>
      exact (flat hrun).bind fun v hv => (itemsOf hv).bind fun source hs => hrun.job _ hs
  | breakLoop value pos => exact (evalOption hrun).bind fun v hv => throw hv
  | continueLoop pos => exact throw within_halt_again
  | ret value pos => exact (evalOption hrun).bind fun v hv => throw hv
  | throw value pos => exact (evalOption hrun).bind fun v hv => raise hv
  | tryCatch body caught handler => exact evalTry hrun
  | importModule path name pos => exact evalImport hrun
  | exportVar name visible pos =>
      refine var?.bind fun v _ => ?_
      split
      · exact raise_leafless rfl
      · refine bind (alter (fun f hf => ?_) (fun _ => rfl) fun _ => rfl)
          fun _ _ => pure within_value_unit
        refine within_frame_vars hf (within_list.mpr ?_)
        refine within_alterVar (fun x hx => ?_) (within_vars hf)
        exact within_var.mpr (within_var.mp hx)
  | block body pos => exact hrun.block body

theorem evalStmts (hrun : RunBuilt A stage run) :
    ∀ {body : List Stmt}, Built A stage (Lang.evalStmts run body)
  | [] => pure within_value_unit
  | [s] => hrun.stmt s
  | s :: t :: rest => by
    unfold Lang.evalStmts
    exact (hrun.stmt s).bind fun _ _ => evalStmts hrun

theorem evalBlock (hrun : RunBuilt A stage run) {body : List Stmt} :
    Built A stage (Lang.evalBlock run body) := by
  refine enclosed (bind (alter (fun _ hf => hf) (fun _ => rfl) fun _ => rfl) fun _ _ => ?_)
  exact (evalStmts hrun).bind fun _ hv => flatten hv

/-! ## Jobs -/

theorem within_next? {items rest : Items} {v : Value} (hi : Within A items)
    (h : items.next? = some (v, rest)) : Within A v ∧ Within A rest := by
  unfold Items.next? at h
  split at h
  · nomatch h
  · cases h
    have hi := List.forall_mem_cons.mp (within_list.mp (show Within A (_ : List Value) from hi))
    exact ⟨hi.1, within_list.mpr hi.2⟩
  · split at h <;> cases h
    exact ⟨within_value_int _, within_of_leafless rfl⟩

theorem loopTest (hrun : RunBuilt A stage run) {test : Option Expr} :
    Built A stage (Lang.loopTest run test) := by
  cases test with
  | none => exact pure (within_bool true)
  | some e => exact evalTest hrun

theorem evalWhile (hrun : RunBuilt A stage run) {test : Option Expr} {body : List Stmt} :
    Built A stage (Lang.evalWhile run test body) := by
  refine (loopTest hrun).bind fun goes _ => ite (pure within_value_unit) ?_
  refine (evalRound hrun).bind fun o ho => ?_
  cases o with
  | some v => exact pure ho
  | none => exact hrun.job _ (within_of_leafless rfl)

/-- One job, if the jobs inside it are built within the allowance. -/
theorem step (hA : Serves A stage) (hrun : RunBuilt A stage run) {job : Job} (hj : Within A job) :
    Built A stage (Lang.step stage run job) := by
  cases job with
  | expr e => exact evalExpr hA hrun
  | stmt s => exact evalStmt hA hrun
  | stmts body => exact evalStmts hrun
  | block body => exact evalBlock hrun
  | whileLoop test body => exact evalWhile hrun
  | doLoop body test untilTrue =>
      refine (evalRound hrun).bind fun o ho => ?_
      cases o with
      | some v => exact pure ho
      | none =>
          refine (evalTest hrun).bind fun b _ => ite (pure within_value_unit) ?_
          exact hrun.job _ (within_of_leafless rfl)
  | forLoop item counter items index body =>
      unfold Lang.step
      dsimp only
      split
      · exact pure within_value_unit
      · rename_i v rest hnext
        obtain ⟨hv, hrest⟩ := within_next? hj hnext
        refine (evalItem hrun hv).bind fun o ho => ?_
        cases o with
        | some v => exact pure ho
        | none => exact hrun.job _ hrest

/-- Whatever a script does within a budget is built within what it was served. -/
theorem evaluate (hA : Serves A stage) : ∀ budget, RunBuilt A stage (Lang.evaluate stage budget)
  | 0 => ⟨fun _ _ => endless, 0, rfl⟩
  | budget + 1 => ⟨fun _ hj => step hA (evaluate hA budget) hj, budget + 1, rfl⟩

end Built
end Stagehand.Lang
