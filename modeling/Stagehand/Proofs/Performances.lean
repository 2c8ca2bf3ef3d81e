import Stagehand.Instance

/-!
# Loads and calls as relations

A load and a call run code of scripts, from frames that they make of the binding, and make something
of how the code ends. `Script.Binds` and `Binding.Responds` say all of what they can do, with one
constructor for each way it can go, and the `_iff` lemmas say the same of the functions above them.
What follows from the code alone, whatever frame it starts in, follows from `Performed`.
-/

namespace Stagehand

open Lang

/-! ## Runs of code -/

/-- Code of scripts, to be run for an instance: the imports of a script, statements, and function
values. -/
inductive Code (stage : Stage) : {α : Type} → Eval α → Prop
  | imports (budget : Nat) (texts : List String) :
      Code stage (keepLibraries stage (evaluate stage budget) texts)
  | body (budget : Nat) (stmts : List Stmt) : Code stage (evaluate stage budget (.stmts stmts))
  | value (budget : Nat) (name : String) (function : Option FnDef) (args : List Value) :
      Code stage (do
        Eval.valueOf (← callValue stage (evaluate stage budget) name function none args none))
  | deeper {α : Type} {x : Eval α} (hx : Code stage x) : Code stage (Eval.deeper x)

/-- From one world to the other, code of scripts was run for the instance, and that is all. -/
inductive Performed (stage : Stage) : World → World → Prop
  | nothing (w : World) : Performed stage w w
  | code {α : Type} {x : Eval α} {frame frame' : Frame} {r : Except Halt α} {w w₁ w' : World}
      (hx : Code stage x) (h : perform stage x frame w = some (r, frame', w₁))
      (hrest : Performed stage w₁ w') : Performed stage w w'

theorem Performed.once {stage : Stage} {α : Type} {x : Eval α} {frame frame' : Frame}
    {r : Except Halt α} {w w' : World} (hx : Code stage x)
    (h : perform stage x frame w = some (r, frame', w')) : Performed stage w w' :=
  .code hx h (.nothing w')

/-! ## Loads -/

namespace Lang.Script

/-- The frame that the top level of a script starts in. -/
def frame (script : Script) (stage : Stage) (kept : List (String × Module)) : Frame :=
  { vars := hostVars stage, functions := [script.functions], constants := some [], kept }

/-- What comes of a script whose top level ended in a frame and a world. -/
def bound (script : Script) (stage : Stage) (kept : List (String × Module)) (r : Except Halt Value)
    (frame : Frame) (w : World) : Except ReloadError Binding :=
  match faultOf r with
  | some f => .error (.run stage.owner.name f)
  | none =>
    let entries := findEntries script.functions frame.vars (w.realm stage.owner.id).heap
    .ok ⟨script.functions, frame.vars, kept, entries, 0⟩

variable {budget : Nat} {stage : Stage} {script : Script} {kept : List (String × Module)}
  {w w' : World}

theorem bound_ok {r : Except Halt Value} {frame : Frame} {b : Binding}
    (h : script.bound stage kept r frame w = .ok b) :
    faultOf r = none ∧
      b = ⟨script.functions, frame.vars, kept,
        findEntries script.functions frame.vars (w.realm stage.owner.id).heap, 0⟩ := by
  unfold bound at h
  split at h
  · nomatch h
  · rename_i hfault
    exact ⟨hfault, (Except.ok.inj h).symm⟩

/-- How a script is bound: its imports are resolved, and if that succeeds, its top level is run. -/
inductive Binds (budget : Nat) (stage : Stage) (script : Script) (w : World) :
    Except ReloadError Binding → World → Prop
  | unresolved {halt : Halt} {last : Frame} {w' : World}
      (hkeep : perform stage (keepLibraries stage (evaluate stage budget) script.imports) {} w =
        some (.error halt, last, w')) :
      Binds budget stage script w
        (.error (.compile stage.owner.name
          ((faultOf (.error halt : Except Halt Unit)).getD default))) w'
  | ended {kept : List (String × Module)} {last₁ last : Frame} {r : Except Halt Value}
      {w₁ w' : World}
      (hkeep : perform stage (keepLibraries stage (evaluate stage budget) script.imports) {} w =
        some (.ok kept, last₁, w₁))
      (hbody : perform stage (evaluate stage budget (.stmts script.body))
        (script.frame stage kept) w₁ = some (r, last, w')) :
      Binds budget stage script w (script.bound stage kept r last w') w'

end Lang.Script

variable {budget : Nat} {stage : Stage} {libraries : Libraries} {w w' : World}

theorem bindScript_iff {script : Script} {r : Except ReloadError Binding} :
    bindScript budget stage script w = some (r, w') ↔ script.Binds budget stage w r w' := by
  constructor
  · intro h
    obtain ⟨⟨r₁, last₁, w₁⟩, hkeep, h⟩ := Option.bind_eq_some_iff.mp h
    cases r₁ with
    | error halt =>
        cases h
        exact .unresolved hkeep
    | ok kept =>
        obtain ⟨⟨r₂, last₂, w₂⟩, hbody, h⟩ := Option.bind_eq_some_iff.mp h
        have hended : r = script.bound stage kept r₂ last₂ w₂ ∧ w' = w₂ := by
          unfold Script.bound
          dsimp only at h
          cases hfault : faultOf r₂ <;> rw [hfault] at h <;> cases h <;> exact ⟨rfl, rfl⟩
        obtain ⟨rfl, rfl⟩ := hended
        exact .ended hkeep hbody
  · intro h
    cases h with
    | unresolved hkeep => exact Option.bind_eq_some_iff.mpr ⟨_, hkeep, rfl⟩
    | @ended kept last₁ last r₂ w₁ _ hkeep hbody =>
        refine Option.bind_eq_some_iff.mpr ⟨_, hkeep, Option.bind_eq_some_iff.mpr ⟨_, hbody, ?_⟩⟩
        unfold Script.bound
        dsimp only
        cases faultOf r₂ <;> rfl

/-- A script that cannot be read or parsed is not run at all. -/
theorem build_iff {source : FilePath} {r : Except ReloadError Binding} :
    build budget stage source w = some (r, w') ↔
      (∃ e, readScript w.files source stage.owner.name = .error e ∧ r = .error e ∧ w' = w) ∨
      ∃ script, readScript w.files source stage.owner.name = .ok script ∧
        script.Binds budget stage w r w' := by
  unfold build
  cases hread : readScript w.files source stage.owner.name with
  | error e => simp [eq_comm]
  | ok script => simp [bindScript_iff]

/-- What was run if a binding came of it, and what the binding is. -/
theorem build_ok {source : FilePath} {b : Binding}
    (h : build budget stage source w = some (.ok b, w')) :
    ∃ script kept last₁ last r w₁, readScript w.files source stage.owner.name = .ok script ∧
      perform stage (keepLibraries stage (evaluate stage budget) script.imports) {} w =
        some (.ok kept, last₁, w₁) ∧
      perform stage (evaluate stage budget (.stmts script.body)) (script.frame stage kept) w₁ =
        some (r, last, w') ∧
      faultOf r = none ∧ b = ⟨script.functions, last.vars, kept,
        findEntries script.functions last.vars (w'.realm stage.owner.id).heap, 0⟩ := by
  rcases build_iff.mp h with ⟨e, -, herror, -⟩ | ⟨script, hscript, hbinds⟩
  · nomatch herror
  · generalize hbound : (Except.ok b : Except ReloadError Binding) = r at hbinds
    cases hbinds with
    | unresolved => nomatch hbound
    | ended hkeep hbody =>
        exact ⟨script, _, _, _, _, _, hscript, hkeep, hbody, Script.bound_ok hbound.symm⟩

theorem build_performed {source : FilePath} {r : Except ReloadError Binding}
    (h : build budget stage source w = some (r, w')) : Performed stage w w' := by
  rcases build_iff.mp h with ⟨e, -, -, rfl⟩ | ⟨script, -, h⟩
  · exact .nothing _
  · cases h with
    | unresolved hkeep => exact .once (.imports budget _) hkeep
    | ended hkeep hbody => exact .code (.imports budget _) hkeep (.once (.body budget _) hbody)

/-- How an attempt can end. -/
theorem Instance.reload_cases {i i' : Instance} {r : Except ReloadError Unit}
    (h : i.reload budget libraries w = some (r, i', w')) :
    (∃ b w₁, build budget (i.stage libraries) i.source w = some (.ok b, w₁) ∧ r = .ok () ∧
      i' = i.loaded b w₁.clock ∧ w' = (w₁.record (i.successReport b)).tick.2) ∨
    (∃ e w₁, build budget (i.stage libraries) i.source w = some (.error e, w₁) ∧ r = .error e ∧
      i' = i.notLoaded e ∧ w' = w₁.record (i.failureReport e)) := by
  obtain ⟨⟨built, w₁⟩, hbuild, h⟩ := Option.bind_eq_some_iff.mp h
  cases built with
  | ok b =>
      cases h
      exact .inl ⟨b, w₁, hbuild, rfl, rfl, rfl⟩
  | error e =>
      cases h
      exact .inr ⟨e, w₁, hbuild, rfl, rfl, rfl⟩

/-! ## Calls -/

/-- A function value that is called by the host, which a native function is one call deeper for. -/
def Lang.callAlone (stage : Stage) (run : Run) (name : String) (function : Option FnDef)
    (args : List Value) : Eval Value :=
  let call : Eval Value := do
    Eval.valueOf (← callValue stage run name function none args none)
  if function.isSome then call else Eval.deeper call

theorem Code.alone (budget : Nat) (name : String) (function : Option FnDef) (args : List Value) :
    Code stage (callAlone stage (evaluate stage budget) name function args) := by
  unfold callAlone
  split
  · exact .value budget name function args
  · exact .deeper (.value budget name function args)

namespace Binding

/-- The function of a name that takes so many arguments. -/
def function? (b : Binding) (name : String) (args : List Value) : Option FnDef :=
  b.functions.find? fun f => f.name == name && f.params.length == args.length

/-- The frame that a function of a binding starts in: its parameters lie on the variables of the top
level. -/
def frame (b : Binding) (f : FnDef) (args : List Value) : Frame :=
  let params := ((f.params.zip args).map fun (name, value) =>
    ({ name, held := { value } } : Var)).reverse
  { vars := params ++ b.vars, functions := [b.functions], kept := b.kept, level := 1 }

/-- The binding after a call that ended in a frame: what the call declared itself is gone. -/
def resumed (b : Binding) (last : Frame) : Binding :=
  { b with vars := last.vars.drop (last.vars.length - b.vars.length) }

/-- How a binding responds to a call of what it has for an entry point. -/
inductive Responds (budget : Nat) (stage : Stage) (b : Binding) (e : EntryPoint)
    (args : List Value) (w : World) : Callable → Except Fault Value → Binding → World → Prop
  | unfit (hfind : b.function? e.name args = none) :
      Responds budget stage b e args w .function
        (.error (.raised (.functionNotFound e.name) none)) b w
  | function {f : FnDef} {r : Except Halt Value} {last : Frame} {w' : World}
      (hfind : b.function? e.name args = some f)
      (hbody : perform stage (evaluate stage budget (.stmts f.body)) (b.frame f args) w =
        some (r, last, w')) :
      Responds budget stage b e args w .function (Instance.ended stage w' r) (b.resumed last) w'
  | value {name : String} {curried : List Value} {function : Option FnDef}
      {r : Except Halt Value} {last : Frame} {w' : World}
      (hcall : perform stage
        (callAlone stage (evaluate stage budget) name function (curried ++ args))
        { functions := [b.functions] } w = some (r, last, w')) :
      Responds budget stage b e args w (.value name curried function)
        (Instance.ended stage w' r) b w'

end Binding

namespace Instance

variable {i i' : Instance} {e : EntryPoint}

theorem callable?_cases {b : Binding} {c : Callable} (h : i.callable? e = some (b, c)) :
    i.binding = some b ∧ ∃ e', (e', c) ∈ b.entries := by
  obtain ⟨b', hb, hfind⟩ := Option.bind_eq_some_iff.mp h
  obtain ⟨⟨e', c'⟩, hmem, heq⟩ := Option.map_eq_some_iff.mp hfind
  cases heq
  exact ⟨hb, e', List.mem_of_find?_eq_some hmem⟩

section Responses

variable {b b' : Binding} {args : List Value} {r : Except Fault Value}

theorem callNamed_iff :
    callNamed (evaluate stage budget) stage b e.name args w = some (r, b', w') ↔
      b.Responds budget stage e args w .function r b' w' := by
  unfold callNamed
  constructor
  · intro h
    split at h
    · rename_i hfind
      cases h
      exact .unfit hfind
    · rename_i f hfind
      obtain ⟨⟨r, last, w₁⟩, hbody, h⟩ := Option.bind_eq_some_iff.mp h
      cases h
      exact .function hfind hbody
  · intro h
    cases h with
    | unfit hfind =>
        unfold Binding.function? at hfind
        rw [hfind]
    | function hfind hbody =>
        unfold Binding.function? at hfind
        rw [hfind]
        exact Option.bind_eq_some_iff.mpr ⟨_, hbody, rfl⟩

theorem callPointer_iff {name : String} {curried : List Value} {function : Option FnDef} :
    callPointer (evaluate stage budget) stage b name curried function args w = some (r, b', w') ↔
      b.Responds budget stage e args w (.value name curried function) r b' w' := by
  constructor
  · intro h
    obtain ⟨⟨r, last, w₁⟩, hcall, h⟩ := Option.bind_eq_some_iff.mp h
    cases h
    exact .value hcall
  · intro h
    cases h with
    | value hcall => exact Option.bind_eq_some_iff.mpr ⟨_, hcall, rfl⟩

end Responses

/-- An instance that is ready and has the entry point calls it, and its binding is what the call
leaves; otherwise nothing happens. -/
theorem call_iff {args : List Value} {o : Option (Except Fault Value)} :
    i.call budget libraries e args w = some (o, i', w') ↔
      (∃ b c r b', i.state = .ready ∧ i.callable? e = some (b, c) ∧
        b.Responds budget (i.stage libraries) e args w c r b' w' ∧
        o = some r ∧ i' = { i with binding := some b' }) ∨
      (¬(i.state = .ready ∧ (i.callable? e).isSome = true) ∧ o = none ∧ i' = i ∧ w' = w) := by
  unfold call
  split
  · rename_i b c hready hc
    constructor
    · intro h
      cases c with
      | function =>
          obtain ⟨⟨r, b', w₁⟩, hcall, h⟩ := Option.bind_eq_some_iff.mp h
          cases h
          exact .inl ⟨b, _, r, b', hready, hc, callNamed_iff.mp hcall, rfl, rfl⟩
      | value =>
          obtain ⟨⟨r, b', w₁⟩, hcall, h⟩ := Option.bind_eq_some_iff.mp h
          cases h
          exact .inl ⟨b, _, r, b', hready, hc, callPointer_iff.mp hcall, rfl, rfl⟩
    · rintro (⟨b₁, c₁, r, b', -, hc₁, hresponds, rfl, rfl⟩ | ⟨hnot, -⟩)
      · cases hc.symm.trans hc₁
        cases c with
        | function =>
            exact Option.bind_eq_some_iff.mpr ⟨_, callNamed_iff.mpr hresponds, rfl⟩
        | value => exact Option.bind_eq_some_iff.mpr ⟨_, callPointer_iff.mpr hresponds, rfl⟩
      · exact absurd ⟨hready, by rw [hc]; rfl⟩ hnot
  · rename_i hnot
    constructor
    · intro h
      cases h
      refine .inr ⟨fun ⟨hready, hsome⟩ => ?_, rfl, rfl, rfl⟩
      obtain ⟨⟨b, c⟩, hc⟩ := Option.isSome_iff_exists.mp hsome
      exact hnot b c hready hc
    · rintro (⟨b, c, r, b', hready, hc, -⟩ | ⟨-, rfl, rfl, rfl⟩)
      · exact absurd hc (hnot b c hready)
      · rfl

/-- What a call comes to for the instance that was called. -/
def outcome (i : Instance) (e : EntryPoint) : Option (Except Fault Value) → Outcome
  | none => .skipped
  | some (.ok v) => .completed v
  | some (.error f) => .failed ⟨i.name, e, f.message⟩

variable {args : List HostValue} {o : Outcome}

/-- A stopped instance is not called. -/
theorem invoke_iff :
    i.invoke budget libraries e args w = some (o, i', w') ↔
      (i.running = true ∧ ∃ r, i.call budget libraries e (args.map HostValue.toScript) w =
        some (r, i', w') ∧ o = i'.outcome e r) ∨
      (i.running = false ∧ o = .skipped ∧ i' = i ∧ w' = w) := by
  unfold invoke
  cases i.running with
  | false => simp [eq_comm]
  | true =>
      simp only [Bool.not_true, Bool.false_eq_true, if_false, true_and, false_and, or_false,
        reduceCtorEq]
      constructor
      · intro h
        obtain ⟨⟨r, i₁, w₁⟩, hcall, h⟩ := Option.bind_eq_some_iff.mp h
        rcases r with _ | (f | v) <;> cases h <;> exact ⟨_, hcall, rfl⟩
      · rintro ⟨r, hcall, rfl⟩
        refine Option.bind_eq_some_iff.mpr ⟨_, hcall, ?_⟩
        rcases r with _ | (f | v) <;> rfl

/-- A failure is reported and stops the instance. -/
theorem dispatch_iff :
    i.dispatch budget libraries e args w = some (o, i', w') ↔
      (∃ err i₁ w₁, i.invoke budget libraries e args w = some (.failed err, i₁, w₁) ∧
        o = .failed err ∧ i' = i₁.stop ∧ w' = w₁.record err.report) ∨
      (i.invoke budget libraries e args w = some (o, i', w') ∧ o.isFailed = false) := by
  constructor
  · intro h
    obtain ⟨⟨o₁, i₁, w₁⟩, hinvoke, h⟩ := Option.bind_eq_some_iff.mp h
    cases o₁ with
    | failed err =>
        cases h
        exact .inl ⟨err, i₁, w₁, hinvoke, rfl, rfl, rfl⟩
    | skipped | completed _ =>
        cases h
        exact .inr ⟨hinvoke, rfl⟩
  · rintro (⟨err, i₁, w₁, hinvoke, rfl, rfl, rfl⟩ | ⟨hinvoke, hfailed⟩)
    · exact Option.bind_eq_some_iff.mpr ⟨_, hinvoke, rfl⟩
    · refine Option.bind_eq_some_iff.mpr ⟨_, hinvoke, ?_⟩
      cases o with
      | failed => nomatch hfailed
      | skipped | completed => rfl

theorem invoke_performed (h : i.invoke budget libraries e args w = some (o, i', w')) :
    Performed (i.stage libraries) w w' := by
  rcases invoke_iff.mp h with ⟨-, r, hcall, -⟩ | ⟨-, -, -, rfl⟩
  · rcases call_iff.mp hcall with ⟨b, c, r, b', -, -, hresponds, -⟩ | ⟨-, -, -, rfl⟩
    · cases hresponds with
      | unfit => exact .nothing _
      | function _ hbody => exact .once (.body budget _) hbody
      | value hcall => exact .once (.alone budget _ _ _) hcall
    · exact .nothing _
  · exact .nothing _

end Instance

end Stagehand
