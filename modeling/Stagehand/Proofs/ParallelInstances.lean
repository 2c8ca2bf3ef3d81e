import Stagehand.Proofs.ParallelRuns

/-!
# Instances, side by side

Loading an instance and calling its entry points, under two sets of numbers: what the instance
becomes and what is reported differs in the numbers alone.
-/

namespace Stagehand

open Lang

/-- Related options stay so when related steps follow. -/
theorem rel_bind {α β γ δ : Type} {R : α → β → Prop} {S : γ → δ → Prop} {x : Option α}
    {y : Option β} {f : α → Option γ} {g : β → Option δ} (h : Option.Rel R x y)
    (hf : ∀ a b, R a b → Option.Rel S (f a) (g b)) : Option.Rel S (x >>= f) (y >>= g) := by
  cases h with
  | none => exact .none
  | some h => exact hf _ _ h

instance : Renames EntryPoint := ⟨fun _ e => e⟩

instance : Renames Callable := ⟨fun ρ c =>
  match c with
  | .function => .function
  | .value name curried function => .value name (ρ.on curried) function⟩

instance : Renames Binding := ⟨fun ρ b => { b with
  vars := ρ.on b.vars
  kept := ρ.on b.kept
  entries := ρ.on b.entries }⟩

instance : Renames Instance := ⟨fun ρ i => { i with
  handle := ρ.on i.handle
  data := ρ.store i.data
  binding := ρ.on i.binding }⟩

instance : Renames DispatchError := ⟨fun _ e => e⟩

instance : Renames Outcome := ⟨fun ρ o =>
  match o with
  | .completed v => .completed (ρ.on v)
  | o => o⟩

instance : Renames ReloadError := ⟨fun ρ e =>
  match e with
  | .compile script cause => .compile script (ρ.on cause)
  | .run script cause => .run script (ρ.on cause)
  | e => e⟩

section Fields

variable {ρ : Renaming}

@[simp] theorem on_instance_id (i : Instance) : (ρ.on i).id = ρ.script i.id := rfl
@[simp] theorem on_instance_name (i : Instance) : (ρ.on i).name = i.name := rfl
@[simp] theorem on_instance_source (i : Instance) : (ρ.on i).source = i.source := rfl
@[simp] theorem on_instance_state (i : Instance) : (ρ.on i).state = i.state := rfl
@[simp] theorem on_instance_running (i : Instance) : (ρ.on i).running = i.running := rfl
@[simp] theorem on_instance_initialized (i : Instance) :
    (ρ.on i).initialized = i.initialized := rfl
@[simp] theorem on_instance_binding (i : Instance) : (ρ.on i).binding = i.binding.map ρ.on := rfl

theorem on_reloadError_message (e : ReloadError) : (ρ.on e).message = e.message := by
  cases e with
  | read | parse => rfl
  | compile script cause | run script cause => exact congrArg (_ ++ ·) (fault_message_on cause)

theorem on_reloadError_step (e : ReloadError) : (ρ.on e).step = e.step := by cases e <;> rfl

/-- What cannot be read or parsed has no numbers in it. -/
theorem on_unread {files : FileTree} {source : FilePath} {name : String} {e : ReloadError}
    (h : readScript files source name = .error e) : ρ.on e = e := by
  unfold readScript at h
  split at h
  · cases h
    rfl
  · split at h
    · cases h
      rfl
    · nomatch h

end Fields

namespace Pairing

variable (τ : Pairing)

/-- A result and a world, differing in numbers. -/
def Results {α : Type} [Renames α] (p q : α × World) : Prop :=
  q.1 = τ.on p.1 ∧ τ.Worlds p.2 q.2

/-- A result, what became of something, and a world, differing in numbers. -/
def Visits {α β : Type} [Renames α] [Renames β] (p q : α × β × World) : Prop :=
  q.1 = τ.on p.1 ∧ q.2.1 = τ.on p.2.1 ∧ τ.Worlds p.2.2 q.2.2

variable {τ} {w w' : World}

theorem perform [τ.Injective] {α : Type} [Renames α] (stage : Stage) {x y : Eval α}
    (hxy : Alike τ x y) (frame : Frame) (hw : τ.Worlds w w') :
    Option.Rel τ.Visits (Stagehand.perform stage x frame w)
      (Stagehand.perform (τ.on stage) y (τ.on frame) w') := by
  refine rel_bind (hxy ⟨w, w.realm stage.owner.id, frame⟩
    ⟨w', w'.realm (τ.on stage).owner.id, τ.on frame⟩ ⟨hw, hw.realms _, rfl⟩) ?_
  rintro ⟨r, m⟩ ⟨r', m'⟩ ⟨hr, hm⟩
  refine .some ⟨hr, hm.frame, ?_⟩
  have h := hm.world.setRealm stage.owner.id m.realm
  rwa [← hm.realm] at h

theorem faultOf_on {α : Type} [Renames α] (r : Except Halt α) :
    faultOf (τ.on r) = (faultOf r).map τ.on := by
  rcases r with (_ | _ | _ | _ | _) | _ <;> rfl

theorem keepLibraries (stage : Stage) {run run' : Run}
    (hrun : ∀ job, Alike τ (run job) (run' (τ.on job))) : ∀ texts : List String,
    Alike τ (Stagehand.keepLibraries stage run texts)
      (Stagehand.keepLibraries (τ.on stage) run' texts)
  | [] => .pure rfl
  | text :: rest => by
    refine (Alike.resolveLibrary hrun text none).bind fun m => ?_
    refine (keepLibraries stage hrun rest).bind fun kept => .pure ?_
    rw [← on_named]
    rfl

theorem findEntries_on (functions : List FnDef) (vars : List Var) (heap : Heap) :
    findEntries functions (vars.map τ.on) (heap.map τ.on) =
      (findEntries functions vars heap).map τ.on := by
  unfold findEntries
  rw [List.map_filterMap]
  congr 1
  funext e
  split
  · rfl
  · rw [Alike.find?_vars, Option.map_map]
    cases vars.find? (·.name == e.name) with
    | none => rfl
    | some v =>
        have hvalue : ((fun v : Var => Heap.flatten (heap.map τ.on) v.held.value) ∘ τ.on) v =
            τ.on (heap.flatten v.held.value) := flatten_on heap v.held.value
        rw [Option.map_some, Option.map_some, hvalue]
        cases heap.flatten v.held.value with
        | fn name curried function => rw [on_value_fn]; rfl
        | array items => rw [on_value_array]; rfl
        | object fields => rw [on_value_object]; rfl
        | _ => rfl

variable [τ.Injective]

theorem bindScript (budget : Nat) (stage : Stage) (script : Script) (hw : τ.Worlds w w') :
    Option.Rel τ.Results (Stagehand.bindScript budget stage script w)
      (Stagehand.bindScript budget (τ.on stage) script w') := by
  have hrun := Alike.evaluate (τ := τ) stage budget
  refine rel_bind (perform stage (keepLibraries stage hrun script.imports) {} hw) ?_
  rintro ⟨r, frame, w⟩ ⟨r', frame', w'⟩ ⟨rfl, rfl, hw⟩
  cases r with
  | error h => exact .some ⟨by cases h <;> rfl, hw⟩
  | ok kept =>
      refine rel_bind (perform stage (hrun (.stmts script.body))
        { vars := hostVars stage, functions := [script.functions], constants := some [], kept }
        hw) ?_
      rintro ⟨r, frame, w⟩ ⟨r', frame', w'⟩ ⟨rfl, rfl, hw⟩
      dsimp only
      rw [faultOf_on]
      cases faultOf r with
      | some f => exact .some ⟨rfl, hw⟩
      | none =>
          refine .some ⟨?_, hw⟩
          have hrealm : w'.realm (τ.on stage).owner.id = τ.on (w.realm stage.owner.id) :=
            hw.realms _
          rw [hrealm, on_frame_vars, on_realm_heap, findEntries_on]
          rfl

theorem build (budget : Nat) (stage : Stage) (source : FilePath) (hw : τ.Worlds w w') :
    Option.Rel τ.Results (Stagehand.build budget stage source w)
      (Stagehand.build budget (τ.on stage) source w') := by
  unfold Stagehand.build
  rw [hw.files, on_stage_owner, on_handle_name]
  cases hread : readScript w.files source stage.owner.name with
  | error e => exact .some ⟨congrArg Except.error (on_unread hread).symm, hw⟩
  | ok script => exact bindScript budget stage script hw

theorem reload (budget : Nat) (libraries : Libraries) (i : Instance) (hw : τ.Worlds w w') :
    Option.Rel τ.Visits (i.reload budget libraries w) ((τ.on i).reload budget libraries w') := by
  refine rel_bind (build budget (i.stage libraries) i.source hw) ?_
  rintro ⟨r, w⟩ ⟨r', w'⟩ ⟨rfl, hw⟩
  cases r with
  | ok b =>
      have hreport : (τ.on i).successReport (τ.on b) = i.successReport b := by
        have hentries : (b.entries.map τ.on).map (·.1.name) = b.entries.map (·.1.name) := by
          rw [List.map_map]
          rfl
        exact congrArg (fun entries => Level.info.report "script loaded" [("script", i.name),
          ("entry_points", "\x7b" ++ ", ".intercalate entries ++ "\x7d")]) hentries
      have h := (hw.record (congrArg LogRecord.unnumbered hreport)).tick
      refine .some ⟨rfl, ?_, h.2⟩
      exact congrArg ((τ.on i).loaded (τ.on b)) h.1
  | error e =>
      have hreport : (τ.on i).failureReport (τ.on e) = i.failureReport e := by
        unfold Instance.failureReport
        rw [on_reloadError_message, on_reloadError_step]
        rfl
      refine .some ⟨rfl, ?_, hw.record (congrArg LogRecord.unnumbered hreport)⟩
      change Instance.notLoaded (τ.on i) (τ.on e) = τ.on (i.notLoaded e)
      unfold Instance.notLoaded
      rw [on_reloadError_message, on_instance_binding, Option.isSome_map]
      rfl

/-! ## Entry points -/

omit [τ.Injective] in
theorem ended_on (stage : Stage) (r : Except Halt Value) (hw : τ.Worlds w w') :
    Instance.ended (τ.on stage) w' (τ.on r) = τ.on (Instance.ended stage w r) := by
  have hvalue (v : Value) : Heap.expand (w'.realm (τ.on stage).owner.id).heap
      (w'.realm (τ.on stage).owner.id).heap.size (τ.on v) =
      τ.on ((w.realm stage.owner.id).heap.expand (w.realm stage.owner.id).heap.size v) := by
    have hrealm : w'.realm (τ.on stage).owner.id = τ.on (w.realm stage.owner.id) := hw.realms _
    rw [hrealm, on_realm_heap, Array.size_map, expand_on]
  rcases r with (_ | _ | _ | _ | _) | _
  all_goals first | rfl | exact congrArg Except.ok (hvalue _)

theorem callNamed (budget : Nat) (stage : Stage) (b : Binding) (name : String) (args : List Value)
    (hw : τ.Worlds w w') :
    Option.Rel τ.Visits
      (Instance.callNamed (evaluate stage budget) stage b name args w)
      (Instance.callNamed (evaluate (τ.on stage) budget) (τ.on stage) (τ.on b) name
        (args.map τ.on) w') := by
  unfold Instance.callNamed
  rw [List.length_map]
  rw [show (τ.on b).functions = b.functions from rfl]
  cases b.functions.find? fun f => f.name == name && f.params.length == args.length with
  | none => exact .some ⟨rfl, rfl, hw⟩
  | some f =>
      have hdrop (frame : Frame) :
          (τ.on frame).vars.drop ((τ.on frame).vars.length - (τ.on b).vars.length) =
            (frame.vars.drop (frame.vars.length - b.vars.length)).map τ.on := by
        rw [on_frame_vars, List.map_drop, List.length_map]
        exact congrArg (fun n => (frame.vars.map τ.on).drop (frame.vars.length - n))
          (List.length_map _)
      dsimp only
      rw [Alike.params_on, show (τ.on b).vars = b.vars.map τ.on from rfl, ← List.map_append]
      refine rel_bind (perform stage (Alike.evaluate stage budget (.stmts f.body)) _ hw) ?_
      rintro ⟨r, frame, w⟩ ⟨r', frame', w'⟩ ⟨rfl, rfl, hw⟩
      refine .some ⟨ended_on stage r hw, ?_, hw⟩
      exact congrArg (fun vars => { τ.on b with vars }) (hdrop frame)

theorem callPointer (budget : Nat) (stage : Stage) (b : Binding) (name : String)
    (curried : List Value) (function : Option FnDef) (args : List Value) (hw : τ.Worlds w w') :
    Option.Rel τ.Visits
      (Instance.callPointer (evaluate stage budget) stage b name curried function args w)
      (Instance.callPointer (evaluate (τ.on stage) budget) (τ.on stage) (τ.on b) name
        (curried.map τ.on) function (args.map τ.on) w') := by
  have value : Alike τ
      (do
        Eval.valueOf (← callValue stage (evaluate stage budget) name function none
          (curried ++ args) none))
      (do
        Eval.valueOf (← callValue (τ.on stage) (evaluate (τ.on stage) budget) name function none
          (curried.map τ.on ++ args.map τ.on) none)) := by
    rw [← List.map_append]
    exact (Alike.callValue (Alike.evaluate stage budget) name function none _ none).bind
      Alike.valueOf
  unfold Instance.callPointer
  dsimp only
  cases function.isSome with
  | true =>
      refine rel_bind (perform stage value { functions := [b.functions] } hw) ?_
      rintro ⟨r, frame, w⟩ ⟨r', frame', w'⟩ ⟨rfl, rfl, hw⟩
      exact .some ⟨ended_on stage r hw, rfl, hw⟩
  | false =>
      refine rel_bind (perform stage value.deeper { functions := [b.functions] } hw) ?_
      rintro ⟨r, frame, w⟩ ⟨r', frame', w'⟩ ⟨rfl, rfl, hw⟩
      exact .some ⟨ended_on stage r hw, rfl, hw⟩

omit [τ.Injective] in
theorem callable?_on (i : Instance) (e : EntryPoint) :
    (τ.on i).callable? e = (i.callable? e).map τ.on := by
  unfold Instance.callable?
  rw [on_instance_binding]
  cases i.binding with
  | none => rfl
  | some b =>
      change ((b.entries.map τ.on).find? _).map _ = ((b.entries.find? _).map _).map τ.on
      rw [List.find?_map, Option.map_map, Option.map_map]
      rfl

theorem call (budget : Nat) (libraries : Libraries) (i : Instance) (e : EntryPoint)
    (args : List Value) (hw : τ.Worlds w w') :
    Option.Rel τ.Visits (i.call budget libraries e args w)
      ((τ.on i).call budget libraries e (args.map τ.on) w') := by
  unfold Instance.call
  rw [callable?_on, on_instance_state]
  cases i.callable? e with
  | none => cases i.state <;> exact .some ⟨rfl, rfl, hw⟩
  | some called =>
      obtain ⟨b, c⟩ := called
      cases i.state with
      | loading | faulted => exact .some ⟨rfl, rfl, hw⟩
      | ready =>
          cases c with
          | function =>
              refine rel_bind (callNamed budget (i.stage libraries) b e.name args hw) ?_
              rintro ⟨r, b, w⟩ ⟨r', b', w'⟩ ⟨rfl, rfl, hw⟩
              exact .some ⟨rfl, rfl, hw⟩
          | value name curried function =>
              refine rel_bind (callPointer budget (i.stage libraries) b name curried function args
                hw) ?_
              rintro ⟨r, b, w⟩ ⟨r', b', w'⟩ ⟨rfl, rfl, hw⟩
              exact .some ⟨rfl, rfl, hw⟩

theorem invoke (budget : Nat) (libraries : Libraries) (i : Instance) (e : EntryPoint)
    (args : List HostValue) (hw : τ.Worlds w w') :
    Option.Rel τ.Visits (i.invoke budget libraries e args w)
      ((τ.on i).invoke budget libraries e (args.map τ.on) w') := by
  have hargs : (args.map τ.on).map HostValue.toScript = (args.map HostValue.toScript).map τ.on := by
    rw [List.map_map, List.map_map]
    exact List.map_congr_left fun v _ => (on_toScript v).symm
  unfold Instance.invoke
  rw [on_instance_running, hargs]
  cases i.running with
  | false => exact .some ⟨rfl, rfl, hw⟩
  | true =>
      refine rel_bind (call budget libraries i e (args.map HostValue.toScript) hw) ?_
      rintro ⟨r, i, w⟩ ⟨r', i', w'⟩ ⟨rfl, rfl, hw⟩
      rcases r with _ | f | v
      · exact .some ⟨rfl, rfl, hw⟩
      · refine .some ⟨?_, rfl, hw⟩
        change Outcome.failed ⟨i.name, e, (τ.on f).message⟩ = .failed ⟨i.name, e, f.message⟩
        rw [fault_message_on]
      · exact .some ⟨rfl, rfl, hw⟩

theorem dispatch (budget : Nat) (libraries : Libraries) (i : Instance) (e : EntryPoint)
    (args : List HostValue) (hw : τ.Worlds w w') :
    Option.Rel τ.Visits (i.dispatch budget libraries e args w)
      ((τ.on i).dispatch budget libraries e (args.map τ.on) w') := by
  refine rel_bind (invoke budget libraries i e args hw) ?_
  rintro ⟨o, i, w⟩ ⟨o', i', w'⟩ ⟨rfl, rfl, hw⟩
  cases o with
  | failed err => exact .some ⟨rfl, rfl, hw.record rfl⟩
  | skipped => exact .some ⟨rfl, rfl, hw⟩
  | completed v => exact .some ⟨rfl, rfl, hw⟩

end Pairing
end Stagehand
