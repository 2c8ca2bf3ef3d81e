import Stagehand.Proofs.Runs

/-!
# Idle runs

Most of what scripts do has no part in imports: it leaves the files alone, and the libraries that
were evaluated. Without libraries nothing else can be built (`Built.idle`), and whatever takes no
other jobs is the same without libraries.
-/

namespace Stagehand.Lang

/-- The files are as they were, and so are the libraries that were evaluated, for this instance and
for others. -/
structure Unmoved (m m' : Machine) : Prop where
  files : m'.world.files = m.world.files
  realms : m'.world.realms = m.world.realms
  modules : m'.realm.modules = m.realm.modules

theorem Unmoved.refl (m : Machine) : Unmoved m m := ⟨rfl, rfl, rfl⟩

theorem Unmoved.trans {m m' m'' : Machine} (h : Unmoved m m') (h' : Unmoved m' m'') :
    Unmoved m m'' :=
  ⟨h'.files.trans h.files, h'.realms.trans h.realms, h'.modules.trans h.modules⟩

/-- The run leaves the files alone, and the libraries that were evaluated. -/
def Idle {α : Type} (x : Eval α) : Prop := ∀ m r m', x m = some (r, m') → Unmoved m m'

namespace Idle

variable {α β : Type}

theorem pure (a : α) : Idle (Pure.pure a : Eval α) := Leads.pure .refl a

theorem throw (halt : Halt) : Idle (MonadExcept.throw halt : Eval α) := Leads.throw .refl halt

theorem get : Idle (MonadState.get : Eval Machine) := Leads.get .refl

theorem modifyFrame (f : Frame → Frame) : Idle (Eval.modifyFrame f) :=
  Leads.change fun _ => ⟨rfl, rfl, rfl⟩

theorem bind {x : Eval α} {f : α → Eval β} (hx : Idle x) (hf : ∀ a, Idle (f a)) :
    Idle (x >>= f) := Leads.bind .trans hx hf

theorem attempt {x : Eval α} (hx : Idle x) : Idle (Eval.attempt x) := Leads.attempt hx

theorem raise (cause : Cause) (pos : Place) : Idle (Eval.raise cause pos : Eval α) := throw _

/-- To bring a library in sight. -/
theorem bring (name : Option String) (m : Module) : Idle (name.forM fun name =>
    Eval.modifyFrame fun f => { f with imports := (name, m) :: f.imports }) := by
  cases name with
  | none => exact .pure ()
  | some name => exact modifyFrame fun f => { f with imports := (name, m) :: f.imports }

end Idle

/-- The stage without libraries. What does not import is the same there. -/
def Stage.bare (stage : Stage) : Stage :=
  { stage with libraries := { stage.libraries with files := [] } }

/-- Without libraries there is nothing to import. -/
theorem Idle.bringLibrary {stage : Stage} (hnone : stage.libraries.files = []) {run : Run}
    {text : String} {pos : Place} {name : Option String} :
    Idle (bringLibrary stage run text pos name) := by
  have himport : Idle (importLibrary stage run text pos) := by
    refine Idle.get.bind fun m => ?_
    split
    · exact .pure _
    · have hpath : stage.libraries.path? text = none := by rw [Libraries.path?, hnone]; rfl
      rw [resolveLibrary, hpath]
      exact .raise _ _
  exact himport.bind fun m => .bring name m

/-- Without libraries nothing can be loaded. -/
theorem Built.idle {stage : Stage} (hnone : stage.libraries.files = []) {α : Type} [Leafy α]
    {x : Eval α} (h : Built (fun _ => True) stage x) : Idle x := by
  induction h with
  | endless => exact fun _ _ _ h => nomatch h
  | pure => exact .pure _
  | throw => exact .throw _
  | bind _ _ hx hf => exact hx.bind fun a => hf a (within_everything a)
  | attempt _ hx => exact hx.attempt
  | look _ _ hf => exact Idle.get.bind fun m => hf m m.confined_everything
  | modifyFrame => exact .modifyFrame _
  | apart _ _ _ hx hk =>
      refine Idle.get.bind fun outer => (Idle.modifyFrame _).bind fun _ => ?_
      refine hx.attempt.bind fun r => Idle.get.bind fun inner => ?_
      refine (Idle.modifyFrame _).bind fun _ => ?_
      exact hk inner.frame r (within_everything _) (within_everything r)
  | effect e =>
      intro m r m' h
      cases h
      exact ⟨e.apply_files m.world, e.apply_realms m.world, rfl⟩
  | @ask _ _ f e _ _ hw =>
      intro m r m' h
      cases h
      have hworld : (f m.world).2 = e.apply m.world := hw m.world
      exact ⟨hworld ▸ e.apply_files m.world, hworld ▸ e.apply_realms m.world, rfl⟩
  | setCell =>
      intro m r m' h
      cases h
      exact ⟨rfl, rfl, rfl⟩
  | newCell _ _ hf =>
      refine Idle.bind (fun m r m' h => ?_) fun cell => hf cell trivial
      cases h
      exact ⟨rfl, rfl, rfl⟩
  | load hentry => exact absurd hentry (hnone ▸ List.not_mem_nil)
  | bring => exact .bringLibrary hnone

/-- A stage for what depends on no stage. -/
def Stage.empty : Stage := ⟨⟨0, ""⟩, 0, ⟨[], []⟩⟩

/-! ## What scripts do without other jobs -/

namespace Idle

variable {α : Type}

theorem orRaise (r : Except Cause α) (pos : Place) : Idle (Eval.orRaise r pos) := by
  cases r with
  | ok a => exact .pure a
  | error cause => exact .raise cause pos

theorem flatten (v : Value) : Idle (Eval.flatten v) := get.bind fun _ => .pure _

theorem valueOf (u : Upshot) : Idle (Eval.valueOf u) := by
  unfold Eval.valueOf
  split
  · exact .pure _
  · exact .throw _

theorem function? (name : String) (arity : Nat) : Idle (Eval.function? name arity) :=
  get.bind fun _ => .pure _

theorem upshotOf (f : FnDef) (pos : Place) (inner : Frame) (r : Except Halt Value) :
    Idle (Lang.upshotOf f pos inner r) := by
  unfold Lang.upshotOf
  split
  · exact (flatten _).bind fun _ => .pure _
  · exact (flatten _).bind fun _ => .pure _
  · exact .pure _
  · exact .pure _

/-- What depends on no stage. -/
theorem alone [Leafy α] {x : Eval α} (h : Built (fun _ => True) .empty x) : Idle x := h.idle rfl

theorem bindVar (name : String) (v : Value) : Idle (Eval.bind name v) :=
  alone (Built.bindVar (within_everything v))

theorem setVar (v : Var) (value : Value) : Idle (Eval.setVar v value) :=
  alone (Built.setVar (within_everything v) (within_everything value))

theorem ensureFree (name : String) (args : List Value) (pos : Place) :
    Idle (Lang.ensureFree name args pos) := alone Built.ensureFree

theorem into (s : Storing) (held : Held) : Idle (s.into held) :=
  alone (Built.into (within_everything s) (within_everything held))

variable (stage : Stage)

/-- What is the same without libraries. -/
theorem bare [Leafy α] {x : Eval α} (h : Built (fun _ => True) stage.bare x) : Idle x := h.idle rfl

theorem callByType (name : String) (constant : Bool) (args : List Value) (pos : Place) :
    Idle (Lang.callByType stage name constant args pos) :=
  bare stage (Built.callByType (serves_everything _) fun v _ => within_everything v)

theorem slot (name : String) (known : Bool) (pos : Place) :
    Idle (Lang.slot stage name known pos) := bare stage (Built.slot (serves_everything _))

end Idle

end Stagehand.Lang
