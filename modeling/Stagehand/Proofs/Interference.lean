import Stagehand.Proofs.Congruence

/-!
# Files that change while scripts run

Whoever changes the files need not wait until no script runs. `Others` have their turn before every
job, before a library's file is asked for its time, and between that and the reading of the file:
time passes and the files are others. If they do nothing, a run is what it is without them
(`Others.evaluate_still`).
-/

namespace Stagehand.Lang

/-- Where a run can be interrupted. -/
inductive Pause where
  | job
  /-- Before the file of a library is asked for its time. -/
  | stat
  /-- Between that and the reading of the file. -/
  | read

/-- What others do while scripts run: the files that they leave, and how long they take. -/
structure Others where
  files : Pause → Machine → FileTree
  elapsed : Pause → Machine → Nat

/-- A way to load the library in a file. -/
abbrev Loader := Stage → Run → FilePath → String → Place → Eval Module

/-- The library that the text of an import names, in a way to load it. -/
def resolveWith (load : Loader) (stage : Stage) (run : Run) (text : String) (pos : Place) :
    Eval Module :=
  match stage.libraries.path? text with
  | some file => load stage run file text pos
  | none => Eval.raise (.moduleNotFound text) pos

theorem resolveWith_loadLibrary (stage : Stage) (run : Run) :
    resolveWith loadLibrary stage run = resolveLibrary stage run := by
  funext text pos
  unfold resolveWith resolveLibrary
  cases stage.libraries.path? text <;> rfl

namespace Others

variable (o : Others)

/-- The machine after an interruption. -/
def after (p : Pause) (m : Machine) : Machine :=
  { m with world := { m.world with files := o.files p m, clock := m.world.clock + o.elapsed p m } }

/-- The library in a file. -/
def load : Loader := fun stage run file text pos => do
  modify (o.after .stat)
  let modified := (← get).world.files.modified? file
  modify (o.after .read)
  fetchLibrary stage run file modified text pos

/-- Does a job. -/
def evaluate (load : Loader) (stage : Stage) : Nat → Run
  | 0 => fun _ => none
  | budget + 1 => fun job => do
    modify (o.after .job)
    stepBy stage (resolveWith load stage (evaluate load stage budget)) (evaluate load stage budget)
      job

theorem load_apply (stage : Stage) (run : Run) (file : FilePath) (text : String) (pos : Place)
    (m : Machine) : o.load stage run file text pos m =
      fetchLibrary stage run file ((o.after .stat m).world.files.modified? file) text pos
        (o.after .read (o.after .stat m)) := rfl

/-- Others who do nothing. -/
def still : Others := ⟨fun _ m => m.world.files, fun _ _ => 0⟩

theorem still_after (p : Pause) (m : Machine) : still.after p m = m := by
  have hclock : m.world.clock + ((0 : Nat) : Int) = m.world.clock := Int.add_zero _
  simp only [after, still, hclock]

theorem load_still : still.load = loadLibrary := by
  funext stage run file text pos m
  rw [load_apply, still_after, still_after, loadLibrary_apply]

/-- Without others a job is done as ever. -/
theorem evaluate_still (stage : Stage) : ∀ budget,
    still.evaluate still.load stage budget = Lang.evaluate stage budget
  | 0 => rfl
  | budget + 1 => by
    have hskip {α : Type} (x : Eval α) : (do modify (still.after .job); x) = x := by
      funext m
      exact congrArg x (still_after .job m)
    funext job
    rw [evaluate, evaluate_still stage budget, load_still, resolveWith_loadLibrary,
      stepBy_resolveLibrary]
    exact hskip _

end Others

namespace Congruence

variable {R : ∀ {α : Type}, Eval α → Eval α → Prop} (c : Congruence R) {o : Others}
  {load load' : Loader} {stage : Stage}
include c

theorem resolveWith {run run' : Run}
    (hload : ∀ file ∈ stage.libraries.files.map Prod.snd, ∀ text pos,
      R (load stage run file text pos) (load' stage run' file text pos)) (text : String)
    (pos : Place) :
    R (Lang.resolveWith load stage run text pos) (Lang.resolveWith load' stage run' text pos) := by
  unfold Lang.resolveWith
  split
  · rename_i file hfile
    exact hload file (Libraries.indexed_of_path? hfile) text pos
  · exact c.raise _ _

/-- Jobs are related if the ways to load are. -/
theorem interrupted (hpause : R (modify (o.after .job)) (modify (o.after .job)))
    (hload : ∀ budget, (∀ job, R (o.evaluate load stage budget job) (o.evaluate load' stage budget
      job)) → ∀ file ∈ stage.libraries.files.map Prod.snd, ∀ text pos,
        R (load stage (o.evaluate load stage budget) file text pos)
          (load' stage (o.evaluate load' stage budget) file text pos)) :
    ∀ budget job, R (o.evaluate load stage budget job) (o.evaluate load' stage budget job)
  | 0, _ => c.idle fun _ _ _ h => nomatch h
  | budget + 1, job => by
    have hrun := interrupted hpause hload budget
    exact c.bind hpause fun _ => c.stepBy hrun (c.resolveWith (hload budget hrun)) job

end Congruence

end Stagehand.Lang
