import Stagehand.Proofs.Calls

/-!
# What imports do

A library is evaluated in a frame of its own, which starts empty; so what it exports leads nowhere
but to what its top level was allowed to reach. What was evaluated before is kept in the realm and
was within the allowance when it was put there.
-/

namespace Stagehand.Lang

variable {A : Allowance} {stage : Stage} {run : Run}

/-- What comes of the evaluation of a library, from the frame that its top level leaves and what
that ended with. -/
def moduleFrom (script : Script) (inner : Frame) (outcome : Except Halt Value) : Eval Module :=
  match outcome with
  | .ok _ | .error (.ret _) | .error (.exit _) => return moduleOf script inner
  | .error h => throw h

theorem evaluateLibrary_eq (script : Script) :
    evaluateLibrary run script = Eval.apart
      (fun _ => { functions := [script.functions], constants := some [] })
      (run (.stmts script.body)) (moduleFrom script) := rfl

namespace Built

theorem evaluateLibrary (hrun : RunBuilt A stage run) {script : Script} :
    Built A stage (Lang.evaluateLibrary run script) := by
  rw [evaluateLibrary_eq]
  refine apart (fun _ _ => within_of_leafless rfl) (hrun.stmts script.body) fun inner r hi hr => ?_
  unfold moduleFrom
  split
  · exact pure (within_moduleOf script hi)
  · exact pure (within_moduleOf script hi)
  · exact pure (within_moduleOf script hi)
  · exact throw hr

theorem readLibrary (hrun : RunBuilt A stage run) (entry : String × FilePath)
    (hentry : entry ∈ stage.libraries.files) : Built A stage (Lang.readLibrary run entry.2) := by
  refine look (fun m _ => ?_) fun m v h => by simp only [h.texts entry hentry]
  split
  · exact reject
  · split
    · exact raise_leafless rfl
    · exact evaluateLibrary hrun

theorem loadLibrary (hrun : RunBuilt A stage run) (entry : String × FilePath)
    (hentry : entry ∈ stage.libraries.files) {text : String} {pos : Place} :
    Built A stage (Lang.loadLibrary stage run entry.2 text pos) := by
  have hread := readLibrary hrun entry hentry
  obtain ⟨budget, rfl⟩ := hrun.evaluates
  exact load hentry hrun.stmts hread

theorem resolveLibrary (hrun : RunBuilt A stage run) {text : String} {pos : Place} :
    Built A stage (Lang.resolveLibrary stage run text pos) := by
  unfold Lang.resolveLibrary
  split
  · rename_i file hfile
    exact loadLibrary hrun (importStem text, file) (Libraries.mem_of_path? hfile)
  · exact raise_leafless rfl

theorem bringLibrary (hrun : RunBuilt A stage run) {text : String} {pos : Place}
    {name : Option String} : Built A stage (Lang.bringLibrary stage run text pos name) := by
  have hload : ∀ entry ∈ stage.libraries.files,
      Built A stage (Lang.loadLibrary stage run entry.2 text pos) :=
    fun entry hentry => loadLibrary hrun entry hentry
  obtain ⟨budget, rfl⟩ := hrun.evaluates
  exact bring hrun.stmts hload

end Built
end Stagehand.Lang
