import Stagehand.Proofs.Coverage
import Stagehand.Proofs.Echoes
import Stagehand.Proofs.EntryPoints
import Stagehand.Proofs.Interference

/-!
# Edits at any moment

An editor does not wait until the host is done: the file of a script can be written while the script
is loaded, also between the reading of it and the recording of the time (`Instance.reloadAmid`, which
is the plain reload if nobody writes, `reloadAmid_still`). A `Session` is a history in which that
happens. All that is asked of the editor is that what it writes is not empty and is stamped with the
time of the writing (`Elapses`).

Whatever is written behind the recorded time is of a later date, so the next scan gets to it; what
is written in front of the reading was read. What is written between the two is in neither case: it
was not read and its date is not behind the recorded one (`Attempt.Overtaken`). An edit is lost in
this case (`edit_during_load_lost`) and in no other (`no_edit_lost`).
-/

namespace Stagehand

open Lang

/-! ## Loading while files change -/

/-- Resolves the imports of a script one after the other, in a given way. -/
def keepWith (resolve : String → Place → Eval Module) : List String → Eval (List (String × Module))
  | [] => return []
  | text :: rest => do
    let m ← resolve text none
    return (text, m.named text) :: (← keepWith resolve rest)

theorem keepWith_resolveLibrary (stage : Stage) (run : Run) :
    ∀ texts, keepWith (resolveLibrary stage run) texts = keepLibraries stage run texts
  | [] => rfl
  | text :: rest => by
    rw [keepWith, keepLibraries, keepWith_resolveLibrary stage run rest]

/-- Resolves the imports of a script and runs its top level, both in a given way. -/
def bindWith (resolve : String → Place → Eval Module) (run : Run) (stage : Stage) (script : Script)
    (w : World) : Option (Except ReloadError Binding × World) := do
  let name := stage.owner.name
  match ← perform stage (keepWith resolve script.imports) {} w with
  | (.error h, _, w) =>
    let f := (faultOf (.error h : Except Halt Unit)).getD default
    return (.error (.compile name f), w)
  | (.ok kept, _, w) =>
    let frame : Frame :=
      { vars := hostVars stage, functions := [script.functions], constants := some [], kept }
    let (r, frame, w) ← perform stage (run (.stmts script.body)) frame w
    match faultOf r with
    | some f => return (.error (.run name f), w)
    | none =>
      let entries := findEntries script.functions frame.vars (w.realm stage.owner.id).heap
      return (.ok ⟨script.functions, frame.vars, kept, entries, 0⟩, w)

theorem bindWith_evaluate (budget : Nat) (stage : Stage) (script : Script) (w : World) :
    bindWith (resolveLibrary stage (evaluate stage budget)) (evaluate stage budget) stage script w =
      bindScript budget stage script w := by
  have hkeep := keepWith_resolveLibrary stage (evaluate stage budget) script.imports
  exact congrArg (fun keep => (perform stage keep {} w).bind _) hkeep

/-- The functions of a binding are those of the script. -/
theorem bindWith_functions {resolve : String → Place → Eval Module} {run : Run} {stage : Stage}
    {script : Script} {w w' : World} {b : Binding}
    (h : bindWith resolve run stage script w = some (.ok b, w')) :
    b.functions = script.functions := by
  obtain ⟨⟨rk, frame, w₁⟩, -, h⟩ := Option.bind_eq_some_iff.mp h
  cases rk with
  | error halt => cases h
  | ok kept =>
    obtain ⟨⟨r, frame', w₂⟩, -, h⟩ := Option.bind_eq_some_iff.mp h
    dsimp only at h
    split at h
    · cases h
    · cases h
      rfl

/-- Those who change files while an instance is loaded. -/
structure Editor where
  /-- What they do while the script runs. -/
  running : Others
  /-- What they do between the end of the script and the recording of the time: the files that they
  leave, and how long they take. -/
  closing : World → FileTree × Nat

namespace Editor

/-- The world when the time of the load is recorded. -/
def close (ed : Editor) (w : World) : World :=
  { w with files := (ed.closing w).1, clock := w.clock + (ed.closing w).2 }

/-- An editor that does nothing. -/
def still : Editor := ⟨.still, fun w => (w.files, 0)⟩

theorem still_close (w : World) : still.close w = w := by
  have hclock : w.clock + ((0 : Nat) : Int) = w.clock := Int.add_zero _
  simp only [close, still, hclock]

/-- Makes a binding of the source file: the file is read at once, all that follows takes time. -/
def build (ed : Editor) (budget : Nat) (stage : Stage) (source : FilePath) (w : World) :
    Option (Except ReloadError Binding × World) :=
  match readScript w.files source stage.owner.name with
  | .error e => some (.error e, w)
  | .ok script =>
    let run := ed.running.evaluate ed.running.load stage budget
    bindWith (resolveWith ed.running.load stage run) run stage script w

theorem still_build (budget : Nat) (stage : Stage) (source : FilePath) (w : World) :
    still.build budget stage source w = Stagehand.build budget stage source w := by
  unfold build Stagehand.build
  cases readScript w.files source stage.owner.name with
  | error e => rfl
  | ok script =>
    dsimp only [still]
    rw [Others.evaluate_still, Others.load_still, resolveWith_loadLibrary, bindWith_evaluate]

end Editor

namespace Instance

variable {ed : Editor} {budget : Nat} {libraries : Libraries} {i i' : Instance} {w w' : World}

/-- Loads the source file again while an editor is at work. -/
def reloadAmid (ed : Editor) (budget : Nat) (libraries : Libraries) (i : Instance) (w : World) :
    Option (Except ReloadError Unit × Instance × World) := do
  let (built, w) ← ed.build budget (i.stage libraries) i.source w
  let w := ed.close w
  match built with
  | .ok b =>
    let (now, w) := (w.record (i.successReport b)).tick
    return (.ok (), i.loaded b now, w)
  | .error e => return (.error e, i.notLoaded e, w.record (i.failureReport e))

theorem reloadAmid_still (budget : Nat) (libraries : Libraries) (i : Instance) (w : World) :
    i.reloadAmid .still budget libraries w = i.reload budget libraries w := by
  unfold reloadAmid reload
  rw [Editor.still_build]
  refine congrArg (Option.bind _) (funext fun ⟨built, w₁⟩ => ?_)
  dsimp only
  rw [Editor.still_close]
  cases built <;> rfl

/-- How an attempt can end, whoever edits the files: what is bound is what was read in the
beginning, and the time is that of the end. -/
theorem reloadAmid_cases {r : Except ReloadError Unit}
    (h : i.reloadAmid ed budget libraries w = some (r, i', w')) :
    (∃ script b now, readScript w.files i.source i.name = .ok script ∧
      b.functions = script.functions ∧ r = .ok () ∧ i' = i.loaded b now ∧ w'.clock = now + 1) ∨
    ∃ e, r = .error e ∧ i' = i.notLoaded e := by
  obtain ⟨⟨built, w₁⟩, hbuild, h⟩ := Option.bind_eq_some_iff.mp h
  cases built with
  | error e =>
    cases h
    exact .inr ⟨e, rfl, rfl⟩
  | ok b =>
    cases h
    unfold Editor.build at hbuild
    split at hbuild
    · cases hbuild
    · rename_i script hread
      exact .inl ⟨script, b, _, hread, bindWith_functions hbuild, rfl, rfl, rfl⟩

end Instance

namespace Attempt

variable {libraries : Libraries} {a : Attempt} {as : List Attempt}

/-- The attempt is a run of the reload, with an editor at work. -/
def Amid (libraries : Libraries) (a : Attempt) : Prop :=
  ∃ ed budget, a.before.reloadAmid ed budget libraries a.world = some (a.result, a.after, a.left)

theorem Genuine.amid (h : a.Genuine libraries) : a.Amid libraries := by
  obtain ⟨budget, h⟩ := h
  exact ⟨.still, budget, (Instance.reloadAmid_still ..).trans h⟩

theorem Amid.kept (h : a.Amid libraries) :
    a.after.handle = a.before.handle ∧ a.after.source = a.before.source := by
  obtain ⟨ed, budget, h⟩ := h
  rcases Instance.reloadAmid_cases h with ⟨-, b, now, -, -, -, hafter, -⟩ | ⟨e, -, hafter⟩ <;>
    rw [hafter] <;> exact ⟨rfl, rfl⟩

theorem Amid.lifecycle (h : a.Amid libraries) (ht : Tracked as a.before) :
    Lifecycle (as ++ [a]) a.after := by
  obtain ⟨ed, budget, h⟩ := h
  rcases Instance.reloadAmid_cases h with ⟨-, b, now, -, -, hr, hafter, -⟩ | ⟨e, hr, hafter⟩ <;>
    rw [hafter]
  · exact ht.succeed (by rw [Attempt.succeeded, hr]; rfl) b now
  · exact ht.fail (by rw [Attempt.succeeded, hr]; rfl) e

/-- The file now is what it was at the end of the attempt, but not what the attempt read. -/
def Overtaken (a : Attempt) (p : FilePath) (files : FileTree) : Prop :=
  files.lookup p = a.left.files.lookup p ∧ a.left.files.lookup p ≠ a.world.files.lookup p

end Attempt

/-! ## Sessions -/

/-- The file at a path is there, not empty, and of this time or a later one. -/
def FileTree.writtenSince (files : FileTree) (p : FilePath) (time : Instant) : Bool :=
  match files.lookup p with
  | .ok (.file bytes modified) => bytes.size != 0 && decide (time ≤ modified)
  | _ => false

theorem FileTree.writtenSince_mono {files : FileTree} {p : FilePath} {s t : Instant} (hst : s ≤ t)
    (h : files.writtenSince p t = true) : files.writtenSince p s = true := by
  unfold writtenSince at h ⊢
  split at h
  · obtain ⟨hsize, htime⟩ := Bool.and_eq_true_iff.mp h
    exact Bool.and_eq_true_iff.mpr ⟨hsize, decide_eq_true (Int.le_trans hst (of_decide_eq_true htime))⟩
  · cases h

theorem FileTree.file_of_writtenSince {files : FileTree} {p : FilePath} {t : Instant}
    (h : files.writtenSince p t = true) : ∃ bytes modified,
      files.lookup p = .ok (.file bytes modified) ∧ bytes.size ≠ 0 ∧ t ≤ modified := by
  unfold writtenSince at h
  split at h
  · rename_i bytes modified hfile
    obtain ⟨hsize, htime⟩ := Bool.and_eq_true_iff.mp h
    exact ⟨bytes, modified, hfile, bne_iff_ne.mp hsize, of_decide_eq_true htime⟩
  · cases h

theorem FileTree.writtenSince_congr {files files' : FileTree} {p : FilePath} {t : Instant}
    (h : files'.lookup p = files.lookup p) : files'.writtenSince p t = files.writtenSince p t := by
  unfold writtenSince
  rw [h]

/-- Time passes, and if the file at the path was written, then not empty and with the time of the
writing. -/
structure Elapses (p : FilePath) (w w' : World) : Prop where
  clock : w.clock ≤ w'.clock
  file : w'.files.lookup p = w.files.lookup p ∨ w'.files.writtenSince p w.clock = true

/-- A history in which an editor writes the file at a path between the acts and in the midst of
attempts and calls. A call in whose course files change may do anything to the world, and to its
instance what a call can do. -/
inductive Session (c : HostConfig) (w : World) (p : FilePath) : List Event → Registry → Prop
  | start : Session c w p [] (Registry.start c w)
  | act {es : List Event} {r r' : Registry} {e : Event} (h : Session c w p es r) (ha : Act r e r')
      (ht : Elapses p r.world r'.world) : Session c w p (es ++ [e]) r'
  | joined {es : List Event} {r : Registry} {name : String} {a : Attempt} (h : Session c w p es r)
      (hb : a.before = (r.create name).1) (hw : a.world = (r.create name).2.world)
      (ha : a.Amid r.libraries) (ht : Elapses p a.world a.left) :
      Session c w p (es ++ [.joined a])
        { (r.create name).2 with world := a.left, instances := r.instances ++ [a.after] }
  | tried {es : List Event} {r : Registry} {place : Nat} {a : Attempt} (h : Session c w p es r)
      (hi : r.instances[place]? = some a.before) (hw : a.world = r.world) (ha : a.Amid r.libraries)
      (ht : Elapses p a.world a.left) :
      Session c w p (es ++ [.tried a])
        { r with world := a.left, instances := r.instances.set place a.after }
  | called {es : List Event} {r : Registry} {place : Nat} {d : Call} (h : Session c w p es r)
      (hi : r.instances[place]? = some d.before) (hw : d.world = r.world)
      (hd : d.before.Continues d.after) (ht : Elapses p d.world d.left) :
      Session c w p (es ++ [.called d])
        { r with world := d.left, instances := r.instances.set place d.after }

/-- Of the acts only an edit has to be looked at: scripts write no files, and time never goes
back. -/
theorem Act.elapses {r r' : Registry} {e : Event} (h : Act r e r')
    (he : ∀ files, e ≠ .chore (.edit files)) (p : FilePath) : Elapses p r.world r'.world := by
  have hsame {w' : World} (hclock : r.world.clock ≤ w'.clock) (hfiles : w'.files = r.world.files) :
      Elapses p r.world w' := ⟨hclock, .inl (by rw [hfiles])⟩
  cases h with
  | joined hb hw hg | tried place hi hw hg =>
    obtain ⟨budget, hreload⟩ := hg
    obtain ⟨effects, hran, -⟩ := Instance.reload_ran (serves_everything _)
      (World.confined_everything _ _) (within_everything _) hreload
    rw [hw] at hran
    exact hsame hran.clock_le hran.files
  | called place hi hw hg | started place hi hw _ _ _ hg =>
    obtain ⟨budget, hdispatch⟩ := hg
    obtain ⟨effects, hran, -⟩ := Instance.dispatch_ran (serves_everything _)
      (World.confined_everything _ _) (within_everything _) (within_everything _) hdispatch
    rw [hw] at hran
    exact hsame hran.clock_le hran.files
  | invoked place hi hw hg =>
    obtain ⟨budget, hinvoke⟩ := hg
    obtain ⟨effects, hran, -⟩ := Instance.invoke_ran (serves_everything _)
      (World.confined_everything _ _) (within_everything _) (within_everything _) hinvoke
    rw [hw] at hran
    exact hsame hran.clock_le hran.files
  | left ids =>
    obtain ⟨⟨realms, hforget⟩, -⟩ := r.world.foldl_forget ids
    have hclock : (ids.foldl World.forget r.world).clock = r.world.clock := by rw [hforget]
    have hfiles : (ids.foldl World.forget r.world).files = r.world.files := by rw [hforget]
    exact hsame (Int.le_of_eq hclock.symm) hfiles
  | chore c =>
    cases c with
    | edit files => exact absurd rfl (he files)
    | tick => exact hsame (Int.le_add_one (Int.le_refl _)) rfl
    | wait time => exact hsame (Int.le_add_of_nonneg_right (Int.natCast_nonneg time)) rfl
    | _ => exact hsame (Int.le_refl _) rfl

theorem Instance.Continues.source {i i' : Instance} (h : i.Continues i') : i'.source = i.source := by
  obtain ⟨⟨binding, running, rfl⟩, -, -⟩ := h
  rfl

/-! ## What the recorded time says -/

/-- The instance is bound to what the attempt read. -/
structure Instance.BoundBy (i : Instance) (a : Attempt) : Prop where
  program : i.binding.map Binding.program = a.after.binding.map Binding.program
  script : ∃ script, readScript a.world.files i.source i.name = .ok script ∧
    a.after.binding.map (·.functions) = some script.functions

/-- The recorded time is that of the last load, and since then the file at the path was left alone,
or written and given a later time. -/
inductive Dated (p : FilePath) (as : List Attempt) (w : World) (i : Instance) : Prop
  | unloaded (hlast : lastLoad? as = none) (htime : i.loadTime = none)
  | loaded {a : Attempt} {time : Instant} (hlast : lastLoad? as = some a) (hbound : i.BoundBy a)
      (htime : i.loadTime = some time) (hpast : time < w.clock)
      (hfile : w.files.lookup p = a.left.files.lookup p ∨
        w.files.writtenSince p (time + 1) = true)

namespace Dated

variable {p : FilePath} {as : List Attempt} {w w' : World} {i i' : Instance}

/-- What is written later is of a later date. -/
theorem elapses (h : Dated p as w i) (ht : Elapses p w w') : Dated p as w' i := by
  cases h with
  | unloaded hlast htime => exact .unloaded hlast htime
  | loaded hlast hbound htime hpast hfile =>
    refine .loaded hlast hbound htime (Int.lt_of_lt_of_le hpast ht.clock) ?_
    rcases ht.file with hsame | hwritten
    · rwa [hsame, FileTree.writtenSince_congr hsame]
    · exact .inr (FileTree.writtenSince_mono (Int.add_one_le_of_lt hpast) hwritten)

/-- A call changes neither the time nor the program. -/
theorem call (h : Dated p as w i) (hc : i.Continues i') : Dated p as w i' := by
  obtain ⟨⟨binding, running, rfl⟩, hprogram, -⟩ := hc
  cases h with
  | unloaded hlast htime => exact .unloaded hlast htime
  | loaded hlast hbound htime hpast hfile =>
    exact .loaded hlast ⟨hprogram.trans hbound.program, hbound.script⟩ htime hpast hfile

theorem markInitialized (h : Dated p as w i) : Dated p as w i.markInitialized := by
  cases h with
  | unloaded hlast htime => exact .unloaded hlast htime
  | loaded hlast hbound htime hpast hfile =>
    exact .loaded hlast ⟨hbound.program, hbound.script⟩ htime hpast hfile

/-- A load that succeeds is the last one, with its own time; one that fails changes nothing of it. -/
theorem attempt {libraries : Libraries} {a : Attempt} (h : Dated p as a.world a.before)
    (ha : a.Amid libraries) (ht : Elapses p a.world a.left) :
    Dated p (as ++ [a]) a.left a.after := by
  obtain ⟨ed, budget, hreload⟩ := ha
  rcases Instance.reloadAmid_cases hreload with
    ⟨script, b, now, hread, hfunctions, hr, hafter, hclock⟩ | ⟨e, hr, hafter⟩
  · have hlast : lastLoad? (as ++ [a]) = some a := by
      rw [lastLoad?_concat, Attempt.succeeded, hr]
      rfl
    have hbound : a.after.BoundBy a := by
      refine ⟨rfl, script, ?_, ?_⟩ <;> rw [hafter]
      · exact hread
      · exact congrArg some hfunctions
    have htime : a.after.loadTime = some now := by rw [hafter]; rfl
    exact .loaded hlast hbound htime (hclock ▸ Int.lt_add_one_of_le (Int.le_refl _)) (.inl rfl)
  · have hlast : lastLoad? (as ++ [a]) = lastLoad? as := by
      rw [lastLoad?_concat, Attempt.succeeded, hr]
      rfl
    rw [hafter]
    cases h.elapses ht with
    | unloaded hnone htime => exact .unloaded (hlast.trans hnone) htime
    | loaded hsome hbound htime hpast hfile =>
      exact .loaded (hlast.trans hsome) ⟨hbound.program, hbound.script⟩ htime hpast hfile

end Dated

/-- The recorded times of all instances say so. -/
structure Timely (p : FilePath) (es : List Event) (r : Registry) : Prop extends Orderly es r where
  sources : ∀ i ∈ r.instances, i.source = r.scripts.sourcePath i.name
  dated : ∀ i ∈ r.instances, Dated p (attemptsOn i.id es) r.world i

namespace Timely

variable {p : FilePath} {es : List Event} {r r' : Registry} {e : Event} {i i' : Instance}
  {place : Nat} {w' : World}

theorem start (c : HostConfig) (w : World) : Timely p [] (Registry.start c w) where
  toOrderly := .start c w
  sources := by
    rw [Registry.start_instances]
    exact List.forall_mem_nil _
  dated := by
    rw [Registry.start_instances]
    exact List.forall_mem_nil _

/-- An instance is replaced at its place; for the others time passes. -/
theorem replace (h : Timely p es r) (hi : r.instances[place]? = some i)
    (hkept : i'.handle = i.handle ∧ i'.source = i.source) (ht : Elapses p r.world w')
    (he : ∀ a, e.attempt? = some a → a.before.id = i.id)
    (hlife : Lifecycle (attemptsOn i.id (es ++ [e])) i')
    (hdated : Dated p (attemptsOn i.id (es ++ [e])) w' i') :
    Timely p (es ++ [e]) { r with world := w', instances := r.instances.set place i' } where
  toOrderly := h.toOrderly.replace hi hkept.1 he hlife
  sources j hj := by
    rcases mem_set_cases h.ascending hi hj with rfl | ⟨hj, -⟩
    · rw [hkept.2, h.sources i (List.mem_of_getElem? hi), Instance.name, Instance.name, hkept.1]
    · exact h.sources j hj
  dated j hj := by
    rcases mem_set_cases h.ascending hi hj with rfl | ⟨hj, hne⟩
    · rw [Instance.id, hkept.1]
      exact hdated
    · rw [attemptsOn_other fun a ha heq => hne (heq.symm.trans (he a ha))]
      exact (h.dated j hj).elapses ht

theorem tried (h : Timely p es r) {a : Attempt} (hi : r.instances[place]? = some a.before)
    (hw : a.world = r.world) (ha : a.Amid r.libraries) (ht : Elapses p a.world a.left) :
    Timely p (es ++ [.tried a])
      { r with world := a.left, instances := r.instances.set place a.after } := by
  have hmem := List.mem_of_getElem? hi
  refine h.replace hi ha.kept (hw ▸ ht) (fun b hb => by cases hb; rfl) ?_ ?_ <;>
    rw [attemptsOn_own rfl rfl]
  · exact ha.lifecycle (h.lifecycle _ hmem).toTracked
  · exact (hw ▸ h.dated _ hmem : Dated p _ a.world _).attempt ha ht

theorem joined (h : Timely p es r) {name : String} {a : Attempt}
    (hb : a.before = (r.create name).1) (hw : a.world = (r.create name).2.world)
    (ha : a.Amid r.libraries) (ht : Elapses p a.world a.left) :
    Timely p (es ++ [.joined a])
      { (r.create name).2 with world := a.left, instances := r.instances ++ [a.after] } := by
  have hnew : a.before.id = r.nextId := congrArg Instance.id hb
  have hafter : a.after.id = r.nextId := (congrArg ScriptHandle.id ha.kept.1).trans hnew
  have htracked : Tracked [] a.before := by
    rw [hb]
    exact tracked_new _ _ _
  have hdated : Dated p [] a.world a.before := by
    rw [hb]
    exact .unloaded rfl rfl
  have hcreated : Elapses p r.world a.left := by
    rw [hw] at ht
    exact ⟨ht.clock, ht.file⟩
  refine ⟨h.toOrderly.join hb ha.kept.1 (ha.lifecycle htracked), fun i hi => ?_, fun i hi => ?_⟩
  · rcases List.mem_append.mp hi with hi | hi
    · exact h.sources i hi
    · cases List.mem_singleton.mp hi
      rw [ha.kept.2, Instance.name, ha.kept.1, hb]
      rfl
  · obtain ⟨hown, hothers⟩ := h.attemptsOn_joined hnew
    rcases List.mem_append.mp hi with hi | hi
    · rw [hothers i hi]
      exact (h.dated i hi).elapses hcreated
    · cases List.mem_singleton.mp hi
      rw [hafter, hown]
      exact hdated.attempt ha ht

theorem called (h : Timely p es r) (hi : r.instances[place]? = some i)
    (he : e.attempt? = none) (hc : i.Continues i') (ht : Elapses p r.world w') :
    Timely p (es ++ [e]) { r with world := w', instances := r.instances.set place i' } := by
  have hmem := List.mem_of_getElem? hi
  refine h.replace hi ⟨hc.handle, hc.source⟩ ht (fun a ha => nomatch he.symm.trans ha) ?_ ?_ <;>
    rw [attemptsOn_none he]
  · exact (h.lifecycle _ hmem).call hc
  · exact ((h.dated _ hmem).call hc).elapses ht

/-- An act that changes no instance but to take some out. -/
theorem shrink (h : Timely p es r) (he : e.attempt? = none) (hs : r'.instances.Sublist r.instances)
    (hn : r'.nextId = r.nextId) (hc : r'.scripts = r.scripts) (ht : Elapses p r.world r'.world) :
    Timely p (es ++ [e]) r' where
  toOrderly := h.toOrderly.shrink he hs hn
  sources i hi := hc ▸ h.sources i (hs.subset hi)
  dated i hi := by
    rw [attemptsOn_none he]
    exact (h.dated i (hs.subset hi)).elapses ht

end Timely

/-- Whatever the editor does and whenever: the recorded times say so. -/
theorem Session.timely {c : HostConfig} {w : World} {p : FilePath} {es : List Event} {r : Registry}
    (h : Session c w p es r) : Timely p es r := by
  induction h with
  | start => exact .start c w
  | joined _ hb hw ha ht ih => exact ih.joined hb hw ha ht
  | tried _ hi hw ha ht ih => exact ih.tried hi hw ha ht
  | called _ hi hw hd ht ih => exact ih.called hi rfl hd (hw ▸ ht)
  | @act es r r' e _ hact ht ih =>
    cases hact with
    | joined hb hw hg => exact ih.joined hb hw hg.amid (hw ▸ ⟨ht.clock, ht.file⟩)
    | tried place hi hw hg => exact ih.tried hi hw hg.amid (hw ▸ ht)
    | called place hi hw hg =>
      obtain ⟨budget, hdispatch⟩ := hg
      exact ih.called hi rfl (Instance.dispatch_continues hdispatch) ht
    | invoked place hi hw hg =>
      obtain ⟨budget, hinvoke⟩ := hg
      exact ih.called hi rfl (Instance.invoke_continues hinvoke) ht
    | started place hi hw he hs hn hg =>
      obtain ⟨budget, hdispatch⟩ := hg
      have hc := Instance.dispatch_continues hdispatch
      have hmem := List.mem_of_getElem? hi
      have hlife := ((ih.lifecycle _ hmem).call hc).markInitialized (hc.state ▸ hs)
      have hdated := ((ih.dated _ hmem).call hc).markInitialized.elapses ht
      refine ih.replace hi ⟨hc.handle, hc.source⟩ ht (fun a ha => nomatch ha) ?_ ?_
      · rw [attemptsOn_none rfl]
        exact hlife
      · rw [attemptsOn_none rfl]
        exact hdated
    | left ids => exact ih.shrink rfl List.filter_sublist rfl rfl ht
    | chore d =>
      have hfixed := (Act.chore (r := r) d).fixed.1
      cases d <;> exact ih.shrink rfl (List.Sublist.refl _) rfl hfixed ht

/-! ## The next scan -/

section Scans

variable {budget : Nat} {libraries : Libraries} {is is' : List Instance} {w w' : World}
  {es : List Event} {i i' : Instance}

/-- What became of an instance in the course of attempts on it, all of which read these files:
nothing if there were none, and else what the last one made of it. -/
structure LastOf (libraries : Libraries) (files : FileTree) (i i' : Instance) (as : List Attempt) :
    Prop where
  handle : i'.handle = i.handle
  source : i'.source = i.source
  last : as = [] ∧ i' = i ∨ ∃ a, as.getLast? = some a ∧ a.after = i' ∧ a.Genuine libraries ∧
    a.world.files = files

namespace LastOf

variable {files : FileTree} {i₁ i₂ : Instance} {as bs : List Attempt} {a : Attempt}

theorem none : LastOf libraries files i i [] := ⟨rfl, rfl, .inl ⟨rfl, rfl⟩⟩

theorem single (h : a.Genuine libraries) (hf : a.world.files = files) :
    LastOf libraries files a.before a.after [a] :=
  ⟨h.amid.kept.1, h.amid.kept.2, .inr ⟨a, rfl, rfl, h, hf⟩⟩

theorem trans (h : LastOf libraries files i i₁ as) (h' : LastOf libraries files i₁ i₂ bs) :
    LastOf libraries files i i₂ (as ++ bs) := by
  refine ⟨h'.handle.trans h.handle, h'.source.trans h.source, ?_⟩
  rcases h'.last with ⟨rfl, rfl⟩ | ⟨a, ha, hlast⟩
  · rw [List.append_nil]
    exact h.last
  · exact .inr ⟨a, by rw [List.getLast?_append, ha, Option.some_or], hlast⟩

end LastOf

theorem Attempt.Genuine.files {a : Attempt} (h : a.Genuine libraries) :
    a.left.files = a.world.files := by
  obtain ⟨budget, hreload⟩ := h
  obtain ⟨effects, hran, -⟩ := Instance.reload_ran (serves_everything _)
    (World.confined_everything _ _) (within_everything _) hreload
  exact hran.files

theorem attemptsOn_cons_other {id : InstanceId} {a : Attempt} (h : a.before.id ≠ id) :
    attemptsOn id (.tried a :: es) = attemptsOn id es :=
  (attemptsOn_append id [.tried a] es).trans (by simp [attemptsOn, Event.attempt?, h])

theorem attemptsOn_cons_own (es : List Event) (a : Attempt) :
    attemptsOn a.before.id (.tried a :: es) = a :: attemptsOn a.before.id es :=
  (attemptsOn_append _ [.tried a] es).trans (by simp [attemptsOn, Event.attempt?])

/-- Attempts on those that are behind one source file keep everybody in place. -/
theorem Reloads.kept {s : SourceFile} (h : Reloads budget libraries s is w es is' w') :
    is'.map Instance.id = is.map Instance.id ∧ w'.files = w.files ∧
      ∀ id, id ∉ is.map Instance.id → attemptsOn id es = [] := by
  induction h with
  | done => exact ⟨rfl, rfl, fun _ _ => rfl⟩
  | @stale i i' rest rest' w w₁ w' es result _ hreload _ ih =>
    have hg : Attempt.Genuine libraries ⟨i, w.record (s.report i), result, i', w₁⟩ :=
      ⟨budget, hreload⟩
    refine ⟨congrArg₂ List.cons hg.id ih.1, ih.2.1.trans hg.files, fun id hid => ?_⟩
    obtain ⟨hne, hrest⟩ := not_or.mp (mt List.mem_cons.mpr hid)
    rw [attemptsOn_cons_other (Ne.symm hne)]
    exact ih.2.2 id hrest
  | fresh _ _ ih =>
    exact ⟨congrArg (List.cons _) ih.1, ih.2.1, fun id hid => ih.2.2 id (mt (List.mem_cons_of_mem _) hid)⟩

theorem Reloads.last {s : SourceFile} (h : Reloads budget libraries s is w es is' w')
    (hids : (is.map Instance.id).Nodup) (hi : i ∈ is) :
    ∃ i' ∈ is', LastOf libraries w.files i i' (attemptsOn i.id es) := by
  induction h with
  | done => nomatch hi
  | @stale j j' rest rest' w w₁ w' es result _ hreload hrest ih =>
    obtain ⟨hnew, hids⟩ := List.nodup_cons.mp hids
    have hg : Attempt.Genuine libraries ⟨j, w.record (s.report j), result, j', w₁⟩ :=
      ⟨budget, hreload⟩
    rcases List.mem_cons.mp hi with rfl | hi
    · refine ⟨j', List.mem_cons_self, ?_⟩
      have hone := attemptsOn_cons_own es ⟨i, w.record (s.report i), result, j', w₁⟩
      rw [hone, hrest.kept.2.2 _ hnew]
      exact .single hg rfl
    · obtain ⟨i', hi', hlast⟩ := ih hids hi
      have hne : j.id ≠ i.id := fun heq => hnew (heq ▸ List.mem_map_of_mem hi)
      rw [attemptsOn_cons_other hne]
      exact ⟨i', List.mem_cons_of_mem _ hi', hg.files ▸ hlast⟩
  | @fresh j rest rest' w w' es _ hrest ih =>
    obtain ⟨hnew, hids⟩ := List.nodup_cons.mp hids
    rcases List.mem_cons.mp hi with rfl | hi
    · refine ⟨i, List.mem_cons_self, ?_⟩
      rw [hrest.kept.2.2 _ hnew]
      exact .none
    · obtain ⟨i', hi', hlast⟩ := ih hids hi
      exact ⟨i', List.mem_cons_of_mem _ hi', hlast⟩

/-- Through all source files. -/
theorem Sweep.last {sources : List SourceFile} (h : Sweep budget libraries sources is w es is' w')
    (hids : (is.map Instance.id).Nodup) (hi : i ∈ is) :
    ∃ i' ∈ is', LastOf libraries w.files i i' (attemptsOn i.id es) := by
  induction h generalizing i with
  | done => exact ⟨i, hi, .none⟩
  | source hreloads _ ih =>
    obtain ⟨i₁, hi₁, hfirst⟩ := hreloads.last hids hi
    obtain ⟨i', hi', hrest⟩ := ih (hreloads.kept.1 ▸ hids) hi₁
    rw [Instance.id, hfirst.handle, hreloads.kept.2.1] at hrest
    exact ⟨i', hi', (attemptsOn_append ..) ▸ hfirst.trans hrest⟩

end Scans

/-- The instance has caught up with the files: it is bound to what its source file has in it, by
the last load that succeeded, or its last attempt read just that and failed. -/
inductive Settled (files : FileTree) (as : List Attempt) (i : Instance) : Prop
  | bound {a : Attempt} {script : Script} (hlast : lastLoad? as = some a)
      (hfile : a.world.files.lookup i.source = files.lookup i.source)
      (hprogram : i.binding.map Binding.program = a.after.binding.map Binding.program)
      (hread : readScript files i.source i.name = .ok script)
      (hfunctions : i.binding.map (·.functions) = some script.functions)
  | failed {a : Attempt} {e : ReloadError} (hlast : as.getLast? = some a)
      (hfile : a.world.files.lookup i.source = files.lookup i.source) (hresult : a.result = .error e)
      (herror : i.lastError = some e.message)

section Settling

variable {libraries : Libraries} {files files' : FileTree} {p : FilePath} {as : List Attempt}
  {a : Attempt} {w : World} {i i' : Instance}

theorem readScript_congr {name : String} (h : files'.lookup p = files.lookup p) :
    readScript files' p name = readScript files p name := by
  unfold readScript FileTree.readText FileTree.read
  rw [h]

theorem lastLoad?_of_getLast? (h : as.getLast? = some a) (ha : a.succeeded = true) :
    lastLoad? as = some a := by
  obtain ⟨init, rfl⟩ := List.getLast?_eq_some_iff.mp h
  rw [lastLoad?_concat, if_pos ha]

/-- Whoever was attempted has caught up with what the attempts read. -/
theorem LastOf.settled {before : List Attempt} (h : LastOf libraries files i i' as) (hne : as ≠ []) :
    Settled files (before ++ as) i' := by
  obtain ⟨a, ha, rfl, ⟨budget, hreload⟩, rfl, -⟩ := h.last.resolve_left fun hnone => hne hnone.1
  have hlast : (before ++ as).getLast? = some a := by rw [List.getLast?_append, ha, Option.some_or]
  rw [← Instance.reloadAmid_still] at hreload
  rcases Instance.reloadAmid_cases hreload with
    ⟨script, b, now, hread, hfunctions, hr, hafter, -⟩ | ⟨e, hr, hafter⟩
  · have hload : lastLoad? (before ++ as) = some a :=
      lastLoad?_of_getLast? hlast (by rw [Attempt.succeeded, hr]; rfl)
    refine .bound hload rfl rfl (?_ : readScript _ _ _ = .ok script) ?_ <;> rw [hafter]
    · exact hread
    · exact congrArg some hfunctions
  · exact .failed hlast rfl hr (by rw [hafter]; rfl)

theorem Instance.isOverdue_of_unloaded {bytes : ByteArray} {modified : Instant}
    (hfile : files.lookup i.source = .ok (.file bytes modified)) (hsize : bytes.size ≠ 0)
    (htime : i.loadTime = none) : i.isOverdue files = true := by
  rw [isOverdue, hfile, htime]
  simpa using hsize

theorem Instance.isOverdue_of_written {time : Instant} (htime : i.loadTime = some time)
    (h : files.writtenSince i.source (time + 1) = true) : i.isOverdue files = true := by
  obtain ⟨bytes, modified, hfile, hsize, hlate⟩ := FileTree.file_of_writtenSince h
  simp only [isOverdue, hfile, htime, Bool.and_eq_true, bne_iff_ne, decide_eq_true_eq]
  exact ⟨hsize, hlate⟩

/-- Whoever is not overdue has caught up, unless what is there came in the midst of the last load. -/
theorem Dated.settled {bytes : ByteArray} {modified : Instant} (h : Dated i.source as w i)
    (hfile : w.files.lookup i.source = .ok (.file bytes modified)) (hsize : bytes.size ≠ 0)
    (hfresh : i.isOverdue w.files = false)
    (hseen : ∀ a, lastLoad? as = some a → ¬ a.Overtaken i.source w.files) :
    Settled w.files as i := by
  cases h with
  | unloaded hlast htime =>
    nomatch hfresh.symm.trans (Instance.isOverdue_of_unloaded hfile hsize htime)
  | @loaded a time hlast hbound htime hpast hsame =>
    rcases hsame with hsame | hwritten
    · have hread : a.left.files.lookup i.source = a.world.files.lookup i.source := by
        by_contra hne
        exact hseen a hlast ⟨hsame, hne⟩
      have hnow := hsame.trans hread
      obtain ⟨script, hscript, hfunctions⟩ := hbound.script
      have hprogram : i.binding.map (·.functions) = a.after.binding.map (·.functions) := by
        simpa [Option.map_map, Function.comp_def, Binding.program] using
          congrArg (Option.map (·.functions)) hbound.program
      exact .bound hlast hnow.symm hbound.program ((readScript_congr hnow).trans hscript)
        (hprogram.trans hfunctions)
    · nomatch hfresh.symm.trans (Instance.isOverdue_of_written htime hwritten)

end Settling

/-- After the next scan every instance of a plain name has caught up with its file, whatever was
written before and when, but for what came into the file between the reading and the recording of the
last load. -/
theorem no_edit_lost {c : HostConfig} {w : World} {p : FilePath} {es : List Event} {r : Registry}
    (h : Session c w p es r) {budget n : Nat} {is : List Instance} {w' : World}
    (hscan : scan budget r.libraries r.scripts.dir r.instances r.world = some (.ok n, is, w'))
    {i : Instance} (hi : i ∈ r.instances) (hp : i.source = p) (hname : '/' ∉ i.name.toList)
    (hne : i.name ≠ "") (hslash : '/' ∉ r.scripts.extension.toList)
    (hdot : '.' ∉ r.scripts.extension.toList) {bytes : ByteArray} {modified : Instant}
    (hfile : r.world.files.lookup p = .ok (.file bytes modified)) (hsize : bytes.size ≠ 0)
    (hseen : ∀ a, lastLoad? (attemptsOn i.id es) = some a → ¬ a.Overtaken p r.world.files) :
    ∃ tries sources reports, Sweep budget r.libraries sources r.instances
      (r.world.recordAll reports) tries is w' ∧ ∃ i' ∈ is, i'.handle = i.handle ∧
        Settled r.world.files (attemptsOn i.id (es ++ tries)) i' := by
  subst hp
  have ht := h.timely
  unfold scan at hscan
  split at hscan
  · cases hscan
  · rename_i sources reports hfound
    obtain ⟨⟨m, is₁, w₁⟩, hall, hend⟩ := Option.bind_eq_some_iff.mp hscan
    cases hend
    obtain ⟨tries, hsweep, -⟩ := Registry.reloadAll_sweep hall
    have hcovered := hsweep.covered hfound ht.sources
    obtain ⟨log, hlog⟩ := World.recordAll_world reports r.world
    have hids : (r.instances.map Instance.id).Nodup := ht.ascending.imp Nat.ne_of_lt
    obtain ⟨i', hi', hlast⟩ := hsweep.last hids hi
    rw [hlog] at hlast
    refine ⟨tries, sources, reports, hsweep, i', hi', hlast.handle, ?_⟩
    rw [attemptsOn_append]
    by_cases hnone : attemptsOn i.id tries = []
    · obtain ⟨-, rfl⟩ := hlast.last.resolve_right fun ⟨a, ha, _⟩ => by rw [hnone] at ha; nomatch ha
      rw [hnone, List.append_nil]
      refine (ht.dated i' hi).settled hfile hsize (Bool.eq_false_iff.mpr fun hoverdue => ?_) hseen
      obtain ⟨a, ha, hbefore⟩ := hcovered.own hslash hdot i' hi hname hne hoverdue
      have hmem : a ∈ attemptsOn i'.id tries := List.mem_filter.mpr
        ⟨List.mem_filterMap.mpr ⟨_, ha, rfl⟩, beq_iff_eq.mpr (congrArg Instance.id hbefore)⟩
      rw [hnone] at hmem
      nomatch hmem
    · exact hlast.settled hnone

/-- The one script with a text, written at a time. -/
def FileTree.stamped (text : String) (time : Instant) : FileTree :=
  { root := .dir [("scripts", .dir [("A.rhai", .file text.toUTF8 time)])] }

/-- An editor that writes the script at every turn while it is loaded. -/
def Editor.busy (text : String) : Editor where
  running := ⟨fun _ m => .stamped text m.world.clock, fun _ _ => 1⟩
  closing w := (w.files, 0)

/-- An editor that writes the script when it was run and the time of the load is not yet taken. -/
def Editor.late (text : String) : Editor where
  running := .still
  closing w := (.stamped text w.clock, 1)

theorem Attempt.Overtaken.texts {a : Attempt} {p : FilePath} {files : FileTree}
    (h : a.Overtaken p files) :
    (files.readText p).toOption = (a.left.files.readText p).toOption := by
  unfold FileTree.readText FileTree.read
  rw [h.1]

set_option maxRecDepth 100000 in
/-- A script is written while it is loaded for a second time, and once more behind that: the scan
gets to what was written last. -/
theorem no_edit_lost_twice : ∃ (c : HostConfig) (w : World) (p : FilePath) (es : List Event)
    (r : Registry) (n : Nat) (is : List Instance) (w' : World), Session c w p es r ∧
      scan 1000 r.libraries r.scripts.dir r.instances r.world = some (.ok n, is, w') ∧
      is.map (fun i => (i.generation, i.entryPoints)) = [(some 3, [.onMessage])] ∧
      ∀ i ∈ r.instances, ∃ tries sources reports, Sweep 1000 r.libraries sources r.instances
        (r.world.recordAll reports) tries is w' ∧ ∃ i' ∈ is, i'.handle = i.handle ∧
          Settled r.world.files (attemptsOn i.id (es ++ tries)) i' := by
  let c : HostConfig := { scripts := { startup := [] } }
  let p : FilePath := c.scripts.sourcePath "A"
  let w : World := { (default : World) with
    clock := 2000, files := .stamped "fn OnUpdate() \x7b \x7d" 1000 }
  let last : FileTree := .stamped "fn OnMessage(m) \x7b \x7d" 5000
  let busy : Editor := .busy "fn OnDraw() \x7b \x7d"
  have hrun : ((Registry.start c w).add 1000 "A").any (fun added =>
      added.2.instances[0]?.any fun i =>
        (i.reloadAmid busy 1000 added.2.libraries added.2.world).any fun loaded =>
          (decide (added.2.world.clock ≤ loaded.2.2.clock) &&
            (loaded.2.2.files.writtenSince p added.2.world.clock &&
              last.writtenSince p loaded.2.2.clock)) &&
          (loaded.1.isOk &&
            (loaded.2.2.files.readText p).toOption != (last.readText p).toOption) &&
          (decide (added.2.instances.length = 1) &&
            decide (loaded.2.1.name = "A" ∧ loaded.2.1.source = p) &&
            decide (added.2.scripts = c.scripts)) &&
          (scan 1000 added.2.libraries added.2.scripts.dir (added.2.instances.set 0 loaded.2.1)
            { loaded.2.2 with files := last }).any fun scanned => scanned.1.isOk &&
              scanned.2.1.map (fun i => (i.generation, i.entryPoints)) ==
                [(some 3, [.onMessage])]) = true := by
    decide +kernel
  obtain ⟨⟨id, r⟩, hadd, hrun⟩ := (Option.any_eq_true _ _).mp hrun
  obtain ⟨i, hi, hrun⟩ := (Option.any_eq_true _ _).mp hrun
  obtain ⟨⟨o, i', v⟩, hreload, hrun⟩ := (Option.any_eq_true _ _).mp hrun
  simp only [Bool.and_eq_true, decide_eq_true_eq] at hrun
  obtain ⟨⟨⟨⟨hclock, hwritten, hlater⟩, hok, htexts⟩, ⟨hlength, hname, hsource⟩, hscripts⟩, hscan⟩ :=
    hrun
  obtain ⟨⟨result, is, w'⟩, hscan, hafter⟩ := (Option.any_eq_true _ _).mp hscan
  obtain ⟨hscanned, hshows⟩ := Bool.and_eq_true_iff.mp hafter
  obtain ⟨first, hjoined, -, -⟩ := Registry.add_joined hadd
  let second : Attempt := ⟨i, r.world, o, i', v⟩
  have hnoEdit (files : FileTree) : Event.joined first ≠ .chore (.edit files) := by
    intro h
    cases h
  have h₁ := Session.act (p := p) .start hjoined (hjoined.elapses hnoEdit p)
  have hamid : second.Amid r.libraries := ⟨_, _, hreload⟩
  have h₂ := h₁.tried hi rfl hamid ⟨hclock, .inr hwritten⟩
  have h₃ := h₂.act (.chore (.edit last)) ⟨Int.le_refl _, .inr hlater⟩
  obtain ⟨n, rfl⟩ : ∃ n, result = .ok n := by
    cases result with
    | error e => cases hscanned
    | ok n => exact ⟨n, rfl⟩
  refine ⟨c, w, p, _, _, n, is, w', h₃, hscan, beq_iff_eq.mp hshows, fun j hj => ?_⟩
  have hone : r.instances.set 0 i' = [i'] := by
    obtain ⟨i₀, h₀⟩ := List.length_eq_one_iff.mp hlength
    rw [h₀]
    rfl
  obtain rfl : j = i' := List.mem_singleton.mp (hone ▸ hj)
  have hid : i.id = j.id := congrArg ScriptHandle.id hamid.kept.1.symm
  have hlast : lastLoad? (attemptsOn j.id ([] ++ [.joined first] ++ [.tried second] ++
      [.chore (.edit last)])) = some second := by
    rw [attemptsOn_none rfl, attemptsOn_own rfl hid, lastLoad?_concat]
    exact if_pos hok
  obtain ⟨bytes, modified, hfile, hsize, -⟩ := FileTree.file_of_writtenSince hlater
  refine no_edit_lost h₃ hscan hj hsource (by rw [hname]; decide) (by rw [hname]; decide)
    (hscripts ▸ by decide) (hscripts ▸ by decide) hfile hsize fun a ha hover => ?_
  obtain rfl := Option.some.inj (hlast.symm.trans ha)
  exact bne_iff_ne.mp htexts hover.texts.symm

set_option maxRecDepth 100000 in
/-- The script is written between the end of its top level and the recording of the time: the scan
does not attempt to load it again, and it stays with what it had. -/
theorem edit_during_load_lost : ∃ (c : HostConfig) (w : World) (p : FilePath) (es : List Event)
    (r : Registry) (is : List Instance) (w' : World), Session c w p es r ∧
      r.instances.map (fun i => (i.name, i.source)) = [("A", p)] ∧
      r.world.files.readText p = .ok "fn OnDraw() \x7b \x7d" ∧
      scan 1000 r.libraries r.scripts.dir r.instances r.world = some (.ok 0, is, w') ∧
      is.map (fun i => (i.generation, i.entryPoints, i.lastError)) =
        [(some 1, [.onUpdate], none)] ∧
      ∀ i ∈ is, ¬ Settled r.world.files (attemptsOn i.id es) i := by
  let c : HostConfig := { scripts := { startup := [] } }
  let p : FilePath := c.scripts.sourcePath "A"
  let w : World := { (default : World) with
    clock := 2000, files := .stamped "fn OnUpdate() \x7b \x7d" 1000 }
  let first : Instance := ((Registry.start c w).create "A").1
  let v : World := ((Registry.start c w).create "A").2.world
  have hrun : (first.reloadAmid (.late "fn OnDraw() \x7b \x7d") 1000 (Registry.start c w).libraries
      v).any (fun loaded =>
        (decide (v.clock ≤ loaded.2.2.clock) && loaded.2.2.files.writtenSince p v.clock) &&
        (loaded.1.isOk && decide ((loaded.2.1.name, loaded.2.1.source) = ("A", p)) &&
          decide (first.id = 1)) &&
        (decide (v.files.readText p = .ok "fn OnUpdate() \x7b \x7d") &&
          decide (loaded.2.2.files.readText p = .ok "fn OnDraw() \x7b \x7d")) &&
        (scan 1000 (Registry.start c w).libraries (Registry.start c w).scripts.dir [loaded.2.1]
          loaded.2.2).any fun scanned => decide (scanned.1 = .ok 0) &&
            (scanned.2.1.map (fun i => (i.generation, i.entryPoints, i.lastError)) ==
              [(some 1, [.onUpdate], none)] &&
              scanned.2.1.map (fun i => (i.id, i.source)) == [(1, p)])) = true := by
    decide +kernel
  obtain ⟨⟨o, i, v'⟩, hreload, hrun⟩ := (Option.any_eq_true _ _).mp hrun
  simp only [Bool.and_eq_true, decide_eq_true_eq] at hrun
  obtain ⟨⟨⟨⟨hclock, hwritten⟩, ⟨hok, hname⟩, hid⟩, hread, hnow⟩, hscan⟩ := hrun
  obtain ⟨⟨result, is, w'⟩, hscan, hafter⟩ := (Option.any_eq_true _ _).mp hscan
  simp only [Bool.and_eq_true, decide_eq_true_eq, beq_iff_eq] at hafter
  obtain ⟨rfl, hshows, hsame⟩ := hafter
  let a : Attempt := ⟨first, v, o, i, v'⟩
  have hs := Session.joined (p := p) (a := a) .start rfl rfl ⟨_, _, hreload⟩ ⟨hclock, .inr hwritten⟩
  have hone : (Registry.start c w).instances ++ [i] = [i] := by
    rw [Registry.start_instances, List.nil_append]
  refine ⟨c, w, p, _, _, is, w', hs, ?_, hnow, ?_, hshows, fun j hj hsettled => ?_⟩
  · exact (congrArg (List.map _) hone).trans (congrArg (fun x => [x]) hname)
  · exact hone.symm ▸ hscan
  have hmem : (j.id, j.source) ∈ [(1, p)] := hsame ▸ List.mem_map_of_mem hj
  obtain ⟨hj, hsource⟩ := Prod.mk.inj (List.mem_singleton.mp hmem)
  have hattempts : attemptsOn j.id ([] ++ [.joined a]) = [a] := attemptsOn_own rfl (hid.trans hj.symm)
  rw [hattempts] at hsettled
  cases hsettled with
  | @bound b script hlast hfile =>
    have hload : lastLoad? [a] = some a := lastLoad?_of_getLast? rfl hok
    obtain rfl : b = a := Option.some.inj (hlast.symm.trans hload)
    rw [hsource] at hfile
    have htexts : v.files.readText p = v'.files.readText p := by
      unfold FileTree.readText FileTree.read
      exact hfile ▸ rfl
    exact absurd (hread.symm.trans (htexts.trans hnow)) (by decide)
  | @failed b e hlast hfile hresult =>
    obtain rfl : a = b := Option.some.inj hlast
    have hfailed : o = .error e := hresult
    rw [hfailed] at hok
    cases hok

end Stagehand
