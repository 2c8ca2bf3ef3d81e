import Stagehand.Proofs.Guards
import Stagehand.Proofs.Histories

/-!
# Libraries that import each other

A library is kept only when its top level has ended, and nobody looks which libraries are just being
loaded: a library that is imported while it is loaded is loaded once more. So loads end if the top
levels otherwise end and no library is imported again on the way (`imports_founded`), and libraries
whose top levels cannot do without each other are never loaded (`ImportLaw.endless`).
-/

namespace Stagehand

open Lang

namespace Lang

/-! ## Runs that end -/

/-- The run ends from here. -/
def Ends {α : Type} (x : Eval α) (m : Machine) : Prop := ∃ r, x m = some r

namespace Ends

variable {α β : Type} {m : Machine}

theorem bind {x : Eval α} {f : α → Eval β} (hx : Ends x m)
    (hf : ∀ a m', x m = some (.ok a, m') → Ends (f a) m') : Ends (x >>= f) m := by
  obtain ⟨⟨r, m'⟩, h⟩ := hx
  cases r with
  | ok a =>
      obtain ⟨r, hr⟩ := hf a m' h
      exact ⟨r, Option.bind_eq_some_iff.mpr ⟨_, h, hr⟩⟩
  | error halt => exact ⟨_, Option.bind_eq_some_iff.mpr ⟨_, h, rfl⟩⟩

theorem extend {x y : Eval α} (hx : Ends x m) (h : Extends x y) : Ends y m :=
  hx.imp fun r hr => h m r hr

/-- A library is loaded, or fails to be, if it is read and evaluated or fails to be. -/
theorem loadLibrary {stage : Stage} {run : Run} {file : FilePath} {text : String} {pos : Place}
    (h : Ends (readLibrary run file) m) : Ends (loadLibrary stage run file text pos) m := by
  obtain ⟨r, hread⟩ := h
  unfold Ends
  rw [loadLibrary_apply]
  cases hserved : m.realm.served? file (m.world.files.modified? file) with
  | some module => exact ⟨_, fetchLibrary_served hserved⟩
  | none => exact ⟨_, by rw [fetchLibrary_unserved hserved, hread]; rfl⟩

end Ends

/-- What scripts do leaves the files alone. -/
theorem Built.files {stage : Stage} {α : Type} [Leafy α] {x : Eval α}
    (hx : Built (fun _ => True) stage x) {m m' : Machine} {r : Except Halt α}
    (h : x m = some (r, m')) : m'.world.files = m.world.files := by
  obtain ⟨es, -, hworld⟩ := (hx.does m r m' m.confined_everything h).1.effects
  have hfiles : ({ m'.world with realms := m.world.realms } : World).files = m.world.files := by
    rw [hworld]
    exact Effect.applyAll_eq Effect.apply_files es m.world
  exact hfiles

/-! ## Loads that end -/

section Loads

variable (stage : Stage) (files : FileTree)

/-- Every import ends while these libraries are being loaded, where an import of one of them is
refused. -/
def ImportsEnd (underway : List FilePath) : Prop :=
  ∀ text pos m, m.world.files = files → ∃ budget,
    Ends (resolveGuarded stage unlessUnderway refused
      (evaluateGuarded stage unlessUnderway refused budget) underway text pos) m

/-- The top level of each library ends if all its imports do. -/
def TopLevelsEnd : Prop :=
  ∀ underway, ImportsEnd stage files underway →
    ∀ file ∈ stage.libraries.files.map Prod.snd, ∀ m, m.world.files = files → ∃ budget,
      Ends (readLibrary (evaluateGuarded stage unlessUnderway refused budget underway) file) m

/-- In the course of the import no library is imported while it is being loaded, so that it makes no
difference whether there would be an answer. -/
def LoadsOnce (text : String) (pos : Place) (m : Machine) : Prop :=
  ∀ budget,
    resolveGuarded stage unlessUnderway unanswered
        (evaluateGuarded stage unlessUnderway unanswered budget) [] text pos m =
      resolveGuarded stage unlessUnderway refused
        (evaluateGuarded stage unlessUnderway refused budget) [] text pos m

variable {stage files}

/-- Imports end if they do so while one more library is being loaded. -/
theorem TopLevelsEnd.importsEnd (h : TopLevelsEnd stage files) {u : List FilePath}
    (hnext : ∀ file u', file ∈ stage.libraries.files.map Prod.snd →
      unlessUnderway u file = some u' → ImportsEnd stage files u') : ImportsEnd stage files u := by
  intro text pos m hm
  unfold resolveGuarded
  cases hpath : stage.libraries.path? text with
  | none => exact ⟨0, _, rfl⟩
  | some file =>
      have hfile := Libraries.indexed_of_path? hpath
      dsimp only
      cases hs : unlessUnderway u file with
      | none => exact ⟨0, _, rfl⟩
      | some u' =>
          obtain ⟨budget, hread⟩ := h u' (hnext file u' hfile hs) file hfile m hm
          exact ⟨budget, hread.loadLibrary⟩

/-- By induction on how many libraries are not being loaded. -/
theorem TopLevelsEnd.imports (h : TopLevelsEnd stage files) : ∀ (depth : Nat) (u : List FilePath),
    Underway stage.libraries u depth → ImportsEnd stage files u := by
  intro depth
  induction depth with
  | zero =>
      intro u hu
      refine h.importsEnd fun file u' hfile hs => ?_
      obtain ⟨_, hdepth, -⟩ := hu.next hfile hs
      nomatch hdepth
  | succ depth ih =>
      intro u hu
      refine h.importsEnd fun file u' hfile hs => ?_
      obtain ⟨depth', hdepth, hu'⟩ := hu.next hfile hs
      cases hdepth
      exact ih u' hu'

/-- What an import that loads nothing twice comes to. -/
theorem TopLevelsEnd.resolves (h : TopLevelsEnd stage files) {text : String} {pos : Place}
    {m : Machine} (hm : m.world.files = files) (honce : LoadsOnce stage text pos m) :
    ∃ budget r, ∀ budget', budget ≤ budget' →
      resolveLibrary stage (evaluate stage budget') text pos m = some r ∧
        resolveGuarded stage upToDepth unanswered
          (evaluateGuarded stage upToDepth unanswered budget') stage.libraries.files.length text pos
          m = some r := by
  have hnothing := Underway.nothing stage.libraries
  obtain ⟨budget, r, hr⟩ := h.imports _ [] hnothing text pos m hm
  rw [← honce budget] at hr
  refine ⟨budget, r, fun budget' hle => ⟨?_, ?_⟩⟩
  · have hnext (u : List FilePath) (t : Unit) (_ : True) (job : Job) :
        Extends (evaluateGuarded stage unlessUnderway unanswered budget u job)
          (evaluate stage budget' job) := by
      rw [← evaluateGuarded_always unanswered]
      exact Permits.always.evaluate hle u () trivial job
    rw [← resolveGuarded_always unanswered]
    exact Permits.always.resolve hnext trivial text pos m r hr
  · exact Permits.upToDepth.resolve (Permits.upToDepth.evaluate hle) hnothing text pos m r hr

end Loads

/-! ## Libraries that need each other -/

section Endless

variable (stage : Stage) (files : FileTree) (needed : List FilePath)

/-- The files are these, and none of the libraries was evaluated. -/
def Unloaded (m : Machine) : Prop :=
  m.world.files = files ∧ ∀ entry ∈ m.realm.modules, entry.1 ∉ needed

/-- None of the libraries can be evaluated without another of them. -/
def NeedEachOther : Prop :=
  ∀ file ∈ needed, ∀ budget m, Unloaded files needed m →
    readLibrary (evaluateGuarded stage (avoiding needed) unanswered budget ()) file m = none

/-- The runs are the same as long as none of the libraries was evaluated, and evaluate none. -/
abbrev SameUnloaded {α : Type} (x y : Eval α) : Prop :=
  Same (Unloaded files needed) (fun _ m' => Unloaded files needed m') x y

variable {stage files needed}

theorem sameUnloaded_congruence : Congruence (SameUnloaded files needed) :=
  .same (fun hm h => ⟨h.files.trans hm.1, h.modules ▸ hm.2⟩) (fun _ h => h) fun _ h => h

/-- Without an end of its evaluation there is no end of the load. -/
theorem loadLibrary_none {run : Run} {file : FilePath} {text : String} {pos : Place} {m : Machine}
    (hread : readLibrary run file m = none) (hnew : ∀ entry ∈ m.realm.modules, entry.1 ≠ file) :
    loadLibrary stage run file text pos m = none := by
  have hcached : m.realm.cached? file = none := by
    rw [Realm.cached?, List.find?_eq_none.mpr fun entry hentry => by simpa using hnew entry hentry]
    rfl
  have hserved : m.realm.served? file (m.world.files.modified? file) = none :=
    Realm.served?_eq_none.mpr fun cached hsome => by rw [hcached] at hsome; cases hsome
  rw [loadLibrary_apply, fetchLibrary_unserved hserved, hread]
  rfl

/-- While none of the libraries was evaluated, none of them is loaded. -/
theorem NeedEachOther.same (h : NeedEachOther stage files needed) : ∀ budget job,
    SameUnloaded files needed (evaluateGuarded stage (avoiding needed) unanswered budget () job)
      (evaluate stage budget job)
  | 0, _ => fun _ _ => ⟨rfl, nofun⟩
  | budget + 1, job => by
    rw [evaluate, ← stepBy_resolveLibrary]
    refine sameUnloaded_congruence.stepBy (h.same budget) (fun text pos => ?_) job
    unfold resolveGuarded resolveLibrary
    cases hpath : stage.libraries.path? text with
    | none => exact sameUnloaded_congruence.raise _ _
    | some file =>
        dsimp only
        by_cases hneeded : file ∈ needed
        · rw [show avoiding needed () file = none from if_pos hneeded]
          refine fun m hm => ⟨?_, nofun⟩
          have hsame := (sameUnloaded_congruence.readLibrary (h.same budget) file m hm).1
          refine (loadLibrary_none ?_ fun entry hentry heq => ?_).symm
          · rw [← hsame]
            exact h file hneeded budget m hm
          · exact hm.2 entry hentry (heq ▸ hneeded)
        · rw [show avoiding needed () file = some () from if_neg hneeded]
          refine sameUnloaded_congruence.loadLibrary (h.same budget) (fun modified module => ?_)
            text pos
          refine fun m hm => ⟨rfl, fun r m' hrun => ?_⟩
          cases hrun
          refine ⟨hm.1, fun entry hentry => ?_⟩
          rcases List.mem_cons.mp hentry with rfl | hentry
          · exact hneeded
          · exact hm.2 entry (List.mem_filter.mp hentry).1

theorem NeedEachOther.endless (h : NeedEachOther stage files needed) {file : FilePath}
    (hneeded : file ∈ needed) (budget : Nat) (text : String) (pos : Place) {m : Machine}
    (hm : Unloaded files needed m) :
    loadLibrary stage (evaluate stage budget) file text pos m = none := by
  have hsame := (sameUnloaded_congruence.readLibrary (h.same budget) file m hm).1
  refine loadLibrary_none ?_ fun entry hentry heq => hm.2 entry hentry (heq ▸ hneeded)
  rw [← hsame]
  exact h file hneeded budget m hm

end Endless

/-! ## Libraries that only import -/

/-- The import of a body that does nothing else, if it is such a body. -/
def soleImport? : List Stmt → Option (Option String)
  | [] => some none
  | [.importModule (.literal (.str text) _) _ _] => some (some text)
  | _ => none

/-- The import of a library whose top level does nothing else, if it is such a library. -/
def libraryImport? (files : FileTree) (file : FilePath) : Option (Option String) :=
  match files.readText file with
  | .error _ => none
  | .ok source =>
    match Script.parse source with
    | .error _ => none
    | .ok script => Lang.soleImport? (script.prune []).unlinked.body

theorem soleImport?_eq_nil {body : List Stmt} (h : soleImport? body = some none) : body = [] := by
  unfold soleImport? at h
  split at h <;> first | rfl | nomatch h

theorem soleImport?_eq_import {body : List Stmt} {text : String}
    (h : soleImport? body = some (some text)) :
    ∃ p name pos, body = [.importModule (.literal (.str text) p) name pos] := by
  unfold soleImport? at h
  split at h
  · nomatch h
  · cases h
    exact ⟨_, _, _, rfl⟩
  · nomatch h

theorem flatten_str (heap : Heap) (text : String) : heap.flatten (.str text) = .str text := by
  unfold Heap.flatten
  cases heap.size <;> rfl

/-- A body that only imports ends as the import does. -/
theorem evaluateGuarded_import {body : List Stmt} {text : String}
    (h : soleImport? body = some (some text)) (m : Machine) :
    ∃ (pos : Place) (leave : Except Halt Module × Machine → Except Halt Value × Machine),
      ∀ {σ : Type} (stage : Stage) (gate : σ → FilePath → Option σ)
        (answer : String → Place → Eval Module) (s : σ) (budget : Nat),
        evaluateGuarded stage gate answer (budget + 3) s (.stmts body) m =
          (importBy (resolveGuarded stage gate answer
            (evaluateGuarded stage gate answer (budget + 1)) s) text pos m).map leave := by
  obtain ⟨p, name, pos, rfl⟩ := soleImport?_eq_import h
  let bring (module : Module) (f : Frame) : Frame :=
    name.elim f fun name => { f with imports := (name, module) :: f.imports }
  refine ⟨some pos, fun
    | (.ok module, m') => (.ok .unit, { m' with frame := bring module m'.frame })
    | (.error halt, m') => (.error halt, m'), fun stage gate answer s budget => ?_⟩
  have hflat : flat (evaluateGuarded stage gate answer (budget + 1) s) (.literal (.str text) p) m =
      some (Except.ok (.str text), m) := by
    rw [← flatten_str m.realm.heap]
    rfl
  refine (Eval.bind_ok hflat).trans ?_
  change (importBy _ text (some pos) m).bind _ = _
  cases importBy (resolveGuarded stage gate answer
    (evaluateGuarded stage gate answer (budget + 1)) s) text (some pos) m with
  | none => rfl
  | some p =>
      obtain ⟨halt | module, m'⟩ := p
      · rfl
      · cases name <;> rfl

theorem importBy_of_kept_nil (resolve : String → Place → Eval Module) (text : String) (pos : Place)
    {m : Machine} (h : m.frame.kept = []) : importBy resolve text pos m = resolve text pos m := by
  rw [importBy, Eval.get_bind, h]
  rfl

theorem Ends.importBy {resolve : String → Place → Eval Module} {text : String} {pos : Place}
    {m : Machine} (h : Ends (resolve text pos) m) : Ends (Lang.importBy resolve text pos) m := by
  refine Ends.bind ⟨_, rfl⟩ fun m₁ m₂ hm => ?_
  cases hm
  split
  · exact ⟨_, rfl⟩
  · exact h

theorem evaluateGuarded_import_none {σ : Type} {stage : Stage} {gate : σ → FilePath → Option σ}
    {answer : String → Place → Eval Module} {body : List Stmt} {text : String}
    (h : soleImport? body = some (some text)) {budget : Nat} (hbudget : budget < 3) (s : σ)
    (m : Machine) : evaluateGuarded stage gate answer budget s (.stmts body) m = none := by
  obtain ⟨p, name, pos, rfl⟩ := soleImport?_eq_import h
  match budget, hbudget with
  | 0, _ => rfl
  | 1, _ => rfl
  | 2, _ => rfl

/-- What a library comes to when its body was run in a frame of its own: the module or what halted
it, in the frame from before. -/
def closeLibrary (script : Script) (outer : Frame) (p : Except Halt Value × Machine) :
    Except Halt Module × Machine :=
  (match p.1 with
    | .ok _ | .error (.ret _) | .error (.exit _) => .ok (moduleOf script p.2.frame)
    | .error h => .error h, { p.2 with frame := outer })

/-- A library is read by running its body. -/
theorem readLibrary_body {files : FileTree} {file : FilePath} {sole : Option String}
    (h : libraryImport? files file = some sole) {m : Machine} (hm : m.world.files = files) :
    ∃ (body : List Stmt) (m₁ : Machine)
      (leave : Except Halt Value × Machine → Except Halt Module × Machine),
      soleImport? body = some sole ∧ m₁.world.files = files ∧ m₁.realm = m.realm ∧
        m₁.frame.kept = [] ∧
        ∀ run, readLibrary run file m = (run (.stmts body) m₁).map leave := by
  unfold libraryImport? at h
  split at h
  · nomatch h
  · rename_i source hsource
    split at h
    · nomatch h
    · rename_i script hparse
      let inner := (script.prune []).unlinked
      let frame : Frame := { functions := [inner.functions], constants := some [] }
      refine ⟨inner.body, { m with frame }, closeLibrary inner m.frame, h, hm, rfl, rfl,
        fun run => ?_⟩
      have hread : readLibrary run file m = evaluateLibrary run inner m := by
        rw [readLibrary, Eval.get_bind, hm, hsource]
        dsimp only
        rw [hparse]
      rw [hread, evaluateLibrary_eq]
      change ((run (.stmts inner.body) _).bind _).bind _ = _
      cases run (.stmts inner.body) { m with frame } with
      | none => rfl
      | some p =>
          obtain ⟨halt | v, m'⟩ := p
          · cases halt <;> rfl
          · rfl

theorem readLibrary_import {files : FileTree} {file : FilePath} {text : String}
    (h : libraryImport? files file = some (some text)) {m : Machine} (hm : m.world.files = files) :
    ∃ (pos : Place) (m₁ : Machine)
      (leave : Except Halt Module × Machine → Except Halt Module × Machine),
      m₁.world.files = files ∧ m₁.realm = m.realm ∧
      ∀ {σ : Type} (stage : Stage) (gate : σ → FilePath → Option σ)
        (answer : String → Place → Eval Module) (s : σ) (budget : Nat),
        readLibrary (evaluateGuarded stage gate answer budget s) file m =
          if budget < 3 then none
          else (resolveGuarded stage gate answer
            (evaluateGuarded stage gate answer (budget - 2)) s text pos m₁).map leave := by
  obtain ⟨body, m₁, leave, hbody, hfiles, hrealm, hkept, hread⟩ := readLibrary_body h hm
  obtain ⟨pos, leave', himport⟩ := evaluateGuarded_import hbody m₁
  refine ⟨pos, m₁, leave ∘ leave', hfiles, hrealm, fun stage gate answer s budget => ?_⟩
  rw [hread]
  split
  · rename_i hsmall
    rw [evaluateGuarded_import_none hbody hsmall]
    rfl
  · rename_i hlarge
    obtain ⟨budget, rfl⟩ := Nat.exists_eq_add_of_le' (Nat.le_of_not_lt hlarge)
    rw [himport, importBy_of_kept_nil _ _ _ hkept, Option.map_map]
    rfl

theorem readLibrary_nothing {files : FileTree} {file : FilePath}
    (h : libraryImport? files file = some none) {m : Machine} (hm : m.world.files = files) :
    ∃ r, ∀ {σ : Type} (stage : Stage) (gate : σ → FilePath → Option σ)
        (answer : String → Place → Eval Module) (s : σ) (budget : Nat),
        readLibrary (evaluateGuarded stage gate answer budget s) file m =
          if budget = 0 then none else some r := by
  obtain ⟨body, m₁, leave, hbody, hfiles, hrealm, hkept, hread⟩ := readLibrary_body h hm
  obtain rfl := soleImport?_eq_nil hbody
  refine ⟨leave (Except.ok .unit, m₁), fun stage gate answer s budget => ?_⟩
  rw [hread]
  cases budget <;> rfl

section SoleImports

variable {stage : Stage} {files : FileTree}

/-- Top levels that do no more than import end if their imports do. -/
theorem topLevelsEnd_of_soleImport
    (h : ∀ file ∈ stage.libraries.files.map Prod.snd, (libraryImport? files file).isSome = true) :
    TopLevelsEnd stage files := by
  intro underway himports file hfile m hm
  obtain ⟨sole, hsole⟩ := Option.isSome_iff_exists.mp (h file hfile)
  cases sole with
  | none =>
      obtain ⟨r, hread⟩ := readLibrary_nothing hsole hm
      exact ⟨1, r, hread stage unlessUnderway refused underway 1⟩
  | some text =>
      obtain ⟨pos, m₁, leave, hfiles, -, hread⟩ := readLibrary_import hsole hm
      obtain ⟨budget, r, hr⟩ := himports text pos m₁ hfiles
      have hrefl : Permits stage unlessUnderway refused unlessUnderway refused Eq := Permits.refl
      have hr' := hrefl.resolve (hrefl.evaluate (Nat.le_succ budget)) rfl text pos m₁ r hr
      refine ⟨budget + 3, leave r, ?_⟩
      rw [hread, if_neg (Nat.not_lt.mpr (Nat.le_add_left 3 budget))]
      exact congrArg (Option.map leave) hr'

/-- Libraries whose top levels do no more than import one another need each other. -/
theorem needEachOther_of_soleImport {needed : List FilePath}
    (h : ∀ file ∈ needed, ∃ text other, libraryImport? files file = some (some text) ∧
      stage.libraries.path? text = some other ∧ other ∈ needed) :
    NeedEachOther stage files needed := by
  intro file hfile budget m hm
  obtain ⟨text, other, hsole, hpath, hother⟩ := h file hfile
  obtain ⟨pos, m₁, leave, -, -, hread⟩ := readLibrary_import hsole hm.1
  rw [hread]
  split
  · rfl
  · unfold resolveGuarded
    rw [hpath]
    dsimp only
    rw [show avoiding needed () other = none from if_pos hother]
    rfl

/-- It makes no difference for the library whether there is an answer to what is not admitted. -/
def ReadsOnce (stage : Stage) (files : FileTree) (underway : List FilePath) (file : FilePath) :
    Prop :=
  ∀ budget m, m.world.files = files →
    readLibrary (evaluateGuarded stage unlessUnderway unanswered budget underway) file m =
      readLibrary (evaluateGuarded stage unlessUnderway refused budget underway) file m

theorem ReadsOnce.nothing {u : List FilePath} {file : FilePath}
    (h : libraryImport? files file = some none) : ReadsOnce stage files u file := by
  intro budget m hm
  obtain ⟨r, hread⟩ := readLibrary_nothing h hm
  rw [hread, hread]

theorem ReadsOnce.import {u : List FilePath} {file other : FilePath} {text : String}
    (h : libraryImport? files file = some (some text))
    (hpath : stage.libraries.path? text = some other) (hnew : other ∉ u)
    (hother : ReadsOnce stage files (other :: u) other) : ReadsOnce stage files u file := by
  intro budget m hm
  obtain ⟨pos, m₁, leave, hfiles, -, hread⟩ := readLibrary_import h hm
  rw [hread, hread]
  have hnext : unlessUnderway u other = some (other :: u) := if_neg hnew
  simp only [resolveGuarded, hpath, hnext]
  rw [loadLibrary_congr (hother _ m₁ hfiles)]

theorem ReadsOnce.loadsOnce {file : FilePath} {text : String} {pos : Place} {m : Machine}
    (hpath : stage.libraries.path? text = some file) (hm : m.world.files = files)
    (h : ReadsOnce stage files [file] file) : LoadsOnce stage text pos m := by
  intro budget
  have hnext : unlessUnderway [] file = some [file] := if_neg List.not_mem_nil
  simp only [resolveGuarded, hpath, hnext]
  exact loadLibrary_congr (h budget m hm)

end SoleImports

end Lang

/-! ## Loading a script -/

section Scripts

variable {stage : Stage} {budget budget' : Nat} (hle : budget ≤ budget')
include hle

theorem resolveLibrary_extends (text : String) (pos : Place) :
    Extends (resolveLibrary stage (evaluate stage budget) text pos)
      (resolveLibrary stage (evaluate stage budget') text pos) := by
  unfold resolveLibrary
  cases stage.libraries.path? text with
  | none => exact .refl _
  | some file =>
      exact extends_congruence.loadLibrary (evaluate_extends hle) (fun _ _ => .refl _) text pos

theorem keepLibraries_extends : ∀ texts : List String,
    Extends (keepLibraries stage (evaluate stage budget) texts)
      (keepLibraries stage (evaluate stage budget') texts)
  | [] => .refl _
  | text :: rest => extends_congruence.bind (resolveLibrary_extends hle text none) fun _ =>
      extends_congruence.bind (keepLibraries_extends rest) fun _ => .refl _

omit hle in
theorem perform_extends {α : Type} {x y : Eval α} (h : Extends x y) {frame : Frame} {w : World}
    {p : Except Halt α × Frame × World} (hx : perform stage x frame w = some p) :
    perform stage y frame w = some p := by
  obtain ⟨q, hq, hp⟩ := Option.bind_eq_some_iff.mp hx
  exact Option.bind_eq_some_iff.mpr ⟨q, h _ q hq, hp⟩

theorem build_extends {source : FilePath} {w : World} {p : Except ReloadError Binding × World}
    (h : build budget stage source w = some p) : build budget' stage source w = some p := by
  refine build_iff.mpr ((build_iff.mp h).imp_right fun ⟨script, hscript, hbinds⟩ => ?_)
  generalize p.1 = r, p.2 = w' at hbinds ⊢
  refine ⟨script, hscript, ?_⟩
  cases hbinds with
  | unresolved hkeep => exact .unresolved (perform_extends (keepLibraries_extends hle _) hkeep)
  | ended hkeep hbody =>
      exact .ended (perform_extends (keepLibraries_extends hle _) hkeep)
        (perform_extends (evaluate_extends hle _) hbody)

theorem Instance.reload_extends {libraries : Libraries} {i : Instance} {w : World}
    {p : Except ReloadError Unit × Instance × World} (h : i.reload budget libraries w = some p) :
    i.reload budget' libraries w = some p := by
  obtain ⟨q, hbuild, h⟩ := Option.bind_eq_some_iff.mp h
  exact Option.bind_eq_some_iff.mpr ⟨q, build_extends hle hbuild, h⟩

end Scripts

/-- All that the load of an instance runs ends, but for imports: the top levels of the libraries end
if what they import does, and so does that of the script. -/
structure OtherwiseEnds (libraries : Libraries) (i : Instance) (files : FileTree) : Prop where
  topLevels : TopLevelsEnd (i.stage libraries) files
  script : ∀ script, readScript files i.source i.name = .ok script →
    (∀ text pos m, m.world.files = files → ∃ budget,
      Ends (resolveLibrary (i.stage libraries) (evaluate (i.stage libraries) budget) text pos) m) →
    ∀ m, m.world.files = files → ∃ budget,
      Ends (evaluate (i.stage libraries) budget (.stmts script.body)) m

/-- What becomes of imports. -/
structure ImportLaw (libraries : Libraries) (i : Instance) (files : FileTree) : Prop where
  /-- An import in whose course no library is imported while it is being loaded ends, and no more
  libraries are loaded inside one another than there are. -/
  resolved : ∀ text pos m, m.world.files = files → LoadsOnce (i.stage libraries) text pos m →
    ∃ budget r, ∀ budget', budget ≤ budget' →
      resolveLibrary (i.stage libraries) (evaluate (i.stage libraries) budget') text pos m =
          some r ∧
        resolveGuarded (i.stage libraries) upToDepth unanswered
          (evaluateGuarded (i.stage libraries) upToDepth unanswered budget') libraries.files.length
          text pos m = some r
  /-- So does the load of the instance, if this is so of all imports. -/
  loaded : (∀ text pos m, m.world.files = files → LoadsOnce (i.stage libraries) text pos m) →
    ∀ w, w.files = files → ∃ budget r, ∀ budget', budget ≤ budget' →
      i.reload budget' libraries w = some r
  /-- Libraries that cannot be evaluated without each other are never loaded. -/
  endless : ∀ needed, NeedEachOther (i.stage libraries) files needed → ∀ file ∈ needed,
    ∀ budget text pos m, Unloaded files needed m →
      loadLibrary (i.stage libraries) (evaluate (i.stage libraries) budget) file text pos m = none

section Law

variable {libraries : Libraries} {i : Instance} {files : FileTree}

theorem keepLibraries_ends {stage : Stage}
    (h : ∀ text pos m, m.world.files = files → ∃ budget,
      Ends (resolveLibrary stage (evaluate stage budget) text pos) m) :
    ∀ (texts : List String) (m : Machine), m.world.files = files →
      ∃ budget, Ends (keepLibraries stage (evaluate stage budget) texts) m
  | [], _, _ => ⟨0, _, rfl⟩
  | text :: rest, m, hm => by
    obtain ⟨b, ⟨r, m₁⟩, hr⟩ := h text none m hm
    cases r with
    | error halt =>
        refine ⟨b, Ends.bind ⟨_, hr⟩ fun a m' ha => ?_⟩
        rw [hr] at ha
        nomatch ha
    | ok module =>
        have hfiles := (Built.resolveLibrary (Built.evaluate (serves_everything stage) b)).files hr
        obtain ⟨b', hrest⟩ := keepLibraries_ends h rest m₁ (hfiles.trans hm)
        have hr' := resolveLibrary_extends (Nat.le_max_left b b') text none m _ hr
        refine ⟨max b b', Ends.bind ⟨_, hr'⟩ fun a m' ha => ?_⟩
        rw [hr'] at ha
        cases ha
        refine Ends.bind ?_ fun _ _ _ => ⟨_, rfl⟩
        exact hrest.extend (keepLibraries_extends (Nat.le_max_right b b') rest)

theorem exists_bind {α β : Type} {x : Option α} {f : α → Option β} {a : α} (hx : x = some a)
    (hf : ∃ b, f a = some b) : ∃ b, x.bind f = some b :=
  hf.imp fun _ hb => Option.bind_eq_some_iff.mpr ⟨a, hx, hb⟩

/-- The imports are resolved, and then the top level runs. -/
theorem OtherwiseEnds.binds (h : OtherwiseEnds libraries i files)
    (hresolve : ∀ text pos m, m.world.files = files → ∃ budget,
      Ends (resolveLibrary (i.stage libraries) (evaluate (i.stage libraries) budget) text pos) m)
    {w : World} (hw : w.files = files) {script : Script}
    (hread : readScript files i.source i.name = .ok script) :
    ∃ budget p, bindScript budget (i.stage libraries) script w = some p := by
  obtain ⟨b, ⟨r, m⟩, hkeep⟩ := keepLibraries_ends hresolve script.imports ⟨w, w.realm i.id, {}⟩ hw
  have hkept (b' : Nat) (hle : b ≤ b') :
      perform (i.stage libraries) (keepLibraries (i.stage libraries)
        (evaluate (i.stage libraries) b') script.imports) {} w =
          some (r, m.frame, m.world.setRealm i.id m.realm) :=
    perform_extends (keepLibraries_extends hle _) (Option.bind_eq_some_iff.mpr ⟨_, hkeep, rfl⟩)
  cases r with
  | error halt => exact ⟨b, exists_bind (hkept b (Nat.le_refl b)) ⟨_, rfl⟩⟩
  | ok kept =>
      have hfiles : (m.world.setRealm i.id m.realm).files = files :=
        ((Built.keepLibraries (Built.evaluate (serves_everything _) b)).files hkeep).trans hw
      let frame : Frame :=
        { vars := hostVars (i.stage libraries)
          functions := [script.functions]
          constants := some []
          kept }
      obtain ⟨b', ⟨r', m'⟩, hbody⟩ := h.script script hread hresolve
        ⟨m.world.setRealm i.id m.realm, (m.world.setRealm i.id m.realm).realm i.id, frame⟩ hfiles
      have hran := perform_extends (evaluate_extends (Nat.le_max_right b b') (.stmts script.body))
        (Option.bind_eq_some_iff.mpr ⟨_, hbody, rfl⟩ :
          perform (i.stage libraries) _ frame (m.world.setRealm i.id m.realm) = some _)
      refine ⟨max b b', exists_bind (hkept _ (Nat.le_max_left b b')) (exists_bind hran ?_)⟩
      dsimp only
      cases faultOf r' <;> exact ⟨_, rfl⟩

theorem OtherwiseEnds.loads (h : OtherwiseEnds libraries i files)
    (hresolve : ∀ text pos m, m.world.files = files → ∃ budget,
      Ends (resolveLibrary (i.stage libraries) (evaluate (i.stage libraries) budget) text pos) m)
    {w : World} (hw : w.files = files) :
    ∃ budget r, i.reload budget libraries w = some r := by
  have hbuild : ∃ budget p, build budget (i.stage libraries) i.source w = some p := by
    unfold build
    rw [hw]
    cases hread : readScript files i.source (i.stage libraries).owner.name with
    | error e => exact ⟨0, _, rfl⟩
    | ok script => exact h.binds hresolve hw hread
  obtain ⟨budget, ⟨r, w₁⟩, hbuild⟩ := hbuild
  refine ⟨budget, exists_bind hbuild ?_⟩
  cases r <;> exact ⟨_, rfl⟩

/-- A script that does no more than import ends if its import does. -/
theorem script_ends {script : Script} {text : String}
    (h : soleImport? script.body = some (some text))
    (hresolve : ∀ text pos m, m.world.files = files → ∃ budget,
      Ends (resolveLibrary (i.stage libraries) (evaluate (i.stage libraries) budget) text pos) m)
    (m : Machine) (hm : m.world.files = files) :
    ∃ budget, Ends (evaluate (i.stage libraries) budget (.stmts script.body)) m := by
  obtain ⟨pos, leave, heval⟩ := evaluateGuarded_import h m
  obtain ⟨budget, hends⟩ := hresolve text pos m hm
  obtain ⟨r, hr⟩ := (hends.extend (resolveLibrary_extends (Nat.le_succ budget) text pos)).importBy
  refine ⟨budget + 3, leave r, ?_⟩
  rw [← evaluateGuarded_always unanswered, heval,
    show evaluateGuarded (i.stage libraries) always unanswered (budget + 1) =
      fun _ => evaluate (i.stage libraries) (budget + 1) from
      funext fun _ => evaluateGuarded_always _ _,
    resolveGuarded_always, hr]
  rfl

/-- If all that is run otherwise ends, so do loads in whose course no library is imported while it
is being loaded. -/
theorem imports_founded (h : OtherwiseEnds libraries i files) : ImportLaw libraries i files where
  resolved text pos m hm honce := h.topLevels.resolves hm honce
  loaded honce w hw := by
    have hresolve (text : String) (pos : Place) (m : Machine) (hm : m.world.files = files) :
        ∃ budget, Ends
          (resolveLibrary (i.stage libraries) (evaluate (i.stage libraries) budget) text pos)
          m := by
      obtain ⟨budget, r, hr⟩ := h.topLevels.resolves hm (honce text pos m hm)
      exact ⟨budget, r, (hr budget (Nat.le_refl _)).1⟩
    obtain ⟨budget, r, hr⟩ := h.loads hresolve hw
    exact ⟨budget, r, fun budget' hle => Instance.reload_extends hle hr⟩
  endless needed hneed file hfile budget text pos m hm :=
    hneed.endless hfile budget text pos hm

end Law

/-- The files of a script that needs two libraries, and of two libraries that need each other. -/
def ringFiles : FileTree :=
  .ofScripts [("A.rhai", "import \"mid\" as mid;")]
    [("base.rhai", "fn one() \x7b 1 \x7d"), ("left.rhai", "import \"right\" as right;"),
      ("mid.rhai", "import \"base\" as base;"), ("right.rhai", "import \"left\" as left;")]

/-- The index of their libraries. -/
def ringLibraries : Libraries :=
  ⟨[("base", ⟨"scripts/libraries/base.rhai"⟩), ("left", ⟨"scripts/libraries/left.rhai"⟩),
    ("mid", ⟨"scripts/libraries/mid.rhai"⟩), ("right", ⟨"scripts/libraries/right.rhai"⟩)],
    builtinNames⟩

/-- An instance with the script. -/
def ringScript : Instance := { handle := ⟨1, "A"⟩, source := ⟨"scripts/A.rhai"⟩, data := 0 }

set_option maxRecDepth 100000 in
theorem ringScript_ends : OtherwiseEnds ringLibraries ringScript ringFiles := by
  have hlibraries : ∀ file ∈ ringLibraries.files.map Prod.snd,
      (libraryImport? ringFiles file).isSome = true := by
    decide +kernel
  have hscript : (readScript ringFiles ringScript.source ringScript.name).toOption.map
      (fun script => soleImport? script.body) = some (some (some "mid")) := by
    decide +kernel
  refine ⟨topLevelsEnd_of_soleImport hlibraries, fun script hread => ?_⟩
  rw [hread] at hscript
  exact script_ends (Option.some.inj hscript)

set_option maxRecDepth 100000 in
/-- The imports of the script are resolved, and those of the other two libraries never are. -/
theorem imports_founded_ring : OtherwiseEnds ringLibraries ringScript ringFiles ∧
    LoadsOnce (ringScript.stage ringLibraries) "mid" none
      ⟨{ files := ringFiles, host := default }, {}, {}⟩ ∧
    NeedEachOther (ringScript.stage ringLibraries) ringFiles
      [⟨"scripts/libraries/left.rhai"⟩, ⟨"scripts/libraries/right.rhai"⟩] ∧
    ImportLaw ringLibraries ringScript ringFiles := by
  have hbase : libraryImport? ringFiles ⟨"scripts/libraries/base.rhai"⟩ = some none := by
    decide +kernel
  have hleft : libraryImport? ringFiles ⟨"scripts/libraries/left.rhai"⟩ = some (some "right") := by
    decide +kernel
  have hmid : libraryImport? ringFiles ⟨"scripts/libraries/mid.rhai"⟩ = some (some "base") := by
    decide +kernel
  have hright : libraryImport? ringFiles ⟨"scripts/libraries/right.rhai"⟩ = some (some "left") := by
    decide +kernel
  have hpath (text : String) (file : FilePath) (h : ringLibraries.path? text = some file) :
      (ringScript.stage ringLibraries).libraries.path? text = some file := h
  have honce : LoadsOnce (ringScript.stage ringLibraries) "mid" none
      ⟨{ files := ringFiles, host := default }, {}, {}⟩ := by
    refine ReadsOnce.loadsOnce (hpath _ ⟨"scripts/libraries/mid.rhai"⟩ (by decide +kernel)) rfl ?_
    exact .import hmid (hpath _ ⟨"scripts/libraries/base.rhai"⟩ (by decide +kernel)) (by decide)
      (.nothing hbase)
  have hneed : NeedEachOther (ringScript.stage ringLibraries) ringFiles
      [⟨"scripts/libraries/left.rhai"⟩, ⟨"scripts/libraries/right.rhai"⟩] := by
    refine needEachOther_of_soleImport fun file hfile => ?_
    rcases List.mem_pair.mp hfile with rfl | rfl
    · exact ⟨_, ⟨"scripts/libraries/right.rhai"⟩, hleft, hpath _ _ (by decide +kernel), by decide⟩
    · exact ⟨_, ⟨"scripts/libraries/left.rhai"⟩, hright, hpath _ _ (by decide +kernel), by decide⟩
  exact ⟨ringScript_ends, honce, hneed, imports_founded ringScript_ends⟩

/-- A script that imports a library which imports itself when it is loaded for the first time. -/
def selfWorld : World :=
  .ofScripts [("A.rhai", "import \"a\" as a;")]
    [("a.rhai", "let n = Data.Get(\"n\") ?? 0; Data.Set(\"n\", n + 1); " ++
      "if n == 0 \x7b import \"a\" as a; Data.Set(\"done\", true); \x7d")]

set_option maxRecDepth 100000 in
/-- A library that is imported while it is loaded is loaded once more, and the script that imports
it is loaded without a fault. -/
theorem library_loaded_within_itself : ¬ ∀ (c : HostConfig) (w : World) (budget : Nat)
    (name : String) (id : InstanceId) (r : Registry) (script : Script),
    (Registry.start c w).add budget name = some (id, r) → (∀ i ∈ r.instances, i.state = .ready) →
    readScript w.files (c.scripts.sourcePath name) name = .ok script → ∀ text ∈ script.imports,
      LoadsOnce (((Registry.start c w).create name).1.stage (Registry.start c w).libraries) text
        none ⟨((Registry.start c w).create name).2.world, {}, {}⟩ := by
  intro hall
  let c : HostConfig := { scripts := { startup := [] } }
  let start := Registry.start c selfWorld
  let stage := (start.create "A").1.stage start.libraries
  let m : Machine := ⟨(start.create "A").2.world, {}, {}⟩
  have hadd : (start.add 1000 "A").any (fun p => p.2.instances.all (·.state == .ready)) = true := by
    decide +kernel
  have himports : (readScript selfWorld.files (c.scripts.sourcePath "A") "A").toOption.any
      (·.imports == ["a"]) = true := by
    decide +kernel
  have hunanswered : (resolveGuarded stage unlessUnderway unanswered
      (evaluateGuarded stage unlessUnderway unanswered 100) [] "a" none m).isSome = false := by
    decide +kernel
  have hrefused : (resolveGuarded stage unlessUnderway refused
      (evaluateGuarded stage unlessUnderway refused 100) [] "a" none m).isSome = true := by
    decide +kernel
  obtain ⟨⟨id, r⟩, hadd, hready⟩ := (Option.any_eq_true _ _).mp hadd
  obtain ⟨script, hscript, htexts⟩ := (Option.any_eq_true _ _).mp himports
  have hread : readScript selfWorld.files (c.scripts.sourcePath "A") "A" = .ok script := by
    cases h : readScript selfWorld.files (c.scripts.sourcePath "A") "A" with
    | error e => rw [h] at hscript; nomatch hscript
    | ok s => rw [h] at hscript; cases hscript; rfl
  have honce := hall c selfWorld 1000 "A" id r script hadd (by simpa using hready) hread "a"
    (by rw [beq_iff_eq.mp htexts]; exact List.mem_singleton.mpr rfl) 100
  rw [← honce] at hrefused
  exact Bool.false_ne_true (hunanswered.symm.trans hrefused)

end Stagehand
