import Stagehand.Proofs.Annals
import Stagehand.Proofs.Cycles

/-!
# Entry points and the last good source

What an instance answers to is what the source of its last successful load makes of it: the entry
points whose functions the source defines, and those that its top level left as function values.
`Attempt.Leaves` says what a source defines and how its top level ended, in terms of the file and of
the run alone; `Instance.Offers` says that the entry points are those. A successful attempt
establishes it, and a failed one, a call and all that happens to others keep it.
-/

namespace Stagehand

open Lang

/-! ## What a source makes of an entry point -/

/-- The script in a source file, as it is written. -/
def FileTree.script? (files : FileTree) (source : FilePath) : Option Script :=
  match files.readText source with
  | .ok text => (Script.parse text).toOption
  | .error _ => none

/-- How the top level of a script ended: the variables in sight, the innermost first, and the cells
that they may share. -/
structure Ending where
  vars : List Var
  heap : Heap

/-- The function value that the top level left in the variable of a name. -/
def Ending.pointer? (s : Ending) (name : String) : Option Callable :=
  match (s.vars.find? (·.name == name)).map fun v => s.heap.flatten v.held.value with
  | some (.fn f curried function) => some (.value f curried function)
  | _ => none

namespace Lang.Script

/-- The script defines a function of the name. -/
def defines (script : Script) (name : String) : Bool := script.functions.any (·.name == name)

/-- What a script and the end of its top level have for an entry point: its function goes first. -/
def entry? (script : Script) (s : Ending) (e : EntryPoint) : Option Callable :=
  if script.defines e.name then some .function else s.pointer? e.name

/-- All that a script and the end of its top level have for the entry points. -/
def table (script : Script) (s : Ending) : List (EntryPoint × Callable) :=
  EntryPoint.all.filterMap fun e => (script.entry? s e).map (e, ·)

/-- The top level of a script, run in a world behind the imports that are certain, ended there
without a fault. -/
def Ends (stage : Stage) (script : Script) (w : World) (s : Ending) : Prop :=
  ∃ budget kept frame w₁ r frame' w₂,
    perform stage (keepLibraries stage (evaluate stage budget) script.imports) {} w =
      some (.ok kept, frame, w₁) ∧
    perform stage (evaluate stage budget (.stmts script.body))
        { vars := hostVars stage, functions := [script.functions], constants := some [], kept } w₁ =
      some (r, frame', w₂) ∧
    faultOf r = none ∧ s = ⟨frame'.vars, (w₂.realm stage.owner.id).heap⟩

variable {stage : Stage} {script : Script} {w : World} {s t : Ending}

/-- A top level ends in one way, whatever the budget. -/
theorem Ends.unique (h : script.Ends stage w s) (h' : script.Ends stage w t) : s = t := by
  obtain ⟨b, kept, frame, w₁, r, frame', w₂, hkeep, hrun, -, rfl⟩ := h
  obtain ⟨b', kept', frameK, v₁, r', frameE, v₂, hkeep', hrun', -, rfl⟩ := h'
  have hle := Nat.le_max_left b b'
  have hle' := Nat.le_max_right b b'
  have hkept := (perform_extends (keepLibraries_extends hle script.imports) hkeep).symm.trans
    (perform_extends (keepLibraries_extends hle' script.imports) hkeep')
  cases hkept
  have hend := (perform_extends (evaluate_extends hle _) hrun).symm.trans
    (perform_extends (evaluate_extends hle' _) hrun')
  cases hend
  rfl

/-- What is pruned of a script is no function of it. -/
theorem defines_prune (script : Script) (constants : List String) (name : String) :
    (script.prune constants).defines name = script.defines name := by
  simp [defines, prune, List.any_map, Function.comp_def]

theorem table_prune (script : Script) (constants : List String) (s : Ending) :
    (script.prune constants).table s = script.table s := by
  simp only [table, entry?, defines_prune]

end Lang.Script

theorem readScript_ok {files : FileTree} {source : FilePath} {name : String} {script : Script}
    (h : readScript files source name = .ok script) :
    ∃ written, files.script? source = some written ∧ script = written.prune builtinNames := by
  unfold readScript at h
  split at h
  · cases h
  · rename_i text hread
    split at h
    · cases h
    · rename_i written hparse
      cases h
      exact ⟨written, by rw [FileTree.script?, hread]; simp only [hparse]; rfl, rfl⟩

/-- In a list of keys with what each of them has, a key is found with what it has. -/
theorem find?_keyed {α β : Type} [DecidableEq α] (g : α → Option β) (a : α) (as : List α) :
    ((as.filterMap fun x => (g x).map (x, ·)).find? (·.1 == a)).map (·.2) =
      if a ∈ as then g a else none := by
  induction as with
  | nil => rfl
  | cons x rest ih =>
    have hskip (hg : g x = none) : (x :: rest).filterMap (fun x => (g x).map (x, ·)) =
        rest.filterMap fun x => (g x).map (x, ·) := List.filterMap_cons_none (by rw [hg]; rfl)
    have hkeep {b : β} (hg : g x = some b) : (x :: rest).filterMap (fun x => (g x).map (x, ·)) =
        (x, b) :: rest.filterMap fun x => (g x).map (x, ·) :=
      List.filterMap_cons_some (by rw [hg]; rfl)
    by_cases hx : x = a
    · subst hx
      rw [if_pos List.mem_cons_self]
      cases hg : g x with
      | none => rw [hskip hg, ih, hg, ite_self]
      | some b =>
        rw [hkeep hg]
        simp
    · have hmem : a ∈ x :: rest ↔ a ∈ rest := List.mem_cons.trans (or_iff_right (Ne.symm hx))
      rw [if_congr hmem rfl rfl, ← ih]
      cases hg : g x with
      | none => rw [hskip hg]
      | some b => rw [hkeep hg, List.find?_cons_of_neg (by simpa using hx)]

theorem map_fst_keyed {α β : Type} (g : α → Option β) (as : List α) :
    (as.filterMap fun x => (g x).map (x, ·)).map (·.1) = as.filter fun x => (g x).isSome := by
  induction as with
  | nil => rfl
  | cons x rest ih => cases hg : g x <;> simp [hg, ih]

/-- The entry points of a binding are those that the script and its end have. -/
theorem findEntries_eq (script : Script) (s : Ending) :
    findEntries script.functions s.vars s.heap = script.table s := by
  unfold findEntries Script.table
  refine congrArg (List.filterMap · EntryPoint.all) (funext fun e => ?_)
  unfold Script.entry? Script.defines Ending.pointer?
  cases script.functions.any (·.name == e.name) with
  | true => rfl
  | false =>
      cases (s.vars.find? (·.name == e.name)).map fun v => s.heap.flatten v.held.value with
      | none => rfl
      | some v => cases v <;> rfl

/-- A successful load makes a binding of the script in the source file. -/
theorem build_current {budget : Nat} {stage : Stage} {source : FilePath} {w w' : World}
    {b : Binding} (h : build budget stage source w = some (.ok b, w')) : ∃ script s,
      w.files.script? source = some script ∧ (script.prune builtinNames).Ends stage w s ∧
      b.functions = (script.prune builtinNames).functions ∧ b.entries = script.table s := by
  obtain ⟨pruned, kept, last₁, last, r, w₁, hread, hkeep, hbody, hfault, rfl⟩ := build_ok h
  obtain ⟨script, hscript, rfl⟩ := readScript_ok hread
  let s : Ending := ⟨last.vars, (w'.realm stage.owner.id).heap⟩
  refine ⟨script, s, hscript, ⟨_, _, _, _, _, _, _, hkeep, hbody, hfault, rfl⟩, rfl, ?_⟩
  rw [← Script.table_prune script builtinNames]
  exact findEntries_eq (script.prune builtinNames) s

/-! ## The last good source of an instance -/

/-- The attempt compiled this script, and its top level left this. -/
structure Attempt.Leaves (libraries : Libraries) (a : Attempt) (script : Script) (s : Ending) :
    Prop where
  source : a.world.files.script? a.before.source = some script
  ends : (script.prune builtinNames).Ends (a.before.stage libraries) a.world s

theorem Attempt.Leaves.unique {libraries : Libraries} {a : Attempt} {script script' : Script}
    {s s' : Ending} (h : a.Leaves libraries script s) (h' : a.Leaves libraries script' s') :
    script = script' ∧ s = s' := by
  obtain rfl := Option.some.inj (h.source.symm.trans h'.source)
  exact ⟨rfl, h.ends.unique h'.ends⟩

/-- The instance has the functions of a script, and answers to what the script and its end have for
the entry points. -/
def Instance.Offers (i : Instance) (script : Script) (s : Ending) : Prop :=
  i.binding.map (fun b => (b.functions, b.entries)) =
    some ((script.prune builtinNames).functions, script.table s)

namespace Instance.Offers

variable {i i' : Instance} {script : Script} {s : Ending}

theorem functions (h : i.Offers script s) :
    i.binding.map (·.functions) = some (script.prune builtinNames).functions := by
  simpa [Option.map_map, Function.comp_def] using congrArg (Option.map Prod.fst) h

theorem entries (h : i.Offers script s) : i.binding.map (·.entries) = some (script.table s) := by
  simpa [Option.map_map, Function.comp_def] using congrArg (Option.map Prod.snd) h

theorem callable? (h : i.Offers script s) (e : EntryPoint) :
    (i.callable? e).map (·.2) = script.entry? s e := by
  obtain ⟨b, hb, hentries⟩ := Option.map_eq_some_iff.mp h.entries
  have hmem : e ∈ EntryPoint.all := by cases e <;> decide
  have hfind := find?_keyed (script.entry? s) e EntryPoint.all
  rw [if_pos hmem] at hfind
  rw [Instance.callable?, hb, Option.bind_some, Option.map_map, hentries]
  exact hfind

theorem entryPoints (h : i.Offers script s) :
    i.entryPoints = EntryPoint.all.filter fun e => (script.entry? s e).isSome := by
  obtain ⟨b, hb, hentries⟩ := Option.map_eq_some_iff.mp h.entries
  rw [Instance.entryPoints, hb]
  exact (congrArg (List.map Prod.fst) hentries).trans (map_fst_keyed _ _)

theorem continues (h : i.Offers script s) (hc : i.Continues i') : i'.Offers script s := by
  have hsame := congrArg (Option.map fun b => (b.functions, b.entries)) hc.program
  simp only [Option.map_map, Function.comp_def, Binding.program] at hsame
  exact hsame.trans h

end Instance.Offers

/-- The last attempt that loaded the instance. -/
def lastLoad? (as : List Attempt) : Option Attempt := (as.filter Attempt.succeeded).getLast?

theorem lastLoad?_concat (as : List Attempt) (a : Attempt) :
    lastLoad? (as ++ [a]) = if a.succeeded then some a else lastLoad? as := by
  unfold lastLoad?
  rw [List.filter_append]
  cases h : a.succeeded <;> simp [h]

theorem Event.change_of_call {e : Event} {d : Call} (h : e.call? = some d) :
    ∃ i', e.change? = some (d.before, i') := by
  cases e <;> cases h <;> exact ⟨_, rfl⟩

/-- The instance offers what the source of its last good load left, and nothing before the first. -/
inductive Bound (libraries : Libraries) (as : List Attempt) (i : Instance) : Prop
  | unloaded (hlast : lastLoad? as = none) (hnone : i.binding = none)
  | loaded {a : Attempt} {script : Script} {s : Ending} (hlast : lastLoad? as = some a)
      (hleaves : a.Leaves libraries script s) (hoffers : i.Offers script s)

namespace Bound

variable {libraries : Libraries} {as : List Attempt} {i i' : Instance}

/-- An attempt that loads the instance binds it to what it left; one that fails leaves it bound. -/
theorem attempt {a : Attempt} (h : Bound libraries as a.before) (ha : a.Genuine libraries) :
    Bound libraries (as ++ [a]) a.after := by
  obtain ⟨budget, hreload⟩ := ha
  rcases Instance.reload_cases hreload with
    ⟨b, w, hbuild, hr, hafter, -⟩ | ⟨e, w, -, hr, hafter, -⟩
  · have hlast : lastLoad? (as ++ [a]) = some a := by
      rw [lastLoad?_concat, Attempt.succeeded, hr]
      rfl
    obtain ⟨script, s, hscript, hends, hfunctions, hentries⟩ := build_current hbuild
    refine .loaded hlast ⟨hscript, hends⟩ ?_
    rw [hafter]
    exact congrArg some (Prod.ext hfunctions hentries)
  · have hlast : lastLoad? (as ++ [a]) = lastLoad? as := by
      rw [lastLoad?_concat, Attempt.succeeded, hr]
      rfl
    rw [hafter]
    cases h with
    | unloaded hnone hbinding => exact .unloaded (hlast.trans hnone) hbinding
    | loaded hsome hleaves hoffers =>
      exact .loaded (hlast.trans hsome) hleaves hoffers

theorem markInitialized (h : Bound libraries as i) : Bound libraries as i.markInitialized := by
  cases h with
  | unloaded hnone hbinding => exact .unloaded hnone hbinding
  | loaded hsome hleaves hoffers => exact .loaded hsome hleaves hoffers

/-- A call changes nothing of it. -/
theorem call (h : Bound libraries as i) (hc : i.Continues i') : Bound libraries as i' := by
  cases h with
  | unloaded hnone hbinding =>
    refine .unloaded hnone ?_
    have := hc.program
    rwa [hbinding, Option.map_none, Option.map_eq_none_iff] at this
  | loaded hsome hleaves hoffers => exact .loaded hsome hleaves (hoffers.continues hc)

theorem followed (libraries : Libraries) : Followed libraries (Bound libraries) where
  created _ _ := .unloaded rfl rfl
  attempt h ha := h.attempt ha
  called h hc := h.call hc
  updated h := h.markInitialized

end Bound

/-! ## Histories -/

/-- Every registered instance is bound to what its own attempts say. -/
structure AllBound (es : List Event) (r : Registry) : Prop extends Orderly es r where
  bound : ∀ i ∈ r.instances, Bound r.libraries (attemptsOn i.id es) i

namespace AllBound

variable {es : List Event} {r r' : Registry} {e : Event} {i i' : Instance}

theorem start (c : HostConfig) (w : World) : AllBound [] (Registry.start c w) where
  toOrderly := .start c w
  bound := by
    rw [Registry.start_instances]
    exact List.forall_mem_nil _

/-- What an act is about is bound before the act, and a new instance to nothing. -/
theorem subject (h : AllBound es r) (ha : Act r e r') (hc : e.change? = some (i, i')) :
    Bound r.libraries (attemptsOn i.id es) i :=
  (Bound.followed r.libraries).subject h.toOrderly h.bound ha hc

theorem act (h : AllBound es r) (ha : Act r e r') : AllBound (es ++ [e]) r' where
  toOrderly := h.toOrderly.act ha
  bound := ha.fixed.2 ▸ (Bound.followed r.libraries).act h.toOrderly h.bound ha

theorem path (h : AllBound es r) {new : List Event} (hp : Path r new r') :
    AllBound (es ++ new) r' :=
  hp.invariant (fun h ha => h.act ha) h

/-- A call that is executed is one of what the last good source has for its entry point. -/
theorem executed (h : AllBound es r) (ha : Act r e r') {d : Call} (hd : e.call? = some d)
    (hran : d.executed = true) : ∃ a script s, lastLoad? (attemptsOn d.before.id es) = some a ∧
      a.Leaves r.libraries script s ∧ d.before.Offers script s ∧
      (script.entry? s d.entry).isSome = true := by
  obtain ⟨i', hc⟩ := Event.change_of_call hd
  have hmem : d.entry ∈ d.before.entryPoints := by
    rcases Call.cases_of_act ha hd with ⟨-, -, -, hmem⟩ | ⟨hskip, -⟩
    · exact hmem
    · nomatch hran.symm.trans hskip
  cases h.subject ha hc with
  | unloaded _ hnone =>
    rw [Instance.entryPoints, hnone] at hmem
    nomatch hmem
  | loaded hlast hleaves hoffers =>
    rw [hoffers.entryPoints] at hmem
    exact ⟨_, _, _, hlast, hleaves, hoffers, (List.mem_filter.mp hmem).2⟩

end AllBound

/-- The entry points of every instance are those that the source of its last successful load defines
or left as function values, the function of the source first, and no others are ever executed. -/
structure EntryLaw (past : List (Op × List Event)) (r : Registry) : Prop where
  /-- There are none before the first success. -/
  unloaded : ∀ i ∈ r.instances, lastLoad? (attemptsOn i.id (eventsOf past)) = none →
    i.entryPoints = []
  /-- A load that succeeded compiled its source and ran its top level to an end, which is the only
  one that it can come to. -/
  ended : ∀ i ∈ r.instances, ∀ a, lastLoad? (attemptsOn i.id (eventsOf past)) = some a →
    ∃! p : Script × Ending, a.Leaves r.libraries p.1 p.2
  table : ∀ i ∈ r.instances, ∀ a script s,
    lastLoad? (attemptsOn i.id (eventsOf past)) = some a → a.Leaves r.libraries script s →
      i.entryPoints = EntryPoint.all.filter fun e =>
        script.defines e.name || (s.pointer? e.name).isSome
  /-- What is called is the source's own function if it defines one, and else the function value. -/
  precedence : ∀ i ∈ r.instances, ∀ a script s,
    lastLoad? (attemptsOn i.id (eventsOf past)) = some a → a.Leaves r.libraries script s →
      i.binding.map (·.functions) = some (script.prune builtinNames).functions ∧
      ∀ e, (i.callable? e).map (·.2) =
        if script.defines e.name then some .function else s.pointer? e.name
  /-- What is executed, the last good source has. -/
  executed : ∀ pre g post d, eventsOf past = pre ++ g :: post → g.call? = some d →
    d.executed = true → ∃ a script s, lastLoad? (attemptsOn d.before.id pre) = some a ∧
      a.Leaves r.libraries script s ∧
      (script.defines d.entry.name = true ∨ (s.pointer? d.entry.name).isSome = true)
  /-- What it has not, is skipped, and nothing at all comes of the call. -/
  skipped : ∀ pre g post d, eventsOf past = pre ++ g :: post → g.call? = some d →
    (∀ a script s, lastLoad? (attemptsOn d.before.id pre) = some a →
      a.Leaves r.libraries script s →
        script.defines d.entry.name = false ∧ s.pointer? d.entry.name = none) →
    d.outcome = .skipped ∧ d.after = d.before ∧ d.left = d.world

theorem Script.entry?_isSome (script : Script) (s : Ending) (e : EntryPoint) :
    (script.entry? s e).isSome = (script.defines e.name || (s.pointer? e.name).isSome) := by
  unfold Script.entry?
  cases script.defines e.name <;> simp

/-- Whatever is done with a registry, with its files and with its instances. -/
theorem entry_points_current {c : HostConfig} {w : World} {past : List (Op × List Event)}
    {r : Registry} (h : Annals c w past r) : EntryLaw past r := by
  have hbound : AllBound (eventsOf past) r := (AllBound.start c w).path h.path
  have hoffers {i : Instance} (hi : i ∈ r.instances) {a : Attempt} {script : Script} {s : Ending}
      (hlast : lastLoad? (attemptsOn i.id (eventsOf past)) = some a)
      (hleaves : a.Leaves r.libraries script s) : i.Offers script s := by
    cases hbound.bound i hi with
    | unloaded hnone => nomatch hnone.symm.trans hlast
    | loaded hlast' hleaves' hoffers =>
      cases hlast.symm.trans hlast'
      obtain ⟨rfl, rfl⟩ := hleaves.unique hleaves'
      exact hoffers
  -- in front of a call stands a registry that is bound in the same way
  have hexecuted (pre : List Event) (g : Event) (post : List Event) (d : Call)
      (he : eventsOf past = pre ++ g :: post) (hd : g.call? = some d) (hran : d.executed = true) :
      ∃ a script s, lastLoad? (attemptsOn d.before.id pre) = some a ∧
        a.Leaves r.libraries script s ∧ (script.entry? s d.entry).isSome = true := by
    obtain ⟨r₁, r₂, hpre, hact, hpost⟩ := (he ▸ h.path).at_event
    obtain ⟨a, script, s, hlast, hleaves, -, hhas⟩ :=
      AllBound.executed ((AllBound.start c w).path hpre) hact hd hran
    have hlibraries : r.libraries = r₁.libraries := hpost.fixed.2.trans hact.fixed.2
    exact ⟨a, script, s, hlast, hlibraries ▸ hleaves, hhas⟩
  refine ⟨fun i hi hnone => ?_, fun i hi a hlast => ?_, fun i hi a script s hlast hleaves => ?_,
    fun i hi a script s hlast hleaves => ?_, fun pre g post d he hd hran => ?_,
    fun pre g post d he hd hnot => ?_⟩
  · cases hbound.bound i hi with
    | unloaded _ hbinding => rw [Instance.entryPoints, hbinding]
    | loaded hlast => nomatch hlast.symm.trans hnone
  · cases hbound.bound i hi with
    | unloaded hnone => nomatch hnone.symm.trans hlast
    | loaded hlast' hleaves _ =>
      cases hlast.symm.trans hlast'
      exact ⟨(_, _), hleaves, fun p hp => Prod.ext (hp.unique hleaves).1 (hp.unique hleaves).2⟩
  · rw [(hoffers hi hlast hleaves).entryPoints]
    simp only [Script.entry?_isSome]
  · exact ⟨(hoffers hi hlast hleaves).functions, (hoffers hi hlast hleaves).callable?⟩
  · obtain ⟨a, script, s, hlast, hleaves, hhas⟩ := hexecuted pre g post d he hd hran
    rw [Script.entry?_isSome, Bool.or_eq_true] at hhas
    exact ⟨a, script, s, hlast, hleaves, hhas⟩
  · obtain ⟨r₁, r₂, -, hact, -⟩ := (he ▸ h.path).at_event
    rcases Call.cases_of_act hact hd with ⟨hran, -⟩ | ⟨hskip, -, hafter, hleft⟩
    · obtain ⟨a, script, s, hlast, hleaves, hhas⟩ := hexecuted pre g post d he hd hran
      obtain ⟨hdefines, hpointer⟩ := hnot a script s hlast hleaves
      rw [Script.entry?_isSome, hdefines, hpointer] at hhas
      nomatch hhas
    · refine ⟨?_, hafter, hleft⟩
      by_contra hne
      exact absurd (Call.executed_iff.mpr hne) (by rw [hskip]; exact Bool.false_ne_true)

set_option maxRecDepth 100000 in
/-- A script takes `OnUpdate` back and imports a library that defines it, then a version with
`OnUpdate` again fails: what is left are a function and a closure, and no update stops it. -/
theorem entry_points_current_edited : ∃ (c : HostConfig) (w : World)
    (past : List (Op × List Event)) (r : Registry), Annals c w past r ∧
      (r.instances.map fun i => (i.entryPoints, i.running, i.lastError.isSome)) =
        [([.onDraw, .onMessage], true, true)] ∧ EntryLaw past r := by
  let c : HostConfig := { scripts := { startup := [] } }
  let files (text : String) : FileTree :=
    .ofScripts [("A.rhai", text)] [("lib.rhai", "fn OnUpdate() \x7b \x7d")]
  let w : World := { (default : World) with
    clock := 2000, files := files "fn OnUpdate() \x7b \x7d fn OnDraw() \x7b \x7d" }
  let second : String := "import \"lib\" as lib; let OnMessage = |m| m; fn OnDraw() \x7b \x7d"
  let third : String := "fn OnUpdate() \x7b \x7d throw 1"
  let ops : List Op := [.add "A", .update, .around (.edit (files second)), .reload "A", .update,
    .around (.edit (files third)), .reload "A", .update]
  have hrun : (Op.runAll 1000 (.start c w) ops).any (fun r =>
      (r.instances.map fun i => (i.entryPoints, i.running, i.lastError.isSome)) ==
        [([.onDraw, .onMessage], true, true)]) = true := by
    decide +kernel
  obtain ⟨r, hr, hshows⟩ := (Option.any_eq_true _ _).mp hrun
  obtain ⟨past, -, h⟩ := Annals.start.all hr
  exact ⟨c, w, past, r, h, beq_iff_eq.mp hshows, entry_points_current h⟩

end Stagehand
