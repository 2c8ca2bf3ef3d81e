import Stagehand.Proofs.Lifecycle

/-!
# The program behind a failed reload

A failed reload leaves the instance as it was: its binding, how it stands and what it shows, but for
the error and for an instance that was never loaded, which is faulted from then on. The values of
the program's variables are another matter. A variable that a function value captured is a cell, and
the cells of an instance outlive its loads, because its libraries are kept. So the code of a failed
attempt can get at a cell of the program if a library was given it, and at no other cell of the
program: `ProgramKept.apart`.
-/

namespace Stagehand

open Lang

/-! ## What leads to a cell -/

/-- What some leaves lead to, through what cells hold. -/
inductive Lang.Heap.Reaches (heap : Heap) (roots : List Leaf) : Leaf → Prop
  | root {l : Leaf} (h : l ∈ roots) : heap.Reaches roots l
  | held {cell : CellId} {held : Held} {l : Leaf} (hc : heap.Reaches roots (.cell cell))
      (hh : heap[cell]? = some held) (hl : l ∈ Leafy.leaves held) : heap.Reaches roots l

namespace Instance

/-- The variables of the instance's program lead to the cell. -/
def Uses (i : Instance) (w : World) (cell : CellId) : Prop :=
  ∃ b, i.binding = some b ∧ (w.realm i.id).heap.Reaches (Leafy.leaves b.vars) (.cell cell)

/-- The libraries that are kept for the instance lead to the cell. -/
def Lends (i : Instance) (w : World) (cell : CellId) : Prop :=
  (w.realm i.id).heap.Reaches (Leafy.leaves (w.realm i.id).modules) (.cell cell)

/-- What the cell of the instance held, it holds still. -/
def Holds (i : Instance) (w w' : World) (cell : CellId) : Prop :=
  ∀ held, (w.realm i.id).heap[cell]? = some held → (w'.realm i.id).heap[cell]? = some held

/-- What a load of the instance can get at: all references, the cells that its libraries lead to,
and those that it makes. -/
def loadable (i : Instance) (w : World) : Allowance
  | .handle _ => True
  | .cell cell => i.Lends w cell ∨ (w.realm i.id).heap.size ≤ cell

end Instance

section Allowances

variable {A : Allowance}

mutual

theorem within_references (hA : ∀ c, A (.handle c)) : ∀ v : HostValue, Within A v
  | .list items => HostValues.within_list.mpr (within_referenceItems hA items)
  | .map entries => HostValues.within_map.mpr (within_referenceEntries hA entries)
  | .handle c => HostValues.within_handle.mpr (hA c)
  | .unit | .bool _ | .int _ | .float _ | .str _ => within_of_leafless rfl

theorem within_referenceItems (hA : ∀ c, A (.handle c)) :
    ∀ items : List HostValue, ∀ v ∈ items, Within A v
  | [] => List.forall_mem_nil _
  | v :: rest =>
    List.forall_mem_cons.mpr ⟨within_references hA v, within_referenceItems hA rest⟩

theorem within_referenceEntries (hA : ∀ c, A (.handle c)) :
    ∀ entries : List (String × HostValue), ∀ e ∈ entries, Within A e
  | [] => List.forall_mem_nil _
  | (key, v) :: rest =>
    List.forall_mem_cons.mpr ⟨within_pair.mpr ⟨within_string key, within_references hA v⟩,
      within_referenceEntries hA rest⟩

end

/-- Values of the host lead to references alone, and so do all stores. -/
theorem closed_of_references (hA : ∀ c, A (.handle c)) (w : World) : w.Closed A :=
  fun _ d _ _ => within_store.mpr (within_referenceEntries hA d.entries)

theorem serves_of_references (hA : ∀ c, A (.handle c)) (stage : Stage) : Serves A stage :=
  ⟨hA _, fun _ => hA _, hA _, hA _⟩

/-- A load is confined to what it can get at. -/
theorem Instance.confined_loadable (i : Instance) (w : World) :
    w.Confined (i.loadable w) i.id where
  cells cell held hh hc l hl := by
    cases l with
    | handle c => trivial
    | cell other =>
        rcases hc with hc | hc
        · exact .inl (.held hc hh hl)
        · rw [Array.getElem?_eq_none hc] at hh
          nomatch hh
  fresh cell hc := .inr hc
  modules l hl := by
    cases l with
    | handle c => trivial
    | cell cell => exact .inl (.root hl)
  world := closed_of_references (fun _ => trivial) w

end Allowances

/-! ## Failed attempts -/

/-- Attempts to load an instance, one after the other, which all fail. `between` is what may happen
to the world from one to the next. -/
inductive Failing (libraries : Libraries) (between : World → World → Prop) :
    Instance → World → List Attempt → Instance → World → Prop
  | refl (i : Instance) (w : World) : Failing libraries between i w [] i w
  | step {i i' : Instance} {w w' : World} {a : Attempt} {as : List Attempt} (hi : a.before = i)
      (hb : between w a.world) (hg : a.Genuine libraries) (hf : a.succeeded = false)
      (hs : Failing libraries between a.after a.left as i' w') :
      Failing libraries between i w (a :: as) i' w'

/-- The realm of an instance is as it was. -/
def SameRealm (id : InstanceId) (w w' : World) : Prop := w'.realm id = w.realm id

/-- To fail to load an instance that was never loaded is to fault it. -/
def InstanceState.settled : InstanceState → InstanceState
  | .loading => .faulted
  | s => s

/-- The instance with an error to show, and not waiting for its first load. -/
def Instance.failing (i : Instance) (error : Option String) : Instance :=
  { i with state := i.state.settled, lastError := error }

theorem Attempt.failed_cases {libraries : Libraries} {a : Attempt} (hg : a.Genuine libraries)
    (hf : a.succeeded = false) : ∃ budget e w, a.result = .error e ∧
      build budget (a.before.stage libraries) a.before.source a.world = some (.error e, w) ∧
      a.after = a.before.notLoaded e ∧ a.left = w.record (a.before.failureReport e) := by
  obtain ⟨budget, hreload⟩ := hg
  rcases Instance.reload_cases hreload with ⟨b, w, -, hr, -⟩ | ⟨e, w, hbuild, hr, hafter, hleft⟩
  · rw [Attempt.succeeded, hr] at hf
    cases hf
  · exact ⟨budget, e, w, hr, hbuild, hafter, hleft⟩

/-- What a failed attempt ran, it ran within the allowance, whatever its program may get at. -/
theorem Attempt.failed_ran {libraries : Libraries} {A : Allowance} {a : Attempt}
    (hg : a.Genuine libraries) (hf : a.succeeded = false)
    (hA : Serves A (a.before.stage libraries)) (hw : a.world.Confined A a.before.id) :
    ∃ es, Ran A a.before.id es a.world a.left ∧ a.left.Confined A a.before.id := by
  obtain ⟨budget, e, w, -, hbuild, -, hleft⟩ := Attempt.failed_cases hg hf
  obtain ⟨es, hran, hw', -⟩ := build_ran hA hw hbuild
  rw [hleft]
  exact ⟨_, hran.followed hw' (e := .record (a.before.failureReport e)) trivial⟩

namespace Instance

variable {i : Instance}

theorem notLoaded_failing (h : i.state = .ready ↔ i.binding.isSome = true) (e : ReloadError) :
    i.notLoaded e = i.failing (some e.message) := by
  have hstate : (if i.binding.isSome = true then InstanceState.ready else .faulted) =
      i.state.settled := by
    split
    · rename_i hb
      rw [h.mpr hb]
      rfl
    · rename_i hb
      have hne : i.state ≠ .ready := fun hr => hb (h.mp hr)
      cases hs : i.state with
      | ready => exact absurd hs hne
      | loading | faulted => rfl
  rw [notLoaded, failing, hstate]

theorem failing_failing (error error' : Option String) :
    (i.failing error).failing error' = i.failing error' := by
  unfold failing InstanceState.settled
  cases i.state <;> rfl

theorem failing_ready (h : i.state = .ready ↔ i.binding.isSome = true) (error : Option String) :
    (i.failing error).state = .ready ↔ (i.failing error).binding.isSome = true := by
  refine Iff.trans ?_ h
  unfold failing InstanceState.settled
  cases i.state <;> simp

/-- How an instance stands to its errors makes no difference to what it runs. -/
theorem call_failing (budget : Nat) (libraries : Libraries) (e : EntryPoint) (args : List Value)
    (w : World) (error : Option String) :
    (i.failing error).call budget libraries e args w =
      (i.call budget libraries e args w).map fun (r, j, w) => (r, j.failing error, w) := by
  have hcallable : (i.failing error).callable? e = i.callable? e := rfl
  have hstage : (i.failing error).stage libraries = i.stage libraries := rfl
  unfold call
  rw [hcallable, hstage]
  cases hs : i.state with
  | ready =>
      have hready : (i.failing error).state = .ready := by rw [failing, hs]; rfl
      rw [hready]
      cases i.callable? e with
      | none => rfl
      | some p =>
          dsimp only
          cases p.2 with
          | function =>
              dsimp only
              cases callNamed (evaluate (i.stage libraries) budget) (i.stage libraries) p.1 e.name
                args w <;> rfl
          | value name curried function =>
              dsimp only
              cases callPointer (evaluate (i.stage libraries) budget) (i.stage libraries) p.1 name
                curried function args w <;> rfl
  | loading | faulted =>
      have hfaulted : (i.failing error).state = .faulted := by rw [failing, hs]; rfl
      rw [hfaulted]
      rfl

theorem invoke_failing (budget : Nat) (libraries : Libraries) (e : EntryPoint)
    (args : List HostValue) (w : World) (error : Option String) :
    (i.failing error).invoke budget libraries e args w =
      (i.invoke budget libraries e args w).map fun (o, j, w) => (o, j.failing error, w) := by
  have hrunning : (i.failing error).running = i.running := rfl
  unfold invoke
  rw [hrunning, call_failing]
  split
  · rfl
  · cases i.call budget libraries e (args.map HostValue.toScript) w with
    | none => rfl
    | some p =>
        obtain ⟨r, j, w'⟩ := p
        rcases r with _ | (f | v) <;> rfl

theorem dispatch_failing (budget : Nat) (libraries : Libraries) (e : EntryPoint)
    (args : List HostValue) (w : World) (error : Option String) :
    (i.failing error).dispatch budget libraries e args w =
      (i.dispatch budget libraries e args w).map fun (o, j, w) => (o, j.failing error, w) := by
  unfold dispatch
  rw [invoke_failing]
  cases i.invoke budget libraries e args w with
  | none => rfl
  | some p =>
      obtain ⟨o, j, w'⟩ := p
      cases o <;> rfl

end Instance

namespace Failing

variable {libraries : Libraries} {between : World → World → Prop} {i i' : Instance} {w w' : World}
  {as : List Attempt}

/-- However many attempts fail, the instance has the last error and is otherwise as it was. -/
theorem failing (h : Failing libraries between i w as i' w')
    (hb : i.state = .ready ↔ i.binding.isSome = true) :
    as = [] ∧ i' = i ∨ i' = i.failing i'.lastError := by
  induction h with
  | refl => exact .inl ⟨rfl, rfl⟩
  | step hi _ hg hf _ ih =>
      subst hi
      obtain ⟨_, e, _, -, -, hafter, -⟩ := Attempt.failed_cases hg hf
      rw [Instance.notLoaded_failing hb] at hafter
      refine .inr ?_
      rcases ih (hafter ▸ Instance.failing_ready hb _) with ⟨-, rfl⟩ | hlast
      · rw [hafter]
        rfl
      · rwa [hafter, Instance.failing_failing] at hlast

/-- If nothing else gets at the realm of the instance, the attempts change no cell beyond an
allowance that the realm is confined to. -/
theorem cell (h : Failing libraries (SameRealm i.id) i w as i' w') {A : Allowance}
    (hA : ∀ c, A (.handle c)) (hw : w.Confined A i.id) {cell : CellId} (hc : ¬ A (.cell cell)) :
    (w'.realm i.id).heap[cell]? = (w.realm i.id).heap[cell]? := by
  generalize hid : i.id = id at h hw
  induction h with
  | refl => rfl
  | @step i i' w w' a as hi hb hg hf _ ih =>
      subst hi
      subst hid
      have hb : a.world.realm a.before.id = w.realm a.before.id := hb
      have hworld : a.world.Confined A a.before.id :=
        ⟨hb.symm ▸ hw.cells, hb.symm ▸ hw.fresh, hb.symm ▸ hw.modules, closed_of_references hA _⟩
      obtain ⟨es, hran, hleft⟩ := Attempt.failed_ran hg hf (serves_of_references hA _) hworld
      exact (ih hg.id hleft).trans ((hran.cell cell hc).trans (by rw [hb]))

end Failing

/-- An instance is reached by operations, its files are changed, and it fails to load: what an
evaluation shows of this holds of a history and an attempt. -/
theorem failed_attempt_of_run {budget : Nat} {c : HostConfig} {w₀ : World} {ops : List Op}
    {files : FileTree} (shows : Registry → Instance → World → Bool)
    (h : (Op.runAll budget (.start c w₀) ops).any (fun r => r.instances.any fun i =>
      (i.reload budget r.libraries { r.world with files }).any fun p =>
        !p.1.isOk && shows r i p.2.2) = true) :
    ∃ (es : List Event) (r : Registry) (a : Attempt), Reached c w₀ es r ∧
      a.before ∈ r.instances ∧ a.world = { r.world with files } ∧ a.Genuine r.libraries ∧
      a.succeeded = false ∧ shows r a.before a.left = true := by
  obtain ⟨r, hr, h⟩ := (Option.any_eq_true _ _).mp h
  obtain ⟨i, hi, h⟩ := List.any_eq_true.mp h
  obtain ⟨⟨result, i', w'⟩, hreload, h⟩ := (Option.any_eq_true _ _).mp h
  obtain ⟨hfails, hshows⟩ := (Bool.and_eq_true _ _).mp h
  obtain ⟨es, hreached⟩ := Reached.start.all hr
  refine ⟨_, r, ⟨i, { r.world with files }, result, i', w'⟩, hreached, hi, rfl, ⟨budget, hreload⟩,
    ?_, hshows⟩
  simpa [Attempt.succeeded] using hfails

/-! ## What is left of the program -/

/-- What failed attempts leave of an instance and its program. All that the instance shows is as it
was, and it runs the code that it did. A cell of the program is as it was unless the libraries lead
to it; so the program's variables have the values that they had if and only if no attempt wrote to
a cell that both have. -/
structure ProgramKept (i i' : Instance) (w w' : World) : Prop where
  same : i' = i.failing i'.lastError
  snapshot : i'.snapshot = { i.snapshot with state := i.state.settled }
  binding : i'.binding = i.binding
  dispatch : ∀ (budget : Nat) (libraries : Libraries) (e : EntryPoint) (args : List HostValue)
    (w : World), i'.dispatch budget libraries e args w =
      (i.dispatch budget libraries e args w).map fun (o, j, w) => (o, j.failing i'.lastError, w)
  apart : ∀ cell, i.Uses w cell → ¬ i.Lends w cell → i.Holds w w' cell
  values : (∀ cell, i.Uses w cell → i.Holds w w' cell) ↔
    ∀ cell, i.Uses w cell → i.Lends w cell → i.Holds w w' cell

/-- Any number of consecutive failed attempts on any instance, one just created included. -/
theorem failed_reloads_keep_program {c : HostConfig} {w₀ w w' : World} {es : List Event}
    {r : Registry} {i i' : Instance} {as : List Attempt} (h : Reached c w₀ es r)
    (hi : i ∈ r.instances ∨ ∃ name, i = (r.create name).1) (hne : as ≠ [])
    (hf : Failing r.libraries (SameRealm i.id) i w as i' w') : ProgramKept i i' w w' := by
  have hready : i.state = .ready ↔ i.binding.isSome = true := by
    rcases hi with hi | ⟨name, rfl⟩
    · exact (h.orderly.lifecycle i hi).bound
    · exact (tracked_new _ _ _).bound
  have hsame : i' = i.failing i'.lastError :=
    (hf.failing hready).resolve_left fun hnone => hne hnone.1
  have hapart : ∀ cell, i.Uses w cell → ¬ i.Lends w cell → i.Holds w w' cell := by
    intro cell _ hlends held hheld
    have hlt : cell < (w.realm i.id).heap.size := (Array.getElem?_eq_some_iff.mp hheld).1
    have hnot : ¬ i.loadable w (.cell cell) := by
      rintro (hl | hl)
      · exact hlends hl
      · exact Nat.not_le.mpr hlt hl
    rw [hf.cell (fun _ => trivial) (i.confined_loadable w) hnot]
    exact hheld
  refine ⟨hsame, ?_, ?_, ?_, hapart, ?_⟩
  · rw [hsame]
    rfl
  · rw [hsame]
    rfl
  · rw [hsame]
    exact fun budget libraries e args w => Instance.dispatch_failing budget libraries e args w _
  · refine ⟨fun hall cell hu _ => hall cell hu, fun hshared cell hu => ?_⟩
    by_cases hl : i.Lends w cell
    · exact hshared cell hu hl
    · exact hapart cell hu hl

/-! ## A library that gives a cell away -/

/-- The number in a cell of an instance. -/
def Instance.number? (i : Instance) (w : World) (cell : CellId) : Option Int64 :=
  (w.realm i.id).heap[cell]?.bind fun held =>
    match held.value with
    | .int n => some n
    | _ => none

/-- A variable of the program had a number and has another. -/
def Instance.overwritten (i : Instance) (w w' : World) : Bool :=
  i.binding.any fun b => b.vars.any fun v =>
    match v.held.value with
    | .shared cell => (i.number? w cell).any fun n => i.number? w' cell != some n
    | _ => false

theorem Instance.uses_overwritten {i : Instance} {w w' : World} (h : i.overwritten w w' = true) :
    ∃ cell, i.Uses w cell ∧ ¬ i.Holds w w' cell := by
  obtain ⟨b, hb, h⟩ := (Option.any_eq_true _ _).mp h
  obtain ⟨v, hv, h⟩ := List.any_eq_true.mp h
  split at h
  · rename_i cell hcell
    obtain ⟨n, hn, hne⟩ := (Option.any_eq_true _ _).mp h
    refine ⟨cell, ⟨b, hb, .root ?_⟩, fun hholds => ?_⟩
    · refine List.mem_flatMap.mpr ⟨v, hv, List.mem_append_left _ ?_⟩
      rw [hcell]
      exact List.mem_singleton.mpr rfl
    · obtain ⟨held, hheld, hnumber⟩ := Option.bind_eq_some_iff.mp hn
      have hafter : i.number? w' cell = some n := by
        rw [Instance.number?, hholds held hheld]
        exact hnumber
      rw [hafter] at hne
      simp at hne
  · nomatch h

/-- A library that keeps one value, and gives it away for another. -/
def slotLibrary : String :=
  "let slot = (); const SWAP = |v| \x7b let old = slot; slot = v; old \x7d; " ++
    "fn swap(v) \x7b global::SWAP.call(v) \x7d"

/-- A script that gives the library a function that counts its variable up. -/
def countingScript : String :=
  "import \"slot\" as slot; let n = 0; let f = || \x7b n += 1; \x7d; slot::swap(f); " ++
    "fn OnUpdate() \x7b Data.Set(\"n\", n); \x7d"

/-- The same with another top level: it calls what the library has, and fails. -/
def countingThenFailing : String :=
  "import \"slot\" as slot; let n = 0; let f = || \x7b n += 1; \x7d; " ++
    "let g = slot::swap(f); g.call(); throw \"x\";"

set_option maxRecDepth 100000 in
theorem counting_overwritten : ∃ (c : HostConfig) (w₀ : World) (es : List Event) (r : Registry)
    (i : Instance) (a : Attempt), Reached c w₀ es r ∧ i ∈ r.instances ∧
      Failing r.libraries (SameRealm i.id) i r.world [a] a.after a.left ∧
      ∃ cell, i.Uses r.world cell ∧ ¬ i.Holds r.world a.left cell := by
  let c : HostConfig := { scripts := { startup := [] } }
  let libraries := [("slot.rhai", slotLibrary)]
  let w₀ : World := .ofScripts [("A.rhai", countingScript)] libraries
  let files : FileTree := .ofScripts [("A.rhai", countingThenFailing)] libraries
  have hrun : (Op.runAll 1000 (.start c w₀) [.add "A"]).any (fun r => r.instances.any fun i =>
      (i.reload 1000 r.libraries { r.world with files }).any fun p =>
        !p.1.isOk && i.overwritten r.world p.2.2) = true := by
    decide +kernel
  obtain ⟨es, r, a, h, hi, hw, hg, hf, hover⟩ :=
    failed_attempt_of_run (fun r i w => i.overwritten r.world w) hrun
  have hrealm : SameRealm a.before.id r.world a.world := by
    rw [hw]
    rfl
  exact ⟨c, w₀, es, r, a.before, a, h, hi, .step rfl hrealm hg hf (.refl _ _),
    Instance.uses_overwritten hover⟩

/-- A failed attempt can change what a variable of the program holds. -/
theorem failed_reload_overwrites_variable :
    ¬ ∀ (c : HostConfig) (w₀ w w' : World) (es : List Event) (r : Registry) (i i' : Instance)
      (as : List Attempt), Reached c w₀ es r → i ∈ r.instances →
        Failing r.libraries (SameRealm i.id) i w as i' w' →
          ∀ cell, i.Uses w cell → i.Holds w w' cell := by
  intro hall
  obtain ⟨c, w₀, es, r, i, a, h, hi, hf, cell, hu, hnot⟩ := counting_overwritten
  exact hnot (hall c w₀ r.world a.left es r i a.after [a] h hi hf cell hu)

/-- That attempt leaves of the program what failed attempts leave. -/
theorem counting_program_kept : ∃ (c : HostConfig) (w₀ : World) (es : List Event) (r : Registry)
    (i : Instance) (a : Attempt), Reached c w₀ es r ∧ i ∈ r.instances ∧
      Failing r.libraries (SameRealm i.id) i r.world [a] a.after a.left ∧
      ProgramKept i a.after r.world a.left := by
  obtain ⟨c, w₀, es, r, i, a, h, hi, hf, -⟩ := counting_overwritten
  exact ⟨c, w₀, es, r, i, a, h, hi, hf,
    failed_reloads_keep_program h (.inl hi) (List.cons_ne_nil a []) hf⟩

end Stagehand
