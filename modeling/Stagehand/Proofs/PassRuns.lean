import Stagehand.Proofs.Passes

/-!
# What a pass runs

Passes again, with nothing left open: which code runs for which instance, from which world, and with
what budget. `Pass.Runs` relates a registry to the runs of a pass over it, in their order, and to
what is left. Each of its parts follows the recursion of the function that it tells of, and a pass
that comes to its end has such an account (`Pass.runs`).
-/

namespace Stagehand

open Lang

/-- The passes over a registry. -/
inductive Pass where
  | update
  | draw (surface : ImageId)
  | message (name : String) (payload : HostValue)

/-- An entry point and what it is called with. -/
abbrev Errand := EntryPoint × List HostValue

namespace Pass

/-- What is called on a visit. -/
def errands : Pass → Instance → List Errand
  | update, i =>
    if !i.initialized && i.state == .ready then [(.onInit, []), (.onUpdate, [])]
    else [(.onUpdate, [])]
  | draw _, _ => [(.onDraw, [])]
  | message name payload, i => if i.name == name then [(.onMessage, [payload])] else []

/-- The world in which a pass begins. -/
def opening : Pass → World → World
  | update, w => w.tick.2
  | draw surface, w => w.modifyHost fun h => { h with screen := surface }
  | message _ _, w => w

/-- The registry after a pass; only to draw can fail. -/
def run (budget : Nat) (r : Registry) : Pass → Option (Except ScanError Unit × Registry)
  | update => (r.update budget).map fun r => (.ok (), r)
  | draw surface => r.draw budget surface
  | message name payload => (r.sendMessage budget name payload).map fun p => (.ok (), p.2)

end Pass

/-- The instance after an entry point was called in a pass: `OnInit` is called once at most. -/
def Instance.marked (i : Instance) (e : EntryPoint) : Instance :=
  if e = .onInit then i.markInitialized else i

/-- The registry after an update, when all visits are over. -/
def Registry.counted (r : Registry) (cost : Int) : Registry :=
  { r with
    world := (r.world.modifyHost fun h => { h with frame := h.frame + 1 }).tick.2.record
      (Level.debug.report "update pass" [("scripts", toString r.instances.length)])
    updateCost := cost }

/-! ## The runs -/

section Runs

variable (budget : Nat)

/-- Entry points of an instance are called. -/
inductive Errands (libraries : Libraries) :
    List Errand → Instance → World → List Event → Instance → World → Prop
  | done {i : Instance} {w : World} : Errands libraries [] i w [] i w
  | call {e : EntryPoint} {args : List HostValue} {rest : List Errand} {i i₁ i' : Instance}
      {w w₁ w' : World} {o : Outcome} {es : List Event}
      (h : i.dispatch budget libraries e args w = some (o, i₁, w₁))
      (hs : Errands libraries rest (i₁.marked e) w₁ es i' w') :
      Errands libraries ((e, args) :: rest) i w (Call.event ⟨i, e, args, w, o, i₁, w₁⟩ :: es) i' w'

/-- Instances join. -/
inductive Joins : Registry → List String → List Event → Registry → Prop
  | done {r : Registry} : Joins r [] [] r
  | join {r r' : Registry} {name : String} {names : List String} {es : List Event} {i' : Instance}
      {result : Except ReloadError Unit} {w' : World}
      (h : (r.create name).1.reload budget r.libraries (r.create name).2.world =
        some (result, i', w'))
      (hs : Joins { (r.create name).2 with world := w', instances := r.instances ++ [i'] } names es
        r') :
      Joins r (name :: names)
        (.joined ⟨(r.create name).1, (r.create name).2.world, result, i', w'⟩ :: es) r'

/-- The instances are visited from a place on, and whoever is asked for on a visit joins. -/
inductive Tour (errands : Instance → List Errand) : Nat → Registry → List Event → Registry → Prop
  | done {place : Nat} {r : Registry} (h : r.instances[place]? = none) : Tour errands place r [] r
  | visit {place : Nat} {r r₁ r' : Registry} {i i' : Instance} {w' : World}
      {calls loads es : List Event} (hi : r.instances[place]? = some i)
      (hc : Errands budget r.libraries (errands i) i r.world calls i' w')
      (hj : Joins budget { r with world := w'.takeAdds.2, instances := r.instances.set place i' }
        w'.host.adds loads r₁)
      (hs : Tour errands (place + 1) r₁ es r') : Tour errands place r (calls ++ (loads ++ es)) r'

/-- The instances that are behind a source file are loaded again. -/
inductive Reloads (libraries : Libraries) (s : SourceFile) :
    List Instance → World → List Event → List Instance → World → Prop
  | done {w : World} : Reloads libraries s [] w [] [] w
  | stale {i i' : Instance} {rest rest' : List Instance} {w w₁ w' : World} {es : List Event}
      {result : Except ReloadError Unit} (hi : i.isStale s = true)
      (h : i.reload budget libraries (w.record (s.report i)) = some (result, i', w₁))
      (hs : Reloads libraries s rest w₁ es rest' w') :
      Reloads libraries s (i :: rest) w
        (.tried ⟨i, w.record (s.report i), result, i', w₁⟩ :: es) (i' :: rest') w'
  | fresh {i : Instance} {rest rest' : List Instance} {w w' : World} {es : List Event}
      (hi : i.isStale s = false) (hs : Reloads libraries s rest w es rest' w') :
      Reloads libraries s (i :: rest) w es (i :: rest') w'

/-- The same for one source file after the other. -/
inductive Sweep (libraries : Libraries) :
    List SourceFile → List Instance → World → List Event → List Instance → World → Prop
  | done {is : List Instance} {w : World} : Sweep libraries [] is w [] is w
  | source {s : SourceFile} {rest : List SourceFile} {is is₁ is' : List Instance} {w w₁ w' : World}
      {tries es : List Event} (h : Reloads budget libraries s is w tries is₁ w₁)
      (hs : Sweep libraries rest is₁ w₁ es is' w') :
      Sweep libraries (s :: rest) is w (tries ++ es) is' w'

/-- What a pass runs. -/
inductive Pass.Runs (r : Registry) :
    Pass → List Event → Except ScanError Unit → Registry → Prop
  | update {r₁ : Registry} {es : List Event}
      (h : Tour budget Pass.update.errands 0 { r with world := Pass.update.opening r.world } es r₁) :
      Runs r .update es (.ok ()) (r₁.counted
        ((r₁.world.modifyHost fun h => { h with frame := h.frame + 1 }).tick.1 - r.world.tick.1))
  | message {r₁ : Registry} {name : String} {payload : HostValue} {es : List Event}
      (h : Tour budget (Pass.message name payload).errands 0 r es r₁) :
      Runs r (.message name payload) es (.ok ()) r₁
  | unread {r₁ : Registry} {surface : ImageId} {es : List Event} {e : ScanError}
      (h : Tour budget (Pass.draw surface).errands 0
        { r with world := (Pass.draw surface).opening r.world } es r₁)
      (he : collectSources r₁.world.files r₁.scripts.dir = .error e) :
      Runs r (.draw surface) es (.error e) r₁.applyRemovals
  | draw {r₁ : Registry} {surface : ImageId} {es tries : List Event} {sources : List SourceFile}
      {reports : List LogRecord} {is : List Instance} {w : World}
      (h : Tour budget (Pass.draw surface).errands 0
        { r with world := (Pass.draw surface).opening r.world } es r₁)
      (hs : collectSources r₁.world.files r₁.scripts.dir = .ok (sources, reports))
      (ht : Sweep budget r₁.libraries sources r₁.instances (r₁.world.recordAll reports) tries is w) :
      Runs r (.draw surface) (es ++ tries) (.ok ())
        ({ r₁ with instances := is, world := w } : Registry).applyRemovals

end Runs

theorem Pass.update_args {i : Instance} {errand : Errand} (h : errand ∈ update.errands i) :
    errand.2 = [] := by
  dsimp only [errands] at h
  split at h
  · simp only [List.mem_cons, List.not_mem_nil, or_false] at h
    rcases h with rfl | rfl <;> rfl
  · cases List.mem_singleton.mp h
    rfl

/-- A tour of two instances that do not ask for more. -/
theorem Tour.pair {budget : Nat} (errands : Instance → List Errand) (r : Registry)
    {i i' j j' : Instance} {w w' : World} {calls calls' : List Event} (hr : r.instances = [i, j])
    (hi : Errands budget r.libraries (errands i) i r.world calls i' w) (hadds : w.host.adds = [])
    (hj : Errands budget r.libraries (errands j) j w.takeAdds.2 calls' j' w')
    (hadds' : w'.host.adds = []) :
    ∃ r', Tour budget errands 0 r (calls ++ calls') r' ∧ r'.world = w'.takeAdds.2 := by
  let r₁ : Registry := { r with world := w.takeAdds.2, instances := r.instances.set 0 i' }
  let r₂ : Registry := { r₁ with world := w'.takeAdds.2, instances := r₁.instances.set 1 j' }
  have hjoins : Joins budget r₁ w.host.adds [] r₁ := hadds ▸ .done
  have hjoins' : Joins budget r₂ w'.host.adds [] r₂ := hadds' ▸ .done
  have hend : Tour budget errands 2 r₂ [] r₂ := .done (by simp [r₂, r₁, hr])
  have hsecond : Tour budget errands 1 r₁ (calls' ++ ([] ++ [])) r₂ :=
    .visit (by simp [r₁, hr]) hj hjoins' hend
  refine ⟨r₂, ?_, rfl⟩
  simpa using Tour.visit (by simp [hr]) hi hjoins hsecond

/-! ## Passes have runs -/

section Existence

variable {budget : Nat} {r r' : Registry}

/-- The visit calls the errands of the instance. -/
def Registry.Visit.Runs {α : Type} (visit : Registry.Visit α) (budget : Nat)
    (libraries : Libraries) (errands : Instance → List Errand) : Prop :=
  ∀ {i i' w w' a}, visit i w = some (a, i', w') →
    ∃ es, Errands budget libraries (errands i) i w es i' w'

namespace Registry

theorem updateVisit_runs {libraries : Libraries} :
    (updateVisit budget libraries).Runs budget libraries Pass.update.errands := by
  intro i i' w w' a h
  dsimp only [Pass.errands]
  rcases updateVisit_cases h with ⟨hfirst, o, i₁, w₁, o', hinit, hupdate⟩ | ⟨hfirst, o, hupdate⟩
  · rw [if_pos hfirst]
    exact ⟨_, .call hinit (.call hupdate .done)⟩
  · rw [if_neg hfirst]
    exact ⟨_, .call hupdate .done⟩

theorem drawVisit_runs {libraries : Libraries} {surface : ImageId} :
    (drawVisit budget libraries).Runs budget libraries (Pass.draw surface).errands :=
  fun h => ⟨_, .call h .done⟩

theorem messageVisit_runs {libraries : Libraries} {name : String} {payload : HostValue} :
    (messageVisit budget libraries name payload).Runs budget libraries
      (Pass.message name payload).errands := by
  intro i i' w w' a h
  dsimp only [Pass.errands]
  rcases messageVisit_cases h with ⟨hname, o, hdispatch, -⟩ | ⟨hname, -, rfl, rfl⟩
  · rw [if_pos (beq_iff_eq.mpr hname)]
    exact ⟨_, .call hdispatch .done⟩
  · rw [if_neg fun heq => hname (beq_iff_eq.mp heq)]
    exact ⟨_, .done⟩

theorem addAll_joins : ∀ {names : List String} {r : Registry}, r.addAll budget names = some r' →
    ∃ es, Joins budget r names es r'
  | [], _, h => by
    cases h
    exact ⟨[], .done⟩
  | name :: rest, r, h => by
    obtain ⟨⟨id, r₁⟩, hadd, hrest⟩ := Option.bind_eq_some_iff.mp h
    obtain ⟨⟨result, i, w⟩, hreload, hadd⟩ := Option.bind_eq_some_iff.mp hadd
    cases hadd
    obtain ⟨es, hjoins⟩ := addAll_joins hrest
    exact ⟨_, .join hreload hjoins⟩

theorem passFrom_tour {α : Type} {visit : Visit α} {errands : Instance → List Errand}
    {libraries : Libraries} (hv : visit.Runs budget libraries errands) :
    ∀ {left place : Nat} {r r' : Registry} {as : List α}, r.libraries = libraries →
      passFrom budget visit left place r = some (as, r') → ∃ es, Tour budget errands place r es r'
  | 0, _, _, _, _, _, h => nomatch h
  | left + 1, place, r, r', as, hl, h => by
    rcases passFrom_cases h with
      ⟨hend, -, rfl⟩ | ⟨i, a, i', w', r₁, as₁, hi, hvisit, hadds, hpass, -⟩
    · exact ⟨[], .done hend⟩
    · obtain ⟨loads, hpath, -⟩ := addAll_joined hadds
      obtain ⟨loads, hjoins⟩ := addAll_joins hadds
      obtain ⟨calls, hcalls⟩ := hv hvisit
      obtain ⟨es, hes⟩ := passFrom_tour hv (hpath.fixed.2.trans hl) hpass
      exact ⟨_, .visit hi (hl ▸ hcalls) hjoins hes⟩

theorem reloadStale_reloads {libraries : Libraries} {s : SourceFile} :
    ∀ {is is' : List Instance} {w w' : World} {n : Nat},
      reloadStale budget libraries s is w = some (n, is', w') →
        ∃ es, Reloads budget libraries s is w es is' w' ∧ es.length = n
  | [], _, _, _, _, h => by
    cases h
    exact ⟨[], .done, rfl⟩
  | i :: rest, is', w, w', n, h => by
    rcases reloadStale_cases h with
      ⟨hstale, result, i₁, w₁, m, rest₁, hreload, hrest, rfl, rfl⟩ | ⟨hfresh, rest₁, hrest, rfl⟩
    · obtain ⟨es, hes, rfl⟩ := reloadStale_reloads hrest
      exact ⟨_, .stale hstale hreload hes, rfl⟩
    · obtain ⟨es, hes, rfl⟩ := reloadStale_reloads hrest
      exact ⟨_, .fresh hfresh hes, rfl⟩

theorem reloadAll_sweep {libraries : Libraries} :
    ∀ {sources : List SourceFile} {is is' : List Instance} {w w' : World} {n : Nat},
      reloadAll budget libraries sources is w = some (n, is', w') →
        ∃ es, Sweep budget libraries sources is w es is' w' ∧ es.length = n
  | [], _, _, _, _, _, h => by
    cases h
    exact ⟨[], .done, rfl⟩
  | s :: rest, is, is', w, w', n, h => by
    obtain ⟨⟨m, is₁, w₁⟩, hstale, h⟩ := Option.bind_eq_some_iff.mp h
    obtain ⟨⟨m', is₂, w₂⟩, hrest, h⟩ := Option.bind_eq_some_iff.mp h
    cases h
    obtain ⟨tries, htries, rfl⟩ := reloadStale_reloads hstale
    obtain ⟨es, hes, rfl⟩ := reloadAll_sweep hrest
    exact ⟨_, .source htries hes, List.length_append⟩

end Registry

/-- A pass that comes to its end has an account of what it ran. -/
theorem Pass.runs {p : Pass} {result : Except ScanError Unit}
    (h : p.run budget r = some (result, r')) : ∃ es, p.Runs budget r es result r' := by
  cases p with
  | update =>
      obtain ⟨r₂, hupdate, heq⟩ := Option.map_eq_some_iff.mp h
      cases heq
      obtain ⟨⟨as, r₁⟩, hpass, hupdate⟩ := Option.bind_eq_some_iff.mp hupdate
      cases hupdate
      obtain ⟨es, htour⟩ := Registry.passFrom_tour Registry.updateVisit_runs rfl hpass
      exact ⟨es, .update htour⟩
  | message name payload =>
      obtain ⟨⟨n, r₂⟩, hsend, heq⟩ := Option.map_eq_some_iff.mp h
      cases heq
      obtain ⟨⟨as, r₁⟩, hpass, hsend⟩ := Option.bind_eq_some_iff.mp hsend
      cases hsend
      obtain ⟨es, htour⟩ := Registry.passFrom_tour Registry.messageVisit_runs rfl hpass
      exact ⟨es, .message htour⟩
  | draw surface =>
      obtain ⟨⟨as, r₁⟩, hpass, hrest⟩ := Option.bind_eq_some_iff.mp h
      obtain ⟨⟨scanned, is, w⟩, hscan, hend⟩ := Option.bind_eq_some_iff.mp hrest
      clear h hrest
      cases hend
      have hvisit : (Registry.drawVisit budget r.libraries).Runs budget r.libraries
          (Pass.draw surface).errands := Registry.drawVisit_runs
      obtain ⟨es, htour⟩ := Registry.passFrom_tour hvisit rfl hpass
      rcases Registry.scan_cases hscan with
        ⟨e, he, rfl, rfl, rfl⟩ | ⟨sources, reports, n, hs, hall, rfl⟩
      · exact ⟨es, .unread htour he⟩
      · obtain ⟨tries, htries, -⟩ := Registry.reloadAll_sweep hall
        exact ⟨es ++ tries, .draw htour hs htries⟩

end Existence

end Stagehand
