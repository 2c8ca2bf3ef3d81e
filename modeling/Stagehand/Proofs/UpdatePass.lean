import Stagehand.Proofs.Lifecycle

/-!
# The law of an update

An update visits what is registered and what joins on the way, everything once and in the order of
the list, and on each visit does the same whatever happened on those before it. The counter of
frames stands still until the last visit is over: no move of a run can count (`Moves.frame`), and
neither can a load.
-/

namespace Stagehand

open Lang

/-- All along a call, whatever moves it makes, the counter of frames stands at `n`. -/
structure Call.Observes (c : Call) (n : Nat) : Prop where
  during : ∀ m m' : Machine, m.world = c.world → Moves (fun _ => True) m m' →
    m'.world.host.frame = n
  after : c.left.host.frame = n

/-- The rounds of an update, from one registry to the other. The list in the end is the list in the
beginning with those that joined behind it, and every instance of it was visited once; each visit
is an update of the instance as it stood then; what was asked for joined before the next visit. -/
structure UpdateLaw (r : Registry) (vs : List (Round (List Call))) (r' : Registry) : Prop where
  rounds : ∃ r₁, Rounds (Updated r.libraries) 0 { r with world := r.world.tick.2 } vs r₁ ∧
    r'.instances = r₁.instances
  list : r'.instances.map Instance.handle =
    r.instances.map Instance.handle ++ (vs.flatMap Round.loads).map fun a => a.after.handle
  visited : vs.map (fun v => v.arrived.handle) = r'.instances.map Instance.handle
  once : (vs.map fun v => v.arrived.id).Nodup
  arrivals : vs.map Round.arrived = r.instances ++ (vs.flatMap Round.loads).map Attempt.after
  departures : vs.map Round.departed = r'.instances
  visits : ∀ v ∈ vs, Updated r.libraries v.arrived v.world v.result v.departed v.left
  requests : ∀ v ∈ vs, v.loads.map (fun a => a.before.name) = v.left.host.adds
  frame : ∀ v ∈ vs, ∀ c ∈ v.result, c.Observes r.world.host.frame
  counted : r'.world.host.frame = r.world.host.frame + 1

namespace Updated

variable {libraries : Libraries} {i i' : Instance} {calls : List Call} {w w' : World}

theorem handle (h : Updated libraries i w calls i' w') : i'.handle = i.handle := by
  cases h with
  | first _ _ hinit hupdate =>
      have hstarted := (Instance.dispatch_continues hinit).handle
      exact (Instance.dispatch_continues hupdate).handle.trans hstarted
  | later _ hupdate => exact (Instance.dispatch_continues hupdate).handle

theorem frame (h : Updated libraries i w calls i' w') : w'.host.frame = w.host.frame := by
  cases h with
  | first _ _ hinit hupdate =>
      exact (Instance.dispatch_frame hupdate).trans (Instance.dispatch_frame hinit)
  | later _ hupdate => exact Instance.dispatch_frame hupdate

theorem observes (h : Updated libraries i w calls i' w') :
    ∀ c ∈ calls, c.Observes w.host.frame := by
  have during : ∀ {w₁ : World}, w₁.host.frame = w.host.frame → ∀ m m' : Machine, m.world = w₁ →
      Moves (fun _ => True) m m' → m'.world.host.frame = w.host.frame := by
    rintro _ hw m m' rfl hmoves
    exact hmoves.frame.trans hw
  cases h with
  | first _ _ hinit hupdate =>
      have hfirst := Instance.dispatch_frame hinit
      have hsecond := (Instance.dispatch_frame hupdate).trans hfirst
      intro c hc
      simp only [List.mem_cons, List.not_mem_nil, or_false] at hc
      rcases hc with rfl | rfl
      · exact ⟨during rfl, hfirst⟩
      · exact ⟨during hfirst, hsecond⟩
  | later _ hupdate =>
      intro c hc
      cases List.mem_singleton.mp hc
      exact ⟨during rfl, Instance.dispatch_frame hupdate⟩

end Updated

/-- Every update of a reachable registry that comes to its end keeps the law. -/
theorem update_lawful {c : HostConfig} {w : World} {es : List Event} {r r' : Registry}
    {budget : Nat} (h : Reached c w es r) (hu : r.update budget = some r') :
    ∃ vs, UpdateLaw r vs r' := by
  obtain ⟨new, -, hreached⟩ := h.next (o := .update) hu
  obtain ⟨vs, r₁, hrounds, hinstances, hcount, -⟩ := Registry.update_rounds hu
  have harrivals := hrounds.arrivals
  have hdepartures := hrounds.departures
  rw [List.drop_zero] at harrivals
  rw [List.take_zero, List.nil_append, ← hinstances] at hdepartures
  obtain ⟨hworlds, hend⟩ := hrounds.frame Updated.frame
  -- a visit leaves the instance its number and its name
  have hvisited : vs.map (fun v => v.arrived.handle) = r'.instances.map Instance.handle := by
    rw [hdepartures, List.map_map]
    refine List.map_congr_left fun v hv => ?_
    exact (hrounds.each v hv).1.handle.symm
  refine ⟨vs, ⟨r₁, hrounds, hinstances⟩, ?_, hvisited, ?_, harrivals, hdepartures.symm,
    fun v hv => (hrounds.each v hv).1, fun v hv => (hrounds.each v hv).2, fun v hv c hc => ?_, ?_⟩
  · have hhandles := congrArg (List.map Instance.handle) harrivals
    rw [List.map_append, List.map_map, List.map_map] at hhandles
    exact hvisited.symm.trans hhandles
  · -- numbers ascend along the list in every reachable registry
    have hascending := hreached.orderly.ascending
    have hids : vs.map (fun v => v.arrived.id) = r'.instances.map Instance.id := by
      have := congrArg (List.map ScriptHandle.id) hvisited
      rwa [List.map_map, List.map_map] at this
    rw [hids]
    exact hascending.imp Nat.ne_of_lt
  · have hobserves := (hrounds.each v hv).1.observes c hc
    rwa [hworlds v hv] at hobserves
  · exact hcount.trans (congrArg (· + 1) hend)

set_option maxRecDepth 100000 in
/-- A script asks for another in its update, whose top level asks for a third one that cannot be
read: all three are visited by the same update. -/
theorem update_lawful_growing :
    ∃ (c : HostConfig) (w : World) (es : List Event) (r r' : Registry), Reached c w es r ∧
      r.update 1000 = some r' ∧ r.instances.map Instance.name = ["A"] ∧
      r'.instances.map (fun i => (i.name, i.state)) =
        [("A", .ready), ("B", .ready), ("C", .faulted)] ∧ ∃ vs, UpdateLaw r vs r' := by
  let c : HostConfig := { scripts := { startup := [] } }
  let w : World := .ofScripts [("A.rhai", "fn OnUpdate() \x7b Host.Add(\"B\") \x7d"),
    ("B.rhai", "Host.Add(\"C\");")]
  have hrun : (Op.runAll 1000 (.start c w) [.add "A"]).any (fun r =>
      r.instances.map Instance.name == ["A"] && (r.update 1000).any fun r' =>
        r'.instances.map (fun i => (i.name, i.state)) ==
          [("A", .ready), ("B", .ready), ("C", .faulted)]) = true := by
    decide +kernel
  obtain ⟨r, hr, hrun⟩ := (Option.any_eq_true _ _).mp hrun
  obtain ⟨hbefore, hrun⟩ := (Bool.and_eq_true _ _).mp hrun
  obtain ⟨r', hu, hafter⟩ := (Option.any_eq_true _ _).mp hrun
  obtain ⟨es, h⟩ := Reached.start.all hr
  exact ⟨c, w, _, r, r', h, hu, beq_iff_eq.mp hbefore, beq_iff_eq.mp hafter, update_lawful h hu⟩

end Stagehand
