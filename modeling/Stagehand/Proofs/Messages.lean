import Stagehand.Proofs.AddRequests

/-!
# The law of a message

A message goes along the list once. Who has another name is passed by, but what scripts asked for
joins behind that visit too, so that whoever a handler or a top level asks for gets its turn in the
same pass, at the end of the list (`Rounds.drained`: nothing stays pending). What the message yields
is counted from the results of the visits, and each result is what came of one call at most
(`handledBy`); the law reads the count off the calls.
-/

namespace Stagehand

open Lang

/-- What a call comes to. An instance that does not answer is skipped and nothing changes at all;
one that answers keeps running if the call completes, and is stopped if it fails. -/
structure Call.Settled (c : Call) : Prop where
  answers : c.outcome ≠ .skipped ↔ c.before.Answers c.entry
  completed : c.outcome.isCompleted = true → c.after.running = true
  failed : c.outcome.isFailed = true → c.after.running = false
  skipped : c.outcome = .skipped → c.after = c.before ∧ c.left = c.world

/-- The message on its visit to an instance of its name: one call, with the payload. -/
structure Call.Carries (c : Call) (libraries : Libraries) (payload : HostValue)
    (v : Round (List Call)) : Prop where
  call : v.result = [c]
  entry : c.entry = .onMessage
  args : c.args = [payload]
  dispatched : c.Dispatched libraries
  before : c.before = v.arrived
  world : c.world = v.world
  after : c.after = v.departed
  left : c.left = v.left
  settled : c.Settled

/-- The rounds of a message, from one registry to the other, and how many handled it. The list in
the end is the list in the beginning with those that joined behind it. In its order every instance
of the name was called once, and nobody else was; what was asked for joined, and nothing of it is
left over. -/
structure MessageLaw (r : Registry) (name : String) (payload : HostValue)
    (vs : List (Round (List Call))) (n : Nat) (r' : Registry) : Prop where
  rounds : Rounds (Delivered r.libraries name payload) 0 r vs r'
  steps : Path r (vs.flatMap Round.told) r'
  list : r'.instances.map Instance.handle =
    r.instances.map Instance.handle ++ (vs.flatMap Round.loads).map fun a => a.after.handle
  visited : vs.map (fun v => v.arrived.handle) = r'.instances.map Instance.handle
  once : (vs.map fun v => v.arrived.id).Nodup
  arrivals : vs.map Round.arrived = r.instances ++ (vs.flatMap Round.loads).map Attempt.after
  departures : vs.map Round.departed = r'.instances
  calls : (vs.flatMap Round.result).map (fun c => c.before.handle) =
    (r'.instances.map Instance.handle).filter fun h => h.name == name
  named : ∀ v ∈ vs, v.arrived.name = name → ∃ c : Call, c.Carries r.libraries payload v
  others : ∀ v ∈ vs, v.arrived.name ≠ name →
    v.result = [] ∧ v.departed = v.arrived ∧ v.left = v.world
  handled : n = (vs.flatMap Round.result).countP fun c =>
    decide (c.before.Answers .onMessage) && c.outcome.isCompleted
  requests : ∀ v ∈ vs, v.loads.map (fun a => a.before.name) = v.left.host.adds
  served : ∀ effects, Accounted (vs.flatMap Round.told) effects →
    r.world.host.adds ++ wanted effects =
      (vs.flatMap Round.loads).map (fun a => a.before.name) ++ r'.world.host.adds
  drained : r.instances ≠ [] → r'.world.host.adds = []

/-! ## One visit -/

theorem Call.Dispatched.settled {libraries : Libraries} {c : Call} (h : c.Dispatched libraries) :
    c.Settled := by
  obtain ⟨budget, hdispatch⟩ := h
  rcases Instance.dispatch_cases hdispatch with ⟨hne, ha, hrunning⟩ | ⟨hskip, hnot, hafter, hleft⟩
  · refine ⟨iff_of_true hne ha, fun hc => ?_, fun hf => ?_, fun hs => absurd hs hne⟩
    · rw [hrunning]
      cases ho : c.outcome with
      | completed v => rfl
      | _ => simp [ho, Outcome.isCompleted] at hc
    · rw [hrunning, hf]
      rfl
  · refine ⟨iff_of_false (fun hne => hne hskip) hnot, ?_, ?_, fun _ => ⟨hafter, hleft⟩⟩
    · simp [hskip, Outcome.isCompleted]
    · simp [hskip, Outcome.isFailed]

namespace Delivered

variable {libraries : Libraries} {name : String} {payload : HostValue} {i i' : Instance}
  {calls : List Call} {w w' : World}

theorem handle (h : Delivered libraries name payload i w calls i' w') : i'.handle = i.handle := by
  cases h with
  | named _ hdispatch => exact (Instance.dispatch_continues hdispatch).handle
  | other => rfl

/-- Who is called on a visit. -/
theorem called (h : Delivered libraries name payload i w calls i' w') :
    calls.map (fun c => c.before.handle) = [i.handle].filter fun h => h.name == name := by
  cases h with
  | named hn _ =>
      have hname : (i.handle.name == name) = true := beq_iff_eq.mpr hn
      simp [hname]
  | other hn =>
      have hname : (i.handle.name == name) = false := beq_eq_false_iff_ne.mpr hn
      simp [hname]

/-- Who has another name is passed by. -/
theorem passed (h : Delivered libraries name payload i w calls i' w') (hne : i.name ≠ name) :
    calls = [] ∧ i' = i ∧ w' = w := by
  cases h with
  | named hn _ => exact absurd hn hne
  | other => exact ⟨rfl, rfl, rfl⟩

/-- Who has the name is called. -/
theorem carried {v : Round (List Call)}
    (h : Delivered libraries name payload v.arrived v.world v.result v.departed v.left)
    (hn : v.arrived.name = name) : ∃ c : Call, c.Carries libraries payload v := by
  obtain ⟨i, w, calls, i', w', loads⟩ := v
  dsimp only at h hn
  cases h with
  | @named budget _ _ _ _ o _ hdispatch =>
      let c : Call := ⟨i, .onMessage, [payload], w, o, i', w'⟩
      have hc : c.Dispatched libraries := ⟨budget, hdispatch⟩
      exact ⟨c, rfl, rfl, rfl, hc, rfl, rfl, rfl, rfl, hc.settled⟩
  | other hne => exact absurd hn hne

theorem answers (h : Delivered libraries name payload i w calls i' w') :
    ∀ c ∈ calls, c.outcome.isCompleted = true → c.before.Answers .onMessage := by
  intro c hc hcompleted
  cases h with
  | other => nomatch hc
  | named _ hdispatch =>
      cases List.mem_singleton.mp hc
      refine (Call.Dispatched.settled ⟨_, hdispatch⟩).answers.mp fun hskip => ?_
      dsimp only at hskip
      subst hskip
      nomatch hcompleted

/-- What a visit adds to the count. -/
theorem count (h : Delivered libraries name payload i w calls i' w') :
    [handledBy calls].count true = calls.countP fun c => c.outcome.isCompleted := by
  cases h with
  | other => rfl
  | @named _ _ _ _ _ o => cases hc : o.isCompleted <;> simp [handledBy, hc]

end Delivered

/-! ## The pass -/

namespace Rounds

variable {place : Nat} {r r' : Registry} {vs : List (Round (List Call))} {libraries : Libraries}
  {name : String} {payload : HostValue}

/-- Who is called in a pass: those of the name among those that are visited, in the same order. -/
theorem called (h : Rounds (Delivered libraries name payload) place r vs r') :
    (vs.flatMap Round.result).map (fun c => c.before.handle) =
      (vs.map fun v => v.arrived.handle).filter fun h => h.name == name := by
  induction h with
  | done => rfl
  | @round _ _ _ _ v vs _ _ hvisit _ _ _ ih =>
      rw [List.flatMap_cons, List.map_append, ih, hvisit.called, List.map_cons,
        ← List.filter_append, List.singleton_append]

/-- How many visits say that the message was handled. -/
theorem handled (h : Rounds (Delivered libraries name payload) place r vs r') :
    (vs.map fun v => handledBy v.result).count true =
      (vs.flatMap Round.result).countP fun c => c.outcome.isCompleted := by
  induction h with
  | done => rfl
  | @round _ _ _ _ v vs _ _ hvisit _ _ _ ih =>
      rw [List.flatMap_cons, List.countP_append, ← hvisit.count, ← ih, List.map_cons,
        ← List.count_append, List.singleton_append]

end Rounds

/-- Every message to a reachable registry that comes to its end keeps the law. -/
theorem message_lawful {c : HostConfig} {w : World} {es : List Event} {r r' : Registry}
    {budget n : Nat} {name : String} {payload : HostValue} (h : Reached c w es r)
    (hs : r.sendMessage budget name payload = some (n, r')) :
    ∃ vs, MessageLaw r name payload vs n r' := by
  obtain ⟨vs, hrounds, hcount⟩ := Registry.sendMessage_rounds hs
  have hpath : Path r (vs.flatMap Round.told) r' := hrounds.path Registry.delivered_told rfl
  have harrivals := hrounds.arrivals
  have hdepartures := hrounds.departures
  rw [List.drop_zero] at harrivals
  rw [List.take_zero, List.nil_append] at hdepartures
  have hvisited := hrounds.visited Delivered.handle
  have hnewcomers : newcomers (vs.flatMap Round.told) =
      (vs.flatMap Round.loads).map fun a => a.before.name := by
    simp only [newcomers, List.filterMap_flatMap, List.map_flatMap]
    exact List.flatMap_congr fun v _ => Rounds.newcomers_told v
  refine ⟨vs, {
    rounds := hrounds
    steps := hpath
    list := ?_
    visited := hvisited
    once := ?_
    arrivals := harrivals
    departures := hdepartures.symm
    calls := hvisited ▸ hrounds.called
    named := fun v hv => (hrounds.each v hv).1.carried
    others := fun v hv => (hrounds.each v hv).1.passed
    handled := ?_
    requests := fun v hv => (hrounds.each v hv).2
    served := fun effects ha => hnewcomers ▸ hrounds.balanced Registry.delivered_told rfl effects ha
    drained := fun hne => hrounds.drained (.inr (List.length_pos_iff.mpr hne)) }⟩
  · have hhandles := congrArg (List.map Instance.handle) harrivals
    rw [List.map_append, List.map_map, List.map_map] at hhandles
    exact hvisited.symm.trans hhandles
  · -- numbers ascend along the list in every reachable registry
    have hascending := (h.op (o := .sendMessage name payload) (by rw [Op.run, hs]; rfl)
      hpath).orderly.ascending
    have hids : vs.map (fun v => v.arrived.id) = r'.instances.map Instance.id := by
      have := congrArg (List.map ScriptHandle.id) hvisited
      rwa [List.map_map, List.map_map] at this
    rw [hids]
    exact hascending.imp Nat.ne_of_lt
  · rw [hcount, hrounds.handled]
    refine List.countP_congr fun c hc => ?_
    obtain ⟨v, hv, hmem⟩ := List.mem_flatMap.mp hc
    have hanswers := (hrounds.each v hv).1.answers c hmem
    simpa using hanswers

set_option maxRecDepth 100000 in
/-- One handler asks for two more scripts, the next one fails, a third instance is stopped already,
and a script of another name is in between; the top level of a script that joins asks for one more
of the name. Three instances handle the message, of which two joined on the way. -/
theorem message_lawful_growing : ∃ (c : HostConfig) (w : World) (es : List Event)
    (r r' : Registry), Reached c w es r ∧ r.sendMessage 1000 "A" (.int 7) = some (3, r') ∧
      r.instances.map (fun i => (i.name, i.running)) =
        [("A", true), ("A", true), ("A", false), ("B", true)] ∧
      r'.instances.map (fun i => (i.name, i.running)) =
        [("A", true), ("A", false), ("A", false), ("B", true), ("A", true), ("C", true),
          ("A", true)] ∧
      ∃ vs, MessageLaw r "A" (.int 7) vs 3 r' := by
  let c : HostConfig := { scripts := { startup := [] } }
  let w : World := .ofScripts
    [("A.rhai", "fn OnMessage(m) \x7b let k = Data.Get(\"k\");
        if k == 1 \x7b Host.Add(\"A\"); Host.Add(\"C\"); \x7d
        if k == 2 \x7b throw m; \x7d \x7d"),
      ("B.rhai", "fn OnMessage(m) \x7b throw m; \x7d"), ("C.rhai", "Host.Add(\"A\");")]
  let ops : List Op := [.add "A", .add "A", .add "A", .add "B", .around (.seed 2 "k" (.int 2)),
    .sendMessage "A" .unit, .around (.seed 0 "k" (.int 1)), .around (.seed 1 "k" (.int 2))]
  have hrun : (Op.runAll 1000 (.start c w) ops).any (fun r =>
      r.instances.map (fun i => (i.name, i.running)) ==
          [("A", true), ("A", true), ("A", false), ("B", true)] &&
        (r.sendMessage 1000 "A" (.int 7)).any fun p =>
          p.1 == 3 && p.2.instances.map (fun i => (i.name, i.running)) ==
            [("A", true), ("A", false), ("A", false), ("B", true), ("A", true), ("C", true),
              ("A", true)]) = true := by
    decide +kernel
  obtain ⟨r, hr, hrun⟩ := (Option.any_eq_true _ _).mp hrun
  obtain ⟨hbefore, hrun⟩ := (Bool.and_eq_true _ _).mp hrun
  obtain ⟨⟨n, r'⟩, hs, hafter⟩ := (Option.any_eq_true _ _).mp hrun
  obtain ⟨hn, hafter⟩ := (Bool.and_eq_true _ _).mp hafter
  cases beq_iff_eq.mp hn
  obtain ⟨es, h⟩ := Reached.start.all hr
  exact ⟨c, w, _, r, r', h, hs, beq_iff_eq.mp hbefore, beq_iff_eq.mp hafter, message_lawful h hs⟩

end Stagehand
