import Stagehand.Proofs.Annals

/-!
# Stopped instances

A dispatch that fails stops its instance, a load that succeeds starts it again, and nothing else
touches the flag. So the flag can be read off the events (`Standing.running`), and what happens to it
on the way from one registry to another needs no induction: a stop that is not in the past came on
the way (`stops_of_append`), and a stop in the past is made good only on the way
(`stopped_append`). Whoever is stopped runs nothing at all (`Standing.silent`).
-/

namespace Stagehand

open Lang

variable {es new : List Event} {id : InstanceId} {r r' : Registry} {e : Event} {d : Call}

theorem stopped_append (h : Stopped id es)
    (hnew : ∀ l ∈ new, l.subject? = some id → l.loads = false) : Stopped id (es ++ new) := by
  obtain ⟨pre, f, post, rfl, hf, hstops, hpost⟩ := h
  refine ⟨pre, f, post ++ new, by simp, hf, hstops, fun l hl => ?_⟩
  rcases List.mem_append.mp hl with hl | hl
  · exact hpost l hl
  · exact hnew l hl

theorem stops_of_append (h : Stopped id (es ++ new)) (hes : ¬ Stopped id es) :
    ∃ e ∈ new, e.subject? = some id ∧ e.stops = true := by
  obtain ⟨pre, f, post, heq, hf, hstops, hpost⟩ := h
  rcases List.append_eq_append_iff.mp heq with ⟨mid, -, rfl⟩ | ⟨mid, rfl, hmid⟩
  · exact ⟨f, by simp, hf, hstops⟩
  · cases mid with
    | nil =>
        rw [List.nil_append] at hmid
        exact ⟨f, by simp [← hmid], hf, hstops⟩
    | cons g rest =>
        -- the stop is in the past, and what is behind it in the past is behind it altogether
        obtain ⟨rfl, rfl⟩ := List.cons.inj hmid
        refine absurd ⟨pre, f, rest, rfl, hf, hstops, fun l hl => ?_⟩ hes
        exact hpost l (List.mem_append_left _ hl)

/-- To have been loaded is to have had an event that loads. -/
theorem loaded_iff : (∃ a ∈ attemptsOn id es, a.succeeded = true) ↔
    ∃ e ∈ es, e.subject? = some id ∧ e.loads = true := by
  simp only [attemptsOn, List.mem_filter, List.mem_filterMap, beq_iff_eq]
  constructor
  · rintro ⟨a, ⟨⟨e, he, ha⟩, hid⟩, hs⟩
    cases e with
    | joined | tried =>
        cases ha
        exact ⟨_, he, congrArg some hid, hs⟩
    | called | invoked | started | left | chore => cases ha
  · rintro ⟨e, he, hid, hs⟩
    cases e with
    | joined a | tried a => exact ⟨a, ⟨⟨_, he, rfl⟩, Option.some.inj hid⟩, hs⟩
    | called | invoked | started | left | chore => cases hs

namespace Act

/-- Who is called is registered. -/
theorem caller_mem (h : Act r e r') (hc : e.call? = some d) : d.before ∈ r.instances := by
  cases h with
  | called _ hi | invoked _ hi | started _ hi =>
      cases hc
      exact List.mem_of_getElem? hi
  | joined | tried | left | chore => nomatch hc

/-- Who does not answer a call runs nothing, and nothing changes. -/
theorem silent (h : Act r e r') (hc : e.call? = some d) (hnot : ¬ d.before.Answers d.entry) :
    d.executed = false ∧ d.after = d.before ∧ d.left = d.world := by
  rcases Call.cases_of_act h hc with ⟨-, ha⟩ | ⟨hx, -, hafter, hleft⟩
  · exact absurd ha hnot
  · exact ⟨hx, hafter, hleft⟩

end Act

namespace Standing

theorem silent (h : Standing es r) (ha : Act r e r') (hc : e.call? = some d)
    (hs : Stopped d.before.id es) :
    d.executed = false ∧ d.after = d.before ∧ d.left = d.world := by
  refine ha.silent hc fun hanswers => ?_
  exact ((h.running _ (ha.caller_mem hc)).mp hanswers.1).2 hs

theorem ready_iff (h : Standing es r) {i : Instance} (hi : i ∈ r.instances) :
    i.state = .ready ↔ ∃ e ∈ es, e.subject? = some i.id ∧ e.loads = true :=
  (h.lifecycle i hi).loaded.trans loaded_iff

variable {i i' : Instance}

theorem stopped_of (h : Standing es r) (hi : i ∈ r.instances) (hready : i.state = .ready)
    (hr : i.running = false) : Stopped i.id es := by
  by_cases hs : Stopped i.id es
  · exact hs
  · have hrunning := (h.running i hi).mpr ⟨hready, hs⟩
    nomatch hr.symm.trans hrunning

/-- An instance that stops on the way was stopped by a dispatch of it that failed. -/
theorem stopped_by (h : Standing es r) (hp : Path r new r') (hi : i ∈ r.instances)
    (hi' : i' ∈ r'.instances) (hid : i'.id = i.id) (hr : i.running = true)
    (hr' : i'.running = false) : ∃ e ∈ new, e.subject? = some i.id ∧ e.stops = true := by
  obtain ⟨hready, hnot⟩ := (h.running i hi).mp hr
  have h' := h.path hp
  have hready' : i'.state = .ready := by
    obtain ⟨e, he, hsubject, hloads⟩ := (h.ready_iff hi).mp hready
    exact (h'.ready_iff hi').mpr ⟨e, List.mem_append_left _ he, hid ▸ hsubject, hloads⟩
  exact stops_of_append (hid ▸ h'.stopped_of hi' hready' hr') hnot

/-- An instance that starts on the way was started by a load of it that succeeded. -/
theorem started_by (h : Standing es r) (hp : Path r new r') (hi : i ∈ r.instances)
    (hi' : i' ∈ r'.instances) (hid : i'.id = i.id) (hr : i.running = false)
    (hr' : i'.running = true) : ∃ e ∈ new, e.subject? = some i.id ∧ e.loads = true := by
  have h' := h.path hp
  obtain ⟨hready', hnot'⟩ := (h'.running i' hi').mp hr'
  rw [hid] at hnot'
  by_cases hready : i.state = .ready
  · by_cases hsome : ∃ e ∈ new, e.subject? = some i.id ∧ e.loads = true
    · exact hsome
    · -- without a load the stop would still stand
      refine absurd (stopped_append (h.stopped_of hi hready hr) fun l hl hsubject => ?_) hnot'
      exact Bool.eq_false_iff.mpr fun hloads => hsome ⟨l, hl, hsubject, hloads⟩
  · obtain ⟨e, he, hsubject, hloads⟩ := (h'.ready_iff hi').mp hready'
    rw [hid] at hsubject
    rcases List.mem_append.mp he with he | he
    · exact absurd ((h.ready_iff hi).mpr ⟨e, he, hsubject, hloads⟩) hready
    · exact ⟨e, he, hsubject, hloads⟩

end Standing

/-- Between a dispatch that fails and the next load that succeeds no call runs anything, and neither
does a call of a faulted instance. Along every way that history goes on, only such events stop or
start an instance. -/
structure SilenceLaw (past : List (Op × List Event)) (r : Registry) : Prop where
  running : ∀ i ∈ r.instances,
    i.running = true ↔ i.state = .ready ∧ ¬ Stopped i.id (eventsOf past)
  silent : ∀ pre f mid g post id d, eventsOf past = pre ++ f :: (mid ++ g :: post) →
    f.subject? = some id → f.stops = true →
    (∀ l ∈ mid, l.subject? = some id → l.loads = false) →
    g.call? = some d → d.before.id = id →
      d.executed = false ∧ d.after = d.before ∧ d.left = d.world
  faulted : ∀ e ∈ eventsOf past, ∀ d, e.call? = some d → d.before.state = .faulted →
    d.executed = false ∧ d.after = d.before ∧ d.left = d.world
  changes : ∀ {mid new r₁ r₂}, Path r mid r₁ → Path r₁ new r₂ → ∀ i ∈ r₁.instances,
    ∀ i' ∈ r₂.instances, i'.id = i.id →
      (i.running = true → i'.running = false →
        ∃ e ∈ new, e.subject? = some i.id ∧ e.stops = true) ∧
      (i.running = false → i'.running = true →
        ∃ e ∈ new, e.subject? = some i.id ∧ e.loads = true)

/-- Whatever is done with a registry and with its instances. -/
theorem stopped_silent {c : HostConfig} {w : World} {past : List (Op × List Event)} {r : Registry}
    (h : Annals c w past r) : SilenceLaw past r where
  running := h.standing.running
  silent pre f mid g post id d he hf hstops hmid hc hid := by
    have hsplit : eventsOf past = (pre ++ f :: mid) ++ g :: post := by simp [he]
    obtain ⟨r₁, r₂, hst, hact, -⟩ := h.at_event hsplit
    refine hst.silent hact hc ?_
    rw [hid]
    exact ⟨pre, f, mid, rfl, hf, hstops, hmid⟩
  faulted e he d hc hfaulted := by
    obtain ⟨pre, post, hsplit⟩ := List.append_of_mem he
    obtain ⟨r₁, r₂, -, hact, -⟩ := h.at_event hsplit
    refine hact.silent hc fun hanswers => ?_
    nomatch hfaulted.symm.trans hanswers.2.1
  changes hmid hnew i hi i' hi' hid := by
    have hst := h.standing.path hmid
    exact ⟨hst.stopped_by hnew hi hi' hid, hst.started_by hnew hi hi' hid⟩

set_option maxRecDepth 100000 in
/-- A script fails in an update, then in a load, and stays stopped through a message and another
update. -/
theorem stopped_silent_failing : ∃ (c : HostConfig) (w : World) (past : List (Op × List Event))
    (r : Registry), Annals c w past r ∧
      (r.instances.map fun i => (i.state, i.running, i.lastError.isSome, i.generation)) =
        [(.ready, false, true, some 1)] ∧ SilenceLaw past r := by
  let c : HostConfig := { scripts := { startup := [] } }
  let w : World :=
    .ofScripts [("A.rhai", "fn OnUpdate() \x7b throw 1 \x7d fn OnMessage(m) \x7b \x7d")]
  let ops : List Op := [.add "A", .update, .around (.edit (.ofScripts [("A.rhai", "throw 2")])),
    .reload "A", .sendMessage "A" (.int 3), .update]
  have hrun : (Op.runAll 1000 (.start c w) ops).any (fun r =>
      (r.instances.map fun i => (i.state, i.running, i.lastError.isSome, i.generation)) ==
        [(.ready, false, true, some 1)]) = true := by
    decide +kernel
  obtain ⟨r, hr, hshows⟩ := (Option.any_eq_true _ _).mp hrun
  obtain ⟨past, -, h⟩ := Annals.start.all hr
  exact ⟨c, w, past, r, h, beq_iff_eq.mp hshows, stopped_silent h⟩

end Stagehand
