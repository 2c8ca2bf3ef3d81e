import Stagehand.Proofs.Requests

/-!
# The law of a draw

A draw visits everything that is registered or joins on the way, scans the sources, and only then
takes out the instances whose removal was asked for. Up to the end of the scan the list can only get
longer (`Path.handles`), so that requests for removal, whoever makes them and however early, have no
say in who is drawn; and what the scan's own top levels ask for still counts. The numbers of those
that left are never given again, so nothing happens to them any more (`Path.absent`).
-/

namespace Stagehand

open Lang

/-- Who joins in an event. -/
def Event.joins : Event → List ScriptHandle
  | .joined a => [a.after.handle]
  | _ => []

section Lists

variable {r r' : Registry} {e : Event} {es : List Event} {id : InstanceId}

theorem Act.handles (h : Act r e r') (hstays : e.removes = false) :
    r'.instances.map Instance.handle = r.instances.map Instance.handle ++ e.joins := by
  have of_set {place : Nat} {i i' : Instance} (hi : r.instances[place]? = some i)
      (hsame : i'.handle = i.handle) :
      (r.instances.set place i').map Instance.handle = r.instances.map Instance.handle ++ [] := by
    rw [List.map_set, hsame, List.append_nil]
    exact set_self (by simp [hi])
  have hsame : ∀ {i i'}, e.change? = some (i, i') → i'.handle = i.handle := h.handle
  cases h with
  | joined => exact List.map_append
  | tried _ hi | called _ hi | invoked _ hi | started _ hi => exact of_set hi (hsame rfl)
  | left => nomatch hstays
  | chore c => cases c <;> exact (List.append_nil _).symm

/-- Along a path on which nobody leaves, those who join come behind the others. -/
theorem Path.handles (h : Path r es r') (hstays : ∀ e ∈ es, e.removes = false) :
    r'.instances.map Instance.handle =
      r.instances.map Instance.handle ++ es.flatMap Event.joins := by
  induction h with
  | refl => simp
  | step hact _ ih =>
      obtain ⟨hfirst, hrest⟩ := List.forall_mem_cons.mp hstays
      rw [ih hrest, hact.handles hfirst, List.append_assoc, List.flatMap_cons]

/-- A number that was given out and that nobody has: no act is about it, and nobody gets it. -/
theorem Act.absent {past : List Event} (h : Act r e r') (hst : Standing past r)
    (hid : id < r.nextId) (hnone : ∀ i ∈ r.instances, i.id ≠ id) :
    e.subject? ≠ some id ∧ ∀ i ∈ r'.instances, i.id ≠ id := by
  have hsubject : e.subject? ≠ some id := by
    intro hs
    obtain ⟨⟨i, i'⟩, hc, rfl⟩ := Option.map_eq_some_iff.mp hs
    rcases h.subject_cases hc with hi | ⟨⟨name, rfl⟩, -⟩
    · exact hnone i hi rfl
    · exact Nat.lt_irrefl _ hid
  refine ⟨hsubject, fun i' hi' heq => ?_⟩
  rcases h.instance_cases hst.toOrderly hi' with ⟨i, hc⟩ | ⟨hi, -⟩
  · refine hsubject ?_
    rw [Event.subject?, hc, ← heq, h.id hc]
    rfl
  · exact hnone i' hi heq

theorem Path.absent {past : List Event} (h : Path r es r') (hst : Standing past r)
    (hid : id < r.nextId) (hnone : ∀ i ∈ r.instances, i.id ≠ id) :
    ∀ e ∈ es, e.subject? ≠ some id := by
  induction h generalizing past with
  | refl => exact List.forall_mem_nil _
  | step hact _ ih =>
      obtain ⟨hfirst, hnone'⟩ := hact.absent hst hid hnone
      have hrest := ih (hst.act hact) (Nat.lt_of_lt_of_le hid hact.nextId_le) hnone'
      exact List.forall_mem_cons.mpr ⟨hfirst, hrest⟩

/-- Those whose removal was asked for are taken out; the others and what is theirs stay as they
are. -/
theorem Registry.applyRemovals_cases (r : Registry) :
    r.applyRemovals.instances =
        r.instances.filter (fun i => !r.world.removals.pending.contains i.id) ∧
      r.applyRemovals.world.removals = {} ∧
      r.applyRemovals.nextId = r.nextId ∧
      r.applyRemovals.world.stores = r.world.stores ∧
      ∀ id, id ∉ r.world.removals.pending → r.applyRemovals.world.realm id = r.world.realm id := by
  unfold Registry.applyRemovals World.takeRemovals
  dsimp only
  split
  · rename_i hempty
    rw [List.isEmpty_iff.mp hempty]
    exact ⟨by simp, rfl, rfl, rfl, fun _ _ => rfl⟩
  · obtain ⟨⟨realms, heq⟩, hothers⟩ :=
      World.foldl_forget r.world.removals.pending { r.world with removals := {} }
    have hremovals := congrArg World.removals heq
    have hstores := congrArg World.stores heq
    exact ⟨rfl, hremovals, rfl, hstores, hothers⟩

end Lists

/-- A draw, step by step: the rounds of the pass, the registry behind it, the events of the scan,
and the registry in front of the removals. -/
structure Drawing where
  rounds : List (Round (List Call))
  passed : Registry
  tries : List Event
  scanned : Registry

/-- The events of a draw up to the removals. -/
def Drawing.events (D : Drawing) (surface : ImageId) : List Event :=
  .chore (.display surface) :: D.rounds.flatMap Round.told ++ D.tries

/-- Those whose removal was asked for by the end of the scan. -/
def Drawing.gone (D : Drawing) : List InstanceId := D.scanned.world.removals.pending

/-- The draw of a registry on a surface, from one registry to the other. Everyone who was registered
or joined on the way was drawn once, in the order of the list; nobody left before the removals; and
the removals took out exactly those whose removal anyone had asked for since the last ones. -/
structure DrawLaw (past : List (Op × List Event)) (r : Registry) (surface : ImageId) (D : Drawing)
    (result : Except ScanError Unit) (r' : Registry) : Prop where
  pass : Rounds (Drawn r.libraries) 0
    { r with world := r.world.modifyHost fun h => { h with screen := surface } } D.rounds D.passed
  arrivals : D.rounds.map Round.arrived =
    r.instances ++ (D.rounds.flatMap Round.loads).map Attempt.after
  departures : D.rounds.map Round.departed = D.passed.instances
  visits : ∀ v ∈ D.rounds, Drawn r.libraries v.arrived v.world v.result v.departed v.left
  once : (D.rounds.map fun v => v.arrived.id).Nodup
  steps : Path r (D.events surface) D.scanned
  stays : ∀ pre mid post r₁ r₂, D.events surface = pre ++ mid ++ post → Path r pre r₁ →
    Path r₁ mid r₂ → r₁.instances.map Instance.handle <+: r₂.instances.map Instance.handle
  scan : ∃ scanned, Scanned D.passed D.passed.scripts.dir scanned D.tries ∧
    Path D.passed D.tries D.scanned ∧ result = scanned.map fun _ => ()
  list : D.scanned.instances.map Instance.handle = D.passed.instances.map Instance.handle
  ends : r' = D.scanned.applyRemovals
  left : r'.instances = D.scanned.instances.filter fun i => !D.gone.contains i.id
  accounted : ∃ effects, Accounted (sinceTaken (eventsOf past ++ D.events surface)) effects
  asked : ∀ effects, Accounted (sinceTaken (eventsOf past ++ D.events surface)) effects →
    ∀ id, id ∈ D.gone ↔ .requestRemoval id ∈ effects
  since : ∀ before o es after, past = before ++ (o, es) :: after → o.clears = true →
    (∀ p ∈ after, p.1.clears = false) → sinceTaken (eventsOf past ++ D.events surface) =
      sinceTaken es ++ eventsOf after ++ D.events surface
  first : (∀ p ∈ past, p.1.clears = false) → sinceTaken (eventsOf past ++ D.events surface) =
    eventsOf past ++ D.events surface
  survivors : ∀ id, id ∉ D.gone → r'.world.realm id = D.scanned.world.realm id
  stores : r'.world.stores = D.scanned.world.stores
  empty : r'.world.removals.pending = []
  silent : ∀ i ∈ D.scanned.instances, i.id ∈ D.gone → ∀ new r'', Path r' new r'' →
    ∀ e ∈ new, e.subject? ≠ some i.id
  failed : ∀ e, result = .error e → D.tries = [] ∧ D.scanned = D.passed

theorem Drawn.handle {libraries : Libraries} {i i' : Instance} {calls : List Call} {w w' : World}
    (h : Drawn libraries i w calls i' w') : i'.handle = i.handle := by
  cases h with
  | drawn hdispatch => exact (Instance.dispatch_continues hdispatch).handle

/-- Nobody leaves in front of the removals. -/
theorem Drawing.stays (D : Drawing) (surface : ImageId) {scanned : Except ScanError Nat}
    {root : FilePath} (hscan : Scanned D.passed root scanned D.tries) :
    ∀ e ∈ D.events surface, e.removes = false := by
  intro e he
  rcases List.mem_append.mp he with he | he
  · rcases List.mem_cons.mp he with rfl | he
    · rfl
    · exact Round.stays e he
  · rcases hscan.cases e he with ⟨a, rfl⟩ | ⟨l, rfl⟩ <;> rfl

namespace Annals

variable {c : HostConfig} {w : World} {past : List (Op × List Event)} {r : Registry}

theorem not_takes (h : Annals c w past r) {after : List (Op × List Event)} (hsub : after ⊆ past)
    (hclears : ∀ p ∈ after, p.1.clears = false) : ∀ e ∈ eventsOf after, e.takes = false := by
  intro e he
  obtain ⟨p, hp, hmem⟩ := List.mem_flatMap.mp he
  obtain ⟨r₁, ht⟩ := h.told p (hsub hp)
  exact Event.not_takes (ht.stays (hclears p hp) e hmem)

/-- What came since the last draw, or since all started anew. -/
theorem since_cleared (h : Annals c w past r) {before after : List (Op × List Event)} {o : Op}
    {es new : List Event}
    (heq : past = before ++ (o, es) :: after) (hc : o.clears = true)
    (hclears : ∀ p ∈ after, p.1.clears = false) (hnew : ∀ e ∈ new, e.takes = false) :
    sinceTaken (eventsOf past ++ new) = sinceTaken es ++ eventsOf after ++ new := by
  obtain ⟨r₁, ht⟩ := h.told (o, es) (by simp [heq])
  have hafter := h.not_takes (by simp [heq]) hclears
  have hevents : eventsOf past ++ new = (eventsOf before ++ es) ++ (eventsOf after ++ new) := by
    simp [heq, eventsOf]
  rw [hevents, sinceTaken_append, sinceTaken_of_takes _ (ht.taken hc), List.append_assoc]
  intro e he
  exact (List.mem_append.mp he).elim (hafter e) (hnew e)

end Annals

/-- Every draw of a reachable registry that comes to its end keeps the law, if no removal was asked
for at the start. -/
theorem draw_lawful {c : HostConfig} {w : World} {past : List (Op × List Event)} {r r' : Registry}
    {budget : Nat} {surface : ImageId} {result : Except ScanError Unit} (h : Annals c w past r)
    (hw : w.removals = {}) (hd : r.draw budget surface = some (result, r')) :
    ∃ D, DrawLaw past r surface D result r' := by
  obtain ⟨vs, r₁, r₂, scanned, tries, hrounds, hscan, htries, rfl, rfl⟩ := Registry.draw_rounds hd
  let D : Drawing := ⟨vs, r₁, tries, r₂⟩
  have hpass : Path r (.chore (.display surface) :: vs.flatMap Round.told) r₁ :=
    .step (.chore (.display surface)) (hrounds.path Registry.drawn_told rfl)
  have hsteps : Path r (D.events surface) r₂ := hpass.trans htries
  have hremoves : ∀ e ∈ D.events surface, e.removes = false := D.stays surface hscan
  have htakes : ∀ e ∈ D.events surface, e.takes = false :=
    fun e he => Event.not_takes (hremoves e he)
  have hall := h.path.trans hsteps
  have hst := h.standing.path hsteps
  have hend := hst.path r₂.applyRemovals_path
  obtain ⟨hleft, hempty, hnext, hstores, hrealms⟩ := r₂.applyRemovals_cases
  have harrivals := hrounds.arrivals
  have hdepartures := hrounds.departures
  rw [List.drop_zero] at harrivals
  rw [List.take_zero, List.nil_append] at hdepartures
  refine ⟨D, {
    pass := hrounds
    arrivals := harrivals
    departures := hdepartures.symm
    visits := fun v hv => (hrounds.each v hv).1
    once := ?_
    steps := hsteps
    stays := ?_
    scan := ⟨scanned, hscan, htries, rfl⟩
    list := ?_
    ends := rfl
    left := hleft
    accounted := hall.accounted_since
    asked := fun effects ha => (hall.asked hw).mem_pending ha
    since := fun before o es after heq hc hclears => h.since_cleared heq hc hclears htakes
    first := ?_
    survivors := hrealms
    stores := hstores
    empty := congrArg RemovalQueue.pending hempty
    silent := ?_
    failed := ?_ }⟩
  · -- numbers ascend along the list behind the pass, and a visit leaves the instance its number
    have hids := congrArg (List.map ScriptHandle.id) (hrounds.visited Drawn.handle)
    rw [List.map_map, List.map_map] at hids
    exact hids ▸ (h.standing.path hpass).ascending.imp Nat.ne_of_lt
  · intro pre mid post a b heq hpre hmid
    have hmem : ∀ e ∈ mid, e.removes = false := fun e he => hremoves e (by simp [heq, he])
    exact ⟨_, (hmid.handles hmem).symm⟩
  · have hnobody : tries.flatMap Event.joins = [] := by
      refine List.flatMap_eq_nil_iff.mpr fun e he => ?_
      rcases hscan.cases e he with ⟨a, rfl⟩ | ⟨l, rfl⟩ <;> rfl
    have hmem : ∀ e ∈ tries, e.removes = false := fun e he =>
      hremoves e (List.mem_append_right _ he)
    rw [htries.handles hmem, hnobody, List.append_nil]
  · intro hclears
    have hpast := h.not_takes (List.Subset.refl past) hclears
    rw [← List.nil_append (eventsOf past ++ _), sinceTaken_append]
    · rfl
    · intro e he
      exact (List.mem_append.mp he).elim (hpast e) (htakes e)
  · intro i hi hgone new r'' hp
    refine hp.absent hend (hnext.symm ▸ hst.below i hi) fun j hj heq => ?_
    rw [hleft] at hj
    have hkept := (List.mem_filter.mp hj).2
    rw [heq, Bool.not_eq_true', Bool.eq_false_iff] at hkept
    exact hkept (List.contains_iff_mem.mpr hgone)
  · intro e hresult
    cases hscan with
    | failed =>
        cases htries
        exact ⟨rfl, rfl⟩
    | done => nomatch hresult

set_option maxRecDepth 100000 in
/-- A script asks for its own removal and for another script, which is drawn in the same pass and
stays alone. -/
theorem draw_lawful_leaving : ∃ (c : HostConfig) (w : World) (past : List (Op × List Event))
    (r r' : Registry) (result : Except ScanError Unit), Annals c w past r ∧
      r.draw 1000 0 = some (result, r') ∧ r.instances.map Instance.name = ["A"] ∧
      r'.instances.map Instance.name = ["B"] ∧ ∃ D, DrawLaw past r 0 D result r' := by
  let c : HostConfig := { scripts := { startup := [] } }
  let w : World :=
    .ofScript "A.rhai" "fn OnDraw() \x7b Script.Remove(); Host.Add(\"B\"); \x7d"
  have hrun : (Op.runAll 1000 (.start c w) [.add "A"]).any (fun r =>
      r.instances.map Instance.name == ["A"] && (r.draw 1000 0).any fun p =>
        p.2.instances.map Instance.name == ["B"]) = true := by
    decide +kernel
  obtain ⟨r, hr, hrun⟩ := (Option.any_eq_true _ _).mp hrun
  obtain ⟨hbefore, hrun⟩ := (Bool.and_eq_true _ _).mp hrun
  obtain ⟨⟨result, r'⟩, hd, hafter⟩ := (Option.any_eq_true _ _).mp hrun
  obtain ⟨past, -, h⟩ := Annals.start.all hr
  exact ⟨c, w, past, r, r', result, h, hd, beq_iff_eq.mp hbefore, beq_iff_eq.mp hafter,
    draw_lawful h rfl hd⟩

end Stagehand
