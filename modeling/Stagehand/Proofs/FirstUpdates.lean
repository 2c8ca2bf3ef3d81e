import Stagehand.Proofs.Annals

/-!
# First updates

An instance has its first update when an update finds it ready for the first time. `OnInit` is called
then and at no other time, so that it runs once at most, and before every `OnUpdate`
(`init_runs_once`). That it runs at all is another matter: a first update asks whether the instance
is ready, a call also asks whether it runs, and the instance has had its first update in any case. An
instance that was stopped before its first update therefore never runs `OnInit`, and goes on without
it when a load starts it again (`init_law`, `init_can_be_lost`).
-/

namespace Stagehand

open Lang

/-- The operation is one on a registry: no call of an entry point at the will of the host. -/
def Op.ofRegistry : Op → Bool
  | .dispatchOne _ _ _ | .invokeOne _ _ _ => false
  | _ => true

theorem Instance.Continues.entryPoints {i i' : Instance} (h : i.Continues i') :
    i'.entryPoints = i.entryPoints := by
  have hentries : i'.binding.map Binding.entries = i.binding.map Binding.entries := by
    have := congrArg (Option.map Binding.entries) h.program
    simpa [Option.map_map, Function.comp_def, Binding.program] using this
  unfold Instance.entryPoints
  cases hb : i.binding <;> cases hb' : i'.binding <;> simp_all

/-- If no element with a property comes behind another, one element at most has it. -/
theorem countP_le_one {α : Type} {p : α → Bool} : ∀ {as : List α},
    (∀ pre a post, as = pre ++ a :: post → p a = true → ∀ b ∈ pre, p b = false) →
      as.countP p ≤ 1
  | [], _ => Nat.zero_le 1
  | a :: rest, h => by
    by_cases ha : p a = true
    · have hnone : rest.countP p = 0 := by
        refine List.countP_eq_zero.mpr fun b hb hpb => ?_
        obtain ⟨pre, post, rfl⟩ := List.append_of_mem hb
        have hfirst := h (a :: pre) b post rfl hpb a List.mem_cons_self
        rw [ha] at hfirst
        nomatch hfirst
      have hone : (a :: rest).countP p = 1 := by rw [List.countP_cons_of_pos ha, hnone]
      exact Nat.le_of_eq hone
    · rw [List.countP_cons_of_neg ha]
      refine countP_le_one fun pre b post heq hb l hl => ?_
      exact h (a :: pre) b post (by rw [heq]; rfl) hb l (List.mem_cons_of_mem _ hl)

namespace Op.Calls

variable {o : Op} {e : Event} {id : InstanceId}

/-- `OnInit` runs in first updates alone. -/
theorem runs_init (h : o.Calls e) (ho : o.ofRegistry = true) (hr : e.runs .onInit id = true) :
    o = .update ∧ ∃ d, e = .started d ∧ d.before.id = id ∧ d.executed = true := by
  obtain ⟨d, hc, hentry, hid, hx⟩ := Event.runs_iff.mp hr
  cases h with
  | first =>
      cases hc
      exact ⟨rfl, d, rfl, hid, hx⟩
  | update he | draw he | message he =>
      cases hc
      nomatch he.symm.trans hentry
  | dispatched | invoked => nomatch ho

theorem runs_update (h : o.Calls e) (ho : o.ofRegistry = true)
    (hr : e.runs .onUpdate id = true) : ∃ d, e = .called d ∧ d.before.id = id ∧
      d.executed = true ∧ (d.before.state = .ready → d.before.initialized = true) := by
  obtain ⟨d, hc, hentry, hid, hx⟩ := Event.runs_iff.mp hr
  cases h with
  | update _ hn =>
      cases hc
      exact ⟨d, rfl, hid, hx, hn⟩
  | first he | draw he | message he =>
      cases hc
      nomatch he.symm.trans hentry
  | dispatched | invoked => nomatch ho

end Op.Calls

/-- What a first update finds: an instance that is ready, had none before, and runs unless it was
stopped. -/
structure FirstUpdate (pre : List Event) (d : Call) : Prop where
  entry : d.entry = .onInit
  ready : d.before.state = .ready
  new : ¬ Started d.before.id pre
  running : d.before.running = true ↔ ¬ Stopped d.before.id pre
  entryPoints : d.after.entryPoints = d.before.entryPoints
  executed : d.executed = true ↔ d.before.Answers .onInit

theorem FirstUpdate.executed_iff {pre : List Event} {d : Call} (h : FirstUpdate pre d)
    (hinit : .onInit ∈ d.before.entryPoints) : d.executed = true ↔ ¬ Stopped d.before.id pre := by
  rw [h.executed, ← h.running]
  exact ⟨fun ha => ha.1, fun hrunning => ⟨hrunning, h.ready, hinit⟩⟩

namespace Annals

variable {c : HostConfig} {w : World} {past : List (Op × List Event)} {r : Registry} {e : Event}
  {d : Call} {entry : EntryPoint} {id : InstanceId} {pre post : List Event}

theorem calls (h : Annals c w past r) {p : Op × List Event} (hp : p ∈ past) (he : e ∈ p.2)
    (hr : e.runs entry id = true) : p.1.Calls e := by
  obtain ⟨d, hc, -⟩ := Event.runs_iff.mp hr
  obtain ⟨r₁, ht⟩ := h.told p hp
  exact ht.calls he hc

theorem at_start (h : Annals c w past r) (he : eventsOf past = pre ++ .started d :: post) :
    FirstUpdate pre d := by
  obtain ⟨r₁, r₂, hst, hact, -⟩ := h.at_event he
  have hcall := Call.cases_of_act hact rfl
  cases hact with
  | started place hi hw hentry hs hn hg =>
      obtain ⟨budget, hdispatch⟩ := hg
      have hmem := List.mem_of_getElem? hi
      have hcontinues := Instance.dispatch_continues hdispatch
      refine ⟨hentry, hs, ?_, ?_, hcontinues.entryPoints, ?_⟩
      · rw [← hst.initialized _ hmem, hn]
        nofun
      · rw [hst.running _ hmem]
        exact and_iff_right hs
      · rw [hentry] at hcall
        rcases hcall with ⟨hx, ha⟩ | ⟨hx, hnot, -⟩
        · exact iff_of_true hx ha
        · exact iff_of_false (by rw [hx]; nofun) hnot

theorem runs_init (h : Annals c w past r) (ho : ∀ o ∈ past.map Prod.fst, o.ofRegistry = true)
    (he : e ∈ eventsOf past) (hr : e.runs .onInit id = true) :
    ∃ d, e = .started d ∧ d.before.id = id ∧ d.executed = true := by
  obtain ⟨p, hp, hmem⟩ := List.mem_flatMap.mp he
  exact ((h.calls hp hmem hr).runs_init (ho p.1 (List.mem_map_of_mem hp)) hr).2

theorem runs_update (h : Annals c w past r) (ho : ∀ o ∈ past.map Prod.fst, o.ofRegistry = true)
    (he : eventsOf past = pre ++ e :: post) (hr : e.runs .onUpdate id = true) :
    Started id pre := by
  have hmem : e ∈ eventsOf past := by simp [he]
  obtain ⟨p, hp, hmem⟩ := List.mem_flatMap.mp hmem
  have hmade := h.calls hp hmem hr
  obtain ⟨d, rfl, rfl, hx, hn⟩ := hmade.runs_update (ho p.1 (List.mem_map_of_mem hp)) hr
  obtain ⟨r₁, r₂, hst, hact, -⟩ := h.at_event he
  -- what runs is ready, and what is ready has `OnUpdate` called only behind its first update
  rcases Call.cases_of_act hact rfl with ⟨-, ha⟩ | ⟨hnot, -⟩
  · cases hact with
    | called place hi _ _ =>
        exact (hst.initialized _ (List.mem_of_getElem? hi)).mp (hn ha.2.1)
  · rw [hx] at hnot
    nomatch hnot

theorem start_unique (h : Annals c w past r) (he : eventsOf past = pre ++ .started d :: post)
    {d' : Call} (hmem : .started d' ∈ eventsOf past) (hid : d'.before.id = d.before.id) :
    d' = d := by
  rw [he] at hmem
  have hnot := (h.at_start he).new
  rcases List.mem_append.mp hmem with hpre | hmem
  · exact absurd ⟨_, hpre, congrArg some hid, rfl⟩ hnot
  rcases List.mem_cons.mp hmem with heq | hpost
  · cases heq
    rfl
  · obtain ⟨mid, rest, rfl⟩ := List.append_of_mem hpost
    have he' : eventsOf past = (pre ++ .started d :: mid) ++ .started d' :: rest := by simp [he]
    have hlater := (h.at_start he').new
    have hstarted : Started d'.before.id (pre ++ .started d :: mid) :=
      ⟨.started d, by simp, congrArg some hid.symm, rfl⟩
    exact absurd hstarted hlater

/-- A first update decides for good whether `OnInit` runs. -/
theorem init_decided (h : Annals c w past r) (ho : ∀ o ∈ past.map Prod.fst, o.ofRegistry = true)
    (he : eventsOf past = pre ++ .started d :: post) :
    (∃ e ∈ eventsOf past, e.runs .onInit d.before.id = true) ↔ d.executed = true := by
  constructor
  · rintro ⟨e, hmem, hr⟩
    obtain ⟨d', rfl, hid, hx⟩ := h.runs_init ho hmem hr
    rwa [← h.start_unique he hmem hid]
  · intro hx
    refine ⟨.started d, by simp [he], Event.runs_iff.mpr ⟨d, rfl, ?_, rfl, hx⟩⟩
    exact (h.at_start he).entry

end Annals

/-! ## `OnInit` runs once at most -/

/-- `OnInit` runs once at most for each number, in an update, and before `OnUpdate` does. An instance
that had its first update has had it whatever comes. -/
structure InitOnce (past : List (Op × List Event)) (r : Registry) : Prop where
  once : ∀ id, (eventsOf past).countP (Event.runs .onInit id) ≤ 1
  within : ∀ p ∈ past, ∀ e ∈ p.2, ∀ id, e.runs .onInit id = true → p.1 = .update
  first : ∀ pre e post id, eventsOf past = pre ++ e :: post → e.runs .onInit id = true →
    ∀ l ∈ pre, l.runs .onUpdate id = false
  distinct : (r.instances.map Instance.id).Nodup
  kept : ∀ i ∈ r.instances, i.initialized = true → ∀ new r', Path r new r' →
    ∀ i' ∈ r'.instances, i'.id = i.id → i'.initialized = true

/-- Whatever is done with a registry, and however the files change. -/
theorem init_runs_once {c : HostConfig} {w : World} {past : List (Op × List Event)} {r : Registry}
    (h : Annals c w past r) (ho : ∀ o ∈ past.map Prod.fst, o.ofRegistry = true) :
    InitOnce past r where
  once id := by
    refine countP_le_one fun pre e post he hr l hl => Bool.eq_false_iff.mpr fun hl' => ?_
    obtain ⟨d, rfl, rfl, -⟩ := h.runs_init ho (by simp [he]) hr
    obtain ⟨d', rfl, hid, -⟩ := h.runs_init ho (by simp [he, hl]) hl'
    exact (h.at_start he).new ⟨_, hl, congrArg some hid, rfl⟩
  within p hp e he id hr := ((h.calls hp he hr).runs_init (ho p.1 (List.mem_map_of_mem hp)) hr).1
  first pre e post id he hr l hl := by
    refine Bool.eq_false_iff.mpr fun hl' => ?_
    obtain ⟨d, rfl, rfl, -⟩ := h.runs_init ho (by simp [he]) hr
    -- an instance that had an update had its first one even before that
    obtain ⟨pre', mid, rfl⟩ := List.append_of_mem hl
    obtain ⟨s, hs, hstart⟩ := h.runs_update ho (by simpa using he) hl'
    exact (h.at_start he).new ⟨s, List.mem_append_left _ hs, hstart⟩
  distinct := h.standing.ascending.imp Nat.ne_of_lt
  kept i hi hn new r' hp i' hi' hid := by
    obtain ⟨e, he, hstart⟩ := (h.standing.initialized i hi).mp hn
    rw [← hid] at hstart
    exact ((h.standing.path hp).initialized i' hi').mpr ⟨e, List.mem_append_left _ he, hstart⟩

set_option maxRecDepth 100000 in
/-- A script is updated, loaded again with another `OnInit`, and updated again: of the two the first
one ran, and only that. -/
theorem init_runs_once_reloaded :
    ∃ (c : HostConfig) (w : World) (past : List (Op × List Event)) (r : Registry),
      Annals c w past r ∧
      r.instances.map (fun i => (i.generation, (r.world.store i.data).keys)) =
        [(some 2, ["first"])] ∧ InitOnce past r := by
  let c : HostConfig := { scripts := { startup := [] } }
  let w : World := .ofScripts [("A.rhai", "fn OnInit() \x7b Data.Set(\"first\", 1) \x7d")]
  let files : FileTree := .ofScripts [("A.rhai", "fn OnInit() \x7b Data.Set(\"second\", 2) \x7d")]
  let ops : List Op := [.add "A", .update, .around (.edit files), .reload "A", .update]
  have hrun : (Op.runAll 1000 (.start c w) ops).any (fun r =>
      r.instances.map (fun i => (i.generation, (r.world.store i.data).keys)) ==
        [(some 2, ["first"])]) = true := by
    decide +kernel
  obtain ⟨r, hr, hshows⟩ := (Option.any_eq_true _ _).mp hrun
  obtain ⟨past, hops, h⟩ := Annals.start.all hr
  have ho : ∀ o ∈ past.map Prod.fst, o.ofRegistry = true := by
    rw [hops]
    simp [ops, Op.ofRegistry]
  exact ⟨c, w, past, r, h, beq_iff_eq.mp hshows, init_runs_once h ho⟩

/-! ## Visits of an update -/

/-- An update visits what was registered when it began. -/
theorem Op.Told.visited {r : Registry} {es : List Event} (h : Op.update.Told r es) {i : Instance}
    (hi : i ∈ r.instances) : ∃ calls w i' w', Updated r.libraries i w calls i' w' ∧
      ∀ d ∈ calls, d.event ∈ es := by
  obtain ⟨vs, r₁, report, cost, hrounds, rfl⟩ := h
  have harrived : i ∈ vs.map Round.arrived := by
    rw [hrounds.arrivals]
    exact List.mem_append_left _ hi
  obtain ⟨v, hv, rfl⟩ := List.mem_map.mp harrived
  refine ⟨v.result, v.world, v.departed, v.left, (hrounds.each v hv).1, fun d hd => ?_⟩
  have htold : d.event ∈ v.told := List.mem_append_left _ (List.mem_map_of_mem hd)
  have hrounds : d.event ∈ vs.flatMap Round.told := List.mem_flatMap.mpr ⟨v, hv, htold⟩
  exact List.mem_append_left _ (List.mem_cons_of_mem _ hrounds)

theorem Op.Told.first_update {r : Registry} {es : List Event} (h : Op.update.Told r es)
    {i : Instance} (hi : i ∈ r.instances) (hs : i.state = .ready) (hn : i.initialized = false) :
    ∃ d, .started d ∈ es ∧ d.before = i := by
  obtain ⟨calls, w, i', w', hupdated, hes⟩ := h.visited hi
  cases hupdated with
  | first => exact ⟨_, hes _ List.mem_cons_self, rfl⟩
  | later hnot => exact absurd ⟨hn, hs⟩ hnot

theorem Op.Told.later_update {r : Registry} {es : List Event} (h : Op.update.Told r es)
    {i : Instance} (hi : i ∈ r.instances) (hn : i.initialized = true) :
    ∃ d, .called d ∈ es ∧ d.before = i ∧ d.entry = .onUpdate := by
  obtain ⟨calls, w, i', w', hupdated, hes⟩ := h.visited hi
  cases hupdated with
  | first hnew => nomatch hnew.symm.trans hn
  | later => exact ⟨_, hes _ List.mem_cons_self, rfl, rfl⟩

/-! ## `OnInit` can be lost -/

/-- A first update runs `OnInit` if the program has it. -/
def InitMarked (past : List (Op × List Event)) : Prop :=
  ∀ d, .started d ∈ eventsOf past → .onInit ∈ d.after.entryPoints → d.executed = true

/-- `OnUpdate` runs behind `OnInit` if the program had it at the first update. -/
def InitUpdated (past : List (Op × List Event)) : Prop :=
  ∀ pre e post id, eventsOf past = pre ++ e :: post → e.runs .onUpdate id = true →
    ∀ d, .started d ∈ pre → d.before.id = id → .onInit ∈ d.after.entryPoints →
      ∃ l ∈ pre, l.runs .onInit id = true

/-- Who has had a first update, whether `OnInit` ran then, and what is known of it when `OnUpdate`
runs. It is stops alone that keep it from running. -/
structure InitLaw (past : List (Op × List Event)) (r : Registry) : Prop where
  marked : ∀ i ∈ r.instances, i.initialized = true ↔ Started i.id (eventsOf past)
  executed : ∀ pre d post, eventsOf past = pre ++ .started d :: post →
    .onInit ∈ d.after.entryPoints → (d.executed = true ↔ ¬ Stopped d.before.id pre)
  decided : ∀ d, .started d ∈ eventsOf past →
    ((∃ e ∈ eventsOf past, e.runs .onInit d.before.id = true) ↔ d.executed = true)
  updated : ∀ pre e post id, eventsOf past = pre ++ e :: post → e.runs .onUpdate id = true →
    ∃ pre' d mid, pre = pre' ++ .started d :: mid ∧ d.before.id = id ∧
      (.onInit ∈ d.after.entryPoints → ((∃ l ∈ pre, l.runs .onInit id = true) ↔ ¬ Stopped id pre'))
  kept : InitMarked past ↔ ∀ pre d post, eventsOf past = pre ++ .started d :: post →
    .onInit ∈ d.after.entryPoints → ¬ Stopped d.before.id pre
  kept_updated : InitMarked past → InitUpdated past

namespace Annals

variable {c : HostConfig} {w : World} {past : List (Op × List Event)} {r : Registry} {e : Event}
  {d : Call} {id : InstanceId} {pre post : List Event}

theorem init_executed (h : Annals c w past r) (he : eventsOf past = pre ++ .started d :: post)
    (hinit : .onInit ∈ d.after.entryPoints) : d.executed = true ↔ ¬ Stopped d.before.id pre := by
  have hfirst := h.at_start he
  rw [hfirst.entryPoints] at hinit
  exact hfirst.executed_iff hinit

theorem init_before (h : Annals c w past r) (ho : ∀ o ∈ past.map Prod.fst, o.ofRegistry = true)
    (he : eventsOf past = pre ++ post) (hd : .started d ∈ pre) :
    (∃ l ∈ pre, l.runs .onInit d.before.id = true) ↔ d.executed = true := by
  obtain ⟨pre', mid, rfl⟩ := List.append_of_mem hd
  have hsplit : eventsOf past = pre' ++ .started d :: (mid ++ post) := by simp [he]
  constructor
  · rintro ⟨l, hl, hr⟩
    exact (h.init_decided ho hsplit).mp ⟨l, he ▸ List.mem_append_left _ hl, hr⟩
  · intro hx
    exact ⟨_, hd, Event.runs_iff.mpr ⟨d, rfl, (h.at_start hsplit).entry, rfl, hx⟩⟩

end Annals

/-- A script that cannot cope with messages. -/
def failingToListen : String :=
  "fn OnInit() \x7b Data.Set(\"init\", true) \x7d " ++
    "fn OnUpdate() \x7b Data.Set(\"updated\", true) \x7d fn OnMessage(m) \x7b throw m \x7d"

set_option maxRecDepth 100000 in
/-- A message stops it before its first update, and a load starts it again before its second. -/
theorem started_while_stopped : ∃ (c : HostConfig) (w : World) (past : List (Op × List Event))
    (r : Registry), Annals c w past r ∧
      past.map Prod.fst = [.add "A", .sendMessage "A" (.int 1), .update, .reload "A", .update] ∧
      ∃ d pre e post, eventsOf past = pre ++ e :: post ∧ .started d ∈ pre ∧
        .onInit ∈ d.after.entryPoints ∧ d.executed = false ∧
        e.runs .onUpdate d.before.id = true := by
  let c : HostConfig := { scripts := { startup := [] } }
  let w : World := .ofScripts [("A.rhai", failingToListen)]
  have hrun : (Op.runAll 1000 (.start c w) [.add "A", .sendMessage "A" (.int 1)]).any (fun r₁ =>
      (r₁.instances.any fun i => i.id == 1 && (i.state == .ready && (!i.initialized &&
        (!i.running && i.entryPoints.contains .onInit)))) &&
      (r₁.update 1000).any fun r₂ => (Op.runAll 1000 r₂ [.reload "A"]).any fun r₃ =>
        (r₃.instances.any fun i => i.id == 1 && (i.initialized && i.Answers .onUpdate)) &&
        (r₃.update 1000).isSome) = true := by
    decide +kernel
  obtain ⟨r₁, hr₁, hrun⟩ := (Option.any_eq_true _ _).mp hrun
  obtain ⟨hstopped, hrun⟩ := (Bool.and_eq_true _ _).mp hrun
  obtain ⟨r₂, hr₂, hrun⟩ := (Option.any_eq_true _ _).mp hrun
  obtain ⟨r₃, hr₃, hrun⟩ := (Option.any_eq_true _ _).mp hrun
  obtain ⟨hagain, hrun⟩ := (Bool.and_eq_true _ _).mp hrun
  obtain ⟨r₄, hr₄⟩ := Option.isSome_iff_exists.mp hrun
  obtain ⟨i, hi, hshows⟩ := List.any_eq_true.mp hstopped
  obtain ⟨j, hj, hshows'⟩ := List.any_eq_true.mp hagain
  simp only [Bool.and_eq_true, beq_iff_eq, Bool.not_eq_true', List.contains_iff_mem,
    decide_eq_true_eq] at hshows hshows'
  obtain ⟨hid, hready, hnew, hnot, hinit⟩ := hshows
  obtain ⟨hid', hold, hanswers⟩ := hshows'
  obtain ⟨past₁, hops₁, h₁⟩ := Annals.start.all hr₁
  obtain ⟨es₂, -, ht₂, h₂⟩ := h₁.next (o := .update) hr₂
  obtain ⟨past₃, hops₃, h₃⟩ := h₂.all hr₃
  obtain ⟨es₄, -, ht₄, h₄⟩ := h₃.next (o := .update) hr₄
  obtain ⟨d, hd, rfl⟩ := ht₂.first_update hi hready hnew
  obtain ⟨d', hd', rfl, hentry⟩ := ht₄.later_update hj hold
  -- the first of the two updates finds it stopped, the second one runs it
  obtain ⟨a, b, rfl⟩ := List.append_of_mem hd
  obtain ⟨a', b', rfl⟩ := List.append_of_mem hd'
  simp only [List.append_assoc] at h₄
  obtain ⟨past, hpast⟩ : ∃ past, past₁ ++ ([(.update, a ++ .started d :: b)] ++ (past₃ ++
    [(.update, a' ++ .called d' :: b')])) = past := ⟨_, rfl⟩
  rw [hpast] at h₄
  have hevents : eventsOf past = eventsOf past₁ ++ a ++ .started d :: (b ++ eventsOf past₃ ++ a' ++
      .called d' :: b') := by
    simp [← hpast, eventsOf]
  have hevents' : eventsOf past =
      (eventsOf past₁ ++ a ++ .started d :: (b ++ eventsOf past₃ ++ a')) ++ .called d' :: b' := by
    simp [hevents]
  have hfirst := h₄.at_start hevents
  have hlost : d.executed = false := Bool.eq_false_iff.mpr fun hx =>
    Bool.false_ne_true (hnot.symm.trans (hfirst.executed.mp hx).1)
  obtain ⟨q, q', -, hact, -⟩ := h₄.at_event hevents'
  have hruns : Event.runs .onUpdate d.before.id (.called d') = true := by
    refine Event.runs_iff.mpr ⟨d', rfl, hentry, hid'.trans hid.symm, ?_⟩
    rcases Call.cases_of_act hact rfl with ⟨hx, -⟩ | ⟨-, hno, -⟩
    · exact hx
    · exact absurd (hentry ▸ hanswers) hno
  refine ⟨c, w, past, r₄, h₄, ?_, d, _, _, _, hevents', by simp, ?_, hlost, hruns⟩
  · simp [← hpast, hops₁, hops₃]
  · rw [hfirst.entryPoints]
    exact hinit

/-- In every history of operations on a registry `OnInit` is lost by an instance exactly if a stop
comes before its first update and no load that succeeds in between. -/
theorem init_law {c : HostConfig} {w : World} {past : List (Op × List Event)} {r : Registry}
    (h : Annals c w past r) (ho : ∀ o ∈ past.map Prod.fst, o.ofRegistry = true) :
    InitLaw past r where
  marked := h.standing.initialized
  executed _ _ _ he hinit := h.init_executed he hinit
  decided d hd := by
    obtain ⟨pre, post, he⟩ := List.append_of_mem hd
    exact h.init_decided ho he
  updated pre e post id he hr := by
    obtain ⟨s, hs, hid, hstart⟩ := h.runs_update ho he hr
    cases s with
    | started d =>
        cases hid
        obtain ⟨pre', mid, heq⟩ := List.append_of_mem hs
        refine ⟨pre', d, mid, heq, rfl, fun hinit => ?_⟩
        rw [h.init_before ho he hs]
        exact h.init_executed (by rw [he, heq, List.append_assoc]; rfl) hinit
    | joined | tried | called | invoked | left | chore => nomatch hstart
  kept := by
    refine ⟨fun hmarked pre d post he hinit => ?_, fun hrunning d hd hinit => ?_⟩
    · exact (h.init_executed he hinit).mp (hmarked d (by simp [he]) hinit)
    · obtain ⟨pre, post, he⟩ := List.append_of_mem hd
      exact (h.init_executed he hinit).mpr (hrunning pre d post he hinit)
  kept_updated hmarked pre e post id he hr d hd hid hinit := by
    subst hid
    exact (h.init_before ho he hd).mpr (hmarked d (he ▸ List.mem_append_left _ hd) hinit)

/-- The law covers that history, of which a first update lost `OnInit`. -/
theorem init_law_listening : ∃ (c : HostConfig) (w : World) (past : List (Op × List Event))
    (r : Registry), Annals c w past r ∧
      (∃ d, .started d ∈ eventsOf past ∧ .onInit ∈ d.after.entryPoints ∧ d.executed = false) ∧
      InitLaw past r := by
  obtain ⟨c, w, past, r, h, hops, d, pre, e, post, he, hd, hinit, hlost, -⟩ :=
    started_while_stopped
  have ho : ∀ o ∈ past.map Prod.fst, o.ofRegistry = true := by
    rw [hops]
    simp [Op.ofRegistry]
  exact ⟨c, w, past, r, h, ⟨d, he ▸ List.mem_append_left _ hd, hinit, hlost⟩, init_law h ho⟩

/-- A first update can do without `OnInit`, and then `OnUpdate` runs all the same. -/
theorem init_can_be_lost :
    (¬ ∀ (c : HostConfig) (w : World) (past : List (Op × List Event)) (r : Registry),
      Annals c w past r → (∀ o ∈ past.map Prod.fst, o.ofRegistry = true) → InitMarked past) ∧
    ¬ ∀ (c : HostConfig) (w : World) (past : List (Op × List Event)) (r : Registry),
      Annals c w past r → (∀ o ∈ past.map Prod.fst, o.ofRegistry = true) → InitUpdated past := by
  obtain ⟨c, w, past, r, h, hops, d, pre, e, post, he, hd, hinit, hlost, hruns⟩ :=
    started_while_stopped
  have ho : ∀ o ∈ past.map Prod.fst, o.ofRegistry = true := by
    rw [hops]
    simp [Op.ofRegistry]
  have hnot : ¬ d.executed = true := by
    rw [hlost]
    nofun
  constructor
  · intro hall
    exact hnot (hall c w past r h ho d (he ▸ List.mem_append_left _ hd) hinit)
  · intro hall
    have hran := hall c w past r h ho pre e post d.before.id he hruns d hd rfl hinit
    exact hnot ((h.init_before ho he hd).mp hran)

end Stagehand
