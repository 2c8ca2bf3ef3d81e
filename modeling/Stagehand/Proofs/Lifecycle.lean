import Stagehand.Proofs.Histories

/-!
# The lifecycle of an instance

Seven fields of an instance say where it stands, and different operations write them on success and
on failure. `Lifecycle` says how they hang together, and how they follow from the attempts to load
the instance. It is established by the first attempt and kept by every act; between the creation of
an instance and its first attempt only `Tracked` holds, which is all but that the instance has left
the state it was created in.
-/

namespace Stagehand

open Lang

/-! ## What one attempt and one call do to an instance -/

/-- To load an instance changes neither its number nor its name. -/
theorem Attempt.Genuine.handle {libraries : Libraries} {a : Attempt} (h : a.Genuine libraries) :
    a.after.handle = a.before.handle := by
  obtain ⟨budget, hreload⟩ := h
  rcases Instance.reload_cases hreload with ⟨b, w, -, -, hafter, -⟩ | ⟨e, w, -, -, hafter, -⟩
  · rw [hafter]
    rfl
  · rw [hafter]
    rfl

theorem Attempt.Genuine.id {libraries : Libraries} {a : Attempt} (h : a.Genuine libraries) :
    a.after.id = a.before.id := congrArg ScriptHandle.id h.handle

/-- What of a binding no call changes: all but the values of the variables. -/
def Binding.program (b : Binding) : Binding := { b with vars := [] }

/-- The instance after calls: it is the one before but for the variables of its program, and it runs
only if it did. -/
structure Instance.Continues (i i' : Instance) : Prop where
  same : ∃ binding running, i' = { i with binding, running }
  program : i'.binding.map Binding.program = i.binding.map Binding.program
  running : i'.running = true → i.running = true

namespace Instance

theorem Continues.handle {i i' : Instance} (h : i.Continues i') : i'.handle = i.handle := by
  obtain ⟨⟨binding, running, rfl⟩, -, -⟩ := h
  rfl

theorem Continues.state {i i' : Instance} (h : i.Continues i') : i'.state = i.state := by
  obtain ⟨⟨binding, running, rfl⟩, -, -⟩ := h
  rfl

variable {budget : Nat} {libraries : Libraries} {i i' : Instance} {e : EntryPoint} {w w' : World}

theorem responds_program {stage : Stage} {b b' : Binding} {args : List Value} {c : Callable}
    {r : Except Fault Value} (h : b.Responds budget stage e args w c r b' w') :
    b'.program = b.program := by
  cases h <;> rfl

theorem call_binding {args : List Value} {o : Option (Except Fault Value)}
    (h : i.call budget libraries e args w = some (o, i', w')) :
    ∃ binding, i' = { i with binding } ∧
      binding.map Binding.program = i.binding.map Binding.program := by
  rcases call_iff.mp h with ⟨b, c, r, b', -, hc, hresponds, -, rfl⟩ | ⟨-, -, rfl, -⟩
  · refine ⟨some b', rfl, ?_⟩
    rw [(callable?_cases hc).1, Option.map_some, Option.map_some, responds_program hresponds]
  · exact ⟨i'.binding, rfl, rfl⟩

theorem invoke_continues {args : List HostValue} {o : Outcome}
    (h : i.invoke budget libraries e args w = some (o, i', w')) : i.Continues i' := by
  rcases invoke_iff.mp h with ⟨-, r, hcall, -⟩ | ⟨-, -, rfl, -⟩
  · obtain ⟨binding, rfl, hprogram⟩ := call_binding hcall
    exact ⟨⟨binding, i.running, rfl⟩, hprogram, fun h => h⟩
  · exact ⟨⟨i'.binding, i'.running, rfl⟩, rfl, fun h => h⟩

theorem dispatch_continues {args : List HostValue} {o : Outcome}
    (h : i.dispatch budget libraries e args w = some (o, i', w')) : i.Continues i' := by
  rcases dispatch_iff.mp h with ⟨err, i₁, w₁, hinvoke, -, rfl, -⟩ | ⟨hinvoke, -⟩
  · obtain ⟨⟨binding, running, rfl⟩, hprogram, -⟩ := invoke_continues hinvoke
    exact ⟨⟨binding, false, rfl⟩, hprogram, nofun⟩
  · exact invoke_continues hinvoke

end Instance

/-! ## The lifecycle -/

/-- The attempt to load an instance that an event is. -/
def Event.attempt? : Event → Option Attempt
  | .joined a | .tried a => some a
  | _ => none

theorem Event.change_of_attempt {e : Event} {a : Attempt} (h : e.attempt? = some a) :
    e.change? = some (a.before, a.after) := by
  cases e <;> cases h <;> rfl

theorem Event.subject_of_attempt {e : Event} {a : Attempt} (h : e.attempt? = some a) :
    e.subject? = some a.before.id := congrArg _ (Event.change_of_attempt h)

/-- The attempts to load the instance with a number, the first one first. -/
def attemptsOn (id : InstanceId) (es : List Event) : List Attempt :=
  (es.filterMap Event.attempt?).filter fun a => a.before.id == id

/-- How many attempts loaded the instance. -/
def successes (as : List Attempt) : Nat := as.countP Attempt.succeeded

/-- The fields of an instance follow from the attempts to load it. -/
structure Tracked (as : List Attempt) (i : Instance) : Prop where
  bound : i.state = .ready ↔ i.binding.isSome = true
  timed : i.state = .ready ↔ i.loadTime.isSome = true
  loaded : i.state = .ready ↔ ∃ a ∈ as, a.succeeded = true
  counted : i.generation = if successes as = 0 then none else some (successes as)
  running : i.running = true → i.state = .ready
  initialized : i.initialized = true → i.state = .ready
  failing : i.lastError.isSome = true ↔ ∃ a, as.getLast? = some a ∧ a.succeeded = false
  counter : i.generations = successes as

/-- An instance that was loaded once, or not, has left the state it was created in. -/
structure Lifecycle (as : List Attempt) (i : Instance) : Prop extends Tracked as i where
  settled : i.state = .ready ∨ i.state = .faulted

section Steps

variable {as : List Attempt} {i i' : Instance}

/-- A new instance was not loaded, which is what all its fields say. -/
theorem tracked_new (handle : ScriptHandle) (source : FilePath) (data : StoreId) :
    Tracked [] { handle, source, data } where
  bound := by simp
  timed := by simp
  loaded := by simp
  counted := rfl
  running := nofun
  initialized := nofun
  failing := by simp
  counter := rfl

theorem successes_append (as : List Attempt) (a : Attempt) :
    successes (as ++ [a]) = successes as + if a.succeeded then 1 else 0 := by
  simp [successes, List.countP_cons]

/-- An attempt that succeeds makes the instance ready, whatever it was. -/
theorem Tracked.succeed (h : Tracked as i) {a : Attempt} (ha : a.succeeded = true) (b : Binding)
    (time : Instant) : Lifecycle (as ++ [a]) (i.loaded b time) where
  bound := by simp [Instance.loaded]
  timed := by simp [Instance.loaded]
  loaded := by simp [Instance.loaded, ha]
  counted := by simp [Instance.loaded, Instance.generation, successes_append, ha, h.counter]
  running := fun _ => rfl
  initialized := fun _ => rfl
  failing := by simp [Instance.loaded, ha]
  counter := by simp [Instance.loaded, successes_append, ha, h.counter]
  settled := .inl rfl

/-- An attempt that fails puts the instance back to where it was: it is ready again if and only if
it has a binding, and without one it never was. -/
theorem Tracked.fail (h : Tracked as i) {a : Attempt} (ha : a.succeeded = false)
    (e : ReloadError) : Lifecycle (as ++ [a]) (i.notLoaded e) := by
  have hcount : successes (as ++ [a]) = successes as := by simp [successes_append, ha]
  have hstate : (i.notLoaded e).state = .ready ↔ i.state = .ready := by
    rw [h.bound]
    cases hb : i.binding <;> simp [Instance.notLoaded, hb]
  refine ⟨⟨?_, ?_, ?_, ?_, ?_, ?_, ?_, ?_⟩, ?_⟩
  · exact hstate.trans h.bound
  · exact hstate.trans h.timed
  · rw [hstate, h.loaded]
    simp [ha]
  · rw [hcount]
    exact h.counted
  · exact fun hr => hstate.mpr (h.running hr)
  · exact fun hi => hstate.mpr (h.initialized hi)
  · simp [Instance.notLoaded, ha]
  · rw [hcount]
    exact h.counter
  · simp only [Instance.notLoaded]
    split
    · exact .inl rfl
    · exact .inr rfl

/-- Whatever comes of an attempt, the fields follow from the attempts up to this one. -/
theorem Tracked.attempt {libraries : Libraries} {a : Attempt} (h : Tracked as a.before)
    (ha : a.Genuine libraries) : Lifecycle (as ++ [a]) a.after := by
  obtain ⟨budget, ha⟩ := ha
  rcases Instance.reload_cases ha with ⟨b, w, -, hr, hafter, -⟩ | ⟨e, w, -, hr, hafter, -⟩
  · rw [hafter]
    exact h.succeed (by rw [Attempt.succeeded, hr]; rfl) b w.clock
  · rw [hafter]
    exact h.fail (by rw [Attempt.succeeded, hr]; rfl) e

/-- A call changes none of the fields but `running`, which it can only clear. -/
theorem Lifecycle.call (h : Lifecycle as i) (hc : i.Continues i') : Lifecycle as i' := by
  obtain ⟨⟨binding, running, rfl⟩, hprogram, hrunning⟩ := hc
  have hbound : binding.isSome = i.binding.isSome := by
    simpa using congrArg Option.isSome hprogram
  have hgeneration : binding.map Binding.generation = i.binding.map Binding.generation := by
    have := congrArg (Option.map Binding.generation) hprogram
    simpa [Option.map_map, Function.comp_def, Binding.program] using this
  refine ⟨⟨?_, h.timed, h.loaded, ?_, fun hr => h.running (hrunning hr), h.initialized, h.failing,
    h.counter⟩, h.settled⟩
  · exact h.bound.trans (by rw [hbound])
  · exact hgeneration.trans h.counted

theorem Lifecycle.markInitialized (h : Lifecycle as i) (hi : i.state = .ready) :
    Lifecycle as i.markInitialized :=
  ⟨⟨h.bound, h.timed, h.loaded, h.counted, h.running, fun _ => hi, h.failing, h.counter⟩,
    h.settled⟩

end Steps

/-! ## The registry -/

/-- What every history keeps: numbers ascend along the list and are not given twice, and each
instance follows from the attempts on its number. -/
structure Orderly (es : List Event) (r : Registry) : Prop where
  ascending : (r.instances.map Instance.id).Pairwise (· < ·)
  below : ∀ i ∈ r.instances, i.id < r.nextId
  past : ∀ e ∈ es, ∀ a, e.attempt? = some a → a.before.id < r.nextId
  lifecycle : ∀ i ∈ r.instances, Lifecycle (attemptsOn i.id es) i

theorem attemptsOn_append (id : InstanceId) (es es' : List Event) :
    attemptsOn id (es ++ es') = attemptsOn id es ++ attemptsOn id es' := by
  simp [attemptsOn]

theorem attemptsOn_other {id : InstanceId} {es : List Event} {e : Event}
    (h : ∀ a, e.attempt? = some a → a.before.id ≠ id) :
    attemptsOn id (es ++ [e]) = attemptsOn id es := by
  rw [attemptsOn_append]
  cases he : e.attempt? with
  | none => simp [attemptsOn, he]
  | some a => simp [attemptsOn, he, h a he]

theorem attemptsOn_none {id : InstanceId} {es : List Event} {e : Event} (he : e.attempt? = none) :
    attemptsOn id (es ++ [e]) = attemptsOn id es :=
  attemptsOn_other fun _ ha => nomatch he.symm.trans ha

theorem attemptsOn_own {id : InstanceId} {es : List Event} {e : Event} {a : Attempt}
    (he : e.attempt? = some a) (ha : a.before.id = id) :
    attemptsOn id (es ++ [e]) = attemptsOn id es ++ [a] := by
  rw [attemptsOn_append]
  simp [attemptsOn, he, ha]

theorem attemptsOn_fresh {id : InstanceId} {es : List Event}
    (h : ∀ e ∈ es, ∀ a, e.attempt? = some a → a.before.id < id) : attemptsOn id es = [] := by
  simp only [attemptsOn, List.filter_eq_nil_iff, List.mem_filterMap, beq_iff_eq]
  rintro a ⟨e, he, hea⟩ rfl
  exact Nat.lt_irrefl _ (h e he a hea)

theorem mem_set_cases {is : List Instance} {place : Nat} {i j x : Instance}
    (hd : (is.map Instance.id).Pairwise (· < ·)) (hj : is[place]? = some j)
    (h : i ∈ is.set place x) : i = x ∨ i ∈ is ∧ i.id ≠ j.id := by
  obtain ⟨k, hk⟩ := List.mem_iff_getElem?.mp h
  rw [List.getElem?_set] at hk
  split at hk
  · split at hk <;> cases hk
    exact .inl rfl
  · rename_i hne
    refine .inr ⟨List.mem_of_getElem? hk, fun heq => hne ?_⟩
    have hnodup : (is.map Instance.id).Nodup := hd.imp Nat.ne_of_lt
    have hki : (is.map Instance.id)[k]? = some i.id := by simp [hk]
    have hkj : (is.map Instance.id)[place]? = some i.id := by simp [hj, heq]
    have hlt := (List.getElem?_eq_some_iff.mp hki).1
    exact ((List.getElem?_inj hlt hnodup).mp (hki.trans hkj.symm)).symm

theorem Registry.start_instances (c : HostConfig) (w : World) :
    (Registry.start c w).instances = [] := by
  unfold Registry.start
  generalize Libraries.index w.files c.scripts.librariesDir Lang.builtinNames = indexed
  rfl

theorem World.recordAll_world (reports : List LogRecord) (w : World) :
    ∃ log, w.recordAll reports = { w with log } := by
  induction reports generalizing w with
  | nil => exact ⟨_, rfl⟩
  | cons report rest ih => exact ih (w.record report)

/-- To start a host makes a report, a screen and the state of the host, in which nothing was asked
for yet. -/
theorem Registry.start_world (c : HostConfig) (w : World) : ∃ log images host,
    (Registry.start c w).world = { w with log, images, host } ∧ host.adds = [] := by
  unfold Registry.start
  generalize Libraries.index w.files c.scripts.librariesDir Lang.builtinNames = indexed
  obtain ⟨log, hlog⟩ := World.recordAll_world indexed.2 w
  dsimp only
  rw [hlog]
  exact ⟨_, _, _, rfl, rfl⟩

namespace Orderly

variable {es : List Event} {r : Registry}

/-- An instance is replaced at its place by what became of it; the others do not take part. -/
theorem replace (h : Orderly es r) {place : Nat} {i i' : Instance} {w' : World} {e : Event}
    (hi : r.instances[place]? = some i) (hid : i'.handle = i.handle)
    (he : ∀ a, e.attempt? = some a → a.before.id = i.id)
    (hlife : Lifecycle (attemptsOn i.id (es ++ [e])) i') :
    Orderly (es ++ [e]) { r with world := w', instances := r.instances.set place i' } := by
  have hmem := List.mem_of_getElem? hi
  have hid' : i'.id = i.id := congrArg ScriptHandle.id hid
  refine ⟨?_, fun j hj => ?_, fun e' he' a ha => ?_, fun j hj => ?_⟩
  · have hids : (r.instances.set place i').map Instance.id = r.instances.map Instance.id := by
      rw [List.map_set, hid']
      exact set_self (by simp [hi])
    exact hids ▸ h.ascending
  · rcases mem_set_cases h.ascending hi hj with rfl | ⟨hj, -⟩
    · exact hid' ▸ h.below i hmem
    · exact h.below j hj
  · rcases List.mem_append.mp he' with he' | he'
    · exact h.past e' he' a ha
    · cases List.mem_singleton.mp he'
      exact he a ha ▸ h.below i hmem
  · rcases mem_set_cases h.ascending hi hj with rfl | ⟨hj, hne⟩
    · exact hid' ▸ hlife
    · rw [attemptsOn_other fun a ha heq => hne (heq.symm.trans (he a ha))]
      exact h.lifecycle j hj

/-- An act that is no attempt leaves the instance that it is about where it stands. -/
theorem called (h : Orderly es r) {place : Nat} {i i' : Instance} {w' : World} {e : Event}
    (hi : r.instances[place]? = some i) (he : e.attempt? = none) (hid : i'.handle = i.handle)
    (hlife : Lifecycle (attemptsOn i.id es) i') :
    Orderly (es ++ [e]) { r with world := w', instances := r.instances.set place i' } := by
  refine h.replace hi hid (fun a ha => nomatch he.symm.trans ha) ?_
  rw [attemptsOn_none he]
  exact hlife

/-- An act that is no attempt and touches no instance but to take some out. -/
theorem shrink (h : Orderly es r) {r' : Registry} {e : Event} (he : e.attempt? = none)
    (hs : r'.instances.Sublist r.instances) (hn : r'.nextId = r.nextId) :
    Orderly (es ++ [e]) r' := by
  refine ⟨h.ascending.sublist (hs.map _), fun i hi => ?_, fun e' he' a ha => ?_, fun i hi => ?_⟩
  · exact hn ▸ h.below i (hs.subset hi)
  · rcases List.mem_append.mp he' with he' | he'
    · exact hn ▸ h.past e' he' a ha
    · cases List.mem_singleton.mp he'
      nomatch he.symm.trans ha
  · rw [attemptsOn_none he]
    exact h.lifecycle i (hs.subset hi)

theorem start (c : HostConfig) (w : World) : Orderly [] (Registry.start c w) := by
  have hnone := Registry.start_instances c w
  refine ⟨?_, ?_, List.forall_mem_nil _, ?_⟩
  · rw [hnone]
    exact .nil
  · rw [hnone]
    exact List.forall_mem_nil _
  · rw [hnone]
    exact List.forall_mem_nil _

/-- No attempt was made on the number of a new instance, and the first one is on no other. -/
theorem attemptsOn_joined (h : Orderly es r) {a : Attempt} (hnew : a.before.id = r.nextId) :
    attemptsOn r.nextId (es ++ [.joined a]) = [a] ∧
      ∀ i ∈ r.instances, attemptsOn i.id (es ++ [.joined a]) = attemptsOn i.id es := by
  refine ⟨by rw [attemptsOn_own rfl hnew, attemptsOn_fresh h.past, List.nil_append],
    fun i hi => attemptsOn_other fun b hb heq => ?_⟩
  cases hb
  exact Nat.ne_of_lt (h.below i hi) (heq.symm.trans hnew)

theorem join (h : Orderly es r) {name : String} {a : Attempt} (hb : a.before = (r.create name).1)
    (hh : a.after.handle = a.before.handle) (hlife : Lifecycle [a] a.after) :
    Orderly (es ++ [.joined a])
      { (r.create name).2 with world := a.left, instances := r.instances ++ [a.after] } := by
  have hnew : a.before.id = r.nextId := congrArg Instance.id hb
  have hafter : a.after.id = r.nextId := (congrArg ScriptHandle.id hh).trans hnew
  refine ⟨?_, fun i hi => ?_, fun e he b hbe => ?_, fun i hi => ?_⟩
  · rw [List.map_append, List.pairwise_append]
    refine ⟨h.ascending, List.pairwise_singleton _ _, fun x hx y hy => ?_⟩
    obtain ⟨i, hi, rfl⟩ := List.mem_map.mp hx
    cases List.mem_singleton.mp hy
    exact hafter ▸ h.below i hi
  · rcases List.mem_append.mp hi with hi | hi
    · exact Nat.lt_succ_of_lt (h.below i hi)
    · cases List.mem_singleton.mp hi
      exact Nat.lt_succ_of_le (Nat.le_of_eq hafter)
  · rcases List.mem_append.mp he with he | he
    · exact Nat.lt_succ_of_lt (h.past e he b hbe)
    · cases List.mem_singleton.mp he
      cases hbe
      exact Nat.lt_succ_of_le (Nat.le_of_eq hnew)
  · obtain ⟨hown, hothers⟩ := h.attemptsOn_joined hnew
    rcases List.mem_append.mp hi with hi | hi
    · exact hothers i hi ▸ h.lifecycle i hi
    · cases List.mem_singleton.mp hi
      rw [hafter, hown]
      exact hlife

/-- One act, one case for each kind. -/
theorem act (h : Orderly es r) {e : Event} {r' : Registry} (ha : Act r e r') :
    Orderly (es ++ [e]) r' := by
  cases ha with
  | @joined _ a hb hw hg =>
      have htracked : Tracked [] a.before := by
        rw [hb]
        exact tracked_new _ _ _
      exact h.join hb hg.handle (htracked.attempt hg)
  | tried place hi hw hg =>
      have hlife := h.lifecycle _ (List.mem_of_getElem? hi)
      refine h.replace hi hg.handle (fun a ha => by cases ha; rfl) ?_
      rw [attemptsOn_own rfl rfl]
      exact hlife.toTracked.attempt hg
  | called place hi hw hg =>
      obtain ⟨budget, hdispatch⟩ := hg
      have hc := Instance.dispatch_continues hdispatch
      exact h.called hi rfl hc.handle ((h.lifecycle _ (List.mem_of_getElem? hi)).call hc)
  | invoked place hi hw hg =>
      obtain ⟨budget, hinvoke⟩ := hg
      have hc := Instance.invoke_continues hinvoke
      exact h.called hi rfl hc.handle ((h.lifecycle _ (List.mem_of_getElem? hi)).call hc)
  | started place hi hw he hs hn hg =>
      obtain ⟨budget, hdispatch⟩ := hg
      have hc := Instance.dispatch_continues hdispatch
      have hlife := (h.lifecycle _ (List.mem_of_getElem? hi)).call hc
      exact h.called hi rfl hc.handle (hlife.markInitialized (hc.state ▸ hs))
  | left ids => exact h.shrink rfl List.filter_sublist rfl
  | chore c => cases c <;> exact h.shrink rfl (List.Sublist.refl _) rfl

end Orderly

theorem Reached.orderly {c : HostConfig} {w : World} {es : List Event} {r : Registry}
    (h : Reached c w es r) : Orderly es r :=
  h.invariant (Orderly.start c w) fun hP ha => hP.act ha

/-- In every history every registered instance is ready or faulted, and all its fields follow from
the attempts that were made to load it. -/
theorem lifecycle_reached {c : HostConfig} {w : World} {es : List Event} {r : Registry}
    (h : Reached c w es r) : ∀ i ∈ r.instances, Lifecycle (attemptsOn i.id es) i :=
  h.orderly.lifecycle

set_option maxRecDepth 100000 in
/-- A script is loaded, then broken and loaded again: the instance is ready all the same, with one
success behind it and an error. -/
theorem lifecycle_broken_source :
    ∃ (c : HostConfig) (w : World) (es : List Event) (r : Registry), Reached c w es r ∧
      (r.instances.map fun i => (i.state, i.generation, i.running, i.lastError.isSome)) =
        [(.ready, some 1, true, true)] ∧
      ∀ i ∈ r.instances, Lifecycle (attemptsOn i.id es) i := by
  let c : HostConfig := { scripts := { startup := [] } }
  let w : World := .ofScripts [("A.rhai", "fn OnUpdate() \x7b \x7d")]
  have hrun : ((Op.runAll 1000 (.start c w) [.add "A",
      .around (.edit (.ofScripts [("A.rhai", "fn OnUpdate( \x7b \x7d")])), .reload "A"]).map fun r =>
        r.instances.map fun i => (i.state, i.generation, i.running, i.lastError.isSome)) =
      some [(.ready, some 1, true, true)] := by
    decide +kernel
  obtain ⟨r, hr, hi⟩ := Option.map_eq_some_iff.mp hrun
  obtain ⟨es, h⟩ := Reached.start.all hr
  exact ⟨c, w, _, r, h, hi, lifecycle_reached h⟩

end Stagehand
