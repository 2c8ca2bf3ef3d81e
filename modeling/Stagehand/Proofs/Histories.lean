import Stagehand.Proofs.Passes

/-!
# Histories

What a host can do with a registry, from its start on, and what goes on around it. Every operation
is a path (`Op.story`), so that a history comes down to a sequence of acts (`Reached.invariant`).
`Op.Told` says which events each operation comes to in which order, `Op.Tells` which events it can
come to at all, and `Op.Calls` which entry points it calls.
-/

namespace Stagehand

open Lang

/-! ## Operations -/

/-- An operation of the host on a registry or on one of its instances, or what goes on around it. -/
inductive Op where
  | add (name : String)
  | addStartup
  | remove (id : InstanceId)
  | update
  | draw (surface : ImageId)
  | sendMessage (name : String) (payload : HostValue)
  | reload (name : String)
  | reset
  /-- Loads the instance at a place again. -/
  | reloadOne (place : Nat)
  /-- Runs an entry point of the instance at a place. -/
  | dispatchOne (place : Nat) (e : EntryPoint) (args : List HostValue)
  /-- The same, but a failure does not stop the instance. -/
  | invokeOne (place : Nat) (e : EntryPoint) (args : List HostValue)
  | around (c : Chore)

namespace Op

/-- What is done with the instance at a place. -/
def onInstance {α : Type} (r : Registry) (place : Nat) (visit : Registry.Visit α) :
    Option Registry :=
  match r.instances[place]? with
  | none => some r
  | some i => do
    let (_, i, world) ← visit i r.world
    return { r with world, instances := r.instances.set place i }

/-- The registry after an operation. -/
def run (budget : Nat) (r : Registry) : Op → Option Registry
  | add name => (r.add budget name).map (·.2)
  | addStartup => r.addStartup budget
  | remove id => some (r.remove id)
  | update => r.update budget
  | draw surface => (r.draw budget surface).map (·.2)
  | sendMessage name payload => (r.sendMessage budget name payload).map (·.2)
  | reload name => (r.reload budget name).map (·.2)
  | reset => r.reset budget
  | reloadOne place => onInstance r place fun i w => i.reload budget r.libraries w
  | dispatchOne place e args => onInstance r place fun i w => i.dispatch budget r.libraries e args w
  | invokeOne place e args => onInstance r place fun i w => i.invoke budget r.libraries e args w
  | around c => some (c.apply r)

/-- What is done with the instance at a place, if there is one. -/
theorem onInstance_cases {α : Type} {r r' : Registry} {place : Nat} {visit : Registry.Visit α}
    (h : onInstance r place visit = some r') : r.instances[place]? = none ∧ r' = r ∨
      ∃ i a i' w', r.instances[place]? = some i ∧ visit i r.world = some (a, i', w') ∧
        r' = { r with world := w', instances := r.instances.set place i' } := by
  unfold onInstance at h
  split at h
  · rename_i hnone
    cases h
    exact .inl ⟨hnone, rfl⟩
  · rename_i i hi
    obtain ⟨⟨a, i', w'⟩, hvisit, h⟩ := Option.bind_eq_some_iff.mp h
    cases h
    exact .inr ⟨i, a, i', w', hi, hvisit, rfl⟩

/-- What an operation on a registry comes to, event by event: passes go in rounds, each calling its
entry points, scans and reloads are attempts, and whoever is added joins. -/
def Told (r : Registry) (es : List Event) : Op → Prop
  | add name => ∃ a : Attempt, es = [.joined a] ∧ a.before.name = name
  | addStartup => ∃ loads : List Attempt, es = loads.map .joined ∧
      loads.map (fun a => a.before.name) = r.scripts.startup
  | remove id => es = [.chore (.requestRemoval id)]
  | update => ∃ vs r₁ report cost,
      Rounds (Updated r.libraries) 0 { r with world := r.world.tick.2 } vs r₁ ∧
      es = .chore .tick :: vs.flatMap Round.told ++ Registry.counting report cost
  | draw surface => ∃ vs r₁ r₂ scanned tries,
      Rounds (Drawn r.libraries) 0
        { r with world := r.world.modifyHost fun h => { h with screen := surface } } vs r₁ ∧
      Scanned r₁ r₁.scripts.dir scanned tries ∧ Path r₁ tries r₂ ∧
      es = .chore (.display surface) :: vs.flatMap Round.told ++ tries ++ r₂.removing
  | sendMessage name payload => ∃ vs r₁,
      Rounds (Delivered r.libraries name payload) 0 r vs r₁ ∧ es = vs.flatMap Round.told
  | reload name => ∃ attempts : List Attempt, es = attempts.map .tried ∧
      attempts.map Attempt.before = r.instances.filter (·.name == name)
  | reset => ∃ loads : List Attempt,
      es = .left (r.instances.map Instance.id) :: .chore .takeRemovals :: .chore .takeAdds ::
        loads.map .joined ∧
      loads.map (fun a => a.before.name) = r.scripts.startup
  | reloadOne _ => es = [] ∨ ∃ a, es = [.tried a]
  | dispatchOne _ e args => es = [] ∨ ∃ c : Call, es = [.called c] ∧ c.entry = e ∧ c.args = args
  | invokeOne _ e args => es = [] ∨ ∃ c : Call, es = [.invoked c] ∧ c.entry = e ∧ c.args = args
  | around c => es = [.chore c]

/-- Every operation is a path, and its events are the ones it is told by. -/
theorem story {budget : Nat} {r r' : Registry} {o : Op} (h : o.run budget r = some r') :
    ∃ es, Path r es r' ∧ o.Told r es := by
  cases o with
  | add name =>
      obtain ⟨⟨id, r₁⟩, hadd, rfl⟩ := Option.map_eq_some_iff.mp h
      obtain ⟨a, hact, hname, -⟩ := Registry.add_joined hadd
      exact ⟨_, .single hact, a, rfl, hname⟩
  | addStartup =>
      obtain ⟨loads, hpath, hnames⟩ := Registry.addAll_joined h
      exact ⟨_, hpath, loads, rfl, hnames⟩
  | remove id =>
      cases h
      exact ⟨_, .single (.chore (.requestRemoval id)), rfl⟩
  | update =>
      obtain ⟨vs, r₁, hrounds, -, -, report, cost, hend⟩ := Registry.update_rounds h
      have hpath := (hrounds.path Registry.updated_told rfl).trans hend
      exact ⟨_, .step (.chore .tick) hpath, vs, r₁, report, cost, hrounds, rfl⟩
  | draw surface =>
      obtain ⟨⟨result, r₁⟩, hdraw, rfl⟩ := Option.map_eq_some_iff.mp h
      obtain ⟨vs, r₁, r₂, scanned, tries, hrounds, hscan, htries, -, rfl⟩ :=
        Registry.draw_rounds hdraw
      have hpass : Path r (.chore (.display surface) :: vs.flatMap Round.told) r₁ :=
        .step (.chore (.display surface)) (hrounds.path Registry.drawn_told rfl)
      exact ⟨_, (hpass.trans htries).trans r₂.applyRemovals_path, vs, r₁, r₂, scanned, tries,
        hrounds, hscan, htries, rfl⟩
  | sendMessage name payload =>
      obtain ⟨⟨n, r₁⟩, hsend, rfl⟩ := Option.map_eq_some_iff.mp h
      obtain ⟨vs, hrounds, -⟩ := Registry.sendMessage_rounds hsend
      exact ⟨_, hrounds.path Registry.delivered_told rfl, vs, _, hrounds, rfl⟩
  | reload name =>
      obtain ⟨⟨results, r₁⟩, hreload, rfl⟩ := Option.map_eq_some_iff.mp h
      obtain ⟨attempts, hpath, hbefore, -⟩ := Registry.reload_path hreload
      exact ⟨_, hpath, attempts, rfl, hbefore⟩
  | reset =>
      obtain ⟨loads, hpath, hnames⟩ := Registry.reset_path h
      exact ⟨_, hpath, loads, rfl, hnames⟩
  | reloadOne place =>
      rcases onInstance_cases h with ⟨-, rfl⟩ | ⟨i, result, i', w', hi, hreload, rfl⟩
      · exact ⟨[], .refl _, .inl rfl⟩
      · exact ⟨_, .single (.tried place (a := ⟨i, r.world, result, i', w'⟩) hi rfl
          ⟨budget, hreload⟩), .inr ⟨_, rfl⟩⟩
  | dispatchOne place e args =>
      rcases onInstance_cases h with ⟨-, rfl⟩ | ⟨i, o, i', w', hi, hdispatch, rfl⟩
      · exact ⟨[], .refl _, .inl rfl⟩
      · exact ⟨_, .single (Registry.dispatch_act hi hdispatch), .inr ⟨_, rfl, rfl, rfl⟩⟩
  | invokeOne place e args =>
      rcases onInstance_cases h with ⟨-, rfl⟩ | ⟨i, o, i', w', hi, hinvoke, rfl⟩
      · exact ⟨[], .refl _, .inl rfl⟩
      · exact ⟨_, .single (.invoked place (c := ⟨i, e, args, r.world, o, i', w'⟩) hi rfl
          ⟨budget, hinvoke⟩), .inr ⟨_, rfl, rfl, rfl⟩⟩
  | around c =>
      cases h
      exact ⟨_, .single (.chore c), rfl⟩

/-- The calls that an operation makes. -/
inductive Calls : Op → Event → Prop
  | first {c : Call} (he : c.entry = .onInit) : Calls .update (.started c)
  | update {c : Call} (he : c.entry = .onUpdate)
      (hn : c.before.state = .ready → c.before.initialized = true) : Calls .update (.called c)
  | draw {surface : ImageId} {c : Call} (he : c.entry = .onDraw) : Calls (.draw surface) (.called c)
  | message {name : String} {payload : HostValue} {c : Call} (he : c.entry = .onMessage)
      (hn : c.before.name = name) : Calls (.sendMessage name payload) (.called c)
  | dispatched {place : Nat} {c : Call} : Calls (.dispatchOne place c.entry c.args) (.called c)
  | invoked {place : Nat} {c : Call} : Calls (.invokeOne place c.entry c.args) (.invoked c)

/-- The arguments that an operation passes to the entry points that it calls. -/
def given : Op → List HostValue
  | sendMessage _ payload => [payload]
  | dispatchOne _ _ args | invokeOne _ _ args => args
  | _ => []

/-- The chores that belong to an operation. -/
def includes : Op → Chore → Bool
  | remove id, .requestRemoval other => other = id
  | update, .tick | update, .takeAdds | update, .countFrame | update, .record _
  | update, .measure _ => true
  | draw surface, .display other => other = surface
  | draw _, .takeAdds | draw _, .record _ | draw _, .takeRemovals => true
  | sendMessage _ _, .takeAdds => true
  | reset, .takeRemovals | reset, .takeAdds => true
  | _, _ => false

/-- The events that an operation can come to, one by one. -/
inductive Tells : Op → Event → Prop
  | call {o : Op} {e : Event} {c : Call} (hc : e.call? = some c) (hcalls : o.Calls e)
      (hargs : c.args = o.given) : Tells o e
  | joined {o : Op} (a : Attempt) : Tells o (.joined a)
  | tried {o : Op} (a : Attempt) : Tells o (.tried a)
  /-- Who takes the requests for removal has instances leave. -/
  | left {o : Op} (ids : List InstanceId) (h : o.includes .takeRemovals = true) : Tells o (.left ids)
  | around (c : Chore) : Tells (.around c) (.chore c)
  | chore {o : Op} {c : Chore} (h : o.includes c = true) : Tells o (.chore c)

/-- The calls in the rounds of a pass are the calls on its visits. -/
theorem tells_of_rounds {visiting : Visiting (List Call)} {place : Nat} {r r' : Registry}
    {vs : List (Round (List Call))} {o : Op} (h : Rounds visiting place r vs r')
    (hv : ∀ {i w calls i' w'}, visiting i w calls i' w' →
      ∀ c ∈ calls, o.Calls c.event ∧ c.args = o.given)
    (ho : o.includes .takeAdds = true) {e : Event} (he : e ∈ vs.flatMap Round.told) :
    o.Tells e := by
  rcases Round.told_cases he with ⟨v, hmem, d, hd, rfl⟩ | rfl | ⟨a, rfl⟩
  · obtain ⟨hcalls, hargs⟩ := hv (h.each v hmem).1 d hd
    have hcall : d.event.call? = some d := by
      rcases d.event_cases with heq | heq <;> rw [heq] <;> rfl
    exact .call hcall hcalls hargs
  · exact .chore ho
  · exact .joined a

theorem Told.tells {o : Op} {r : Registry} {es : List Event} (h : o.Told r es) {e : Event}
    (he : e ∈ es) : o.Tells e := by
  cases o with
  | add name =>
      obtain ⟨a, rfl, -⟩ := h
      cases List.mem_singleton.mp he
      exact .joined a
  | addStartup =>
      obtain ⟨loads, rfl, -⟩ := h
      obtain ⟨a, -, rfl⟩ := List.mem_map.mp he
      exact .joined a
  | remove id =>
      cases h
      cases List.mem_singleton.mp he
      exact .chore (decide_eq_true rfl)
  | update =>
      obtain ⟨vs, r₁, report, cost, hrounds, rfl⟩ := h
      simp only [Registry.counting, List.mem_append, List.mem_cons, List.not_mem_nil,
        or_false] at he
      rcases he with (rfl | he) | rfl | rfl | rfl | rfl
      · exact .chore rfl
      · refine tells_of_rounds hrounds (fun hvisit d hd => ?_) rfl he
        cases hvisit with
        | first _ _ _ _ =>
            simp only [List.mem_cons, List.not_mem_nil, or_false] at hd
            rcases hd with rfl | rfl
            · exact ⟨.first rfl, rfl⟩
            · exact ⟨.update rfl fun _ => rfl, rfl⟩
        | later hnot _ =>
            cases List.mem_singleton.mp hd
            refine ⟨.update rfl fun hready => ?_, rfl⟩
            exact Bool.of_not_eq_false fun hn => hnot ⟨hn, hready⟩
      all_goals exact .chore rfl
  | draw surface =>
      obtain ⟨vs, r₁, r₂, scanned, tries, hrounds, hscan, -, rfl⟩ := h
      rcases List.mem_append.mp he with he | he
      · rcases List.mem_append.mp he with he | he
        · rcases List.mem_cons.mp he with rfl | he
          · exact .chore (decide_eq_true rfl)
          · refine tells_of_rounds hrounds (fun hvisit d hd => ?_) rfl he
            cases hvisit with
            | drawn _ =>
                cases List.mem_singleton.mp hd
                exact ⟨.draw rfl, rfl⟩
        · rcases hscan.cases e he with ⟨a, rfl⟩ | ⟨l, rfl⟩
          · exact .tried a
          · exact .chore rfl
      · rcases List.mem_cons.mp he with rfl | he
        · exact .chore rfl
        · split at he
          · nomatch he
          · simp only [List.mem_cons, List.not_mem_nil, or_false] at he
            rcases he with rfl | rfl
            · exact .left _ rfl
            · exact .chore rfl
  | sendMessage name payload =>
      obtain ⟨vs, r₁, hrounds, rfl⟩ := h
      refine tells_of_rounds hrounds (fun hvisit d hd => ?_) rfl he
      cases hvisit with
      | named hn _ =>
          cases List.mem_singleton.mp hd
          exact ⟨.message rfl hn, rfl⟩
      | other => nomatch hd
  | reload name =>
      obtain ⟨attempts, rfl, -⟩ := h
      obtain ⟨a, -, rfl⟩ := List.mem_map.mp he
      exact .tried a
  | reset =>
      obtain ⟨loads, rfl, -⟩ := h
      simp only [List.mem_cons, List.mem_map] at he
      rcases he with rfl | rfl | rfl | ⟨a, -, rfl⟩
      · exact .left _ rfl
      · exact .chore rfl
      · exact .chore rfl
      · exact .joined a
  | reloadOne place =>
      rcases h with rfl | ⟨a, rfl⟩
      · nomatch he
      · cases List.mem_singleton.mp he
        exact .tried a
  | dispatchOne place entry args =>
      rcases h with rfl | ⟨d, rfl, rfl, rfl⟩
      · nomatch he
      · cases List.mem_singleton.mp he
        exact .call rfl .dispatched rfl
  | invokeOne place entry args =>
      rcases h with rfl | ⟨d, rfl, rfl, rfl⟩
      · nomatch he
      · cases List.mem_singleton.mp he
        exact .call rfl .invoked rfl
  | around c =>
      cases h
      cases List.mem_singleton.mp he
      exact .around c

theorem Told.calls {o : Op} {r : Registry} {es : List Event} (h : o.Told r es) {e : Event}
    {c : Call} (he : e ∈ es) (hc : e.call? = some c) : o.Calls e := by
  cases h.tells he with
  | call _ hcalls => exact hcalls
  | joined | tried | left | around | chore => nomatch hc

end Op

/-- The registry after operations, one after the other. -/
def Op.runAll (budget : Nat) (r : Registry) : List Op → Option Registry
  | [] => some r
  | o :: rest => do
    let r ← o.run budget r
    runAll budget r rest

/-- A history: the host of a configuration was started in a world, operations followed, and these
are the events since, for each operation acts that lead where it does. -/
inductive Reached (c : HostConfig) (w : World) : List Event → Registry → Prop
  | start : Reached c w [] (Registry.start c w)
  | op {es new : List Event} {r r' : Registry} {budget : Nat} {o : Op} (h : Reached c w es r)
      (ho : o.run budget r = some r') (hp : Path r new r') : Reached c w (es ++ new) r'

namespace Reached

variable {c : HostConfig} {w : World} {es : List Event} {r r' : Registry}

/-- Every operation goes on with the history. -/
theorem next (h : Reached c w es r) {budget : Nat} {o : Op} (ho : o.run budget r = some r') :
    ∃ new, Path r new r' ∧ Reached c w (es ++ new) r' := by
  obtain ⟨new, hp, -⟩ := Op.story ho
  exact ⟨new, hp, h.op ho hp⟩

theorem all : ∀ {ops : List Op} {es : List Event} {r : Registry}, Reached c w es r →
    ∀ {budget : Nat}, Op.runAll budget r ops = some r' → ∃ new, Reached c w (es ++ new) r'
  | [], es, _, h, _, hr => by
    cases hr
    exact ⟨[], by rwa [List.append_nil]⟩
  | o :: rest, es, r, h, budget, hr => by
    obtain ⟨r₁, ho, hr⟩ := Option.bind_eq_some_iff.mp hr
    obtain ⟨first, -, h₁⟩ := h.next ho
    obtain ⟨new, h'⟩ := h₁.all hr
    exact ⟨first ++ new, by rwa [← List.append_assoc]⟩

theorem path (h : Reached c w es r) : Path (Registry.start c w) es r := by
  induction h with
  | start => exact .refl _
  | op _ _ hp ih => exact ih.trans hp

/-- What holds at the start and is kept by every act holds all along. -/
theorem invariant {P : List Event → Registry → Prop} (hstart : P [] (Registry.start c w))
    (hact : ∀ {es r e r'}, P es r → Act r e r' → P (es ++ [e]) r') (h : Reached c w es r) :
    P es r := by
  exact h.path.invariant hact hstart

end Reached

/-- Files of which the directory of the scripts holds these, its libraries are these, and there are
no others. -/
def FileTree.ofScripts (scripts : List (String × String)) (libraries : List (String × String) := []) :
    FileTree :=
  let files := List.map fun (name, text) => (name, Node.file text.toUTF8 1000)
  { root := .dir [("scripts", .dir (files scripts ++ [("libraries", .dir (files libraries))]))] }

/-- A world with these scripts and libraries, later than they were written. -/
def World.ofScripts (scripts : List (String × String)) (libraries : List (String × String) := []) :
    World :=
  { (default : World) with clock := 2000, files := .ofScripts scripts libraries }

/-- A world with one script and nothing beside it. -/
def World.ofScript (name text : String) : World :=
  let scripts : Node := .dir [(name, .file text.toUTF8 1000)]
  { (default : World) with clock := 2000, files := { root := .dir [("scripts", scripts)] } }

end Stagehand
