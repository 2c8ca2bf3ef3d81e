import Mathlib.Logic.Relation
import Stagehand.Proofs.Runs
import Stagehand.Registry

/-!
# The chronicle of a registry

Whatever a registry does to its instances it does in acts of a few kinds: an instance joins and is
loaded, one is loaded again, an entry point of one is called, some leave, or only the world moves
on. `Act` says of each kind what it changes, guards included, and `Path` is a sequence of acts with
the events that they are. Every operation of the registry is a path (`Op.story`), passes and scans
included; an invariant therefore takes one lemma for each kind of act and none for each operation.
-/

namespace Stagehand

open Lang

/-! ## Events -/

/-- An attempt to load an instance: what it was, in which world, how the attempt ended, and what
the instance and the world were then. -/
structure Attempt where
  before : Instance
  world : World
  result : Except ReloadError Unit
  after : Instance
  left : World

/-- The attempt is a run of the reload. -/
def Attempt.Genuine (libraries : Libraries) (a : Attempt) : Prop :=
  ∃ budget, a.before.reload budget libraries a.world = some (a.result, a.after, a.left)

/-- The attempt loaded the instance. -/
def Attempt.succeeded (a : Attempt) : Bool := a.result.isOk

/-- An entry point of an instance is called: the same about the call. -/
structure Call where
  before : Instance
  entry : EntryPoint
  args : List HostValue
  world : World
  outcome : Outcome
  after : Instance
  left : World

/-- The call is a dispatch by a pass. -/
def Call.Dispatched (libraries : Libraries) (c : Call) : Prop :=
  ∃ budget, c.before.dispatch budget libraries c.entry c.args c.world =
    some (c.outcome, c.after, c.left)

/-- The call is made by the host, which does not stop the instance if it fails. -/
def Call.Invoked (libraries : Libraries) (c : Call) : Prop :=
  ∃ budget, c.before.invoke budget libraries c.entry c.args c.world =
    some (c.outcome, c.after, c.left)

/-- What changes a registry but no instance of it. -/
inductive Chore where
  | record (r : LogRecord)
  | tick
  | countFrame
  | display (surface : ImageId)
  | measure (cost : Int)
  | takeAdds
  | takeRemovals
  | requestAdd (name : String)
  | requestRemoval (id : InstanceId)
  /-- Somebody else changes the files. -/
  | edit (files : FileTree)
  /-- Time passes. -/
  | wait (time : Nat)
  /-- The host puts a value into a store. -/
  | seed (id : StoreId) (key : String) (value : HostValue)

/-- The registry after a chore. -/
def Chore.apply (r : Registry) : Chore → Registry
  | record l => { r with world := r.world.record l }
  | tick => { r with world := r.world.tick.2 }
  | countFrame => { r with world := r.world.modifyHost fun h => { h with frame := h.frame + 1 } }
  | display surface => { r with world := r.world.modifyHost fun h => { h with screen := surface } }
  | measure cost => { r with updateCost := cost }
  | takeAdds => { r with world := r.world.takeAdds.2 }
  | takeRemovals => { r with world := r.world.takeRemovals.2 }
  | requestAdd name => { r with world := r.world.requestAdd name }
  | requestRemoval id => { r with world := r.world.requestRemoval id }
  | edit files => { r with world := { r.world with files } }
  | wait time => { r with world := { r.world with clock := r.world.clock + time } }
  | seed id key value => { r with world := r.world.modifyStore id fun d => d.set key value }

/-- What happens to the instances of a registry. -/
inductive Event where
  /-- A new instance was loaded for the first time and joined. -/
  | joined (a : Attempt)
  | tried (a : Attempt)
  | called (c : Call)
  | invoked (c : Call)
  /-- The first update of an instance called `OnInit`. -/
  | started (c : Call)
  | left (ids : List InstanceId)
  | chore (c : Chore)

/-- The event of a call in a pass, where nothing but a first update calls `OnInit`. -/
def Call.event (c : Call) : Event := if c.entry = .onInit then .started c else .called c

theorem Call.event_cases (d : Call) : d.event = .started d ∨ d.event = .called d := by
  unfold Call.event
  split
  · exact .inl rfl
  · exact .inr rfl

/-! ## What an event is about -/

/-- The entry point was run, to its end or to a fault. -/
def Call.executed (c : Call) : Bool :=
  match c.outcome with
  | .skipped => false
  | .completed _ | .failed _ => true

namespace Event

/-- The instance that an event is about, before it and after it. -/
def change? : Event → Option (Instance × Instance)
  | .joined a | .tried a => some (a.before, a.after)
  | .called c | .invoked c => some (c.before, c.after)
  | .started c => some (c.before, c.after.markInitialized)
  | .left _ | .chore _ => none

/-- The number of that instance. -/
def subject? (e : Event) : Option InstanceId := e.change?.map (·.1.id)

/-- The call of an entry point that an event is. -/
def call? : Event → Option Call
  | .called c | .invoked c | .started c => some c
  | .joined _ | .tried _ | .left _ | .chore _ => none

/-- The event is a first update. -/
def starts : Event → Bool
  | .started _ => true
  | _ => false

/-- The event is a load that succeeded. -/
def loads : Event → Bool
  | .joined a | .tried a => a.succeeded
  | _ => false

/-- The event is a dispatch that failed. -/
def stops : Event → Bool
  | .called c | .started c => c.outcome.isFailed
  | _ => false

/-- The event ran this entry point of the instance with this number. -/
def runs (entry : EntryPoint) (id : InstanceId) (e : Event) : Bool :=
  e.call?.any fun c => c.entry == entry && (c.before.id == id && c.executed)

theorem runs_iff {e : Event} {entry : EntryPoint} {id : InstanceId} : e.runs entry id = true ↔
    ∃ c, e.call? = some c ∧ c.entry = entry ∧ c.before.id = id ∧ c.executed = true := by
  simp [runs, Option.any_eq_true]

end Event

/-! ## Acts -/

/-- One act of a registry. -/
inductive Act (r : Registry) : Event → Registry → Prop
  | joined {name : String} {a : Attempt} (hb : a.before = (r.create name).1)
      (hw : a.world = (r.create name).2.world) (h : a.Genuine r.libraries) :
      Act r (.joined a)
        { (r.create name).2 with world := a.left, instances := r.instances ++ [a.after] }
  | tried (place : Nat) {a : Attempt} (hi : r.instances[place]? = some a.before)
      (hw : a.world = r.world) (h : a.Genuine r.libraries) :
      Act r (.tried a) { r with world := a.left, instances := r.instances.set place a.after }
  | called (place : Nat) {c : Call} (hi : r.instances[place]? = some c.before)
      (hw : c.world = r.world) (h : c.Dispatched r.libraries) :
      Act r (.called c) { r with world := c.left, instances := r.instances.set place c.after }
  | invoked (place : Nat) {c : Call} (hi : r.instances[place]? = some c.before)
      (hw : c.world = r.world) (h : c.Invoked r.libraries) :
      Act r (.invoked c) { r with world := c.left, instances := r.instances.set place c.after }
  | started (place : Nat) {c : Call} (hi : r.instances[place]? = some c.before)
      (hw : c.world = r.world) (he : c.entry = .onInit) (hs : c.before.state = .ready)
      (hn : c.before.initialized = false) (h : c.Dispatched r.libraries) :
      Act r (.started c)
        { r with world := c.left, instances := r.instances.set place c.after.markInitialized }
  | left (ids : List InstanceId) :
      Act r (.left ids)
        { r with
          world := ids.foldl World.forget r.world
          instances := r.instances.filter fun i => !ids.contains i.id }
  | chore (c : Chore) : Act r (.chore c) (c.apply r)

/-- Acts, one after the other, and the events that they are. -/
inductive Path : Registry → List Event → Registry → Prop
  | refl (r : Registry) : Path r [] r
  | step {r r' r'' : Registry} {e : Event} {es : List Event} (h : Act r e r')
      (hs : Path r' es r'') : Path r (e :: es) r''

namespace Path

variable {r r' r'' : Registry} {e : Event} {es es' : List Event}

theorem single (h : Act r e r') : Path r [e] r' := .step h (.refl r')

theorem trans (h : Path r es r') (h' : Path r' es' r'') : Path r (es ++ es') r'' := by
  induction h with
  | refl => exact h'
  | step hact _ ih => exact .step hact (ih h')

/-- A path can be cut between any two of its events. -/
theorem split : ∀ {es es' : List Event} {r r'' : Registry}, Path r (es ++ es') r'' →
    ∃ r', Path r es r' ∧ Path r' es' r''
  | [], _, r, _, h => ⟨r, .refl r, h⟩
  | _ :: _, _, _, _, .step hact hrest =>
    let ⟨r', h, h'⟩ := split hrest
    ⟨r', .step hact h, h'⟩

/-- A path leads up to each of its events, through it, and on. -/
theorem at_event {pre post : List Event} (h : Path r (pre ++ e :: post) r'') :
    ∃ r₁ r₂, Path r pre r₁ ∧ Act r₁ e r₂ ∧ Path r₂ post r'' := by
  obtain ⟨r₁, hpre, hrest⟩ := h.split
  cases hrest with
  | step hact hpost => exact ⟨r₁, _, hpre, hact, hpost⟩

/-- What every act keeps, a path keeps. -/
theorem invariant {P : List Event → Registry → Prop}
    (hact : ∀ {es r e r'}, P es r → Act r e r' → P (es ++ [e]) r') {past : List Event}
    (h : Path r es r') (hP : P past r) : P (past ++ es) r' := by
  induction h generalizing past with
  | refl => rwa [List.append_nil]
  | step hstep _ ih =>
      have := ih (hact hP hstep)
      rwa [List.append_assoc, List.singleton_append] at this

end Path

/-! ## Operations -/

theorem set_self {α : Type} {as : List α} {place : Nat} {a : α} (h : as[place]? = some a) :
    as.set place a = as := by
  obtain ⟨hlt, rfl⟩ := List.getElem?_eq_some_iff.mp h
  exact List.set_getElem_self hlt

/-- No act changes the configuration or the index of libraries. -/
theorem Act.fixed {r r' : Registry} {e : Event} (h : Act r e r') :
    r'.scripts = r.scripts ∧ r'.libraries = r.libraries := by
  cases h with
  | chore c => cases c <;> exact ⟨rfl, rfl⟩
  | _ => exact ⟨rfl, rfl⟩

theorem Path.fixed {r r' : Registry} {es : List Event} (h : Path r es r') :
    r'.scripts = r.scripts ∧ r'.libraries = r.libraries := by
  induction h with
  | refl => exact ⟨rfl, rfl⟩
  | step hact _ ih => exact ⟨ih.1.trans hact.fixed.1, ih.2.trans hact.fixed.2⟩

/-- Only to count a frame changes the count. -/
theorem Act.frame {r r' : Registry} {e : Event} (h : Act r e r') (he : e ≠ .chore .countFrame) :
    r'.world.host.frame = r.world.host.frame := by
  cases h with
  | joined hb hw hg =>
      obtain ⟨budget, hreload⟩ := hg
      exact (Instance.reload_frame hreload).trans (congrArg (·.host.frame) hw)
  | tried place hi hw hg =>
      obtain ⟨budget, hreload⟩ := hg
      exact (Instance.reload_frame hreload).trans (congrArg (·.host.frame) hw)
  | called place hi hw hg =>
      obtain ⟨budget, hdispatch⟩ := hg
      exact (Instance.dispatch_frame hdispatch).trans (congrArg (·.host.frame) hw)
  | invoked place hi hw hg =>
      obtain ⟨budget, hinvoke⟩ := hg
      exact (Instance.invoke_frame hinvoke).trans (congrArg (·.host.frame) hw)
  | started place hi hw _ _ _ hg =>
      obtain ⟨budget, hdispatch⟩ := hg
      exact (Instance.dispatch_frame hdispatch).trans (congrArg (·.host.frame) hw)
  | left ids =>
      obtain ⟨⟨realms, hforget⟩, -⟩ := r.world.foldl_forget ids
      exact congrArg (·.host.frame) hforget
  | chore c =>
      cases c with
      | countFrame => exact absurd rfl he
      | _ => rfl

/-- Instances that join come behind those that are there. -/
theorem Path.joined_instances : ∀ {loads : List Attempt} {r r' : Registry},
    Path r (loads.map .joined) r' → r'.instances = r.instances ++ loads.map (·.after)
  | [], _, _, h => by
    cases h
    simp
  | a :: loads, r, r', h => by
    cases h with
    | step hact hpath =>
        cases hact with
        | joined => simpa using joined_instances hpath

theorem Path.joined_frame : ∀ {loads : List Attempt} {r r' : Registry},
    Path r (loads.map .joined) r' → r'.world.host.frame = r.world.host.frame
  | [], _, _, h => by
    cases h
    rfl
  | a :: loads, r, r', h => by
    cases h with
    | step hact hpath => exact (joined_frame hpath).trans (hact.frame nofun)

namespace Registry

variable {budget : Nat} {r r' : Registry}

/-- To add an instance is one act. -/
theorem add_joined {name : String} {id : InstanceId} (h : r.add budget name = some (id, r')) :
    ∃ a : Attempt, Act r (.joined a) r' ∧ a.before.name = name ∧ a.after.id = id := by
  obtain ⟨⟨result, i, w⟩, hreload, h⟩ := Option.bind_eq_some_iff.mp h
  cases h
  exact ⟨⟨_, _, result, i, w⟩, .joined rfl rfl ⟨budget, hreload⟩, rfl, rfl⟩

/-- To add instances is to do so one after the other, in the order of their names. -/
theorem addAll_joined : ∀ {names : List String} {r : Registry},
    r.addAll budget names = some r' → ∃ loads : List Attempt,
      Path r (loads.map .joined) r' ∧ loads.map (fun a => a.before.name) = names
  | [], _, h => by
    cases h
    exact ⟨[], .refl _, rfl⟩
  | name :: rest, r, h => by
    obtain ⟨⟨id, r₁⟩, hadd, hrest⟩ := Option.bind_eq_some_iff.mp h
    obtain ⟨a, hact, rfl, -⟩ := add_joined hadd
    obtain ⟨loads, hpath, rfl⟩ := addAll_joined (show r₁.addAll budget rest = some r' from hrest)
    exact ⟨a :: loads, .step hact hpath, rfl⟩

/-- The events of taking out those whose removal was asked for. -/
def removing (r : Registry) : List Event :=
  let gone := r.world.removals.pending
  let left := r.instances.filter fun i => !gone.contains i.id
  .chore .takeRemovals ::
    if gone.isEmpty then []
    else [.left gone, .chore (.record (Level.debug.report "applied removals"
      [("removed", toString gone.length), ("remaining", toString left.length)]))]

theorem applyRemovals_path (r : Registry) : Path r r.removing r.applyRemovals := by
  unfold Registry.applyRemovals removing World.takeRemovals
  dsimp only
  split
  · exact .single (.chore .takeRemovals)
  · exact .step (.chore .takeRemovals) (.step (.left _) (.single (.chore (.record _))))

/-- To start anew, all leave, the requests are forgotten, and the first scripts join again. -/
theorem reset_path (h : r.reset budget = some r') : ∃ loads : List Attempt,
    Path r (.left (r.instances.map Instance.id) :: .chore .takeRemovals :: .chore .takeAdds ::
        loads.map .joined) r' ∧
      loads.map (fun a => a.before.name) = r.scripts.startup := by
  obtain ⟨loads, hjoined, hnames⟩ := addAll_joined h
  have hleft := Act.left (r := r) (r.instances.map Instance.id)
  have hnone : r.instances.filter
      (fun i => !(r.instances.map Instance.id).contains i.id) = [] := by
    simp only [List.filter_eq_nil_iff, Bool.not_eq_true', Bool.not_eq_false,
      List.contains_eq_mem, decide_eq_true_eq]
    exact fun i hi => List.mem_map_of_mem hi
  rw [hnone, List.foldl_map] at hleft
  exact ⟨loads, .step hleft (.step (.chore .takeRemovals) (.step (.chore .takeAdds) hjoined)),
    hnames⟩

/-- An instance between others is loaded again. -/
theorem reloadAt_act {libraries : Libraries} (hl : r.libraries = libraries) {i i' : Instance}
    {w w' : World} {result : Except ReloadError Unit}
    (h : i.reload budget libraries w = some (result, i', w')) (done rest : List Instance) :
    Act { r with instances := done ++ i :: rest, world := w } (.tried ⟨i, w, result, i', w'⟩)
      { r with instances := done ++ i' :: rest, world := w' } := by
  have hset : (done ++ i :: rest).set done.length i' = done ++ i' :: rest := by simp
  rw [← hset]
  exact .tried done.length (a := ⟨i, w, result, i', w'⟩) (by simp) rfl ⟨budget, hl ▸ h⟩

/-- Along the list, by induction: `done` is the part that was gone through. -/
theorem reloadIn_path {name : String} : ∀ {is is' : List Instance} {w w' : World}
    {results : List (Except ReloadError Unit)},
    reloadIn budget r.libraries name is w = some (results, is', w') → ∀ done : List Instance,
      ∃ attempts : List Attempt,
        Path { r with instances := done ++ is, world := w } (attempts.map .tried)
          { r with instances := done ++ is', world := w' } ∧
        attempts.map Attempt.before = is.filter (·.name == name) ∧
        attempts.map Attempt.result = results
  | [], _, w, _, _, h, done => by
    cases h
    exact ⟨[], .refl _, rfl, rfl⟩
  | i :: rest, is', w, w', results, h, done => by
    unfold reloadIn at h
    split at h
    · rename_i hname
      obtain ⟨⟨result, i₁, w₁⟩, hreload, h⟩ := Option.bind_eq_some_iff.mp h
      obtain ⟨⟨results₂, rest₂, w₂⟩, hrest, h⟩ := Option.bind_eq_some_iff.mp h
      cases h
      obtain ⟨attempts, hpath, hbefore, hresults⟩ := reloadIn_path hrest (done ++ [i₁])
      simp only [List.append_assoc, List.singleton_append] at hpath
      refine ⟨⟨i, w, result, i₁, w₁⟩ :: attempts,
        .step (reloadAt_act rfl hreload done rest) hpath, ?_, ?_⟩
      · rw [List.map_cons, hbefore, List.filter_cons, if_pos hname]
      · rw [List.map_cons, hresults]
    · rename_i hname
      obtain ⟨⟨results₂, rest₂, w₂⟩, hrest, h⟩ := Option.bind_eq_some_iff.mp h
      cases h
      obtain ⟨attempts, hpath, hbefore, hresults⟩ := reloadIn_path hrest (done ++ [i])
      simp only [List.append_assoc, List.singleton_append] at hpath
      exact ⟨attempts, hpath, by rw [hbefore, List.filter_cons, if_neg hname], hresults⟩

/-- The instances of a name are loaded again, each once and in the order of the list. -/
theorem reload_path {name : String} {results : List (Except ReloadError Unit)}
    (h : r.reload budget name = some (results, r')) : ∃ attempts : List Attempt,
      Path r (attempts.map .tried) r' ∧
      attempts.map Attempt.before = r.instances.filter (·.name == name) ∧
      attempts.map Attempt.result = results := by
  obtain ⟨⟨results, is, w⟩, hreload, h⟩ := Option.bind_eq_some_iff.mp h
  cases h
  exact reloadIn_path hreload []

end Registry
end Stagehand
