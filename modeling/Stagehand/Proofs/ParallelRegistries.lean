import Stagehand.Proofs.Histories
import Stagehand.Proofs.ParallelInstances

/-!
# Registries, side by side

Two registries whose instances, stores and requests differ in numbers alone do the same under the
same operations. What an operation tells the host (`Op.ask`) then differs in numbers alone, too.
-/

namespace Stagehand

open Lang

instance : Renames ScanError := ⟨fun _ e => e⟩

instance : Renames Chore := ⟨fun ρ c =>
  match c with
  | .requestRemoval id => .requestRemoval (ρ.script id)
  | .seed id key value => .seed (ρ.store id) key (ρ.on value)
  | c => c⟩

instance : Renames Op := ⟨fun ρ o =>
  match o with
  | .remove id => .remove (ρ.script id)
  | .sendMessage name payload => .sendMessage name (ρ.on payload)
  | .dispatchOne place e args => .dispatchOne place e (ρ.on args)
  | .invokeOne place e args => .invokeOne place e (ρ.on args)
  | .around c => .around (ρ.on c)
  | o => o⟩

/-- Related options stay so when related steps follow that always go on. -/
theorem rel_map {α β γ δ : Type} {R : α → β → Prop} {S : γ → δ → Prop} {x : Option α}
    {y : Option β} {f : α → γ} {g : β → δ} (h : Option.Rel R x y)
    (hf : ∀ a b, R a b → S (f a) (g b)) : Option.Rel S (x.map f) (y.map g) := by
  cases h with
  | none => exact .none
  | some h => exact .some (hf _ _ h)

/-! ## What operations tell -/

/-- What an operation tells the host. -/
inductive Answer where
  | nothing
  | added (id : InstanceId)
  /-- How long the update took. -/
  | updated (cost : Int)
  | drawn (result : Except ScanError Unit)
  /-- How many instances handled the message. -/
  | delivered (handled : Nat)
  | reloaded (results : List (Except ReloadError Unit))
  | ended (outcome : Outcome)

instance : Renames Answer := ⟨fun ρ a =>
  match a with
  | .added id => .added (ρ.script id)
  | .reloaded results => .reloaded (ρ.on results)
  | .ended outcome => .ended (ρ.on outcome)
  | a => a⟩

namespace Op

/-- What is done with the instance at a place, and what comes of it. -/
def askInstance {α : Type} (r : Registry) (place : Nat) (visit : Registry.Visit α)
    (answer : α → Answer) : Option (Answer × Registry) :=
  match r.instances[place]? with
  | none => some (.nothing, r)
  | some i => do
    let (a, i, world) ← visit i r.world
    return (answer a, { r with world, instances := r.instances.set place i })

/-- What an operation tells the host, and the registry after it. -/
def ask (budget : Nat) (r : Registry) : Op → Option (Answer × Registry)
  | add name => (r.add budget name).map fun (id, r) => (.added id, r)
  | addStartup => (r.addStartup budget).map fun r => (.nothing, r)
  | remove id => some (.nothing, r.remove id)
  | update => (r.update budget).map fun r => (.updated r.updateCost, r)
  | draw surface => (r.draw budget surface).map fun (result, r) => (.drawn result, r)
  | sendMessage name payload =>
    (r.sendMessage budget name payload).map fun (handled, r) => (.delivered handled, r)
  | reload name => (r.reload budget name).map fun (results, r) => (.reloaded results, r)
  | reset => (r.reset budget).map fun r => (.nothing, r)
  | reloadOne place =>
    askInstance r place (fun i w => i.reload budget r.libraries w) fun result =>
      .reloaded [result]
  | dispatchOne place e args =>
    askInstance r place (fun i w => i.dispatch budget r.libraries e args w) .ended
  | invokeOne place e args =>
    askInstance r place (fun i w => i.invoke budget r.libraries e args w) .ended
  | around c => some (.nothing, c.apply r)

/-- What operations tell the host one after the other, and the registry after them. -/
def askAll (budget : Nat) (r : Registry) : List Op → Option (List Answer × Registry)
  | [] => some ([], r)
  | o :: rest => do
    let (a, r) ← o.ask budget r
    let (as, r) ← askAll budget r rest
    return (a :: as, r)

theorem askInstance_run {α : Type} (r : Registry) (place : Nat) (visit : Registry.Visit α)
    (answer : α → Answer) :
    (askInstance r place visit answer).map (·.2) = onInstance r place visit := by
  unfold askInstance onInstance
  cases r.instances[place]? with
  | none => rfl
  | some i =>
      dsimp only
      cases visit i r.world <;> rfl

/-- To ask is to run. -/
theorem ask_run (budget : Nat) (r : Registry) (o : Op) :
    (o.ask budget r).map (·.2) = o.run budget r := by
  cases o with
  | add name | addStartup | update | draw | sendMessage | reload | reset =>
      simp only [ask, run, Option.map_map, Function.comp_def, Option.map_id']
  | remove | around => rfl
  | reloadOne place =>
      exact askInstance_run r place (fun i w => i.reload budget r.libraries w)
        fun result => .reloaded [result]
  | dispatchOne place e args =>
      exact askInstance_run r place (fun i w => i.dispatch budget r.libraries e args w) _
  | invokeOne place e args =>
      exact askInstance_run r place (fun i w => i.invoke budget r.libraries e args w) _

theorem askAll_runAll (budget : Nat) : ∀ (r : Registry) (ops : List Op),
    (askAll budget r ops).map (·.2) = runAll budget r ops
  | r, [] => rfl
  | r, o :: rest => by
    rw [runAll, ← ask_run, askAll]
    cases o.ask budget r with
    | none => rfl
    | some p =>
        obtain ⟨a, r⟩ := p
        change ((askAll budget r rest).bind _).map _ = runAll budget r rest
        rw [← askAll_runAll]
        cases askAll budget r rest <;> rfl

end Op

/-! ## Registries that differ in numbers -/

namespace Pairing

/-- The registries differ in numbers and in what was reported before. -/
structure Registries (τ : Pairing) (f r : Registry) : Prop where
  scripts : r.scripts = f.scripts
  libraries : r.libraries = f.libraries
  world : τ.Worlds f.world r.world
  instances : r.instances = f.instances.map τ.on
  /-- Instances that are to come get numbers alike. -/
  fresh : ∀ k, τ.script (f.nextId + k) = r.nextId + k

/-- A result and a registry, differing in numbers. -/
def Answers (τ : Pairing) {α : Type} [Renames α] (p q : α × Registry) : Prop :=
  q.1 = τ.on p.1 ∧ τ.Registries p.2 q.2

/-- Visits that differ in numbers if the instances and worlds do. -/
def Same (τ : Pairing) {α : Type} [Renames α] (visit visit' : Registry.Visit α) : Prop :=
  ∀ i w w', τ.Worlds w w' → Option.Rel τ.Visits (visit i w) (visit' (τ.on i) w')

/-! ## Scans and reloads -/

section Instances

variable {τ : Pairing} [τ.Injective] {w w' : World}

theorem reloadIn (budget : Nat) (libraries : Libraries) (name : String) :
    ∀ (is : List Instance) {w w' : World}, τ.Worlds w w' → Option.Rel τ.Visits
      (Registry.reloadIn budget libraries name is w)
      (Registry.reloadIn budget libraries name (is.map τ.on) w')
  | [], _, _, hw => .some ⟨rfl, rfl, hw⟩
  | i :: rest, w, w', hw => by
    rw [List.map_cons, Registry.reloadIn, Registry.reloadIn, on_instance_name]
    split
    · refine rel_bind (reload budget libraries i hw) ?_
      rintro ⟨r, i, w⟩ ⟨r', i', w'⟩ ⟨rfl, rfl, hw⟩
      refine rel_bind (reloadIn budget libraries name rest hw) ?_
      rintro ⟨rs, rest, w⟩ ⟨rs', rest', w'⟩ ⟨rfl, rfl, hw⟩
      exact .some ⟨rfl, rfl, hw⟩
    · refine rel_bind (reloadIn budget libraries name rest hw) ?_
      rintro ⟨rs, rest, w⟩ ⟨rs', rest', w'⟩ ⟨rfl, rfl, hw⟩
      exact .some ⟨rfl, rfl, hw⟩

theorem reloadStale (budget : Nat) (libraries : Libraries) (s : SourceFile) :
    ∀ (is : List Instance) {w w' : World}, τ.Worlds w w' → Option.Rel τ.Visits
      (Stagehand.reloadStale budget libraries s is w)
      (Stagehand.reloadStale budget libraries s (is.map τ.on) w')
  | [], _, _, hw => .some ⟨rfl, rfl, hw⟩
  | i :: rest, w, w', hw => by
    have goOn (n : Nat) (i : Instance) {w w' : World} (hw : τ.Worlds w w') : Option.Rel τ.Visits
        (do
          let goneOn ← Stagehand.reloadStale budget libraries s rest w
          return (n + goneOn.1, i :: goneOn.2.1, goneOn.2.2))
        (do
          let goneOn ← Stagehand.reloadStale budget libraries s (rest.map τ.on) w'
          return (n + goneOn.1, τ.on i :: goneOn.2.1, goneOn.2.2)) := by
      refine rel_bind (reloadStale budget libraries s rest hw) ?_
      rintro ⟨m, rest, w⟩ ⟨m', rest', w'⟩ ⟨hm, rfl, hw⟩
      obtain rfl : m' = m := hm
      exact .some ⟨rfl, rfl, hw⟩
    have hstale : (τ.on i).isStale s = i.isStale s := rfl
    rw [List.map_cons, Stagehand.reloadStale, Stagehand.reloadStale, hstale]
    split
    · dsimp only
      rw [on_instance_name]
      refine rel_bind (reload budget libraries i (hw.record rfl)) ?_
      rintro ⟨r, i, w⟩ ⟨r', i', w'⟩ ⟨rfl, rfl, hw⟩
      exact goOn 1 i hw
    · exact goOn 0 i hw

theorem reloadAll (budget : Nat) (libraries : Libraries) :
    ∀ (sources : List SourceFile) (is : List Instance) {w w' : World}, τ.Worlds w w' →
      Option.Rel τ.Visits (Stagehand.reloadAll budget libraries sources is w)
        (Stagehand.reloadAll budget libraries sources (is.map τ.on) w')
  | [], is, _, _, hw => .some ⟨rfl, rfl, hw⟩
  | s :: rest, is, w, w', hw => by
    refine rel_bind (reloadStale budget libraries s is hw) ?_
    rintro ⟨n, is, w⟩ ⟨n', is', w'⟩ ⟨hn, rfl, hw⟩
    obtain rfl : n' = n := hn
    refine rel_bind (reloadAll budget libraries rest is hw) ?_
    rintro ⟨m, is, w⟩ ⟨m', is', w'⟩ ⟨hm, rfl, hw⟩
    obtain rfl : m' = m := hm
    exact .some ⟨rfl, rfl, hw⟩

theorem scan (budget : Nat) (libraries : Libraries) (root : FilePath) (is : List Instance)
    (hw : τ.Worlds w w') : Option.Rel τ.Visits (Stagehand.scan budget libraries root is w)
      (Stagehand.scan budget libraries root (is.map τ.on) w') := by
  unfold Stagehand.scan
  rw [hw.files]
  cases collectSources w.files root with
  | error e => exact .some ⟨rfl, rfl, hw⟩
  | ok found =>
      refine rel_bind (reloadAll budget libraries found.1 is (hw.recordAll found.2)) ?_
      rintro ⟨n, is, w⟩ ⟨n', is', w'⟩ ⟨hn, rfl, hw⟩
      exact .some ⟨congrArg Except.ok hn, rfl, hw⟩

end Instances
namespace Registries

variable {τ : Pairing} [τ.Injective] {f r : Registry} (h : τ.Registries f r)
include h

omit [τ.Injective] in
/-- The world alone changes. -/
theorem withWorld {w w' : World} (hw : τ.Worlds w w') :
    τ.Registries { f with world := w } { r with world := w' } := { h with world := hw }

/-! ## Joining -/

theorem create (name : String) : (r.create name).1 = τ.on (f.create name).1 ∧
    τ.Registries (f.create name).2 (r.create name).2 := by
  obtain ⟨hstore, hworld⟩ := h.world.addStore
  have hid : r.nextId = τ.script f.nextId := (h.fresh 0).symm
  refine ⟨?_, { h with world := hworld, fresh := fun k => ?_ }⟩
  · change ({ handle := ⟨r.nextId, name⟩, source := r.scripts.sourcePath name
              data := r.world.addStore.1 } : Instance) = _
    rw [hstore, hid, h.scripts]
    rfl
  · have := h.fresh (k + 1)
    rwa [Nat.add_comm k 1, ← Nat.add_assoc, ← Nat.add_assoc] at this

theorem add (budget : Nat) (name : String) :
    Option.Rel (fun p q => q.1 = τ.script p.1 ∧ τ.Registries p.2 q.2)
      (f.add budget name) (r.add budget name) := by
  obtain ⟨hnew, hr⟩ := h.create name
  unfold Registry.add
  dsimp only
  rw [hnew, hr.libraries]
  refine rel_bind (reload budget _ _ hr.world) ?_
  rintro ⟨result, i, w⟩ ⟨result', i', w'⟩ ⟨rfl, rfl, hw⟩
  refine .some ⟨rfl, { hr with libraries := rfl, world := hw, instances := ?_ }⟩
  rw [List.map_append, List.map_singleton]
  exact congrArg (· ++ [τ.on i]) h.instances

theorem addAll (budget : Nat) (names : List String) :
    Option.Rel τ.Registries (f.addAll budget names) (r.addAll budget names) := by
  induction names generalizing f r with
  | nil => exact .some h
  | cons name rest ih => exact rel_bind (h.add budget name) fun p q hpq => ih hpq.2

theorem addStartup (budget : Nat) :
    Option.Rel τ.Registries (f.addStartup budget) (r.addStartup budget) := by
  unfold Registry.addStartup
  rw [h.scripts]
  exact h.addAll budget _

theorem applyAdds (budget : Nat) :
    Option.Rel τ.Registries (f.applyAdds budget) (r.applyAdds budget) := by
  obtain ⟨hnames, hworld⟩ := h.world.takeAdds
  unfold Registry.applyAdds
  dsimp only
  rw [hnames]
  exact (h.withWorld hworld).addAll budget _

/-! ## Leaving -/

theorem remove (id : InstanceId) : τ.Registries (f.remove id) (r.remove (τ.script id)) :=
  h.withWorld (h.world.requestRemoval id)

theorem applyRemovals : τ.Registries f.applyRemovals r.applyRemovals := by
  obtain ⟨hgone, hworld⟩ := h.world.takeRemovals
  unfold Registry.applyRemovals
  dsimp only
  rw [hgone, List.isEmpty_map]
  split
  · exact h.withWorld hworld
  · have hleft :
        r.instances.filter (fun i => !(f.world.takeRemovals.1.map τ.script).contains i.id) =
        (f.instances.filter fun i => !f.world.takeRemovals.1.contains i.id).map τ.on := by
      rw [h.instances, List.filter_map]
      congr 1
      refine List.filter_congr fun i _ => ?_
      rw [Function.comp_apply, on_instance_id, contains_script]
    rw [hleft, List.length_map, List.length_map]
    exact { h with
      world := (hworld.foldl_forget _).record rfl
      instances := rfl }

theorem reset (budget : Nat) : Option.Rel τ.Registries (f.reset budget) (r.reset budget) := by
  have hids : r.instances.map Instance.id = (f.instances.map Instance.id).map τ.script := by
    rw [h.instances, List.map_map, List.map_map]
    rfl
  have hworld := h.world.foldl_forget (f.instances.map Instance.id)
  rw [← hids, List.foldl_map, List.foldl_map] at hworld
  have hempty : τ.Registries
      { f with
        world := (f.instances.foldl (fun w i => w.forget i.id) f.world).takeRemovals.2.takeAdds.2
        instances := [] }
      { r with
        world := (r.instances.foldl (fun w i => w.forget i.id) r.world).takeRemovals.2.takeAdds.2
        instances := [] } :=
    { h with world := hworld.takeRemovals.2.takeAdds.2, instances := rfl }
  exact hempty.addStartup budget

/-! ## Passes -/

theorem visitAt (budget : Nat) {α : Type} [Renames α] {visit visit' : Registry.Visit α}
    (hvisit : τ.Same visit visit') (index : Nat) (i : Instance) :
    Option.Rel τ.Answers (f.visitAt budget visit index i)
      (r.visitAt budget visit' index (τ.on i)) := by
  refine rel_bind (hvisit i f.world r.world h.world) ?_
  rintro ⟨a, i, w⟩ ⟨a', i', w'⟩ ⟨rfl, rfl, hw⟩
  have hset : τ.Registries { f with world := w, instances := f.instances.set index i }
      { r with world := w', instances := r.instances.set index (τ.on i) } :=
    { h with world := hw, instances := by rw [h.instances, List.map_set] }
  exact rel_bind (hset.applyAdds budget) fun f r hr => .some ⟨rfl, hr⟩

theorem passFrom (budget : Nat) {α : Type} [Renames α] {visit visit' : Registry.Visit α}
    (hvisit : τ.Same visit visit') (left index : Nat) :
    Option.Rel τ.Answers (f.passFrom budget visit left index)
      (r.passFrom budget visit' left index) := by
  induction left generalizing index f r with
  | zero => exact .none
  | succ left ih =>
      rw [Registry.passFrom, Registry.passFrom, h.instances, List.getElem?_map]
      cases f.instances[index]? with
      | none => exact .some ⟨rfl, h⟩
      | some i =>
          refine rel_bind (h.visitAt budget hvisit index i) ?_
          rintro ⟨a, f⟩ ⟨a', r⟩ ⟨ha, h⟩
          refine rel_bind (ih h (index + 1)) ?_
          rintro ⟨as, f⟩ ⟨as', r⟩ ⟨has, h⟩
          exact .some ⟨congrArg₂ List.cons ha has, h⟩

theorem pass (budget : Nat) {α : Type} [Renames α] {visit visit' : Registry.Visit α}
    (hvisit : τ.Same visit visit') :
    Option.Rel τ.Answers (f.pass budget visit) (r.pass budget visit') :=
  h.passFrom budget hvisit budget 0

omit h in
theorem updateVisit (budget : Nat) (libraries : Libraries) :
    τ.Same (Registry.updateVisit budget libraries) (Registry.updateVisit budget libraries) := by
  intro i w w' hw
  have goOn (first : Option Outcome) (i : Instance) {w w' : World} (hw : τ.Worlds w w') :
      Option.Rel τ.Visits
        (do
          let called ← i.dispatch budget libraries .onUpdate [] w
          return ((first, called.1), called.2))
        (do
          let called ← (τ.on i).dispatch budget libraries .onUpdate [] w'
          return ((first.map τ.on, called.1), called.2)) := by
    refine rel_bind (dispatch budget libraries i .onUpdate [] hw) ?_
    rintro ⟨o, i, w⟩ ⟨o', i', w'⟩ ⟨rfl, rfl, hw⟩
    exact .some ⟨rfl, rfl, hw⟩
  unfold Registry.updateVisit
  rw [on_instance_initialized, on_instance_state]
  dsimp only
  split
  · refine rel_bind (dispatch budget libraries i .onInit [] hw) ?_
    rintro ⟨o, i, w⟩ ⟨o', i', w'⟩ ⟨rfl, rfl, hw⟩
    exact goOn (some o) i.markInitialized hw
  · exact goOn none i hw

theorem update (budget : Nat) :
    Option.Rel (fun f r => τ.Registries f r ∧ r.updateCost = f.updateCost)
      (f.update budget) (r.update budget) := by
  obtain ⟨hstarted, hworld⟩ := h.world.tick
  unfold Registry.update
  dsimp only
  rw [hstarted]
  have hvisit : τ.Same (Registry.updateVisit budget f.libraries)
      (Registry.updateVisit budget r.libraries) := by
    rw [h.libraries]
    exact updateVisit budget f.libraries
  refine rel_bind ((h.withWorld hworld).pass budget hvisit) ?_
  rintro ⟨as, f⟩ ⟨as', r⟩ ⟨-, h⟩
  obtain ⟨hended, hworld⟩ := (h.world.modifyHost fun h => { h with frame := h.frame + 1 }).tick
  dsimp only
  rw [hended, h.instances, List.length_map]
  exact .some ⟨{ h with world := hworld.record rfl, instances := rfl }, rfl⟩

theorem draw (budget : Nat) (surface : ImageId) :
    Option.Rel τ.Answers (f.draw budget surface) (r.draw budget surface) := by
  have hworld := h.world.modifyHost fun h => { h with screen := surface }
  unfold Registry.draw
  have hvisit : τ.Same (Registry.drawVisit budget f.libraries)
      (Registry.drawVisit budget r.libraries) := by
    rw [h.libraries]
    exact fun i w w' hw => dispatch budget f.libraries i .onDraw [] hw
  refine rel_bind ((h.withWorld hworld).pass budget hvisit) ?_
  rintro ⟨as, f⟩ ⟨as', r⟩ ⟨-, h⟩
  dsimp only
  rw [h.libraries, h.scripts, h.instances]
  refine rel_bind (scan budget f.libraries f.scripts.dir f.instances h.world) ?_
  rintro ⟨result, is, w⟩ ⟨result', is', w'⟩ ⟨rfl, rfl, hw⟩
  have hscanned : τ.Registries { f with world := w, instances := is }
      { r with
        scripts := f.scripts, libraries := f.libraries, world := w', instances := is.map τ.on } :=
    { h with scripts := rfl, libraries := rfl, world := hw, instances := rfl }
  refine .some ⟨?_, hscanned.applyRemovals⟩
  cases result <;> rfl

theorem sendMessage (budget : Nat) (name : String) (payload : HostValue) :
    Option.Rel τ.Answers (f.sendMessage budget name payload)
      (r.sendMessage budget name (τ.on payload)) := by
  unfold Registry.sendMessage
  rw [h.libraries]
  have hvisit : τ.Same (Registry.messageVisit budget f.libraries name payload)
      (Registry.messageVisit budget f.libraries name (τ.on payload)) := by
    intro i w w' hw
    unfold Registry.messageVisit
    rw [on_instance_name]
    split
    · refine rel_bind (dispatch budget f.libraries i .onMessage [payload] hw) ?_
      rintro ⟨o, i, w⟩ ⟨o', i', w'⟩ ⟨rfl, rfl, hw⟩
      refine .some ⟨?_, rfl, hw⟩
      cases o <;> rfl
    · exact .some ⟨rfl, rfl, hw⟩
  refine rel_bind (h.pass budget hvisit) ?_
  rintro ⟨handled, f⟩ ⟨handled', r⟩ ⟨hhandled, h⟩
  refine .some ⟨congrArg (List.count true) (hhandled.trans ?_), h⟩
  exact List.map_id' handled

theorem reload (budget : Nat) (name : String) :
    Option.Rel τ.Answers (f.reload budget name) (r.reload budget name) := by
  unfold Registry.reload
  rw [h.libraries, h.instances]
  refine rel_bind (reloadIn budget f.libraries name f.instances h.world) ?_
  rintro ⟨results, is, w⟩ ⟨results', is', w'⟩ ⟨rfl, rfl, hw⟩
  exact .some ⟨rfl, { h with libraries := rfl, world := hw, instances := rfl }⟩

/-! ## Operations -/

omit [τ.Injective] in
theorem askInstance {α : Type} [Renames α] (place : Nat) {visit visit' : Registry.Visit α}
    (hvisit : τ.Same visit visit') {answer : α → Answer}
    (hanswer : ∀ a, answer (τ.on a) = τ.on (answer a)) :
    Option.Rel τ.Answers (Op.askInstance f place visit answer)
      (Op.askInstance r place visit' answer) := by
  unfold Op.askInstance
  rw [h.instances, List.getElem?_map]
  cases f.instances[place]? with
  | none => exact .some ⟨rfl, h⟩
  | some i =>
      refine rel_bind (hvisit i f.world r.world h.world) ?_
      rintro ⟨a, i, w⟩ ⟨a', i', w'⟩ ⟨rfl, rfl, hw⟩
      refine .some ⟨hanswer a, { h with world := hw, instances := ?_ }⟩
      rw [List.map_set]

theorem apply (c : Chore) : τ.Registries (c.apply f) ((τ.on c).apply r) := by
  cases c with
  | record l => exact h.withWorld (h.world.record rfl)
  | tick => exact h.withWorld h.world.tick.2
  | countFrame => exact h.withWorld (h.world.modifyHost _)
  | display surface => exact h.withWorld (h.world.modifyHost _)
  | measure cost => exact { h with }
  | takeAdds => exact h.withWorld h.world.takeAdds.2
  | takeRemovals => exact h.withWorld h.world.takeRemovals.2
  | requestAdd name => exact h.withWorld (h.world.modifyHost _)
  | requestRemoval id => exact h.withWorld (h.world.requestRemoval id)
  | edit files => exact h.withWorld { h.world with files := rfl }
  | wait time =>
      exact h.withWorld { h.world with clock := congrArg (· + (time : Int)) h.world.clock }
  | seed id key value => exact h.withWorld (h.world.modifyStore id (Alike.store_set_on key value))

/-- Every operation, renamed, does the same and tells the same. -/
theorem ask (budget : Nat) (o : Op) :
    Option.Rel τ.Answers (o.ask budget f) ((τ.on o).ask budget r) := by
  cases o with
  | add name =>
      refine rel_map (h.add budget name) ?_
      rintro ⟨id, f⟩ ⟨id', r⟩ ⟨hid, h⟩
      exact ⟨congrArg Answer.added hid, h⟩
  | addStartup => exact rel_map (h.addStartup budget) fun _ _ h => ⟨rfl, h⟩
  | remove id => exact .some ⟨rfl, h.remove id⟩
  | update =>
      exact rel_map (h.update budget) fun _ _ h => ⟨congrArg Answer.updated h.2, h.1⟩
  | draw surface =>
      refine rel_map (h.draw budget surface) ?_
      rintro ⟨result, f⟩ ⟨result', r⟩ ⟨hresult, h⟩
      refine ⟨congrArg Answer.drawn (hresult.trans ?_), h⟩
      cases result <;> rfl
  | sendMessage name payload =>
      refine rel_map (h.sendMessage budget name payload) ?_
      rintro ⟨handled, f⟩ ⟨handled', r⟩ ⟨hhandled, h⟩
      exact ⟨congrArg Answer.delivered hhandled, h⟩
  | reload name =>
      refine rel_map (h.reload budget name) ?_
      rintro ⟨results, f⟩ ⟨results', r⟩ ⟨hresults, h⟩
      exact ⟨congrArg Answer.reloaded hresults, h⟩
  | reset => exact rel_map (h.reset budget) fun _ _ h => ⟨rfl, h⟩
  | reloadOne place =>
      unfold Op.ask
      rw [h.libraries]
      exact h.askInstance place
        (fun i w w' hw => Pairing.reload budget f.libraries i hw) fun _ => rfl
  | dispatchOne place e args =>
      change Option.Rel τ.Answers _ (Op.ask budget r (.dispatchOne place e (args.map τ.on)))
      unfold Op.ask
      rw [h.libraries]
      exact h.askInstance place
        (fun i w w' hw => dispatch budget f.libraries i e args hw) fun _ => rfl
  | invokeOne place e args =>
      change Option.Rel τ.Answers _ (Op.ask budget r (.invokeOne place e (args.map τ.on)))
      unfold Op.ask
      rw [h.libraries]
      exact h.askInstance place
        (fun i w w' hw => invoke budget f.libraries i e args hw) fun _ => rfl
  | around c => exact .some ⟨rfl, h.apply c⟩

/-- Operations one after the other do the same and tell the same. -/
theorem askAll (budget : Nat) (ops : List Op) :
    Option.Rel τ.Answers (Op.askAll budget f ops) (Op.askAll budget r (ops.map τ.on)) := by
  induction ops generalizing f r with
  | nil => exact .some ⟨rfl, h⟩
  | cons o rest ih =>
      refine rel_bind (h.ask budget o) ?_
      rintro ⟨a, f⟩ ⟨a', r⟩ ⟨ha, h⟩
      refine rel_bind (ih h) ?_
      rintro ⟨as, f⟩ ⟨as', r⟩ ⟨has, h⟩
      exact .some ⟨congrArg₂ List.cons ha has, h⟩

end Registries
end Pairing
end Stagehand
