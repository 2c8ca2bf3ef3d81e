import Stagehand.Proofs.Confinement
import Stagehand.Proofs.DrawPass
import Stagehand.Proofs.Edits
import Stagehand.Proofs.Fences

/-!
# Isolation

What becomes of one instance in a pass makes no difference to the others: whether it completes,
fails, is stopped or faulted or does not load again. Two registries that differ in the instance
alone are compared (`Registry.Twins`), where the others have no way to its store
(`Registry.Hides`) and nobody but itself has to do with its source file, should that not be the same
(`Registry.Spares`). Both conditions put up a fence between the instance and the others, and the
passes over the two registries go the same way outside of it (`failures_isolated`).

The first condition is what confinement comes to, as long as the host passes on no references
(`Apart.hides`). With a reference to its store in other hands the theorem fails.
-/

namespace Stagehand

open Lang

/-! ## The end of a pass -/

/-- The source files that a pass finds in its scan, if there is one. -/
def Pass.sources (p : Pass) (files : FileTree) (root : FilePath) : List SourceFile :=
  match p, collectSources files root with
  | .draw _, .ok found => found.1
  | _, _ => []

/-- The instances other than this one, but for the times of their last loads. -/
def Registry.others (r : Registry) (k : Instance) : List Instance :=
  (r.instances.filter (·.id != k.id)).map (·.since none)

/-- Two passes, with their events and results and the registries behind them, come to the same but
for one instance. The others were called in the same way and in the same order, and they are left
the same, with the same data. -/
structure Isolated (k : Instance) (es es' : List Event) (result result' : Except ScanError Unit)
    (r s : Registry) : Prop where
  calls : k.Parallel es es'
  others : s.others k = r.others k
  stores : ∀ id, id ≠ k.data → s.world.stores[id]? = r.world.stores[id]?
  frame : s.world.host.frame = r.world.host.frame
  result : result' = result

theorem Registry.applyRemovals_frame (r : Registry) :
    r.applyRemovals.world.host.frame = r.world.host.frame := by
  unfold Registry.applyRemovals World.takeRemovals
  dsimp only
  split
  · rfl
  · obtain ⟨⟨realms, heq⟩, -⟩ :=
      World.foldl_forget r.world.removals.pending { r.world with removals := {} }
    exact congrArg (·.host.frame) heq

namespace Fence

variable {f : Fence} {budget : Nat} {r r' s s' : Registry} {es es' : List Event}

/-- The others in lists on the two sides, of which the same ones were taken out. -/
theorem others_eq {is js : List Instance} {p q : Instance → Bool} (h : List.Forall₂ f.Same is js)
    (hpq : ∀ i j, j.handle = i.handle → i.id ≠ f.inside.id → q j = p i) :
    ((js.filter q).filter (·.id != f.inside.id)).map (·.since none) =
      ((is.filter p).filter (·.id != f.inside.id)).map (·.since none) := by
  rw [List.filter_filter, List.filter_filter]
  induction h with
  | nil => rfl
  | @cons i j is js hij _ ih =>
      have hid : j.id = i.id := congrArg ScriptHandle.id hij.handle
      have hsame : (j.id != f.inside.id && q j) = (i.id != f.inside.id && p i) := by
        by_cases heq : i.id = f.inside.id
        · simp [hid, heq]
        · rw [hid, hpq i j hij.handle heq]
      rw [List.filter_cons, List.filter_cons, hsame]
      split
      · rename_i hkept
        have hne : i.id ≠ f.inside.id := by simpa using (Bool.and_eq_true_iff.mp hkept).1
        obtain ⟨t, rfl⟩ := (hij.outside hne).since
        rw [List.map_cons, List.map_cons, ih]
        rfl
      · exact ih

/-- The registries are left the same when a pass is over. -/
theorem Between.isolated {result : Except ScanError Unit} (h : f.Between r s)
    (hp : f.inside.Parallel es es') : Isolated f.inside es es' result result r s := by
  have hm := h.worlds.mirrors
  refine ⟨hp, ?_, hm.stores, congrArg HostState.frame hm.host, rfl⟩
  have hothers := others_eq (p := fun _ => true) (q := fun _ => true) h.instances fun _ _ _ _ => rfl
  rwa [List.filter_true, List.filter_true] at hothers

theorem Between.isolated_removals {result : Except ScanError Unit} (h : f.Between r s)
    (hp : f.inside.Parallel es es') :
    Isolated f.inside es es' result result r.applyRemovals s.applyRemovals := by
  have hm := h.worlds.mirrors
  obtain ⟨hinstances, -, -, hstores, -⟩ := r.applyRemovals_cases
  obtain ⟨hinstances', -, -, hstores', -⟩ := s.applyRemovals_cases
  refine ⟨hp, ?_, ?_, ?_, rfl⟩
  · unfold Registry.others
    rw [hinstances, hinstances']
    refine others_eq h.instances fun i j hij hid => ?_
    have hpending : (j.id ∈ s.world.removals.pending) = (i.id ∈ r.world.removals.pending) := by
      rw [show j.id = i.id from congrArg ScriptHandle.id hij]
      exact propext (hm.removals i.id hid)
    simp only [List.contains_eq_mem, hpending]
  · rw [hstores, hstores']
    exact hm.stores
  · rw [Registry.applyRemovals_frame, Registry.applyRemovals_frame, hm.host]

theorem Between.opening (h : f.Between r s) (p : Pass) :
    f.Between { r with world := p.opening r.world } { s with world := p.opening s.world } := by
  refine ⟨h.scripts, h.libraries, h.nextId, h.numbers, h.instances, ?_⟩
  cases p with
  | update => exact h.worlds.effect .tick trivial
  | draw surface => exact h.worlds.modifyHost fun h => { h with screen := surface }
  | message name payload => exact h.worlds

theorem Between.counted (h : f.Between r s) (cost cost' : Int) :
    f.Between (r.counted cost) (s.counted cost') := by
  refine ⟨h.scripts, h.libraries, h.nextId, h.numbers, h.instances, ?_⟩
  have hframe := h.worlds.modifyHost fun h => { h with frame := h.frame + 1 }
  have hreport := (hframe.effect .tick trivial).effect (.record (Level.debug.report "update pass"
    [("scripts", toString r.instances.length)])) trivial
  unfold Registry.counted
  rw [← h.instances.length_eq]
  exact hreport

theorem Between.sources (h : f.Between r s) :
    collectSources r.world.files r.scripts.dir = collectSources f.files f.scripts.dir ∧
      collectSources s.world.files s.scripts.dir = collectSources f.files f.scripts.dir := by
  rw [h.scripts.1, h.scripts.2, h.worlds.mirrors.files.sources, h.worlds.files]
  exact ⟨rfl, rfl⟩

/-- A pass on both sides comes to the same outside of the fence. -/
theorem isolated {p : Pass} {result result' : Except ScanError Unit}
    (h : p.Runs budget r es result r') (h' : p.Runs budget s es' result' s') (hb : f.Between r s)
    (ha : ∀ i, ∀ errand ∈ p.errands i, Within f.allowance errand.2)
    (hreads : ∀ a, Event.joined a ∈ es → f.reads a.before.source)
    (hd : ∀ e ∈ es, e.Discreet f.inside) (hd' : ∀ e ∈ es', e.Discreet f.inside)
    (hsources : f.sources = p.sources f.files f.scripts.dir)
    (hs : f.inside.InStep f.sources es es') :
    Isolated f.inside es es' result result' r' s' := by
  have hsince : ∀ i t, p.errands (i.since t) = p.errands i := fun i t => by cases p <;> rfl
  have hopen := hb.opening p
  cases h with
  | update h =>
      cases h' with
      | update h' =>
          obtain ⟨hb₁, hpar⟩ := tour hsince ha h h' hopen hreads hd hd' hs
          exact (hb₁.counted _ _).isolated hpar
  | message h =>
      cases h' with
      | message h' =>
          obtain ⟨hb₁, hpar⟩ := tour hsince ha h h' hopen hreads hd hd' hs
          exact hb₁.isolated hpar
  | unread h he =>
      cases h' with
      | unread h' he' =>
          obtain ⟨hb₁, hpar⟩ := tour hsince ha h h' hopen hreads hd hd' hs
          rw [hb₁.sources.2, ← hb₁.sources.1, he] at he'
          cases he'
          exact hb₁.isolated_removals hpar
      | draw h' hfound' =>
          have hd' := (List.forall_mem_append.mp hd').1
          rw [← List.append_nil es] at hs
          obtain ⟨hb₁, -⟩ := tour hsince ha h h' hopen hreads hd hd' hs.first
          rw [hb₁.sources.2, ← hb₁.sources.1, he] at hfound'
          nomatch hfound'
  | @draw r₁ surface es tries srcs reports is w h hfound hsweep =>
      obtain ⟨hd, htries⟩ := List.forall_mem_append.mp hd
      have hreads : ∀ a, Event.joined a ∈ es → f.reads a.before.source := fun a hmem =>
        hreads a (List.mem_append_left _ hmem)
      cases h' with
      | @unread _ _ es' e' h' he' =>
          rw [← List.append_nil es'] at hs
          obtain ⟨hb₁, -⟩ := tour hsince ha h h' hopen hreads hd hd' hs.first
          rw [hb₁.sources.2, ← hb₁.sources.1, hfound] at he'
          nomatch he'
      | @draw s₁ _ es' tries' _ _ js v h' hfound' hsweep' =>
          obtain ⟨hd', htries'⟩ := List.forall_mem_append.mp hd'
          obtain ⟨hb₁, hpar⟩ := tour hsince ha h h' hopen hreads hd hd' hs.first
          rw [hb₁.sources.2, ← hb₁.sources.1, hfound] at hfound'
          cases hfound'
          have hsub : ∀ src ∈ srcs, src ∈ f.sources := by
            have hfiles : collectSources f.files f.scripts.dir = .ok (srcs, reports) :=
              hb₁.sources.1.symm.trans hfound
            simp only [hsources, Pass.sources, hfiles]
            exact fun _ hsrc => hsrc
          rw [hb₁.libraries.1] at hsweep
          rw [hb₁.libraries.2] at hsweep'
          obtain ⟨hi, hw, hpar'⟩ := sweep hsub hsweep hsweep' hb₁.instances
            (hb₁.worlds.recordAll reports) htries htries' (hs.second hpar)
          have hb₂ : f.Between { r₁ with instances := is, world := w }
              { s₁ with instances := js, world := v } :=
            ⟨hb₁.scripts, hb₁.libraries, hb₁.nextId, hb₁.numbers, hi, hw⟩
          exact hb₂.isolated_removals (hpar.append hpar')

end Fence

/-! ## Twins -/

namespace Registry

/-- The second registry is the first one but for one instance and what belongs to it. -/
structure Twins (k : Instance) (r s : Registry) : Prop where
  scripts : s.scripts = r.scripts
  libraries : s.libraries = r.libraries
  nextId : s.nextId = r.nextId
  instances : ∃ place k', r.instances[place]? = some k ∧ k'.handle = k.handle ∧
    s.instances = r.instances.set place k'
  world : r.world.Alike k s.world

/-- Nobody but the instance has a way to its store. The stores that the others can get at are among
`stores`, as are those that are not there yet. -/
structure Hides (r : Registry) (k : Instance) (stores : StoreId → Prop) : Prop where
  number : k.id < r.nextId
  store : ¬ stores k.data
  fresh : ∀ id, r.world.stores.size ≤ id → stores id
  others : ∀ i ∈ r.instances, i.id ≠ k.id → stores i.data ∧ Within (.stores stores) i.binding
  realms : ∀ id, id ≠ k.id → (∃ i ∈ r.instances, i.id = id) ∨ r.nextId ≤ id →
    r.world.Confined (.stores stores) id

/-- Nobody but the instance has to do with its source file: no library lies there, and none of the
others is loaded from there, those that join included. -/
structure Spares (r : Registry) (k : Instance) (es : List Event) : Prop where
  libraries : ∀ entry ∈ r.libraries.files,
    r.world.files.resolve entry.2 ≠ r.world.files.resolve k.source
  others : ∀ i ∈ r.instances, i.id ≠ k.id →
    r.world.files.resolve i.source ≠ r.world.files.resolve k.source
  joined : ∀ a, Event.joined a ∈ es →
    r.world.files.resolve a.before.source ≠ r.world.files.resolve k.source

end Registry

/-- One pass over two registries that differ in the instance, which does in neither of them anything
but what is its own business. -/
structure TwinPasses (budget : Nat) (k : Instance) (p : Pass) (r s : Registry)
    (es es' : List Event) (result result' : Except ScanError Unit) (r' s' : Registry) : Prop where
  twins : r.Twins k s
  runs : p.Runs budget r es result r'
  runs' : p.Runs budget s es' result' s'
  discreet : ∀ e ∈ es, e.Discreet k
  discreet' : ∀ e ∈ es', e.Discreet k

theorem Lang.Within.stores_of_own {α : Type} [Leafy α] {i : Instance} {P : StoreId → Prop} {a : α}
    (h : Within i.own a) (hi : P i.data) : Within (.stores P) a := by
  refine h.mono fun l hl => ?_
  cases l with
  | cell cell => trivial
  | handle c =>
      cases c with
      | data id => exact hl ▸ hi
      | host | image | script => trivial

/-- The stores of the others, and those that are not there yet. -/
def Registry.otherStores (r : Registry) (k : Instance) (id : StoreId) : Prop :=
  (∃ i ∈ r.instances, i.id ≠ k.id ∧ i.data = id) ∨ r.world.stores.size ≤ id

/-- As long as the host passes on no references, nobody has a way to the store of another. -/
theorem Apart.hides {r : Registry} {es : List Event} {k : Instance} (h : Apart r)
    (ho : Orderly es r) (hk : k ∈ r.instances) : r.Hides k (r.otherStores k) := by
  have hdata : ∀ i ∈ r.instances, i.id ≠ k.id → r.otherStores k i.data :=
    fun i hi hid => .inl ⟨i, hi, hid, rfl⟩
  have hclosed : r.world.Closed (.stores (r.otherStores k)) := by
    rintro id d hd (⟨i, hi, hid, rfl⟩ | hsize)
    · exact ((h.confined i hi).world i.data d hd rfl).stores_of_own (hdata i hi hid)
    · rw [Array.getElem?_eq_none hsize] at hd
      nomatch hd
  refine ⟨ho.below k hk, ?_, fun _ hid => .inr hid, fun i hi hid => ?_, ?_⟩
  · rintro (⟨i, hi, hid, hsame⟩ | hsize)
    · exact hid (congrArg Instance.id (h.data_inj hi hk hsame))
    · exact absurd (h.below k hk) (Nat.not_lt.mpr hsize)
  · exact ⟨hdata i hi hid, (h.program i hi).stores_of_own (hdata i hi hid)⟩
  · rintro id hid (⟨i, hi, rfl⟩ | hnext)
    · have hc := h.confined i hi
      exact ⟨fun cell held hheld _ => (hc.cells cell held hheld trivial).stores_of_own
        (hdata i hi hid), fun _ _ => trivial, hc.modules.stores_of_own (hdata i hi hid), hclosed⟩
    · have hrealm := h.fresh id hnext
      refine ⟨?_, fun _ _ => trivial, ?_, hclosed⟩
      · rw [hrealm]
        exact fun cell held hheld _ => nomatch hheld
      · rw [hrealm]
        exact within_of_leafless rfl

theorem forall₂_set_self {α : Type} {R : α → α → Prop} {as : List α} {place : Nat} {a b : α}
    (ha : as[place]? = some a) (hab : R a b) (hself : ∀ a ∈ as, R a a) :
    List.Forall₂ R as (as.set place b) := by
  have hset := forall₂_set (List.forall₂_same.mpr hself) hab place
  rwa [set_self ha] at hset

/-- An instance that was loaded and updated before; its program is one entry point. -/
def Instance.playing (handle : ScriptHandle) (data : StoreId) (e : EntryPoint)
    (params : List String) (body : Expr) : Instance where
  handle := handle
  source := ⟨handle.name⟩
  data := data
  state := .ready
  running := true
  initialized := true
  binding := some ⟨[⟨e.name, params, [.expr body], false, true⟩], [], [], [(e, .function)], 1⟩

/-- A registry of two instances. -/
def Registry.duet (k i : Instance) (stores : Array DataStore) : Registry where
  scripts := {}
  libraries := default
  world := { host := default, stores }
  instances := [k, i]
  nextId := 3

theorem Registry.duet_twins {k k' i : Instance} {stores stores' : Array DataStore}
    (hhandle : k'.handle = k.handle) (hsize : stores'.size = stores.size)
    (hstores : ∀ id, id ≠ k.data → stores'[id]? = stores[id]?) :
    (duet k i stores).Twins k (duet k' i stores') where
  scripts := rfl
  libraries := rfl
  nextId := rfl
  instances := ⟨0, k', rfl, hhandle, rfl⟩
  world := ⟨rfl, rfl, rfl, hsize, hstores, fun _ _ => rfl, fun _ _ => Iff.rfl⟩

theorem Registry.duet_hides {k i : Instance} {stores : Array DataStore} (hk : k.handle.id = 1)
    (hi : Within (.stores (· ≠ k.data)) i.binding) (hdata : i.data ≠ k.data)
    (hsize : k.data < stores.size)
    (hstores : ∀ id d, id ≠ k.data → stores[id]? = some d → Within (.stores (· ≠ k.data)) d) :
    (duet k i stores).Hides k (· ≠ k.data) where
  number := by
    change k.handle.id < 3
    rw [hk]
    decide
  store h := h rfl
  fresh id hid := Nat.ne_of_gt (Nat.lt_of_lt_of_le hsize hid)
  others j hj hid := by
    rcases List.mem_pair.mp hj with rfl | rfl
    · exact absurd rfl hid
    · exact ⟨hdata, hi⟩
  realms id _ _ := {
    cells := fun _ _ hheld _ => nomatch (hheld : (#[] : Heap)[_]? = some _)
    fresh := fun _ _ => trivial
    modules := within_of_leafless rfl
    world := fun store d hd hstore => hstores store d hstore hd }

theorem Instance.dispatch_of_fault {budget : Nat} {libraries : Libraries} {i i' : Instance}
    {e : EntryPoint} (args : List HostValue) {w w' : World} {f : Fault} (hr : i.running = true)
    (h : i.call budget libraries e (args.map HostValue.toScript) w =
      some (some (.error f), i', w')) :
    i.dispatch budget libraries e args w =
      some (.failed ⟨i'.name, e, f.message⟩, i'.stop,
        w'.record (DispatchError.report ⟨i'.name, e, f.message⟩)) := by
  simp only [dispatch, invoke, hr, h]
  rfl

/-- The number under a key of a store. -/
def DataStore.number? (d : DataStore) (key : String) : Option Int64 :=
  match d.get? key with
  | some (.int n) => some n
  | _ => none

end Stagehand
