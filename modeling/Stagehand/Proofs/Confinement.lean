import Mathlib.Data.List.Nodup
import Stagehand.Proofs.Requests

/-!
# Confinement

A script gets at stores and at instances through references alone, and the host hands out to each
script the references to its own store and its own instance. `Instance.own` is the allowance that
says so, and what a run keeps within an allowance is known (`Ran`). What is left is the registry:
the data of each instance, its realm with the libraries that were evaluated for it included, is
within its own (`Apart`), because no event touches the data of an instance that it is not about, and
new instances get a store and a realm that nobody had before.
-/

namespace Stagehand

open Lang

/-! ## What is an instance's own -/

/-- What the code of an instance may lead to: of the stores and of the references to instances none
but its own. -/
def Instance.own (i : Instance) : Allowance
  | .handle (.data id) => id = i.data
  | .handle (.script handle) => handle = i.handle
  | .handle (.host _) | .handle (.image _) | .cell _ => True

/-- What the host may pass to every script: no store, and no reference to an instance. -/
def Lang.Allowance.common : Allowance
  | .handle (.data _) | .handle (.script _) => False
  | .handle (.host _) | .handle (.image _) | .cell _ => True

theorem Lang.Within.mono {α : Type} [Leafy α] {A B : Allowance} {a : α} (h : Within A a)
    (hAB : ∀ l, A l → B l) : Within B a := fun l hl => hAB l (h l hl)

theorem Instance.common_own (i : Instance) (l : Leaf) (h : Allowance.common l) : i.own l := by
  cases l with
  | cell c => trivial
  | handle c => cases c <;> trivial

/-- The host hands out to a script what is its own. -/
theorem Instance.serves_own (i : Instance) (libraries : Libraries) :
    Serves i.own (i.stage libraries) := ⟨trivial, fun _ => trivial, rfl, rfl⟩

theorem Instance.own_congr {i i' : Instance} (hh : i'.handle = i.handle) (hd : i'.data = i.data) :
    i'.own = i.own := by
  funext l
  unfold Instance.own
  rw [hh, hd]

/-! ## Runs and what is not allowed -/

namespace Effect

/-- An allowed effect makes nothing of a store that is not allowed. -/
theorem write_eq {A : Allowance} {e : Effect} (he : e.Allowed A) {id : StoreId}
    (hid : ¬ A (.handle (.data id))) (d : DataStore) : e.write id d = d := by
  cases e with
  | set other _ _ | setAll other _ =>
      rw [write, if_neg]
      rintro rfl
      exact hid he.1
  | record _ | tick | requestAdd _ | requestRemoval _ | draw _ _ _ _ | loadImage _
  | random _ _ => rfl

theorem apply_store_eq {A : Allowance} {e : Effect} (he : e.Allowed A) {id : StoreId}
    (hid : ¬ A (.handle (.data id))) (w : World) : (e.apply w).stores[id]? = w.stores[id]? := by
  rw [e.apply_stores]
  have hsame : e.write id = fun d => d := funext (write_eq he hid)
  rw [hsame, Option.map_id']

theorem apply_stores_size (e : Effect) (w : World) : (e.apply w).stores.size = w.stores.size := by
  have hnone (id : StoreId) : (e.apply w).stores.size ≤ id ↔ w.stores.size ≤ id := by
    rw [← Array.getElem?_eq_none_iff, ← Array.getElem?_eq_none_iff, e.apply_stores,
      Option.map_eq_none_iff]
  exact Nat.le_antisymm ((hnone _).mpr (Nat.le_refl _)) ((hnone _).mp (Nat.le_refl _))

end Effect

namespace Ran

variable {A : Allowance} {owner : InstanceId} {es : List Effect} {w w' : World}

/-- A run leaves the stores alone that it is not allowed. -/
theorem store_eq (h : Ran A owner es w w') {id : StoreId} (hid : ¬ A (.handle (.data id))) :
    w'.stores[id]? = w.stores[id]? := by
  have hall : ∀ {es : List Effect} {w : World}, (∀ e ∈ es, e.Allowed A) →
      (Effect.applyAll es w).stores[id]? = w.stores[id]? := by
    intro es
    induction es with
    | nil => exact fun _ => rfl
    | cons e rest ih =>
        intro w hes
        obtain ⟨he, hrest⟩ := List.forall_mem_cons.mp hes
        exact (ih hrest).trans (Effect.apply_store_eq he hid w)
  exact (congrArg (fun w : World => w.stores[id]?) h.world).trans (hall h.allowed)

theorem stores_size (h : Ran A owner es w w') : w'.stores.size = w.stores.size :=
  h.unchanged (f := fun w => w.stores.size) Effect.apply_stores_size fun _ _ => rfl

/-- A run asks for the removal of nobody but those it holds a reference to. -/
theorem pending (h : Ran A owner es w w') {id : InstanceId} (hid : id ∈ w'.removals.pending) :
    id ∈ w.removals.pending ∨ ∃ name, A (.handle (.script ⟨id, name⟩)) := by
  rw [h.removals, RemovalQueue.mem_foldl_push, mem_removed] at hid
  exact hid.imp_right (h.allowed (.requestRemoval id))

end Ran

/-- A run for an instance that leads nowhere but to what is its own: that is where it starts, what
it does, and where it ends. -/
structure OwnRun (i i' : Instance) (w w' : World) : Prop where
  start : w.Confined i.own i.id ∧ Within i.own i.binding
  ran : ∃ es, Ran i.own i.id es w w'
  stop : w'.Confined i.own i.id ∧ Within i.own i'.binding
  stores : ∀ id, id ≠ i.data → w'.stores[id]? = w.stores[id]?
  removals : ∀ id ∈ w'.removals.pending, id ∈ w.removals.pending ∨ id = i.id

/-! ## What acts pass on -/

/-- The event brings no store and no reference to an instance to a script. -/
def Event.Impersonal : Event → Prop
  | .called c | .invoked c | .started c => Within Allowance.common c.args
  | .chore (.seed _ _ value) => Within Allowance.common value
  | .joined _ | .tried _ | .left _ | .chore _ => True

/-- The registry with a new instance in its list that was not loaded yet. -/
def Registry.enrol (r : Registry) (name : String) : Registry :=
  { (r.create name).2 with instances := r.instances ++ [(r.create name).1] }

namespace Act

variable {r r' : Registry} {e : Event} {i i' : Instance}

/-- An act about an instance is a run at the place of the instance, which was enrolled before if it
is a new one. -/
theorem site (h : Act r e r') (hc : e.change? = some (i, i')) : ∃ r₀ place w',
    (r₀ = r ∨ ∃ name, r₀ = r.enrol name) ∧ r₀.instances[place]? = some i ∧
      e.run? = some (i.id, r₀.world, w') ∧
      r' = { r₀ with world := w', instances := r₀.instances.set place i' } := by
  cases h with
  | @joined name a hb hw hg =>
      cases hc
      refine ⟨r.enrol name, r.instances.length, a.left, .inr ⟨name, rfl⟩, ?_, ?_, ?_⟩
      · simp [Registry.enrol, hb]
      · rw [Event.run?, hw]
        rfl
      · simp [Registry.enrol]
  | tried place hi hw | called place hi hw | invoked place hi hw | started place hi hw =>
      cases hc
      refine ⟨r, place, _, .inl rfl, hi, ?_, rfl⟩
      rw [Event.run?, hw]
  | left | chore => nomatch hc

/-- No act gives an instance another store or another source file. -/
theorem belongings (h : Act r e r') (hc : e.change? = some (i, i')) :
    i'.data = i.data ∧ i'.source = i.source := by
  cases h with
  | joined _ _ hg | tried _ _ _ hg =>
      cases hc
      obtain ⟨budget, hreload⟩ := hg
      rcases Instance.reload_cases hreload with ⟨b, w, -, -, hafter, -⟩ | ⟨e, w, -, -, hafter, -⟩
      · rw [hafter]
        exact ⟨rfl, rfl⟩
      · rw [hafter]
        exact ⟨rfl, rfl⟩
  | called _ _ _ hg | started _ _ _ _ _ _ hg =>
      cases hc
      obtain ⟨budget, hdispatch⟩ := hg
      obtain ⟨⟨binding, running, heq⟩, -, -⟩ := Instance.dispatch_continues hdispatch
      simp [Instance.markInitialized, heq]
  | invoked _ _ _ hg =>
      cases hc
      obtain ⟨budget, hinvoke⟩ := hg
      obtain ⟨⟨binding, running, heq⟩, -, -⟩ := Instance.invoke_continues hinvoke
      rw [heq]
      exact ⟨rfl, rfl⟩
  | left | chore => cases hc

theorem data (h : Act r e r') (hc : e.change? = some (i, i')) : i'.data = i.data :=
  (h.belongings hc).1

/-- What an act runs for an instance leads nowhere but to what is its own, if all that the instance
has does. -/
theorem ownRun (h : Act r e r') (he : e.Impersonal) (hc : e.change? = some (i, i'))
    {w w' : World} (hr : e.run? = some (i.id, w, w')) (hw : w.Confined i.own i.id)
    (hb : Within i.own i.binding) : OwnRun i i' w w' := by
  have args {as : List HostValue} (ha : Within Allowance.common as) : Within i.own as :=
    ha.mono i.common_own
  have hrun : ∃ es, Ran i.own i.id es w w' ∧ w'.Confined i.own i.id ∧ Within i.own i'.binding := by
    cases h with
    | joined _ _ hg | tried _ _ _ hg =>
        cases hc
        cases hr
        obtain ⟨budget, hreload⟩ := hg
        exact Instance.reload_ran (Instance.serves_own _ _) hw hb hreload
    | called _ _ _ hg | started _ _ _ _ _ _ hg =>
        cases hc
        cases hr
        obtain ⟨budget, hdispatch⟩ := hg
        obtain ⟨es, hran, hstop, hafter⟩ :=
          Instance.dispatch_ran (Instance.serves_own _ _) hw hb (args he) hdispatch
        exact ⟨es, hran, hstop, hafter⟩
    | invoked _ _ _ hg =>
        cases hc
        cases hr
        obtain ⟨budget, hinvoke⟩ := hg
        exact Instance.invoke_ran (Instance.serves_own _ _) hw hb (args he) hinvoke
    | left | chore => nomatch hc
  obtain ⟨es, hran, hstop⟩ := hrun
  refine ⟨⟨hw, hb⟩, ⟨es, hran⟩, hstop, fun id hid => hran.store_eq hid, fun id hid => ?_⟩
  refine (hran.pending hid).imp_right fun ⟨name, heq⟩ => ?_
  exact congrArg ScriptHandle.id heq

end Act

/-! ## Instances apart from each other -/

theorem World.Confined.of_same {i : Instance} {w w' : World} (h : w.Confined i.own i.id)
    (hr : w'.realm i.id = w.realm i.id) (hs : w'.stores[i.data]? = w.stores[i.data]?) :
    w'.Confined i.own i.id where
  cells := hr ▸ h.cells
  fresh := hr ▸ h.fresh
  modules := hr ▸ h.modules
  world := by
    rintro id d hd rfl
    exact h.world i.data d (hs ▸ hd) rfl

theorem World.confined_empty {i : Instance} {w : World} (hr : w.realm i.id = {})
    (hs : ∀ d, w.stores[i.data]? = some d → d = {}) : w.Confined i.own i.id where
  cells := by
    rw [hr]
    exact fun cell held hc _ => nomatch hc
  fresh := fun _ _ => trivial
  modules := by
    rw [hr]
    exact within_of_leafless rfl
  world := by
    rintro id d hd rfl
    exact hs d hd ▸ within_of_leafless rfl

/-- To drop realms leaves a realm as it is, or nothing of it. -/
theorem World.realm_foldl_forget (ids : List InstanceId) (w : World) (id : InstanceId) :
    (ids.foldl World.forget w).realm id = w.realm id ∨
      (ids.foldl World.forget w).realm id = {} := by
  induction ids generalizing w with
  | nil => exact .inl rfl
  | cons other rest ih =>
      rcases ih (w.forget other) with h | h
      · by_cases heq : id = other
        · subst heq
          exact .inr (h.trans (w.realm_forget id))
        · exact .inl (h.trans (w.realm_forget_of_ne heq))
      · exact .inr h

/-- Each instance has a store to itself, and nothing that it has leads to what is not its own. No
realm is there yet for instances to come. -/
structure Apart (r : Registry) : Prop where
  stores : (r.instances.map Instance.data).Pairwise (· < ·)
  below : ∀ i ∈ r.instances, i.data < r.world.stores.size
  confined : ∀ i ∈ r.instances, r.world.Confined i.own i.id
  program : ∀ i ∈ r.instances, Within i.own i.binding
  fresh : ∀ id, r.nextId ≤ id → r.world.realm id = {}

namespace Apart

variable {r r' : Registry} {e : Event} {i i' : Instance}

/-- Two instances do not share a store. -/
theorem data_inj (h : Apart r) {j : Instance} (hi : i ∈ r.instances) (hj : j ∈ r.instances)
    (hd : i.data = j.data) : i = j :=
  List.inj_on_of_nodup_map (f := Instance.data) (h.stores.imp Nat.ne_of_lt) hi hj hd

/-- A run for an instance touches nothing that another has. -/
theorem replace (h : Apart r) (hids : (r.instances.map Instance.id).Pairwise (· < ·)) {place : Nat}
    {w' : World} (hi : r.instances[place]? = some i) (hnext : i.id < r.nextId)
    (hh : i'.handle = i.handle) (hd : i'.data = i.data) (hrun : OwnRun i i' r.world w') :
    Apart { r with world := w', instances := r.instances.set place i' } := by
  have hmem := List.mem_of_getElem? hi
  have hown : i'.own = i.own := Instance.own_congr hh hd
  have hid : i'.id = i.id := congrArg ScriptHandle.id hh
  obtain ⟨es, hran⟩ := hrun.ran
  refine ⟨?_, fun j hj => ?_, fun j hj => ?_, fun j hj => ?_, fun id hfresh => ?_⟩
  · have hstores : (r.instances.set place i').map Instance.data = r.instances.map Instance.data := by
      rw [List.map_set, hd]
      exact set_self (by simp [hi])
    exact hstores ▸ h.stores
  · rw [hran.stores_size]
    rcases mem_set_cases hids hi hj with rfl | ⟨hj, -⟩
    · exact hd ▸ h.below i hmem
    · exact h.below j hj
  · rcases mem_set_cases hids hi hj with rfl | ⟨hj, hne⟩
    · rw [hown, hid]
      exact hrun.stop.1
    · refine (h.confined j hj).of_same (hran.others _ hne) (hrun.stores _ fun heq => hne ?_)
      rw [h.data_inj hj hmem heq]
  · rcases mem_set_cases hids hi hj with rfl | ⟨hj, -⟩
    · exact hown ▸ hrun.stop.2
    · exact h.program j hj
  · rw [hran.others id (Nat.ne_of_gt (Nat.lt_of_lt_of_le hnext hfresh))]
    exact h.fresh id hfresh

/-- A new instance has a store and a realm that nobody had before. -/
theorem enrol (h : Apart r) (name : String) : Apart (r.enrol name) where
  stores := by
    unfold Registry.enrol
    rw [List.map_append, List.pairwise_append]
    refine ⟨h.stores, List.pairwise_singleton _ _, fun x hx y hy => ?_⟩
    obtain ⟨i, hi, rfl⟩ := List.mem_map.mp hx
    cases List.mem_singleton.mp hy
    exact h.below i hi
  below i hi := by
    have hsize : (r.enrol name).world.stores.size = r.world.stores.size + 1 := Array.size_push _
    rw [hsize]
    rcases List.mem_append.mp hi with hi | hi
    · exact Nat.lt_succ_of_lt (h.below i hi)
    · cases List.mem_singleton.mp hi
      exact Nat.lt_succ_self _
  confined i hi := by
    rcases List.mem_append.mp hi with hi | hi
    · refine (h.confined i hi).of_same rfl ?_
      exact Array.getElem?_push_lt (h.below i hi) |>.trans
        (Array.getElem?_eq_getElem (h.below i hi)).symm
    · cases List.mem_singleton.mp hi
      refine World.confined_empty (h.fresh r.nextId (Nat.le_refl _)) fun d hd => ?_
      exact Option.some.inj (hd.symm.trans Array.getElem?_push_size)
  program i hi := by
    rcases List.mem_append.mp hi with hi | hi
    · exact h.program i hi
    · cases List.mem_singleton.mp hi
      exact within_none
  fresh id hid := h.fresh id (Nat.le_of_succ_le hid)

/-- An act that touches neither the stores nor the realms of those that stay. -/
theorem shrink (h : Apart r) (hi : r'.instances.Sublist r.instances) (hn : r'.nextId = r.nextId)
    (hs : r'.world.stores = r.world.stores)
    (hr : ∀ i ∈ r'.instances, r'.world.realm i.id = r.world.realm i.id)
    (hf : ∀ id, r.world.realm id = {} → r'.world.realm id = {}) : Apart r' where
  stores := h.stores.sublist (hi.map _)
  below i hmem := hs ▸ h.below i (hi.subset hmem)
  confined i hmem := (h.confined i (hi.subset hmem)).of_same (hr i hmem) (by rw [hs])
  program i hmem := h.program i (hi.subset hmem)
  fresh id hid := hf id (h.fresh id (hn ▸ hid))

/-- What the host puts into a store leads to nobody's own. -/
theorem seed (h : Apart r) {id : StoreId} {key : String} {value : HostValue}
    (hv : Within Allowance.common value) :
    Apart ((Chore.seed id key value).apply r) where
  stores := h.stores
  below i hi := by
    have hsize : (r.world.modifyStore id fun d => d.set key value).stores.size =
        r.world.stores.size := Array.size_setIfInBounds
    exact hsize.symm ▸ h.below i hi
  confined i hi := by
    have hc := h.confined i hi
    refine ⟨hc.cells, hc.fresh, hc.modules, hc.world.modifyStore fun hid => ?_⟩
    exact within_store.mpr (within_list.mp (within_put (hv.mono i.common_own)
      (within_list.mpr (within_store.mp (hc.world.store hid)))))
  program := h.program
  fresh := h.fresh

/-- An act about an instance is a run at its place, in a registry that is apart as well. -/
theorem ownRun {es : List Event} (h : Apart r) (ho : Orderly es r) (ha : Act r e r')
    (he : e.Impersonal) (hc : e.change? = some (i, i')) : ∃ r₀ place w',
    (r₀ = r ∨ ∃ name, r₀ = r.enrol name) ∧ Apart r₀ ∧
      (r₀.instances.map Instance.id).Pairwise (· < ·) ∧ i.id < r₀.nextId ∧
      r₀.instances[place]? = some i ∧ e.run? = some (i.id, r₀.world, w') ∧
      OwnRun i i' r₀.world w' ∧
      r' = { r₀ with world := w', instances := r₀.instances.set place i' } := by
  obtain ⟨r₀, place, w', hr₀, hi, hrun, rfl⟩ := ha.site hc
  have hmem := List.mem_of_getElem? hi
  have hstart : Apart r₀ ∧ (r₀.instances.map Instance.id).Pairwise (· < ·) ∧ i.id < r₀.nextId := by
    rcases hr₀ with rfl | ⟨name, rfl⟩
    · exact ⟨h, ho.ascending, ho.below i hmem⟩
    · refine ⟨h.enrol name, ?_, ?_⟩
      · unfold Registry.enrol
        rw [List.map_append, List.pairwise_append]
        refine ⟨ho.ascending, List.pairwise_singleton _ _, fun x hx y hy => ?_⟩
        obtain ⟨j, hj, rfl⟩ := List.mem_map.mp hx
        cases List.mem_singleton.mp hy
        exact ho.below j hj
      · rcases List.mem_append.mp hmem with hmem | hmem
        · exact Nat.lt_succ_of_lt (ho.below i hmem)
        · cases List.mem_singleton.mp hmem
          exact Nat.lt_succ_self _
  obtain ⟨h₀, hids, hnext⟩ := hstart
  exact ⟨r₀, place, w', hr₀, h₀, hids, hnext, hi, hrun,
    ha.ownRun he hc hrun (h₀.confined i hmem) (h₀.program i hmem), rfl⟩

/-- One act, one case for each kind. -/
theorem act {es : List Event} (h : Apart r) (ho : Orderly es r) (ha : Act r e r')
    (he : e.Impersonal) : Apart r' := by
  cases hc : e.change? with
  | some change =>
      obtain ⟨r₀, place, w', -, h₀, hids, hnext, hi, -, hrun, rfl⟩ := h.ownRun ho ha he hc
      exact h₀.replace hids hi hnext (ha.handle hc) (ha.data hc) hrun
  | none =>
      cases ha with
      | left ids =>
          obtain ⟨⟨realms, hforget⟩, hothers⟩ := r.world.foldl_forget ids
          have hstores : (ids.foldl World.forget r.world).stores = r.world.stores := by
            rw [hforget]
          refine h.shrink List.filter_sublist rfl hstores (fun i hi => ?_) fun id hid =>
            (World.realm_foldl_forget ids r.world id).elim (·.trans hid) fun h => h
          refine hothers i.id ?_
          simpa using (List.mem_filter.mp hi).2
      | chore c =>
          cases c with
          | seed id key value => exact h.seed he
          | _ => exact h.shrink (List.Sublist.refl _) rfl rfl (fun _ _ => rfl) fun _ hid => hid
      | joined | tried | called | invoked | started => nomatch hc

/-- Only the code of its owner changes a store, or the host. -/
theorem store_eq {es : List Event} (h : Apart r) (ho : Orderly es r) (ha : Act r e r')
    (he : e.Impersonal) {id : StoreId} {d : DataStore} (hd : r.world.stores[id]? = some d) :
    r'.world.stores[id]? = some d ∨ (∃ i i', e.change? = some (i, i') ∧ i.data = id) ∨
      ∃ key value, e = .chore (.seed id key value) := by
  cases hc : e.change? with
  | some change =>
      obtain ⟨i, i'⟩ := change
      obtain ⟨r₀, place, w', hr₀, -, -, -, -, -, hrun, rfl⟩ := h.ownRun ho ha he hc
      by_cases hid : i.data = id
      · exact .inr (.inl ⟨i, i', rfl, hid⟩)
      · have hkept : r₀.world.stores[id]? = some d := by
          rcases hr₀ with rfl | ⟨name, rfl⟩
          · exact hd
          · obtain ⟨hlt, -⟩ := Array.getElem?_eq_some_iff.mp hd
            have hpush : (r.enrol name).world.stores = r.world.stores.push {} := rfl
            rw [hpush, Array.getElem?_push_lt hlt, ← Array.getElem?_eq_getElem hlt, hd]
        exact .inl ((hrun.stores id (Ne.symm hid)).trans hkept)
  | none =>
      cases ha with
      | left ids =>
          obtain ⟨⟨realms, hforget⟩, -⟩ := r.world.foldl_forget ids
          have hstores : (ids.foldl World.forget r.world).stores = r.world.stores := by
            rw [hforget]
          exact .inl ((congrArg (·[id]?) hstores).trans hd)
      | chore c =>
          cases c with
          | seed other key value =>
              by_cases hid : other = id
              · subst hid
                exact .inr (.inr ⟨key, value, rfl⟩)
              · refine .inl ?_
                change (r.world.modifyStore other _).stores[id]? = some d
                rw [World.modifyStore_stores, hd, Option.map_some, if_neg hid]
          | _ => exact .inl hd
      | joined | tried | called | invoked | started => nomatch hc

end Apart

/-! ## Histories -/

/-- The host passes no store and no reference to an instance. -/
def Op.Impersonal : Op → Prop
  | .sendMessage _ payload => Within Allowance.common payload
  | .dispatchOne _ _ args | .invokeOne _ _ args => Within Allowance.common args
  | .around c => (Event.chore c).Impersonal
  | .add _ | .addStartup | .remove _ | .update | .draw _ | .reload _ | .reset | .reloadOne _ => True

theorem Op.within_given {o : Op} (ho : o.Impersonal) : Within Allowance.common o.given := by
  cases o with
  | sendMessage => exact within_list.mpr fun v hv => List.mem_singleton.mp hv ▸ ho
  | dispatchOne | invokeOne => exact ho
  | _ => exact within_of_leafless rfl

theorem Op.Told.impersonal {o : Op} {r : Registry} {es : List Event} (h : o.Told r es)
    (ho : o.Impersonal) : ∀ e ∈ es, e.Impersonal := by
  intro e he
  cases h.tells he with
  | @call _ _ c hc _ hargs =>
      have hcall : Within Allowance.common c.args := hargs ▸ Op.within_given ho
      cases e <;> cases hc <;> exact hcall
  | joined | tried | left => trivial
  | around => exact ho
  | @chore _ c hc =>
      cases c with
      | seed => cases o <;> nomatch hc
      | _ => trivial

variable {c : HostConfig} {w : World}

theorem Apart.start (hw : w.realms = []) : Apart (Registry.start c w) := by
  obtain ⟨log, images, host, hworld, -⟩ := Registry.start_world c w
  have hnone := Registry.start_instances c w
  refine ⟨?_, ?_, ?_, ?_, fun id _ => ?_⟩
  · rw [hnone]
    exact .nil
  · rw [hnone]
    exact List.forall_mem_nil _
  · rw [hnone]
    exact List.forall_mem_nil _
  · rw [hnone]
    exact List.forall_mem_nil _
  · rw [hworld, World.realm, hw]
    rfl

theorem Path.orderly {es : List Event} {r : Registry} (h : Path (Registry.start c w) es r) :
    Orderly es r :=
  h.invariant (fun h ha => h.act ha) (Orderly.start c w)

theorem Path.apart {es : List Event} {r : Registry} (hw : w.realms = [])
    (h : Path (Registry.start c w) es r) (hes : ∀ e ∈ es, e.Impersonal) : Apart r := by
  have hstart : Orderly [] (Registry.start c w) ∧
      ((∀ e ∈ ([] : List Event), e.Impersonal) → Apart (Registry.start c w)) :=
    ⟨Orderly.start c w, fun _ => Apart.start hw⟩
  refine (h.invariant (P := fun es r => Orderly es r ∧ ((∀ e ∈ es, e.Impersonal) → Apart r))
    (fun hP ha => ⟨hP.1.act ha, fun hall => ?_⟩) hstart).2 hes
  exact (hP.2 fun e he => hall e (List.mem_append_left _ he)).act hP.1 ha (hall _ (by simp))

/-! ## Names of the host -/

section Names

variable {stage : Stage} {name : String} {c : Capability}

/-- In a script the name of the host is the reference that the stage has for it. -/
theorem evaluate_builtin (h : stage.builtin? name = some c) (budget : Nat) (pos : Pos)
    (m : Machine) :
    evaluate stage (budget + 1) (.expr (.builtin name pos)) m = some (.ok (.handle c), m) := by
  simp only [evaluate, step, evalExpr, h]
  rfl

/-- In a library, where the name is a variable like others, so it is, unless a function has it. -/
theorem evaluate_hostName (h : stage.builtin? name = some c)
    (hg : stage.libraries.isGlobal name = true) (budget : Nat) (known : Bool) (pos : Pos)
    (m : Machine) : ∃ v,
      evaluate stage (budget + 1) (.expr (.var name known pos)) m = some (.ok v, m) ∧
      (v = .handle c ∨ ∃ fs ∈ m.frame.functions, ∃ f ∈ fs, f.name = name ∧
        v = .fn f.name [] (some f)) := by
  have hplain : plainSlot stage name (some pos) m = some (.ok (.fixed (.handle c)), m) := by
    simp only [plainSlot, hg, if_true, h]
    rfl
  have of_slot {v : Value} (hv : slot stage name known (some pos) m = some (.ok (.fixed v), m)) :
      evaluate stage (budget + 1) (.expr (.var name known pos)) m = some (.ok v, m) :=
    Eval.bind_ok hv
  cases known with
  | true => exact ⟨.handle c, of_slot hplain, .inl rfl⟩
  | false =>
      have hfunction : Eval.anyFunction? name m =
          some (.ok (m.frame.functions.findSome? fun fs => fs.find? (·.name == name)), m) := rfl
      cases hf : m.frame.functions.findSome? fun fs => fs.find? (·.name == name) with
      | none =>
          rw [hf] at hfunction
          exact ⟨.handle c, of_slot ((Eval.bind_ok hfunction).trans hplain), .inl rfl⟩
      | some f =>
          rw [hf] at hfunction
          obtain ⟨fs, hfs, hfind⟩ := List.exists_of_findSome?_eq_some hf
          refine ⟨_, of_slot (Eval.bind_ok hfunction), .inr ⟨fs, hfs, f, ?_, ?_, rfl⟩⟩
          · exact List.mem_of_find?_eq_some hfind
          · simpa using List.find?_some hfind

end Names

/-! ## The law -/

/-- Capability confinement along a history. Whatever is run for an instance, by whatever event,
leads nowhere but to what is its own (`runs`): so did all that the run could start from, the
libraries that were evaluated before included, and no step of it leads out (`code`). The names of
the host stand for the instance's own references wherever they are read (`names`). So no store
changes but through the code of its one owner or through the host (`stores`). -/
structure ConfinementLaw (c : HostConfig) (w : World) (past : List (Op × List Event))
    (r : Registry) : Prop where
  runs : ∀ e ∈ eventsOf past, ∀ i i' before after, e.change? = some (i, i') →
    e.run? = some (i.id, before, after) → OwnRun i i' before after
  code : ∀ i ∈ r.instances, ∀ budget job m result m', Within i.own job → m.Confined i.own →
    evaluate (i.stage r.libraries) budget job m = some (result, m') →
      Moves i.own m m' ∧ m'.Confined i.own ∧ Within i.own result
  names : ∀ i ∈ r.instances, ∀ name reference,
    (name, reference) ∈ [("Data", Capability.data i.data), ("Script", .script i.handle)] →
      ∀ budget pos m, evaluate (i.stage r.libraries) (budget + 1) (.expr (.builtin name pos)) m =
          some (.ok (.handle reference), m) ∧
        ∀ known, ∃ v, evaluate (i.stage r.libraries) (budget + 1) (.expr (.var name known pos)) m =
            some (.ok v, m) ∧
          (v = .handle reference ∨ ∃ fs ∈ m.frame.functions, ∃ f ∈ fs, f.name = name ∧
            v = .fn f.name [] (some f))
  owners : ∀ i ∈ r.instances, ∀ j ∈ r.instances, i.data = j.data → i = j
  stores : ∀ pre e post r₁ r₂, eventsOf past = pre ++ e :: post →
    Path (Registry.start c w) pre r₁ → Act r₁ e r₂ → ∀ id d, r₁.world.stores[id]? = some d →
      r₂.world.stores[id]? = some d ∨ (∃ i i', e.change? = some (i, i') ∧ i.data = id) ∨
        ∃ key value, e = .chore (.seed id key value)

/-- Whatever is done with a registry, if the host passes no store and no reference to an instance. -/
theorem capabilities_confined {c : HostConfig} {w : World} {past : List (Op × List Event)}
    {r : Registry} (hw : w.realms = []) (h : Annals c w past r)
    (hp : ∀ p ∈ past, p.1.Impersonal) : ConfinementLaw c w past r := by
  have himpersonal : ∀ e ∈ eventsOf past, e.Impersonal := by
    intro e he
    obtain ⟨p, hmem, he⟩ := List.mem_flatMap.mp he
    obtain ⟨r₁, htold⟩ := h.told p hmem
    exact htold.impersonal (hp p hmem) e he
  have hpre {pre post : List Event} {e : Event} (hsplit : eventsOf past = pre ++ e :: post) :
      (∀ e ∈ pre, e.Impersonal) ∧ e.Impersonal := by
    rw [hsplit] at himpersonal
    exact ⟨fun e he => himpersonal e (List.mem_append_left _ he), himpersonal e (by simp)⟩
  have hr : Apart r := h.path.apart hw himpersonal
  have hglobals : r.libraries.globals = builtinNames := by rw [h.path.fixed.2]; rfl
  refine ⟨?_, ?_, ?_, ?_, ?_⟩
  · intro e he i i' before after hc hrun
    obtain ⟨pre, post, hsplit⟩ := List.append_of_mem he
    obtain ⟨r₁, r₂, hpath, hact, -⟩ := (hsplit ▸ h.path).at_event
    obtain ⟨r₀, place, w', -, -, -, -, -, hrun', hown, -⟩ :=
      (hpath.apart hw (hpre hsplit).1).ownRun (hpath.orderly) hact (hpre hsplit).2 hc
    cases hrun.symm.trans hrun'
    exact hown
  · intro i hi budget job m result m' hjob hm heval
    obtain ⟨hmoves, hresult⟩ :=
      ((Built.evaluate (i.serves_own r.libraries) budget).job job hjob).does m result m' hm heval
    exact ⟨hmoves, hmoves.confined hm, hresult⟩
  · intro i hi name reference hname budget pos m
    have hbuiltin : (i.stage r.libraries).builtin? name = some reference := by
      simp only [List.mem_cons, Prod.mk.injEq, List.not_mem_nil, or_false] at hname
      rcases hname with ⟨rfl, rfl⟩ | ⟨rfl, rfl⟩ <;> rfl
    have hglobal : (i.stage r.libraries).libraries.isGlobal name = true := by
      simp only [List.mem_cons, Prod.mk.injEq, List.not_mem_nil, or_false] at hname
      change r.libraries.globals.contains name = true
      rw [hglobals]
      rcases hname with ⟨rfl, -⟩ | ⟨rfl, -⟩ <;> rfl
    exact ⟨evaluate_builtin hbuiltin budget pos m,
      fun known => evaluate_hostName hbuiltin hglobal budget known pos m⟩
  · intro i hi j hj hd
    exact hr.data_inj hi hj hd
  · intro pre e post r₁ r₂ hsplit hpath hact id d hd
    exact (hpath.apart hw (hpre hsplit).1).store_eq hpath.orderly hact (hpre hsplit).2 hd

set_option maxRecDepth 100000 in
/-- Two scripts share a library that writes to the store and asks for a removal; each time it is the
store and the number of the script that it runs for. -/
theorem capabilities_confined_sharing : ∃ (c : HostConfig) (w : World)
    (past : List (Op × List Event)) (r : Registry), Annals c w past r ∧
      r.instances.map (fun i => (i.id, (r.world.store i.data).entries.map (·.1))) =
        [(1, ["A"]), (2, ["B", "m"])] ∧
      r.world.removals.pending = [2] ∧ ConfinementLaw c w past r := by
  let c : HostConfig := { scripts := { startup := [] } }
  let script := "import \"tag\" as tag; tag::mark();
    fn OnMessage(m) \x7b import \"tag\" as tag; tag::leave(m) \x7d"
  let library := "fn mark() \x7b Data.Set(Script.Name(), 1) \x7d
    fn leave(m) \x7b Data.Set(\"m\", m); Script.Remove() \x7d"
  let w : World :=
    .ofScripts [("A.rhai", script), ("B.rhai", script)] [("tag.rhai", library)]
  let ops : List Op := [.add "A", .add "B", .sendMessage "B" (.int 3), .reload "A"]
  have hrun : (Op.runAll 1000 (.start c w) ops).any (fun r =>
      r.instances.map (fun i => (i.id, (r.world.store i.data).entries.map (·.1))) ==
        [(1, ["A"]), (2, ["B", "m"])] && r.world.removals.pending == [2]) = true := by
    decide +kernel
  obtain ⟨r, hr, hshows⟩ := (Option.any_eq_true _ _).mp hrun
  obtain ⟨hstores, hpending⟩ := Bool.and_eq_true_iff.mp hshows
  obtain ⟨past, hops, h⟩ := Annals.start.all hr
  refine ⟨c, w, past, r, h, beq_iff_eq.mp hstores, beq_iff_eq.mp hpending,
    capabilities_confined rfl h fun p hp => ?_⟩
  have hmem : p.1 ∈ ops := hops ▸ List.mem_map_of_mem hp
  simp only [ops, List.mem_cons, List.not_mem_nil, or_false] at hmem
  rcases hmem with heq | heq | heq | heq <;> rw [heq]
  · trivial
  · trivial
  · exact within_of_leafless rfl
  · trivial

end Stagehand
