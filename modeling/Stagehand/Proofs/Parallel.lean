import Stagehand.Proofs.Loads
import Stagehand.Proofs.RenamedFunctions
import Stagehand.Proofs.Runs

/-!
# Two worlds side by side

Two hosts over the same files and at the same time differ in what there was before: in the numbers
that instances and stores have, and in what was reported. `Worlds` says that they differ in nothing
else, and `Alike` that two runs keep it so and end alike: both or neither, and with results that
differ in their numbers alone. There is a rule for each way of putting runs together and one for
each access to the machine.
-/

namespace Stagehand

open Lang

/-- A report without the number in it. -/
def LogRecord.unnumbered (r : LogRecord) : LogRecord :=
  { r with fields := r.fields.filter (·.1 != "owner") }

/-- How the numbers of one host become those of another, and what each had reported before. -/
structure Pairing extends Renaming where
  told : List LogRecord
  told' : List LogRecord

/-- The worlds differ in numbers and in what was reported before. -/
structure Pairing.Worlds (τ : Pairing) (w w' : World) : Prop where
  files : w'.files = w.files
  clock : w'.clock = w.clock
  host : w'.host = w.host
  images : w'.images = w.images
  seed : w'.seed = w.seed
  stores : ∀ id : StoreId, w'.stores[τ.store id]? = w.stores[id]?.map τ.on
  /-- Stores that are to come get numbers alike. -/
  fresh : ∀ k, τ.store (w.stores.size + k) = w'.stores.size + k
  removals : w'.removals.pending = w.removals.pending.map τ.script
  realms : ∀ id, w'.realm (τ.script id) = τ.on (w.realm id)
  log : ∃ new new', w.log.toList = τ.told ++ new ∧ w'.log.toList = τ.told' ++ new' ∧
    new'.map LogRecord.unnumbered = new.map LogRecord.unnumbered

theorem on_realm_empty {ρ : Renaming} : ρ.on ({} : Realm) = {} := by
  change Realm.mk (Array.map ρ.on #[]) [] = _
  rw [Array.map_empty]

theorem modify_on {ρ : Renaming} (h : Heap) (cell : CellId) (v : Value) :
    (h.map ρ.on).modify cell (·.put (ρ.on v)) = (h.modify cell (·.put v)).map ρ.on := by
  refine Array.ext_getElem? fun other => ?_
  rw [Array.getElem?_modify, Array.getElem?_map, Array.getElem?_map, Array.getElem?_modify]
  split
  · cases h[other]? <;> rfl
  · rfl

theorem keep_on {ρ : Renaming} (realm : Realm) (file : FilePath) (c : CachedModule) :
    (ρ.on realm).keep file (ρ.on c) = ρ.on (realm.keep file c) := by
  change Realm.mk _ _ = Realm.mk _ _
  rw [on_realm_modules, List.filter_map]
  rfl

/-- Whoever is among some under other numbers was among them. -/
theorem contains_script {ρ : Renaming} [hρ : ρ.Injective] (ids : List InstanceId)
    (id : InstanceId) : (ids.map ρ.script).contains (ρ.script id) = ids.contains id := by
  rw [Bool.eq_iff_iff, List.contains_iff_mem, List.contains_iff_mem]
  refine ⟨fun h => ?_, List.mem_map_of_mem⟩
  obtain ⟨other, hother, heq⟩ := List.mem_map.mp h
  exact hρ.script heq ▸ hother

namespace Pairing.Worlds

variable {τ : Pairing} {w w' : World} (h : τ.Worlds w w')
include h

theorem store (id : StoreId) : w'.store (τ.store id) = τ.on (w.store id) := by
  rw [World.store, World.store, h.stores id]
  cases w.stores[id]? <;> rfl

theorem imageSize (id : ImageId) : w'.imageSize id = w.imageSize id := by
  rw [World.imageSize, World.imageSize, World.image, World.image, h.images]

/-- Reports that differ in their number at most. -/
theorem record {r r' : LogRecord} (hr : r'.unnumbered = r.unnumbered) :
    τ.Worlds (w.record r) (w'.record r') := by
  obtain ⟨new, new', hw, hw', hnew⟩ := h.log
  refine { h with log := ⟨new ++ [r], new' ++ [r'], ?_, ?_, ?_⟩ }
  · rw [World.record, Array.toList_push, hw, List.append_assoc]
  · rw [World.record, Array.toList_push, hw', List.append_assoc]
  · rw [List.map_append, List.map_append, hnew, List.map_singleton, List.map_singleton, hr]

theorem recordAll (rs : List LogRecord) : τ.Worlds (w.recordAll rs) (w'.recordAll rs) := by
  induction rs generalizing w w' with
  | nil => exact h
  | cons r rest ih => exact ih (h.record rfl)

theorem tick : w'.tick.1 = w.tick.1 ∧ τ.Worlds w.tick.2 w'.tick.2 :=
  ⟨h.clock, { h with clock := congrArg (· + 1) h.clock }⟩

theorem modifyHost (f : HostState → HostState) : τ.Worlds (w.modifyHost f) (w'.modifyHost f) :=
  { h with host := congrArg f h.host }

theorem drawImage (target source : ImageId) (x y : Float) :
    τ.Worlds (w.drawImage target source x y) (w'.drawImage target source x y) := by
  refine { h with images := ?_ }
  simp only [World.drawImage, World.setImage, World.image, h.images]

theorem takeRemovals : w'.takeRemovals.1 = w.takeRemovals.1.map τ.script ∧
    τ.Worlds w.takeRemovals.2 w'.takeRemovals.2 :=
  ⟨h.removals, { h with removals := rfl }⟩

theorem takeAdds : w'.takeAdds.1 = w.takeAdds.1 ∧ τ.Worlds w.takeAdds.2 w'.takeAdds.2 :=
  ⟨congrArg HostState.adds h.host, h.modifyHost fun host => { host with adds := [] }⟩

theorem addImage (image : Image) : (w'.addImage image).1 = (w.addImage image).1 ∧
    τ.Worlds (w.addImage image).2 (w'.addImage image).2 :=
  ⟨congrArg Array.size h.images, { h with images := congrArg (Array.push · image) h.images }⟩

theorem loadImage (path : String) : (w'.loadImage path).1 = (w.loadImage path).1 ∧
    τ.Worlds (w.loadImage path).2 (w'.loadImage path).2 := by
  unfold World.loadImage
  rw [h.host, h.files]
  dsimp only
  split
  · exact ⟨rfl, h⟩
  · split
    · exact ⟨rfl, h⟩
    · split
      · exact ⟨rfl, h⟩
      · rename_i image _
        obtain ⟨hid, himage⟩ := h.addImage image
        dsimp only
        rw [hid]
        exact ⟨rfl, himage.modifyHost _⟩

theorem random (low high : Float) : (w'.random low high).1 = (w.random low high).1 ∧
    τ.Worlds (w.random low high).2 (w'.random low high).2 := by
  have hboth : (w'.random low high).1 = (w.random low high).1 ∧
      (w'.random low high).2.seed = (w.random low high).2.seed := by
    simp only [World.random, World.pick, h.seed]
    split
    · exact ⟨rfl, h.seed⟩
    · split
      · exact ⟨rfl, rfl⟩
      · exact ⟨rfl, h.seed⟩
  obtain ⟨hresult, hseed⟩ := hboth
  obtain ⟨seed, hw⟩ := w.random_world low high
  obtain ⟨seed', hw'⟩ := w'.random_world low high
  rw [hw, hw'] at hseed ⊢
  exact ⟨hresult, { h with seed := hseed }⟩

section Injective

variable [hτ : τ.Injective]

theorem addStore : w'.addStore.1 = τ.store w.addStore.1 ∧ τ.Worlds w.addStore.2 w'.addStore.2 := by
  have hsize : τ.store w.stores.size = w'.stores.size := h.fresh 0
  refine ⟨hsize.symm, { h with stores := fun id => ?_, fresh := fun k => ?_ }⟩
  · simp only [World.addStore, Array.getElem?_push]
    by_cases heq : id = w.stores.size
    · rw [if_pos (heq ▸ hsize), if_pos heq]
      rfl
    · rw [if_neg fun hid => heq (hτ.store (hid.trans hsize.symm)), if_neg heq, h.stores]
  · have := h.fresh (k + 1)
    simp only [World.addStore, Array.size_push]
    rwa [Nat.add_comm k 1, ← Nat.add_assoc, ← Nat.add_assoc] at this

theorem modifyStore (id : StoreId) {f g : DataStore → DataStore}
    (hfg : ∀ d, g (τ.on d) = τ.on (f d)) :
    τ.Worlds (w.modifyStore id f) (w'.modifyStore (τ.store id) g) := by
  refine { h with stores := fun other => ?_, fresh := fun k => ?_ }
  · rw [World.modifyStore_stores, World.modifyStore_stores, h.stores, Option.map_map,
      Option.map_map]
    congr 1
    funext d
    by_cases heq : id = other
    · simp [heq, hfg]
    · simp [heq, hτ.store.ne heq]
  · simpa only [World.modifyStore, Array.size_setIfInBounds] using h.fresh k

theorem requestRemoval (id : InstanceId) :
    τ.Worlds (w.requestRemoval id) (w'.requestRemoval (τ.script id)) := by
  refine { h with removals := ?_ }
  have hasked : w'.removals.pending.contains (τ.script id) = w.removals.pending.contains id := by
    rw [h.removals, contains_script]
  simp only [World.requestRemoval, RemovalQueue.push, hasked]
  split
  · exact h.removals
  · rw [h.removals, List.map_append, List.map_singleton]

theorem setRealm (owner : InstanceId) (realm : Realm) :
    τ.Worlds (w.setRealm owner realm) (w'.setRealm (τ.script owner) (τ.on realm)) := by
  refine { h with realms := fun id => ?_ }
  by_cases heq : id = owner
  · rw [heq, World.realm_setRealm, World.realm_setRealm]
  · rw [World.realm_setRealm_of_ne _ heq, World.realm_setRealm_of_ne _ (hτ.script.ne heq), h.realms]

theorem forget (owner : InstanceId) :
    τ.Worlds (w.forget owner) (w'.forget (τ.script owner)) := by
  refine { h with realms := fun id => ?_ }
  by_cases heq : id = owner
  · rw [heq, World.realm_forget, World.realm_forget, on_realm_empty]
  · rw [World.realm_forget_of_ne _ heq, World.realm_forget_of_ne _ (hτ.script.ne heq), h.realms]

theorem foldl_forget (owners : List InstanceId) :
    τ.Worlds (owners.foldl World.forget w) ((owners.map τ.script).foldl World.forget w') := by
  induction owners generalizing w w' with
  | nil => exact h
  | cons owner rest ih => exact ih (h.forget owner)

end Injective

end Pairing.Worlds

namespace Lang

/-- The machines differ in the numbers of instances and stores. -/
structure Machines (τ : Pairing) (m n : Machine) : Prop where
  world : τ.Worlds m.world n.world
  realm : n.realm = τ.on m.realm
  frame : n.frame = τ.on m.frame

/-- From machines that differ in numbers both runs end, or neither, and with results and machines
that differ in numbers. -/
def Alike (τ : Pairing) {α : Type} [Renames α] (x y : Eval α) : Prop :=
  ∀ m n, Machines τ m n →
    Option.Rel (fun p q => q.1 = τ.on p.1 ∧ Machines τ p.2 q.2) (x m) (y n)

namespace Alike

variable {τ : Pairing}

/-! ## Runs put together -/

section Rules

variable {α β : Type} [Renames α] [Renames β] {x y : Eval α} {f g : α → Eval β}

theorem endless : Alike τ (fun _ => none : Eval α) fun _ => none := fun _ _ _ => .none

theorem pure {a b : α} (h : b = τ.on a) : Alike τ (Pure.pure a : Eval α) (Pure.pure b) :=
  fun _ _ hm => .some ⟨congrArg Except.ok h, hm⟩

theorem throw {h k : Halt} (hk : k = τ.on h) :
    Alike τ (MonadExcept.throw h : Eval α) (MonadExcept.throw k) :=
  fun _ _ hm => .some ⟨congrArg Except.error hk, hm⟩

theorem bind (hx : Alike τ x y) (hf : ∀ a, Alike τ (f a) (g (τ.on a))) :
    Alike τ (x >>= f) (y >>= g) := by
  intro m n hm
  have h := hx m n hm
  cases hxm : x m with
  | none =>
      rw [hxm] at h
      cases hyn : y n with
      | none =>
          rw [Eval.bind_none hxm, Eval.bind_none hyn]
          exact .none
      | some q => rw [hyn] at h; nomatch h
  | some p =>
      rw [hxm] at h
      cases hyn : y n with
      | none => rw [hyn] at h; nomatch h
      | some q =>
          rw [hyn, Option.rel_some_some] at h
          obtain ⟨r, m'⟩ := p
          obtain ⟨r', n'⟩ := q
          obtain ⟨rfl, hm'⟩ := h
          cases r with
          | ok a =>
              rw [Eval.bind_ok hxm, Eval.bind_ok hyn]
              exact hf a m' n' hm'
          | error halt =>
              rw [Eval.bind_error hxm, Eval.bind_error hyn]
              exact .some ⟨rfl, hm'⟩

theorem attempt (hx : Alike τ x y) : Alike τ (Eval.attempt x) (Eval.attempt y) := by
  intro m n hm
  have h := hx m n hm
  unfold Eval.attempt
  cases hxm : x m with
  | none =>
      rw [hxm] at h
      cases hyn : y n with
      | none => exact .none
      | some q => rw [hyn] at h; nomatch h
  | some p =>
      rw [hxm] at h
      cases hyn : y n with
      | none => rw [hyn] at h; nomatch h
      | some q =>
          rw [hyn, Option.rel_some_some] at h
          exact .some ⟨congrArg Except.ok h.1, h.2⟩

/-- What follows a look at the machine may rely on the machines differing in numbers alone. -/
theorem look {f g : Machine → Eval α} (hf : ∀ m n, Machines τ m n → Alike τ (f m) (g n)) :
    Alike τ (get >>= f) (get >>= g) :=
  fun m n hm => hf m n hm m n hm

theorem branch {p : Prop} [Decidable p] {x' y' : Eval α} (hx : Alike τ x y) (hx' : Alike τ x' y') :
    Alike τ (if p then x else x') (if p then y else y') := by
  split
  · exact hx
  · exact hx'

theorem raise {c d : Cause} {pos : Place} (hd : d = τ.on c) :
    Alike τ (Eval.raise c pos : Eval α) (Eval.raise d pos) :=
  throw (congrArg (fun c => Halt.fault (.raised c pos)) hd)

theorem reject (message : String) : Alike τ (Eval.reject message : Eval α) (Eval.reject message) :=
  raise rfl

theorem orRaise {r s : Except Cause α} {pos : Place} (hs : s = τ.on r) :
    Alike τ (Eval.orRaise r pos) (Eval.orRaise s pos) := by
  subst hs
  cases r with
  | ok a => exact pure rfl
  | error cause => exact raise rfl

/-- What was attempted goes on as it ended. -/
theorem resume (r : Except Halt α) :
    Alike τ (match r with
      | .ok a => return a
      | .error h => MonadExcept.throw h : Eval α)
      (match τ.on r with
      | .ok a => return a
      | .error h => MonadExcept.throw h) := by
  cases r with
  | ok a => exact pure rfl
  | error h => exact throw rfl

theorem mapM {γ : Type} {k : γ → γ} {f g : γ → Eval α} (hf : ∀ a, Alike τ (f a) (g (k a))) :
    ∀ as : List γ, Alike τ (as.mapM f) ((as.map k).mapM g)
  | [] => by
    rw [List.map_nil, List.mapM_nil, List.mapM_nil]
    exact pure rfl
  | a :: as => by
    rw [List.map_cons, List.mapM_cons, List.mapM_cons]
    exact bind (hf a) fun b => bind (mapM hf as) fun bs => pure rfl

/-- The same jobs one after the other. -/
theorem mapM_same {γ : Type} {f g : γ → Eval α} (hf : ∀ a, Alike τ (f a) (g a)) (as : List γ) :
    Alike τ (as.mapM f) (as.mapM g) := by
  have h := mapM (k := id) hf as
  rwa [List.map_id] at h

theorem forM_list {γ : Type} {f g : γ → Eval Unit} (hf : ∀ a, Alike τ (f a) (g a)) :
    ∀ as : List γ, Alike τ (as.forM f) (as.forM g)
  | [] => pure rfl
  | a :: as => bind (hf a) fun _ => forM_list hf as

theorem forM_option {γ : Type} {k : γ → γ} {f g : γ → Eval Unit}
    (hf : ∀ a, Alike τ (f a) (g (k a))) (o : Option γ) : Alike τ (o.forM f) ((o.map k).forM g) := by
  cases o with
  | none => exact pure rfl
  | some a => exact hf a

end Rules

/-! ## Access to the machine -/

section Access

variable {α β : Type} [Renames α] [Renames β]

/-- A run that does nothing but to change the machine. -/
theorem of_change {x y : Eval Unit} {f g : Machine → Machine} (hx : ∀ m, x m = some (.ok (), f m))
    (hy : ∀ n, y n = some (.ok (), g n)) (h : ∀ m n, Machines τ m n → Machines τ (f m) (g n)) :
    Alike τ x y := by
  intro m n hm
  rw [hx, hy]
  exact .some ⟨rfl, h m n hm⟩

theorem modifyFrame {f g : Frame → Frame} (h : ∀ frame, g (τ.on frame) = τ.on (f frame)) :
    Alike τ (Eval.modifyFrame f) (Eval.modifyFrame g) :=
  of_change (fun _ => rfl) (fun _ => rfl) fun m _ hm =>
    ⟨hm.world, hm.realm, (congrArg g hm.frame).trans (h m.frame)⟩

theorem modifyWorld {f g : World → World} (h : ∀ w w', τ.Worlds w w' → τ.Worlds (f w) (g w')) :
    Alike τ (Eval.modifyWorld f) (Eval.modifyWorld g) :=
  of_change (fun _ => rfl) (fun _ => rfl) fun m n hm =>
    ⟨h m.world n.world hm.world, hm.realm, hm.frame⟩

theorem askWorld {f g : World → α × World}
    (h : ∀ w w', τ.Worlds w w' → (g w').1 = τ.on (f w).1 ∧ τ.Worlds (f w).2 (g w').2) :
    Alike τ (Eval.askWorld f) (Eval.askWorld g) := by
  intro m n hm
  obtain ⟨hresult, hworld⟩ := h m.world n.world hm.world
  exact .some ⟨congrArg Except.ok hresult, ⟨hworld, hm.realm, hm.frame⟩⟩

theorem setCell (cell : CellId) (v : Value) :
    Alike τ (Eval.setCell cell v) (Eval.setCell cell (τ.on v)) :=
  of_change (fun _ => rfl) (fun _ => rfl) fun m n hm => by
    refine ⟨hm.world, ?_, hm.frame⟩
    change Realm.mk _ _ = Realm.mk _ _
    rw [hm.realm, on_realm_heap, modify_on]
    rfl

/-- A new cell has the same number on both sides. -/
theorem newCell (held : Held) : Alike τ (Eval.newCell held) (Eval.newCell (τ.on held)) := by
  intro m n hm
  have hheap : n.realm.heap = m.realm.heap.map τ.on := by rw [hm.realm, on_realm_heap]
  refine .some ⟨?_, hm.world, ?_, hm.frame⟩
  · rw [hheap, Array.size_map]
    rfl
  · change Realm.mk _ _ = Realm.mk _ _
    rw [hheap, ← Array.map_push, hm.realm]
    rfl

theorem keepModule (file : FilePath) (modified : Option Instant) (module : Module) :
    Alike τ (Lang.keepModule file modified module) (Lang.keepModule file modified (τ.on module)) :=
  of_change (fun _ => rfl) (fun _ => rfl) fun m n hm => by
    refine ⟨hm.world, ?_, hm.frame⟩
    change n.realm.keep _ _ = τ.on (m.realm.keep _ _)
    rw [hm.realm]
    exact keep_on m.realm file ⟨modified, module⟩

theorem flatten (v : Value) : Alike τ (Eval.flatten v) (Eval.flatten (τ.on v)) :=
  look fun m n hm => pure (by rw [hm.realm, on_realm_heap, flatten_on])

theorem valueOf (u : Upshot) : Alike τ (Eval.valueOf u) (Eval.valueOf (τ.on u)) := by
  obtain ⟨outcome, changed⟩ := u
  cases outcome with
  | ok v => exact pure rfl
  | error h => exact throw rfl

theorem apart {f g : Frame → Frame} {x y : Eval α} {k l : Frame → Except Halt α → Eval β}
    (hf : ∀ frame, g (τ.on frame) = τ.on (f frame)) (hx : Alike τ x y)
    (hk : ∀ inner r, Alike τ (k inner r) (l (τ.on inner) (τ.on r))) :
    Alike τ (Eval.apart f x k) (Eval.apart g y l) := by
  refine look fun m n hm => bind (modifyFrame hf) fun _ => bind (attempt hx) fun r => ?_
  refine look fun m' n' hm' => bind (modifyFrame fun _ => hm.frame) fun _ => ?_
  exact hm'.frame ▸ hk m'.frame r

theorem deeper {x y : Eval α} (hx : Alike τ x y) : Alike τ (Eval.deeper x) (Eval.deeper y) := by
  refine look fun m n hm => ?_
  rw [hm.frame, on_frame_depth]
  refine bind (modifyFrame fun _ => rfl) fun _ => bind (attempt hx) fun r => ?_
  exact bind (modifyFrame fun _ => rfl) fun _ => resume r

theorem holding (v : Var) {x y : Eval α} (hx : Alike τ x y) :
    Alike τ (Eval.holding v x) (Eval.holding (τ.on v) y) := by
  obtain ⟨name, ⟨value, fixed⟩, aliases⟩ := v
  cases value with
  | shared cell =>
      refine look fun m n hm => ?_
      rw [hm.frame, on_frame_locked]
      refine bind (modifyFrame fun _ => rfl) fun _ => bind (attempt hx) fun r => ?_
      exact bind (modifyFrame fun _ => rfl) fun _ => resume r
  | _ => exact hx

end Access

end Alike
end Lang
end Stagehand
