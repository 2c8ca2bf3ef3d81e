import Stagehand.Proofs.Functions

/-!
# Effects of scripts

All that a script can do to the world, as data, so that a run has an account of what it did. What an
effect can change is said once (`Effect.apply_world`): the files, the realms and the counter of
frames are beyond every effect, and requests and stores change as `added?`, `removed?` and `write`
say.
-/

namespace Stagehand

open Lang

/-- What a script can do to the world. -/
inductive Effect where
  | record (r : LogRecord)
  | tick
  | requestAdd (name : String)
  | requestRemoval (id : InstanceId)
  | set (id : StoreId) (key : String) (value : HostValue)
  | setAll (id : StoreId) (entries : List (String × HostValue))
  | draw (target source : ImageId) (x y : Float)
  | loadImage (path : String)
  | random (low high : Float)

namespace Effect

/-- The world after an effect. -/
def apply : Effect → World → World
  | record r, w => w.record r
  | tick, w => w.tick.2
  | requestAdd name, w => w.requestAdd name
  | requestRemoval id, w => w.requestRemoval id
  | set id key value, w => w.modifyStore id fun d => d.set key value
  | setAll id entries, w => w.modifyStore id fun d => d.setAll entries
  | draw target source x y, w => w.drawImage target source x y
  | loadImage path, w => (w.loadImage path).2
  | random low high, w => (w.random low high).2

/-- The world after effects, one after the other. -/
def applyAll (es : List Effect) (w : World) : World := es.foldl (fun w e => e.apply w) w

@[simp] theorem applyAll_nil (w : World) : applyAll [] w = w := rfl

theorem applyAll_append (as bs : List Effect) (w : World) :
    applyAll (as ++ bs) w = applyAll bs (applyAll as w) := List.foldl_append

/-- An effect goes through references that are allowed, and stores what is allowed. -/
def Allowed (A : Allowance) : Effect → Prop
  | set id _ value => A (.handle (.data id)) ∧ Within A value
  | setAll id entries => A (.handle (.data id)) ∧ Within A entries
  | requestRemoval id => ∃ name, A (.handle (.script ⟨id, name⟩))
  | _ => True

end Effect

/-- What the code of an instance can put into the log: what it hands to the host's log, what it
prints, and that a library was evaluated for it. -/
inductive Utterance (owner : ScriptHandle) : LogRecord → Prop
  | logged (text : String) : Utterance owner ⟨.info, text, [], some "script"⟩
  | printed {level : Level} (h : level = .info ∨ level = .debug) (text : String) :
      Utterance owner (level.report text [("script", owner.name)])
  | library (text : String) (file : FilePath) :
      Utterance owner (Level.debug.report "library module loaded"
        [("library", text), ("file", file.text), ("owner", toString owner.id)])

/-- The effect puts nothing into the log but what the code of an instance can put there. -/
def Effect.Spoken (owner : ScriptHandle) : Effect → Prop
  | record r => Utterance owner r
  | _ => True

/-- The stores that are allowed hold what is allowed. -/
def World.Closed (A : Allowance) (w : World) : Prop :=
  ∀ id d, w.stores[id]? = some d → A (.handle (.data id)) → Within A d

theorem World.Closed.store {A : Allowance} {w : World} (hw : w.Closed A) {id : StoreId}
    (hid : A (.handle (.data id))) : Within A (w.store id) := by
  unfold World.store
  cases h : w.stores[id]? with
  | none => exact within_of_leafless rfl
  | some d => exact hw id d h hid

theorem World.Closed.modifyStore {A : Allowance} {w : World} (hw : w.Closed A) {id : StoreId}
    {f : DataStore → DataStore} (hf : A (.handle (.data id)) → Within A (f (w.store id))) :
    (w.modifyStore id f).Closed A := by
  intro other d hd hother
  simp only [World.modifyStore, Array.getElem?_setIfInBounds] at hd
  split at hd
  · rename_i heq
    subst heq
    split at hd
    · cases hd
      exact hf hother
    · nomatch hd
  · exact hw other d hd hother

/-- To load an image changes no more than the images and their cache. -/
theorem World.loadImage_world (w : World) (path : String) : ∃ images assets,
    (w.loadImage path).2 = { w with images, host := { w.host with assets } } := by
  unfold World.loadImage
  dsimp only
  split
  · exact ⟨_, _, rfl⟩
  · split
    · exact ⟨_, _, rfl⟩
    · split
      · exact ⟨_, _, rfl⟩
      · exact ⟨_, _, rfl⟩

/-- To pick a number changes no more than the seed. -/
theorem World.random_world (w : World) (low high : Float) :
    ∃ seed, (w.random low high).2 = { w with seed } := by
  unfold World.random
  split
  · exact ⟨_, rfl⟩
  · split
    · exact ⟨_, rfl⟩
    · exact ⟨_, rfl⟩

/-- An allowed effect leaves what it can read again within the allowance. -/
theorem Effect.closed {A : Allowance} {w : World} {e : Effect} (he : e.Allowed A)
    (hw : w.Closed A) : (e.apply w).Closed A := by
  cases e with
  | set id key value =>
      refine hw.modifyStore fun hid => ?_
      exact within_store.mpr (within_list.mp
        (within_put he.2 (within_list.mpr (within_store.mp (hw.store hid)))))
  | setAll id entries =>
      exact hw.modifyStore fun _ => within_store.mpr (within_list.mp (within_ofList he.2))
  | loadImage path =>
      obtain ⟨images, assets, h⟩ := w.loadImage_world path
      rw [Effect.apply, h]
      exact hw
  | random low high =>
      obtain ⟨seed, h⟩ := w.random_world low high
      rw [Effect.apply, h]
      exact hw
  | record _ | tick | requestAdd _ | requestRemoval _ | draw _ _ _ _ => exact hw

/-! ## What an effect changes -/

theorem World.modifyStore_stores (w : World) (id other : StoreId) (f : DataStore → DataStore) :
    (w.modifyStore other f).stores[id]? =
      w.stores[id]?.map fun d => if other = id then f d else d := by
  rw [World.modifyStore, Array.getElem?_setIfInBounds]
  split
  · rename_i heq
    subst heq
    split
    · rename_i hlt
      simp [World.store, Array.getElem?_eq_getElem hlt]
    · rename_i hlt
      simp [Array.getElem?_eq_none (Nat.le_of_not_lt hlt)]
  · simp

namespace Effect

/-- The name that an effect asks to be added. -/
def added? : Effect → Option String
  | requestAdd name => some name
  | _ => none

/-- The instance that an effect asks to be removed. -/
def removed? : Effect → Option InstanceId
  | requestRemoval id => some id
  | _ => none

/-- What an effect makes of a store. -/
def write (id : StoreId) : Effect → DataStore → DataStore
  | set other key value, d => if other = id then d.set key value else d
  | setAll other entries, d => if other = id then d.setAll entries else d
  | _, d => d

/-- Everything that an effect can change. -/
theorem apply_world (e : Effect) (w : World) :
    ∃ clock log images assets seed stores adds,
      (∀ id : StoreId, stores[id]? = w.stores[id]?.map (e.write id)) ∧
      adds = w.host.adds ++ e.added?.toList ∧
      e.apply w = { w with
        clock, log, images, seed, stores
        removals := e.removed?.toList.foldl RemovalQueue.push w.removals
        host := { w.host with assets, adds } } := by
  have same : ∀ id : StoreId, w.stores[id]? = w.stores[id]?.map fun d => d :=
    fun _ => Option.map_id'.symm
  have none : w.host.adds = w.host.adds ++ [] := (List.append_nil _).symm
  cases e with
  | set other key value =>
      exact ⟨_, _, _, _, _, _, _, fun id => w.modifyStore_stores id other _, none, rfl⟩
  | setAll other entries =>
      exact ⟨_, _, _, _, _, _, _, fun id => w.modifyStore_stores id other _, none, rfl⟩
  | requestAdd name => exact ⟨_, _, _, _, _, _, _, same, rfl, rfl⟩
  | loadImage path =>
      obtain ⟨images, assets, h⟩ := w.loadImage_world path
      exact ⟨_, _, _, _, _, _, _, same, none, h⟩
  | random low high =>
      obtain ⟨seed, h⟩ := w.random_world low high
      exact ⟨_, _, _, _, _, _, _, same, none, h⟩
  | record _ | tick | requestRemoval _ | draw _ _ _ _ =>
      exact ⟨_, _, _, _, _, _, _, same, none, rfl⟩

section Parts

variable (e : Effect) (w : World)

theorem apply_realms : (e.apply w).realms = w.realms := by
  obtain ⟨_, _, _, _, _, _, _, -, -, h⟩ := e.apply_world w
  rw [h]

theorem apply_files : (e.apply w).files = w.files := by
  obtain ⟨_, _, _, _, _, _, _, -, -, h⟩ := e.apply_world w
  rw [h]

theorem apply_frame : (e.apply w).host.frame = w.host.frame := by
  obtain ⟨_, _, _, _, _, _, _, -, -, h⟩ := e.apply_world w
  rw [h]

theorem apply_adds : (e.apply w).host.adds = w.host.adds ++ e.added?.toList := by
  obtain ⟨_, _, _, _, _, _, _, -, hadds, h⟩ := e.apply_world w
  rw [h]
  exact hadds

theorem apply_removals :
    (e.apply w).removals = e.removed?.toList.foldl RemovalQueue.push w.removals := by
  obtain ⟨_, _, _, _, _, _, _, -, -, h⟩ := e.apply_world w
  rw [h]

theorem apply_stores (id : StoreId) :
    (e.apply w).stores[id]? = w.stores[id]?.map (e.write id) := by
  obtain ⟨_, _, _, _, _, _, _, hstores, -, h⟩ := e.apply_world w
  rw [h]
  exact hstores id

end Parts

/-- No effect depends on the realms. -/
theorem apply_withRealms (e : Effect) (w : World) (realms : List (InstanceId × Realm)) :
    e.apply { w with realms } = { e.apply w with realms } := by
  cases e with
  | loadImage path =>
      simp only [apply, World.loadImage]
      split
      · rfl
      · split
        · rfl
        · split <;> rfl
  | random low high =>
      simp only [apply, World.random]
      split
      · rfl
      · split
        · rfl
        · rfl
  | _ => rfl

theorem applyAll_withRealms (es : List Effect) (w : World)
    (realms : List (InstanceId × Realm)) :
    applyAll es { w with realms } = { applyAll es w with realms } := by
  induction es generalizing w with
  | nil => rfl
  | cons e rest ih =>
      change applyAll rest (e.apply { w with realms }) = { applyAll rest (e.apply w) with realms }
      rw [apply_withRealms, ih]

/-- What each effect does to a part of the world, effects do to it one after the other. -/
theorem applyAll_part {α : Type} {f : World → α} {g : Effect → α → α}
    (h : ∀ e w, f (Effect.apply e w) = g e (f w)) :
    ∀ (es : List Effect) (w : World), f (applyAll es w) = es.foldl (fun x e => g e x) (f w)
  | [], _ => rfl
  | e :: rest, w => (applyAll_part h rest (e.apply w)).trans (by rw [h, List.foldl_cons])

/-- What no single effect changes, no number of effects changes. -/
theorem applyAll_eq {α : Type} {f : World → α} (h : ∀ e w, f (Effect.apply e w) = f w) :
    ∀ (es : List Effect) (w : World), f (applyAll es w) = f w
  | [], _ => rfl
  | e :: rest, w => (applyAll_eq h rest (e.apply w)).trans (h e w)

end Effect

/-! ## Requests for removal -/

namespace RemovalQueue

theorem mem_push {q : RemovalQueue} {id other : InstanceId} :
    other ∈ (q.push id).pending ↔ other ∈ q.pending ∨ other = id := by
  unfold push
  split
  · rename_i hc
    refine ⟨.inl, fun h => h.elim (fun h => h) ?_⟩
    rintro rfl
    exact List.contains_iff_mem.mp hc
  · simp

theorem mem_foldl_push {ids : List InstanceId} {q : RemovalQueue} {id : InstanceId} :
    id ∈ (ids.foldl push q).pending ↔ id ∈ q.pending ∨ id ∈ ids := by
  induction ids generalizing q with
  | nil => simp
  | cons other rest ih => rw [List.foldl_cons, ih, mem_push, List.mem_cons, or_assoc]

/-- To ask for removals changes nothing exactly if all of them were asked for. -/
theorem foldl_push_eq {ids : List InstanceId} {q : RemovalQueue} :
    ids.foldl push q = q ↔ ∀ id ∈ ids, id ∈ q.pending := by
  refine ⟨fun h id hid => ?_, fun h => ?_⟩
  · rw [← h]
    exact mem_foldl_push.mpr (.inr hid)
  · induction ids with
    | nil => rfl
    | cons id rest ih =>
        obtain ⟨hid, hrest⟩ := List.forall_mem_cons.mp h
        rw [List.foldl_cons, push, if_pos (List.contains_iff_mem.mpr hid), ih hrest]

end RemovalQueue

theorem foldl_toList_append {α β : Type} (f : α → Option β) (as : List α) (bs : List β) :
    as.foldl (fun bs a => bs ++ (f a).toList) bs = bs ++ as.filterMap f := by
  induction as generalizing bs with
  | nil => simp
  | cons a rest ih =>
      rw [List.foldl_cons, ih, List.filterMap_cons]
      cases f a <;> simp

theorem foldl_toList_foldl {α β γ : Type} (f : α → Option β) (g : γ → β → γ) (as : List α) (c : γ) :
    as.foldl (fun c a => (f a).toList.foldl g c) c = (as.filterMap f).foldl g c := by
  induction as generalizing c with
  | nil => rfl
  | cons a rest ih =>
      rw [List.foldl_cons, ih, List.filterMap_cons]
      cases f a <;> rfl

end Stagehand
