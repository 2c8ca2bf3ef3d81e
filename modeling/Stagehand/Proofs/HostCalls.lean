import Stagehand.Proofs.Primitives

/-!
# What scripts do to the host

A reference is the only way to the host: each function on one has the effect that its name says, on
what the reference refers to, and yields what is reached from there. An allowance serves a stage if
it holds the references that the host hands out to the stage's scripts.
-/

namespace Stagehand.Lang

variable {A : Allowance} {stage : Stage}

/-- The references that the host hands out are allowed: itself, all images, and the store and the
handle of the instance. -/
structure Serves (A : Allowance) (stage : Stage) : Prop where
  host : A (.handle (.host World.hostId))
  images : ∀ id, A (.handle (.image id))
  data : A (.handle (.data stage.data))
  script : A (.handle (.script stage.owner))

instance : Leafy AssetError := ⟨fun _ => []⟩
instance : Leafy RangeError := ⟨fun _ => []⟩

theorem Serves.builtin? (hA : Serves A stage) {name : String} {c : Capability}
    (h : stage.builtin? name = some c) : A (.handle c) := by
  unfold Stage.builtin? at h
  split at h <;> cases h
  · exact hA.host
  · exact hA.data
  · exact hA.script

namespace Built

theorem numberOf {v : Value} : Built A stage (Lang.numberOf v) := by
  unfold Lang.numberOf
  split
  · exact pure (within_float _)
  · exact pure (within_float _)
  · exact reject

theorem marshal {v : Value} (hv : Within A v) : Built A stage (Lang.marshal v) := by
  refine inspect (fun m hm => ?_) fun _ _ => rfl
  have h := within_ofScript hm.cells hv
  split
  · rename_i heq
    exact pure (within_ok.mp (heq ▸ h))
  · exact reject

theorem marshalFields {fields : List (String × Value)} (hf : Within A fields) :
    Built A stage (Lang.marshalFields fields) := by
  refine (marshal (within_object.mpr (within_list.mp hf))).bind fun v hv => ?_
  split
  · exact pure (within_list.mpr (HostValues.within_map.mp hv))
  · exact pure (within_of_leafless rfl)

theorem imageAt (hA : Serves A stage) {path : String} : Built A stage (Lang.imageAt path) := by
  refine (ask (e := .loadImage path) trivial (fun w _ => ?_) (fun _ => rfl) (fun _ _ h _ =>
    h.loadImage path) trivial).bind fun r _ => ?_
  · cases (w.loadImage path).1 <;> exact within_of_leafless rfl
  · split
    · exact pure (within_handle.mpr (hA.images _))
    · exact reject

theorem randomIn {low high : Value} : Built A stage (Lang.randomIn low high) := by
  refine numberOf.bind fun low _ => numberOf.bind fun high _ => ?_
  refine (ask (e := .random low high) trivial (fun w _ => ?_) (fun _ => rfl) (fun _ _ h _ =>
    h.random low high) trivial).bind fun r _ => ?_
  · cases (w.random low high).1 <;> exact within_of_leafless rfl
  · split
    · exact pure (within_value_float _)
    · exact reject

theorem drawOnto {target source : ImageId} {x y : Value} :
    Built A stage (Lang.drawOnto target source x y) := by
  refine numberOf.bind fun x _ => numberOf.bind fun y _ => ?_
  exact (effect (.draw target source x y) trivial trivial).bind fun _ _ => pure within_value_unit

theorem act (e : Effect) (he : e.Allowed A) (hs : e.Spoken stage.owner) :
    Built A stage (Lang.act e.apply) := (effect e he hs).bind fun _ _ => pure within_value_unit

theorem askHost {f : HostState → Value} (hf : ∀ h, Within A (f h)) :
    Built A stage (Lang.askHost f) :=
  look (fun m _ => pure (hf m.world.host)) fun m v h => by rw [← h.host]

theorem onHost (hA : Serves A stage) {name : String} {args : List Value} {x : Eval Value}
    (h : Lang.onHost name args = some x) : Built A stage x := by
  unfold Lang.onHost at h
  split at h <;> cases h
  · exact askHost fun _ => within_value_int _
  · exact act (.requestAdd _) trivial trivial
  · exact askHost fun h => within_handle.mpr (hA.images h.screen)
  · exact askHost fun _ => within_value_int _
  · exact askHost fun _ => within_value_int _
  · exact imageAt hA
  · exact act (.record _) trivial (.logged _)
  · exact randomIn

theorem onData {id : StoreId} (hid : A (.handle (.data id))) {name : String} {args : List Value}
    (ha : ∀ v ∈ args, Within A v) {x : Eval Value} (h : Lang.onData id name args = some x) :
    Built A stage x := by
  unfold Lang.onData at h
  split at h <;> cases h
  · rename_i key
    refine look (fun m hm => ?_) fun m v h => by simp only [h.store hid]
    have hstore := hm.world.store hid
    split
    · rename_i v hv
      exact pure (within_toScript.mpr
        (within_get? (within_list.mpr (within_store.mp hstore)) hv))
    · exact pure within_value_unit
  · rename_i key v
    refine (marshal (ha v (by simp))).bind fun v hv => ?_
    exact act (.set id key v) ⟨hid, hv⟩ trivial
  · rename_i fields
    have hf := within_object.mp (ha (.object fields) (by simp))
    refine (marshalFields (within_list.mpr hf)).bind fun entries he => ?_
    exact act (.setAll id entries) ⟨hid, he⟩ trivial
  · refine look (fun m _ => pure (within_array.mpr fun v hv => ?_)) fun m v h => by
      simp only [h.store hid]
    obtain ⟨_, -, rfl⟩ := List.mem_map.mp hv
    exact within_value_str _

theorem onScript {handle : ScriptHandle} (hh : A (.handle (.script handle))) {name : String}
    {args : List Value} {x : Eval Value} (h : Lang.onScript handle name args = some x) :
    Built A stage x := by
  unfold Lang.onScript at h
  split at h <;> cases h
  · exact act (.requestRemoval handle.id) ⟨handle.name, hh⟩ trivial
  · exact pure (within_value_str _)

theorem onImage {id : ImageId} {name : String} {args : List Value} {x : Eval Value}
    (h : Lang.onImage id name args = some x) : Built A stage x := by
  unfold Lang.onImage at h
  split at h <;> cases h
  · exact look (fun _ _ => pure (within_value_int _)) fun m v h => by simp only [h.imageSize]
  · exact look (fun _ _ => pure (within_value_int _)) fun m v h => by simp only [h.imageSize]
  · exact drawOnto

/-- A function of the host is reached through the reference that is its first argument. -/
theorem hostFunction (hA : Serves A stage) {name : String} {args : List Value}
    (ha : ∀ v ∈ args, Within A v) {x : Eval Value} (h : Lang.hostFunction name args = some x) :
    Built A stage x := by
  unfold Lang.hostFunction at h
  split at h
  · exact onHost hA h
  · rw [List.forall_mem_cons] at ha
    exact onData (within_handle.mp ha.1) ha.2 h
  · rw [List.forall_mem_cons] at ha
    exact onScript (within_handle.mp ha.1) h
  · exact onImage h
  · nomatch h

theorem printed {level : Level} (hl : level = .info ∨ level = .debug) {text : String} :
    Built A stage (Lang.printed stage level text) := act (.record _) trivial (.printed hl text)

theorem outputFunction {name : String} {args : List Value} (ha : ∀ v ∈ args, Within A v)
    {x : Eval Value} (h : Lang.outputFunction stage name args = some x) : Built A stage x := by
  unfold Lang.outputFunction at h
  split at h <;> cases h
  · exact printed (.inl rfl)
  · exact printed (.inl rfl)
  · exact printed (.inr rfl)
  · exact printed (.inr rfl)
  · refine (ask (e := .tick) trivial (fun w _ => ?_) (fun _ => rfl) (fun _ _ _ h => h rfl)
      trivial).bind fun t _ => ?_
    · exact within_of_leafless rfl
    · exact pure (within_value_timestamp _)
  · exact throw (within_halt_exit.mpr within_value_unit)
  · exact throw (within_halt_exit.mpr (ha _ List.mem_cons_self))

end Built
end Stagehand.Lang
