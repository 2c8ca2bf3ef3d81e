import Stagehand.Proofs.Requests

/-!
# Deeds

What the stores, the images and the cache of images go through, from wherever it comes: what scripts
do, one effect at a time, what the host does to them itself, and everything else, which leaves the
three alone. Each act of a registry is deeds, its effects the ones of its account (`Act.deeds`), and
so is each operation (`Op.deeds`). A fact about every sequence of deeds therefore holds of all that
a host can do, and at every moment of it, also between two effects of one run.
-/

namespace Stagehand

open Lang

/-- The halt of a call that the host refuses with a message. -/
def Lang.refusal (message : String) : Halt := .fault (.raised (.thrown (.str message)) none)

/-- What can happen to stores and images, and all else. -/
inductive Deed where
  /-- A script does what scripts can do, or the host does the same. -/
  | effect (e : Effect)
  /-- The host makes a store, for an instance or for itself. -/
  | newStore
  /-- The host makes an image. -/
  | newImage (image : Image)
  /-- The host changes the pixels of an image. -/
  | paint (id : ImageId) (image : Image)
  /-- All but the stores, the images and their cache becomes what it is in the other world: files
  change or go, time passes, reports are written, realms are dropped. -/
  | elsewhere (other : World)

namespace Deed

/-- The world after a deed. -/
def apply : Deed → World → World
  | effect e, w => e.apply w
  | newStore, w => w.addStore.2
  | newImage image, w => (w.addImage image).2
  | paint id image, w => w.setImage id image
  | elsewhere other, w =>
    { other with
      stores := w.stores
      images := w.images
      host := { other.host with assets := w.host.assets } }

/-- The world after deeds, one after the other. -/
def applyAll (ds : List Deed) (w : World) : World := ds.foldl (fun w d => d.apply w) w

/-- The effect that a deed is. -/
def effect? : Deed → Option Effect
  | effect e => some e
  | _ => none

/-- The effects among deeds. -/
def effects (ds : List Deed) : List Effect := ds.filterMap effect?

@[simp] theorem applyAll_nil (w : World) : applyAll [] w = w := rfl

@[simp] theorem applyAll_cons (d : Deed) (ds : List Deed) (w : World) :
    applyAll (d :: ds) w = applyAll ds (d.apply w) := rfl

theorem applyAll_append (ds ds' : List Deed) (w : World) :
    applyAll (ds ++ ds') w = applyAll ds' (applyAll ds w) := List.foldl_append

theorem applyAll_effects (es : List Effect) (w : World) :
    applyAll (es.map effect) w = Effect.applyAll es w := List.foldl_map

/-- What every deed keeps, deeds keep. -/
theorem applyAll_invariant {P : World → Prop} (h : ∀ d w, P w → P (apply d w)) :
    ∀ (ds : List Deed) {w : World}, P w → P (applyAll ds w)
  | [], _, hw => hw
  | d :: ds, w, hw => applyAll_invariant h ds (h d w hw)

@[simp] theorem effects_append (ds ds' : List Deed) :
    effects (ds ++ ds') = effects ds ++ effects ds' := List.filterMap_append

@[simp] theorem effects_map (es : List Effect) : effects (es.map effect) = es := by
  rw [effects, List.filterMap_map]
  exact List.filterMap_some

/-- Between two worlds are effects, and what does not concern stores and images. -/
def run (es : List Effect) (after : World) : List Deed := es.map effect ++ [.elsewhere after]

@[simp] theorem effects_run (es : List Effect) (after : World) : effects (run es after) = es := by
  rw [run, effects_append, effects_map]
  exact List.append_nil es

end Deed

/-! ## Acts and operations as deeds -/

theorem Ran.deeds {A : Allowance} {owner : InstanceId} {es : List Effect} {w w' : World}
    (h : Ran A owner es w w') : Deed.applyAll (Deed.run es w') w = w' := by
  rw [Deed.run, Deed.applyAll_append, Deed.applyAll_effects, ← h.world]
  rfl

theorem Chore.deeds (c : Chore) (r : Registry) :
    Deed.applyAll (Deed.run c.effects (c.apply r).world) r.world = (c.apply r).world := by
  rw [Deed.run, Deed.applyAll_append, Deed.applyAll_effects]
  cases c <;> rfl

/-- The store that a new instance gets, if the event is that one joins. -/
def Event.storeFor : Event → List Deed
  | .joined _ => [.newStore]
  | _ => []

variable {r r' : Registry}

/-- An act is the deeds of its account; a new instance has a store before it is loaded. -/
theorem Act.deeds {e : Event} (h : Act r e r') : ∃ effects, e.Account effects ∧
    Deed.applyAll (e.storeFor ++ Deed.run effects r'.world) r.world = r'.world := by
  obtain ⟨effects, haccount⟩ := h.account
  refine ⟨effects, haccount, ?_⟩
  cases haccount with
  | ran he hran =>
      rw [Deed.applyAll_append]
      cases h with
      | joined hb hw =>
          cases he
          rw [hw] at hran
          exact hran.deeds
      | tried _ _ hw | called _ _ hw | invoked _ _ hw | started _ _ hw =>
          cases he
          rw [hw] at hran
          exact hran.deeds
      | left | chore => nomatch he
  | left ids =>
      cases h with
      | left =>
          obtain ⟨⟨realms, hforget⟩, -⟩ := r.world.foldl_forget ids
          change Deed.apply (.elsewhere (ids.foldl World.forget r.world)) r.world = _
          rw [hforget]
          rfl
  | chore c =>
      cases h with
      | chore => exact c.deeds r

theorem Path.deeds {es : List Event} (h : Path r es r') :
    ∃ ds, Deed.applyAll ds r.world = r'.world ∧ Accounted es (Deed.effects ds) := by
  induction h with
  | refl => exact ⟨[], rfl, .nil⟩
  | @step _ r₁ _ e _ hact _ ih =>
      obtain ⟨effects, haccount, hdeeds⟩ := hact.deeds
      obtain ⟨ds, hrest, haccounted⟩ := ih
      refine ⟨e.storeFor ++ Deed.run effects r₁.world ++ ds, ?_, ?_⟩
      · rw [Deed.applyAll_append, hdeeds, hrest]
      · have hstore : Deed.effects e.storeFor = [] := by cases e <;> rfl
        rw [Deed.effects_append, Deed.effects_append, hstore, Deed.effects_run, List.nil_append]
        exact .cons haccount haccounted

/-- Whatever the host does with a registry is deeds, those of its events. -/
theorem Op.deeds {budget : Nat} {o : Op} (h : o.run budget r = some r') : ∃ es ds, Path r es r' ∧
    o.Told r es ∧ Deed.applyAll ds r.world = r'.world ∧ Accounted es (Deed.effects ds) := by
  obtain ⟨es, hpath, htold⟩ := Op.story h
  obtain ⟨ds, hdeeds, haccounted⟩ := hpath.deeds
  exact ⟨es, ds, hpath, htold, hdeeds, haccounted⟩

end Stagehand
