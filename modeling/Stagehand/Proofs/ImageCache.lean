import Mathlib.Data.Finset.Card
import Stagehand.Proofs.Deeds
import Stagehand.Proofs.KeyOrder

/-!
# The cache of images

An image is read once for the text of its path, and from then on the text stands for that image: the
cache is exactly the loads that succeeded (`CacheHolds`), which every deed keeps. A file is looked
at for a text that is not in the cache, and never again. What an image shows is the picture that was
read and what was drawn onto it since (`Deed.painted`), whatever has become of its file.
-/

namespace Stagehand

open Lang

/-! ## A load, by cases -/

namespace World

/-- The file that a path of an image leads to. -/
def imageFile (w : World) (path : String) : FilePath := w.host.assets.root.join ⟨path⟩

/-- The world after a picture was read for a path. -/
def cached (w : World) (path : String) (image : Image) : World :=
  (w.addImage image).2.modifyHost fun h => { h with assets := { h.assets with
    images := Entries.put path w.images.size h.assets.images } }

/-- A load is one of three: the path is in the cache; or there is no picture in the file, and
nothing changes; or the picture becomes a new image. -/
inductive Load (w : World) (path : String) : Prop
  | hit (id : ImageId) (hget : Entries.get? path w.host.assets.images = some id)
      (h : w.loadImage path = (.ok id, w))
  | failed (e : AssetError) (hget : Entries.get? path w.host.assets.images = none)
      (hfile : w.files.picture (w.imageFile path) = .error e) (h : w.loadImage path = (.error e, w))
  | read (image : Image) (hget : Entries.get? path w.host.assets.images = none)
      (hfile : w.files.picture (w.imageFile path) = .ok image)
      (h : w.loadImage path = (.ok w.images.size, w.cached path image))

theorem load_cases (w : World) (path : String) : w.Load path := by
  have heq := w.loadImage_eq path
  cases hget : Entries.get? path w.host.assets.images with
  | some id =>
    rw [hget] at heq
    exact .hit id hget heq
  | none =>
    rw [hget] at heq
    cases hfile : w.files.picture (w.imageFile path) with
    | error e =>
      have hfile' : w.files.picture (w.host.assets.root.join ⟨path⟩) = .error e := hfile
      rw [hfile'] at heq
      exact .failed e hget hfile heq
    | ok image =>
      have hfile' : w.files.picture (w.host.assets.root.join ⟨path⟩) = .ok image := hfile
      rw [hfile'] at heq
      exact .read image hget hfile heq

/-- A load that fails changes nothing. -/
theorem loadImage_error {w : World} {path : String} {e : AssetError}
    (h : (w.loadImage path).1 = .error e) : (w.loadImage path).2 = w := by
  cases w.load_cases path with
  | hit id _ hload => rw [hload]
  | failed e _ _ hload => rw [hload]
  | read image _ _ hload =>
    rw [hload] at h
    nomatch h

section Images

variable (w : World) {id : ImageId} (hid : id < w.images.size)
include hid

theorem image_setImage (other : ImageId) (image : Image) :
    (w.setImage other image).image id = if other = id then image else w.image id := by
  rw [World.image, World.setImage, Array.getElem?_setIfInBounds]
  by_cases h : other = id
  · subst h
    simp [hid]
  · simp [h, World.image]

theorem image_addImage (image : Image) : (w.addImage image).2.image id = w.image id := by
  rw [World.image, World.addImage, Array.getElem?_push_lt hid, World.image,
    Array.getElem?_eq_getElem hid]

/-- To load a picture changes no image that is there. -/
theorem image_loadImage (path : String) : (w.loadImage path).2.image id = w.image id := by
  cases w.load_cases path with
  | hit other _ hload => rw [hload]
  | failed e _ _ hload => rw [hload]
  | read image _ _ hload =>
    rw [hload]
    exact w.image_addImage hid image

end Images

end World

namespace Deed

/-! ## Loads among deeds -/

/-- The path that is loaded, if the deed is a load. -/
def load? : Deed → Option String
  | .effect (.loadImage path) => some path
  | _ => none

/-- The path and the image of a load that succeeds, if the deed is one. -/
def loaded? (w : World) (d : Deed) : Option (String × ImageId) :=
  d.load?.bind fun path => (w.loadImage path).1.toOption.map fun id => (path, id)

/-- The loads among deeds that succeed, in their order. -/
def loads : List Deed → World → List (String × ImageId)
  | [], _ => []
  | d :: ds, w => (d.loaded? w).toList ++ loads ds (d.apply w)

theorem loads_append : ∀ (ds ds' : List Deed) (w : World),
    loads (ds ++ ds') w = loads ds w ++ loads ds' (applyAll ds w)
  | [], _, _ => rfl
  | d :: ds, ds', w => by
    rw [List.cons_append, loads, loads, loads_append ds ds', List.append_assoc, applyAll_cons]

theorem load?_eq_some {d : Deed} {path : String} (h : d.load? = some path) :
    d = .effect (.loadImage path) := by
  cases d with
  | effect e =>
    cases e with
    | loadImage other => exact congrArg (fun p => effect (.loadImage p)) (Option.some.inj h)
    | _ => nomatch h
  | _ => nomatch h

theorem random_apply (w : World) (low high : Float) :
    ∃ seed, (Deed.effect (.random low high)).apply w = { w with seed } := w.random_world low high

theorem size_le_push (images : Array Image) (image : Image) :
    images.size ≤ (images.push image).size := by
  rw [Array.size_push]
  exact Nat.le_succ _

/-- What is not a load leaves the cache as it is, and no deed takes an image away. -/
theorem assets_apply {d : Deed} (h : d.load? = none) (w : World) :
    (d.apply w).host.assets = w.host.assets ∧ w.images.size ≤ (d.apply w).images.size := by
  cases d with
  | effect e =>
    cases e with
    | loadImage path => nomatch h
    | draw target source x y => exact ⟨rfl, Nat.le_of_eq Array.size_setIfInBounds.symm⟩
    | random low high =>
      obtain ⟨seed, hw⟩ := random_apply w low high
      rw [hw]
      exact ⟨rfl, Nat.le_refl _⟩
    | record | tick | requestAdd | requestRemoval | set | setAll => exact ⟨rfl, Nat.le_refl _⟩
  | newImage image => exact ⟨rfl, size_le_push w.images image⟩
  | paint id image => exact ⟨rfl, Nat.le_of_eq Array.size_setIfInBounds.symm⟩
  | newStore | elsewhere => exact ⟨rfl, Nat.le_refl _⟩

theorem images_le (d : Deed) (w : World) : w.images.size ≤ (d.apply w).images.size := by
  cases hload : d.load? with
  | none => exact (assets_apply hload w).2
  | some path =>
    rw [load?_eq_some hload]
    change w.images.size ≤ (w.loadImage path).2.images.size
    cases w.load_cases path with
    | hit id _ h => rw [h]
    | failed e _ _ h => rw [h]
    | read image _ _ h =>
      rw [h]
      exact size_le_push w.images image

/-! ## What is drawn onto an image -/

/-- The image with a number after a deed, if it was this one before. -/
def paints (id : ImageId) (w : World) : Deed → Image → Image
  | .effect (.draw target source x y), shown =>
    if target = id then shown.draw (if source = id then shown else w.image source) x y else shown
  | .paint other image, shown => if other = id then image else shown
  | _, shown => shown

/-- The image with a number after deeds. -/
def painted (id : ImageId) : List Deed → World → Image → Image
  | [], _, shown => shown
  | d :: ds, w, shown => painted id ds (d.apply w) (d.paints id w shown)

/-- A deed changes an image by what it draws onto it, and by nothing else. -/
theorem image_apply (d : Deed) {w : World} {id : ImageId} (hid : id < w.images.size) :
    (d.apply w).image id = d.paints id w (w.image id) := by
  cases d with
  | effect e =>
    cases e with
    | draw target source x y =>
      change (w.setImage target _).image id = _
      rw [w.image_setImage hid, paints]
      by_cases htarget : target = id
      · subst htarget
        by_cases hsource : source = target <;> simp [hsource]
      · simp [htarget]
    | loadImage path => exact w.image_loadImage hid path
    | random low high =>
      obtain ⟨seed, hw⟩ := random_apply w low high
      rw [hw]
      rfl
    | record | tick | requestAdd | requestRemoval | set | setAll => rfl
  | paint other image => exact w.image_setImage hid other image
  | newImage image => exact w.image_addImage hid image
  | newStore | elsewhere => rfl

/-- So what it shows in the end is what was drawn onto what it showed at first. -/
theorem image_applyAll : ∀ (ds : List Deed) {w : World} {id : ImageId}, id < w.images.size →
    (applyAll ds w).image id = painted id ds w (w.image id)
  | [], _, _, _ => rfl
  | d :: ds, w, id, hid => by
    rw [applyAll_cons, image_applyAll ds (Nat.lt_of_lt_of_le hid (d.images_le w)),
      d.image_apply hid, painted]

end Deed

/-! ## What the cache holds -/

/-- The cache is the loads that succeeded; each has an image, and no two paths have the same. -/
structure CacheHolds (past : List (String × ImageId)) (w : World) : Prop where
  ordered : Entries.Ordered w.host.assets.images
  entry : ∀ p id, Entries.get? p w.host.assets.images = some id ↔ (p, id) ∈ past
  image : ∀ p id, (p, id) ∈ past → id < w.images.size
  apart : ∀ p q id, (p, id) ∈ past → (q, id) ∈ past → p = q

namespace CacheHolds

variable {past : List (String × ImageId)} {w w' : World}

theorem start (h : w.host.assets.images = []) : CacheHolds [] w where
  ordered := h ▸ Entries.ordered_nil
  entry p id := by simp [h, Entries.get?]
  image p id hmem := nomatch hmem
  apart p q id hmem := nomatch hmem

/-- As long as the cache stays the same and no image goes away. -/
theorem same (h : CacheHolds past w) (hcache : w'.host.assets = w.host.assets)
    (hsize : w.images.size ≤ w'.images.size) : CacheHolds past w' where
  ordered := hcache ▸ h.ordered
  entry := hcache ▸ h.entry
  image p id hmem := Nat.lt_of_lt_of_le (h.image p id hmem) hsize
  apart := h.apart

/-- To load once more what is there adds nothing. -/
theorem again (h : CacheHolds past w) {path : String} {id : ImageId} (hmem : (path, id) ∈ past) :
    CacheHolds (past ++ [(path, id)]) w := by
  have hiff : ∀ e, e ∈ past ++ [(path, id)] ↔ e ∈ past := by
    intro e
    rw [List.mem_append, List.mem_singleton]
    exact or_iff_left_of_imp fun he => he ▸ hmem
  exact ⟨h.ordered, fun p i => (h.entry p i).trans (hiff _).symm,
    fun p i hi => h.image p i ((hiff _).mp hi),
    fun p q i hp hq => h.apart p q i ((hiff _).mp hp) ((hiff _).mp hq)⟩

/-- A picture that is read goes under a number that no other has. -/
theorem read (h : CacheHolds past w) {path : String}
    (hnone : Entries.get? path w.host.assets.images = none) (image : Image) :
    CacheHolds (past ++ [(path, w.images.size)]) (w.cached path image) := by
  have hsize : (w.cached path image).images.size = w.images.size + 1 := Array.size_push _
  have hnot : ∀ id, (path, id) ∉ past := fun id hmem => by
    rw [← h.entry, hnone] at hmem
    nomatch hmem
  refine ⟨Entries.ordered_put h.ordered, fun p id => ?_, fun p id hmem => ?_,
    fun p q id hp hq => ?_⟩
  · change Entries.get? p (Entries.put path w.images.size w.host.assets.images) = some id ↔ _
    rw [List.mem_append, List.mem_singleton]
    by_cases hp : p = path
    · subst hp
      rw [Entries.get?_put_self]
      simp [hnot, eq_comm]
    · rw [Entries.get?_put_of_ne hp, h.entry]
      simp [hp]
  · rw [hsize]
    rcases List.mem_append.mp hmem with hmem | hmem
    · exact Nat.lt_succ_of_lt (h.image p id hmem)
    · cases List.mem_singleton.mp hmem
      exact Nat.lt_succ_self _
  · rcases List.mem_append.mp hp with hp | hp <;> rcases List.mem_append.mp hq with hq | hq
    · exact h.apart p q id hp hq
    · cases List.mem_singleton.mp hq
      exact absurd (h.image _ _ hp) (Nat.lt_irrefl _)
    · cases List.mem_singleton.mp hp
      exact absurd (h.image _ _ hq) (Nat.lt_irrefl _)
    · cases List.mem_singleton.mp hp
      cases List.mem_singleton.mp hq
      rfl

/-- Every deed keeps what the cache holds, and a load that succeeds adds to it. -/
theorem apply (h : CacheHolds past w) (d : Deed) :
    CacheHolds (past ++ (d.loaded? w).toList) (d.apply w) := by
  rw [Deed.loaded?]
  cases hload : d.load? with
  | none =>
    obtain ⟨hcache, hsize⟩ := Deed.assets_apply hload w
    exact (List.append_nil past).symm ▸ h.same hcache hsize
  | some path =>
    rw [Deed.load?_eq_some hload, Option.bind_some]
    change CacheHolds _ (w.loadImage path).2
    cases w.load_cases path with
    | hit id hget hw =>
      rw [hw]
      exact h.again ((h.entry path id).mp hget)
    | failed e _ _ hw =>
      rw [hw]
      exact (List.append_nil past).symm ▸ h
    | read image hget _ hw =>
      rw [hw]
      exact h.read hget image

theorem applyAll : ∀ (ds : List Deed) {past : List (String × ImageId)} {w : World},
    CacheHolds past w → CacheHolds (past ++ Deed.loads ds w) (Deed.applyAll ds w)
  | [], past, _, h => (List.append_nil past).symm ▸ h
  | d :: ds, past, w, h => by
    rw [Deed.loads, ← List.append_assoc]
    exact applyAll ds (h.apply d)

/-- There is an entry for each text of a path that was loaded, and no other. -/
theorem card (h : CacheHolds past w) :
    w.host.assets.images.length = (past.map (·.1)).toFinset.card := by
  have hnodup : (Entries.keys w.host.assets.images).Nodup :=
    (List.pairwise_map.mpr h.ordered).imp fun hlt => hlt.ne
  have hkeys : (Entries.keys w.host.assets.images).toFinset = (past.map (·.1)).toFinset := by
    ext p
    rw [List.mem_toFinset, List.mem_toFinset, Entries.mem_keys, Option.isSome_iff_exists,
      List.mem_map]
    constructor
    · rintro ⟨id, hid⟩
      exact ⟨(p, id), (h.entry p id).mp hid, rfl⟩
    · rintro ⟨⟨q, id⟩, hmem, rfl⟩
      exact ⟨id, (h.entry q id).mpr hmem⟩
  rw [← hkeys, List.toFinset_card_of_nodup hnodup, Entries.keys, List.length_map]

/-- A path that was loaded is found in the cache. -/
theorem hit (h : CacheHolds past w) {p : String} {id : ImageId} (hmem : (p, id) ∈ past) :
    w.loadImage p = (.ok id, w) := by
  have hget := (h.entry p id).mpr hmem
  rw [w.loadImage_eq, hget]

/-- A path that was not is looked up in the files. -/
theorem miss (h : CacheHolds past w) {p : String} (hp : p ∉ past.map (·.1)) :
    Entries.get? p w.host.assets.images = none := by
  cases hget : Entries.get? p w.host.assets.images with
  | none => rfl
  | some id => exact absurd (List.mem_map_of_mem ((h.entry p id).mp hget)) hp

theorem grows (h : CacheHolds past w) (more : List Deed) :
    w.host.assets.images.length ≤ (Deed.applyAll more w).host.assets.images.length := by
  rw [h.card, (h.applyAll more).card, List.map_append]
  refine Finset.card_le_card fun p hp => ?_
  rw [List.mem_toFinset] at hp ⊢
  exact List.mem_append_left _ hp

/-- The first load of a path reads its picture, and what is drawn onto that is shown. -/
theorem shown (h : CacheHolds past w) {p : String} {image : Image} (hp : p ∉ past.map (·.1))
    (hfile : w.files.picture (w.imageFile p) = .ok image) (after : List Deed) :
    let ds := .effect (.loadImage p) :: after
    (p, w.images.size) ∈ Deed.loads ds w ∧ (Deed.applyAll ds w).image w.images.size =
      Deed.painted w.images.size after (w.cached p image) image := by
  intro ds
  have hload : w.loadImage p = (.ok w.images.size, w.cached p image) := by
    cases w.load_cases p with
    | hit id hget =>
      rw [h.miss hp] at hget
      nomatch hget
    | failed e _ herror =>
      rw [hfile] at herror
      nomatch herror
    | read other _ hread hload =>
      obtain rfl := Except.ok.inj (hread.symm.trans hfile)
      exact hload
  have happly : (Deed.effect (.loadImage p)).apply w = w.cached p image := congrArg Prod.snd hload
  have hsize : w.images.size < (w.cached p image).images.size := by
    change w.images.size < (w.images.push image).size
    rw [Array.size_push]
    exact Nat.lt_succ_self _
  have himage : (w.cached p image).image w.images.size = image := by
    change ((w.images.push image)[w.images.size]?).getD default = image
    rw [Array.getElem?_push_size, Option.getD_some]
  constructor
  · refine List.mem_append_left _ ?_
    change _ ∈ (((w.loadImage p).1.toOption).map fun id => (p, id)).toList
    rw [hload]
    exact List.mem_singleton_self _
  · rw [Deed.applyAll_cons, happly, Deed.image_applyAll after hsize, himage]

end CacheHolds

/-! ## The law of the cache -/

/-- What holds of the cache when deeds have led from a world in which it was empty to another. -/
structure ImageCacheLaw (w₀ : World) (ds : List Deed) (w : World) : Prop where
  /-- A path that was loaded once has its image for good, whatever is in the files. -/
  again : ∀ p id, (p, id) ∈ Deed.loads ds w₀ → w.loadImage p = (.ok id, w)
  /-- Any other is loaded if its file has a picture now, whatever became of loads before, and then
  is an image that was not there. -/
  first : ∀ p, p ∉ (Deed.loads ds w₀).map (·.1) →
    (w.loadImage p).1 = (w.files.picture (w.imageFile p)).map fun _ => w.images.size
  /-- A load that fails changes nothing. -/
  failed : ∀ p e, (w.loadImage p).1 = .error e → (w.loadImage p).2 = w
  /-- Paths with different texts have different images, if they lead to one file or not. -/
  apart : ∀ p q id, (p, id) ∈ Deed.loads ds w₀ → (q, id) ∈ Deed.loads ds w₀ → p = q
  /-- The image shows the picture that was read, with what was drawn onto it since. -/
  shown : ∀ before p after image, ds = before ++ .effect (.loadImage p) :: after →
    p ∉ (Deed.loads before w₀).map (·.1) →
    (Deed.applyAll before w₀).files.picture ((Deed.applyAll before w₀).imageFile p) = .ok image →
    ∃ id, (p, id) ∈ Deed.loads ds w₀ ∧
      w.image id = Deed.painted id after ((Deed.applyAll before w₀).cached p image) image
  /-- No change of the files, and no load, changes what an image shows. -/
  steady : ∀ id, id < w.images.size →
    (∀ other, ((Deed.elsewhere other).apply w).image id = w.image id) ∧
    ∀ p, (w.loadImage p).2.image id = w.image id
  /-- The cache has as many entries as there are texts of paths that were loaded. -/
  count : w.host.assets.images.length = ((Deed.loads ds w₀).map (·.1)).toFinset.card
  /-- Whatever follows, it does not get smaller. -/
  grows : ∀ more, w.host.assets.images.length ≤ (Deed.applyAll more w).host.assets.images.length
  /-- Whatever the host does with a registry goes on with deeds, so that neither a removal nor a
  reload nor a reset makes the cache smaller. -/
  operations : ∀ (budget : Nat) (r r' : Registry) (o : Op), r.world = w →
    o.run budget r = some r' → (∃ more, Deed.applyAll more w = r'.world) ∧
      w.host.assets.images.length ≤ r'.world.host.assets.images.length
  /-- A script loads an image as the host does. -/
  scripts : ∀ (m : Machine) (host : HostId) (p : String), m.world = w →
    ∃ x, hostFunction "LoadImage" [.handle (.host host), .str p] = some x ∧
      x m = match (w.loadImage p).1 with
        | .ok id => some (.ok (.handle (.image id)), { m with world := (w.loadImage p).2 })
        | .error e => some (.error (refusal e.message), m)

theorem imageAt_run (m : Machine) (p : String) :
    imageAt p m = match (m.world.loadImage p).1 with
      | .ok id => some (.ok (.handle (.image id)), { m with world := (m.world.loadImage p).2 })
      | .error e => some (.error (refusal e.message), m) := by
  cases hload : m.world.loadImage p with
  | mk r w =>
    have hask : Eval.askWorld (World.loadImage · p) m = some (.ok r, { m with world := w }) := by
      change some (Except.ok (m.world.loadImage p).1,
        { m with world := (m.world.loadImage p).2 }) = _
      rw [hload]
    refine (Eval.bind_ok hask).trans ?_
    cases r with
    | ok id => rfl
    | error e =>
      have hw : w = m.world := by
        have hsame := World.loadImage_error (congrArg Prod.fst hload)
        rw [hload] at hsame
        exact hsame
      rw [hw]
      rfl

/-- The cache of a host keeps the law, whoever loads which paths and whatever happens to files,
images and instances in between. -/
theorem images_cached (w₀ : World) (hw : w₀.host.assets.images = []) (ds : List Deed) :
    ImageCacheLaw w₀ ds (Deed.applyAll ds w₀) := by
  have hstart := CacheHolds.start hw
  have holds : CacheHolds (Deed.loads ds w₀) (Deed.applyAll ds w₀) := hstart.applyAll ds
  exact {
    again := fun p id hmem => holds.hit hmem
    first := fun p hp => by
      cases (Deed.applyAll ds w₀).load_cases p with
      | hit id hget _ => exact absurd (hget.symm.trans (holds.miss hp)) (by simp)
      | failed e _ hfile hload =>
        rw [hload, hfile]
        rfl
      | read image _ hfile hload =>
        rw [hload, hfile]
        rfl
    failed := fun p e he => World.loadImage_error he
    apart := holds.apart
    shown := fun before p after image hds hp hfile => by
      obtain ⟨hmem, hshown⟩ := (hstart.applyAll before).shown hp hfile after
      rw [hds, Deed.loads_append, Deed.applyAll_append]
      exact ⟨_, List.mem_append_right _ hmem, hshown⟩
    steady := fun id hid => ⟨fun _ => rfl, fun p => World.image_loadImage _ hid p⟩
    count := holds.card
    grows := holds.grows
    operations := fun budget r r' o hr ho => by
      obtain ⟨-, more, -, -, hmore, -⟩ := Op.deeds ho
      rw [hr] at hmore
      exact ⟨⟨more, hmore⟩, hmore ▸ holds.grows more⟩
    scripts := fun m host p hm => ⟨imageAt p, rfl, hm ▸ imageAt_run m p⟩ }

/-- A picture of one dot. -/
def dotPicture : ByteArray := ⟨#[
  137, 80, 78, 71, 13, 10, 26, 10, 0, 0, 0, 13, 73, 72, 68, 82, 0, 0, 0, 1, 0, 0, 0, 1, 8, 6, 0,
  0, 0, 31, 21, 196, 137, 0, 0, 0, 16, 73, 68, 65, 84, 120, 1, 1, 5, 0, 250, 255, 0, 10, 20, 30,
  255, 1, 164, 1, 60, 180, 228, 184, 40, 0, 0, 0, 0, 73, 69, 78, 68, 174, 66, 96, 130]⟩

set_option maxRecDepth 100000 in
/-- The host of a configuration has started. A file is not there, then it is, and is loaded under
two texts, and then it goes: the load that failed has left nothing behind, and either text keeps its
own image. -/
theorem images_cached_dot :
    let w₀ : World := (Registry.start
      { window := { width := 1, height := 1 }, assets := { dir := ⟨"assets"⟩ } } default).world
    let there : World := { (default : World) with
      files := { root := .dir [("assets", .dir [("dot.png", .file dotPicture 0)])] } }
    let load (path : String) : Deed := .effect (.loadImage path)
    let ds : List Deed := [load "dot.png", .elsewhere there, load "dot.png", load "./dot.png",
      .elsewhere default, load "dot.png"]
    w₀.host.assets.images = [] ∧ ImageCacheLaw w₀ ds (Deed.applyAll ds w₀) ∧
      Deed.loads ds w₀ = [("dot.png", 1), ("./dot.png", 2), ("dot.png", 1)] ∧
      (Deed.applyAll ds w₀).host.assets.images.length = 2 := by
  intro w₀ there load ds
  exact ⟨rfl, images_cached w₀ rfl ds, by decide +kernel, by decide +kernel⟩

end Stagehand
