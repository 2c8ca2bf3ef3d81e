import Stagehand.Proofs.Does
import Stagehand.Proofs.Loads

/-!
# What runs are built of

`Built A stage x`: the run `x` is put together from accesses to the machine that stay within the
allowance, and what it puts into the log is an utterance of the instance. What scripts do is built
in this way (`Built.evaluate`), which is shown once, function by function; a property of every
script is then one induction over the rules here. `Built.does` is the first of them: the run makes
moves within the allowance.

Some rules take several accesses together, because what the later of them do is right only on
account of the earlier: a function or a library has a frame of its own and gives back the one from
before (`apart`), a library is looked up and read and kept under one time of its file (`load`), and
what an import brings in sight is the library it found (`bring`).
-/

namespace Stagehand

open Lang

/-- The image in a file, or why there is none. -/
def FileTree.picture (t : FileTree) (file : FilePath) : Except AssetError Image :=
  match t.read file with
  | .error e => .error (.reading file e)
  | .ok bytes => (Image.decode bytes).mapError (.decoding file)

theorem World.loadImage_eq (w : World) (path : String) : w.loadImage path =
    match Entries.get? path w.host.assets.images with
    | some id => (.ok id, w)
    | none =>
      match w.files.picture (w.host.assets.root.join ⟨path⟩) with
      | .error e => (.error e, w)
      | .ok image =>
        (.ok w.images.size, (w.addImage image).2.modifyHost fun h => { h with assets := { h.assets with
          images := Entries.put path w.images.size h.assets.images } }) := by
  unfold World.loadImage FileTree.picture
  dsimp only
  cases Entries.get? path w.host.assets.images with
  | some id => rfl
  | none =>
      cases w.files.read (w.host.assets.root.join ⟨path⟩) with
      | error e => rfl
      | ok bytes =>
          dsimp only
          cases Image.decode bytes <;> rfl

/-- Worlds in which a run within the allowance reads the same, but for the clock: they agree on the
state of the host, on the images, the seed and the stores that are allowed, and on the files of
libraries and images. -/
structure World.Agrees (A : Allowance) (libraries : Libraries) (w v : World) : Prop where
  host : v.host = w.host
  images : v.images = w.images
  seed : v.seed = w.seed
  stores : ∀ id, A (.handle (.data id)) → v.stores[id]? = w.stores[id]?
  texts : ∀ entry ∈ libraries.files, v.files.readText entry.2 = w.files.readText entry.2
  times : ∀ entry ∈ libraries.files, v.files.modified? entry.2 = w.files.modified? entry.2
  pictures : ∀ file, v.files.picture file = w.files.picture file

namespace World.Agrees

variable {A : Allowance} {libraries : Libraries} {w v : World}

theorem store (h : w.Agrees A libraries v) {id : StoreId} (hid : A (.handle (.data id))) :
    v.store id = w.store id := by
  rw [World.store, World.store, h.stores id hid]

theorem imageSize (h : w.Agrees A libraries v) (id : ImageId) :
    v.imageSize id = w.imageSize id := by
  simp only [World.imageSize, World.image, h.images]

/-- An image is found, or not, for the same reason. -/
theorem loadImage (h : w.Agrees A libraries v) (path : String) :
    (v.loadImage path).1 = (w.loadImage path).1 := by
  rw [World.loadImage_eq, World.loadImage_eq, h.host, h.pictures, h.images]
  split
  · rfl
  · split <;> rfl

theorem random (h : w.Agrees A libraries v) (low high : Float) :
    (v.random low high).1 = (w.random low high).1 := by
  unfold World.random World.pick
  simp only [h.seed]
  split
  · rfl
  · split
    · rfl
    · rfl

end World.Agrees

namespace Lang

/-- Runs in a frame of its own, and goes on in the frame from before with what the run left in the
other. -/
def Eval.apart {α β : Type} (g : Frame → Frame) (x : Eval α)
    (k : Frame → Except Halt α → Eval β) : Eval β := do
  let outer := (← get).frame
  Eval.modifyFrame g
  let outcome ← Eval.attempt x
  let inner := (← get).frame
  Eval.modifyFrame fun _ => outer
  k inner outcome

/-- The libraries in sight, and those that are kept with the script, were so before. -/
structure Frame.Inherits (before after : Frame) : Prop where
  imports : ∀ entry ∈ after.imports, entry ∈ before.imports
  kept : ∀ entry ∈ after.kept, entry ∈ before.kept

theorem within_cached? {A : Allowance} {realm : Realm} {file : FilePath} {cached : CachedModule}
    (hm : Within A realm.modules) (h : realm.cached? file = some cached) :
    Within A cached.module :=
  (within_pair.mp (within_list.mp hm _ (Realm.mem_of_cached? h))).2

theorem within_bring {A : Allowance} {f : Frame} {m : Module} (name : String) (hf : Within A f)
    (hm : Within A m) : Within A { f with imports := (name, m) :: f.imports } := by
  obtain ⟨hv, ht, hi, hc, hk⟩ := within_frame.mp hf
  have hentry : Within A (name, m) := within_pair.mpr ⟨within_string name, hm⟩
  have himports := List.forall_mem_cons.mpr ⟨hentry, within_list.mp hi⟩
  exact within_frame.mpr ⟨hv, ht, within_list.mpr himports, hc, hk⟩

/-- Brings the library for an import in sight, if it is to have a name. -/
def bringLibrary (stage : Stage) (run : Run) (text : String) (pos : Place) (name : Option String) :
    Eval Unit := do
  let m ← importLibrary stage run text pos
  name.forM fun name => Eval.modifyFrame fun f => { f with imports := (name, m) :: f.imports }

/-- The run is put together from accesses that stay within the allowance and put nothing into the
log but what the code of the instance can put there. -/
inductive Built (A : Allowance) (stage : Stage) : {α : Type} → [Leafy α] → Eval α → Prop
  | endless {α : Type} [Leafy α] : Built A stage (fun _ => none : Eval α)
  | pure {α : Type} [Leafy α] {a : α} (ha : Within A a) : Built A stage (Pure.pure a : Eval α)
  | throw {α : Type} [Leafy α] {h : Halt} (hh : Within A h) :
      Built A stage (MonadExcept.throw h : Eval α)
  | bind {α β : Type} [Leafy α] [Leafy β] {x : Eval α} {f : α → Eval β} (hx : Built A stage x)
      (hf : ∀ a, Within A a → Built A stage (f a)) : Built A stage (x >>= f)
  | attempt {α : Type} [Leafy α] {x : Eval α} (hx : Built A stage x) :
      Built A stage (Eval.attempt x)
  /-- What follows a look at the machine may rely on the machine being confined, and must not tell
  worlds apart that agree. -/
  | look {α : Type} [Leafy α] {f : Machine → Eval α} (hf : ∀ m, m.Confined A → Built A stage (f m))
      (same : ∀ m v, m.world.Agrees A stage.libraries v → f { m with world := v } = f m) :
      Built A stage (get >>= f)
  | modifyFrame {f : Frame → Frame} (hf : ∀ frame, Within A frame → Within A (f frame))
      (inherits : ∀ frame : Frame, frame.Inherits (f frame)) : Built A stage (Eval.modifyFrame f)
  | apart {α β : Type} [Leafy α] [Leafy β] {g : Frame → Frame} {x : Eval α}
      {k : Frame → Except Halt α → Eval β} (hg : ∀ frame, Within A frame → Within A (g frame))
      (hx : Built A stage x)
      (hk : ∀ inner r, Within A inner → Within A r → Built A stage (k inner r)) :
      Built A stage (Eval.apart g x k)
  | effect (e : Effect) (he : e.Allowed A) (hs : e.Spoken stage.owner) :
      Built A stage (Eval.modifyWorld e.apply)
  /-- Whatever is asked of the world has the same answer where worlds agree, if they agree on the
  time as well or the question is another. -/
  | ask {α : Type} [Leafy α] {f : World → α × World} {e : Effect} (he : e.Allowed A)
      (hf : ∀ w, w.Closed A → Within A (f w).1) (hw : ∀ w, (f w).2 = e.apply w)
      (same : ∀ w v, w.Agrees A stage.libraries v → (e = .tick → v.clock = w.clock) →
        (f v).1 = (f w).1) (hs : e.Spoken stage.owner) :
      Built A stage (Eval.askWorld f)
  | setCell {cell : CellId} {v : Value} (hc : A (.cell cell)) (hv : Within A v) :
      Built A stage (Eval.setCell cell v)
  | newCell {α : Type} [Leafy α] {held : Held} {f : CellId → Eval α} (hh : Within A held)
      (hf : ∀ cell, A (.cell cell) → Built A stage (f cell)) :
      Built A stage (Eval.newCell held >>= f)
  | load {budget : Nat} {entry : String × FilePath} {text : String} {pos : Place}
      (hentry : entry ∈ stage.libraries.files)
      (hbody : ∀ body, Built A stage (evaluate stage budget (.stmts body)))
      (hread : Built A stage (readLibrary (evaluate stage budget) entry.2)) :
      Built A stage (loadLibrary stage (evaluate stage budget) entry.2 text pos)
  | bring {budget : Nat} {text : String} {pos : Place} {name : Option String}
      (hbody : ∀ body, Built A stage (evaluate stage budget (.stmts body)))
      (hload : ∀ entry ∈ stage.libraries.files,
        Built A stage (loadLibrary stage (evaluate stage budget) entry.2 text pos)) :
      Built A stage (bringLibrary stage (evaluate stage budget) text pos name)

/-- The file that an import names is a file of a library. -/
theorem Libraries.mem_of_path? {l : Libraries} {text : String} {file : FilePath}
    (h : l.path? text = some file) : (importStem text, file) ∈ l.files :=
  Entries.mem_of_get? h

theorem Libraries.indexed_of_path? {l : Libraries} {text : String} {file : FilePath}
    (h : l.path? text = some file) : file ∈ l.files.map Prod.snd :=
  List.mem_map_of_mem (Libraries.mem_of_path? h)

variable {A : Allowance} {stage : Stage}

/-! ## Moves -/

namespace Does

section Libraries

variable {run : Run}

theorem inModule {α : Type} [Leafy α] {text : String} {pos : Place} {x : Eval α} (hx : Does A x) :
    Does A (Lang.inModule text pos x) := by
  refine (attempt hx).bind fun r hr => ?_
  split
  · exact pure hr
  · exact throw (within_inModule.mpr hr)
  · exact throw hr

theorem readAnew {file : FilePath} (hread : Does A (readLibrary run file))
    {modified : Option Instant} {text : String} {pos : Place} :
    Does A (Lang.readAnew stage run file modified text pos) := by
  refine (inModule hread).bind fun m hm => (effect (.record _) trivial).bind fun _ _ => ?_
  exact (keepModule (within_cached.mpr hm)).bind fun _ _ => pure hm

theorem fetchLibrary {file : FilePath} (hread : Does A (readLibrary run file))
    {modified : Option Instant} {text : String} {pos : Place} :
    Does A (Lang.fetchLibrary stage run file modified text pos) := by
  rw [fetchLibrary_eq]
  refine look fun m hm => ?_
  split
  · rename_i cached hcached
    split
    · exact pure (within_cached? hm.modules hcached)
    · exact readAnew hread
  · exact readAnew hread

theorem importLibrary {text : String} {pos : Place}
    (hload : ∀ entry ∈ stage.libraries.files, Does A (loadLibrary stage run entry.2 text pos)) :
    Does A (Lang.importLibrary stage run text pos) := by
  refine look fun m hm => ?_
  split
  · rename_i lib hlib
    exact pure (within_find? (within_frame.mp hm.frame).2.2.2.2 hlib)
  · unfold resolveLibrary
    split
    · rename_i file hfile
      exact hload (importStem text, file) (Libraries.mem_of_path? hfile)
    · exact throw (within_of_leafless rfl)

theorem bringLibrary {text : String} {pos : Place} {name : Option String}
    (hload : ∀ entry ∈ stage.libraries.files, Does A (loadLibrary stage run entry.2 text pos)) :
    Does A (Lang.bringLibrary stage run text pos name) := by
  refine (importLibrary hload).bind fun m hm => ?_
  cases name with
  | none => exact pure (within_unit ())
  | some name =>
      exact modifyFrame (f := fun f => { f with imports := (name, m) :: f.imports }) fun _ hf =>
        within_bring name hf hm

end Libraries

theorem apart {α β : Type} [Leafy α] [Leafy β] {g : Frame → Frame} {x : Eval α}
    {k : Frame → Except Halt α → Eval β} (hg : ∀ frame, Within A frame → Within A (g frame))
    (hx : Does A x) (hk : ∀ inner r, Within A inner → Within A r → Does A (k inner r)) :
    Does A (Eval.apart g x k) := by
  refine look fun outer ho => (modifyFrame hg).bind fun _ _ => (attempt hx).bind fun r hr => ?_
  refine look fun inner hi => (modifyFrame fun _ _ => ho.frame).bind fun _ _ => ?_
  exact hk inner.frame r hi.frame hr

end Does

/-- What is built within an allowance makes moves within it. -/
theorem Built.does {α : Type} [Leafy α] {x : Eval α} (h : Built A stage x) : Does A x := by
  induction h with
  | endless => exact fun _ _ _ _ h => nomatch h
  | pure ha => exact .pure ha
  | throw hh => exact .throw hh
  | bind _ _ hx hf => exact .bind hx hf
  | attempt _ hx => exact .attempt hx
  | look _ _ hf => exact .look hf
  | modifyFrame hf _ => exact .modifyFrame hf
  | apart hg _ _ hx hk => exact .apart hg hx hk
  | effect e he _ => exact .effect e he
  | ask he hf hw _ _ => exact .askWorld he hf hw
  | setCell hc hv => exact .setCell hc hv
  | newCell hh _ hf => exact .newCell hh hf
  | load _ _ _ _ hread => exact .look fun _ _ => .fetchLibrary hread
  | bring _ _ _ hload => exact .bringLibrary hload

/-! ## Runs that end early, and runs after one another -/

namespace Built

section Rules

variable {α : Type} [Leafy α]

theorem raise {cause : Cause} {pos : Place} (hc : Within A cause) :
    Built A stage (Eval.raise cause pos : Eval α) := throw hc

theorem raise_leafless {cause : Cause} {pos : Place} (hc : Leafy.leaves cause = []) :
    Built A stage (Eval.raise cause pos : Eval α) := raise (within_of_leafless hc)

/-- Nothing comes after a fault. -/
theorem raise_bind {γ : Type} {cause : Cause} {pos : Place} {f : γ → Eval α}
    (hc : Leafy.leaves cause = []) : Built A stage (Eval.raise cause pos >>= f) :=
  raise_leafless (α := α) hc

theorem reject {message : String} : Built A stage (Eval.reject message : Eval α) :=
  raise_leafless rfl

theorem orRaise {x : Except Cause α} {pos : Place} (hx : Within A x) :
    Built A stage (Eval.orRaise x pos) := by
  cases x with
  | ok a => exact pure hx
  | error cause => exact raise hx

theorem ite {c : Prop} [Decidable c] {x y : Eval α} (hx : Built A stage x) (hy : Built A stage y) :
    Built A stage (if c then x else y) := by
  split
  · exact hx
  · exact hy

/-- A look at the machine that the world has no part in. -/
theorem inspect {f : Machine → Eval α} (hf : ∀ m, m.Confined A → Built A stage (f m))
    (same : ∀ m v, f { m with world := v } = f m) : Built A stage (get >>= f) :=
  look hf fun m v _ => same m v

/-- A change of the frame that leaves the libraries in it alone. -/
theorem alter {f : Frame → Frame} (hf : ∀ frame, Within A frame → Within A (f frame))
    (imports : ∀ frame, (f frame).imports = frame.imports)
    (kept : ∀ frame, (f frame).kept = frame.kept) : Built A stage (Eval.modifyFrame f) :=
  modifyFrame hf fun frame => ⟨fun _ h => imports frame ▸ h, fun _ h => kept frame ▸ h⟩

end Rules

section Loops

variable {α β : Type} [Leafy β]

theorem mapM {f : α → Eval β} :
    ∀ {as : List α}, (∀ a ∈ as, Built A stage (f a)) → Built A stage (as.mapM f)
  | [], _ => by
    rw [List.mapM_nil]
    exact pure (within_of_leafless rfl)
  | a :: as, h => by
    rw [List.forall_mem_cons] at h
    rw [List.mapM_cons]
    refine h.1.bind fun b hb => (mapM h.2).bind fun bs hbs => pure ?_
    exact within_list.mpr (List.forall_mem_cons.mpr ⟨hb, within_list.mp hbs⟩)

theorem forM_list {f : α → Eval Unit} :
    ∀ {as : List α}, (∀ a ∈ as, Built A stage (f a)) → Built A stage (as.forM f)
  | [], _ => pure (within_unit ())
  | a :: as, h => by
    rw [List.forall_mem_cons] at h
    exact h.1.bind fun _ _ => forM_list h.2

theorem forM_option {f : α → Eval Unit} {o : Option α} (h : ∀ a, o = some a → Built A stage (f a)) :
    Built A stage (o.forM f) := by
  cases o with
  | none => exact pure (within_unit ())
  | some a => exact h a rfl

end Loops

theorem flatten {v : Value} (hv : Within A v) : Built A stage (Eval.flatten v) :=
  inspect (fun _ hm => pure (within_flatten hm.cells hv)) fun _ _ => rfl

end Built
end Lang
end Stagehand
