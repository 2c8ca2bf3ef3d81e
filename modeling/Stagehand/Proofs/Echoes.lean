import Stagehand.Proofs.Runs
import Stagehand.Registry

/-!
# Runs in two worlds

Two worlds can differ in what belongs to one instance: its store, its realm, whether its removal was
asked for (`World.Alike`). Whoever has no way to that store cannot tell them apart: the same run
yields the same in both, and leaves worlds that are alike again (`Built.echoes`). The clocks need
not agree, as long as the run does not ask for the time; where it does, they have to.

From the bindings this goes up to what is done with an instance, to load it and to call it.
-/

namespace Stagehand

open Lang

/-! ## Worlds alike -/

/-- Everything but the stores outside of a set. -/
def Lang.Allowance.stores (P : StoreId → Prop) : Allowance
  | .handle (.data id) => P id
  | .handle (.host _) | .handle (.image _) | .handle (.script _) | .cell _ => True

/-- Files that look the same: at some paths they have the same texts, and everywhere the same times
and images, and a scan finds the same sources. -/
structure FileTree.Alike (reads : FilePath → Prop) (f g : FileTree) : Prop where
  texts : ∀ path, reads path → g.readText path = f.readText path
  times : ∀ path, g.modified? path = f.modified? path
  pictures : ∀ path, g.picture path = f.picture path
  sources : ∀ root, collectSources g root = collectSources f root

/-- The worlds differ in what belongs to the instance, in their files, clocks and logs, and in
nothing else. -/
structure World.Alike (k : Instance) (w v : World) : Prop where
  host : v.host = w.host
  images : v.images = w.images
  seed : v.seed = w.seed
  size : v.stores.size = w.stores.size
  stores : ∀ id, id ≠ k.data → v.stores[id]? = w.stores[id]?
  realms : ∀ id, id ≠ k.id → v.realm id = w.realm id
  removals : ∀ id, id ≠ k.id → (id ∈ v.removals.pending ↔ id ∈ w.removals.pending)

/-- The worlds are alike, and their files are. -/
structure World.Mirrors (k : Instance) (reads : FilePath → Prop) (w v : World) : Prop
    extends w.Alike k v where
  files : w.files.Alike reads v.files

section Alike

variable {k : Instance} {reads : FilePath → Prop} {w v u : World}

theorem FileTree.Alike.refl (f : FileTree) : f.Alike reads f :=
  ⟨fun _ _ => rfl, fun _ => rfl, fun _ => rfl, fun _ => rfl⟩

namespace World

theorem Alike.refl (w : World) : w.Alike k w :=
  ⟨rfl, rfl, rfl, rfl, fun _ _ => rfl, fun _ _ => rfl, fun _ _ => Iff.rfl⟩

theorem Alike.symm (h : w.Alike k v) : v.Alike k w :=
  ⟨h.host.symm, h.images.symm, h.seed.symm, h.size.symm, fun id hid => (h.stores id hid).symm,
    fun id hid => (h.realms id hid).symm, fun id hid => (h.removals id hid).symm⟩

theorem Alike.trans (h : w.Alike k v) (h' : v.Alike k u) : w.Alike k u :=
  ⟨h'.host.trans h.host, h'.images.trans h.images, h'.seed.trans h.seed, h'.size.trans h.size,
    fun id hid => (h'.stores id hid).trans (h.stores id hid),
    fun id hid => (h'.realms id hid).trans (h.realms id hid),
    fun id hid => (h'.removals id hid).trans (h.removals id hid)⟩

/-- Who has no way to the store of the instance reads the same in worlds alike. -/
theorem Mirrors.agrees {P : StoreId → Prop} {libraries : Libraries} (h : w.Mirrors k reads v)
    (hk : ¬ P k.data) (hl : ∀ entry ∈ libraries.files, reads entry.2) :
    w.Agrees (.stores P) libraries v where
  host := h.host
  images := h.images
  seed := h.seed
  stores id hid := h.stores id fun heq => hk (heq ▸ hid)
  texts entry hentry := h.files.texts entry.2 (hl entry hentry)
  times entry _ := h.files.times entry.2
  pictures := h.files.pictures

end World

namespace Effect

/-- The time that an effect takes. -/
def time : Effect → Instant
  | tick => 1
  | _ => 0

theorem apply_clock (e : Effect) (w : World) : (e.apply w).clock = w.clock + e.time := by
  cases e with
  | tick => rfl
  | loadImage path =>
      obtain ⟨images, assets, h⟩ := w.loadImage_world path
      exact (congrArg World.clock h).trans (Int.add_zero _).symm
  | random low high =>
      obtain ⟨seed, h⟩ := w.random_world low high
      exact (congrArg World.clock h).trans (Int.add_zero _).symm
  | record _ | requestAdd _ | requestRemoval _ | set _ _ _ | setAll _ _ | draw _ _ _ _ =>
      exact (Int.add_zero _).symm

theorem clock_le (e : Effect) (w : World) : w.clock ≤ (e.apply w).clock := by
  rw [e.apply_clock]
  cases e with
  | tick => exact Int.le_add_one (Int.le_refl _)
  | _ => exact Int.le_of_eq (Int.add_zero _).symm

/-- To load an image has the same effect in worlds alike. -/
theorem loadImage_mirrors (h : w.Mirrors k reads v) (path : String) :
    ((loadImage path).apply v).host = ((loadImage path).apply w).host ∧
      ((loadImage path).apply v).images = ((loadImage path).apply w).images := by
  rw [apply, apply, World.loadImage_eq, World.loadImage_eq, h.host, h.files.pictures, h.images]
  split
  · exact ⟨h.host, h.images⟩
  · split
    · exact ⟨h.host, h.images⟩
    · simp [World.addImage, World.modifyHost, h.host, h.images]

theorem random_mirrors (h : w.Mirrors k reads v) (low high : Float) :
    ((random low high).apply v).seed = ((random low high).apply w).seed := by
  simp only [apply, World.random, World.pick, h.seed]
  split
  · exact h.seed
  · split
    · rfl
    · exact h.seed

/-- The same effect leaves worlds alike that were so before. -/
theorem mirrors (e : Effect) (h : w.Mirrors k reads v) :
    (e.apply w).Mirrors k reads (e.apply v) := by
  have store (id : StoreId) (f : DataStore → DataStore) :
      (w.modifyStore id f).Mirrors k reads (v.modifyStore id f) := by
    refine ⟨⟨h.host, h.images, h.seed, ?_, fun other hother => ?_, h.realms, h.removals⟩, h.files⟩
    · simp [World.modifyStore, h.size]
    · rw [World.modifyStore_stores, World.modifyStore_stores, h.stores other hother]
  cases e with
  | record _ | tick =>
      exact ⟨⟨h.host, h.images, h.seed, h.size, h.stores, h.realms, h.removals⟩, h.files⟩
  | requestAdd name =>
      have hhost : (v.requestAdd name).host = (w.requestAdd name).host := by
        simp only [World.requestAdd, World.modifyHost, h.host]
      exact ⟨⟨hhost, h.images, h.seed, h.size, h.stores, h.realms, h.removals⟩, h.files⟩
  | requestRemoval id =>
      refine ⟨⟨h.host, h.images, h.seed, h.size, h.stores, h.realms, fun other hother => ?_⟩,
        h.files⟩
      simp only [apply, World.requestRemoval, RemovalQueue.mem_push, h.removals other hother]
  | set id key value => exact store id fun d => d.set key value
  | setAll id entries => exact store id fun d => d.setAll entries
  | draw target source x y =>
      have himages : (v.drawImage target source x y).images =
          (w.drawImage target source x y).images := by
        simp only [World.drawImage, World.setImage, World.image, h.images]
      exact ⟨⟨h.host, himages, h.seed, h.size, h.stores, h.realms, h.removals⟩, h.files⟩
  | loadImage path =>
      obtain ⟨hhost, himages⟩ := loadImage_mirrors h path
      obtain ⟨_, _, hw⟩ := w.loadImage_world path
      obtain ⟨_, _, hv⟩ := v.loadImage_world path
      rw [apply, apply] at hhost himages ⊢
      rw [hw, hv] at hhost himages ⊢
      exact ⟨⟨hhost, himages, h.seed, h.size, h.stores, h.realms, h.removals⟩, h.files⟩
  | random low high =>
      have hseed := random_mirrors h low high
      obtain ⟨_, hw⟩ := w.random_world low high
      obtain ⟨_, hv⟩ := v.random_world low high
      rw [apply, apply] at hseed ⊢
      rw [hw, hv] at hseed ⊢
      exact ⟨⟨h.host, h.images, hseed, h.size, h.stores, h.realms, h.removals⟩, h.files⟩

end Effect

end Alike

/-! ## Time -/

/-- A run from one world to another can be repeated in a third: that one is alike, and the time is
the same there, or the run does not ask for it. -/
structure World.Ready (k : Instance) (reads : FilePath → Prop) (w w' v : World) : Prop where
  mirrors : w.Mirrors k reads v
  time : v.clock = w.clock ∨ w'.clock = w.clock

/-- As much time went by from one world to another as between two others, which are alike. -/
structure World.Follows (k : Instance) (reads : FilePath → Prop) (w w' v v' : World) : Prop where
  mirrors : w'.Mirrors k reads v'
  time : v'.clock = v.clock + (w'.clock - w.clock)

section Time

variable {k : Instance} {reads : FilePath → Prop} {w w' w'' v v' v'' : World}

namespace World

theorem Follows.refl (h : w.Mirrors k reads v) : w.Follows k reads w v v :=
  ⟨h, by rw [Int.sub_self, Int.add_zero]⟩

theorem Follows.trans (h : w.Follows k reads w' v v') (h' : w'.Follows k reads w'' v' v'') :
    w.Follows k reads w'' v v'' := by
  refine ⟨h'.mirrors, ?_⟩
  have htime := h.time
  have htime' := h'.time
  simp only [Instant] at htime htime' ⊢
  omega

/-- What can be repeated can be repeated in two parts. -/
theorem Ready.first (h : w.Ready k reads w'' v) (hle : w.clock ≤ w'.clock)
    (hle' : w'.clock ≤ w''.clock) : w.Ready k reads w' v :=
  ⟨h.mirrors, h.time.imp_right fun heq => Int.le_antisymm (Int.le_trans hle' (Int.le_of_eq heq)) hle⟩

theorem Ready.second (h : w.Ready k reads w'' v) (hle : w.clock ≤ w'.clock)
    (hle' : w'.clock ≤ w''.clock) (hf : w.Follows k reads w' v v') : w'.Ready k reads w'' v' := by
  refine ⟨hf.mirrors, ?_⟩
  have htime := hf.time
  rcases h.time with heq | heq
  · refine .inl ?_
    simp only [Instant] at htime heq ⊢
    omega
  · exact .inr (Int.le_antisymm (heq ▸ hle) hle')

end World

theorem Effect.follows (e : Effect) (h : w.Mirrors k reads v) :
    w.Follows k reads (e.apply w) v (e.apply v) := by
  refine ⟨e.mirrors h, ?_⟩
  have hw := e.apply_clock w
  have hv := e.apply_clock v
  simp only [Instant] at hw hv ⊢
  omega

/-- The clock is never set back. -/
theorem Effect.applyAll_clock_le : ∀ (es : List Effect) (w : World),
    w.clock ≤ (Effect.applyAll es w).clock
  | [], _ => Int.le_refl _
  | e :: rest, w => Int.le_trans (e.clock_le w) (applyAll_clock_le rest (e.apply w))

theorem Lang.Moves.clock_le {A : Allowance} {m m' : Machine} (h : Moves A m m') :
    m.world.clock ≤ m'.world.clock := by
  obtain ⟨es, -, hworld⟩ := h.effects
  exact hworld ▸ Effect.applyAll_clock_le es m.world

theorem Ran.clock_le {A : Allowance} {owner : InstanceId} {es : List Effect}
    (h : Ran A owner es w w') : w.clock ≤ w'.clock := by
  have hclock : w'.clock = (Effect.applyAll es w).clock := by rw [← h.world]
  exact hclock ▸ Effect.applyAll_clock_le es w

end Time

/-! ## Runs that echo -/

namespace Lang

/-- The run stays within its stores, and from worlds alike it goes the same way. -/
structure Echoes (k : Instance) (reads : FilePath → Prop) (P : StoreId → Prop) {α : Type} [Leafy α]
    (x : Eval α) : Prop where
  does : Does (.stores P) x
  echo : ∀ m r m' v, m.Confined (.stores P) → m.world.Ready k reads m'.world v →
    x m = some (r, m') → ∃ v', x { m with world := v } = some (r, { m' with world := v' }) ∧
      m.world.Follows k reads m'.world v v'

namespace Echoes

variable {k : Instance} {reads : FilePath → Prop} {P : StoreId → Prop} {α β : Type} [Leafy α]
  [Leafy β]

theorem pure {a : α} (ha : Within (.stores P) a) : Echoes k reads P (Pure.pure a : Eval α) := by
  refine ⟨.pure ha, fun m r m' v _ hready h => ?_⟩
  cases h
  exact ⟨v, rfl, .refl hready.mirrors⟩

theorem throw {h : Halt} (hh : Within (.stores P) h) :
    Echoes k reads P (MonadExcept.throw h : Eval α) := by
  refine ⟨.throw hh, fun m r m' v _ hready h => ?_⟩
  cases h
  exact ⟨v, rfl, .refl hready.mirrors⟩

theorem bind {x : Eval α} {f : α → Eval β} (hx : Echoes k reads P x)
    (hf : ∀ a, Within (.stores P) a → Echoes k reads P (f a)) : Echoes k reads P (x >>= f) := by
  refine ⟨.bind hx.does fun a ha => (hf a ha).does, fun m r m' v hm hready h => ?_⟩
  obtain ⟨⟨r₁, m₁⟩, h₁, h⟩ := Option.bind_eq_some_iff.mp h
  obtain ⟨hmoves, hr₁⟩ := hx.does m r₁ m₁ hm h₁
  cases r₁ with
  | ok a =>
      have hm₁ := hmoves.confined hm
      have hle := ((hf a hr₁).does m₁ r m' hm₁ h).1.clock_le
      obtain ⟨v₁, hv₁, hfirst⟩ := hx.echo m _ m₁ v hm (hready.first hmoves.clock_le hle) h₁
      obtain ⟨v', hv', hsecond⟩ := (hf a hr₁).echo m₁ r m' v₁ hm₁
        (hready.second hmoves.clock_le hle hfirst) h
      exact ⟨v', Option.bind_eq_some_iff.mpr ⟨_, hv₁, hv'⟩, hfirst.trans hsecond⟩
  | error halt =>
      cases h
      obtain ⟨v₁, hv₁, hfirst⟩ := hx.echo m _ m' v hm hready h₁
      exact ⟨v₁, Option.bind_eq_some_iff.mpr ⟨_, hv₁, rfl⟩, hfirst⟩

theorem attempt {x : Eval α} (hx : Echoes k reads P x) : Echoes k reads P (Eval.attempt x) := by
  refine ⟨.attempt hx.does, fun m r m' v hm hready h => ?_⟩
  obtain ⟨⟨r₁, m₁⟩, h₁, h⟩ := Option.bind_eq_some_iff.mp h
  cases h
  obtain ⟨v', hv', hfollows⟩ := hx.echo m r₁ m' v hm hready h₁
  exact ⟨v', Option.bind_eq_some_iff.mpr ⟨_, hv', rfl⟩, hfollows⟩

theorem look {f : Machine → Eval α} (hf : ∀ m, m.Confined (.stores P) → Echoes k reads P (f m))
    (same : ∀ m v, m.world.Mirrors k reads v → f { m with world := v } = f m) :
    Echoes k reads P (get >>= f) := by
  refine ⟨.look fun m hm => (hf m hm).does, fun m r m' v hm hready h => ?_⟩
  obtain ⟨v', hv', hfollows⟩ := (hf m hm).echo m r m' v hm hready h
  refine ⟨v', ?_, hfollows⟩
  change f { m with world := v } { m with world := v } = _
  rw [same m v hready.mirrors]
  exact hv'

/-- A change of the machine that has no part in the world. -/
theorem of_change {x : Eval Unit} {f : Frame → Frame} {g : Realm → Realm} (hd : Does (.stores P) x)
    (hx : ∀ m, x m = some (.ok (), { m with frame := f m.frame, realm := g m.realm })) :
    Echoes k reads P x := by
  refine ⟨hd, fun m r m' v _ hready h => ?_⟩
  rw [hx m] at h
  cases h
  exact ⟨v, hx _, .refl hready.mirrors⟩

theorem effect (e : Effect) (he : e.Allowed (.stores P)) :
    Echoes k reads P (Eval.modifyWorld e.apply) := by
  refine ⟨.effect e he, fun m r m' v _ hready h => ?_⟩
  cases h
  exact ⟨e.apply v, rfl, e.follows hready.mirrors⟩

theorem ask {f : World → α × World} {e : Effect} (he : e.Allowed (.stores P))
    (hf : ∀ w, w.Closed (.stores P) → Within (.stores P) (f w).1) (hw : ∀ w, (f w).2 = e.apply w)
    (same : ∀ w v, w.Mirrors k reads v → (e = .tick → v.clock = w.clock) → (f v).1 = (f w).1) :
    Echoes k reads P (Eval.askWorld f) := by
  refine ⟨.askWorld he hf hw, fun m r m' v _ hready h => ?_⟩
  cases h
  -- to ask for the time takes time
  have htime : e = .tick → v.clock = m.world.clock := by
    rintro rfl
    refine hready.time.resolve_right fun heq => ?_
    rw [hw] at heq
    exact absurd heq (Int.ne_of_gt (Int.lt_succ _))
  refine ⟨e.apply v, ?_, ?_⟩
  · rw [← same m.world v hready.mirrors htime, ← hw]
    rfl
  · rw [hw]
    exact e.follows hready.mirrors

theorem modifyFrame {f : Frame → Frame}
    (hf : ∀ frame, Within (.stores P) frame → Within (.stores P) (f frame)) :
    Echoes k reads P (Eval.modifyFrame f) :=
  of_change (g := id) (.modifyFrame hf) fun _ => rfl

theorem newCell {held : Held} {f : CellId → Eval α} (hh : Within (.stores P) held)
    (hf : ∀ cell, Echoes k reads P (f cell)) : Echoes k reads P (Eval.newCell held >>= f) := by
  refine ⟨.newCell hh fun cell _ => (hf cell).does, fun m r m' v hm hready h => ?_⟩
  exact (hf m.realm.heap.size).echo { m with realm := { m.realm with
    heap := m.realm.heap.push held } } r m' v ((Move.newCell held hh).confined hm) hready h

theorem apart {g : Frame → Frame} {x : Eval α} {f : Frame → Except Halt α → Eval β}
    (hg : ∀ frame, Within (.stores P) frame → Within (.stores P) (g frame))
    (hx : Echoes k reads P x)
    (hf : ∀ inner r, Within (.stores P) inner → Within (.stores P) r →
      Echoes k reads P (f inner r)) : Echoes k reads P (Eval.apart g x f) := by
  refine look (fun outer ho => ?_) fun _ _ _ => rfl
  refine (modifyFrame hg).bind fun _ _ => (attempt hx).bind fun r hr => ?_
  refine look (fun inner hi => ?_) fun _ _ _ => rfl
  exact (modifyFrame fun _ _ => ho.frame).bind fun _ _ => hf inner.frame r hi.frame hr

section Libraries

variable {stage : Stage} {run : Run} {file : FilePath} {text : String} {pos : Place}

theorem inModule {x : Eval α} (hx : Echoes k reads P x) :
    Echoes k reads P (Lang.inModule text pos x) := by
  refine (attempt hx).bind fun r hr => ?_
  split
  · exact pure hr
  · exact throw (within_inModule.mpr hr)
  · exact throw hr

/-- What was evaluated for an instance is in its realm, and nobody else's. -/
theorem loadLibrary (hread : Echoes k reads P (readLibrary run file)) :
    Echoes k reads P (Lang.loadLibrary stage run file text pos) := by
  refine look (fun m₀ _ => ?_) fun m v h => by simp only [h.files.times]
  have fresh : Echoes k reads P
      (readAnew stage run file (m₀.world.files.modified? file) text pos) := by
    refine (inModule hread).bind fun m hm => (effect (.record _) trivial).bind fun _ _ => ?_
    have hkeep : Echoes k reads P (keepModule file (m₀.world.files.modified? file) m) :=
      of_change (f := id) (g := (·.keep file ⟨m₀.world.files.modified? file, m⟩))
        (.keepModule (within_cached.mpr hm)) fun _ => rfl
    exact hkeep.bind fun _ _ => pure hm
  rw [fetchLibrary_eq]
  refine look (fun m hm => ?_) fun _ _ _ => rfl
  split
  · rename_i cached hcached
    split
    · exact pure (within_cached? hm.modules hcached)
    · exact fresh
  · exact fresh

theorem bringLibrary {name : Option String}
    (hload : ∀ entry ∈ stage.libraries.files,
      Echoes k reads P (Lang.loadLibrary stage run entry.2 text pos)) :
    Echoes k reads P (Lang.bringLibrary stage run text pos name) := by
  have himport : Echoes k reads P (importLibrary stage run text pos) := by
    refine look (fun m hm => ?_) fun _ _ _ => rfl
    split
    · rename_i lib hlib
      exact pure (within_find? (within_frame.mp hm.frame).2.2.2.2 hlib)
    · unfold resolveLibrary
      split
      · rename_i file hfile
        exact hload (importStem text, file) (Libraries.mem_of_path? hfile)
      · exact throw (within_of_leafless rfl)
  refine himport.bind fun m hm => ?_
  cases name with
  | none => exact pure (within_unit ())
  | some name =>
      exact modifyFrame (f := fun f => { f with imports := (name, m) :: f.imports }) fun _ hf =>
        within_bring name hf hm

end Libraries
end Echoes

/-- What is built goes the same way in worlds alike, if it has no way to the store in which they
differ. -/
theorem Built.echoes {k : Instance} {reads : FilePath → Prop} {P : StoreId → Prop} {stage : Stage}
    (hk : ¬ P k.data) (hl : ∀ entry ∈ stage.libraries.files, reads entry.2) {α : Type} [Leafy α]
    {x : Eval α} (h : Built (.stores P) stage x) : Echoes k reads P x := by
  induction h with
  | endless => exact ⟨fun _ _ _ _ => nofun, fun _ _ _ _ _ _ => nofun⟩
  | pure ha => exact .pure ha
  | throw hh => exact .throw hh
  | bind _ _ hx hf => exact .bind hx hf
  | attempt _ hx => exact .attempt hx
  | look _ same hf => exact .look hf fun m v h => same m v (h.agrees hk hl)
  | modifyFrame hf _ => exact .modifyFrame hf
  | apart hg _ _ hx hf => exact .apart hg hx hf
  | effect e he => exact .effect e he
  | ask he hf hw same => exact .ask he hf hw fun w v h => same w v (h.agrees hk hl)
  | @setCell cell v hc hv =>
      exact .of_change (f := id) (g := fun realm => { realm with
        heap := realm.heap.modify cell (·.put v) }) (.setCell hc hv) fun _ => rfl
  | newCell hh _ hf => exact .newCell hh fun cell => hf cell trivial
  | load _ _ _ _ hread => exact .loadLibrary hread
  | bring _ _ _ hload => exact .bringLibrary hload

end Lang

/-! ## Loading and calling -/

section Instances

variable {k : Instance} {reads : FilePath → Prop} {P : StoreId → Prop} {w w' v : World}

theorem World.Mirrors.setRealm (h : w.Mirrors k reads v) (id : InstanceId) (realm : Realm) :
    (w.setRealm id realm).Mirrors k reads (v.setRealm id realm) := by
  refine ⟨⟨h.host, h.images, h.seed, h.size, h.stores, fun other hother => ?_, h.removals⟩, h.files⟩
  by_cases heq : other = id
  · subst heq
    rw [World.realm_setRealm, World.realm_setRealm]
  · rw [World.realm_setRealm_of_ne _ heq, World.realm_setRealm_of_ne _ heq, h.realms other hother]

/-- A run for another instance than the one that the worlds differ in. -/
theorem perform_echo {stage : Stage} {α : Type} [Leafy α] {x : Eval α} {frame frame' : Frame}
    {r : Except Halt α} (hx : Echoes k reads P x) (hid : stage.owner.id ≠ k.id)
    (hf : Within (.stores P) frame) (hw : w.Confined (.stores P) stage.owner.id)
    (hready : w.Ready k reads w' v) (h : perform stage x frame w = some (r, frame', w')) :
    ∃ v', perform stage x frame v = some (r, frame', v') ∧ w.Follows k reads w' v v' := by
  obtain ⟨⟨r₁, m⟩, hrun, h⟩ := Option.bind_eq_some_iff.mp h
  cases h
  obtain ⟨v₁, hv₁, hfollows⟩ := hx.echo ⟨w, w.realm stage.owner.id, frame⟩ r m v
    ⟨hf, hw.cells, hw.fresh, hw.modules, hw.world⟩ ⟨hready.mirrors, hready.time⟩ hrun
  refine ⟨v₁.setRealm stage.owner.id m.realm, ?_, hfollows.mirrors.setRealm _ _, hfollows.time⟩
  unfold perform
  rw [hready.mirrors.realms _ hid]
  exact Option.bind_eq_some_iff.mpr ⟨_, hv₁, rfl⟩

variable (hk : ¬ P k.data) {budget : Nat}

section Loading

variable {stage : Stage} (hA : Serves (.stores P) stage)
  (hl : ∀ entry ∈ stage.libraries.files, reads entry.2) (hid : stage.owner.id ≠ k.id)

include hk hA hl hid in
theorem Lang.Script.Binds.echo {script : Script} {r : Except ReloadError Binding}
    (h : script.Binds budget stage w r w') (hw : w.Confined (.stores P) stage.owner.id)
    (hready : w.Ready k reads w' v) :
    ∃ v', script.Binds budget stage v r v' ∧ w.Follows k reads w' v v' := by
  have hrun := Built.evaluate hA budget
  have hkeeps : Echoes k reads P (keepLibraries stage (evaluate stage budget) script.imports) :=
    (Built.keepLibraries hrun).echoes hk hl
  cases h with
  | unresolved hkeep =>
      obtain ⟨v', hv', hfollows⟩ := perform_echo hkeeps hid (within_of_leafless rfl) hw hready hkeep
      exact ⟨v', .unresolved hv', hfollows⟩
  | ended hkeep hbody =>
      obtain ⟨es₁, hran₁, hw₁, -, hr₁⟩ := perform_ran hkeeps.does (within_of_leafless rfl) hw hkeep
      have hframe : Within (.stores P) (script.frame stage _) := Script.within_frame hA hr₁
      have hbodies := (hrun.stmts script.body).echoes hk hl
      obtain ⟨es₂, hran₂, -⟩ := perform_ran hbodies.does hframe hw₁ hbody
      obtain ⟨v₁, hv₁, hfirst⟩ := perform_echo hkeeps hid (within_of_leafless rfl) hw
        (hready.first hran₁.clock_le hran₂.clock_le) hkeep
      obtain ⟨v₂, hv₂, hsecond⟩ := perform_echo hbodies hid hframe hw₁
        (hready.second hran₁.clock_le hran₂.clock_le hfirst) hbody
      refine ⟨v₂, ?_, hfirst.trans hsecond⟩
      unfold Script.bound
      rw [← hsecond.mirrors.realms _ hid]
      exact .ended hv₁ hv₂

include hk hA hl hid in
theorem build_echo {source : FilePath} {r : Except ReloadError Binding} (hs : reads source)
    (hw : w.Confined (.stores P) stage.owner.id) (hready : w.Ready k reads w' v)
    (h : build budget stage source w = some (r, w')) :
    ∃ v', build budget stage source v = some (r, v') ∧ w.Follows k reads w' v v' := by
  have hread : readScript v.files source stage.owner.name =
      readScript w.files source stage.owner.name := by
    unfold readScript
    rw [hready.mirrors.files.texts source hs]
  rcases build_iff.mp h with ⟨e, he, rfl, rfl⟩ | ⟨script, hscript, hbinds⟩
  · exact ⟨v, build_iff.mpr (.inl ⟨e, hread.trans he, rfl, rfl⟩), .refl hready.mirrors⟩
  · obtain ⟨v', hv', hfollows⟩ := hbinds.echo hk hA hl hid hw hready
    exact ⟨v', build_iff.mpr (.inr ⟨script, hread.trans hscript, hv'⟩), hfollows⟩

end Loading

/-- The same instance, but for the time of its last load. -/
def Instance.since (i : Instance) (time : Option Instant) : Instance := { i with loadTime := time }

namespace Instance

section Calling

variable {stage : Stage} {b b' : Binding} {name : String} {args : List Value}
  {r : Except Fault Value}

theorem ended_echo {r : Except Halt Value} (hid : stage.owner.id ≠ k.id)
    (h : w.Mirrors k reads v) : ended stage v r = ended stage w r := by
  unfold ended
  rw [h.realms _ hid]

variable (hA : Serves (.stores P) stage) (hl : ∀ entry ∈ stage.libraries.files, reads entry.2)
  (hid : stage.owner.id ≠ k.id)

include hk hA hl hid in
theorem responds_echo {e : EntryPoint} {c : Callable} (hw : w.Confined (.stores P) stage.owner.id)
    (hb : Within (.stores P) b) (hc : Within (.stores P) c) (ha : Within (.stores P) args)
    (hready : w.Ready k reads w' v) (h : b.Responds budget stage e args w c r b' w') :
    ∃ v', b.Responds budget stage e args v c r b' v' ∧ w.Follows k reads w' v v' := by
  have hrun := Built.evaluate hA budget
  cases h with
  | unfit hfind => exact ⟨v, .unfit hfind, .refl hready.mirrors⟩
  | function hfind hbody =>
      obtain ⟨v', hv', hfollows⟩ := perform_echo ((hrun.stmts _).echoes hk hl) hid
        (Binding.within_frame hb ha) hw hready hbody
      refine ⟨v', ?_, hfollows⟩
      rw [← ended_echo hid hfollows.mirrors]
      exact .function hfind hv'
  | @value name curried function _ _ _ hcall =>
      have hargs : ∀ v ∈ curried ++ args, Within (.stores P) v :=
        List.forall_mem_append.mpr ⟨within_list.mp hc, within_list.mp ha⟩
      obtain ⟨v', hv', hfollows⟩ := perform_echo ((Built.callAlone hA hrun hargs).echoes hk hl) hid
        (within_of_leafless rfl) hw hready hcall
      refine ⟨v', ?_, hfollows⟩
      rw [← ended_echo hid hfollows.mirrors]
      exact .value hv'

end Calling

variable {libraries : Libraries} {i i' : Instance} (hA : Serves (.stores P) (i.stage libraries))
  (hl : ∀ entry ∈ libraries.files, reads entry.2) (hid : i.id ≠ k.id)

include hk hA hl hid in
/-- To load an instance comes to the same, but for the time, at which it looks when all is done. -/
theorem reload_echo {result : Except ReloadError Unit} (hs : reads i.source)
    (hw : w.Confined (.stores P) i.id) (hmirrors : w.Mirrors k reads v)
    (htime : v.clock = w.clock ∨ w'.clock = w.clock + if result.isOk then 1 else 0)
    (h : i.reload budget libraries w = some (result, i', w')) (t : Option Instant) :
    ∃ v' t', (i.since t).reload budget libraries v = some (result, i'.since t', v') ∧
      w.Follows k reads w' v v' ∧ (result.isOk = false → t' = t ∧ i'.loadTime = i.loadTime) ∧
      (result.isOk = true → v.clock = w.clock → t' = i'.loadTime) := by
  rcases reload_cases h with ⟨b, w₁, hbuild, rfl, rfl, rfl⟩ | ⟨e, w₁, hbuild, rfl, rfl, rfl⟩
  · have hclock : v.clock = w.clock ∨ w₁.clock = w.clock := by
      refine htime.imp_right fun heq => ?_
      change w₁.clock + 1 = w.clock + 1 at heq
      simp only [Instant] at heq ⊢
      omega
    obtain ⟨v₁, hv₁, hfollows⟩ := build_echo hk hA hl hid hs hw ⟨hmirrors, hclock⟩ hbuild
    have hrecord := (Effect.record (i.successReport b)).follows hfollows.mirrors
    have htick := Effect.tick.follows hrecord.mirrors
    refine ⟨_, some v₁.clock, Option.bind_eq_some_iff.mpr ⟨_, hv₁, rfl⟩,
      (hfollows.trans hrecord).trans htick, nofun, fun _ hsame => congrArg some ?_⟩
    have hnow := hfollows.time
    simp only [Instant] at hsame hnow ⊢
    omega
  · obtain ⟨v₁, hv₁, hfollows⟩ := build_echo hk hA hl hid hs hw
      ⟨hmirrors, htime.imp_right fun heq => heq.trans (Int.add_zero _)⟩ hbuild
    have hrecord := (Effect.record (i.failureReport e)).follows hfollows.mirrors
    exact ⟨_, t, Option.bind_eq_some_iff.mpr ⟨_, hv₁, rfl⟩, hfollows.trans hrecord,
      fun _ => ⟨rfl, rfl⟩, nofun⟩

include hk hA hl hid in
/-- To call an entry point comes to the same. -/
theorem call_echo {e : EntryPoint} {args : List Value} {o : Option (Except Fault Value)}
    (hw : w.Confined (.stores P) i.id) (hb : Within (.stores P) i.binding)
    (ha : Within (.stores P) args) (hready : w.Ready k reads w' v)
    (h : i.call budget libraries e args w = some (o, i', w')) (t : Option Instant) :
    ∃ v', (i.since t).call budget libraries e args v = some (o, i'.since t, v') ∧
      w.Follows k reads w' v v' := by
  rcases call_iff.mp h with ⟨b, c, r, b', hready', hc, hresponds, rfl, rfl⟩ |
    ⟨hnot, rfl, rfl, rfl⟩
  · obtain ⟨hb', hc'⟩ := within_callable hb hc
    obtain ⟨v', hv', hfollows⟩ := responds_echo hk hA hl hid hw hb' hc' ha hready hresponds
    exact ⟨v', call_iff.mpr (.inl ⟨b, c, r, b', hready', hc, hv', rfl, rfl⟩), hfollows⟩
  · exact ⟨v, call_iff.mpr (.inr ⟨hnot, rfl, rfl, rfl⟩), .refl hready.mirrors⟩

include hk hA hl hid in
theorem invoke_echo {e : EntryPoint} {args : List HostValue} {o : Outcome}
    (hw : w.Confined (.stores P) i.id) (hb : Within (.stores P) i.binding)
    (ha : Within (.stores P) args) (hready : w.Ready k reads w' v)
    (h : i.invoke budget libraries e args w = some (o, i', w')) (t : Option Instant) :
    ∃ v', (i.since t).invoke budget libraries e args v = some (o, i'.since t, v') ∧
      w.Follows k reads w' v v' := by
  rcases invoke_iff.mp h with ⟨hrunning, r, hcall, rfl⟩ | ⟨hstopped, rfl, rfl, rfl⟩
  · obtain ⟨v', hv', hfollows⟩ := call_echo hk hA hl hid hw hb (within_args ha) hready hcall t
    exact ⟨v', invoke_iff.mpr (.inl ⟨hrunning, r, hv', rfl⟩), hfollows⟩
  · exact ⟨v, invoke_iff.mpr (.inr ⟨hstopped, rfl, rfl, rfl⟩), .refl hready.mirrors⟩

include hk hA hl hid in
/-- To dispatch an entry point comes to the same. -/
theorem dispatch_echo {e : EntryPoint} {args : List HostValue} {o : Outcome}
    (hw : w.Confined (.stores P) i.id) (hb : Within (.stores P) i.binding)
    (ha : Within (.stores P) args) (hready : w.Ready k reads w' v)
    (h : i.dispatch budget libraries e args w = some (o, i', w')) (t : Option Instant) :
    ∃ v', (i.since t).dispatch budget libraries e args v = some (o, i'.since t, v') ∧
      w.Follows k reads w' v v' := by
  rcases dispatch_iff.mp h with ⟨err, i₁, w₁, hinvoke, rfl, rfl, rfl⟩ | ⟨hinvoke, hfailed⟩
  · have hready₁ : w.Ready k reads w₁ v := ⟨hready.mirrors, hready.time⟩
    obtain ⟨v₁, hv₁, hfollows⟩ := invoke_echo hk hA hl hid hw hb ha hready₁ hinvoke t
    exact ⟨_, dispatch_iff.mpr (.inl ⟨err, _, v₁, hv₁, rfl, rfl, rfl⟩),
      hfollows.trans ((Effect.record err.report).follows hfollows.mirrors)⟩
  · obtain ⟨v₁, hv₁, hfollows⟩ := invoke_echo hk hA hl hid hw hb ha hready hinvoke t
    exact ⟨v₁, dispatch_iff.mpr (.inr ⟨hv₁, hfailed⟩), hfollows⟩

end Instance

end Instances

end Stagehand
