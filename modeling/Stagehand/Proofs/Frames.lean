import Stagehand.App
import Stagehand.Proofs.ImageCache

/-!
# The frames of a run

A run goes through frames, each an update, a clear of the surface, and a draw onto it. What others
make of the files between the frames is a parameter (`App.Meanwhile`), and the program is the case
in which they leave them alone (`App.runAmid_undisturbed`). A run returns what its frames lead to,
no more and no less (`App.completeAmid_iff`); the rest is what one frame does (`App.FrameLaw`):
scripts can change neither the counter of frames nor the size of an image, so that the frame before
and the clear decide what its update sees and what its draw begins with.
-/

namespace Stagehand

open Lang

/-! ## What scripts leave alone -/

/-- All along what an event runs, whatever moves it makes, the counter of frames stands at `n`. -/
structure Event.Observes (e : Event) (n : Nat) : Prop where
  during : ∀ {owner w w'}, e.run? = some (owner, w, w') → ∀ m m' : Machine, m.world = w →
    Moves (fun _ => True) m m' → m'.world.host.frame = n
  after : ∀ {owner w w'}, e.run? = some (owner, w, w') → w'.host.frame = n

section Events

variable {r r' : Registry} {e : Event} {es : List Event} {id : ImageId}

theorem Act.observes (h : Act r e r') (he : e ≠ .chore .countFrame) :
    e.Observes r.world.host.frame where
  during hrun m m' hm hmoves := by
    obtain ⟨⟨stores, rfl⟩, -⟩ := h.run_world hrun
    exact hmoves.frame.trans (congrArg (·.host.frame) hm)
  after hrun := by
    obtain ⟨-, hafter⟩ := h.run_world hrun
    exact hafter ▸ h.frame he

/-- Along a path on which no frame is counted, all see the count that it began with. -/
theorem Path.observes (h : Path r es r') (hes : ∀ e ∈ es, e ≠ .chore .countFrame) :
    (∀ e ∈ es, e.Observes r.world.host.frame) ∧ r'.world.host.frame = r.world.host.frame := by
  induction h with
  | refl => exact ⟨List.forall_mem_nil _, rfl⟩
  | step hact _ ih =>
    obtain ⟨hfirst, hrest⟩ := List.forall_mem_cons.mp hes
    obtain ⟨hobserve, hend⟩ := ih hrest
    have hframe := hact.frame hfirst
    rw [hframe] at hobserve hend
    exact ⟨List.forall_mem_cons.mpr ⟨hact.observes hfirst, hobserve⟩, hend⟩

/-- Only others change files. -/
theorem Act.files (h : Act r e r') (he : ∀ files, e ≠ .chore (.edit files)) :
    r'.world.files = r.world.files := by
  obtain ⟨effects, haccount⟩ := h.account
  cases haccount with
  | ran hrun hran =>
    obtain ⟨⟨stores, rfl⟩, hafter⟩ := h.run_world hrun
    exact hafter ▸ hran.files
  | left ids =>
    cases h
    obtain ⟨⟨realms, hforget⟩, -⟩ := r.world.foldl_forget ids
    exact congrArg (·.files) hforget
  | chore c =>
    cases h
    cases c with
    | edit files => exact absurd rfl (he files)
    | _ => rfl

theorem Path.files (h : Path r es r') (hes : ∀ e ∈ es, ∀ files, e ≠ .chore (.edit files)) :
    r'.world.files = r.world.files := by
  induction h with
  | refl => rfl
  | step hact _ ih =>
    obtain ⟨hfirst, hrest⟩ := List.forall_mem_cons.mp hes
    exact (ih hrest).trans (hact.files hfirst)

/-- To paint an image is the one deed that changes its size. -/
theorem Deed.imageSize_apply {d : Deed} (hd : ∀ id image, d ≠ .paint id image) {w : World}
    (hid : id < w.images.size) : (d.apply w).imageSize id = w.imageSize id := by
  rw [World.imageSize, d.image_apply hid, World.imageSize]
  cases d with
  | effect e =>
    cases e with
    | draw target source x y =>
      by_cases htarget : target = id
      · rw [paints, if_pos htarget]
        rfl
      · rw [paints, if_neg htarget]
    | _ => rfl
  | paint other image => exact absurd rfl (hd other image)
  | _ => rfl

theorem Deed.imageSize_applyAll : ∀ {ds : List Deed} {w : World},
    (∀ d ∈ ds, ∀ id image, d ≠ .paint id image) → id < w.images.size →
      (applyAll ds w).imageSize id = w.imageSize id ∧ id < (applyAll ds w).images.size
  | [], _, _, hid => ⟨rfl, hid⟩
  | d :: ds, w, hds, hid => by
    obtain ⟨hfirst, hrest⟩ := List.forall_mem_cons.mp hds
    have hkept := Nat.lt_of_lt_of_le hid (d.images_le w)
    obtain ⟨hsize, hthere⟩ := imageSize_applyAll hrest hkept
    exact ⟨hsize.trans (imageSize_apply hfirst hid), hthere⟩

/-- Whatever happens to a registry, an image keeps its size. -/
theorem Path.imageSize (h : Path r es r') (hid : id < r.world.images.size) :
    r'.world.imageSize id = r.world.imageSize id ∧ id < r'.world.images.size := by
  induction h with
  | refl => exact ⟨rfl, hid⟩
  | @step _ r₁ _ e _ hact _ ih =>
    obtain ⟨effects, -, hdeeds⟩ := hact.deeds
    have hpaint : ∀ d ∈ e.storeFor ++ Deed.run effects r₁.world, ∀ id image,
        d ≠ .paint id image := by
      intro d hd id image
      rcases List.mem_append.mp hd with hd | hd
      · unfold Event.storeFor at hd
        split at hd
        · rw [List.mem_singleton.mp hd]
          nofun
        · nomatch hd
      · rcases List.mem_append.mp hd with hd | hd
        · obtain ⟨effect, -, rfl⟩ := List.mem_map.mp hd
          nofun
        · rw [List.mem_singleton.mp hd]
          nofun
    obtain ⟨hsize, hthere⟩ := Deed.imageSize_applyAll hpaint hid
    rw [hdeeds] at hsize hthere
    obtain ⟨hrest, hend⟩ := ih hthere
    exact ⟨hrest.trans hsize, hend⟩

end Events

/-- A host starts before its first frame. -/
theorem Registry.start_frame (c : HostConfig) (w : World) :
    (Registry.start c w).world.host.frame = 0 := by
  unfold Registry.start
  generalize Libraries.index w.files c.scripts.librariesDir builtinNames = indexed
  rfl

/-! ## Passes -/

/-- What a pass comes to neither counts a frame nor changes files. -/
theorem Round.told_quiet {vs : List (Round (List Call))} :
    ∀ e ∈ vs.flatMap Round.told, e ≠ .chore .countFrame ∧ ∀ files, e ≠ .chore (.edit files) := by
  intro e he
  rcases Round.told_cases he with ⟨v, -, d, -, rfl⟩ | rfl | ⟨a, rfl⟩
  · rcases d.event_cases with heq | heq <;> rw [heq] <;> exact ⟨nofun, nofun⟩
  · exact ⟨nofun, nofun⟩
  · exact ⟨nofun, nofun⟩

/-- An update up to the count, and from there on. -/
theorem Registry.update_path {budget : Nat} {r r' : Registry} (h : r.update budget = some r') :
    ∃ vs r₁ report cost, Rounds (Updated r.libraries) 0 { r with world := r.world.tick.2 } vs r₁ ∧
      Path r (.chore .tick :: vs.flatMap Round.told) r₁ ∧ Path r₁ (counting report cost) r' ∧
      r'.world.host.frame = r₁.world.host.frame + 1 := by
  obtain ⟨vs, r₁, hrounds, -, hcount, report, cost, hend⟩ := update_rounds h
  exact ⟨vs, r₁, report, cost, hrounds,
    .step (.chore .tick) (hrounds.path updated_told rfl), hend, hcount⟩

/-- A draw neither counts a frame nor changes files. -/
theorem Registry.draw_path {budget : Nat} {r r' : Registry} {surface : ImageId}
    {result : Except ScanError Unit} (h : r.draw budget surface = some (result, r')) :
    ∃ es, (Op.draw surface).Told r es ∧ Path r es r' ∧
      ∀ e ∈ es, e ≠ .chore .countFrame ∧ ∀ files, e ≠ .chore (.edit files) := by
  have hrun : (Op.draw surface).run budget r = some r' := by
    rw [Op.run, h]
    rfl
  obtain ⟨es, hpath, htold⟩ := Op.story hrun
  refine ⟨es, htold, hpath, fun e he => ?_⟩
  cases htold.tells he with
  | call hc =>
      cases e with
      | chore => nomatch hc
      | _ => exact ⟨nofun, nofun⟩
  | joined | tried | left => exact ⟨nofun, nofun⟩
  | @chore _ c hc =>
      cases c with
      | countFrame | edit => nomatch hc
      | _ => exact ⟨nofun, nofun⟩

namespace App

/-! ## A run among others -/

/-- What of a world is not the run's own: the files, the time, and the reports up to now. -/
structure Surroundings where
  files : FileTree
  clock : Instant
  log : Array LogRecord

/-- What others make of it before a frame. -/
abbrev Meanwhile := Nat → Surroundings → Surroundings

/-- A registry when others had their turn. -/
def Meanwhile.apply (others : Meanwhile) (frame : Nat) (r : Registry) : Registry :=
  let s := others frame ⟨r.world.files, r.world.clock, r.world.log⟩
  { r with world := { r.world with files := s.files, clock := s.clock, log := s.log } }

/-- A run when others had their turn. -/
def Run.amid (others : Meanwhile) (r : Run) : Run :=
  { r with registry := others.apply r.done r.registry }

/-- Goes on to the end among others. -/
def completeAmid (budget : Nat) (others : Meanwhile) :
    Nat → Progress → Option (Except Failure Unit × World)
  | _, .ended result w => some (result, w)
  | 0, .going _ => none
  | steps + 1, .going r => do completeAmid budget others steps (← (r.amid others).step budget)

/-- A run of the program among others. -/
def runAmid (budget : Nat) (others : Meanwhile) (c : CommandLine) (w : World) :
    Option (Except Failure Unit × World) := do
  let steps := match c.frames with
    | some n => n + 1
    | none => budget
  completeAmid budget others steps (← launch budget c w)

theorem completeAmid_undisturbed (budget : Nat) : ∀ (steps : Nat) (p : Progress),
    completeAmid budget (fun _ s => s) steps p = p.complete budget steps
  | 0, .ended _ _ | 0, .going _ | _ + 1, .ended _ _ => rfl
  | steps + 1, .going r => by
    have hsame : ∀ p, completeAmid budget (fun _ s => s) steps p = p.complete budget steps :=
      completeAmid_undisturbed budget steps
    rw [completeAmid, Progress.complete]
    simp only [hsame]
    rfl

/-- If others do nothing, it is a run of the program. -/
theorem runAmid_undisturbed (budget : Nat) (c : CommandLine) (w : World) :
    runAmid budget (fun _ s => s) c w = run budget c w := by
  simp only [runAmid, completeAmid_undisturbed]
  rfl

/-! ## Frames -/

/-- One frame: the registry at its beginning, behind the update and behind the draw, and what came
of the draw. -/
structure Frame where
  before : Registry
  updated : Registry
  result : Except ScanError Unit
  drawn : Registry

/-- The registry with the surface cleared. -/
def cleared (surface : ImageId) (r : Registry) : Registry :=
  { r with world := r.world.setImage surface ((r.world.image surface).fill .black) }

/-- A frame is an update, a clear of the surface, and a draw onto it, in this order. -/
structure Frame.Goes (budget : Nat) (surface : ImageId) (f : Frame) : Prop where
  update : f.before.update budget = some f.updated
  draw : (cleared surface f.updated).draw budget surface = some (f.result, f.drawn)

/-- The frames of a run from the one with number `k` on, up to the number `n`. Others have their
turn before each and behind the last; a draw that fails is the end. -/
inductive Frames (budget : Nat) (others : Meanwhile) (surface : ImageId) (n : Nat) :
    Nat → Registry → List Frame → Option ScanError → Registry → Prop
  | finished {r : Registry} : Frames budget others surface n n r [] none (others.apply n r)
  | failed {k : Nat} {r : Registry} {f : Frame} {e : ScanError} (hk : k ≠ n)
      (hbefore : f.before = others.apply k r) (hgoes : f.Goes budget surface)
      (hresult : f.result = .error e) :
      Frames budget others surface n k r [f] (some e) f.drawn
  | frame {k : Nat} {r r' : Registry} {f : Frame} {fs : List Frame} {failure : Option ScanError}
      (hk : k ≠ n) (hbefore : f.before = others.apply k r) (hgoes : f.Goes budget surface)
      (hresult : f.result = .ok ())
      (hrest : Frames budget others surface n (k + 1) f.drawn fs failure r') :
      Frames budget others surface n k r (f :: fs) failure r'

/-- What a run returns behind its frames. -/
def outcome (r : Run) : Option ScanError → Except Failure Unit × World
  | some e => (.error (.scan e), r.registry.world)
  | none => finish r

section Course

variable {budget n k : Nat} {others : Meanwhile} {surface : ImageId} {r r' : Registry} {f : Frame}
  {fs : List Frame} {failure : Option ScanError}

theorem Run.step_finished {r : Run} (h : r.command.frames = some r.done) :
    r.step budget = some (.ended (finish r).1 (finish r).2) := by
  rw [Run.step, if_pos h]

/-- How a run goes on from a frame. -/
def Run.next (r : Run) : Except ScanError Unit × Registry → Progress
  | (.error e, registry) => .ended (.error (.scan e)) registry.world
  | (.ok (), registry) => .going { r with registry, done := r.done + 1 }

theorem Run.step_frame {r : Run} (h : r.command.frames ≠ some r.done) :
    r.step budget = (App.frame budget r.surface r.registry).map r.next := by
  rw [Run.step, if_neg h]
  cases App.frame budget r.surface r.registry with
  | none => rfl
  | some p =>
    obtain ⟨_ | _, registry⟩ := p <;> rfl

theorem frame_iff {before drawn : Registry} {result : Except ScanError Unit} :
    App.frame budget surface before = some (result, drawn) ↔
      ∃ updated, Frame.Goes budget surface ⟨before, updated, result, drawn⟩ := by
  unfold App.frame
  constructor
  · intro h
    obtain ⟨updated, hupdate, hdraw⟩ := Option.bind_eq_some_iff.mp h
    exact ⟨updated, hupdate, hdraw⟩
  · rintro ⟨updated, hupdate, hdraw⟩
    exact Option.bind_eq_some_iff.mpr ⟨updated, hupdate, hdraw⟩

/-- A run returns what its frames lead to, and returns if they lead anywhere. The induction is on
the number of frames that are left. -/
theorem completeAmid_iff : ∀ {m : Nat} {r : Run} {out : Except Failure Unit × World},
    r.command.frames = some n → r.done + m = n →
    (completeAmid budget others (m + 1) (.going r) = some out ↔
      ∃ fs failure r', Frames budget others r.surface n r.done r.registry fs failure r' ∧
        out = outcome { r with registry := r', done := n } failure)
  | 0, r, out, hn, hdone => by
    obtain rfl : r.done = n := hdone
    rw [completeAmid, Run.step_finished (r := r.amid others) hn]
    constructor
    · intro h
      exact ⟨[], none, _, .finished, (Option.some.inj h).symm⟩
    · rintro ⟨fs, failure, r', hframes, rfl⟩
      cases hframes with
      | finished => rfl
      | failed hk | frame hk => exact absurd rfl hk
  | m + 1, r, out, hn, hdone => by
    have hne : r.done ≠ n := by omega
    have hframes : r.command.frames ≠ some r.done := by
      rw [hn]
      exact fun heq => hne (Option.some.inj heq).symm
    have hnext : r.done + 1 + m = n := by omega
    rw [completeAmid, Run.step_frame (r := r.amid others) hframes]
    constructor
    · intro h
      obtain ⟨p, hp, h⟩ := Option.bind_eq_some_iff.mp h
      obtain ⟨⟨result, drawn⟩, hframe, rfl⟩ := Option.map_eq_some_iff.mp hp
      obtain ⟨updated, hgoes⟩ := frame_iff.mp hframe
      cases result with
      | error e => exact ⟨_, some e, drawn, .failed hne rfl hgoes rfl, (Option.some.inj h).symm⟩
      | ok =>
        obtain ⟨fs, failure, r', hrest, hout⟩ := (completeAmid_iff
          (r := { r with registry := drawn, done := r.done + 1 }) hn hnext).mp h
        exact ⟨_, failure, r', .frame hne rfl hgoes rfl hrest, hout⟩
    · rintro ⟨fs, failure, r', hcourse, rfl⟩
      refine Option.bind_eq_some_iff.mpr ?_
      cases hcourse with
      | finished => exact absurd rfl hne
      | @failed _ _ f e _ hbefore hgoes hresult =>
        have hframe := frame_iff.mpr ⟨f.updated, hgoes⟩
        rw [hbefore, hresult] at hframe
        exact ⟨_, Option.map_eq_some_iff.mpr ⟨_, hframe, rfl⟩, rfl⟩
      | @frame _ _ _ f _ _ _ hbefore hgoes hresult hrest =>
        have hframe := frame_iff.mpr ⟨f.updated, hgoes⟩
        rw [hbefore, hresult] at hframe
        refine ⟨_, Option.map_eq_some_iff.mpr ⟨_, hframe, rfl⟩, ?_⟩
        exact (completeAmid_iff (r := { r with registry := f.drawn, done := r.done + 1 }) hn
          hnext).mpr ⟨_, failure, r', hrest, rfl⟩

end Course

/-! ## What a frame does -/

/-- The surface of a window in one colour. -/
def blank (config : HostConfig) (colour : Pixel) : Image :=
  .filled config.window.width config.window.height colour

/-- Where a run stands: so many frames were counted, and the surface has the size of the window. -/
structure Poised (config : HostConfig) (surface : ImageId) (count : Nat) (r : Registry) : Prop where
  count : r.world.host.frame = count
  there : surface < r.world.images.size
  size : r.world.imageSize surface = (config.window.width, config.window.height)

/-- What the frame with number `k` does, the first one being number 0. -/
structure FrameLaw (budget : Nat) (config : HostConfig) (surface : ImageId) (k : Nat)
    (f : Frame) : Prop where
  goes : f.Goes budget surface
  counts : f.before.world.host.frame = k ∧ f.updated.world.host.frame = k + 1 ∧
    f.drawn.world.host.frame = k + 1
  /-- All that the update runs sees the count `k`, and the count goes up behind it. -/
  update : ∃ vs r₁ report cost, Rounds (Updated f.before.libraries) 0
      { f.before with world := f.before.world.tick.2 } vs r₁ ∧
    Path f.before (.chore .tick :: vs.flatMap Round.told) r₁ ∧
    (∀ e ∈ vs.flatMap Round.told, e.Observes k) ∧
    Path r₁ (Registry.counting report cost) f.updated
  /-- The draw begins on a surface in the one colour, all else as the update left it. -/
  clear : cleared surface f.updated =
    { f.updated with world := f.updated.world.setImage surface (blank config .black) }
  shown : (cleared surface f.updated).world.image surface = blank config .black
  /-- Whatever the update had drawn onto the surface, the draw would begin with the same. -/
  forgets : ∀ image, image.width = config.window.width → image.height = config.window.height →
    cleared surface { f.updated with world := f.updated.world.setImage surface image } =
      cleared surface f.updated
  draw : ∃ es, (Op.draw surface).Told (cleared surface f.updated) es ∧
    Path (cleared surface f.updated) es f.drawn ∧ ∀ e ∈ es, e.Observes (k + 1)
  /-- A frame writes no file. -/
  files : f.drawn.world.files = f.before.world.files

section Laws

variable {budget n k : Nat} {others : Meanwhile} {config : HostConfig} {surface : ImageId}
  {r r' : Registry} {f : Frame} {fs : List Frame} {failure : Option ScanError}

theorem Poised.path (h : Poised config surface k r) {es : List Event} (hp : Path r es r')
    {count : Nat} (hcount : r'.world.host.frame = count) : Poised config surface count r' := by
  obtain ⟨hsize, hthere⟩ := hp.imageSize h.there
  exact ⟨hcount, hthere, hsize.trans h.size⟩

theorem Poised.amid (h : Poised config surface k r) (others : Meanwhile) (frame : Nat) :
    Poised config surface k (others.apply frame r) := ⟨h.count, h.there, h.size⟩

theorem Poised.fill (h : Poised config surface k r) (colour : Pixel) :
    (r.world.image surface).fill colour = blank config colour := by
  obtain ⟨hwidth, hheight⟩ := Prod.mk.inj h.size
  rw [Image.fill, hwidth, hheight]
  rfl

theorem Poised.cleared (h : Poised config surface k r) :
    cleared surface r = { r with world := r.world.setImage surface (blank config .black) } := by
  rw [App.cleared, h.fill]

/-- Another picture on the surface, of the same size. -/
theorem Poised.setImage (h : Poised config surface k r) {image : Image}
    (hwidth : image.width = config.window.width) (hheight : image.height = config.window.height) :
    Poised config surface k { r with world := r.world.setImage surface image } where
  count := h.count
  there := Nat.lt_of_lt_of_eq h.there Array.size_setIfInBounds.symm
  size := by
    rw [World.imageSize, r.world.image_setImage h.there, if_pos rfl, hwidth, hheight]

theorem World.setImage_setImage (w : World) (id : ImageId) (image other : Image) :
    (w.setImage id image).setImage id other = w.setImage id other := by
  unfold World.setImage
  rw [Array.setIfInBounds_setIfInBounds]

/-- One frame, from where the run stands on. -/
theorem Frame.Goes.law (hf : f.Goes budget surface) (h : Poised config surface k f.before) :
    FrameLaw budget config surface k f ∧ Poised config surface (k + 1) f.drawn := by
  obtain ⟨vs, r₁, report, cost, hrounds, hvisits, hcounting, hcount⟩ :=
    Registry.update_path hf.update
  obtain ⟨es, htold, hdraw, hquiet⟩ := Registry.draw_path hf.draw
  have hpass : ∀ e ∈ Event.chore .tick :: vs.flatMap Round.told, e ≠ .chore .countFrame :=
    List.forall_mem_cons.mpr ⟨by simp, fun e he => (Round.told_quiet e he).1⟩
  obtain ⟨hobserve, hstill⟩ := hvisits.observes hpass
  rw [h.count] at hobserve hstill
  rw [hstill] at hcount
  have hupdated := h.path (hvisits.trans hcounting) hcount
  have hcleared : Poised config surface (k + 1) (App.cleared surface f.updated) := by
    rw [hupdated.cleared]
    exact hupdated.setImage rfl rfl
  obtain ⟨hdrawing, hend⟩ := hdraw.observes fun e he => (hquiet e he).1
  rw [hcleared.count] at hdrawing hend
  have hedits : ∀ e ∈ Event.chore .tick :: vs.flatMap Round.told ++
      Registry.counting report cost, ∀ files, e ≠ .chore (.edit files) := by
    intro e he files
    rcases List.mem_append.mp he with he | he
    · rcases List.mem_cons.mp he with rfl | he
      · simp
      · exact (Round.told_quiet e he).2 files
    · simp only [Registry.counting, List.mem_cons, List.not_mem_nil, or_false] at he
      rcases he with rfl | rfl | rfl | rfl <;> simp
  refine ⟨⟨hf, ⟨h.count, hcount, hend⟩, ⟨vs, r₁, report, cost, hrounds, hvisits, ?_, hcounting⟩,
    hupdated.cleared, ?_, ?_, ⟨es, htold, hdraw, hdrawing⟩, ?_⟩, hcleared.path hdraw hend⟩
  · exact fun e he => hobserve e (List.mem_cons_of_mem _ he)
  · rw [hupdated.cleared]
    exact (f.updated.world.image_setImage hupdated.there _ _).trans (if_pos rfl)
  · intro image hwidth hheight
    rw [(hupdated.setImage hwidth hheight).cleared, hupdated.cleared,
      World.setImage_setImage]
  · have hkept := (hvisits.trans hcounting).files hedits
    exact (hdraw.files fun e he => (hquiet e he).2).trans hkept

/-- The picture on the surface behind some frames: as the last draw left it, or as it was. -/
def lastShown (surface : ImageId) (initial : Image) (fs : List Frame) : Image :=
  match fs.getLast? with
  | some f => f.drawn.world.image surface
  | none => initial

theorem lastShown_cons {initial : Image} :
    lastShown surface initial (f :: fs) = lastShown surface (f.drawn.world.image surface) fs := by
  unfold lastShown
  rw [List.getLast?_cons]
  cases fs.getLast? <;> rfl

/-- What the frames of a run come to, from the one with number `k` on. -/
structure CourseLaw (budget : Nat) (config : HostConfig) (surface : ImageId) (n k : Nat)
    (initial : Image) (fs : List Frame) (failure : Option ScanError) (r' : Registry) : Prop where
  each : ∀ j f, fs[j]? = some f → FrameLaw budget config surface (k + j) f
  shown : r'.world.image surface = lastShown surface initial fs
  /-- Without a failure these are all frames, and the count stands at their number. -/
  complete : failure = none →
    k + fs.length = n ∧ (∀ f ∈ fs, f.result = .ok ()) ∧ r'.world.host.frame = n
  /-- A failure is that of the last draw, and there were frames left. -/
  cut : ∀ e, failure = some e → ∃ init f, fs = init ++ [f] ∧ k + init.length < n ∧
    (∀ g ∈ init, g.result = .ok ()) ∧ f.result = .error e ∧ r' = f.drawn

theorem Frames.law (h : Frames budget others surface n k r fs failure r')
    (hr : Poised config surface k r) (hle : k ≤ n) :
    CourseLaw budget config surface n k (r.world.image surface) fs failure r' := by
  induction h with
  | finished =>
    exact ⟨fun _ _ hf => (nomatch hf), rfl, fun _ => ⟨rfl, List.forall_mem_nil _, hr.count⟩,
      fun _ he => nomatch he⟩
  | @failed k r f e hk hbefore hgoes hresult =>
    have hlaw := (hgoes.law (hbefore ▸ hr.amid others k)).1
    refine ⟨fun j g hg => ?_, rfl, fun he => (nomatch he), fun e' he => ?_⟩
    · cases j with
      | zero =>
        cases hg
        exact hlaw
      | succ j => nomatch hg
    · cases he
      exact ⟨[], f, rfl, Nat.lt_of_le_of_ne hle hk, List.forall_mem_nil _, hresult, rfl⟩
  | @frame k r r' f fs failure hk hbefore hgoes hresult hrest ih =>
    obtain ⟨hlaw, hdrawn⟩ := hgoes.law (hbefore ▸ hr.amid others k)
    have hmore := ih hdrawn (Nat.lt_of_le_of_ne hle hk)
    refine ⟨fun j g hg => ?_, ?_, fun hnone => ?_, fun e he => ?_⟩
    · cases j with
      | zero =>
        cases hg
        exact hlaw
      | succ j =>
        have hnumber : k + (j + 1) = k + 1 + j := by omega
        exact hnumber ▸ hmore.each j g hg
    · rw [hmore.shown, lastShown_cons]
    · obtain ⟨hlength, hall, hcount⟩ := hmore.complete hnone
      refine ⟨?_, List.forall_mem_cons.mpr ⟨hresult, hall⟩, hcount⟩
      rw [List.length_cons]
      omega
    · obtain ⟨init, last, rfl, hlength, hall, hlast, hend⟩ := hmore.cut e he
      refine ⟨f :: init, last, rfl, ?_, List.forall_mem_cons.mpr ⟨hresult, hall⟩, hlast, hend⟩
      rw [List.length_cons]
      omega

/-- There is one way for a run to go. -/
theorem Frames.unique (h : Frames budget others surface n k r fs failure r')
    {fs' : List Frame} {failure' : Option ScanError} {r'' : Registry}
    (h' : Frames budget others surface n k r fs' failure' r'') :
    fs' = fs ∧ failure' = failure ∧ r'' = r' := by
  have hsame : ∀ {f g : Frame} {before : Registry}, f.before = before → g.before = before →
      f.Goes budget surface → g.Goes budget surface → g = f := by
    intro f g before hf hg hfgoes hggoes
    obtain ⟨_, fu, fr, fd⟩ := f
    obtain ⟨_, gu, gr, gd⟩ := g
    subst hf
    cases hg
    obtain rfl : gu = fu := Option.some.inj (hggoes.update.symm.trans hfgoes.update)
    cases Option.some.inj (hggoes.draw.symm.trans hfgoes.draw)
    rfl
  induction h generalizing fs' failure' r'' with
  | finished =>
    cases h' with
    | finished => exact ⟨rfl, rfl, rfl⟩
    | failed hk | frame hk => exact absurd rfl hk
  | failed hk hbefore hgoes hresult =>
    cases h' with
    | finished => exact absurd rfl hk
    | failed _ hbefore' hgoes' hresult' =>
      cases hsame hbefore hbefore' hgoes hgoes'
      cases hresult.symm.trans hresult'
      exact ⟨rfl, rfl, rfl⟩
    | frame _ hbefore' hgoes' hresult' =>
      cases hsame hbefore hbefore' hgoes hgoes'
      nomatch hresult.symm.trans hresult'
  | frame hk hbefore hgoes hresult _ ih =>
    cases h' with
    | finished => exact absurd rfl hk
    | failed _ hbefore' hgoes' hresult' =>
      cases hsame hbefore hbefore' hgoes hgoes'
      nomatch hresult.symm.trans hresult'
    | frame _ hbefore' hgoes' _ hrest' =>
      cases hsame hbefore hbefore' hgoes hgoes'
      obtain ⟨rfl, rfl, rfl⟩ := ih hrest'
      exact ⟨rfl, rfl, rfl⟩

end Laws

/-! ## The law of a run -/

/-- A snapshot that is written is the picture, in the format that the name tells. -/
theorem writeSnapshot_ok {path : FilePath} {image : Image} {w : World}
    (h : (writeSnapshot path image w).1 = .ok ()) : ∃ format bytes,
      ImageFormat.ofPath path = .ok format ∧ image.encode format = .ok bytes ∧
        (writeSnapshot path image w).2.files = w.files.write path bytes w.clock := by
  unfold writeSnapshot at h ⊢
  cases hformat : ImageFormat.ofPath path with
  | error e =>
    simp only [hformat] at h
    nomatch h
  | ok format =>
    simp only [hformat] at h ⊢
    cases hplace : checkPlace w.files path with
    | error e =>
      simp only [hplace] at h
      nomatch h
    | ok =>
      simp only [hplace] at h ⊢
      cases hbytes : image.encode format with
      | error e =>
        simp only [hbytes] at h
        nomatch h
      | ok bytes =>
        exact ⟨format, bytes, rfl, hbytes, rfl⟩

/-- A run whose frames all completed ends as the snapshot does. -/
theorem finish_snapshot {r : Run} {path : FilePath} (h : r.command.snapshot = some path) :
    (finish r).1 = (writeSnapshot path (r.registry.world.image r.surface) r.registry.world).1 ∧
      (finish r).2.files =
        (writeSnapshot path (r.registry.world.image r.surface) r.registry.world).2.files := by
  unfold finish
  simp only [h]
  generalize writeSnapshot path (r.registry.world.image r.surface) r.registry.world = written
  obtain ⟨_ | _, after⟩ := written
  · exact ⟨rfl, rfl⟩
  · exact ⟨rfl, rfl⟩

/-- A host that was started waits for its first frame, its surface clear. -/
theorem start_poised {budget : Nat} {c : CommandLine} {config : HostConfig} {w : World} {r : Run}
    (h : start budget c config w = some r) : r.command = c ∧ r.done = 0 ∧
      Poised config r.surface 0 r.registry ∧
      r.registry.world.image r.surface = blank config .clear := by
  obtain ⟨r₁, hstartup, h⟩ := Option.bind_eq_some_iff.mp h
  obtain rfl := Option.some.inj h
  obtain ⟨loads, hjoined, -⟩ := Registry.addAll_joined hstartup
  have hframe : r₁.world.host.frame = 0 := hjoined.joined_frame.trans (Registry.start_frame _ _)
  have himage : ∀ (w : World) (image : Image), (w.addImage image).2.image w.images.size = image :=
    fun w image => by simp [World.image, World.addImage]
  refine ⟨rfl, rfl, ⟨hframe, ?_, ?_⟩, himage _ _⟩
  · exact Nat.lt_of_lt_of_eq (Nat.lt_succ_self _) (Array.size_push _).symm
  · rw [World.imageSize]
    exact congrArg (fun image : Image => (image.width, image.height)) (himage _ _)

/-- A run of so many frames of a configuration that loads. -/
structure RunLaw (budget : Nat) (others : Meanwhile) (c : CommandLine) (w : World)
    (config : HostConfig) (reports : List LogRecord) (n : Nat) : Prop where
  /-- The program is the run in which others do nothing. -/
  undisturbed : runAmid budget (fun _ s => s) c w = run budget c w
  /-- A run returns what its frames lead to, and it returns if they lead anywhere. -/
  returns : ∀ out, runAmid budget others c w = some out ↔
    ∃ r fs failure r', start budget c config (w.recordAll reports) = some r ∧
      Frames budget others r.surface n 0 r.registry fs failure r' ∧
      out = outcome { r with registry := r', done := n } failure
  /-- The frames go one way, and each does what a frame does. -/
  course : ∀ {r fs failure r'}, start budget c config (w.recordAll reports) = some r →
    Frames budget others r.surface n 0 r.registry fs failure r' →
      CourseLaw budget config r.surface n 0 (blank config .clear) fs failure r' ∧
      ∀ {fs' failure' r''}, Frames budget others r.surface n 0 r.registry fs' failure' r'' →
        fs' = fs ∧ failure' = failure ∧ r'' = r'
  /-- If a draw failed, this was the last frame, and nothing is written. -/
  failed : ∀ {r fs e r'}, start budget c config (w.recordAll reports) = some r →
    Frames budget others r.surface n 0 r.registry fs (some e) r' →
      ∃ init f, fs = init ++ [f] ∧ f.result = .error e ∧
        outcome { r with registry := r', done := n } (some e) = (.error (.scan e), f.drawn.world) ∧
        f.drawn.world.files = f.before.world.files
  /-- Without a path for a snapshot the run succeeds, and nothing is written. -/
  unwritten : c.snapshot = none → ∀ {r fs r'},
    start budget c config (w.recordAll reports) = some r →
    Frames budget others r.surface n 0 r.registry fs none r' →
      (outcome { r with registry := r', done := n } none).1 = .ok () ∧
        (outcome { r with registry := r', done := n } none).2.files = r'.world.files
  /-- With one, the picture that the last draw left is written, or the run says why not. -/
  written : ∀ path, c.snapshot = some path → ∀ {r fs r'},
    start budget c config (w.recordAll reports) = some r →
    Frames budget others r.surface n 0 r.registry fs none r' →
      let out := outcome { r with registry := r', done := n } none
      let picture := lastShown r.surface (blank config .clear) fs
      out.1 = (writeSnapshot path picture r'.world).1 ∧
        out.2.files = (writeSnapshot path picture r'.world).2.files ∧
        (out.1 = .ok () → ∃ format bytes, ImageFormat.ofPath path = .ok format ∧
          picture.encode format = .ok bytes ∧
          out.2.files = r'.world.files.write path bytes r'.world.clock)

/-- The texts that a script printed. -/
def printedBy (name : String) (w : World) : List String :=
  w.log.toList.filterMap fun r => if r.fields = [("script", name)] then some r.message else none

end App
end Stagehand
