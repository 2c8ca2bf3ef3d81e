import Stagehand.Proofs.Caches
import Stagehand.Proofs.Freshness

/-!
# Caches along a history

What a registry goes through while its files change at any time is told in strokes: an instance has
its turn, one joins, some leave, and the host does something that no cache has part in. In a turn
scripts run, and others change the files whenever a run can be interrupted. The acts of a registry
are such strokes (`Act.stroke`), those in which the files stay as they are until the act is over.

A stroke leaves every cache with libraries that came in, and with its instance in the registry
(`Stroke.tended`), so that every load that follows keeps the law (`caches_lawful`).
-/

namespace Stagehand

open Lang

/-! ## Strokes -/

/-- What becomes of the world while scripts run for an instance and others change the files. -/
inductive Turn (course : Course) (stage : Stage) : World → World → Prop
  | run {α : Type} {o : Others} {budget : Nat} {x : Eval α} {frame frame' : Frame}
      {r : Except Halt α} {w w' : World} (ho : o.Along course)
      (hx : Made (o.evaluate o.load stage budget)
        (resolveWith o.load stage (o.evaluate o.load stage budget)) x)
      (h : perform stage x frame w = some (r, frame', w')) : Turn course stage w w'
  | aside {w w' : World} (hfiles : course.later w.files w'.files) (hrealms : w'.realms = w.realms) :
      Turn course stage w w'
  | trans {w w' w'' : World} (h : Turn course stage w w') (h' : Turn course stage w' w'') :
      Turn course stage w w''

/-- What a registry goes through. -/
inductive Stroke (course : Course) (r : Registry) : Registry → Prop
  | turn (place : Nat) {i i' : Instance} {w' : World} (hi : r.instances[place]? = some i)
      (h : Turn course (i.stage r.libraries) r.world w') (hi' : i'.handle = i.handle) :
      Stroke course r { r with world := w', instances := r.instances.set place i' }
  | join (name : String) {i' : Instance} {w' : World}
      (h : Turn course ((r.create name).1.stage r.libraries) (r.create name).2.world w')
      (hi' : i'.handle = (r.create name).1.handle) :
      Stroke course r
        { (r.create name).2 with world := w', instances := r.instances ++ [i'] }
  | left (ids : List InstanceId) :
      Stroke course r
        { r with
          world := ids.foldl World.forget r.world
          instances := r.instances.filter fun i => !ids.contains i.id }
  | aside {w' : World} (cost : Int) (hfiles : course.later r.world.files w'.files)
      (hrealms : w'.realms = r.world.realms) :
      Stroke course r { r with world := w', updateCost := cost }

/-- Strokes, one after the other. -/
abbrev Strokes (course : Course) : Registry → Registry → Prop :=
  Relation.ReflTransGen (Stroke course)

/-- How a registry has its caches between operations. -/
structure Tended (course : Course) (r : Registry) : Prop where
  /-- What is cached is cached for an instance of the registry. -/
  owned : ∀ id, (r.world.realm id).modules ≠ [] → id ∈ r.instances.map Instance.id
  /-- It came in by a load that succeeded. -/
  cached : ∀ id, Vouched course ⟨id, r.libraries⟩ r.world.files (r.world.realm id)

section Keeping

variable {course : Course}

theorem Vouched.later {k : Keeper} {files files' : FileTree} {realm : Realm}
    (h : Vouched course k files realm) (hlater : course.later files files') :
    Vouched course k files' realm := fun file c hc =>
  (h file c hc).imp fun _ hin => hin.widen (course.refl _) hlater

theorem World.realm_congr {w w' : World} (h : w'.realms = w.realms) (id : InstanceId) :
    w'.realm id = w.realm id := by
  rw [World.realm, World.realm, h]

/-- A run keeps what is cached. -/
theorem perform_kept {stage : Stage} {α : Type} {o : Others} {budget : Nat} {x : Eval α}
    {frame frame' : Frame} {r : Except Halt α} {w w' : World} (ho : o.Along course)
    (hx : Made (o.evaluate o.load stage budget)
      (resolveWith o.load stage (o.evaluate o.load stage budget)) x)
    (h : perform stage x frame w = some (r, frame', w'))
    (hw : Vouched course stage.keeper w.files (w.realm stage.owner.id)) :
    ∃ m', Kept course stage.keeper ⟨w, w.realm stage.owner.id, frame⟩ m' ∧
      w' = m'.world.setRealm stage.owner.id m'.realm := by
  obtain ⟨⟨r₁, m'⟩, hrun, h⟩ := Option.bind_eq_some_iff.mp h
  cases h
  have hjob (job : Job) : SameKept course stage.keeper (o.evaluate o.load stage budget job) _ :=
    jobs_kept ho rfl budget job
  refine ⟨m', (hx _ sameKept_congruence hjob ?_ ⟨w, _, frame⟩ hw).2 r m' hrun, rfl⟩
  exact sameKept_congruence.resolveWith fun file hfile => load_same ho rfl hjob file

/-- A turn keeps every cache with libraries that came in, and the caches of others as they are. -/
theorem Turn.keeps {stage : Stage} {w w' : World} (h : Turn course stage w w')
    (hw : ∀ id, Vouched course ⟨id, stage.libraries⟩ w.files (w.realm id)) :
    course.later w.files w'.files ∧ (∀ id, id ≠ stage.owner.id → w'.realm id = w.realm id) ∧
      ∀ id, Vouched course ⟨id, stage.libraries⟩ w'.files (w'.realm id) := by
  induction h with
  | @run _ o budget x frame frame' r w w' ho hx h =>
      obtain ⟨m', hkept, rfl⟩ := perform_kept ho hx h (hw stage.owner.id)
      have hothers (id : InstanceId) (hid : id ≠ stage.owner.id) :
          (m'.world.setRealm stage.owner.id m'.realm).realm id = w.realm id :=
        (World.realm_setRealm_of_ne _ hid _).trans (World.realm_congr hkept.realms id)
      refine ⟨hkept.files, hothers, fun id => ?_⟩
      by_cases hid : id = stage.owner.id
      · subst hid
        rw [World.realm_setRealm]
        exact hkept.vouched (hw stage.owner.id)
      · rw [hothers id hid]
        exact (hw id).later hkept.files
  | aside hfiles hrealms =>
      refine ⟨hfiles, fun id _ => World.realm_congr hrealms id, fun id => ?_⟩
      rw [World.realm_congr hrealms]
      exact (hw id).later hfiles
  | trans _ _ ih ih' =>
      obtain ⟨hfiles, hothers, hw'⟩ := ih hw
      obtain ⟨hfiles', hothers', hw''⟩ := ih' hw'
      refine ⟨course.trans hfiles hfiles', fun id hid => ?_, hw''⟩
      exact (hothers' id hid).trans (hothers id hid)

/-- An instance's turn leaves the caches of the others as they are. -/
theorem Tended.turn {r : Registry} (hr : Tended course r) {stage : Stage}
    (hl : stage.libraries = r.libraries) {w w' : World} (h : Turn course stage w w')
    (hfiles : w.files = r.world.files) (hrealms : w.realms = r.world.realms) {is : List Instance}
    (hids : ∀ id, id ∈ r.instances.map Instance.id → id ∈ is.map Instance.id)
    (hown : stage.owner.id ∈ is.map Instance.id) :
    Tended course { r with world := w', instances := is } := by
  have hw (id : InstanceId) : Vouched course ⟨id, stage.libraries⟩ w.files (w.realm id) := by
    rw [hl, hfiles, World.realm_congr hrealms]
    exact hr.cached id
  obtain ⟨-, hothers, hw'⟩ := h.keeps hw
  refine ⟨fun id hid => ?_, fun id => hl ▸ hw' id⟩
  by_cases heq : id = stage.owner.id
  · exact heq ▸ hown
  · refine hids id (hr.owned id ?_)
    rwa [← World.realm_congr hrealms, ← hothers id heq]

theorem Stroke.tended {r r' : Registry} (h : Stroke course r r') (hr : Tended course r) :
    Tended course r' := by
  cases h with
  | @turn place i i' w' hi h hi' =>
      have hid : i'.id = i.id := congrArg ScriptHandle.id hi'
      have hids : (r.instances.set place i').map Instance.id = r.instances.map Instance.id := by
        rw [List.map_set, hid]
        exact set_self (by simp [hi])
      refine hr.turn rfl h rfl rfl (fun id hmem => hids ▸ hmem) ?_
      rw [hids]
      exact List.mem_map_of_mem (List.mem_of_getElem? hi)
  | @join name i' w' h hi' =>
      have hid : i'.id = (r.create name).1.id := congrArg ScriptHandle.id hi'
      have hids : (r.instances ++ [i']).map Instance.id =
          r.instances.map Instance.id ++ [(r.create name).1.id] := by
        rw [List.map_append, List.map_singleton, hid]
      have hnew : Tended course { r with world := w', instances := r.instances ++ [i'] } := by
        refine hr.turn rfl h rfl rfl (fun id hmem => ?_) ?_
        · rw [hids]
          exact List.mem_append_left _ hmem
        · rw [hids]
          exact List.mem_append_right _ (List.mem_singleton_self _)
      exact ⟨hnew.owned, hnew.cached⟩
  | left ids =>
      obtain ⟨⟨realms, hforget⟩, hothers⟩ := r.world.foldl_forget ids
      have hfiles : (ids.foldl World.forget r.world).files = r.world.files := by rw [hforget]
      refine ⟨fun id hid => ?_, fun id => ?_⟩
      · have hstays : id ∉ ids := fun hgone => hid (by rw [World.realm_foldl_forget_mem hgone])
        rw [hothers id hstays] at hid
        obtain ⟨i, hi, rfl⟩ := List.mem_map.mp (hr.owned id hid)
        exact List.mem_map_of_mem (List.mem_filter.mpr ⟨hi, by simpa using hstays⟩)
      · rw [hfiles]
        by_cases hgone : id ∈ ids
        · rw [World.realm_foldl_forget_mem hgone]
          exact vouched_empty _
        · rw [hothers id hgone]
          exact hr.cached id
  | aside cost hfiles hrealms =>
      refine ⟨fun id hid => ?_, fun id => ?_⟩
      · rw [World.realm_congr hrealms] at hid
        exact hr.owned id hid
      · rw [World.realm_congr hrealms]
        exact (hr.cached id).later hfiles

end Keeping

/-! ## The acts of a registry are strokes -/

section Acts

variable {course : Course} {stage : Stage} {w w' : World}

/-- A run while the files stay as they are is a turn. -/
theorem Turn.perform (budget : Nat) {α : Type} {x : Eval α} {frame frame' : Frame}
    {r : Except Halt α}
    (hx : Made (evaluate stage budget) (resolveLibrary stage (evaluate stage budget)) x)
    (h : Stagehand.perform stage x frame w = some (r, frame', w')) : Turn course stage w w' := by
  have hmade : Made (Others.still.evaluate Others.still.load stage budget)
      (resolveWith Others.still.load stage
        (Others.still.evaluate Others.still.load stage budget)) x := by
    rwa [Others.evaluate_still, Others.load_still, resolveWith_loadLibrary]
  exact .run (fun _ _ => course.refl _) hmade h

theorem made_keepLibraries {run : Run} : ∀ texts : List String,
    Made run (resolveLibrary stage run) (keepLibraries stage run texts)
  | [] => fun _ c _ _ => c.pure _
  | text :: rest => fun R c hrun hresolve =>
    c.bind (hresolve text none) fun _ =>
      c.last (made_keepLibraries rest R c hrun hresolve) fun _ => .pure _

theorem Turn.record (w : World) (l : LogRecord) : Turn course stage w (w.record l) :=
  .aside (course.refl _) rfl

/-- Code of scripts is made of jobs and imports, which are done within some budget. -/
theorem Code.made {α : Type} {x : Eval α} (h : Code stage x) : ∃ budget,
    Made (evaluate stage budget) (resolveLibrary stage (evaluate stage budget)) x := by
  induction h with
  | imports budget texts => exact ⟨budget, made_keepLibraries texts⟩
  | body budget => exact ⟨budget, fun _ _ hrun _ => hrun _⟩
  | value budget name function args =>
      exact ⟨budget, fun _ c hrun _ => c.last (c.callValue hrun name function none args none) .valueOf⟩
  | deeper _ ih =>
      obtain ⟨budget, hmade⟩ := ih
      exact ⟨budget, fun R c hrun hresolve => c.deeper (hmade R c hrun hresolve)⟩

theorem Performed.turn (h : Performed stage w w') : Turn course stage w w' := by
  induction h with
  | nothing => exact .aside (course.refl _) rfl
  | code hx hrun _ ih =>
      obtain ⟨budget, hmade⟩ := hx.made
      exact (Turn.perform budget hmade hrun).trans ih

namespace Instance

variable {budget : Nat} {libraries : Libraries} {i i' : Instance}

theorem reload_turn {result : Except ReloadError Unit}
    (h : i.reload budget libraries w = some (result, i', w')) :
    Turn course (i.stage libraries) w w' := by
  rcases reload_cases h with ⟨b, w₁, hbuild, -, -, rfl⟩ | ⟨e, w₁, hbuild, -, -, rfl⟩
  · exact (build_performed hbuild).turn.trans (.aside (course.refl _) rfl)
  · exact (build_performed hbuild).turn.trans (.record _ _)

theorem invoke_turn {e : EntryPoint} {args : List HostValue} {o : Outcome}
    (h : i.invoke budget libraries e args w = some (o, i', w')) :
    Turn course (i.stage libraries) w w' := (invoke_performed h).turn

theorem dispatch_turn {e : EntryPoint} {args : List HostValue} {o : Outcome}
    (h : i.dispatch budget libraries e args w = some (o, i', w')) :
    Turn course (i.stage libraries) w w' := by
  rcases dispatch_iff.mp h with ⟨err, i₁, w₁, hinvoke, -, -, rfl⟩ | ⟨hinvoke, -⟩
  · exact (invoke_turn hinvoke).trans (.record _ _)
  · exact invoke_turn hinvoke

end Instance

/-- Each act is a stroke in which the files stay as they are, unless it is to edit them. -/
theorem Act.stroke {r r' : Registry} {e : Event} (h : Act r e r')
    (he : ∀ files, e = .chore (.edit files) → course.later r.world.files files) :
    Stroke course r r' := by
  cases h with
  | @joined name a hb hw hg =>
      have hhandle := hg.handle
      obtain ⟨budget, hreload⟩ := hg
      have hturn : Turn course _ _ _ := Instance.reload_turn hreload
      rw [hb] at hhandle
      rw [hb, hw] at hturn
      exact .join name hturn hhandle
  | tried place hi hw hg =>
      have hhandle := hg.handle
      obtain ⟨budget, hreload⟩ := hg
      exact .turn place hi (hw ▸ Instance.reload_turn hreload) hhandle
  | called place hi hw hg =>
      obtain ⟨budget, hdispatch⟩ := hg
      exact .turn place hi (hw ▸ Instance.dispatch_turn hdispatch)
        (Instance.dispatch_continues hdispatch).handle
  | invoked place hi hw hg =>
      obtain ⟨budget, hinvoke⟩ := hg
      exact .turn place hi (hw ▸ Instance.invoke_turn hinvoke)
        (Instance.invoke_continues hinvoke).handle
  | started place hi hw _ _ _ hg =>
      obtain ⟨budget, hdispatch⟩ := hg
      exact .turn place hi (hw ▸ Instance.dispatch_turn hdispatch)
        (Instance.dispatch_continues hdispatch).handle
  | left ids => exact .left ids
  | chore c =>
      cases c with
      | edit files => exact .aside r.updateCost (he files rfl) rfl
      | measure cost => exact .aside cost (course.refl _) rfl
      | _ => exact .aside r.updateCost (course.refl _) rfl

theorem Path.strokes {es : List Event} {r r' : Registry} (h : Path r es r')
    (he : ∀ files, .chore (.edit files) ∉ es) : Strokes course r r' := by
  induction h with
  | refl => exact .refl
  | step hact _ ih =>
      have hstroke : Stroke course _ _ := hact.stroke fun files heq =>
        absurd (heq ▸ List.mem_cons_self) (he files)
      exact .head hstroke (ih fun files hmem => he files (List.mem_cons_of_mem _ hmem))

/-- An operation is told in strokes, if an edit leaves the files on their course. -/
theorem Op.strokes {budget : Nat} {o : Op} {r r' : Registry} (h : o.run budget r = some r')
    (he : ∀ files, o = .around (.edit files) → course.later r.world.files files) :
    Strokes course r r' := by
  obtain ⟨es, hpath, htold⟩ := Op.story h
  by_cases hedit : ∃ files, .chore (.edit files) ∈ es
  · obtain ⟨files, hmem⟩ := hedit
    have ho := htold.around hmem rfl
    subst ho
    cases h
    exact .single (Act.stroke (.chore _) fun _ heq => by cases heq; exact he files rfl)
  · exact hpath.strokes fun files hmem => hedit ⟨files, hmem⟩

end Acts

/-! ## The law -/

/-- What is in the caches of a registry, and what loads do. -/
structure CacheLaw (course : Course) (r : Registry) : Prop extends Tended course r where
  /-- Whatever runs from such a cache, while others change the files on their course: each load
  keeps the law, so that it makes no difference how loads would go that do not; and what is cached
  in the end was cached before, or came in since. -/
  loads : ∀ stage : Stage, stage.libraries = r.libraries → ∀ o : Others, o.Along course →
    ∀ load : Loader,
      (∀ run file text pos m, LoadLaw course stage.keeper o stage run file text pos m →
        load stage run file text pos m = o.load stage run file text pos m) →
    ∀ (budget : Nat) {α : Type} (x y : Eval α),
      Woven (o.evaluate o.load stage budget) (o.evaluate load stage budget)
        (resolveWith o.load stage (o.evaluate o.load stage budget))
        (resolveWith load stage (o.evaluate load stage budget)) x y →
      SameKept course stage.keeper x y

section Law

variable {course : Course} {c : HostConfig} {w : World} {r r' : Registry}

theorem Stroke.libraries (h : Stroke course r r') : r'.libraries = r.libraries := by
  cases h <;> rfl

theorem Strokes.tended (h : Strokes course r r') (hr : Tended course r) :
    Tended course r' ∧ r'.libraries = r.libraries := by
  induction h with
  | refl => exact ⟨hr, rfl⟩
  | tail _ hstroke ih => exact ⟨hstroke.tended ih.1, hstroke.libraries.trans ih.2⟩

theorem Tended.start (hw : w.realms = []) : Tended course (Registry.start c w) := by
  obtain ⟨log, images, host, hworld, -⟩ := Registry.start_world c w
  have hrealm (id : InstanceId) : (Registry.start c w).world.realm id = {} := by
    rw [hworld, World.realm, hw]
    rfl
  refine ⟨fun id hid => ?_, fun id => ?_⟩
  · rw [hrealm] at hid
    exact absurd rfl hid
  · rw [hrealm]
    exact vouched_empty _

/-- Whatever a registry goes through, if no library's file has a time again that it had before its
text changed. -/
theorem caches_lawful (hw : w.realms = [])
    (hrenews : course.Renews (Registry.start c w).libraries)
    (h : Strokes course (Registry.start c w) r) : CacheLaw course r := by
  obtain ⟨htended, hlibraries⟩ := Strokes.tended h (.start hw)
  refine ⟨htended, fun stage hl o ho load hload budget _ _ _ hxy => ?_⟩
  exact loads_lawful ho rfl (hl.trans hlibraries ▸ hrenews) hload budget hxy

end Law

/-! ## A change between the question and the reading -/

/-- The course on which the files stay as they are, but for one change from the states of one kind
to a state of another. -/
def Course.change (before : FileTree → Prop) (last : FileTree) (h : ¬ before last) : Course where
  later a b := a = b ∨ before a ∧ b = last
  refl _ := .inl rfl
  trans := by
    rintro a b c (rfl | ⟨ha, rfl⟩) (rfl | ⟨hb, rfl⟩)
    · exact .inl rfl
    · exact .inr ⟨hb, rfl⟩
    · exact .inr ⟨ha, rfl⟩
    · exact absurd hb h

theorem Course.change_renews {before : FileTree → Prop} {last : FileTree} (h : ¬ before last)
    {l : Libraries} (hl : ∀ file ∈ l.files.map Prod.snd, ∀ was, before was →
      was.modified? file ≠ last.modified? file) : (Course.change before last h).Renews l := by
  rintro file hfile was meanwhile now time text hwas hnow htime htime' htext
  rcases hnow with rfl | ⟨hmeanwhile, rfl⟩
  · exact htext
  · rcases hwas with rfl | ⟨-, rfl⟩
    · exact absurd (htime.trans htime'.symm) (hl file hfile was hmeanwhile)
    · exact htext

/-- The file of a library. -/
def changingFile : FilePath := ⟨"scripts/libraries/lib.rhai"⟩

/-- A script that imports the library, which has this text since this time. -/
def changingFiles (text : String) (time : Instant) : FileTree :=
  let libraries : Node := .dir [("lib.rhai", .file text.toUTF8 time)]
  let script : Node := .file "import \"lib\" as lib;".toUTF8 1000
  { root := .dir [("scripts", .dir [("A.rhai", script), ("libraries", libraries)])] }

/-- The world before the library is changed. -/
def changingWorld : World :=
  { (default : World) with files := changingFiles "fn first() \x7b 1 \x7d" 1000 }

/-- The files with another text of the library, at a later time. -/
def changedFiles : FileTree := changingFiles "fn second() \x7b 2 \x7d" 9000

set_option maxRecDepth 100000 in
theorem changedFiles_modified : changedFiles.modified? changingFile = some 9000 := by decide +kernel

/-- The library is changed. -/
def changingCourse : Course :=
  .change (fun files => files.modified? changingFile = some 1000) changedFiles (by
    rw [changedFiles_modified]
    decide)

/-- The time that is recorded of a library, and what it declares. -/
def shown (c : CachedModule) : Option Instant × List String :=
  (c.modified, c.module.functions.map (·.name))

/-- Others who change the library between the question for its time and the reading. -/
def changingOthers : Others where
  files
    | .read, m =>
      if m.world.files.modified? changingFile = some 1000 then changedFiles else m.world.files
    | _, m => m.world.files
  elapsed _ _ := 0

theorem changingOthers_along : changingOthers.Along changingCourse := by
  intro p m
  cases p with
  | job | stat => exact .inl rfl
  | read =>
      dsimp only [changingOthers]
      split
      · rename_i h
        exact .inr ⟨h, rfl⟩
      · exact .inl rfl

set_option maxRecDepth 100000 in
/-- A library is kept with the time that its file had before it was changed, though it was read and
evaluated afterwards. -/
theorem caches_lawful_changing : ∃ (course : Course) (c : HostConfig) (w : World) (r : Registry),
    w.realms = [] ∧ course.Renews (Registry.start c w).libraries ∧
      Strokes course (Registry.start c w) r ∧
      ((r.world.realm 1).cached? changingFile).map shown = some (some 1000, ["second"]) ∧
      r.world.files.modified? changingFile = some 9000 ∧ CacheLaw course r := by
  let c : HostConfig := { scripts := { startup := [] } }
  let start := Registry.start c changingWorld
  let stage := (start.create "A").1.stage start.libraries
  have hindex : start.libraries.files.map Prod.snd = [changingFile] := by decide +kernel
  have hrun : (perform stage (resolveWith changingOthers.load stage
      (changingOthers.evaluate changingOthers.load stage 100) "lib" none) {}
      (start.create "A").2.world).any (fun p =>
        ((p.2.2.realm 1).cached? changingFile).map shown == some (some 1000, ["second"]) &&
          p.2.2.files.modified? changingFile == some 9000) = true := by
    decide +kernel
  obtain ⟨⟨result, frame, w'⟩, hrun, hshows⟩ := (Option.any_eq_true _ _).mp hrun
  obtain ⟨hcached, htime⟩ := Bool.and_eq_true_iff.mp hshows
  have hturn : Turn changingCourse stage (start.create "A").2.world w' :=
    .run changingOthers_along (fun _ _ _ hresolve => hresolve _ _) hrun
  have hstroke : Strokes changingCourse start _ := .single (.join "A" hturn rfl)
  have hrenews : changingCourse.Renews start.libraries := by
    refine Course.change_renews _ fun file hfile was hwas => ?_
    rw [hindex] at hfile
    obtain rfl := List.mem_singleton.mp hfile
    rw [hwas, changedFiles_modified]
    decide
  exact ⟨changingCourse, c, changingWorld, _, rfl, hrenews, hstroke, beq_iff_eq.mp hcached,
    beq_iff_eq.mp htime, caches_lawful rfl hrenews hstroke⟩

/-! ## A time that comes back -/

/-- The files that an operation leaves, if it is to edit them. -/
def Op.edited? : Op → Option FileTree
  | .around (.edit files) => some files
  | _ => none

/-- The states of the files along a history, the first one first. -/
def statesOf (w : World) (past : List (Op × List Event)) : List FileTree :=
  w.files :: (past.map Prod.fst).filterMap Op.edited?

/-- Whenever the text of a library changes, its file gets a time that it never had before. -/
def FreshTimes (l : Libraries) (states : List FileTree) : Prop :=
  ∀ before was now after, states = before ++ was :: now :: after →
    ∀ file ∈ l.files.map Prod.snd, was.readText file ≠ now.readText file →
      ∀ old ∈ before ++ [was], old.modified? file ≠ now.modified? file

/-- The changed library with the time that it had before it was changed. -/
def restoredFiles : FileTree := changingFiles "fn second() \x7b 2 \x7d" 1000

set_option maxRecDepth 100000 in
theorem restored_freshTimes {l : Libraries} (hl : l.files.map Prod.snd = [changingFile]) :
    FreshTimes l [changingWorld.files, changedFiles, restoredFiles] := by
  have hchanged :
      changingWorld.files.modified? changingFile ≠ changedFiles.modified? changingFile := by
    decide +kernel
  have hrestored : changedFiles.readText changingFile = restoredFiles.readText changingFile := by
    decide +kernel
  intro before was now after hstates file hfile htext old hold
  rw [hl] at hfile
  obtain rfl := List.mem_singleton.mp hfile
  match before, hstates with
  | [], h =>
      cases h
      rw [List.mem_singleton.mp hold]
      exact hchanged
  | [_], h =>
      cases h
      exact absurd hrestored htext
  | [_, _], h => cases h
  | _ :: _ :: _ :: _, h => simp at h

set_option maxRecDepth 100000 in
/-- A library is changed and gets a new time, and then its old time is put back without a change of
its text: what is cached was evaluated from the text before, at the time that the file has. -/
theorem restored_time_served : ¬ ∀ (c : HostConfig) (w : World) (past : List (Op × List Event))
    (r : Registry), w.realms = [] → Annals c w past r →
      FreshTimes (Registry.start c w).libraries (statesOf w past) →
      ∀ i ∈ r.instances, ∀ file ∈ r.libraries.files.map Prod.snd, ∀ cached time,
        (r.world.realm i.id).cached? file = some cached → cached.modified = some time →
        r.world.files.modified? file = some time →
          ∃ text script run m m', r.world.files.readText file = .ok text ∧
            Script.parse text = .ok script ∧
            evaluateLibrary run (script.prune []).unlinked m = some (.ok cached.module, m') := by
  intro hall
  let c : HostConfig := { scripts := { startup := [] } }
  let ops : List Op := [.add "A", .around (.edit changedFiles), .around (.edit restoredFiles)]
  have hindex : (Registry.start c changingWorld).libraries.files.map Prod.snd = [changingFile] := by
    decide +kernel
  have hrun : (Op.runAll 1000 (.start c changingWorld) ops).any (fun r =>
      r.instances.map Instance.id == [1] &&
        ((r.world.realm 1).cached? changingFile).map shown == some (some 1000, ["first"]) &&
        r.world.files.modified? changingFile == some 1000 &&
        declared r.world.files changingFile == some ["second"]) = true := by
    decide +kernel
  obtain ⟨r, hr, hshows⟩ := (Option.any_eq_true _ _).mp hrun
  simp only [Bool.and_eq_true, beq_iff_eq] at hshows
  obtain ⟨⟨⟨hids, hcached⟩, htime⟩, hdeclared⟩ := hshows
  obtain ⟨past, hops, h⟩ := Annals.start.all hr
  obtain ⟨i, hi, hid⟩ := List.mem_map.mp (hids ▸ List.mem_singleton_self 1 : 1 ∈ r.instances.map _)
  obtain ⟨cached, hcached, hshown⟩ := Option.map_eq_some_iff.mp hcached
  obtain ⟨hmodified, hnames⟩ := Prod.mk.inj hshown
  have hstates : statesOf changingWorld past =
      [changingWorld.files, changedFiles, restoredFiles] := by
    rw [statesOf, hops]
    rfl
  have hlibraries : r.libraries = (Registry.start c changingWorld).libraries := h.path.fixed.2
  obtain ⟨text, script, run, m, m', htext, hparse, heval⟩ :=
    hall c changingWorld past r rfl h (hstates ▸ restored_freshTimes hindex) i hi changingFile
      (by rw [hlibraries, hindex]; exact List.mem_singleton_self _) cached 1000 (hid ▸ hcached)
      hmodified htime
  have hsecond := declared_of_evaluateLibrary htext hparse heval
  rw [hdeclared, hnames] at hsecond
  exact absurd hsecond (by decide)

end Stagehand
