import Stagehand.Proofs.Interference

/-!
# What is cached while files change

A library is kept with the time that its file had before it was read, and the file may have changed
in between. So what is cached was evaluated from a text that the file had at that time or later
(`CameIn`), and if no file ever has a time again that it had before its text changed, a library that
is found in the cache was evaluated from the text of now (`LoadLaw.hit`).

`Kept` says what a run leaves of a cache, and it is this that is carried through all that scripts do
(`loads_lawful`): what became of a cached library is that it still is cached, or that another came
in by a load that succeeded.
-/

namespace Stagehand

open Lang

/-! ## The course of the files -/

/-- Which states of the files can come after which. -/
structure Course where
  later : FileTree → FileTree → Prop
  refl : ∀ files, later files files
  trans : ∀ {first then' last}, later first then' → later then' last → later first last

/-- A library whose file has the time that it had has the text that it had since. -/
def Course.Renews (course : Course) (l : Libraries) : Prop :=
  ∀ file ∈ l.files.map Prod.snd, ∀ {was meanwhile now : FileTree} {time : Instant} {text : String},
    course.later was meanwhile → course.later meanwhile now → was.modified? file = some time →
      now.modified? file = some time → meanwhile.readText file = .ok text →
        now.readText file = .ok text

/-- What others leave can come after what was before. -/
def Lang.Others.Along (o : Others) (course : Course) : Prop :=
  ∀ p m, course.later m.world.files (o.files p m)

/-- For whom libraries are evaluated, and by which index. -/
structure Keeper where
  owner : InstanceId
  libraries : Libraries

/-- For whom the code of a stage is run. -/
def Lang.Stage.keeper (stage : Stage) : Keeper := ⟨stage.owner.id, stage.libraries⟩

section Evidence

variable (course : Course) (k : Keeper)

/-- The module came of this text, evaluated for the keeper. -/
inductive EvaluatedFrom (text : String) (module : Module) : Prop
  | intro {o : Others} {stage : Stage} {budget : Nat} {script : Script} {m m' : Machine}
      (ho : o.Along course) (hk : stage.keeper = k) (hparse : Script.parse text = .ok script)
      (hrun : evaluateLibrary (o.evaluate o.load stage budget) (script.prune []).unlinked m =
        some (.ok module, m'))

/-- The library came into the cache while the files went from the first state to the last: its file
had the time that is recorded, and then or later the text that the module came of. -/
inductive CameIn (first last : FileTree) (file : FilePath) (c : CachedModule) : Prop
  | intro {stat read : FileTree} {text : String} (hfirst : course.later first stat)
      (hread : course.later stat read) (hlast : course.later read last)
      (htime : stat.modified? file = c.modified) (htext : read.readText file = .ok text)
      (hmodule : EvaluatedFrom course k text c.module)

/-- Every library in the cache came in. -/
def Vouched (files : FileTree) (realm : Realm) : Prop :=
  ∀ file c, realm.cached? file = some c → ∃ first, CameIn course k first files file c

/-- What a run keeps of the cache: every library, unless another came in for it. -/
structure Kept (m m' : Machine) : Prop where
  files : course.later m.world.files m'.world.files
  realms : m'.world.realms = m.world.realms
  cache : ∀ file, m'.realm.cached? file = m.realm.cached? file ∨
    ∃ c, m'.realm.cached? file = some c ∧ CameIn course k m.world.files m'.world.files file c

/-- What a load of a library does, its file being asked for its time after the first pause and read
after the second. -/
structure LoadLaw (o : Others) (stage : Stage) (run : Run) (file : FilePath) (text : String)
    (pos : Place) (m : Machine) : Prop where
  /-- A file that has the recorded time gives the very module that is cached, and nothing is run.
  The module came of the text that the file had when it was asked. -/
  hit : ∀ c time, m.realm.cached? file = some c → c.modified = some time →
    (o.after .stat m).world.files.modified? file = some time →
      o.load stage run file text pos m = some (.ok c.module, o.after .read (o.after .stat m)) ∧
        ∃ source, (o.after .stat m).world.files.readText file = .ok source ∧
          EvaluatedFrom course k source c.module
  /-- A file that has another time is read and evaluated. -/
  miss : (∀ c, m.realm.cached? file = some c →
      c.modified ≠ (o.after .stat m).world.files.modified? file) →
    o.load stage run file text pos m = (readLibrary run file (o.after .read (o.after .stat m))).map
      (afterRead stage file ((o.after .stat m).world.files.modified? file) text pos)
  /-- A load that fails leaves what is cached, unless a load inside it succeeded. -/
  failed : ∀ halt m', o.load stage run file text pos m = some (.error halt, m') → Kept course k m m'

end Evidence

variable {course : Course} {k : Keeper}

theorem CameIn.widen {first first' last last' : FileTree} {file : FilePath} {c : CachedModule}
    (h : CameIn course k first last file c) (hfirst : course.later first' first)
    (hlast : course.later last last') : CameIn course k first' last' file c := by
  obtain ⟨hstat, hread, hend, htime, htext, hmodule⟩ := h
  exact ⟨course.trans hfirst hstat, hread, course.trans hend hlast, htime, htext, hmodule⟩

theorem vouched_empty (files : FileTree) : Vouched course k files {} := by
  intro file c hc
  have hnone : none = some c := hc
  cases hnone

namespace Kept

variable {m m' m'' : Machine}

theorem of_cached (hfiles : course.later m.world.files m'.world.files)
    (hrealms : m'.world.realms = m.world.realms) (hmodules : m'.realm.modules = m.realm.modules) :
    Kept course k m m' :=
  ⟨hfiles, hrealms, fun _ => .inl (by rw [Realm.cached?, Realm.cached?, hmodules])⟩

theorem trans (h : Kept course k m m') (h' : Kept course k m' m'') : Kept course k m m'' where
  files := course.trans h.files h'.files
  realms := h'.realms.trans h.realms
  cache file := by
    rcases h'.cache file with hsame' | ⟨c, hc, hin⟩
    · rcases h.cache file with hsame | ⟨c, hc, hin⟩
      · exact .inl (hsame'.trans hsame)
      · exact .inr ⟨c, hsame'.trans hc, hin.widen (course.refl _) h'.files⟩
    · exact .inr ⟨c, hc, hin.widen h.files (course.refl _)⟩

/-- Every library in the cache still came in. -/
theorem vouched (h : Kept course k m m') (hm : Vouched course k m.world.files m.realm) :
    Vouched course k m'.world.files m'.realm := by
  intro file c hc
  rcases h.cache file with hsame | ⟨c', hc', hin⟩
  · obtain ⟨first, hin⟩ := hm file c (hsame ▸ hc)
    exact ⟨first, hin.widen (course.refl _) h.files⟩
  · cases hc.symm.trans hc'
    exact ⟨_, hin⟩

end Kept

/-- The runs are the same from a cache in which everything came in, and keep what is cached. -/
abbrev SameKept (course : Course) (k : Keeper) {α : Type} (x y : Eval α) : Prop :=
  Same (fun m => Vouched course k m.world.files m.realm) (Kept course k) x y

theorem sameKept_congruence : Congruence (SameKept course k) :=
  .same (fun _ h => .of_cached (h.files ▸ course.refl _) h.realms h.modules) .trans
    fun hm h => h.vouched hm

/-! ## Loads -/

theorem readLibrary_cases {run : Run} {file : FilePath} {module : Module} {m m' : Machine}
    (h : readLibrary run file m = some (.ok module, m')) :
    ∃ text script, m.world.files.readText file = .ok text ∧ Script.parse text = .ok script ∧
      evaluateLibrary run (script.prune []).unlinked m = some (.ok module, m') := by
  rw [readLibrary, Eval.get_bind] at h
  cases htext : m.world.files.readText file with
  | error e =>
      rw [htext] at h
      cases h
  | ok text =>
      rw [htext] at h
      dsimp only at h
      cases hparse : Script.parse text with
      | error e =>
          rw [hparse] at h
          cases h
      | ok script =>
          rw [hparse] at h
          exact ⟨text, script, rfl, hparse, h⟩

section Loading

variable {o : Others} (ho : o.Along course) {stage : Stage} (hk : stage.keeper = k)
include ho

theorem Kept.after (p : Pause) (m : Machine) : Kept course k m (o.after p m) :=
  .of_cached (ho p m) rfl rfl

theorem pause_kept (p : Pause) : SameKept course k (modify (o.after p)) (modify (o.after p)) := by
  refine fun m _ => ⟨rfl, fun r m' h => ?_⟩
  cases h
  exact .after ho p m

include hk

/-- A library that was read comes into the cache. -/
theorem Kept.afterRead {budget : Nat} {file : FilePath} {m m₁ m₂ m₃ : Machine}
    {r : Except Halt Module} (h₁ : Kept course k m m₁) (h₂ : Kept course k m₁ m₂)
    (h₃ : Kept course k m₂ m₃) (text : String) (pos : Place)
    (hread : readLibrary (o.evaluate o.load stage budget) file m₂ = some (r, m₃)) :
    Kept course k m
      (Lang.afterRead stage file (m₁.world.files.modified? file) text pos (r, m₃)).2 := by
  have h := (h₁.trans h₂).trans h₃
  cases r with
  | error halt => cases halt <;> exact h
  | ok module =>
      obtain ⟨source, script, hsource, hparse, hrun⟩ := readLibrary_cases hread
      refine ⟨h.files, h.realms, fun other => ?_⟩
      by_cases hother : other = file
      · subst hother
        refine .inr ⟨_, m₃.realm.cached?_keep _ _, ?_⟩
        exact ⟨h₁.files, h₂.files, h₃.files, rfl, hsource, ho, hk, hparse, hrun⟩
      · have hsame := m₃.realm.cached?_keep_of_ne ⟨m₁.world.files.modified? file, module⟩ hother
        exact (h.cache other).imp hsame.trans fun ⟨c, hc, hin⟩ => ⟨c, hsame.trans hc, hin⟩


/-- Loads differ no more than the jobs inside them. -/
theorem load_same {budget : Nat} {run : Run}
    (hrun : ∀ job, SameKept course k (o.evaluate o.load stage budget job) (run job))
    (file : FilePath) (text : String) (pos : Place) :
    SameKept course k (o.load stage (o.evaluate o.load stage budget) file text pos)
      (o.load stage run file text pos) := by
  intro m hm
  let m₁ := o.after .stat m
  let m₂ := o.after .read m₁
  have h₁ : Kept course k m m₁ := .after ho .stat m
  have h₂ : Kept course k m₁ m₂ := .after ho .read m₁
  have hread := sameKept_congruence.readLibrary hrun file m₂ ((h₁.trans h₂).vouched hm)
  rw [Others.load_apply, Others.load_apply]
  cases hserved : m₂.realm.served? file (m₁.world.files.modified? file) with
  | some module =>
      rw [fetchLibrary_served hserved, fetchLibrary_served hserved]
      refine ⟨rfl, fun r m' h => ?_⟩
      cases h
      exact h₁.trans h₂
  | none =>
      rw [fetchLibrary_unserved hserved, fetchLibrary_unserved hserved]
      refine ⟨congrArg (Option.map _) hread.1, fun r m' h => ?_⟩
      obtain ⟨⟨r₃, m₃⟩, h₃, h⟩ := Option.map_eq_some_iff.mp h
      have hkept := Kept.afterRead ho hk h₁ h₂ (hread.2 r₃ m₃ h₃) text pos h₃
      rw [h] at hkept
      exact hkept

theorem jobs_kept : ∀ budget job, SameKept course k (o.evaluate o.load stage budget job)
    (o.evaluate o.load stage budget job) := by
  exact sameKept_congruence.interrupted (pause_kept ho .job) fun budget hrun file _ =>
    load_same ho hk hrun file

variable (hrenews : course.Renews stage.libraries)
include hrenews

/-- Every load from a cache in which everything came in keeps the law. -/
theorem load_lawful {budget : Nat} {run : Run}
    (hrun : ∀ job, SameKept course k (o.evaluate o.load stage budget job) (run job))
    {file : FilePath} (hfile : file ∈ stage.libraries.files.map Prod.snd) (text : String)
    (pos : Place) {m : Machine} (hm : Vouched course k m.world.files m.realm) :
    LoadLaw course k o stage run file text pos m where
  hit c time hc htime hstat := by
    constructor
    · rw [Others.load_apply, hstat]
      exact fetchLibrary_served (htime ▸ Realm.served?_of_cached hc)
    · obtain ⟨first, hfirst, hread, hlast, hrecorded, htext, hmodule⟩ := hm file c hc
      have hnow := hrenews file hfile hread (course.trans hlast (ho .stat m))
        (hrecorded.trans htime) hstat htext
      exact ⟨_, hnow, hmodule⟩
  miss hother := by
    rw [Others.load_apply]
    exact fetchLibrary_unserved (Realm.served?_eq_none.mpr hother)
  failed halt m' h := by
    obtain ⟨hsame, hkept⟩ := load_same ho hk hrun file text pos m hm
    exact hkept _ m' (hsame.trans h)

/-- All loads in the course of a run keep the law: however a load went that breaks it, the run would
come to the same. And what is cached is kept. -/
theorem loads_lawful {load : Loader}
    (hload : ∀ run file text pos m, LoadLaw course k o stage run file text pos m →
      load stage run file text pos m = o.load stage run file text pos m) (budget : Nat) {α : Type}
    {x y : Eval α}
    (hxy : Woven (o.evaluate o.load stage budget) (o.evaluate load stage budget)
      (resolveWith o.load stage (o.evaluate o.load stage budget))
      (resolveWith load stage (o.evaluate load stage budget)) x y) : SameKept course k x y := by
  have hloads (budget : Nat) (hrun : ∀ job, SameKept course k (o.evaluate o.load stage budget job)
      (o.evaluate load stage budget job)) (file : FilePath)
      (hfile : file ∈ stage.libraries.files.map Prod.snd) (text : String) (pos : Place) :
      SameKept course k (o.load stage (o.evaluate o.load stage budget) file text pos)
        (load stage (o.evaluate load stage budget) file text pos) := by
    intro m hm
    obtain ⟨hsame, hkept⟩ := load_same ho hk hrun file text pos m hm
    have hlaw := load_lawful ho hk hrenews hrun hfile text pos hm
    exact ⟨hsame.trans (hload _ file text pos m hlaw).symm, hkept⟩
  have hjobs := sameKept_congruence.interrupted (pause_kept ho .job) hloads budget
  exact hxy _ sameKept_congruence hjobs (sameKept_congruence.resolveWith (hloads budget hjobs))

end Loading
end Stagehand
