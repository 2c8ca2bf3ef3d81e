import Stagehand.Proofs.Confinement

/-!
# Fresh libraries

A library that was evaluated for an instance is used again as long as its file has the time of
change that it had then. What that is worth is said by `Current`: the module was evaluated from the
text that the file has now, and every library that its top level imported was current at that time.
It need not be current now, since nobody looks at the file of an imported library when the importing
one is found in the cache (`nested_library_stale`).

`Built.keeps` carries this through all that scripts do: it says what a run keeps of the cache
(`Shelf.Honest`) and of the libraries in sight, so that what an import yields is current when it is
resolved. From the bindings it is taken to every history of a registry in which each edit of a
library gives it a new time (`hot_reload_lawful`).
-/

namespace Stagehand

open Lang

/-! ## Current modules -/

/-- For whom libraries are evaluated, by which index, and the states that the files have been in. -/
structure Shelf where
  owner : InstanceId
  libraries : Libraries
  trees : FileTree → Prop

mutual

/-- The module is what the file holds now: it was evaluated for the owner from the very text, at a
time of change that the file still has, and all libraries that its top level imported were current
in the files of then. -/
inductive Current (s : Shelf) : FileTree → FilePath → Module → Prop
  | evaluated {now : FileTree} {file : FilePath} {text : String} {script : Script} {stage : Stage}
      {budget : Nat} {m m' : Machine} {module : Module}
      (hfile : file ∈ s.libraries.files.map Prod.snd) (hnow : now.readText file = .ok text)
      (howner : stage.owner.id = s.owner) (hlibraries : stage.libraries = s.libraries)
      (htree : s.trees m.world.files)
      (htime : m.world.files.modified? file = now.modified? file)
      (hthen : m.world.files.readText file = .ok text) (hparse : Script.parse text = .ok script)
      (heval : evaluateLibrary (evaluate stage budget) (script.prune []).unlinked m =
        some (.ok module, m'))
      (himports : AllCurrent s m.world.files module.imports) : Current s now file module

/-- Each of the modules is that of some library, and current. -/
inductive AllCurrent (s : Shelf) : FileTree → List (String × Module) → Prop
  | nil {now : FileTree} : AllCurrent s now []
  | cons {now : FileTree} {file : FilePath} {name : String} {module : Module}
      {rest : List (String × Module)} (h : Current s now file module)
      (hrest : AllCurrent s now rest) : AllCurrent s now ((name, module) :: rest)

end

theorem allCurrent_of_forall {s : Shelf} {now : FileTree} : ∀ {imports : List (String × Module)},
    (∀ entry ∈ imports, ∃ file, Current s now file entry.2) → AllCurrent s now imports
  | [], _ => .nil
  | (_, _) :: _, h =>
    let ⟨⟨_, hcurrent⟩, hrest⟩ := List.forall_mem_cons.mp h
    .cons hcurrent (allCurrent_of_forall hrest)

/-- A library that has the same time of change twice has the same text. -/
def Libraries.Dated (l : Libraries) (trees : FileTree → Prop) : Prop :=
  ∀ was now, trees was → trees now → ∀ entry ∈ l.files,
    was.modified? entry.2 = now.modified? entry.2 →
      ∀ text, was.readText entry.2 = .ok text → now.readText entry.2 = .ok text

/-- What is in the cache was current when its file had the time that is noted there. -/
def Shelf.Honest (s : Shelf) (cache : List (FilePath × CachedModule)) : Prop :=
  ∀ entry ∈ cache, ∃ was, s.trees was ∧ was.modified? entry.1 = entry.2.modified ∧
    Current s was entry.1 entry.2.module

/-- While a file keeps its time, its module stays current. -/
theorem Current.carry {s : Shelf} (hs : s.libraries.Dated s.trees) {was now : FileTree}
    (hwas : s.trees was) (hnow : s.trees now) {entry : String × FilePath}
    (hentry : entry ∈ s.libraries.files) {module : Module} (h : Current s was entry.2 module)
    (htime : was.modified? entry.2 = now.modified? entry.2) : Current s now entry.2 module := by
  cases h with
  | evaluated hfile htext howner hlibraries htree hthen hread hparse heval himports =>
      have hnow' := hs was now hwas hnow entry hentry htime _ htext
      exact .evaluated hfile hnow' howner hlibraries htree (hthen.trans htime) hread hparse heval
        himports

/-! ## What runs keep -/

/-- The files are these, the cache is honest, and the libraries in sight are of a kind. -/
structure Sound (s : Shelf) (files : FileTree) (S : Module → Prop) (m : Machine) : Prop where
  files : m.world.files = files
  cache : s.Honest m.realm.modules
  imports : ∀ entry ∈ m.frame.imports, S entry.2
  kept : ∀ entry ∈ m.frame.kept, S entry.2

/-- The run leaves a sound machine sound, and what it yields is as said. -/
def Keeps (s : Shelf) (files : FileTree) (S : Module → Prop) {α : Type} (x : Eval α)
    (Q : α → Prop) : Prop :=
  ∀ m r m', Sound s files S m → x m = some (r, m') →
    Sound s files S m' ∧ ∀ a, r = .ok a → Q a

namespace Keeps

variable {s : Shelf} {files : FileTree} {S T : Module → Prop} {α β : Type}

theorem pure {a : α} {Q : α → Prop} (ha : Q a) : Keeps s files S (Pure.pure a) Q := by
  intro m r m' hm h
  cases h
  refine ⟨hm, fun b hb => ?_⟩
  cases hb
  exact ha

theorem throw {halt : Halt} {Q : α → Prop} : Keeps s files S (MonadExcept.throw halt) Q := by
  intro m r m' hm h
  cases h
  exact ⟨hm, nofun⟩

theorem bind {x : Eval α} {f : α → Eval β} {Q : α → Prop} {Q' : β → Prop}
    (hx : Keeps s files S x Q) (hf : ∀ a, Q a → Keeps s files S (f a) Q') :
    Keeps s files S (x >>= f) Q' := by
  intro m r m' hm h
  obtain ⟨⟨r₁, m₁⟩, h₁, h⟩ := Option.bind_eq_some_iff.mp h
  obtain ⟨hm₁, hr₁⟩ := hx m r₁ m₁ hm h₁
  cases r₁ with
  | ok a => exact hf a (hr₁ a rfl) m₁ r m' hm₁ h
  | error halt =>
      cases h
      exact ⟨hm₁, nofun⟩

theorem attempt {x : Eval α} {Q : α → Prop} (hx : Keeps s files S x Q) :
    Keeps s files S (Eval.attempt x) fun r => ∀ a, r = .ok a → Q a := by
  intro m r m' hm h
  obtain ⟨⟨r₁, m₁⟩, h₁, h⟩ := Option.bind_eq_some_iff.mp h
  cases h
  obtain ⟨hm₁, hr₁⟩ := hx m r₁ m' hm h₁
  refine ⟨hm₁, fun r hr => ?_⟩
  cases hr
  exact hr₁

theorem look {f : Machine → Eval α} {Q : α → Prop}
    (hf : ∀ m, Sound s files S m → Keeps s files S (f m) Q) : Keeps s files S (get >>= f) Q :=
  fun m r m' hm h => hf m hm m r m' hm h

theorem imp {x : Eval α} {Q Q' : α → Prop} (hx : Keeps s files S x Q) (h : ∀ a, Q a → Q' a) :
    Keeps s files S x Q' := fun m r m' hm hrun =>
  ⟨(hx m r m' hm hrun).1, fun a ha => h a ((hx m r m' hm hrun).2 a ha)⟩

/-- A change of the machine that is always possible. -/
theorem of_change {x : Eval Unit} {g : Machine → Machine} (hx : ∀ m, x m = some (.ok (), g m))
    (hg : ∀ m, Sound s files S m → Sound s files S (g m)) :
    Keeps s files S x fun _ => True := by
  intro m r m' hm h
  rw [hx m] at h
  cases h
  exact ⟨hg m hm, fun _ _ => trivial⟩

/-- Another frame, with libraries of another kind in sight, is left for the one from before. -/
theorem apart {g : Frame → Frame} {x : Eval α} {k : Frame → Except Halt α → Eval β}
    {Q : α → Prop} {Q' : β → Prop}
    (hg : ∀ m, Sound s files S m → Sound s files T { m with frame := g m.frame })
    (hx : Keeps s files T x Q)
    (hk : ∀ m r, Sound s files T m → (∀ a, r = .ok a → Q a) → Keeps s files S (k m.frame r) Q') :
    Keeps s files S (Eval.apart g x k) Q' := by
  intro m r m' hm h
  obtain ⟨⟨r₁, m₁⟩, h₁, h⟩ := Option.bind_eq_some_iff.mp h
  obtain ⟨⟨r₂, m₂⟩, h₂, h₁⟩ := Option.bind_eq_some_iff.mp h₁
  cases h₁
  obtain ⟨hm₁, hr₂⟩ := hx _ r₂ m₁ (hg m hm) h₂
  exact hk m₁ r₂ hm₁ hr₂ { m₁ with frame := m.frame } r m'
    ⟨hm₁.files, hm₁.cache, hm.imports, hm.kept⟩ h

/-- No effect touches the files. -/
theorem effect (e : Effect) : Keeps s files S (Eval.modifyWorld e.apply) fun _ => True :=
  of_change (g := fun m => { m with world := e.apply m.world }) (fun _ => rfl) fun m hm =>
    ⟨(e.apply_files m.world).trans hm.files, hm.cache, hm.imports, hm.kept⟩

/-- A module that is current now can be kept under the time that its file has now. -/
theorem keepModule (htree : s.trees files) {file : FilePath} {module : Module}
    (hmodule : Current s files file module) :
    Keeps s files S (Lang.keepModule file (files.modified? file) module) fun _ => True := by
  refine of_change (fun _ => rfl) fun m hm =>
    ⟨hm.files, fun entry hentry => ?_, hm.imports, hm.kept⟩
  rcases List.mem_cons.mp hentry with rfl | hentry
  · exact ⟨files, htree, rfl, hmodule⟩
  · exact hm.cache entry (List.mem_filter.mp hentry).1

end Keeps

/-! ## Imports -/

section Imports

variable {s : Shelf} {files : FileTree} {S : Module → Prop} {stage : Stage} {budget : Nat}

/-- What the top level of a library leaves in sight is what it imported itself. -/
theorem keeps_evaluateLibrary {script : Script}
    (hbody : Keeps s files (fun module => ∃ file, Current s files file module)
      (evaluate stage budget (.stmts script.body)) fun _ => True) :
    Keeps s files S (evaluateLibrary (evaluate stage budget) script)
      fun module => AllCurrent s files module.imports := by
  rw [evaluateLibrary_eq]
  refine .apart (fun m hm => ⟨hm.files, hm.cache, nofun, nofun⟩) hbody fun m r hm _ => ?_
  have himports : AllCurrent s files (moduleOf script m.frame).imports :=
    allCurrent_of_forall hm.imports
  unfold moduleFrom
  split
  · exact .pure himports
  · exact .pure himports
  · exact .pure himports
  · exact .throw

variable (hs : s.libraries.Dated s.trees) (htree : s.trees files)
  (howner : stage.owner.id = s.owner) (hlibraries : stage.libraries = s.libraries)
  (hbody : ∀ body, Keeps s files (fun module => ∃ file, Current s files file module)
    (evaluate stage budget (.stmts body)) fun _ => True)

include htree howner hlibraries hbody in
theorem keeps_readLibrary {file : FilePath} (hfile : file ∈ s.libraries.files.map Prod.snd) :
    Keeps s files S (readLibrary (evaluate stage budget) file) (Current s files file) := by
  refine .look fun m₀ hm₀ => ?_
  rw [hm₀.files]
  split
  · exact .throw
  · rename_i text htext
    split
    · exact .throw
    · rename_i script hparse
      intro m r m' hm h
      obtain ⟨hm', himports⟩ := keeps_evaluateLibrary (hbody _) m r m' hm h
      refine ⟨hm', fun module hmodule => ?_⟩
      subst hmodule
      have hfiles := hm.files
      subst hfiles
      exact .evaluated hfile htext howner hlibraries htree rfl htext hparse h (himports module rfl)

include hs htree howner hlibraries hbody in
/-- Whether a library is found in the cache or read, it is current. -/
theorem keeps_loadLibrary {entry : String × FilePath} (hentry : entry ∈ s.libraries.files)
    {text : String} {pos : Place} :
    Keeps s files S (loadLibrary stage (evaluate stage budget) entry.2 text pos)
      (Current s files entry.2) := by
  have fresh : Keeps s files S
      (readAnew stage (evaluate stage budget) entry.2 (files.modified? entry.2) text pos)
      (Current s files entry.2) := by
    have hread : Keeps s files S
        (inModule text pos (readLibrary (evaluate stage budget) entry.2))
        (Current s files entry.2) := by
      refine (keeps_readLibrary htree howner hlibraries hbody
        (List.mem_map_of_mem hentry)).attempt.bind fun r hr => ?_
      split
      · exact .pure (hr _ rfl)
      · exact .throw
      · exact .throw
    refine hread.bind fun module hmodule => (Keeps.effect (.record _)).bind fun _ _ => ?_
    exact (Keeps.keepModule htree hmodule).bind fun _ _ => .pure hmodule
  refine .look fun m₀ hm₀ => ?_
  rw [hm₀.files]
  rw [fetchLibrary_eq]
  refine .look fun m hm => ?_
  split
  · rename_i cached hcached
    obtain ⟨was, hwas, htime, hcurrent⟩ := hm.cache _ (Realm.mem_of_cached? hcached)
    split
    · rename_i hsame
      exact .pure (hcurrent.carry hs hwas htree hentry (htime.trans hsame))
    · exact fresh
  · exact fresh

/-- What an import brings is current, in a file that its text names. -/
def Fetched (s : Shelf) (files : FileTree) (text : String) (module : Module) : Prop :=
  ∃ file, s.libraries.path? text = some file ∧ Current s files file module

include hs htree howner hlibraries hbody in
theorem keeps_resolveLibrary {text : String} {pos : Place} :
    Keeps s files S (resolveLibrary stage (evaluate stage budget) text pos)
      (Fetched s files text) := by
  unfold resolveLibrary
  rw [hlibraries]
  split
  · rename_i file hfile
    exact (keeps_loadLibrary hs htree howner hlibraries hbody
      (Libraries.mem_of_path? hfile)).imp fun _ h => ⟨file, hfile, h⟩
  · exact .throw

include hs htree howner hlibraries hbody in
/-- What an import brings in sight is kept with the script, or current. -/
theorem keeps_bringLibrary (hS : ∀ file module, Current s files file module → S module)
    {text : String} {pos : Place} {name : Option String} :
    Keeps s files S (bringLibrary stage (evaluate stage budget) text pos name) fun _ => True := by
  have himport : Keeps s files S (importLibrary stage (evaluate stage budget) text pos) S := by
    refine .look fun m hm => ?_
    split
    · rename_i module hfind
      obtain ⟨entry, hentry, rfl⟩ := Module.mem_of_find? hfind
      exact .pure (hm.kept entry hentry)
    · refine (keeps_resolveLibrary hs htree howner hlibraries hbody).imp fun module h => ?_
      obtain ⟨file, -, hcurrent⟩ := h
      exact hS file module hcurrent
  refine himport.bind fun module hmodule => ?_
  cases name with
  | none => exact .pure trivial
  | some name =>
      intro m r m' hm h
      cases h
      exact ⟨⟨hm.files, hm.cache, List.forall_mem_cons.mpr ⟨hmodule, hm.imports⟩, hm.kept⟩,
        fun _ _ => trivial⟩

end Imports

/-- Whatever scripts do leaves the cache honest, and brings current libraries in sight, or such as
were in sight before. -/
theorem Lang.Built.keeps {s : Shelf} {files : FileTree} {stage : Stage}
    (hs : s.libraries.Dated s.trees) (htree : s.trees files) (howner : stage.owner.id = s.owner)
    (hlibraries : stage.libraries = s.libraries) {α : Type} [Leafy α] {x : Eval α}
    (h : Built (fun _ => True) stage x) : ∀ {S : Module → Prop},
      (∀ file module, Current s files file module → S module) →
        Keeps s files S x fun _ => True := by
  have hcurrent : ∀ file module, Current s files file module →
      ∃ file, Current s files file module := fun file _ h => ⟨file, h⟩
  induction h with
  | endless => exact fun _ _ _ _ _ h => nomatch h
  | pure _ => exact fun _ => .pure trivial
  | throw _ => exact fun _ => .throw
  | bind _ _ hx hf => exact fun hS => (hx hS).bind fun a _ => hf a (within_everything a) hS
  | attempt _ hx => exact fun hS => (hx hS).attempt.imp fun _ _ => trivial
  | look _ _ hf => exact fun hS => .look fun m _ => hf m (m.confined_everything) hS
  | modifyFrame _ inherits =>
      intro S _
      refine .of_change (fun _ => rfl) fun m hm =>
        ⟨hm.files, hm.cache, fun e he => ?_, fun e he => ?_⟩
      · exact hm.imports e ((inherits m.frame).imports e he)
      · exact hm.kept e ((inherits m.frame).kept e he)
  | apart _ _ _ hx hk =>
      intro S hS
      -- inside, any library may be in sight; behind it those from before are
      refine .apart (T := fun _ => True) (fun m hm => ?_) (hx fun _ _ _ => trivial)
        fun m r _ _ => hk m.frame r (within_everything _) (within_everything r) hS
      exact ⟨hm.files, hm.cache, fun _ _ => trivial, fun _ _ => trivial⟩
  | effect e _ => exact fun _ => .effect e
  | @ask _ _ f e _ _ hw _ =>
      intro S _ m r m' hm h
      cases h
      refine ⟨⟨?_, hm.cache, hm.imports, hm.kept⟩, fun _ _ => trivial⟩
      rw [hw, e.apply_files, hm.files]
  | setCell _ _ =>
      intro S _
      exact .of_change (fun _ => rfl) fun m hm => ⟨hm.files, hm.cache, hm.imports, hm.kept⟩
  | @newCell _ _ held _ _ _ hf =>
      intro S hS m r m' hm h
      exact hf m.realm.heap.size trivial hS
        { m with realm := { m.realm with heap := m.realm.heap.push held } } r m'
        ⟨hm.files, hm.cache, hm.imports, hm.kept⟩ h
  | load hentry _ _ hbody _ =>
      intro S _
      exact (keeps_loadLibrary hs htree howner hlibraries (fun body => hbody body hcurrent)
        (hlibraries ▸ hentry)).imp fun _ _ => trivial
  | bring _ _ hbody _ =>
      intro S hS
      exact keeps_bringLibrary hs htree howner hlibraries (fun body => hbody body hcurrent) hS

/-! ## Loading and calling -/

section Runs

variable {s : Shelf} {files : FileTree} {w w' : World}

/-- A run for the owner keeps the cache in its realm honest. -/
theorem perform_keeps {stage : Stage} {α : Type} {x : Eval α} {frame frame' : Frame}
    {r : Except Halt α} {Q : α → Prop} (hx : Keeps s files (fun _ => True) x Q)
    (howner : stage.owner.id = s.owner) (hfiles : w.files = files)
    (hcache : s.Honest (w.realm s.owner).modules)
    (h : perform stage x frame w = some (r, frame', w')) :
    w'.files = files ∧ s.Honest (w'.realm s.owner).modules ∧ ∀ a, r = .ok a → Q a := by
  obtain ⟨⟨r₁, m⟩, hrun, h⟩ := Option.bind_eq_some_iff.mp h
  cases h
  obtain ⟨hm, hr⟩ := hx ⟨w, w.realm stage.owner.id, frame⟩ r m
    ⟨hfiles, howner ▸ hcache, fun _ _ => trivial, fun _ _ => trivial⟩ hrun
  refine ⟨hm.files, ?_, hr⟩
  rw [howner, World.realm_setRealm]
  exact hm.cache

variable (stage : Stage) (hs : s.libraries.Dated s.trees) (htree : s.trees files)
  (howner : stage.owner.id = s.owner) (hlibraries : stage.libraries = s.libraries)

include hs htree howner hlibraries

theorem keeps_evaluate (budget : Nat) (job : Job) :
    Keeps s files (fun _ => True) (evaluate stage budget job) fun _ => True :=
  ((Built.evaluate (serves_everything stage) budget).job job (within_everything job)).keeps hs htree
    howner hlibraries fun _ _ _ => trivial

/-- What an import yields is current when the import is resolved. -/
theorem keeps_resolve (budget : Nat) (text : String) (pos : Place) :
    Keeps s files (fun _ => True) (resolveLibrary stage (evaluate stage budget) text pos)
      (Fetched s files text) := by
  refine keeps_resolveLibrary hs htree howner hlibraries fun body => ?_
  exact ((Built.evaluate (serves_everything stage) budget).stmts body).keeps hs htree howner
    hlibraries fun file _ h => ⟨file, h⟩

theorem keeps_keepLibraries (budget : Nat) : ∀ texts : List String,
    Keeps s files (fun _ => True) (keepLibraries stage (evaluate stage budget) texts) fun kept =>
      kept.map (·.1) = texts ∧
        ∀ entry ∈ kept, ∃ module, entry.2 = module.named entry.1 ∧ Fetched s files entry.1 module
  | [] => .pure ⟨rfl, List.forall_mem_nil _⟩
  | text :: rest => by
    unfold keepLibraries
    refine (keeps_resolve stage hs htree howner hlibraries budget text none).bind
      fun module hmodule => ?_
    refine (keeps_keepLibraries budget rest).bind fun kept hkept => .pure ⟨?_, ?_⟩
    · rw [List.map_cons, hkept.1]
    · exact List.forall_mem_cons.mpr ⟨⟨module, rfl, hmodule⟩, hkept.2⟩

theorem Performed.keeps (h : Performed stage w w') (hfiles : w.files = files)
    (hcache : s.Honest (w.realm s.owner).modules) : s.Honest (w'.realm s.owner).modules := by
  induction h with
  | nothing => exact hcache
  | code hx hrun _ ih =>
      obtain ⟨_, hbuilt⟩ := hx.built
      have hkeeps := hbuilt.keeps hs htree howner hlibraries fun _ _ _ => trivial
      obtain ⟨hfiles₁, hcache₁, -⟩ := perform_keeps hkeeps howner hfiles hcache hrun
      exact ih hfiles₁ hcache₁

/-- A script that is built keeps the libraries that its imports name, all of them current. -/
theorem build_keeps {budget : Nat} {source : FilePath} {r : Except ReloadError Binding}
    (hfiles : w.files = files) (hcache : s.Honest (w.realm s.owner).modules)
    (h : build budget stage source w = some (r, w')) :
    s.Honest (w'.realm s.owner).modules ∧ ∀ b, r = .ok b →
      ∃ script, readScript files source stage.owner.name = .ok script ∧
        b.kept.map (·.1) = script.imports ∧
        ∀ entry ∈ b.kept, ∃ module, entry.2 = module.named entry.1 ∧
          Fetched s files entry.1 module := by
  refine ⟨(build_performed h).keeps stage hs htree howner hlibraries hfiles hcache, ?_⟩
  rintro b rfl
  obtain ⟨script, kept, last₁, last, r, w₁, hscript, hkeep, -, -, rfl⟩ := build_ok h
  obtain ⟨-, -, hkept⟩ := perform_keeps
    (keeps_keepLibraries stage hs htree howner hlibraries budget script.imports) howner hfiles
    hcache hkeep
  exact ⟨script, hfiles ▸ hscript, hkept kept rfl⟩

end Runs

namespace Instance

variable {s : Shelf} {i i' : Instance} {w w' : World} {budget : Nat}
  (hs : s.libraries.Dated s.trees) (htree : s.trees w.files) (howner : i.id = s.owner)
  (hcache : s.Honest (w.realm s.owner).modules)

include hs htree howner hcache

/-- What a successful reload keeps is current, and a failed one leaves no stale library behind. -/
theorem reload_keeps {r : Except ReloadError Unit}
    (h : i.reload budget s.libraries w = some (r, i', w')) :
    s.Honest (w'.realm s.owner).modules ∧ (r.isOk = true →
      ∃ script b, readScript w.files i.source i.name = .ok script ∧ i'.binding = some b ∧
        b.kept.map (·.1) = script.imports ∧
        ∀ entry ∈ b.kept, ∃ module, entry.2 = module.named entry.1 ∧
          Fetched s w.files entry.1 module) := by
  rcases reload_cases h with ⟨b, w₁, hbuild, rfl, rfl, rfl⟩ | ⟨e, w₁, hbuild, rfl, rfl, rfl⟩
  · obtain ⟨hcache₁, hb⟩ :=
      build_keeps (i.stage s.libraries) hs htree howner rfl rfl hcache hbuild
    obtain ⟨script, hscript, himports, hkept⟩ := hb b rfl
    exact ⟨hcache₁, fun _ => ⟨script, _, hscript, rfl, himports, hkept⟩⟩
  · obtain ⟨hcache₁, -⟩ :=
      build_keeps (i.stage s.libraries) hs htree howner rfl rfl hcache hbuild
    exact ⟨hcache₁, fun hok => nomatch hok⟩

theorem invoke_keeps {e : EntryPoint} {args : List HostValue}
    {o : Outcome} (h : i.invoke budget s.libraries e args w = some (o, i', w')) :
    s.Honest (w'.realm s.owner).modules :=
  (invoke_performed h).keeps (i.stage s.libraries) hs htree howner rfl rfl hcache

theorem dispatch_keeps {e : EntryPoint} {args : List HostValue}
    {o : Outcome} (h : i.dispatch budget s.libraries e args w = some (o, i', w')) :
    s.Honest (w'.realm s.owner).modules := by
  rcases dispatch_iff.mp h with ⟨err, i₁, w₁, hinvoke, -, -, rfl⟩ | ⟨hinvoke, -⟩
  · have hcache₁ : s.Honest (w₁.realm s.owner).modules :=
      invoke_keeps hs htree howner hcache hinvoke
    exact hcache₁
  · exact invoke_keeps hs htree howner hcache hinvoke

end Instance

/-! ## Histories -/

/-- The states that the files are in along a history: the first, and those that edits make. -/
def treesOf (w : World) (past : List (Op × List Event)) (files : FileTree) : Prop :=
  files = w.files ∨ .around (.edit files) ∈ past.map Prod.fst

/-- The registry itself does such a thing in an operation. -/
def Chore.routine : Chore → Bool
  | edit _ | wait _ | seed _ _ _ | requestAdd _ => false
  | _ => true

/-- What else is done to a registry is an operation of its own. -/
theorem Op.Told.around {o : Op} {r : Registry} {es : List Event} {ch : Chore} (h : o.Told r es)
    (he : .chore ch ∈ es) (hch : ch.routine = false) : o = .around ch := by
  cases h.tells he with
  | call hc => nomatch hc
  | around => rfl
  | chore hc =>
      cases ch with
      | edit | wait | seed | requestAdd => cases o <;> nomatch hc
      | _ => nomatch hch

theorem Annals.edits {c : HostConfig} {w : World} {past : List (Op × List Event)} {r : Registry}
    (h : Annals c w past r) {files : FileTree} (he : .chore (.edit files) ∈ eventsOf past) :
    treesOf w past files := by
  obtain ⟨p, hmem, he⟩ := List.mem_flatMap.mp he
  obtain ⟨r₁, htold⟩ := h.told p hmem
  exact .inr (htold.around he rfl ▸ List.mem_map_of_mem hmem)

/-- The files are in one of the states, and what is in the cache of each instance was current in one
of them. -/
structure Stocked (trees : FileTree → Prop) (r : Registry) : Prop where
  tree : trees r.world.files
  caches : ∀ id, Shelf.Honest ⟨id, r.libraries, trees⟩ (r.world.realm id).modules

namespace Act

variable {r r' : Registry} {e : Event} {i i' : Instance}

/-- What an act runs for an instance leaves the instance's cache honest. -/
theorem keeps_honest (h : Act r e r') (hc : e.change? = some (i, i')) {w w' : World}
    (hr : e.run? = some (i.id, w, w')) {trees : FileTree → Prop} (hd : r.libraries.Dated trees)
    (htree : trees w.files)
    (hcache : Shelf.Honest ⟨i.id, r.libraries, trees⟩ (w.realm i.id).modules) :
    Shelf.Honest ⟨i.id, r.libraries, trees⟩ (w'.realm i.id).modules := by
  let s : Shelf := ⟨i.id, r.libraries, trees⟩
  cases h with
  | joined _ _ hg | tried _ _ _ hg =>
      cases hc
      cases hr
      obtain ⟨budget, hreload⟩ := hg
      exact (Instance.reload_keeps (s := s) hd htree rfl hcache hreload).1
  | called _ _ _ hg | started _ _ _ _ _ _ hg =>
      cases hc
      cases hr
      obtain ⟨budget, hdispatch⟩ := hg
      exact Instance.dispatch_keeps (s := s) hd htree rfl hcache hdispatch
  | invoked _ _ _ hg =>
      cases hc
      cases hr
      obtain ⟨budget, hinvoke⟩ := hg
      exact Instance.invoke_keeps (s := s) hd htree rfl hcache hinvoke
  | left | chore => nomatch hc

/-- A load is one of the instance in the world of the registry, in which a new one has a store. -/
theorem attempt {a : Attempt} (h : Act r e r') (he : e = .joined a ∨ e = .tried a) :
    a.Genuine r.libraries ∧ ∃ stores, a.world = { r.world with stores } := by
  have hworld : e.run? = some (a.before.id, a.world, a.left) := by
    rcases he with rfl | rfl
    · rfl
    · rfl
  refine ⟨?_, (h.run_world hworld).1⟩
  cases h with
  | joined _ _ hg =>
      cases he.resolve_right nofun
      exact hg
  | tried _ _ _ hg =>
      cases he.resolve_left nofun
      exact hg
  | called | started | invoked | left | chore => exact he.elim nofun nofun

/-- One act: a run for its instance, or a change that no cache has part in. -/
theorem stocked {trees : FileTree → Prop} (h : Act r e r') (hr : Stocked trees r)
    (hd : r.libraries.Dated trees) (he : ∀ files, e = .chore (.edit files) → trees files) :
    Stocked trees r' := by
  cases hc : e.change? with
  | some change =>
      obtain ⟨i, i'⟩ := change
      obtain ⟨r₀, place, w', -, -, hrun, -⟩ := h.site hc
      obtain ⟨⟨stores, hbefore⟩, rfl⟩ := h.run_world hrun
      obtain ⟨effects, haccount⟩ := h.account
      cases haccount with
      | ran hrun' hran =>
          cases hrun.symm.trans hrun'
          have htree : trees r₀.world.files := hbefore ▸ hr.tree
          have hcache : ∀ id,
              Shelf.Honest ⟨id, r.libraries, trees⟩ (r₀.world.realm id).modules := by
            rw [hbefore]
            exact hr.caches
          refine ⟨hran.files ▸ htree, fun id => ?_⟩
          rw [h.fixed.2]
          by_cases hid : id = i.id
          · subst hid
            exact h.keeps_honest hc hrun hd htree (hcache i.id)
          · exact hran.others id hid ▸ hcache id
      | left | chore => nomatch hc
  | none =>
      cases h with
      | left ids =>
          obtain ⟨⟨realms, hforget⟩, -⟩ := r.world.foldl_forget ids
          refine ⟨?_, fun id => ?_⟩
          · have hfiles : (ids.foldl World.forget r.world).files = r.world.files := by rw [hforget]
            exact hfiles ▸ hr.tree
          · rcases World.realm_foldl_forget ids r.world id with heq | heq
            · exact heq ▸ hr.caches id
            · exact heq ▸ List.forall_mem_nil _
      | chore c =>
          cases c with
          | edit files => exact ⟨he files rfl, hr.caches⟩
          | _ => exact ⟨hr.tree, hr.caches⟩
      | joined | tried | called | invoked | started => nomatch hc

end Act

variable {c : HostConfig} {w : World} {trees : FileTree → Prop}

theorem Stocked.start (hw : w.realms = []) (htree : trees w.files) :
    Stocked trees (Registry.start c w) := by
  obtain ⟨log, images, host, hworld, -⟩ := Registry.start_world c w
  refine ⟨hworld ▸ htree, fun id => ?_⟩
  rw [hworld, World.realm, hw]
  exact List.forall_mem_nil _

theorem Path.stocked {es : List Event} {r : Registry} (hw : w.realms = []) (htree : trees w.files)
    (hd : (Registry.start c w).libraries.Dated trees) (h : Path (Registry.start c w) es r)
    (hes : ∀ files, .chore (.edit files) ∈ es → trees files) : Stocked trees r := by
  let P (es : List Event) (r : Registry) : Prop :=
    r.libraries = (Registry.start c w).libraries ∧
      ((∀ files, .chore (.edit files) ∈ es → trees files) → Stocked trees r)
  have hstep {es : List Event} {r : Registry} {e : Event} {r' : Registry} (hP : P es r)
      (ha : Act r e r') : P (es ++ [e]) r' := by
    refine ⟨ha.fixed.2.trans hP.1, fun hall => ?_⟩
    refine ha.stocked (hP.2 fun files hmem => hall files (List.mem_append_left _ hmem))
      (hP.1 ▸ hd) fun files he => hall files ?_
    rw [he]
    exact List.mem_append_right _ (List.mem_singleton_self _)
  have hstart : P [] (Registry.start c w) := ⟨rfl, fun _ => .start hw htree⟩
  exact (h.invariant (P := P) hstep hstart).2 hes

/-- What hot reload promises along a history. A load that succeeds keeps a library for each import
of its source, and each was evaluated from the text that its file has at the load (`reloaded`). All
other imports, whenever they are resolved, yield libraries that are current then (`imports`): runs
begin with honest caches (`cached`) and leave them honest (`runs`). The imports of a library itself
were current when the library was evaluated, which is all that `Current` says of them. -/
structure HotReloadLaw (trees : FileTree → Prop) (past : List (Op × List Event)) (r : Registry) :
    Prop where
  reloaded : ∀ a, (.joined a ∈ eventsOf past ∨ .tried a ∈ eventsOf past) → a.succeeded = true →
    ∃ script b, readScript a.world.files a.before.source a.before.name = .ok script ∧
      a.after.binding = some b ∧ b.kept.map (·.1) = script.imports ∧
      ∀ entry ∈ b.kept, ∃ module, entry.2 = module.named entry.1 ∧
        Fetched ⟨a.before.id, r.libraries, trees⟩ a.world.files entry.1 module
  cached : trees r.world.files ∧
    ∀ id, Shelf.Honest ⟨id, r.libraries, trees⟩ (r.world.realm id).modules
  runs : ∀ i ∈ r.instances, ∀ budget job m result m', trees m.world.files →
    Shelf.Honest ⟨i.id, r.libraries, trees⟩ m.realm.modules →
      evaluate (i.stage r.libraries) budget job m = some (result, m') →
        m'.world.files = m.world.files ∧
          Shelf.Honest ⟨i.id, r.libraries, trees⟩ m'.realm.modules
  imports : ∀ i ∈ r.instances, ∀ budget text pos m module m', trees m.world.files →
    Shelf.Honest ⟨i.id, r.libraries, trees⟩ m.realm.modules →
      resolveLibrary (i.stage r.libraries) (evaluate (i.stage r.libraries) budget) text pos m =
          some (.ok module, m') →
        Fetched ⟨i.id, r.libraries, trees⟩ m.world.files text module

/-- Whatever is done with a registry, if each edit of a library gives its file a new time. -/
theorem hot_reload_lawful {past : List (Op × List Event)} {r : Registry} (hw : w.realms = [])
    (h : Annals c w past r)
    (hd : (Registry.start c w).libraries.Dated (treesOf w past)) :
    HotReloadLaw (treesOf w past) past r := by
  have hlibraries : r.libraries = (Registry.start c w).libraries := h.path.fixed.2
  have hd' : r.libraries.Dated (treesOf w past) := hlibraries ▸ hd
  have hstocked : Stocked (treesOf w past) r :=
    h.path.stocked hw (.inl rfl) hd fun _ hedit => h.edits hedit
  have sound {id : InstanceId} {m : Machine}
      (hm : Shelf.Honest ⟨id, r.libraries, treesOf w past⟩ m.realm.modules) :
      Sound ⟨id, r.libraries, treesOf w past⟩ m.world.files (fun _ => True) m :=
    ⟨rfl, hm, fun _ _ => trivial, fun _ _ => trivial⟩
  refine ⟨fun a ha hok => ?_, ⟨hstocked.tree, hstocked.caches⟩, ?_, ?_⟩
  · -- the history up to the load, and the load itself
    have hevent : ∃ e ∈ eventsOf past, e = .joined a ∨ e = .tried a :=
      ha.elim (fun hmem => ⟨_, hmem, .inl rfl⟩) fun hmem => ⟨_, hmem, .inr rfl⟩
    obtain ⟨e, hmem, he⟩ := hevent
    obtain ⟨pre, post, hsplit⟩ := List.append_of_mem hmem
    obtain ⟨r₁, r₂, hpre, hact, -⟩ := (hsplit ▸ h.path).at_event
    have hedits : ∀ files, .chore (.edit files) ∈ pre → treesOf w past files :=
      fun files hedit => h.edits (hsplit ▸ List.mem_append_left _ hedit)
    obtain ⟨⟨budget, hreload⟩, stores, hbefore⟩ := hact.attempt he
    have hsame : r₁.libraries = r.libraries := hpre.fixed.2.trans hlibraries.symm
    rw [hsame] at hreload
    have hstocked₁ := hpre.stocked hw (.inl rfl) hd hedits
    have htree : treesOf w past a.world.files := hbefore ▸ hstocked₁.tree
    have hcache : Shelf.Honest ⟨a.before.id, r.libraries, treesOf w past⟩
        (a.world.realm a.before.id).modules := by
      rw [hbefore, ← hsame]
      exact hstocked₁.caches a.before.id
    exact (Instance.reload_keeps hd' htree rfl hcache hreload).2 hok
  · intro i _ budget job m result m' htree hcache hrun
    have hkept := keeps_evaluate (s := ⟨i.id, r.libraries, _⟩) (i.stage r.libraries) hd' htree rfl
      rfl budget job m result m' (sound hcache) hrun
    exact ⟨hkept.1.files, hkept.1.cache⟩
  · intro i _ budget text pos m module m' htree hcache hrun
    have hkept := keeps_resolve (s := ⟨i.id, r.libraries, _⟩) (i.stage r.libraries) hd' htree rfl
      rfl budget text pos m _ m' (sound hcache) hrun
    exact hkept.2 module rfl

/-- Two states of the files, in which no library has another text at the same time. -/
theorem Libraries.dated_pair {l : Libraries} (first second : FileTree)
    (htrees : ∀ files, trees files → files = first ∨ files = second)
    (h : ∀ entry ∈ l.files, first.modified? entry.2 = second.modified? entry.2 →
      first.readText entry.2 = second.readText entry.2) : l.Dated trees := by
  intro was now hwas hnow entry hentry htime text htext
  rcases htrees was hwas with rfl | rfl <;> rcases htrees now hnow with rfl | rfl
  · exact htext
  · exact h entry hentry htime ▸ htext
  · exact h entry hentry htime.symm ▸ htext
  · exact htext

set_option maxRecDepth 100000 in
/-- A library is edited between two loads of a script that imports it. -/
theorem hot_reload_lawful_edited : ∃ (c : HostConfig) (w : World) (past : List (Op × List Event))
    (r : Registry), Annals c w past r ∧
      (r.world.store 0).entries.map (·.1) = ["first", "second"] ∧
      (Registry.start c w).libraries.Dated (treesOf w past) ∧
      HotReloadLaw (treesOf w past) past r := by
  let c : HostConfig := { scripts := { startup := [] } }
  let script := "import \"lib\" as lib; Data.Set(lib::N, ());"
  let w : World := .ofScripts [("A.rhai", script)] [("lib.rhai", "export const N = \"first\";")]
  let edited : Node := .dir [("lib.rhai", .file "export const N = \"second\";".toUTF8 9000)]
  let scripts : Node := .dir [("A.rhai", .file script.toUTF8 1000), ("libraries", edited)]
  let files : FileTree := { root := .dir [("scripts", scripts)] }
  let ops : List Op := [.add "A", .around (.edit files), .reload "A"]
  have hrun : (Op.runAll 1000 (.start c w) ops).any (fun r =>
      (r.world.store 0).entries.map (·.1) == ["first", "second"]) = true := by
    decide +kernel
  obtain ⟨r, hr, hstore⟩ := (Option.any_eq_true _ _).mp hrun
  obtain ⟨past, hops, h⟩ := Annals.start.all hr
  have hdated : (Registry.start c w).libraries.Dated (treesOf w past) := by
    refine Libraries.dated_pair w.files files (fun tree htree => htree.imp_right fun hmem => ?_) ?_
    · have hedit : Op.around (.edit tree) ∈ ops := hops ▸ hmem
      simpa [ops] using hedit
    · decide +kernel
  exact ⟨c, w, past, r, h, beq_iff_eq.mp hstore, hdated, hot_reload_lawful rfl h hdated⟩

/-! ## Libraries of libraries -/

/-- The functions of a module are those that the library declares. -/
theorem functions_of_evaluateLibrary {run : Run} {script : Script} {m m' : Machine}
    {module : Module} (h : evaluateLibrary run script m = some (.ok module, m')) :
    module.functions = script.functions := by
  rw [evaluateLibrary_eq] at h
  obtain ⟨⟨r₁, m₁⟩, h₁, h⟩ := Option.bind_eq_some_iff.mp h
  obtain ⟨⟨r₂, m₂⟩, -, h₁⟩ := Option.bind_eq_some_iff.mp h₁
  cases h₁
  change moduleFrom script m₁.frame r₂ _ = some (.ok module, m') at h
  unfold moduleFrom at h
  split at h <;> cases h <;> rfl

/-- The names of the functions that a file declares as a library. -/
def declared (files : FileTree) (file : FilePath) : Option (List String) :=
  match files.readText file with
  | .error _ => none
  | .ok text =>
    match Script.parse text with
    | .error _ => none
    | .ok script => some ((script.prune []).functions.map (·.name))

/-- A library declares the functions of the module that comes of it. -/
theorem declared_of_evaluateLibrary {files : FileTree} {file : FilePath} {text : String}
    {script : Script} {run : Run} {m m' : Machine} {module : Module}
    (htext : files.readText file = .ok text) (hparse : Script.parse text = .ok script)
    (h : evaluateLibrary run (script.prune []).unlinked m = some (.ok module, m')) :
    declared files file = some (module.functions.map (·.name)) := by
  rw [functions_of_evaluateLibrary h, declared, htext]
  dsimp only
  rw [hparse]
  simp [Script.unlinked, Function.comp_def]

theorem Current.declared {s : Shelf} {now : FileTree} {file : FilePath} {module : Module}
    (h : Current s now file module) : file ∈ s.libraries.files.map Prod.snd ∧
      Stagehand.declared now file = some (module.functions.map (·.name)) := by
  cases h with
  | evaluated hfile hnow _ _ _ _ _ hparse heval _ =>
      exact ⟨hfile, declared_of_evaluateLibrary hnow hparse heval⟩

/-- A script that imports a library that imports another. -/
def nestedWorld : World :=
  .ofScripts [("A.rhai", "import \"mid\" as mid;")]
    [("base.rhai", "fn first() \x7b 1 \x7d"), ("mid.rhai", "import \"base\" as base;")]

/-- The same, where the innermost library has another text and a later time. -/
def nestedFiles : FileTree :=
  let libraries : Node := .dir [("base.rhai", .file "fn second() \x7b 2 \x7d".toUTF8 9000),
    ("mid.rhai", .file "import \"base\" as base;".toUTF8 1000)]
  let script : Node := .file "import \"mid\" as mid;".toUTF8 1000
  { root := .dir [("scripts", .dir [("A.rhai", script), ("libraries", libraries)])] }

/-- The index of their libraries. -/
def nestedLibraries : Libraries :=
  ⟨[("base", ⟨"scripts/libraries/base.rhai"⟩), ("mid", ⟨"scripts/libraries/mid.rhai"⟩)],
    builtinNames⟩

theorem mergeSort_pair {α : Type} {le : α → α → Bool} {a b : α} (h : le a b = true) :
    [a, b].mergeSort le = [a, b] := List.mergeSort_of_pairwise (by simpa using h)

set_option maxRecDepth 100000 in
theorem nestedWorld_index : Libraries.index nestedWorld.files ⟨"scripts/libraries"⟩ builtinNames =
    (nestedLibraries, [Level.info.report "indexed script libraries"
      [("dir", "scripts/libraries"), ("libraries", "2")]]) := by
  have hdir : nestedWorld.files.isDir ⟨"scripts/libraries"⟩ = true := by decide +kernel
  have hresolve : nestedWorld.files.resolve ⟨"scripts/libraries"⟩ =
      .ok (.inside ["libraries", "scripts"]) := by
    decide +kernel
  have hnames : ((nestedWorld.files.node? (.inside ["libraries", "scripts"])).map
      Node.names).getD [] = ["base.rhai", "mid.rhai"] := by
    decide +kernel
  obtain ⟨entries, hnode⟩ : ∃ entries,
      nestedWorld.files.node? (.inside ["libraries", "scripts"]) = some (.dir entries) := ⟨_, rfl⟩
  have hwalk : ∃ n k, nestedWorld.files.walk ⟨"scripts/libraries"⟩ =
      .ok [.file ⟨⟨"scripts/libraries/base.rhai"⟩, n, 1000⟩,
        .file ⟨⟨"scripts/libraries/mid.rhai"⟩, k, 1000⟩] := by
    rw [FileTree.walk, hresolve]
    dsimp only
    rw [hnode]
    dsimp only
    rw [FileTree.walkDir, hnames, mergeSort_pair (by decide +kernel)]
    exact ⟨_, _, rfl⟩
  obtain ⟨n, k, hwalk⟩ := hwalk
  unfold Libraries.index
  rw [hwalk]
  simp only [hdir, if_true, Libraries.filesOf, Libraries.indexFiles, List.filterMap]
  rw [mergeSort_pair (by decide +kernel)]
  rfl

set_option maxRecDepth 100000 in
/-- The innermost library is edited, with a later time, and the script is loaded again: the library
between them is found in the cache, and with it the module of the old text. -/
theorem nested_library_stale : ¬ ∀ (c : HostConfig) (w : World) (past : List (Op × List Event))
    (r r' : Registry) (budget : Nat) (name : String) (results : List (Except ReloadError Unit)),
    w.realms = [] → Annals c w past r →
    (Registry.start c w).libraries.Dated (treesOf w past) →
    r.reload budget name = some (results, r') → (∀ result ∈ results, result.isOk = true) →
      ∀ i ∈ r'.instances, i.name = name → ∀ b, i.binding = some b → ∀ entry ∈ b.kept,
        ∀ inner ∈ entry.2.imports, ∃ file,
          Current ⟨i.id, r.libraries, treesOf w past⟩ r.world.files file inner.2 := by
  intro hall
  let c : HostConfig := { scripts := { startup := [] } }
  let start : Registry :=
    { scripts := c.scripts
      libraries := nestedLibraries
      world := World.HostState.start c.window.width c.window.height c.assets.dir
        (nestedWorld.record (Level.info.report "indexed script libraries"
          [("dir", "scripts/libraries"), ("libraries", "2")])) }
  have hstart : Registry.start c nestedWorld = start := by
    have hdir : c.scripts.librariesDir = ⟨"scripts/libraries"⟩ := by decide +kernel
    rw [Registry.start, hdir, nestedWorld_index]
    rfl
  -- what the first script has in sight after the reload, as the names of functions
  let shows (r : Registry) : Bool := r.instances.all fun i =>
    i.name == "A" && i.binding.any fun b => b.kept.any fun entry => entry.2.imports.any fun inner =>
      inner.2.functions.map (·.name) == ["first"]
  have hrun : (start.add 1000 "A").any (fun p =>
      (((Chore.edit nestedFiles).apply p.2).reload 1000 "A").any fun q =>
        q.1.all (·.isOk) && (q.2.instances.length == 1 && shows q.2)) = true := by
    decide +kernel
  obtain ⟨⟨id, r₁⟩, hadd, hrun⟩ := (Option.any_eq_true _ _).mp hrun
  obtain ⟨⟨results, r'⟩, hreload, hrun⟩ := (Option.any_eq_true _ _).mp hrun
  simp only [Bool.and_eq_true, List.all_eq_true, beq_iff_eq, Option.any_eq_true, List.any_eq_true,
    shows] at hrun
  obtain ⟨hok, hone, hshows⟩ := hrun
  obtain ⟨i, hi⟩ := List.length_eq_one_iff.mp hone
  have hmem : i ∈ r'.instances := hi ▸ List.mem_singleton_self i
  obtain ⟨hname, b, hb, entry, hentry, inner, hinner, hfirst⟩ := hshows i hmem
  -- the history: the script joins, and the library is edited
  have hadded : (Op.add "A").run 1000 (Registry.start c nestedWorld) = some r₁ := by
    rw [hstart]
    exact Option.map_eq_some_iff.mpr ⟨(id, r₁), hadd, rfl⟩
  obtain ⟨es, -, -, h₁⟩ := Annals.start.next hadded
  have hedited : (Op.around (.edit nestedFiles)).run 1000 r₁ =
      some ((Chore.edit nestedFiles).apply r₁) := rfl
  obtain ⟨es', -, -, h⟩ := h₁.next hedited
  have hdated : (Registry.start c nestedWorld).libraries.Dated
      (treesOf nestedWorld ([] ++ [(.add "A", es)] ++ [(.around (.edit nestedFiles), es')])) := by
    rw [hstart]
    refine Libraries.dated_pair nestedWorld.files nestedFiles (fun tree htree => ?_) ?_
    · exact htree.imp_right fun hedit => by simpa using hedit
    · decide +kernel
  obtain ⟨file, hcurrent⟩ := hall c nestedWorld _ _ r' 1000 "A" results rfl h hdated hreload hok i
    hmem hname b hb entry hentry inner hinner
  obtain ⟨hfile, hdeclared⟩ := hcurrent.declared
  rw [hfirst] at hdeclared
  have hnone : ∀ file ∈ nestedLibraries.files.map Prod.snd,
      declared nestedFiles file ≠ some ["first"] := by
    decide +kernel
  have hlibraries : ((Chore.edit nestedFiles).apply r₁).libraries = nestedLibraries := by
    rw [h.path.fixed.2, hstart]
  exact hnone file (hlibraries ▸ hfile) hdeclared

end Stagehand
