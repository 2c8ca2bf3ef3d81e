import Stagehand.Lang.Import

/-!
# What a load comes to

A load yields the library as it was evaluated for this instance, if its file has the time that it
had then. If not, the load is the reading of the file and what follows it, which neither looks at
anything nor can go on for ever.
-/

namespace Stagehand

open Lang

/-- The library in a file as it was evaluated for the instance. -/
def Realm.cached? (realm : Realm) (file : FilePath) : Option CachedModule :=
  (realm.modules.find? (·.1 == file)).map (·.2)

/-- The library in a file, if it was evaluated at that time of the file. -/
def Realm.served? (realm : Realm) (file : FilePath) (modified : Option Instant) : Option Module :=
  ((realm.cached? file).filter (·.modified == modified)).map (·.module)

theorem Realm.served?_eq_none {realm : Realm} {file : FilePath} {modified : Option Instant} :
    realm.served? file modified = none ↔
      ∀ cached, realm.cached? file = some cached → cached.modified ≠ modified := by
  rw [served?, Option.map_eq_none_iff]
  cases realm.cached? file with
  | none => exact ⟨fun _ => nofun, fun _ => rfl⟩
  | some cached => simp

theorem Realm.served?_eq_some {realm : Realm} {file : FilePath} {modified : Option Instant}
    {module : Module} (h : realm.served? file modified = some module) :
    ∃ cached, realm.cached? file = some cached ∧ cached.modified = modified ∧
      cached.module = module := by
  obtain ⟨cached, hcached, rfl⟩ := Option.map_eq_some_iff.mp h
  obtain ⟨hcached, htime⟩ := Option.filter_eq_some_iff.mp hcached
  exact ⟨cached, hcached, beq_iff_eq.mp htime, rfl⟩

theorem Realm.mem_of_cached? {realm : Realm} {file : FilePath} {cached : CachedModule}
    (h : realm.cached? file = some cached) : (file, cached) ∈ realm.modules := by
  obtain ⟨⟨other, c⟩, hfind, rfl⟩ := Option.map_eq_some_iff.mp h
  have hother : other = file := by simpa using List.find?_some hfind
  exact hother ▸ List.mem_of_find?_eq_some hfind

theorem Realm.served?_of_cached {realm : Realm} {file : FilePath} {cached : CachedModule}
    (h : realm.cached? file = some cached) :
    realm.served? file cached.modified = some cached.module := by
  rw [served?, h, Option.filter_some, beq_self_eq_true]
  rfl

/-- The realm with a library in the cache. -/
def Realm.keep (realm : Realm) (file : FilePath) (c : CachedModule) : Realm :=
  { realm with modules := (file, c) :: realm.modules.filter (·.1 != file) }

theorem Realm.cached?_keep (realm : Realm) (file : FilePath) (c : CachedModule) :
    (realm.keep file c).cached? file = some c := by
  simp [keep, cached?]

theorem Realm.cached?_keep_of_ne (realm : Realm) {file other : FilePath} (c : CachedModule)
    (h : other ≠ file) : (realm.keep file c).cached? other = realm.cached? other := by
  have hfind : (realm.modules.filter (·.1 != file)).find? (·.1 == other) =
      realm.modules.find? (·.1 == other) := by
    rw [List.find?_filter]
    congr 1
    funext entry
    by_cases hentry : entry.1 = other
    · simp [hentry, h]
    · simp [hentry]
  rw [cached?, keep, List.find?_cons_of_neg (by simpa using h.symm), hfind, cached?]

namespace Lang

/-- Keeps a library as it was evaluated. -/
def keepModule (file : FilePath) (modified : Option Instant) (module : Module) : Eval Unit :=
  modify fun m => { m with realm := m.realm.keep file ⟨modified, module⟩ }

/-- Reads and evaluates a library, and keeps it as it was evaluated at that time of its file. -/
def readAnew (stage : Stage) (run : Run) (file : FilePath) (modified : Option Instant)
    (text : String) (pos : Place) : Eval Module := do
  let module ← inModule text pos (readLibrary run file)
  Eval.modifyWorld (World.record · (Level.debug.report "library module loaded"
    [("library", text), ("file", file.text), ("owner", toString stage.owner.id)]))
  keepModule file modified module
  return module

/-- What follows the reading of a library: it is kept, or the fault is told with the text of the
import. -/
def afterRead (stage : Stage) (file : FilePath) (modified : Option Instant) (text : String)
    (pos : Place) : Except Halt Module × Machine → Except Halt Module × Machine
  | (.ok module, m) =>
    (.ok module,
      { m with
        world := m.world.record (Level.debug.report "library module loaded"
          [("library", text), ("file", file.text), ("owner", toString stage.owner.id)])
        realm := m.realm.keep file ⟨modified, module⟩ })
  | (.error (.fault f), m) => (.error (.fault (.inModule f text pos)), m)
  | (.error halt, m) => (.error halt, m)

variable {stage : Stage} {run run' : Run} {file : FilePath} {modified : Option Instant}
  {text : String} {pos : Place} {m : Machine}

/-- To look is to go on with the machine as it is. -/
theorem Eval.get_bind {α : Type} (f : Machine → Eval α) (m : Machine) : (get >>= f) m = f m m := rfl

/-- A library is served as it was evaluated if that was at the same time of its file. -/
theorem fetchLibrary_eq : fetchLibrary stage run file modified text pos =
    get >>= fun m : Machine =>
      match m.realm.cached? file with
      | some cached =>
        if cached.modified = modified then pure cached.module
        else readAnew stage run file modified text pos
      | none => readAnew stage run file modified text pos := rfl

theorem readAnew_apply : readAnew stage run file modified text pos m =
    (readLibrary run file m).map (afterRead stage file modified text pos) := by
  change (((readLibrary run file m).bind _).bind _).bind _ = _
  cases readLibrary run file m with
  | none => rfl
  | some p =>
      obtain ⟨halt | module, m'⟩ := p
      · cases halt <;> rfl
      · rfl

/-- The library was evaluated at that time of its file. -/
theorem fetchLibrary_served {module : Module} (h : m.realm.served? file modified = some module) :
    fetchLibrary stage run file modified text pos m = some (.ok module, m) := by
  obtain ⟨cached, hcached, rfl, rfl⟩ := Realm.served?_eq_some h
  simp only [fetchLibrary_eq, Eval.get_bind, hcached, if_true]
  rfl

/-- The library was not evaluated at that time of its file. -/
theorem fetchLibrary_unserved (h : m.realm.served? file modified = none) :
    fetchLibrary stage run file modified text pos m =
      (readLibrary run file m).map (afterRead stage file modified text pos) := by
  rw [fetchLibrary_eq, Eval.get_bind]
  cases hcached : m.realm.cached? file with
  | none => exact readAnew_apply
  | some cached =>
      simp only [if_neg (Realm.served?_eq_none.mp h cached hcached)]
      exact readAnew_apply

theorem loadLibrary_apply : loadLibrary stage run file text pos m =
    fetchLibrary stage run file (m.world.files.modified? file) text pos m := by
  rw [loadLibrary, Eval.get_bind]

/-- A load is decided by what the reading comes to. -/
theorem loadLibrary_congr (h : readLibrary run file m = readLibrary run' file m) :
    loadLibrary stage run file text pos m = loadLibrary stage run' file text pos m := by
  rw [loadLibrary_apply, loadLibrary_apply]
  cases hserved : m.realm.served? file (m.world.files.modified? file) with
  | some module => rw [fetchLibrary_served hserved, fetchLibrary_served hserved]
  | none => rw [fetchLibrary_unserved hserved, fetchLibrary_unserved hserved, h]

end Lang
end Stagehand
