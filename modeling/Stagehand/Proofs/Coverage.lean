import Stagehand.Proofs.Confinement
import Stagehand.Proofs.PassRuns
import Stagehand.Proofs.Paths

/-!
# What a scan covers

A scan knows a script by the stem of the file that it finds, while an instance is loaded from the
path that its name and the configured extension make. The scan gets to exactly those instances that
are behind a file with their name for its stem (`Covered.attempted`). For the instance's own file
that is so if the name is a plain one and the extension has no dot in it (`Covered.own`); with a
separator in the name there is no such file at all (`Covered.never`), and behind an extension with a
dot the stem is not the name.
-/

namespace Stagehand

open Lang

/-! ## Who is attempted -/

/-- There was an attempt to load this very instance. -/
def Attempted (es : List Event) (i : Instance) : Prop := ∃ a, .tried a ∈ es ∧ a.before = i

section Sweeps

variable {budget : Nat} {libraries : Libraries} {is is' : List Instance} {w w' : World}
  {es : List Event} {i : Instance}

theorem Attempted.append_left (h : Attempted es i) (es' : List Event) : Attempted (es ++ es') i :=
  h.imp fun _ h => ⟨List.mem_append_left _ h.1, h.2⟩

theorem Attempted.append_right (h : Attempted es i) (es' : List Event) : Attempted (es' ++ es) i :=
  h.imp fun _ h => ⟨List.mem_append_right _ h.1, h.2⟩

/-- For one source file those are attempted that are behind it, and the others stay as they are. -/
theorem Reloads.attempted {s : SourceFile} (h : Reloads budget libraries s is w es is' w')
    (hi : i ∈ is) : (i.isStale s = true → Attempted es i) ∧ (i.isStale s = false → i ∈ is') := by
  induction h with
  | done => cases hi
  | @stale j j' rest rest' w w₁ w' es result hstale hreload hrest ih =>
      rcases List.mem_cons.mp hi with rfl | hi
      · refine ⟨fun _ => ⟨_, List.mem_cons_self, rfl⟩, fun hfresh => ?_⟩
        rw [hstale] at hfresh
        cases hfresh
      · refine ⟨fun hs => ((ih hi).1 hs).append_right [_], fun hs => ?_⟩
        exact List.mem_cons_of_mem _ ((ih hi).2 hs)
  | @fresh j rest rest' w w' es hfresh hrest ih =>
      rcases List.mem_cons.mp hi with rfl | hi
      · refine ⟨fun hs => ?_, fun _ => List.mem_cons_self⟩
        rw [hfresh] at hs
        cases hs
      · exact ⟨(ih hi).1, fun hs => List.mem_cons_of_mem _ ((ih hi).2 hs)⟩

theorem Reloads.behind {s : SourceFile} (h : Reloads budget libraries s is w es is' w') {e : Event}
    (he : e ∈ es) : ∃ a, e = .tried a ∧ a.before.isStale s = true := by
  induction h with
  | done => cases he
  | stale hstale _ _ ih =>
      rcases List.mem_cons.mp he with rfl | he
      · exact ⟨_, rfl, hstale⟩
      · exact ih he
  | fresh _ _ ih => exact ih he

/-- A sweep attempts those that are behind one of the source files, and for no other reason. -/
theorem Sweep.attempted {sources : List SourceFile}
    (h : Sweep budget libraries sources is w es is' w') (hi : i ∈ is) {s : SourceFile}
    (hs : s ∈ sources) (hstale : i.isStale s = true) : Attempted es i := by
  induction h with
  | done => cases hs
  | @source first rest is is₁ is' w w₁ w' tries es hreloads _ ih =>
      cases hfirst : i.isStale first with
      | true => exact ((hreloads.attempted hi).1 hfirst).append_left es
      | false =>
          rcases List.mem_cons.mp hs with rfl | hs
          · rw [hstale] at hfirst
            cases hfirst
          · exact (ih ((hreloads.attempted hi).2 hfirst) hs).append_right tries

theorem Sweep.behind {sources : List SourceFile} (h : Sweep budget libraries sources is w es is' w')
    {e : Event} (he : e ∈ es) : ∃ a, e = .tried a ∧ ∃ s ∈ sources, a.before.isStale s = true := by
  induction h with
  | done => cases he
  | source hreloads _ ih =>
      rcases List.mem_append.mp he with he | he
      · obtain ⟨a, rfl, hstale⟩ := hreloads.behind he
        exact ⟨a, rfl, _, List.mem_cons_self, hstale⟩
      · obtain ⟨a, rfl, s, hs, hstale⟩ := ih he
        exact ⟨a, rfl, s, List.mem_cons_of_mem _ hs, hstale⟩

end Sweeps

/-! ## Stems -/

theorem FilePath.isName_of_fileName? {p : FilePath} {name : String} (h : p.fileName? = some name) :
    '/' ∉ name.toList ∧ name ≠ "" := by
  have hlast : p.components.getLast? = some (.normal name) := by
    unfold fileName? at h
    split at h
    · cases h
      assumption
    · cases h
  have hmem : Component.normal name ∈ p.components := List.mem_of_getLast? hlast
  have hpiece : ∃ leading, ∃ piece ∈ p.pieces, component? leading piece = some (.normal name) := by
    unfold components at hmem
    split at hmem
    · rcases List.mem_cons.mp hmem with heq | hmem
      · cases heq
      · exact ⟨false, List.mem_filterMap.mp hmem⟩
    · split at hmem
      · cases hmem
      · rename_i first rest hpieces
        rw [hpieces]
        rcases List.mem_append.mp hmem with hmem | hmem
        · exact ⟨true, first, List.mem_cons_self, Option.mem_toList.mp hmem⟩
        · obtain ⟨piece, hpiece, hcomponent⟩ := List.mem_filterMap.mp hmem
          exact ⟨false, piece, List.mem_cons_of_mem _ hpiece, hcomponent⟩
  obtain ⟨leading, piece, hpiece, hcomponent⟩ := hpiece
  have hsame : piece = name ∧ piece ≠ "" := by
    unfold component? at hcomponent
    split at hcomponent
    · cases hcomponent
    · rename_i hne
      split at hcomponent
      · split at hcomponent <;> cases hcomponent
      · split at hcomponent <;> cases hcomponent
        exact ⟨rfl, hne⟩
  obtain ⟨rfl, hne⟩ := hsame
  obtain ⟨cs, hcs, rfl⟩ := List.mem_map.mp hpiece
  exact ⟨by simpa using splitOn_subset hcs, hne⟩

theorem FilePath.splitExtension_cases (name : String) :
    (splitExtension name).1 = name ∨ (splitExtension name).1 ≠ "" ∧
      (splitExtension name).1.toList ⊆ name.toList := by
  unfold splitExtension
  dsimp only
  split
  · exact .inl rfl
  · rename_i hparts
    obtain ⟨-, hhead⟩ := not_or.mp (mt (Bool.or_eq_true _ _).mpr hparts)
    refine .inr ⟨fun hempty => hhead ?_, fun c hc => ?_⟩
    · simpa using hempty
    · rw [String.toList_ofList, List.mem_reverse] at hc
      exact List.mem_reverse.mp (List.mem_of_mem_drop hc)

/-- A stem is a name without separators. -/
theorem SourceFile.plain {f : FoundFile} {s : SourceFile} (h : of? f = some s) :
    '/' ∉ s.name.toList ∧ s.name ≠ "" := by
  unfold of? at h
  split at h
  · cases h
  · obtain ⟨stem, hstem, rfl⟩ := Option.map_eq_some_iff.mp h
    obtain ⟨name, hname, rfl⟩ := Option.map_eq_some_iff.mp hstem
    obtain ⟨hslash, hne⟩ := FilePath.isName_of_fileName? hname
    rcases FilePath.splitExtension_cases name with heq | ⟨hempty, hsub⟩
    · exact heq.symm ▸ ⟨hslash, hne⟩
    · exact ⟨fun hmem => hslash (hsub hmem), hempty⟩

/-! ## The law -/

/-- The instance's own source file is there with something in it, and was changed after the instance
was last loaded, if it ever was. -/
def Instance.isOverdue (i : Instance) (files : FileTree) : Bool :=
  match files.lookup i.source with
  | .ok (.file bytes modified) => bytes.size != 0 && (match i.loadTime with
    | some loaded => decide (loaded < modified)
    | none => true)
  | _ => false

/-- What a scan of instances in a world comes to. It attempts exactly those that are behind one of
the source files it found, each known by its stem. The file that an instance was loaded from is one
of them under the instance's name if that name and the extension are plain (`own`); an instance with
a separator in its name is never attempted, whatever becomes of its file (`never`). -/
structure Covered (c : ScriptConfig) (is : List Instance) (w : World) (es : List Event) : Prop where
  attempted : ∃ sources reports, collectSources w.files c.dir = .ok (sources, reports) ∧
    ∀ i ∈ is, Attempted es i ↔ ∃ s ∈ sources, i.isStale s = true
  tries : ∀ e ∈ es, ∃ a, e = .tried a
  sources : ∀ i ∈ is, i.source = c.sourcePath i.name
  own : '/' ∉ c.extension.toList → '.' ∉ c.extension.toList → ∀ i ∈ is, '/' ∉ i.name.toList →
    i.name ≠ "" → i.isOverdue w.files = true → Attempted es i
  never : ∀ i ∈ is, '/' ∈ i.name.toList ∨ i.name = "" → ¬ Attempted es i

/-- The file of a plain name is found under this name. -/
theorem FileTree.sources_own {files : FileTree} {c : ScriptConfig} {sources : List SourceFile}
    {reports : List LogRecord} {name : String} {bytes : ByteArray} {modified : Instant}
    (h : collectSources files c.dir = .ok (sources, reports)) (hslash : '/' ∉ c.extension.toList)
    (hdot : '.' ∉ c.extension.toList) (hname : '/' ∉ name.toList) (hne : name ≠ "")
    (hfile : files.lookup (c.sourcePath name) = .ok (.file bytes modified))
    (hsize : bytes.size ≠ 0) : ⟨c.sourcePath name, name, modified⟩ ∈ sources := by
  unfold collectSources at h
  cases hwalk : files.walk c.dir with
  | error e =>
      rw [hwalk] at h
      cases h
  | ok findings =>
      rw [hwalk] at h
      cases h
      have hplain : '/' ∉ (name ++ "." ++ c.extension).toList := by
        simp [String.toList_append, hname, hslash]
      obtain ⟨hentry, hfound⟩ := files.walk_finds hwalk hplain hfile
      have hdir : c.dir.text ≠ "" := by
        unfold FileTree.walk at hwalk
        split at hwalk
        · cases hwalk
        · exact (FileTree.resolve_ok ‹_›).1
      refine List.mem_filterMap.mpr ⟨_, hfound, ?_⟩
      have hstem : (c.sourcePath name).stem? = some name := by
        rw [FilePath.stem?, ScriptConfig.sourcePath, FilePath.fileName?_join hdir hentry,
          Option.map_some, FilePath.splitExtension_dot hne hdot]
      exact (if_neg hsize).trans (congrArg (Option.map _) hstem)

/-- An instance stays with the path that it was created with. -/
theorem Path.sources {c : HostConfig} {w : World} {past : List Event} {r : Registry}
    (h : Path (Registry.start c w) past r) :
    ∀ i ∈ r.instances, i.source = r.scripts.sourcePath i.name := by
  have hall := h.invariant
    (P := fun es r => Standing es r ∧ ∀ i ∈ r.instances, i.source = r.scripts.sourcePath i.name)
    (fun {es r e r'} hP ha => ⟨hP.1.act ha, fun i' hi' => ?_⟩)
    ⟨.start c w, by rw [Registry.start_instances]; exact List.forall_mem_nil _⟩
  · exact hall.2
  · rw [ha.fixed.1]
    rcases ha.instance_cases hP.1.toOrderly hi' with ⟨i, hc⟩ | ⟨hi, -⟩
    · rw [(ha.belongings hc).2, Instance.name, ha.handle hc]
      rcases ha.subject_cases hc with hi | ⟨⟨name, rfl⟩, -⟩
      · exact hP.2 i hi
      · rfl
    · exact hP.2 i' hi

/-- A sweep through what was found. -/
theorem Sweep.covered {budget : Nat} {libraries : Libraries} {c : ScriptConfig}
    {is is' : List Instance} {w w₁ w' : World} {sources : List SourceFile}
    {reports : List LogRecord} {es : List Event}
    (hfound : collectSources w.files c.dir = .ok (sources, reports))
    (h : Sweep budget libraries sources is w₁ es is' w')
    (hsources : ∀ i ∈ is, i.source = c.sourcePath i.name) : Covered c is w es := by
  have hiff : ∀ i ∈ is, Attempted es i ↔ ∃ s ∈ sources, i.isStale s = true := by
    refine fun i hi => ⟨fun ⟨a, ha, heq⟩ => ?_, fun ⟨s, hs, hstale⟩ => h.attempted hi hs hstale⟩
    obtain ⟨b, hb, hstale⟩ := h.behind ha
    cases hb
    exact heq ▸ hstale
  refine ⟨⟨sources, reports, hfound, hiff⟩, fun e he => ?_, hsources, ?_, ?_⟩
  · obtain ⟨a, rfl, -⟩ := h.behind he
    exact ⟨a, rfl⟩
  · intro hslash hdot i hi hname hne hoverdue
    refine (hiff i hi).mpr ?_
    unfold Instance.isOverdue at hoverdue
    rw [hsources i hi] at hoverdue
    split at hoverdue
    · rename_i bytes modified hfile
      obtain ⟨hsize, hnewer⟩ := Bool.and_eq_true_iff.mp hoverdue
      refine ⟨_, FileTree.sources_own hfound hslash hdot hname hne hfile (by simpa using hsize), ?_⟩
      exact Bool.and_eq_true_iff.mpr ⟨beq_self_eq_true _, hnewer⟩
    · cases hoverdue
  · intro i hi hname hattempted
    obtain ⟨s, hs, hstale⟩ := (hiff i hi).mp hattempted
    have hsame : i.name = s.name := beq_iff_eq.mp (Bool.and_eq_true_iff.mp hstale).1
    unfold collectSources at hfound
    split at hfound
    · cases hfound
    · cases hfound
      obtain ⟨finding, -, hfile⟩ := List.mem_filterMap.mp hs
      cases finding with
      | file f =>
          obtain ⟨hslash, hne⟩ := SourceFile.plain hfile
          rw [hsame] at hname
          exact hname.elim hslash hne
      | trouble e => cases hfile

/-- Every scan at any point of a history, whatever the configuration. -/
theorem scans_cover {c : HostConfig} {w : World} {past : List Event} {r : Registry}
    (hp : Path (Registry.start c w) past r) {budget n : Nat} {is : List Instance} {w' : World}
    (h : scan budget r.libraries r.scripts.dir r.instances r.world = some (.ok n, is, w')) :
    ∃ es sources reports, Sweep budget r.libraries sources r.instances
      (r.world.recordAll reports) es is w' ∧ es.length = n ∧
        Covered r.scripts r.instances r.world es := by
  unfold scan at h
  split at h
  · cases h
  · rename_i sources reports hfound
    obtain ⟨⟨m, is', w''⟩, hall, hend⟩ := Option.bind_eq_some_iff.mp h
    cases hend
    obtain ⟨es, hsweep, hlength⟩ := Registry.reloadAll_sweep hall
    exact ⟨es, sources, reports, hsweep, hlength, hsweep.covered hfound hp.sources⟩

/-- A draw scans once, at a point of the history behind its last visit. -/
theorem Registry.draw_scan {budget : Nat} {r r' : Registry} {surface : ImageId}
    {result : Except ScanError Unit} (h : r.draw budget surface = some (result, r')) :
    ∃ es r₁ scanned is w, Path r es r₁ ∧
      scan budget r₁.libraries r₁.scripts.dir r₁.instances r₁.world = some (scanned, is, w) ∧
      result = scanned.map (fun _ => ()) ∧
      r' = ({ r₁ with instances := is, world := w } : Registry).applyRemovals := by
  obtain ⟨vs, r₁, scanned, is, w, hrounds, hscan, rfl, rfl⟩ := draw_visits h
  exact ⟨_, r₁, scanned, is, w,
    .step (.chore (.display surface)) (hrounds.path drawn_told rfl), hscan, rfl, rfl⟩

/-- The files with another text of later date in the one script. -/
def FileTree.later (name text : String) : FileTree :=
  { root := .dir [("scripts", .dir [(name, .file text.toUTF8 9000)])] }

set_option maxRecDepth 100000 in
/-- A script of a plain name is loaded again after its file was changed. -/
theorem scans_cover_edited : ∃ (c : HostConfig) (w : World) (past : List Event) (r : Registry)
    (budget n : Nat) (is : List Instance) (w' : World), Path (Registry.start c w) past r ∧
      scan budget r.libraries r.scripts.dir r.instances r.world = some (.ok n, is, w') ∧
      r.instances.map (fun i => (i.name, i.isOverdue r.world.files)) = [("A", true)] ∧
      is.map Instance.generation = [some 2] ∧ ∃ es sources reports,
        Sweep budget r.libraries sources r.instances (r.world.recordAll reports) es is w' ∧
        es.length = n ∧ Covered r.scripts r.instances r.world es := by
  let c : HostConfig := { scripts := { startup := [] } }
  let w : World := .ofScript "A.rhai" "fn OnDraw() \x7b \x7d"
  let ops : List Op := [.add "A", .around (.edit (.later "A.rhai" "fn OnUpdate() \x7b \x7d"))]
  have hrun : (Op.runAll 1000 (.start c w) ops).any (fun r =>
      r.instances.map (fun i => (i.name, i.isOverdue r.world.files)) == [("A", true)] &&
        (scan 1000 r.libraries r.scripts.dir r.instances r.world).any fun p =>
          p.1.isOk && p.2.1.map Instance.generation == [some 2]) = true := by
    decide +kernel
  obtain ⟨r, hr, hshows⟩ := (Option.any_eq_true _ _).mp hrun
  obtain ⟨hoverdue, hscan⟩ := Bool.and_eq_true_iff.mp hshows
  obtain ⟨⟨result, is, w'⟩, hscan, hafter⟩ := (Option.any_eq_true _ _).mp hscan
  obtain ⟨hok, hagain⟩ := Bool.and_eq_true_iff.mp hafter
  obtain ⟨past, -, h⟩ := Annals.start.all hr
  cases result with
  | error e => cases hok
  | ok n =>
      exact ⟨c, w, eventsOf past, r, 1000, n, is, w', h.path, hscan, beq_iff_eq.mp hoverdue,
        beq_iff_eq.mp hagain, scans_cover h.path hscan⟩

set_option maxRecDepth 100000 in
/-- Behind an extension with a dot in it the stem is not the name: the script was loaded from its
file and the file was changed, but no scan attempts to load it again. -/
theorem dotted_extension_missed : ∃ (c : HostConfig) (w : World) (past : List Event) (r : Registry)
    (is : List Instance) (w' : World), Path (Registry.start c w) past r ∧
      r.instances.map (fun i => (i.name, i.generation, i.isOverdue r.world.files)) =
        [("A", some 1, true)] ∧
      scan 1000 r.libraries r.scripts.dir r.instances r.world = some (.ok 0, is, w') ∧
      is.map Instance.generation = [some 1] := by
  let c : HostConfig := { scripts := { startup := [], extension := "v1.rhai" } }
  let w : World := .ofScript "A.v1.rhai" "fn OnDraw() \x7b \x7d"
  let ops : List Op := [.add "A", .around (.edit (.later "A.v1.rhai" "fn OnUpdate() \x7b \x7d"))]
  have hrun : (Op.runAll 1000 (.start c w) ops).any (fun r =>
      r.instances.map (fun i => (i.name, i.generation, i.isOverdue r.world.files)) ==
          [("A", some 1, true)] &&
        (scan 1000 r.libraries r.scripts.dir r.instances r.world).any fun p =>
          p.1.toOption == some 0 && p.2.1.map Instance.generation == [some 1]) = true := by
    decide +kernel
  obtain ⟨r, hr, hshows⟩ := (Option.any_eq_true _ _).mp hrun
  obtain ⟨hoverdue, hscan⟩ := Bool.and_eq_true_iff.mp hshows
  obtain ⟨⟨result, is, w'⟩, hscan, hafter⟩ := (Option.any_eq_true _ _).mp hscan
  obtain ⟨hnone, hagain⟩ := Bool.and_eq_true_iff.mp hafter
  obtain ⟨past, -, h⟩ := Annals.start.all hr
  cases result with
  | error e => cases hnone
  | ok n =>
      obtain rfl : n = 0 := Option.some.inj (beq_iff_eq.mp hnone)
      exact ⟨c, w, eventsOf past, r, is, w', h.path, beq_iff_eq.mp hoverdue, hscan,
        beq_iff_eq.mp hagain⟩

end Stagehand
