import Stagehand.Proofs.DrawPass
import Stagehand.Proofs.LateEdits
import Stagehand.Proofs.Scans

/-!
# Scans settle

Once every instance has caught up with the files, there is nothing for a scan to do, and nothing that
scripts or the host do changes that: calls leave the time of the last load alone, and a load, even
one that the host asks for, is dated by a clock that is past every file by then (`Rested`, kept by
every act but the joining of an instance). It takes a file that was not found before for a scan to
attempt anything again (`FileTree.Covers`).
-/

namespace Stagehand

open Lang

/-! ## Nothing to do -/

/-- A scan of the registry attempts nothing, whatever the order of the files, and leaves everything
as it is but for the reports in the log. -/
def Registry.Settled (r : Registry) : Prop :=
  ∀ (order : List SourceFile → List SourceFile) (budget : Nat),
    (∀ sources, (order sources).Perm sources) → ∃ result reports,
      scanBy order budget r.libraries r.scripts.dir r.instances r.world =
        some (result, r.instances, r.world.recordAll reports) ∧ ∀ n, result = .ok n → n = 0

/-- What a scan finds in other files it found in these, under the same path and of the same date. -/
def FileTree.Covers (files : FileTree) (root : FilePath) (files' : FileTree) : Prop :=
  ∀ found', collectSources files' root = .ok found' →
    ∃ found, collectSources files root = .ok found ∧ found'.1 ⊆ found.1

theorem FileTree.Covers.refl (files : FileTree) (root : FilePath) : files.Covers root files :=
  fun found h => ⟨found, h, List.Subset.refl _⟩

section Idle

variable {budget : Nat} {libraries : Libraries} {is : List Instance} {w : World}

theorem reloadStale_idle {s : SourceFile} (h : ∀ i ∈ is, i.isStale s = false) :
    reloadStale budget libraries s is w = some (0, is, w) := by
  induction is with
  | nil => rfl
  | cons i rest ih =>
      obtain ⟨hfirst, hrest⟩ := List.forall_mem_cons.mp h
      simp [reloadStale, hfirst, ih hrest]

theorem reloadAll_idle {sources : List SourceFile}
    (h : ∀ s ∈ sources, ∀ i ∈ is, i.isStale s = false) :
    reloadAll budget libraries sources is w = some (0, is, w) := by
  induction sources with
  | nil => rfl
  | cons s rest ih =>
      obtain ⟨hfirst, hrest⟩ := List.forall_mem_cons.mp h
      simp [reloadAll, reloadStale_idle hfirst, ih hrest]

end Idle

/-- Nobody is behind any of these files, none of which is dated later than the clock. -/
structure Registry.Rested (sources : List SourceFile) (r : Registry) : Prop where
  dates : ∀ s ∈ sources, s.modified ≤ r.world.clock
  fresh : ∀ s ∈ sources, ∀ i ∈ r.instances, i.isStale s = false

theorem Registry.Rested.settled {r : Registry} {sources : List SourceFile}
    (h : r.Rested sources) (hfound : ∀ found, collectSources r.world.files r.scripts.dir = .ok found →
      found.1 ⊆ sources) : r.Settled := by
  intro order budget horder
  cases hcollect : collectSources r.world.files r.scripts.dir with
  | error e =>
      refine ⟨.error e, [], ?_, nofun⟩
      unfold scanBy
      rw [hcollect]
      rfl
  | ok found =>
      have hidle : reloadAll budget r.libraries (order found.1) r.instances
          (r.world.recordAll found.2) = some (0, r.instances, r.world.recordAll found.2) :=
        reloadAll_idle fun s hs => h.fresh s (hfound found hcollect ((horder found.1).mem_iff.mp hs))
      refine ⟨.ok 0, found.2, scanBy_of_reloadAll hcollect hidle, fun n hn => ?_⟩
      cases hn
      rfl

/-! ## What acts do to it -/

theorem Instance.Continues.isStale {i i' : Instance} (h : i.Continues i') (s : SourceFile) :
    i'.isStale s = i.isStale s := by
  obtain ⟨⟨binding, running, rfl⟩, -, -⟩ := h
  rfl

section Acts

variable {r r' : Registry} {e : Event} {es : List Event} {sources : List SourceFile}

theorem Act.clock_le (h : Act r e r') : r.world.clock ≤ r'.world.clock := by
  by_cases he : ∃ files, e = .chore (.edit files)
  · obtain ⟨files, rfl⟩ := he
    cases h
    exact Int.le_refl _
  · exact (h.elapses (fun files heq => he ⟨files, heq⟩) default).clock

/-- An act on an instance that is behind nothing by then leaves the others as they were. -/
theorem Registry.Rested.set (h : r.Rested sources) {place : Nat} {i' : Instance} {w : World}
    (hclock : r.world.clock ≤ w.clock) (hi : ∀ s ∈ sources, i'.isStale s = false) :
    ({ r with world := w, instances := r.instances.set place i' } : Registry).Rested sources where
  dates s hs := Int.le_trans (h.dates s hs) hclock
  fresh s hs j hj := (List.mem_or_eq_of_mem_set hj).elim (h.fresh s hs j) fun heq => heq ▸ hi s hs

theorem Act.rested (h : Act r e r') (hr : r.Rested sources) (hjoins : e.joins = []) :
    r'.Rested sources := by
  have hclock := h.clock_le
  have hmem {place : Nat} {i : Instance} (hi : r.instances[place]? = some i) :
      ∀ s ∈ sources, i.isStale s = false :=
    fun s hs => hr.fresh s hs i (List.mem_of_getElem? hi)
  cases h with
  | joined => nomatch hjoins
  | tried place hi hw hg =>
      refine hr.set hclock fun s hs => ?_
      rw [hg.isStale (hw ▸ hr.dates s hs) (Int.le_refl _), hmem hi s hs, ite_self]
  | called place hi _ hg =>
      obtain ⟨budget, hdispatch⟩ := hg
      refine hr.set hclock fun s hs => ?_
      rw [(Instance.dispatch_continues hdispatch).isStale, hmem hi s hs]
  | invoked place hi _ hg =>
      obtain ⟨budget, hinvoke⟩ := hg
      refine hr.set hclock fun s hs => ?_
      rw [(Instance.invoke_continues hinvoke).isStale, hmem hi s hs]
  | started place hi _ _ _ _ hg =>
      obtain ⟨budget, hdispatch⟩ := hg
      refine hr.set hclock fun s hs => ?_
      have hsame := (Instance.dispatch_continues hdispatch).isStale s
      exact hsame.trans (hmem hi s hs)
  | left ids =>
      exact ⟨fun s hs => Int.le_trans (hr.dates s hs) hclock,
        fun s hs i hi => hr.fresh s hs i (List.mem_filter.mp hi).1⟩
  | chore c =>
      have hsame : (c.apply r).instances = r.instances := by cases c <;> rfl
      exact ⟨fun s hs => Int.le_trans (hr.dates s hs) hclock, hsame ▸ hr.fresh⟩

theorem Path.rested (h : Path r es r') (hr : r.Rested sources) (hjoins : ∀ e ∈ es, e.joins = []) :
    r'.Rested sources := by
  induction h with
  | refl => exact hr
  | step hact _ ih =>
      obtain ⟨hfirst, hrest⟩ := List.forall_mem_cons.mp hjoins
      exact ih (hact.rested hr hfirst) hrest

end Acts

/-! ## The law -/

theorem Sweep.files {budget : Nat} {libraries : Libraries} {sources : List SourceFile}
    {is is' : List Instance} {w w' : World} {es : List Event}
    (h : Sweep budget libraries sources is w es is' w') : w'.files = w.files := by
  induction h with
  | done => rfl
  | source hreloads _ ih => exact ih.trans hreloads.kept.2.1

theorem Surveyed.files {order : List SourceFile → List SourceFile} {budget : Nat}
    {libraries : Libraries} {root : FilePath} {is is' : List Instance} {w w' : World}
    {result : Except ScanError Nat} {trails : List Trail}
    (h : Surveyed order budget libraries root is w result trails is' w') : w'.files = w.files := by
  cases h with
  | unread => rfl
  | @done sources reports es trails is' w' _ hsweep _ =>
      obtain ⟨log, hlog⟩ := World.recordAll_world reports w
      rw [hsweep.files, hlog]

/-- A scan behind which everybody has caught up leaves nobody behind a file. -/
theorem Surveyed.rested {order : List SourceFile → List SourceFile} {budget : Nat} {r : Registry}
    {is : List Instance} {w : World} {result : Except ScanError Nat} {trails : List Trail}
    {found : List SourceFile} {reports : List LogRecord}
    (horder : ∀ sources, (order sources).Perm sources)
    (h : Surveyed order budget r.libraries r.scripts.dir r.instances r.world result trails is w)
    (hfound : collectSources r.world.files r.scripts.dir = .ok (found, reports))
    (hdates : ∀ s ∈ found, s.modified ≤ r.world.clock) (hlast : ∀ t ∈ trails, t.CaughtUp) :
    ({ r with instances := is, world := w } : Registry).Rested found := by
  cases h with
  | unread herror =>
      rw [hfound] at herror
      nomatch herror
  | done hcollect hsweep hc =>
      cases hfound.symm.trans hcollect
      have hclock : r.world.clock ≤ w.clock :=
        World.recordAll_clock reports r.world ▸ hsweep.clock_le
      refine ⟨fun s hs => Int.le_trans (hdates s hs) hclock, fun s hs i hi => ?_⟩
      obtain ⟨t, ht, rfl⟩ := List.mem_map.mp (hc.stops ▸ hi)
      exact (hc.each t ht).caughtUp (fun s hs => hdates s ((horder found).mem_iff.mp hs))
        (hlast t ht) s ((horder found).mem_iff.mpr hs)

/-- No file is dated later than the clock when a scan begins. Then no instance is loaded more than
once in it; and if everybody has caught up behind it, all later scans have nothing to do, as long as
they find no file that this one did not find, and no instance joins. -/
theorem watcher_settles {order : List SourceFile → List SourceFile} {budget : Nat} {r : Registry}
    {is : List Instance} {w : World} {result : Except ScanError Nat}
    (horder : ∀ sources, (order sources).Perm sources)
    (h : scanBy order budget r.libraries r.scripts.dir r.instances r.world = some (result, is, w))
    (hdates : ∀ found, collectSources r.world.files r.scripts.dir = .ok found →
      ∀ s ∈ found.1, s.modified ≤ r.world.clock) :
    ∃ trails,
      Surveyed order budget r.libraries r.scripts.dir r.instances r.world result trails is w ∧
      (∀ t ∈ trails, t.tries.countP (fun p => p.2.succeeded) ≤ 1) ∧
      ((∀ t ∈ trails, t.CaughtUp) → ∀ es r',
        Path { r with instances := is, world := w } es r' → (∀ e ∈ es, e.joins = []) →
        r.world.files.Covers r.scripts.dir r'.world.files → r'.Settled) := by
  obtain ⟨trails, hsurvey⟩ := scanBy_surveyed h
  refine ⟨trails, hsurvey, fun t ht => ?_, fun hlast es r' hpath hjoins hcovers => ?_⟩
  · cases hsurvey with
    | unread =>
        obtain ⟨i, -, rfl⟩ := List.mem_map.mp ht
        exact Nat.zero_le 1
    | done hfound _ hc =>
        refine ((hc.each t ht).exact fun s hs => ?_).once
        exact hdates _ hfound s ((horder _).mem_iff.mp hs)
  · cases hfound : collectSources r.world.files r.scripts.dir with
    | error e =>
        -- nothing was found at first, so nothing is found later
        have hnone : ({ r with instances := is, world := w } : Registry).Rested [] :=
          ⟨List.forall_mem_nil _, List.forall_mem_nil _⟩
        refine (hpath.rested hnone hjoins).settled fun found' hfound' => ?_
        obtain ⟨found, hok, -⟩ := hcovers found' (hpath.fixed.1 ▸ hfound')
        rw [hfound] at hok
        nomatch hok
    | ok found =>
        have hrested := hsurvey.rested horder hfound (hdates found hfound) hlast
        refine (hpath.rested hrested hjoins).settled fun found' hfound' => ?_
        obtain ⟨_, hok, hsub⟩ := hcovers found' (hpath.fixed.1 ▸ hfound')
        cases hfound.symm.trans hok
        exact hsub

set_option maxRecDepth 100000 in
/-- Two instances of a name, and two files with the name for their stem, both later than the loads.
The top level fails every second time, by a count in its store: the attempts for the first file fail
and those for the second one succeed. After that, however late, there is nothing to do. -/
theorem watcher_settles_retrying : ∃ (r : Registry) (is : List Instance) (w : World),
    scanBy List.reverse 1000 r.libraries r.scripts.dir r.instances r.world =
        some (.ok 4, is, w) ∧
      r.instances.map (fun i => (i.name, i.generation)) = [("A", some 1), ("A", some 1)] ∧
      is.map (fun i => (i.name, i.generation)) = [("A", some 2), ("A", some 2)] ∧
      ({ r with instances := is, world := { w with clock := w.clock + 500 } } : Registry).Settled ∧
      ∃ trails, Surveyed List.reverse 1000 r.libraries r.scripts.dir r.instances r.world (.ok 4)
        trails is w ∧ ∀ t ∈ trails, t.tries.countP (fun p => p.2.succeeded) ≤ 1 := by
  let c : HostConfig := { scripts := { startup := [] } }
  let text := "let n = Data.Get(\"n\") ?? 0; Data.Set(\"n\", n + 1); if n == 1 \x7b throw n; \x7d"
  have hrun : (Op.runAll 1000 (.start c (.ofScript "A.rhai" text)) [.add "A", .add "A"]).any
      (fun r => r.scripts.dir == ⟨"scripts"⟩ &&
        (r.instances.map (fun i => (i.name, i.generation)) == [("A", some 1), ("A", some 1)] &&
        (reloadAll 1000 r.libraries FileTree.twinSources.reverse r.instances
            { r.world with files := .twins text, clock := 9000 }).any fun p =>
          p.1 == 4 &&
            (p.2.1.map (fun i => (i.name, i.generation)) == [("A", some 2), ("A", some 2)] &&
              p.2.1.all fun i => i.lastError.isNone))) = true := by
    decide +kernel
  obtain ⟨r₀, -, hrun⟩ := (Option.any_eq_true _ _).mp hrun
  obtain ⟨hdir, hrun⟩ := Bool.and_eq_true_iff.mp hrun
  obtain ⟨hbefore, hall⟩ := Bool.and_eq_true_iff.mp hrun
  obtain ⟨⟨n, is, w⟩, hall, hafter⟩ := (Option.any_eq_true _ _).mp hall
  obtain ⟨hcount, hafter⟩ := Bool.and_eq_true_iff.mp hafter
  obtain ⟨hafter, hsilent⟩ := Bool.and_eq_true_iff.mp hafter
  obtain rfl : n = 4 := beq_iff_eq.mp hcount
  let r : Registry := { r₀ with world := { r₀.world with files := .twins text, clock := 9000 } }
  have hfound : collectSources r.world.files r.scripts.dir = .ok (FileTree.twinSources, []) := by
    rw [show r.scripts.dir = ⟨"scripts"⟩ from beq_iff_eq.mp hdir]
    exact FileTree.twins_sources (by decide +kernel)
  have hscan : scanBy List.reverse 1000 r.libraries r.scripts.dir r.instances r.world =
      some (.ok 4, is, w) := scanBy_of_reloadAll hfound hall
  have hdated : ∀ found, collectSources r.world.files r.scripts.dir = .ok found →
      ∀ s ∈ found.1, s.modified ≤ r.world.clock := by
    intro found heq
    cases hfound.symm.trans heq
    have hdates : ∀ s ∈ FileTree.twinSources, s.modified ≤ 9000 := by decide
    exact hdates
  obtain ⟨trails, hsurvey, honce, hsettles⟩ :=
    watcher_settles (fun _ => List.reverse_perm _) hscan hdated
  have hcaught := hsurvey.caughtUp_of_silent fun i hi =>
    Option.isNone_iff_eq_none.mp (List.all_eq_true.mp hsilent i hi)
  refine ⟨r, is, w, hscan, beq_iff_eq.mp hbefore, beq_iff_eq.mp hafter, ?_, trails, hsurvey, honce⟩
  refine hsettles hcaught _ _ (.single (.chore (.wait 500))) (by simp [Event.joins]) ?_
  exact hsurvey.files ▸ .refl _ _

end Stagehand
