import Stagehand.Proofs.Coverage
import Stagehand.Proofs.Echoes

/-!
# Scans, instance by instance

A scan goes from one source file to the next and for each along the list. Turned around it is one
trail for every instance (`Unravelled`): the files go by, and the instance is loaded again whenever
it is behind one of them as it stands by then (`CatchesUp`). What an instance is behind changes only
when an attempt succeeds, and then, if no file is dated later than the clock, it is behind none of
them any more. That settles how often and for which files an instance is attempted
(`Trail.Exact`).
-/

namespace Stagehand

open Lang

/-! ## Being behind a file -/

section Attempts

variable {libraries : Libraries} {a : Attempt} {s : SourceFile} {i j : Instance} {time : Instant}

/-- The name and the time of the last load decide. -/
theorem Instance.isStale_congr (hname : j.name = i.name) (htime : j.loadTime = i.loadTime)
    (s : SourceFile) : j.isStale s = i.isStale s := by
  unfold isStale
  rw [hname, htime]

theorem Instance.isStale_of_loaded (htime : i.loadTime = some time) (hs : s.modified ≤ time) :
    i.isStale s = false := by
  unfold isStale
  rw [htime, Bool.and_eq_false_iff]
  exact .inr (decide_eq_false (Int.not_lt.mpr hs))

theorem Attempt.Genuine.name (h : a.Genuine libraries) : a.after.name = a.before.name :=
  congrArg ScriptHandle.name h.handle

theorem Attempt.Genuine.clock_le (h : a.Genuine libraries) : a.world.clock ≤ a.left.clock := by
  obtain ⟨budget, hreload⟩ := h
  obtain ⟨effects, hran, -⟩ := Instance.reload_ran (serves_everything _)
    (World.confined_everything _ _) (within_everything _) hreload
  exact hran.clock_le

/-- A load is dated when it is over. -/
theorem Attempt.Genuine.dates (h : a.Genuine libraries) (hs : a.succeeded = true) :
    ∃ time, a.after.loadTime = some time ∧ a.world.clock ≤ time := by
  obtain ⟨budget, hreload⟩ := h
  rcases Instance.reload_cases hreload with ⟨b, w, hbuild, -, hafter, -⟩ | ⟨e, w, -, hr, -, -⟩
  · obtain ⟨effects, hran, -⟩ :=
      build_ran (serves_everything _) (World.confined_everything _ _) hbuild
    exact ⟨w.clock, by rw [hafter]; rfl, hran.clock_le⟩
  · rw [Attempt.succeeded, hr] at hs
    cases hs

/-- A failure leaves the date and a message. -/
theorem Attempt.Genuine.fails (h : a.Genuine libraries) (hs : a.succeeded = false) :
    a.after.loadTime = a.before.loadTime ∧ a.after.lastError.isSome = true := by
  obtain ⟨budget, hreload⟩ := h
  rcases Instance.reload_cases hreload with ⟨b, w, -, hr, -, -⟩ | ⟨e, w, -, -, hafter, -⟩
  · rw [Attempt.succeeded, hr] at hs
    cases hs
  · rw [hafter]
    exact ⟨rfl, rfl⟩

/-- Behind which files an instance is after an attempt: behind none that is not later than the
attempt, or behind the same as before. -/
theorem Attempt.Genuine.isStale (h : a.Genuine libraries) (ht : time ≤ a.world.clock)
    (hs : s.modified ≤ time) :
    a.after.isStale s = if a.succeeded then false else a.before.isStale s := by
  cases hsucceeded : a.succeeded with
  | true =>
      obtain ⟨loaded, hloaded, hle⟩ := h.dates hsucceeded
      exact Instance.isStale_of_loaded hloaded (Int.le_trans hs (Int.le_trans ht hle))
  | false => exact Instance.isStale_congr h.name (h.fails hsucceeded).1 s

end Attempts

/-! ## Trails -/

/-- One instance in a scan: what it was, the attempts to load it, each with the file that it was
for, and what it is in the end. -/
structure Trail where
  start : Instance
  tries : List (SourceFile × Attempt)
  stop : Instance

/-- What happens to the instance. -/
def Trail.events (t : Trail) : List Event := t.tries.map fun p => .tried p.2

/-- The last attempt, if there was one, succeeded. -/
def Trail.CaughtUp (t : Trail) : Prop := ∀ p ∈ t.tries.getLast?, p.2.succeeded = true

/-- One source file after the other goes by, from a time on, and an instance that is behind the
file is loaded again. -/
inductive CatchesUp (libraries : Libraries) (time : Instant) :
    List SourceFile → Instance → List (SourceFile × Attempt) → Instance → Prop
  | done {i : Instance} : CatchesUp libraries time [] i [] i
  | tried {s : SourceFile} {rest : List SourceFile} {a : Attempt} {i' : Instance}
      {tries : List (SourceFile × Attempt)} (hstale : a.before.isStale s = true)
      (ha : a.Genuine libraries) (ht : time ≤ a.world.clock)
      (hs : CatchesUp libraries time rest a.after tries i') :
      CatchesUp libraries time (s :: rest) a.before ((s, a) :: tries) i'
  | passed {s : SourceFile} {rest : List SourceFile} {i i' : Instance}
      {tries : List (SourceFile × Attempt)} (hfresh : i.isStale s = false)
      (hs : CatchesUp libraries time rest i tries i') :
      CatchesUp libraries time (s :: rest) i tries i'

/-- The trail of an instance in full: attempts for the files that it is behind in the beginning,
in the order of the files, up to the first attempt that succeeds. -/
structure Trail.Exact (t : Trail) (sources : List SourceFile) : Prop where
  files : t.tries.map Prod.fst <+: sources.filter t.start.isStale
  again : ∀ p ∈ t.tries.dropLast, p.2.succeeded = false
  ends : t.tries.map Prod.fst = sources.filter t.start.isStale ∨
    ∃ p ∈ t.tries.getLast?, p.2.succeeded = true

namespace CatchesUp

variable {libraries : Libraries} {time : Instant} {sources : List SourceFile} {i i' : Instance}
  {tries : List (SourceFile × Attempt)}

/-- Who is behind no file is left alone. -/
theorem idle (h : CatchesUp libraries time sources i tries i')
    (hfresh : ∀ s ∈ sources, i.isStale s = false) : tries = [] ∧ i' = i := by
  induction h with
  | done => exact ⟨rfl, rfl⟩
  | tried hstale =>
      rw [(List.forall_mem_cons.mp hfresh).1] at hstale
      nomatch hstale
  | passed _ _ ih => exact ih (List.forall_mem_cons.mp hfresh).2

theorem exact (h : CatchesUp libraries time sources i tries i')
    (hdates : ∀ s ∈ sources, s.modified ≤ time) : Trail.Exact ⟨i, tries, i'⟩ sources := by
  induction h with
  | done => exact ⟨List.prefix_refl _, List.forall_mem_nil _, .inl rfl⟩
  | @passed s rest i i' tries hfresh _ ih =>
      obtain ⟨-, hrest⟩ := List.forall_mem_cons.mp hdates
      obtain ⟨hfiles, hagain, hends⟩ := ih hrest
      have hsame : (s :: rest).filter i.isStale = rest.filter i.isStale :=
        List.filter_cons_of_neg (Bool.eq_false_iff.mp hfresh)
      exact ⟨hsame ▸ hfiles, hagain, hsame ▸ hends⟩
  | @tried s rest a i' tries hstale ha ht hs ih =>
      obtain ⟨-, hrest⟩ := List.forall_mem_cons.mp hdates
      have hbehind : ∀ s ∈ rest, a.after.isStale s =
          if a.succeeded then false else a.before.isStale s :=
        fun s hs => ha.isStale ht (hrest s hs)
      have hfilter : (s :: rest).filter a.before.isStale = s :: rest.filter a.before.isStale :=
        List.filter_cons_of_pos hstale
      cases hsucceeded : a.succeeded with
      | true =>
          -- behind no file any more
          obtain ⟨rfl, -⟩ := hs.idle fun s hs => by rw [hbehind s hs, hsucceeded]; rfl
          exact ⟨hfilter ▸ ⟨_, rfl⟩, List.forall_mem_nil _, .inr ⟨_, rfl, hsucceeded⟩⟩
      | false =>
          -- behind the same files as before
          have hsame : rest.filter a.after.isStale = rest.filter a.before.isStale :=
            List.filter_congr fun s hs => by rw [hbehind s hs, hsucceeded]; rfl
          obtain ⟨hfiles, hagain, hends⟩ := ih hrest
          dsimp only at hfiles hends hagain ⊢
          rw [hsame] at hfiles hends
          refine ⟨hfilter ▸ List.cons_prefix_cons.mpr ⟨rfl, hfiles⟩, fun p hp => ?_, ?_⟩
          · cases tries with
            | nil => nomatch hp
            | cons first tries =>
                rcases List.mem_cons.mp hp with rfl | hp
                · exact hsucceeded
                · exact hagain p hp
          · refine hends.imp (fun heq => ?_) fun ⟨p, hp, hlast⟩ => ⟨p, ?_, hlast⟩
            · rw [hfilter, ← heq]
              rfl
            · cases tries with
              | nil => nomatch hp
              | cons first tries => exact hp

/-- Behind which files the instance is in the end: if an attempt succeeded, behind none. -/
theorem isStale (h : CatchesUp libraries time sources i tries i') {s : SourceFile}
    (hs : s.modified ≤ time) :
    i'.isStale s = if tries.any (fun p => p.2.succeeded) then false else i.isStale s := by
  induction h with
  | done => rfl
  | passed _ _ ih => exact ih
  | @tried _ _ a _ tries _ ha ht _ ih =>
      rw [ih, ha.isStale ht hs, List.any_cons]
      cases a.succeeded <;> simp

/-- Who caught up is behind no file. -/
theorem caughtUp (h : CatchesUp libraries time sources i tries i')
    (hdates : ∀ s ∈ sources, s.modified ≤ time) (hlast : Trail.CaughtUp ⟨i, tries, i'⟩) :
    ∀ s ∈ sources, i'.isStale s = false := by
  intro s hs
  rw [h.isStale (hdates s hs)]
  rcases List.eq_nil_or_concat tries with rfl | ⟨before, last, rfl⟩
  · -- there was nothing that the instance was behind
    have hnone : sources.filter i.isStale = [] := by
      rcases (h.exact hdates).ends with heq | ⟨p, hp, -⟩
      · exact heq.symm
      · nomatch hp
    exact Bool.eq_false_iff.mpr (List.filter_eq_nil_iff.mp hnone s hs)
  · have hsucceeded : last.2.succeeded = true := hlast last (by simp)
    rw [List.concat_eq_append, List.any_append]
    simp [hsucceeded]

theorem untried (h : CatchesUp libraries time sources i tries i') (hnone : tries = []) :
    i' = i := by
  induction h with
  | done => rfl
  | tried => nomatch hnone
  | passed _ _ ih => exact ih hnone

/-- A failure leaves a message, so who has none in the end has caught up. -/
theorem caughtUp_of_silent (h : CatchesUp libraries time sources i tries i')
    (hsilent : i'.lastError = none) : Trail.CaughtUp ⟨i, tries, i'⟩ := by
  induction h with
  | done => simp [Trail.CaughtUp]
  | passed _ _ ih => exact ih hsilent
  | @tried _ _ a i' tries _ ha _ hs ih =>
      cases tries with
      | cons first tries => exact ih hsilent
      | nil =>
          obtain rfl := hs.untried rfl
          rintro p ⟨⟩
          refine Bool.of_not_eq_false fun hfailed => ?_
          have hmessage := (ha.fails hfailed).2
          rw [hsilent] at hmessage
          nomatch hmessage

end CatchesUp

namespace Trail

variable {t : Trail} {sources : List SourceFile}

/-- Only the last attempt can succeed. -/
theorem Exact.once (h : t.Exact sources) : t.tries.countP (fun p => p.2.succeeded) ≤ 1 := by
  rcases List.eq_nil_or_concat t.tries with hnil | ⟨tries, last, htries⟩
  · rw [hnil]
    exact Nat.zero_le 1
  · have hagain := h.again
    rw [htries, List.concat_eq_append, List.dropLast_concat] at hagain
    have hnone : tries.countP (fun p => p.2.succeeded) = 0 :=
      List.countP_eq_zero.mpr fun p hp => Bool.eq_false_iff.mp (hagain p hp)
    rw [htries, List.concat_eq_append, List.countP_append, hnone, Nat.zero_add]
    exact List.countP_le_length

end Trail

/-! ## From the list to its instances -/

/-- A scan of the instances of a list through source files is a trail for each of them, and what
it does is what the trails are made of. -/
structure Unravelled (libraries : Libraries) (time : Instant) (sources : List SourceFile)
    (is : List Instance) (es : List Event) (is' : List Instance) (trails : List Trail) : Prop where
  starts : trails.map Trail.start = is
  stops : trails.map Trail.stop = is'
  each : ∀ t ∈ trails, CatchesUp libraries time sources t.start t.tries t.stop
  events : es.Perm (trails.flatMap Trail.events)

section Sweeps

variable {budget : Nat} {libraries : Libraries} {s : SourceFile} {sources : List SourceFile}
  {is is' is'' : List Instance} {w w' : World} {time : Instant} {es es' : List Event}

theorem Reloads.clock_le (h : Reloads budget libraries s is w es is' w') : w.clock ≤ w'.clock := by
  induction h with
  | done => exact Int.le_refl _
  | @stale i i' _ _ w w₁ _ _ result _ hreload _ ih =>
      have ha : Attempt.Genuine libraries ⟨i, w.record (s.report i), result, i', w₁⟩ :=
        ⟨budget, hreload⟩
      exact Int.le_trans ha.clock_le ih
  | fresh _ _ ih => exact ih

/-- One more file in front of the others is one more step in every trail. -/
theorem Reloads.unravel (h : Reloads budget libraries s is w es is' w') (ht : time ≤ w.clock)
    {trails : List Trail} (hc : Unravelled libraries time sources is' es' is'' trails) :
    ∃ longer, Unravelled libraries time (s :: sources) is (es ++ es') is'' longer := by
  induction h generalizing trails es' is'' with
  | done =>
      obtain ⟨hstarts, hstops, -, hevents⟩ := hc
      cases List.map_eq_nil_iff.mp hstarts
      exact ⟨[], rfl, hstops, List.forall_mem_nil _, hevents⟩
  | @stale i i' rest rest' w w₁ w' es result hstale hreload hs ih =>
      obtain ⟨hstarts, rfl, heach, hevents⟩ := hc
      obtain ⟨t, trails, rfl, rfl, hrest⟩ := List.map_eq_cons_iff.mp hstarts
      obtain ⟨hfirst, hothers⟩ := List.forall_mem_cons.mp heach
      let a : Attempt := ⟨i, w.record (s.report i), result, t.start, w₁⟩
      have ha : a.Genuine libraries := ⟨budget, hreload⟩
      obtain ⟨longer, hstarts, hstops, hlonger, hmore⟩ := ih (Int.le_trans ht ha.clock_le)
        ⟨hrest, rfl, hothers, List.Perm.refl _⟩
      refine ⟨⟨i, (s, a) :: t.tries, t.stop⟩ :: longer, by rw [List.map_cons, hstarts],
        by rw [List.map_cons, hstops]; rfl,
        List.forall_mem_cons.mpr ⟨.tried (a := a) hstale ha ht hfirst, hlonger⟩, ?_⟩
      -- the attempt comes first, and then what the trail already was
      have hrest : (es ++ es').Perm (t.events ++ longer.flatMap Trail.events) :=
        (hevents.append_left es).trans
          ((List.perm_append_comm_assoc ..).trans (hmore.append_left t.events))
      exact hrest.cons (.tried a)
  | @fresh i rest rest' w w' es hfresh hs ih =>
      obtain ⟨hstarts, rfl, heach, hevents⟩ := hc
      obtain ⟨t, trails, rfl, rfl, hrest⟩ := List.map_eq_cons_iff.mp hstarts
      obtain ⟨hfirst, hothers⟩ := List.forall_mem_cons.mp heach
      obtain ⟨longer, hstarts, hstops, hlonger, hmore⟩ := ih ht
        ⟨hrest, rfl, hothers, List.Perm.refl _⟩
      refine ⟨t :: longer, by rw [List.map_cons, hstarts], by rw [List.map_cons, hstops]; rfl,
        List.forall_mem_cons.mpr ⟨.passed hfresh hfirst, hlonger⟩, ?_⟩
      exact (hevents.append_left es).trans
        ((List.perm_append_comm_assoc ..).trans (hmore.append_left t.events))

theorem Sweep.clock_le (h : Sweep budget libraries sources is w es is' w') : w.clock ≤ w'.clock := by
  induction h with
  | done => exact Int.le_refl _
  | source hreloads _ ih => exact Int.le_trans hreloads.clock_le ih

theorem Sweep.unravel (h : Sweep budget libraries sources is w es is' w') (ht : time ≤ w.clock) :
    ∃ trails, Unravelled libraries time sources is es is' trails := by
  induction h with
  | @done is w =>
      have hsame : (is.map fun i => Trail.mk i [] i).map Trail.start = is ∧
          (is.map fun i => Trail.mk i [] i).map Trail.stop = is := by
        simp [Function.comp_def]
      refine ⟨is.map fun i => ⟨i, [], i⟩, hsame.1, hsame.2, fun t hmem => ?_, ?_⟩
      · obtain ⟨i, -, rfl⟩ := List.mem_map.mp hmem
        exact .done
      · simp [List.flatMap_map, Trail.events]
  | source hreloads _ ih =>
      obtain ⟨trails, hc⟩ := ih (Int.le_trans ht hreloads.clock_le)
      exact hreloads.unravel ht hc

end Sweeps

/-! ## Scans in any order -/

/-- A scan that meets the source files in some order of its own. -/
def scanBy (order : List SourceFile → List SourceFile) (budget : Nat) (libraries : Libraries)
    (root : FilePath) (is : List Instance) (w : World) :
    Option (Except ScanError Nat × List Instance × World) :=
  match collectSources w.files root with
  | .error e => some (.error e, is, w)
  | .ok (sources, reports) => do
    let (n, is, w) ← reloadAll budget libraries (order sources) is (w.recordAll reports)
    return (.ok n, is, w)

theorem scanBy_id : scanBy id = scan := rfl

/-- Reports take no time. -/
theorem World.recordAll_clock (reports : List LogRecord) (w : World) :
    (w.recordAll reports).clock = w.clock := by
  obtain ⟨log, hlog⟩ := World.recordAll_world reports w
  rw [hlog]

/-- A scan that finds its files comes to what comes of them. -/
theorem scanBy_of_reloadAll {order : List SourceFile → List SourceFile} {budget n : Nat}
    {libraries : Libraries} {root : FilePath} {is is' : List Instance} {w w' : World}
    {sources : List SourceFile} {reports : List LogRecord}
    (hfound : collectSources w.files root = .ok (sources, reports))
    (h : reloadAll budget libraries (order sources) is (w.recordAll reports) =
      some (n, is', w')) :
    scanBy order budget libraries root is w = some (.ok n, is', w') := by
  unfold scanBy
  rw [hfound]
  exact Option.bind_eq_some_iff.mpr ⟨_, h, rfl⟩

/-- What a scan below a directory comes to for each instance. If the directory cannot be read
nothing happens to any of them. -/
inductive Surveyed (order : List SourceFile → List SourceFile) (budget : Nat)
    (libraries : Libraries) (root : FilePath) (is : List Instance) (w : World) :
    Except ScanError Nat → List Trail → List Instance → World → Prop
  | unread {e : ScanError} (h : collectSources w.files root = .error e) :
      Surveyed order budget libraries root is w (.error e) (is.map fun i => ⟨i, [], i⟩) is w
  | done {sources : List SourceFile} {reports : List LogRecord} {es : List Event}
      {trails : List Trail} {is' : List Instance} {w' : World}
      (h : collectSources w.files root = .ok (sources, reports))
      (hs : Sweep budget libraries (order sources) is (w.recordAll reports) es is' w')
      (hc : Unravelled libraries w.clock (order sources) is es is' trails) :
      Surveyed order budget libraries root is w (.ok es.length) trails is' w'

theorem scanBy_surveyed {order : List SourceFile → List SourceFile} {budget : Nat}
    {libraries : Libraries} {root : FilePath} {is is' : List Instance} {w w' : World}
    {result : Except ScanError Nat}
    (h : scanBy order budget libraries root is w = some (result, is', w')) :
    ∃ trails, Surveyed order budget libraries root is w result trails is' w' := by
  unfold scanBy at h
  split at h
  · rename_i e hfound
    cases h
    exact ⟨_, .unread hfound⟩
  · rename_i sources reports hfound
    obtain ⟨⟨n, is₁, w₁⟩, hall, hend⟩ := Option.bind_eq_some_iff.mp h
    cases hend
    obtain ⟨es, hsweep, rfl⟩ := Registry.reloadAll_sweep hall
    obtain ⟨trails, hc⟩ := hsweep.unravel (Int.le_of_eq (World.recordAll_clock reports w).symm)
    exact ⟨trails, .done hfound hsweep hc⟩

/-- Nobody has a message in the end, so everybody has caught up. -/
theorem Surveyed.caughtUp_of_silent {order : List SourceFile → List SourceFile} {budget : Nat}
    {libraries : Libraries} {root : FilePath} {is is' : List Instance} {w w' : World}
    {result : Except ScanError Nat} {trails : List Trail}
    (h : Surveyed order budget libraries root is w result trails is' w')
    (hsilent : ∀ i ∈ is', i.lastError = none) : ∀ t ∈ trails, t.CaughtUp := by
  intro t ht
  cases h with
  | unread =>
      obtain ⟨i, -, rfl⟩ := List.mem_map.mp ht
      simp [Trail.CaughtUp]
  | done _ _ hc =>
      exact (hc.each t ht).caughtUp_of_silent (hsilent t.stop (hc.stops ▸ List.mem_map_of_mem ht))

/-! ## Two files of one stem -/

/-- Two files with one stem: a script, and a later one with another extension. -/
def FileTree.twins (text : String) : FileTree :=
  { root := .dir [("scripts", .dir
    [("A.rhai", .file text.toUTF8 5000), ("A.txt", .file "-".toUTF8 6000)])] }

/-- What a scan finds of them. -/
def FileTree.twinSources : List SourceFile :=
  [⟨⟨"scripts/A.rhai"⟩, "A", 5000⟩, ⟨⟨"scripts/A.txt"⟩, "A", 6000⟩]

set_option maxRecDepth 100000 in
theorem FileTree.twins_sources {text : String} (ht : text.toUTF8.size ≠ 0) :
    collectSources (.twins text) ⟨"scripts"⟩ = .ok (twinSources, []) := by
  have hnames : (((twins text).node? (.inside ["scripts"])).map Node.names).getD [] =
      ["A.rhai", "A.txt"] := rfl
  have hwalk : (twins text).walk ⟨"scripts"⟩ = .ok
      [.file ⟨⟨"scripts/A.rhai"⟩, text.toUTF8.size, 5000⟩, .file ⟨⟨"scripts/A.txt"⟩, 1, 6000⟩] := by
    have hroot : (twins text).walk ⟨"scripts"⟩ = .ok ((twins text).walkDir 5 ⟨"scripts"⟩
      (.inside ["scripts"]) [(.inside ["scripts"], ⟨"scripts"⟩)]) := rfl
    rw [hroot, walkDir, hnames, List.mergeSort_of_pairwise (by decide +kernel)]
    rfl
  unfold collectSources
  rw [hwalk]
  have hstem : SourceFile.of? ⟨⟨"scripts/A.rhai"⟩, text.toUTF8.size, 5000⟩ =
      some ⟨⟨"scripts/A.rhai"⟩, "A", 5000⟩ := by
    have hs : (FilePath.mk "scripts/A.rhai").stem? = some "A" := by decide +kernel
    unfold SourceFile.of?
    rw [if_neg ht, hs]
    rfl
  have hother : SourceFile.of? ⟨⟨"scripts/A.txt"⟩, 1, 6000⟩ =
      some ⟨⟨"scripts/A.txt"⟩, "A", 6000⟩ := by decide +kernel
  simp only [List.filterMap_cons, hstem, hother]
  rfl

end Stagehand
