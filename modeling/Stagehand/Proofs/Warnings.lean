import Mathlib.Data.List.Destutter
import Mathlib.Data.List.ReduceOption
import Stagehand.Proofs.Utterances

/-!
# Warnings about failed loads

To fail to load in the same way as the last time is no news. An instance remembers how the last
attempt to load it failed, and nothing but the next attempt touches this (`Recalling`); so what is
reported of an attempt follows from the attempts before it (`Attempt.report`), and the warnings
about an instance are the failures of its attempts in order, runs of the same one put into one
(`warnings_destutter`). Whatever else goes on in between, it warns of nothing, except for what the
host itself reports there (`Act.others_warn`).
-/

namespace Stagehand

open Lang

/-! ## What is reported of an attempt -/

/-- How an attempt failed, if it did. -/
def Attempt.failure? (a : Attempt) : Option String :=
  match a.result with
  | .ok _ => none
  | .error e => some e.message

/-- How the last of these attempts failed, if there is a last one and it did. -/
def lastFailure (as : List Attempt) : Option String := as.getLast?.bind Attempt.failure?

theorem lastFailure_concat (as : List Attempt) (a : Attempt) :
    lastFailure (as ++ [a]) = a.failure? := by
  rw [lastFailure, List.getLast?_concat, Option.bind_some]

/-- The wording of the warning about a failure. -/
def warningText (failure : String) : String := "reload aborted: " ++ failure

/-- What there is to report of an attempt that was made after these. -/
def Attempt.report (before : List Attempt) (a : Attempt) : LogRecord :=
  match a.result with
  | .ok _ => Level.info.report "script loaded" [("script", a.before.name),
      ("entry_points", Instance.entriesText ((a.after.binding.map Binding.entries).getD []))]
  | .error e =>
    let fields := [("script", a.before.name), ("step", e.step)]
    if lastFailure before = some e.message then Level.debug.report "reload still failing" fields
    else Level.warn.report (warningText e.message) fields

/-- The warnings that came into the log in an attempt. -/
def Attempt.warnings (a : Attempt) : List LogRecord :=
  (a.world.gained a.left).filter (·.level == .warn)

/-- An attempt that was made after these ends with the one report that is due, and there is a
warning if and only if it fails and the last one did not fail in the same way. -/
structure Attempt.Reported (before : List Attempt) (a : Attempt) : Prop where
  told : a.world.Told a.before.handle [a.report before] a.left
  warned : a.warnings ≠ [] ↔ ∃ m, a.failure? = some m ∧ lastFailure before ≠ some m
  demoted : ∀ m, a.failure? = some m → lastFailure before = some m →
    (a.report before).level = .debug

theorem Utterance.no_warning {owner : ScriptHandle} {l : LogRecord} (h : Utterance owner l) :
    l.level ≠ .warn := by
  rcases h.level with hlevel | hlevel <;> rw [hlevel] <;> decide

/-- What scripts say is no warning; the host's reports are left. -/
theorem World.Told.warnings {owner : ScriptHandle} {reports : List LogRecord} {w w' : World}
    (h : w.Told owner reports w') :
    (w.gained w').filter (·.level == .warn) = reports.filter (·.level == .warn) := by
  obtain ⟨said, hgained, hsaid⟩ := h.said
  have hnone : said.filter (·.level == .warn) = [] :=
    List.filter_eq_nil_iff.mpr fun l hl => by simpa using (hsaid l hl).no_warning
  rw [hgained, List.filter_append, hnone, List.nil_append]

namespace Attempt

variable {libraries : Libraries} {before : List Attempt} {a : Attempt}

/-- The report warns of a failure that is news, and of nothing else. -/
theorem report_warns (before : List Attempt) (a : Attempt) :
    ([a.report before].filter (·.level == .warn)).map LogRecord.message =
      if a.failure? = lastFailure before then [] else (a.failure?.map warningText).toList := by
  unfold report failure?
  split
  · simp [Level.report]
  · rename_i e _
    by_cases hsame : lastFailure before = some e.message
    · simp [hsame, Level.report]
    · simp [hsame, Ne.symm hsame, Level.report]

/-- The warnings in an attempt, by what they say. -/
theorem warnings_of_told (h : a.world.Told a.before.handle [a.report before] a.left) :
    a.warnings.map LogRecord.message =
      if a.failure? = lastFailure before then [] else (a.failure?.map warningText).toList := by
  rw [warnings, h.warnings, report_warns]

theorem reported_of_told (h : a.world.Told a.before.handle [a.report before] a.left) :
    a.Reported before where
  told := h
  warned := by
    rw [← (List.map_eq_nil_iff (f := LogRecord.message)).ne, warnings_of_told h]
    cases a.failure? with
    | none => simp
    | some m => simp [eq_comm]
  demoted m hfailure hlast := by
    unfold failure? at hfailure
    unfold report
    split at hfailure
    · nomatch hfailure
    · cases hfailure
      rw [if_pos hlast]
      rfl

/-- An instance that remembers how the last attempt failed is reported accordingly. -/
theorem Genuine.reported (h : a.Genuine libraries)
    (hlast : a.before.lastError = lastFailure before) : a.Reported before := by
  obtain ⟨budget, hreload⟩ := h
  refine reported_of_told ?_
  rcases Instance.reload_log hreload with ⟨b, time, hr, hafter, htold⟩ | ⟨e, hr, hafter, htold⟩
  · have hreport : a.report before = a.before.successReport b := by
      rw [report, hr, hafter]
      rfl
    exact hreport ▸ htold
  · have hreport : a.report before = a.before.failureReport e := by
      rw [report, hr, Instance.failureReport, hlast]
      rfl
    exact hreport ▸ htold

/-- After an attempt the instance remembers how it failed, if it did. -/
theorem Genuine.lastError (h : a.Genuine libraries) : a.after.lastError = a.failure? := by
  obtain ⟨budget, hreload⟩ := h
  rcases Instance.reload_log hreload with ⟨b, time, hr, hafter, -⟩ | ⟨e, hr, hafter, -⟩
  · rw [hafter, failure?, hr]
    rfl
  · rw [hafter, failure?, hr]
    rfl

end Attempt

theorem Instance.Continues.lastError {i i' : Instance} (h : i.Continues i') :
    i'.lastError = i.lastError := by
  obtain ⟨⟨binding, running, rfl⟩, -, -⟩ := h
  rfl

/-! ## What an act reports -/

/-- What came into the log in an event. -/
def Event.records : Event → List LogRecord
  | .joined a | .tried a => a.world.gained a.left
  | .called c | .invoked c | .started c => c.world.gained c.left
  | .chore (.record l) => [l]
  | .left _ | .chore _ => []

section Acts

variable {r r' : Registry} {e : Event} {i i' : Instance}

theorem Call.Dispatched.told {libraries : Libraries} {c : Call} (h : c.Dispatched libraries) :
    c.world.Told c.before.handle (c.outcome.error?.map DispatchError.report).toList c.left := by
  obtain ⟨budget, hdispatch⟩ := h
  exact Instance.dispatch_log hdispatch

theorem Call.Invoked.told {libraries : Libraries} {c : Call} (h : c.Invoked libraries) :
    c.world.Told c.before.handle [] c.left := by
  obtain ⟨budget, hinvoke⟩ := h
  exact Instance.invoke_log hinvoke

theorem Attempt.Genuine.grows {libraries : Libraries} {a : Attempt} (h : a.Genuine libraries) :
    a.left.log.toList = a.world.log.toList ++ a.world.gained a.left := by
  obtain ⟨budget, hreload⟩ := h
  rcases Instance.reload_log hreload with ⟨b, time, -, -, htold⟩ | ⟨e, -, -, htold⟩
  · exact htold.grows
  · exact htold.grows

namespace Act

/-- An act takes nothing out of the log. -/
theorem log (h : Act r e r') : r'.world.log.toList = r.world.log.toList ++ e.records := by
  have since {v w' : World} (hv : v.log = r.world.log)
      (hgrows : w'.log.toList = v.log.toList ++ v.gained w') :
      w'.log.toList = r.world.log.toList ++ v.gained w' := hgrows.trans (by rw [hv])
  cases h with
  | joined _ hw hg => exact since (by rw [hw]; rfl) hg.grows
  | tried _ _ hw hg => exact since (congrArg World.log hw) hg.grows
  | called _ _ hw hg | started _ _ hw _ _ _ hg => exact since (congrArg World.log hw) hg.told.grows
  | invoked _ _ hw hg => exact since (congrArg World.log hw) hg.told.grows
  | left ids =>
      obtain ⟨⟨realms, hforget⟩, -⟩ := r.world.foldl_forget ids
      dsimp only
      rw [hforget]
      exact (List.append_nil _).symm
  | chore c =>
      cases c with
      | record l => exact Array.toList_push
      | _ => exact (List.append_nil _).symm

/-- What is no attempt warns of nothing, except for what the host itself reports. -/
theorem others_warn (h : Act r e r') (he : e.attempt? = none) {l : LogRecord} (hl : l ∈ e.records)
    (hwarn : l.level = .warn) : e = .chore (.record l) := by
  have hfilter : l ∈ e.records.filter (·.level == .warn) :=
    List.mem_filter.mpr ⟨hl, beq_iff_eq.mpr hwarn⟩
  cases h with
  | joined | tried => nomatch he
  | called _ _ _ hg | started _ _ _ _ _ _ hg =>
      rw [Event.records, hg.told.warnings, List.mem_filter] at hfilter
      obtain ⟨err, -, rfl⟩ := Option.map_eq_some_iff.mp (Option.mem_toList.mp hfilter.1)
      nomatch hwarn
  | invoked _ _ _ hg =>
      rw [Event.records, hg.told.warnings] at hfilter
      nomatch hfilter
  | left => nomatch hl
  | chore c =>
      cases c with
      | record l => rw [List.mem_singleton.mp hl]
      | _ => nomatch hl

theorem attempt_genuine (h : Act r e r') {a : Attempt} (he : e.attempt? = some a) :
    a.Genuine r.libraries := by
  cases h with
  | joined _ _ hg | tried _ _ _ hg =>
      cases he
      exact hg
  | called | invoked | started | left | chore => nomatch he

end Act

end Acts

/-- A way through a history adds to the log what came into it in each event. -/
theorem Path.log {r r' : Registry} {es : List Event} (h : Path r es r') :
    r'.world.log.toList = r.world.log.toList ++ es.flatMap Event.records := by
  induction h with
  | refl => exact (List.append_nil _).symm
  | step hact _ ih => rw [ih, hact.log, List.append_assoc, List.flatMap_cons]

/-! ## What an instance remembers -/

/-- An attempt decides what the instance remembers, and nothing else touches it. -/
theorem lastError_followed (libraries : Libraries) :
    Followed libraries fun as i => i.lastError = lastFailure as where
  created _ _ := rfl
  attempt _ ha := ha.lastError.trans (lastFailure_concat _ _).symm
  called h hc := hc.lastError.trans h
  updated h := h

/-- Every instance remembers how the last attempt to load it failed, if it did. -/
structure Recalling (es : List Event) (r : Registry) : Prop extends Orderly es r where
  recalls : ∀ i ∈ r.instances, i.lastError = lastFailure (attemptsOn i.id es)

namespace Recalling

variable {es : List Event} {r r' : Registry} {e : Event} {i i' : Instance}

theorem start (c : HostConfig) (w : World) : Recalling [] (Registry.start c w) where
  toOrderly := Orderly.start c w
  recalls := by
    rw [Registry.start_instances]
    exact List.forall_mem_nil _

/-- Whoever an act is about remembers it, and a new instance has nothing to remember. -/
theorem subject (h : Recalling es r) (ha : Act r e r') (hc : e.change? = some (i, i')) :
    i.lastError = lastFailure (attemptsOn i.id es) :=
  (lastError_followed r.libraries).subject h.toOrderly h.recalls ha hc

theorem act (h : Recalling es r) (ha : Act r e r') : Recalling (es ++ [e]) r' where
  toOrderly := h.toOrderly.act ha
  recalls := (lastError_followed r.libraries).act h.toOrderly h.recalls ha

theorem path (h : Recalling es r) {new : List Event} (hp : Path r new r') :
    Recalling (es ++ new) r' :=
  hp.invariant (fun h ha => h.act ha) h

theorem reported (h : Recalling es r) (ha : Act r e r') {a : Attempt} (he : e.attempt? = some a) :
    a.Reported (attemptsOn a.before.id es) :=
  (ha.attempt_genuine he).reported (h.subject ha (Event.change_of_attempt he))

end Recalling

/-! ## The warnings about an instance -/

/-- The attempts in these events, which came behind the past, are reported as is due. -/
def Announced (past es : List Event) : Prop :=
  ∀ pre e post a, es = pre ++ e :: post → e.attempt? = some a →
    a.Reported (attemptsOn a.before.id (past ++ pre))

/-- What the warnings say that came into the log in the attempts to load an instance. -/
def warningsOn (id : InstanceId) (es : List Event) : List String :=
  (attemptsOn id es).flatMap fun a => a.warnings.map LogRecord.message

/-- An event is one attempt to load the instance, or none. -/
theorem attemptsOn_singleton (id : InstanceId) (e : Event) : attemptsOn id [e] = [] ∨
    ∃ a, attemptsOn id [e] = [a] ∧ e.attempt? = some a ∧ a.before.id = id := by
  cases he : e.attempt? with
  | none => simp [attemptsOn, he]
  | some a => by_cases hid : a.before.id = id <;> simp [attemptsOn, he, hid]

namespace Announced

variable {past es mid post : List Event} {e : Event}

theorem next (h : Announced past (e :: es)) : Announced (past ++ [e]) es := by
  rintro pre f post a rfl hf
  rw [List.append_assoc]
  exact h (e :: pre) f post a rfl hf

theorem within (h : Announced [] (past ++ mid ++ post)) : Announced past mid := by
  rintro pre e rest a rfl he
  exact h (past ++ pre) e (rest ++ post) a (by simp) he

end Announced

/-- One attempt: its warning is the failure that it adds to those that change. -/
theorem Attempt.Reported.changes {before : List Attempt} {a : Attempt} (h : a.Reported before)
    {failures : List (Option String)} {warnings : List String}
    (hrest : (failures.destutter' (· ≠ ·) a.failure?).reduceOption.map warningText =
      (a.failure?.map warningText).toList ++ warnings) :
    ((a.failure? :: failures).destutter' (· ≠ ·)
      (lastFailure before)).reduceOption.map warningText =
        ((lastFailure before).map warningText).toList ++
          (a.warnings.map LogRecord.message ++ warnings) := by
  rw [List.destutter'_cons, warnings_of_told h.told]
  by_cases hsame : a.failure? = lastFailure before
  · rw [if_neg (not_not.mpr hsame.symm), if_pos hsame, ← hsame]
    exact hrest
  · rw [if_pos (Ne.symm hsame), if_neg hsame, ← hrest, Option.toList_map,
      ← List.reduceOption_singleton, ← List.map_append, ← List.reduceOption_append,
      List.singleton_append]

/-- The warnings in a stretch of history are the failures there, those left out that are just like
the one before; the first of them is held against the last one of the past. -/
theorem warnings_destutter {past es : List Event} (h : Announced past es) (id : InstanceId) :
    (((attemptsOn id es).map Attempt.failure?).destutter' (· ≠ ·)
      (lastFailure (attemptsOn id past))).reduceOption.map warningText =
        ((lastFailure (attemptsOn id past)).map warningText).toList ++ warningsOn id es := by
  -- one event after the other goes from the stretch into the past
  induction es generalizing past with
  | nil => cases lastFailure (attemptsOn id past) <;> rfl
  | cons e rest ih =>
      have hrest := ih h.next
      have hcons : attemptsOn id (e :: rest) = attemptsOn id [e] ++ attemptsOn id rest :=
        attemptsOn_append id [e] rest
      rw [attemptsOn_append] at hrest
      rw [warningsOn, hcons]
      rcases attemptsOn_singleton id e with hnone | ⟨a, hone, he, rfl⟩
      · rw [hnone, List.append_nil] at hrest
        rw [hnone]
        exact hrest
      · have hreported := h [] e rest a rfl he
        rw [List.append_nil] at hreported
        rw [hone, lastFailure_concat] at hrest
        rw [hone]
        exact hreported.changes hrest

theorem destutter'_replicate_self {α : Type} [DecidableEq α] (a : α) (n : Nat) :
    (List.replicate n a).destutter' (· ≠ ·) a = [a] := by
  induction n with
  | zero => rfl
  | succ n ih => rw [List.replicate_succ, List.destutter'_cons_neg _ (not_not.mpr rfl), ih]

/-- Of a stretch of history in which all attempts fail in the same way there is one warning, and
none if the last one before did so already. -/
theorem warnings_once {past es : List Event} (h : Announced past es) {id : InstanceId} {m : String}
    (hsome : attemptsOn id es ≠ []) (hall : ∀ a ∈ attemptsOn id es, a.failure? = some m) :
    warningsOn id es =
      if lastFailure (attemptsOn id past) = some m then [] else [warningText m] := by
  -- of a run of one failure nothing is left but the first, or not even that
  have hchanges := warnings_destutter h id
  have hsame : (attemptsOn id es).map Attempt.failure? =
      List.replicate (attemptsOn id es).length (some m) := List.map_eq_replicate_iff.mpr hall
  obtain ⟨n, hn⟩ := Nat.exists_eq_succ_of_ne_zero (List.length_pos_iff.mpr hsome).ne'
  rw [hsame, hn, List.replicate_succ] at hchanges
  split
  · rename_i hlast
    rw [hlast, ← List.replicate_succ, destutter'_replicate_self] at hchanges
    have hnone : [warningText m] ++ [] = [warningText m] ++ warningsOn id es := hchanges
    exact (List.append_cancel_left hnone).symm
  · rename_i hnews
    rw [List.destutter'_cons_pos _ hnews, destutter'_replicate_self, ← List.singleton_append,
      List.reduceOption_append, List.reduceOption_singleton, List.map_append,
      ← Option.toList_map] at hchanges
    exact (List.append_cancel_left hchanges).symm

/-! ## Histories -/

/-- How failed loads are reported in a history from a world on. -/
structure ReportLaw (start : World) (es : List Event) (r : Registry) : Prop where
  /-- The log is what the events put there, in order. -/
  log : r.world.log.toList = start.log.toList ++ es.flatMap Event.records
  /-- Every attempt is reported by what it comes to and by how the last one on the same instance
  ended, whatever else there was in between. -/
  attempts : ∀ pre e post a, es = pre ++ e :: post → e.attempt? = some a →
    a.Reported (attemptsOn a.before.id pre)
  /-- Nothing but attempts and what the host itself reports puts a warning into the log. -/
  others : ∀ e ∈ es, e.attempt? = none → ∀ l ∈ e.records, l.level = .warn → e = .chore (.record l)
  /-- The warnings about an instance are the changes of its failures. -/
  changes : ∀ id, warningsOn id es =
    ((none :: (attemptsOn id es).map Attempt.failure?).destutter (· ≠ ·)).reduceOption.map
      warningText
  /-- However long an instance goes on to fail in the same way, it is warned about once. -/
  once : ∀ id m pre mid post, es = pre ++ mid ++ post → attemptsOn id mid ≠ [] →
    (∀ a ∈ attemptsOn id mid, a.failure? = some m) →
      warningsOn id mid =
        if lastFailure (attemptsOn id pre) = some m then [] else [warningText m]

/-- Whatever is done with a registry and with its instances. -/
theorem failures_warned_once {c : HostConfig} {w : World} {past : List (Op × List Event)}
    {r : Registry} (h : Annals c w past r) :
    ReportLaw (Registry.start c w).world (eventsOf past) r := by
  have hannounced : Announced [] (eventsOf past) := by
    intro pre e post a hsplit he
    obtain ⟨r₁, r₂, hpre, hact, -⟩ := (hsplit ▸ h.path).at_event
    exact ((Recalling.start c w).path hpre).reported hact he
  refine ⟨h.path.log, ?_, ?_, ?_, ?_⟩
  · exact hannounced
  · intro e he hnone l hl hwarn
    obtain ⟨pre, post, hsplit⟩ := List.append_of_mem he
    obtain ⟨r₁, r₂, -, hact, -⟩ := (hsplit ▸ h.path).at_event
    exact hact.others_warn hnone hl hwarn
  · exact fun id => (warnings_destutter hannounced id).symm
  · intro id m pre mid post hsplit hsome hall
    exact warnings_once (hsplit ▸ hannounced).within hsome hall

set_option maxRecDepth 100000 in
/-- A script fails to load and is tried again at every frame, is mended and fails in an update, then
fails to load as at first, and at last in another way. -/
theorem failures_warned_once_retrying :
    ∃ (c : HostConfig) (w : World) (past : List (Op × List Event)) (r : Registry),
      Annals c w past r ∧
      ((r.world.log.toList.filter fun l => l.fields.any (·.1 == "step")).map LogRecord.level =
        [.warn, .debug, .debug, .warn, .debug, .warn]) ∧
      ReportLaw (Registry.start c w).world (eventsOf past) r := by
  let c : HostConfig := { scripts := { startup := [] } }
  let source (text : String) : World := .ofScript "A.rhai" text
  let w : World := source "throw 1"
  let edited (text : String) : Op := .around (.edit (source text).files)
  let ops : List Op := [.add "A", .update, .draw 0, .update, .draw 0,
    edited "fn OnUpdate() \x7b throw 2 \x7d", .reload "A", .update,
    edited "throw 1", .reload "A", .update, .reload "A", edited "throw 3", .reload "A"]
  have hrun : ((Op.runAll 1000 (.start c w) ops).map fun r =>
      (r.world.log.toList.filter fun l => l.fields.any (·.1 == "step")).map LogRecord.level) =
        some [.warn, .debug, .debug, .warn, .debug, .warn] := by
    decide +kernel
  obtain ⟨r, hr, hlog⟩ := Option.map_eq_some_iff.mp hrun
  obtain ⟨past, -, h⟩ := Annals.start.all hr
  exact ⟨c, w, past, r, h, hlog, failures_warned_once h⟩

end Stagehand
