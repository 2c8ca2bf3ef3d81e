import Stagehand.Proofs.Lifecycle

/-!
# Annals

A history that keeps the operations apart, each with the events that it came to. What the events so
far say of an instance decides what the next event can be: whether it had its first update
(`Standing.initialized`), and whether it is stopped (`Standing.running`). Both are kept by one lemma
for each kind of act, and `Act.instance_cases` is the frame behind them: an act changes the one
instance that it is about and leaves all others as they were.
-/

namespace Stagehand

open Lang

/-- What was done with a registry since its start, each operation with its events. -/
inductive Annals (c : HostConfig) (w : World) : List (Op × List Event) → Registry → Prop
  | start : Annals c w [] (Registry.start c w)
  | op {past : List (Op × List Event)} {es : List Event} {r r' : Registry} {budget : Nat} {o : Op}
      (h : Annals c w past r) (ho : o.run budget r = some r') (hp : Path r es r')
      (ht : o.Told r es) : Annals c w (past ++ [(o, es)]) r'

/-- The events of a past, the first one first. -/
def eventsOf (past : List (Op × List Event)) : List Event := past.flatMap Prod.snd

/-! ## What a call does -/

namespace Instance

variable {budget : Nat} {libraries : Libraries} {i i' : Instance} {e : EntryPoint} {w w' : World}

/-- The instance runs, is ready, and its program has the entry point. -/
def Answers (i : Instance) (e : EntryPoint) : Prop :=
  i.running = true ∧ i.state = .ready ∧ e ∈ i.entryPoints

instance (i : Instance) (e : EntryPoint) : Decidable (i.Answers e) :=
  inferInstanceAs (Decidable (_ ∧ _ ∧ _))

theorem callable?_isSome : (i.callable? e).isSome = true ↔ e ∈ i.entryPoints := by
  unfold callable? entryPoints
  cases i.binding with
  | none => simp
  | some b => simp [List.find?_isSome]

/-- An entry point is called or nothing happens. -/
theorem call_cases {args : List Value} {o : Option (Except Fault Value)}
    (h : i.call budget libraries e args w = some (o, i', w')) :
    (o.isSome = true ∧ i.state = .ready ∧ e ∈ i.entryPoints) ∨
      (o = none ∧ i' = i ∧ w' = w ∧ ¬(i.state = .ready ∧ e ∈ i.entryPoints)) := by
  rcases call_iff.mp h with ⟨b, c, r, b', hready, hc, -, rfl, -⟩ | ⟨hnot, rfl, rfl, rfl⟩
  · exact .inl ⟨rfl, hready, callable?_isSome.mp (by rw [hc]; rfl)⟩
  · rw [callable?_isSome] at hnot
    exact .inr ⟨rfl, rfl, rfl, hnot⟩

theorem invoke_cases {args : List HostValue} {o : Outcome}
    (h : i.invoke budget libraries e args w = some (o, i', w')) :
    (o ≠ .skipped ∧ i.Answers e ∧ i'.running = i.running) ∨
      (o = .skipped ∧ ¬ i.Answers e ∧ i' = i ∧ w' = w) := by
  rcases invoke_iff.mp h with ⟨hrunning, r, hcall, rfl⟩ | ⟨hstopped, rfl, rfl, rfl⟩
  · have hsame : i'.running = i.running := by
      obtain ⟨binding, rfl, -⟩ := call_binding hcall
      rfl
    rcases call_cases hcall with ⟨hsome, hready, hentry⟩ | ⟨rfl, rfl, rfl, hnot⟩
    · refine .inl ⟨?_, ⟨hrunning, hready, hentry⟩, hsame⟩
      rcases r with _ | (f | v)
      · nomatch hsome
      · nofun
      · nofun
    · exact .inr ⟨rfl, fun ha => hnot ha.2, rfl, rfl⟩
  · refine .inr ⟨rfl, fun ha => ?_, rfl, rfl⟩
    nomatch hstopped.symm.trans ha.1

/-- A dispatch that fails stops the instance, and no other does. -/
theorem dispatch_cases {args : List HostValue} {o : Outcome}
    (h : i.dispatch budget libraries e args w = some (o, i', w')) :
    (o ≠ .skipped ∧ i.Answers e ∧ i'.running = !o.isFailed) ∨
      (o = .skipped ∧ ¬ i.Answers e ∧ i' = i ∧ w' = w) := by
  rcases dispatch_iff.mp h with ⟨err, i₁, w₁, hinvoke, rfl, rfl, rfl⟩ | ⟨hinvoke, hfailed⟩
  · rcases invoke_cases hinvoke with ⟨hne, ha, -⟩ | ⟨hskip, -⟩
    · exact .inl ⟨hne, ha, rfl⟩
    · nomatch hskip
  · rcases invoke_cases hinvoke with ⟨hne, ha, hsame⟩ | hskip
    · exact .inl ⟨hne, ha, by rw [hsame, ha.1, hfailed]; rfl⟩
    · exact .inr hskip

end Instance

namespace Call

variable {libraries : Libraries} {c : Call}

theorem executed_iff : c.executed = true ↔ c.outcome ≠ .skipped := by
  unfold executed
  cases c.outcome <;> simp

/-- A call runs the entry point if the instance answers, and otherwise changes nothing at all. -/
theorem cases_of_act {r r' : Registry} {e : Event} (h : Act r e r') (hc : e.call? = some c) :
    (c.executed = true ∧ c.before.Answers c.entry) ∨
      (c.executed = false ∧ ¬ c.before.Answers c.entry ∧ c.after = c.before ∧ c.left = c.world) := by
  have of_cases (h : (c.outcome ≠ .skipped ∧ c.before.Answers c.entry) ∨
      (c.outcome = .skipped ∧ ¬ c.before.Answers c.entry ∧ c.after = c.before ∧
        c.left = c.world)) : (c.executed = true ∧ c.before.Answers c.entry) ∨
      (c.executed = false ∧ ¬ c.before.Answers c.entry ∧ c.after = c.before ∧
        c.left = c.world) := by
    rcases h with ⟨hne, ha⟩ | ⟨hskip, hnot⟩
    · exact .inl ⟨executed_iff.mpr hne, ha⟩
    · exact .inr ⟨by unfold executed; rw [hskip], hnot⟩
  cases h with
  | called _ _ _ hg | started _ _ _ _ _ _ hg =>
      cases hc
      obtain ⟨budget, hdispatch⟩ := hg
      exact of_cases ((Instance.dispatch_cases hdispatch).imp_left fun h => ⟨h.1, h.2.1⟩)
  | invoked _ _ _ hg =>
      cases hc
      obtain ⟨budget, hinvoke⟩ := hg
      exact of_cases ((Instance.invoke_cases hinvoke).imp_left fun h => ⟨h.1, h.2.1⟩)
  | joined | tried | left | chore => nomatch hc

end Call

/-! ## What an act changes -/

section Changes

variable {libraries : Libraries} {r r' : Registry} {e : Event} {es : List Event} {i i' : Instance}

theorem Attempt.Genuine.flags {a : Attempt} (h : a.Genuine libraries) :
    a.after.initialized = a.before.initialized ∧
      a.after.running = (a.succeeded || a.before.running) := by
  obtain ⟨budget, hreload⟩ := h
  rcases Instance.reload_cases hreload with ⟨b, w, -, hr, hafter, -⟩ | ⟨e, w, -, hr, hafter, -⟩
  · rw [hafter, Attempt.succeeded, hr]
    exact ⟨rfl, rfl⟩
  · rw [hafter, Attempt.succeeded, hr]
    exact ⟨rfl, rfl⟩

theorem Call.Dispatched.flags {c : Call} (h : c.Dispatched libraries) :
    c.after.initialized = c.before.initialized ∧
      c.after.running = (c.before.running && !c.outcome.isFailed) := by
  obtain ⟨budget, hdispatch⟩ := h
  have hinitialized : c.after.initialized = c.before.initialized := by
    obtain ⟨⟨binding, running, heq⟩, -, -⟩ := Instance.dispatch_continues hdispatch
    rw [heq]
  refine ⟨hinitialized, ?_⟩
  rcases Instance.dispatch_cases hdispatch with ⟨-, ha, hrunning⟩ | ⟨hskip, -, hafter, -⟩
  · rw [hrunning, ha.1, Bool.true_and]
  · rw [hskip, hafter]
    exact (Bool.and_true _).symm

theorem Call.Invoked.flags {c : Call} (h : c.Invoked libraries) :
    c.after.initialized = c.before.initialized ∧ c.after.running = c.before.running := by
  obtain ⟨budget, hinvoke⟩ := h
  have hinitialized : c.after.initialized = c.before.initialized := by
    obtain ⟨⟨binding, running, heq⟩, -, -⟩ := Instance.invoke_continues hinvoke
    rw [heq]
  rcases Instance.invoke_cases hinvoke with ⟨-, -, hrunning⟩ | ⟨-, -, hafter, -⟩
  · exact ⟨hinitialized, hrunning⟩
  · exact ⟨hinitialized, congrArg Instance.running hafter⟩

namespace Act

/-- What becomes of the flags of the instance that an act is about. -/
theorem flags (h : Act r e r') (hc : e.change? = some (i, i')) :
    i'.initialized = (i.initialized || e.starts) ∧
      i'.running = (e.loads || (i.running && !e.stops)) := by
  cases h with
  | joined _ _ hg | tried _ _ _ hg =>
      cases hc
      refine ⟨hg.flags.1.trans (Bool.or_false _).symm, hg.flags.2.trans ?_⟩
      exact congrArg _ (Bool.and_true _).symm
  | called _ _ _ hg =>
      cases hc
      exact ⟨hg.flags.1.trans (Bool.or_false _).symm, hg.flags.2⟩
  | invoked _ _ _ hg =>
      cases hc
      exact ⟨hg.flags.1.trans (Bool.or_false _).symm, hg.flags.2.trans (Bool.and_true _).symm⟩
  | started _ _ _ _ _ _ hg =>
      cases hc
      exact ⟨(Bool.or_true _).symm, hg.flags.2⟩
  | left | chore => nomatch hc

theorem handle (h : Act r e r') (hc : e.change? = some (i, i')) : i'.handle = i.handle := by
  cases h with
  | joined _ _ hg | tried _ _ _ hg =>
      cases hc
      exact hg.handle
  | called _ _ _ hg | started _ _ _ _ _ _ hg =>
      cases hc
      obtain ⟨budget, hdispatch⟩ := hg
      exact (Instance.dispatch_continues hdispatch).handle
  | invoked _ _ _ hg =>
      cases hc
      obtain ⟨budget, hinvoke⟩ := hg
      exact (Instance.invoke_continues hinvoke).handle
  | left | chore => nomatch hc

theorem id (h : Act r e r') (hc : e.change? = some (i, i')) : i'.id = i.id :=
  congrArg ScriptHandle.id (h.handle hc)

/-- An instance is ready after an act about it if the act loaded it or it was ready before. -/
theorem ready (h : Act r e r') (hc : e.change? = some (i, i'))
    (hb : i.state = .ready ↔ i.binding.isSome = true) :
    i'.state = .ready ↔ e.loads = true ∨ i.state = .ready := by
  cases h with
  | joined _ _ hg | tried _ _ _ hg =>
      cases hc
      obtain ⟨budget, hreload⟩ := hg
      rcases Instance.reload_cases hreload with ⟨b, w, -, hr, hafter, -⟩ | ⟨e, w, -, hr, hafter, -⟩
      · rw [hafter]
        simp [Event.loads, Attempt.succeeded, hr, Instance.loaded, Except.isOk, Except.toBool]
      · rw [hafter, hb]
        simp [Event.loads, Attempt.succeeded, hr, Instance.notLoaded, Except.isOk, Except.toBool,
          Option.isSome_iff_ne_none]
  | called _ _ _ hg | started _ _ _ _ _ _ hg =>
      cases hc
      obtain ⟨budget, hdispatch⟩ := hg
      have hstate := (Instance.dispatch_continues hdispatch).state
      simp [Event.loads, Instance.markInitialized, hstate]
  | invoked _ _ _ hg =>
      cases hc
      obtain ⟨budget, hinvoke⟩ := hg
      have hstate := (Instance.invoke_continues hinvoke).state
      simp [Event.loads, hstate]
  | left | chore => cases hc

/-- Numbers are given out in ascending order. -/
theorem nextId_le (h : Act r e r') : r.nextId ≤ r'.nextId := by
  cases h with
  | joined => exact Nat.le_succ _
  | chore c => cases c <;> exact Nat.le_refl _
  | tried | called | invoked | started | left => exact Nat.le_refl _

/-- An act is about an instance that is registered, or about a new one. -/
theorem subject_cases (h : Act r e r') (hc : e.change? = some (i, i')) :
    i ∈ r.instances ∨ (∃ name, i = (r.create name).1) ∧ r'.nextId = r.nextId + 1 := by
  cases h with
  | joined hb _ _ =>
      cases hc
      exact .inr ⟨⟨_, hb⟩, rfl⟩
  | tried _ hi | called _ hi | invoked _ hi | started _ hi =>
      cases hc
      exact .inl (List.mem_of_getElem? hi)
  | left | chore => nomatch hc

/-- An instance that is registered after an act is what the act made of one, or it was there before
and the act is not about it. -/
theorem instance_cases (h : Act r e r') (ho : Orderly es r) (hi : i' ∈ r'.instances) :
    (∃ i, e.change? = some (i, i')) ∨ i' ∈ r.instances ∧ e.subject? ≠ some i'.id := by
  have of_set {place : Nat} {j x : Instance} (hj : r.instances[place]? = some j)
      (hmem : i' ∈ r.instances.set place x) :
      i' = x ∨ i' ∈ r.instances ∧ some j.id ≠ some i'.id := by
    rcases mem_set_cases ho.ascending hj hmem with rfl | ⟨hmem, hne⟩
    · exact .inl rfl
    · exact .inr ⟨hmem, fun heq => hne (Option.some.inj heq).symm⟩
  cases h with
  | joined hb _ _ =>
      rcases List.mem_append.mp hi with hi | hi
      · refine .inr ⟨hi, fun heq => Nat.ne_of_lt (ho.below i' hi) ?_⟩
        exact (Option.some.inj heq).symm.trans (congrArg Instance.id hb)
      · cases List.mem_singleton.mp hi
        exact .inl ⟨_, rfl⟩
  | tried _ hj | called _ hj | invoked _ hj | started _ hj =>
      rcases of_set hj hi with rfl | hother
      · exact .inl ⟨_, rfl⟩
      · exact .inr hother
  | left => exact .inr ⟨(List.mem_filter.mp hi).1, nofun⟩
  | chore c => exact .inr ⟨by cases c <;> exact hi, nofun⟩

end Act

end Changes

/-! ## What the attempts to load an instance say of it -/

/-- A fact about an instance and the attempts to load it: a new instance has it, every attempt makes
it true again, and a call leaves it true. -/
structure Followed (libraries : Libraries) (P : List Attempt → Instance → Prop) : Prop where
  created : ∀ (r : Registry) (name : String), P [] (r.create name).1
  attempt : ∀ {as : List Attempt} {a : Attempt}, P as a.before → a.Genuine libraries →
    P (as ++ [a]) a.after
  called : ∀ {as : List Attempt} {i i' : Instance}, P as i → i.Continues i' → P as i'
  updated : ∀ {as : List Attempt} {i : Instance}, P as i → P as i.markInitialized

namespace Followed

variable {es : List Event} {r r' : Registry} {e : Event} {i i' : Instance}
  {P : List Attempt → Instance → Prop}

/-- It is true of whoever an act is about. -/
theorem subject (hP : Followed r.libraries P) (ho : Orderly es r)
    (h : ∀ i ∈ r.instances, P (attemptsOn i.id es) i) (ha : Act r e r')
    (hc : e.change? = some (i, i')) : P (attemptsOn i.id es) i := by
  rcases ha.subject_cases hc with hi | ⟨⟨name, rfl⟩, -⟩
  · exact h i hi
  · have hnone : attemptsOn (r.create name).1.id es = [] := attemptsOn_fresh ho.past
    exact hnone ▸ hP.created r name

/-- One act, one case for each kind that is about an instance. -/
theorem change (hP : Followed r.libraries P) (ho : Orderly es r)
    (h : ∀ i ∈ r.instances, P (attemptsOn i.id es) i) (ha : Act r e r')
    (hc : e.change? = some (i, i')) : P (attemptsOn i.id (es ++ [e])) i' := by
  have hbefore := hP.subject ho h ha hc
  cases ha with
  | joined hb hw hg | tried place hi hw hg =>
      cases hc
      rw [attemptsOn_own rfl rfl]
      exact hP.attempt hbefore hg
  | called place hi hw hg =>
      cases hc
      obtain ⟨budget, hdispatch⟩ := hg
      rw [attemptsOn_none rfl]
      exact hP.called hbefore (Instance.dispatch_continues hdispatch)
  | invoked place hi hw hg =>
      cases hc
      obtain ⟨budget, hinvoke⟩ := hg
      rw [attemptsOn_none rfl]
      exact hP.called hbefore (Instance.invoke_continues hinvoke)
  | started place hi hw he hs hn hg =>
      cases hc
      obtain ⟨budget, hdispatch⟩ := hg
      rw [attemptsOn_none rfl]
      exact hP.updated (hP.called hbefore (Instance.dispatch_continues hdispatch))
  | left | chore => nomatch hc

theorem act (hP : Followed r.libraries P) (ho : Orderly es r)
    (h : ∀ i ∈ r.instances, P (attemptsOn i.id es) i) (ha : Act r e r') :
    ∀ i ∈ r'.instances, P (attemptsOn i.id (es ++ [e])) i := by
  intro i' hi'
  rcases ha.instance_cases ho hi' with ⟨i, hc⟩ | ⟨hi, hother⟩
  · exact ha.id hc ▸ hP.change ho h ha hc
  · rw [attemptsOn_other fun a hattempt hid => hother ?_]
    · exact h i' hi
    · rw [← hid]
      exact Event.subject_of_attempt hattempt

end Followed

/-! ## What the events so far say -/

/-- The instance with this number had its first update. -/
def Started (id : InstanceId) (es : List Event) : Prop :=
  ∃ e ∈ es, e.subject? = some id ∧ e.starts = true

/-- A dispatch of the instance with this number failed, and no load of it has succeeded since. -/
def Stopped (id : InstanceId) (es : List Event) : Prop :=
  ∃ pre e post, es = pre ++ e :: post ∧ e.subject? = some id ∧ e.stops = true ∧
    ∀ l ∈ post, l.subject? = some id → l.loads = false

theorem started_concat {id : InstanceId} {es : List Event} {e : Event} :
    Started id (es ++ [e]) ↔ Started id es ∨ e.subject? = some id ∧ e.starts = true := by
  unfold Started
  constructor
  · rintro ⟨l, hl, hstart⟩
    rcases List.mem_append.mp hl with hl | hl
    · exact .inl ⟨l, hl, hstart⟩
    · cases List.mem_singleton.mp hl
      exact .inr hstart
  · rintro (⟨l, hl, hstart⟩ | hstart)
    · exact ⟨l, List.mem_append_left _ hl, hstart⟩
    · exact ⟨e, List.mem_append_right _ (List.mem_singleton_self e), hstart⟩

theorem stopped_concat {id : InstanceId} {es : List Event} {e : Event} :
    Stopped id (es ++ [e]) ↔ e.subject? = some id ∧ e.stops = true ∨
      Stopped id es ∧ (e.subject? = some id → e.loads = false) := by
  constructor
  · rintro ⟨pre, f, post, heq, hf, hstops, hpost⟩
    rcases List.eq_nil_or_concat post with rfl | ⟨mid, l, rfl⟩
    · obtain ⟨-, heq⟩ := List.append_inj' heq rfl
      cases heq
      exact .inl ⟨hf, hstops⟩
    · have heq : es ++ [e] = (pre ++ f :: mid) ++ [l] := by simpa using heq
      obtain ⟨rfl, hlast⟩ := List.append_inj' heq rfl
      cases hlast
      refine .inr ⟨⟨pre, f, mid, rfl, hf, hstops, fun k hk => hpost k (by simp [hk])⟩, ?_⟩
      exact hpost e (by simp)
  · rintro (⟨he, hstops⟩ | ⟨⟨pre, f, post, rfl, hf, hstops, hpost⟩, hlast⟩)
    · exact ⟨es, e, [], rfl, he, hstops, List.forall_mem_nil _⟩
    · refine ⟨pre, f, post ++ [e], by simp, hf, hstops, fun l hl => ?_⟩
      rcases List.mem_append.mp hl with hl | hl
      · exact hpost l hl
      · cases List.mem_singleton.mp hl
        exact hlast

theorem Event.not_loads_of_stops {e : Event} (h : e.stops = true) : e.loads = false := by
  cases e <;> first | rfl | nomatch h

/-- How the events of a history and the flags of the registered instances hang together. -/
structure Standing (es : List Event) (r : Registry) : Prop extends Orderly es r where
  subjects : ∀ e ∈ es, ∀ id, e.subject? = some id → id < r.nextId
  initialized : ∀ i ∈ r.instances, i.initialized = true ↔ Started i.id es
  running : ∀ i ∈ r.instances, i.running = true ↔ i.state = .ready ∧ ¬ Stopped i.id es

namespace Standing

variable {es : List Event} {r r' : Registry} {e : Event} {i i' : Instance}

theorem start (c : HostConfig) (w : World) : Standing [] (Registry.start c w) where
  toOrderly := .start c w
  subjects := List.forall_mem_nil _
  initialized := by
    rw [Registry.start_instances]
    exact List.forall_mem_nil _
  running := by
    rw [Registry.start_instances]
    exact List.forall_mem_nil _

/-- No event is about a number that was not given out yet. -/
theorem fresh (h : Standing es r) : ∀ e ∈ es, e.subject? ≠ some r.nextId :=
  fun e he hid => Nat.lt_irrefl _ (h.subjects e he _ hid)

/-- What holds of every registered instance and of a new one holds of what an act is about. -/
theorem subject {P : Instance → Prop} (h : ∀ i ∈ r.instances, P i)
    (hnew : ∀ name, P (r.create name).1) (ha : Act r e r') (hc : e.change? = some (i, i')) :
    P i := by
  rcases ha.subject_cases hc with hi | ⟨⟨name, rfl⟩, -⟩
  · exact h i hi
  · exact hnew name

theorem bound (h : Standing es r) (ha : Act r e r') (hc : e.change? = some (i, i')) :
    i.state = .ready ↔ i.binding.isSome = true :=
  subject (fun i hi => (h.lifecycle i hi).bound) (fun _ => (tracked_new _ _ _).bound) ha hc

theorem initialized_act (h : Standing es r) (ha : Act r e r') (hi : i' ∈ r'.instances) :
    i'.initialized = true ↔ Started i'.id (es ++ [e]) := by
  rw [started_concat]
  rcases ha.instance_cases h.toOrderly hi with ⟨i, hc⟩ | ⟨hi, hother⟩
  · have hbefore : i.initialized = true ↔ Started i.id es := by
      refine subject h.initialized (fun name => ⟨nofun, ?_⟩) ha hc
      rintro ⟨l, hl, hid, -⟩
      exact absurd hid (h.fresh l hl)
    have hsubject : e.subject? = some i'.id := by rw [Event.subject?, hc, ha.id hc]; rfl
    rw [(ha.flags hc).1, Bool.or_eq_true, hbefore, ha.id hc]
    simp [← ha.id hc, hsubject]
  · rw [h.initialized i' hi]
    simp [hother]

theorem running_act (h : Standing es r) (ha : Act r e r') (hi : i' ∈ r'.instances) :
    i'.running = true ↔ i'.state = .ready ∧ ¬ Stopped i'.id (es ++ [e]) := by
  rw [stopped_concat]
  rcases ha.instance_cases h.toOrderly hi with ⟨i, hc⟩ | ⟨hi, hother⟩
  · have hbefore : i.running = true ↔ i.state = .ready ∧ ¬ Stopped i.id es :=
      subject h.running (fun name => ⟨nofun, fun h => nomatch h.1⟩) ha hc
    have hsubject : e.subject? = some i'.id := by rw [Event.subject?, hc, ha.id hc]; rfl
    rw [(ha.flags hc).2, ha.ready hc (h.bound ha hc), ← ha.id hc] at *
    cases hl : e.loads with
    | true =>
        have hs : e.stops = false := by
          cases hs : e.stops with
          | false => rfl
          | true => rw [Event.not_loads_of_stops hs] at hl; nomatch hl
        simp [hs, hsubject]
    | false => grind
  · rw [h.running i' hi]
    simp [hother]

/-- Every act keeps it. -/
theorem act (h : Standing es r) (ha : Act r e r') : Standing (es ++ [e]) r' where
  toOrderly := h.toOrderly.act ha
  subjects l hl id hid := by
    rcases List.mem_append.mp hl with hl | hl
    · exact Nat.lt_of_lt_of_le (h.subjects l hl id hid) ha.nextId_le
    · cases List.mem_singleton.mp hl
      obtain ⟨⟨i, i'⟩, hc, rfl⟩ := Option.map_eq_some_iff.mp hid
      rcases ha.subject_cases hc with hi | ⟨⟨name, rfl⟩, hnext⟩
      · exact Nat.lt_of_lt_of_le (h.below i hi) ha.nextId_le
      · exact hnext ▸ Nat.lt_succ_self _
  initialized i hi := h.initialized_act ha hi
  running i hi := h.running_act ha hi

theorem path (h : Standing es r) {new : List Event} (hp : Path r new r') :
    Standing (es ++ new) r' :=
  hp.invariant (fun h ha => h.act ha) h

end Standing

namespace Annals

variable {c : HostConfig} {w : World} {past : List (Op × List Event)} {r r' : Registry}

/-- Annals are a history with the operations kept apart. -/
theorem reached (h : Annals c w past r) : Reached c w (eventsOf past) r := by
  induction h with
  | start => exact .start
  | @op past es _ _ _ o _ ho hp _ ih =>
      have hevents : eventsOf (past ++ [(o, es)]) = eventsOf past ++ es := by
        simp [eventsOf]
      rw [hevents]
      exact ih.op ho hp

theorem path (h : Annals c w past r) : Path (Registry.start c w) (eventsOf past) r :=
  h.reached.path

theorem standing (h : Annals c w past r) : Standing (eventsOf past) r :=
  (Standing.start c w).path h.path

theorem told (h : Annals c w past r) : ∀ p ∈ past, ∃ r₁, p.1.Told r₁ p.2 := by
  induction h with
  | start => exact List.forall_mem_nil _
  | @op _ _ r₁ _ _ _ _ _ _ ht ih =>
      intro p hp
      rcases List.mem_append.mp hp with hp | hp
      · exact ih p hp
      · cases List.mem_singleton.mp hp
        exact ⟨r₁, ht⟩

/-- In front of each event of a history stands a registry that the events before it led to. -/
theorem at_event (h : Annals c w past r) {pre post : List Event} {e : Event}
    (he : eventsOf past = pre ++ e :: post) :
    ∃ r₁ r₂, Standing pre r₁ ∧ Act r₁ e r₂ ∧ Path r₂ post r := by
  obtain ⟨r₁, r₂, hpre, hact, hpost⟩ := (he ▸ h.path).at_event
  exact ⟨r₁, r₂, (Standing.start c w).path hpre, hact, hpost⟩

theorem next (h : Annals c w past r) {budget : Nat} {o : Op} (ho : o.run budget r = some r') :
    ∃ es, Path r es r' ∧ o.Told r es ∧ Annals c w (past ++ [(o, es)]) r' := by
  obtain ⟨es, hp, ht⟩ := Op.story ho
  exact ⟨es, hp, ht, h.op ho hp ht⟩

theorem all : ∀ {ops : List Op} {past : List (Op × List Event)} {r : Registry},
    Annals c w past r → ∀ {budget : Nat}, Op.runAll budget r ops = some r' →
      ∃ new, new.map Prod.fst = ops ∧ Annals c w (past ++ new) r'
  | [], past, _, h, _, hr => by
    cases hr
    exact ⟨[], rfl, by rwa [List.append_nil]⟩
  | o :: rest, past, r, h, budget, hr => by
    obtain ⟨r₁, ho, hr⟩ := Option.bind_eq_some_iff.mp hr
    obtain ⟨es, -, -, h₁⟩ := h.next ho
    obtain ⟨new, rfl, h'⟩ := h₁.all hr
    exact ⟨(o, es) :: new, rfl, by rwa [List.append_assoc] at h'⟩

end Annals

end Stagehand
