import Stagehand.Proofs.Chronicle

/-!
# Passes

A pass goes along a list that gets longer on the way: a script that runs on a visit can ask for
others, these are loaded before the next visit, and what their top levels ask for is loaded behind
a later visit. `Rounds` is the pass as a relation, one round for each visit, and says of each round
what was visited, what came of it and what joined behind it. The place of the next visit ties it
together: in front of the place stands what was visited, and what joins comes behind everything.
-/

namespace Stagehand

open Lang

/-! ## Rounds -/

/-- One visit of a pass: the instance that was visited, in which world, what came of it, what the
instance and the world were then, and the loads of the instances that joined before the next. -/
structure Round (α : Type) where
  arrived : Instance
  world : World
  result : α
  departed : Instance
  left : World
  loads : List Attempt

/-- What can happen on a visit. -/
abbrev Visiting (α : Type) := Instance → World → α → Instance → World → Prop

/-- The rounds of a pass from a place of the list on. What is asked for when a visit is over joins
in the order of the requests, and then comes the next place; the pass is over behind the last. -/
inductive Rounds {α : Type} (visiting : Visiting α) : Nat → Registry → List (Round α) → Registry → Prop
  | done {place : Nat} {r : Registry} (h : r.instances[place]? = none) :
      Rounds visiting place r [] r
  | round {place : Nat} {r r₁ r' : Registry} {v : Round α} {vs : List (Round α)}
      (hi : r.instances[place]? = some v.arrived) (hw : v.world = r.world)
      (hv : visiting v.arrived v.world v.result v.departed v.left)
      (hn : v.loads.map (fun a => a.before.name) = v.left.host.adds)
      (hj : Path { r with
          world := v.left.takeAdds.2, instances := r.instances.set place v.departed }
        (v.loads.map .joined) r₁)
      (hs : Rounds visiting (place + 1) r₁ vs r') : Rounds visiting place r (v :: vs) r'

/-- The visits of a pass as a function. -/
def Registry.Visit.visiting {α : Type} (visit : Registry.Visit α) : Visiting α :=
  fun i w a i' w' => visit i w = some (a, i', w')

/-- A pass is over behind the last place. Otherwise it visits the instance at its place, adds who
was asked for on the visit, and goes on at the next place. -/
theorem Registry.passFrom_cases {α : Type} {budget left place : Nat} {visit : Visit α}
    {r r' : Registry} {as : List α} (h : passFrom budget visit (left + 1) place r = some (as, r')) :
    (r.instances[place]? = none ∧ as = [] ∧ r' = r) ∨
      ∃ i a i' w' r₁ as₁, r.instances[place]? = some i ∧ visit i r.world = some (a, i', w') ∧
        Registry.addAll budget
          { r with world := w'.takeAdds.2, instances := r.instances.set place i' }
          w'.host.adds = some r₁ ∧
        passFrom budget visit left (place + 1) r₁ = some (as₁, r') ∧ as = a :: as₁ := by
  unfold passFrom at h
  split at h
  · rename_i hend
    cases h
    exact .inl ⟨hend, rfl, rfl⟩
  · rename_i i hi
    obtain ⟨⟨a, r₁⟩, hat, hrest⟩ := Option.bind_eq_some_iff.mp h
    obtain ⟨⟨as₁, r₂⟩, hpass, heq⟩ := Option.bind_eq_some_iff.mp hrest
    cases heq
    obtain ⟨⟨a₁, i', w'⟩, hvisit, hat⟩ := Option.bind_eq_some_iff.mp hat
    obtain ⟨r₂, hadds, heq⟩ := Option.bind_eq_some_iff.mp hat
    cases heq
    exact .inr ⟨i, a, i', w', r₁, as₁, hi, hvisit, hadds, hpass, rfl⟩

/-- A pass that comes to its end is a sequence of rounds. -/
theorem Registry.passFrom_rounds {α : Type} {budget : Nat} {visit : Visit α} :
    ∀ {left place : Nat} {r r' : Registry} {as : List α},
      passFrom budget visit left place r = some (as, r') →
        ∃ vs, Rounds visit.visiting place r vs r' ∧ vs.map Round.result = as
  | 0, _, _, _, _, h => nomatch h
  | left + 1, place, r, r', as, h => by
    rcases passFrom_cases h with
      ⟨hend, rfl, rfl⟩ | ⟨i, a, i', w', r₁, as₁, hi, hvisit, hadds, hpass, rfl⟩
    · exact ⟨[], .done hend, rfl⟩
    · obtain ⟨loads, hjoined, hnames⟩ := addAll_joined hadds
      obtain ⟨vs, hrounds, rfl⟩ := passFrom_rounds hpass
      exact ⟨⟨i, r.world, a, i', w', loads⟩ :: vs, .round hi rfl hvisit hnames hjoined hrounds, rfl⟩

namespace Rounds

variable {α β : Type} {visiting : Visiting α} {place : Nat} {r r' : Registry} {vs : List (Round α)}

/-- The same rounds, told so that something about what the visits came to can still be read off. -/
theorem retold_reading {γ : Type} {retelling : Visiting β} (read : α → γ) (reading : β → γ)
    (h : Rounds visiting place r vs r')
    (hv : ∀ {i w a i' w'}, visiting i w a i' w' →
      ∃ b, retelling i w b i' w' ∧ reading b = read a) :
    ∃ us, Rounds retelling place r us r' ∧
      us.map (fun u => reading u.result) = vs.map fun v => read v.result := by
  induction h with
  | done hend => exact ⟨[], .done hend, rfl⟩
  | @round _ _ _ _ v _ hi hw hvisit hn hj _ ih =>
      obtain ⟨b, hb, hread⟩ := hv hvisit
      obtain ⟨us, hus, hresults⟩ := ih
      refine ⟨⟨v.arrived, v.world, b, v.departed, v.left, v.loads⟩ :: us,
        .round hi hw hb hn hj hus, ?_⟩
      rw [List.map_cons, List.map_cons, hresults, hread]

/-- The same rounds, told otherwise. -/
theorem retold {retelling : Visiting β} (h : Rounds visiting place r vs r')
    (hv : ∀ {i w a i' w'}, visiting i w a i' w' → ∃ b, retelling i w b i' w') :
    ∃ us, Rounds retelling place r us r' := by
  obtain ⟨us, hus, -⟩ := h.retold_reading (fun _ => ()) (fun _ => ()) fun hvisit =>
    (hv hvisit).imp fun _ hb => ⟨hb, rfl⟩
  exact ⟨us, hus⟩

/-- What was asked for on a visit joins behind it, and every visit is one of those that can be. -/
theorem each (h : Rounds visiting place r vs r') :
    ∀ v ∈ vs, visiting v.arrived v.world v.result v.departed v.left ∧
      v.loads.map (fun a => a.before.name) = v.left.host.adds := by
  induction h with
  | done => exact List.forall_mem_nil _
  | round _ _ hvisit hn _ _ ih => exact List.forall_mem_cons.mpr ⟨⟨hvisit, hn⟩, ih⟩

/-- Every instance of the list is visited, in the order of the list, and so is everything that
joins, in the order in which it does. -/
theorem arrivals (h : Rounds visiting place r vs r') :
    vs.map Round.arrived =
      r.instances.drop place ++ (vs.flatMap Round.loads).map Attempt.after := by
  induction h with
  | done hend => simp [List.drop_eq_nil_of_le (List.getElem?_eq_none_iff.mp hend)]
  | @round place r r₁ r' v vs hi _ _ _ hj _ ih =>
      obtain ⟨hlt, harrived⟩ := List.getElem?_eq_some_iff.mp hi
      rw [hj.joined_instances] at ih
      have hdrop : (r.instances.set place v.departed ++ v.loads.map Attempt.after).drop (place + 1) =
          r.instances.drop (place + 1) ++ v.loads.map Attempt.after := by
        rw [List.drop_append_of_le_length (by simpa [Nat.succ_le_iff] using hlt),
          List.drop_set_of_lt (Nat.lt_succ_self place)]
      rw [List.map_cons, ih, hdrop, List.drop_eq_getElem_cons hlt, harrived]
      simp

/-- In the end the list is what was in front of the first visit and what the visits left. -/
theorem departures (h : Rounds visiting place r vs r') :
    r'.instances = r.instances.take place ++ vs.map Round.departed := by
  induction h with
  | done hend => simp [List.take_of_length_le (List.getElem?_eq_none_iff.mp hend)]
  | @round place r r₁ r' v vs hi _ _ _ hj _ ih =>
      obtain ⟨hlt, -⟩ := List.getElem?_eq_some_iff.mp hi
      have htake : (r.instances.set place v.departed ++ v.loads.map Attempt.after).take (place + 1) =
          r.instances.take place ++ [v.departed] := by
        rw [List.take_append_of_le_length (by simpa [Nat.succ_le_iff] using hlt),
          List.take_succ_eq_append_getElem (by simpa using hlt), List.getElem_set_self,
          List.take_set_of_le (Nat.le_refl place)]
      rw [ih, hj.joined_instances, htake]
      simp

/-- If visits leave an instance its number and its name, the list in the end has those of the
instances that were visited. -/
theorem visited (h : Rounds visiting 0 r vs r')
    (hv : ∀ {i w a i' w'}, visiting i w a i' w' → i'.handle = i.handle) :
    vs.map (fun v => v.arrived.handle) = r'.instances.map Instance.handle := by
  rw [h.departures, List.take_zero, List.nil_append, List.map_map]
  refine List.map_congr_left fun v hmem => ?_
  exact (hv (h.each v hmem).1).symm

/-- What the visits leave alone in the world, and loads too, is the same on every visit. -/
theorem frame (h : Rounds visiting place r vs r')
    (hv : ∀ {i w a i' w'}, visiting i w a i' w' → w'.host.frame = w.host.frame) :
    (∀ v ∈ vs, v.world.host.frame = r.world.host.frame) ∧
      r'.world.host.frame = r.world.host.frame := by
  induction h with
  | done => exact ⟨List.forall_mem_nil _, rfl⟩
  | round _ hw hvisit _ hj _ ih =>
      have hjoined := hj.joined_frame
      have hnext := hjoined.trans ((hv hvisit).trans (congrArg (·.host.frame) hw))
      refine ⟨List.forall_mem_cons.mpr ⟨congrArg (·.host.frame) hw, fun u hu => ?_⟩, ?_⟩
      · exact (ih.1 u hu).trans hnext
      · exact ih.2.trans hnext

end Rounds

/-! ## Visits are acts -/

/-- The events of a round: its calls, and then what was asked for joins. -/
def Round.told (v : Round (List Call)) : List Event :=
  v.result.map Call.event ++ .chore .takeAdds :: v.loads.map .joined

theorem Round.told_cases {vs : List (Round (List Call))} {e : Event}
    (he : e ∈ vs.flatMap Round.told) : (∃ v ∈ vs, ∃ d ∈ v.result, e = d.event) ∨
      e = .chore .takeAdds ∨ ∃ a, e = .joined a := by
  obtain ⟨v, hv, he⟩ := List.mem_flatMap.mp he
  rcases List.mem_append.mp he with he | he
  · obtain ⟨d, hd, rfl⟩ := List.mem_map.mp he
    exact .inl ⟨v, hv, d, hd, rfl⟩
  · rcases List.mem_cons.mp he with rfl | he
    · exact .inr (.inl rfl)
    · obtain ⟨a, -, rfl⟩ := List.mem_map.mp he
      exact .inr (.inr ⟨a, rfl⟩)

/-- The calls on a visit are what the registry does at the place of the instance. -/
def Visiting.Told (libraries : Libraries) (visiting : Visiting (List Call)) : Prop :=
  ∀ {r : Registry} {place : Nat} {i i' : Instance} {calls : List Call} {w' : World},
    r.libraries = libraries → r.instances[place]? = some i → visiting i r.world calls i' w' →
    Path r (calls.map Call.event) { r with world := w', instances := r.instances.set place i' }

/-- A pass is the path of its rounds. -/
theorem Rounds.path {visiting : Visiting (List Call)} {libraries : Libraries} {place : Nat}
    {r r' : Registry} {vs : List (Round (List Call))} (h : Rounds visiting place r vs r')
    (hv : visiting.Told libraries) (hl : r.libraries = libraries) :
    Path r (vs.flatMap Round.told) r' := by
  induction h with
  | done => exact .refl _
  | @round place r r₁ r' v vs hi hw hvisit _ hj _ ih =>
      have hjoined : Path r v.told r₁ :=
        (hv hl hi (hw ▸ hvisit)).trans (.step (.chore .takeAdds) hj)
      exact hjoined.trans (ih (hjoined.fixed.2.trans hl))

/-- To dispatch an entry point is one act. -/
theorem Registry.dispatch_act {budget : Nat} {r : Registry} {i i' : Instance} {place : Nat}
    {e : EntryPoint} {args : List HostValue} {o : Outcome} {w' : World}
    (hi : r.instances[place]? = some i)
    (h : i.dispatch budget r.libraries e args r.world = some (o, i', w')) :
    Act r (.called ⟨i, e, args, r.world, o, i', w'⟩)
      { r with world := w', instances := r.instances.set place i' } :=
  .called place (c := ⟨i, e, args, r.world, o, i', w'⟩) hi rfl ⟨budget, h⟩

/-- What an update does with an instance: `OnUpdate` is dispatched, and `OnInit` before it if the
instance is ready and had no update yet, and then it has had one. -/
inductive Updated (libraries : Libraries) : Visiting (List Call)
  | first {budget : Nat} {i i₁ i' : Instance} {w w₁ w' : World} {o o' : Outcome}
      (hn : i.initialized = false) (hs : i.state = .ready)
      (hinit : i.dispatch budget libraries .onInit [] w = some (o, i₁, w₁))
      (hupdate : i₁.markInitialized.dispatch budget libraries .onUpdate [] w₁ =
        some (o', i', w')) :
      Updated libraries i w
        [⟨i, .onInit, [], w, o, i₁, w₁⟩, ⟨i₁.markInitialized, .onUpdate, [], w₁, o', i', w'⟩] i' w'
  | later {budget : Nat} {i i' : Instance} {w w' : World} {o : Outcome}
      (h : ¬(i.initialized = false ∧ i.state = .ready))
      (hupdate : i.dispatch budget libraries .onUpdate [] w = some (o, i', w')) :
      Updated libraries i w [⟨i, .onUpdate, [], w, o, i', w'⟩] i' w'

/-- What a draw does with an instance: `OnDraw` is dispatched. -/
inductive Drawn (libraries : Libraries) : Visiting (List Call)
  | drawn {budget : Nat} {i i' : Instance} {w w' : World} {o : Outcome}
      (h : i.dispatch budget libraries .onDraw [] w = some (o, i', w')) :
      Drawn libraries i w [⟨i, .onDraw, [], w, o, i', w'⟩] i' w'

/-- What a message does with an instance: `OnMessage` is dispatched if it is for its name. -/
inductive Delivered (libraries : Libraries) (name : String) (payload : HostValue) :
    Visiting (List Call)
  | named {budget : Nat} {i i' : Instance} {w w' : World} {o : Outcome} (hn : i.name = name)
      (h : i.dispatch budget libraries .onMessage [payload] w = some (o, i', w')) :
      Delivered libraries name payload i w [⟨i, .onMessage, [payload], w, o, i', w'⟩] i' w'
  | other {i : Instance} {w : World} (hn : i.name ≠ name) :
      Delivered libraries name payload i w [] i w

/-- The message was handled: a call that it made came to its end. -/
def handledBy (calls : List Call) : Bool := calls.any fun c => c.outcome.isCompleted

namespace Registry

variable {budget : Nat} {libraries : Libraries} {r r' : Registry}

section Visits

variable {i i' : Instance} {w w' : World}

/-- An update of an instance is a call of `OnUpdate`, and of `OnInit` before it if the instance is
ready and had none yet. -/
theorem updateVisit_cases {outcomes : Option Outcome × Outcome}
    (h : updateVisit budget libraries i w = some (outcomes, i', w')) :
    ((!i.initialized && i.state == .ready) = true ∧ ∃ o i₁ w₁ o',
        i.dispatch budget libraries .onInit [] w = some (o, i₁, w₁) ∧
        i₁.markInitialized.dispatch budget libraries .onUpdate [] w₁ = some (o', i', w')) ∨
      (¬(!i.initialized && i.state == .ready) = true ∧
        ∃ o, i.dispatch budget libraries .onUpdate [] w = some (o, i', w')) := by
  unfold updateVisit at h
  dsimp only at h
  split at h
  · rename_i hfirst
    obtain ⟨⟨o, i₁, w₁⟩, hinit, h⟩ := Option.bind_eq_some_iff.mp h
    obtain ⟨_, hpair, h⟩ := Option.bind_eq_some_iff.mp h
    cases hpair
    obtain ⟨⟨o', i₂, w₂⟩, hupdate, h⟩ := Option.bind_eq_some_iff.mp h
    cases h
    exact .inl ⟨hfirst, o, i₁, w₁, o', hinit, hupdate⟩
  · rename_i hfirst
    obtain ⟨_, hpair, h⟩ := Option.bind_eq_some_iff.mp h
    cases hpair
    obtain ⟨⟨o, i₁, w₁⟩, hupdate, h⟩ := Option.bind_eq_some_iff.mp h
    cases h
    exact .inr ⟨hfirst, o, hupdate⟩

/-- A message is a call of `OnMessage` for an instance of the name, and nothing for others. -/
theorem messageVisit_cases {name : String} {payload : HostValue} {handled : Bool}
    (h : messageVisit budget libraries name payload i w = some (handled, i', w')) :
    (i.name = name ∧ ∃ o, i.dispatch budget libraries .onMessage [payload] w = some (o, i', w') ∧
        handled = o.isCompleted) ∨
      (i.name ≠ name ∧ handled = false ∧ i' = i ∧ w' = w) := by
  unfold messageVisit at h
  split at h
  · rename_i hname
    obtain ⟨⟨o, i₁, w₁⟩, hdispatch, h⟩ := Option.bind_eq_some_iff.mp h
    cases h
    exact .inl ⟨beq_iff_eq.mp hname, o, hdispatch, rfl⟩
  · rename_i hname
    cases h
    exact .inr ⟨fun heq => hname (beq_iff_eq.mpr heq), rfl, rfl, rfl⟩

theorem updateVisit_updated {outcomes : Option Outcome × Outcome}
    (h : (updateVisit budget libraries).visiting i w outcomes i' w') :
    ∃ calls, Updated libraries i w calls i' w' := by
  rcases updateVisit_cases h with ⟨hfirst, o, i₁, w₁, o', hinit, hupdate⟩ | ⟨hfirst, o, hupdate⟩
  · simp only [Bool.and_eq_true, Bool.not_eq_true', beq_iff_eq] at hfirst
    exact ⟨_, .first hfirst.1 hfirst.2 hinit hupdate⟩
  · simp only [Bool.and_eq_true, Bool.not_eq_true', beq_iff_eq] at hfirst
    exact ⟨_, .later hfirst hupdate⟩

theorem drawVisit_drawn {outcome : Outcome}
    (h : (drawVisit budget libraries).visiting i w outcome i' w') :
    ∃ calls, Drawn libraries i w calls i' w' :=
  ⟨_, .drawn h⟩

/-- The visit says whether the call that it made, if it made one, came to its end. -/
theorem messageVisit_delivered {name : String} {payload : HostValue} {handled : Bool}
    (h : (messageVisit budget libraries name payload).visiting i w handled i' w') :
    ∃ calls, Delivered libraries name payload i w calls i' w' ∧ handledBy calls = handled := by
  rcases messageVisit_cases h with ⟨hname, o, hdispatch, rfl⟩ | ⟨hname, rfl, rfl, rfl⟩
  · exact ⟨_, .named hname hdispatch, Bool.or_false _⟩
  · exact ⟨_, .other hname, rfl⟩

end Visits

theorem updated_told : (Updated libraries).Told libraries := by
  intro r place i i' calls w' hl hi h
  subst hl
  cases h with
  | @first budget _ i₁ _ _ w₁ _ o o' hn hs hinit hupdate =>
      have hstarted := Act.started (r := r) place (c := ⟨i, .onInit, [], r.world, o, i₁, w₁⟩) hi
        rfl rfl hs hn ⟨budget, hinit⟩
      have hplace : (r.instances.set place i₁.markInitialized)[place]? =
          some i₁.markInitialized :=
        List.getElem?_set_self (List.getElem?_eq_some_iff.mp hi).1
      have hcalled := dispatch_act (r := { r with
        world := w₁, instances := r.instances.set place i₁.markInitialized }) hplace hupdate
      rw [List.set_set] at hcalled
      exact .step hstarted (.single hcalled)
  | later _ hupdate => exact .single (dispatch_act hi hupdate)

theorem drawn_told : (Drawn libraries).Told libraries := by
  intro r place i i' calls w' hl hi h
  subst hl
  cases h with
  | drawn hdispatch => exact .single (dispatch_act hi hdispatch)

theorem delivered_told {name : String} {payload : HostValue} :
    (Delivered libraries name payload).Told libraries := by
  intro r place i i' calls w' hl hi h
  subst hl
  cases h with
  | named _ hdispatch => exact .single (dispatch_act hi hdispatch)
  | other _ =>
      rw [set_self hi]
      exact .refl r

/-- The events of an update behind its last visit. -/
def counting (report : LogRecord) (cost : Int) : List Event :=
  [.chore .countFrame, .chore .tick, .chore (.record report), .chore (.measure cost)]

/-- An update that comes to its end: the time, the rounds, the count and the report. -/
theorem update_rounds (h : r.update budget = some r') :
    ∃ vs r₁, Rounds (Updated r.libraries) 0 { r with world := r.world.tick.2 } vs r₁ ∧
      r'.instances = r₁.instances ∧ r'.world.host.frame = r₁.world.host.frame + 1 ∧
      ∃ report cost, Path r₁ (counting report cost) r' := by
  obtain ⟨⟨_, r₁⟩, hpass, h⟩ := Option.bind_eq_some_iff.mp h
  cases h
  obtain ⟨us, hrounds, -⟩ := passFrom_rounds hpass
  obtain ⟨vs, hupdated⟩ := hrounds.retold updateVisit_updated
  exact ⟨vs, r₁, hupdated, rfl, rfl, _, _, .step (.chore .countFrame)
    (.step (.chore .tick) (.step (.chore (.record _)) (.single (.chore (.measure _)))))⟩

/-- A message that comes to its end: the rounds, and in how many of them it was handled. -/
theorem sendMessage_rounds {name : String} {payload : HostValue} {n : Nat}
    (h : r.sendMessage budget name payload = some (n, r')) :
    ∃ vs, Rounds (Delivered r.libraries name payload) 0 r vs r' ∧
      n = (vs.map fun v => handledBy v.result).count true := by
  obtain ⟨⟨_, r₁⟩, hpass, h⟩ := Option.bind_eq_some_iff.mp h
  cases h
  obtain ⟨us, hrounds, rfl⟩ := passFrom_rounds hpass
  obtain ⟨vs, hdelivered, hread⟩ := hrounds.retold_reading id handledBy messageVisit_delivered
  exact ⟨vs, hdelivered, congrArg (List.count true) hread.symm⟩

end Registry

/-! ## Scans -/

/-- What is reported of an instance that is behind a source file. -/
def SourceFile.report (s : SourceFile) (i : Instance) : LogRecord :=
  Level.debug.report "source changed" [("script", i.name), ("file", s.path.text)]

/-- The events of the attempts on the instances that are behind a source file. -/
def SourceFile.told (s : SourceFile) (attempts : List Attempt) : List Event :=
  attempts.flatMap fun a => [.chore (.record (s.report a.before)), .tried a]

/-- The scan of a registry and its events: if the directory cannot be read there are none, and
otherwise the instances behind each source file are loaded again. -/
inductive Scanned (r : Registry) (root : FilePath) : Except ScanError Nat → List Event → Prop
  | failed {e : ScanError} (h : collectSources r.world.files root = .error e) :
      Scanned r root (.error e) []
  | done {reports : List LogRecord} {tries : List (SourceFile × List Attempt)}
      (h : collectSources r.world.files root = .ok (tries.map (·.1), reports))
      (hstale : ∀ t ∈ tries, ∀ a ∈ t.2, a.before.isStale t.1 = true) :
      Scanned r root (.ok (tries.flatMap (·.2)).length)
        (reports.map (fun l => .chore (.record l)) ++ tries.flatMap fun t => t.1.told t.2)

/-- A scan reports and tries to load, no more. -/
theorem Scanned.cases {r : Registry} {root : FilePath} {result : Except ScanError Nat}
    {tries : List Event} (h : Scanned r root result tries) :
    ∀ e ∈ tries, (∃ a, e = .tried a) ∨ ∃ l, e = .chore (.record l) := by
  intro e he
  cases h with
  | failed => nomatch he
  | done =>
      rcases List.mem_append.mp he with he | he
      · obtain ⟨l, -, rfl⟩ := List.mem_map.mp he
        exact .inr ⟨l, rfl⟩
      · obtain ⟨t, -, he⟩ := List.mem_flatMap.mp he
        obtain ⟨a, -, he⟩ := List.mem_flatMap.mp he
        simp only [List.mem_cons, List.not_mem_nil, or_false] at he
        rcases he with rfl | rfl
        · exact .inr ⟨_, rfl⟩
        · exact .inl ⟨a, rfl⟩

namespace Registry

variable {budget : Nat} {r r' : Registry}

theorem recordAll_path : ∀ {reports : List LogRecord} {r : Registry},
    Path r (reports.map fun l => .chore (.record l)) { r with world := r.world.recordAll reports }
  | [], r => .refl r
  | report :: _, _ => .step (.chore (.record report)) recordAll_path

/-- An instance that is behind the source file is reported and loaded again, any other is passed
over; then come the rest of the list. -/
theorem reloadStale_cases {libraries : Libraries} {s : SourceFile} {i : Instance}
    {rest is' : List Instance} {w w' : World} {n : Nat}
    (h : reloadStale budget libraries s (i :: rest) w = some (n, is', w')) :
    (i.isStale s = true ∧ ∃ result i' w₁ m rest',
        i.reload budget libraries (w.record (s.report i)) = some (result, i', w₁) ∧
        reloadStale budget libraries s rest w₁ = some (m, rest', w') ∧
        is' = i' :: rest' ∧ n = m + 1) ∨
      (i.isStale s = false ∧ ∃ rest',
        reloadStale budget libraries s rest w = some (n, rest', w') ∧ is' = i :: rest') := by
  unfold reloadStale at h
  dsimp only at h
  split at h
  · rename_i hstale
    obtain ⟨⟨result, i', w₁⟩, hreload, h⟩ := Option.bind_eq_some_iff.mp h
    obtain ⟨_, hpair, h⟩ := Option.bind_eq_some_iff.mp h
    cases hpair
    obtain ⟨⟨m, rest', w₂⟩, hrest, h⟩ := Option.bind_eq_some_iff.mp h
    cases h
    exact .inl ⟨hstale, result, i', w₁, m, rest', hreload, hrest, rfl, Nat.add_comm 1 m⟩
  · rename_i hfresh
    obtain ⟨_, hpair, h⟩ := Option.bind_eq_some_iff.mp h
    cases hpair
    obtain ⟨⟨m, rest', w₁⟩, hrest, h⟩ := Option.bind_eq_some_iff.mp h
    cases h
    exact .inr ⟨Bool.eq_false_iff.mpr hfresh, rest', by rw [Nat.zero_add]; exact hrest, rfl⟩

/-- A scan fails if the directory cannot be read, and otherwise goes through what it found. -/
theorem scan_cases {libraries : Libraries} {root : FilePath} {is is' : List Instance}
    {w w' : World} {result : Except ScanError Nat}
    (h : scan budget libraries root is w = some (result, is', w')) :
    (∃ e, collectSources w.files root = .error e ∧ result = .error e ∧ is' = is ∧ w' = w) ∨
      ∃ sources reports n, collectSources w.files root = .ok (sources, reports) ∧
        reloadAll budget libraries sources is (w.recordAll reports) = some (n, is', w') ∧
        result = .ok n := by
  unfold scan at h
  split at h
  · rename_i e he
    cases h
    exact .inl ⟨e, he, rfl, rfl, rfl⟩
  · rename_i sources reports hfound
    obtain ⟨⟨n, is₁, w₁⟩, hall, h⟩ := Option.bind_eq_some_iff.mp h
    cases h
    exact .inr ⟨sources, reports, n, hfound, hall, rfl⟩

theorem reloadStale_path {s : SourceFile} : ∀ {is is' : List Instance} {w w' : World} {n : Nat},
    reloadStale budget r.libraries s is w = some (n, is', w') → ∀ done : List Instance,
      ∃ attempts : List Attempt,
        Path { r with instances := done ++ is, world := w } (s.told attempts)
          { r with instances := done ++ is', world := w' } ∧
        attempts.map Attempt.before = is.filter (·.isStale s) ∧ attempts.length = n
  | [], _, w, _, _, h, done => by
    cases h
    exact ⟨[], .refl _, rfl, rfl⟩
  | i :: rest, is', w, w', n, h, done => by
    rcases reloadStale_cases h with
      ⟨hstale, result, i₁, w₁, m, rest₁, hreload, hrest, rfl, rfl⟩ | ⟨hfresh, rest₁, hrest, rfl⟩
    · obtain ⟨attempts, hpath, hbefore, hcount⟩ := reloadStale_path hrest (done ++ [i₁])
      simp only [List.append_assoc, List.singleton_append] at hpath
      refine ⟨⟨i, w.record (s.report i), result, i₁, w₁⟩ :: attempts, ?_, ?_, ?_⟩
      · exact .step (.chore (.record (s.report i)))
          (.step (reloadAt_act rfl hreload done rest) hpath)
      · rw [List.map_cons, hbefore, List.filter_cons, if_pos hstale]
      · rw [List.length_cons, hcount]
    · obtain ⟨attempts, hpath, hbefore, hcount⟩ := reloadStale_path hrest (done ++ [i])
      simp only [List.append_assoc, List.singleton_append] at hpath
      refine ⟨attempts, hpath, ?_, hcount⟩
      rw [hbefore, List.filter_cons, if_neg (Bool.eq_false_iff.mp hfresh)]

theorem reloadAll_path : ∀ {sources : List SourceFile} {is is' : List Instance} {w w' : World}
    {n : Nat}, reloadAll budget r.libraries sources is w = some (n, is', w') →
      ∃ tries : List (SourceFile × List Attempt),
        Path { r with instances := is, world := w } (tries.flatMap fun t => t.1.told t.2)
          { r with instances := is', world := w' } ∧
        tries.map (·.1) = sources ∧ (tries.flatMap (·.2)).length = n ∧
        ∀ t ∈ tries, ∀ a ∈ t.2, a.before.isStale t.1 = true
  | [], _, _, _, _, _, h => by
    cases h
    exact ⟨[], .refl _, rfl, rfl, List.forall_mem_nil _⟩
  | s :: rest, is, is', w, w', n, h => by
    obtain ⟨⟨m, is₁, w₁⟩, hstale, h⟩ := Option.bind_eq_some_iff.mp h
    obtain ⟨⟨m', is₂, w₂⟩, hrest, h⟩ := Option.bind_eq_some_iff.mp h
    cases h
    obtain ⟨attempts, hpath, hbefore, rfl⟩ := reloadStale_path hstale []
    obtain ⟨tries, hnext, rfl, rfl, hall⟩ := reloadAll_path hrest
    refine ⟨(s, attempts) :: tries, hpath.trans hnext, rfl, List.length_append,
      List.forall_mem_cons.mpr ⟨fun a ha => ?_, hall⟩⟩
    have hmem : a.before ∈ is.filter (·.isStale s) := hbefore ▸ List.mem_map_of_mem ha
    exact (List.mem_filter.mp hmem).2

theorem scan_path {root : FilePath} {is : List Instance} {w : World}
    {result : Except ScanError Nat}
    (h : scan budget r.libraries root r.instances r.world = some (result, is, w)) :
    ∃ tries, Scanned r root result tries ∧ Path r tries { r with instances := is, world := w } := by
  rcases scan_cases h with ⟨e, hsources, rfl, rfl, rfl⟩ | ⟨sources, reports, n, hsources, hall, rfl⟩
  · exact ⟨[], .failed hsources, .refl r⟩
  · obtain ⟨tries, hpath, rfl, rfl, hstale⟩ := reloadAll_path hall
    exact ⟨_, .done hsources hstale, recordAll_path.trans hpath⟩

/-- A draw that comes to its end up to the scan behind the last visit, and from there on. -/
theorem draw_visits {surface : ImageId} {result : Except ScanError Unit}
    (h : r.draw budget surface = some (result, r')) :
    ∃ vs r₁ scanned is w,
      Rounds (Drawn r.libraries) 0
        { r with world := r.world.modifyHost fun h => { h with screen := surface } } vs r₁ ∧
      scan budget r₁.libraries r₁.scripts.dir r₁.instances r₁.world = some (scanned, is, w) ∧
      result = scanned.map (fun _ => ()) ∧
      r' = ({ r₁ with instances := is, world := w } : Registry).applyRemovals := by
  obtain ⟨⟨_, r₁⟩, hpass, h⟩ := Option.bind_eq_some_iff.mp h
  obtain ⟨⟨scanned, is, w⟩, hscan, h⟩ := Option.bind_eq_some_iff.mp h
  cases h
  obtain ⟨us, hrounds, -⟩ := passFrom_rounds hpass
  obtain ⟨vs, hdrawn⟩ := hrounds.retold drawVisit_drawn
  exact ⟨vs, r₁, scanned, is, w, hdrawn, hscan, rfl, rfl⟩

/-- A draw that comes to its end: the surface, the rounds, the scan, and the removals. -/
theorem draw_rounds {surface : ImageId} {result : Except ScanError Unit}
    (h : r.draw budget surface = some (result, r')) :
    ∃ vs r₁ r₂ scanned tries,
      Rounds (Drawn r.libraries) 0
        { r with world := r.world.modifyHost fun h => { h with screen := surface } } vs r₁ ∧
      Scanned r₁ r₁.scripts.dir scanned tries ∧ Path r₁ tries r₂ ∧
      result = scanned.map (fun _ => ()) ∧ r' = r₂.applyRemovals := by
  obtain ⟨vs, r₁, scanned, is, w, hdrawn, hscan, rfl, rfl⟩ := draw_visits h
  obtain ⟨tries, hscanned, hpath⟩ := scan_path hscan
  exact ⟨vs, r₁, _, scanned, tries, hdrawn, hscanned, hpath, rfl, rfl⟩

end Registry
end Stagehand
