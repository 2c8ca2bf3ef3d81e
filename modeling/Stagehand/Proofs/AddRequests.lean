import Stagehand.Proofs.DrawPass

/-!
# Requests for scripts

Requests for scripts to be added come from entry points, from top levels, and from the host. They
are queued with the host and taken in two ways: a pass takes them behind each visit and lets the
scripts join (`Rounds.balanced`), and to start anew is to forget them. What was asked for, by the
account of what every event did, is therefore what joined on request and what is still pending, in
this order (`Balanced`, kept by paths and by rounds, hence by every operation).

What a pass leaves is settled by its last visit: if anything joins behind a visit there is another
one, so nothing is pending behind the last (`Rounds.drained`). A pass without a visit takes nothing.
-/

namespace Stagehand

open Lang

/-- The event takes the requests for scripts. -/
def Event.drains : Event → Bool
  | .chore .takeAdds => true
  | _ => false

/-- The name of the script that joins in an event. -/
def Event.newcomer? : Event → Option String
  | .joined a => some a.before.name
  | _ => none

/-- The names of the scripts that join, in the order in which they do. -/
def newcomers (es : List Event) : List String := es.filterMap Event.newcomer?

/-- What effects ask for. -/
def wanted (effects : List Effect) : List String := effects.filterMap Effect.added?

theorem wanted_append (effects effects' : List Effect) :
    wanted (effects ++ effects') = wanted effects ++ wanted effects' := List.filterMap_append

theorem newcomers_append (es es' : List Event) :
    newcomers (es ++ es') = newcomers es ++ newcomers es' := List.filterMap_append

theorem Ran.adds {A : Allowance} {owner : InstanceId} {es : List Effect} {w w' : World}
    (h : Ran A owner es w w') : w'.host.adds = w.host.adds ++ wanted es := by
  have hall := h.part (f := fun w => w.host.adds) (g := fun e adds => adds ++ e.added?.toList)
    Effect.apply_adds fun _ _ => rfl
  rw [foldl_toList_append] at hall
  exact hall

/-! ## One act -/

namespace Act

variable {r r' : Registry} {e : Event} {effects : List Effect}

theorem adds (h : Act r e r') (ha : e.Account effects) (hd : e.drains = false) :
    r'.world.host.adds = r.world.host.adds ++ wanted effects := by
  cases ha with
  | ran he hran =>
      obtain ⟨⟨stores, rfl⟩, hafter⟩ := h.run_world he
      rw [hafter, hran.adds]
  | left ids =>
      cases h with
      | left =>
          obtain ⟨⟨realms, hforget⟩, -⟩ := r.world.foldl_forget ids
          have hhost : (ids.foldl World.forget r.world).host = r.world.host := by rw [hforget]
          exact (congrArg HostState.adds hhost).trans (List.append_nil _).symm
  | chore c =>
      cases h with
      | chore =>
          cases c with
          | takeAdds => nomatch hd
          | requestAdd name => rfl
          | _ => exact (List.append_nil _).symm

/-- Events say what they made of the world. -/
theorem world_eq {s s' : Registry} (h : Act r e r') (hs : Act s e s') (hw : r.world = s.world) :
    r'.world = s'.world := by
  cases h with
  | joined | tried | called | invoked | started =>
      cases hs
      rfl
  | left ids =>
      cases hs
      exact congrArg (ids.foldl World.forget) hw
  | chore c =>
      cases hs
      cases c <;> simp only [Chore.apply, hw]

theorem keeps (h : Act r e r') {handle : ScriptHandle}
    (hm : handle ∈ r.instances.map Instance.handle) :
    handle ∈ r'.instances.map Instance.handle ∨ ∃ ids, e = .left ids ∧ handle.id ∈ ids := by
  by_cases hstays : e.removes = false
  · rw [h.handles hstays]
    exact .inl (List.mem_append_left _ hm)
  · cases h with
    | left ids =>
        by_cases hid : handle.id ∈ ids
        · exact .inr ⟨ids, rfl, hid⟩
        · obtain ⟨i, hi, rfl⟩ := List.mem_map.mp hm
          refine .inl (List.mem_map.mpr ⟨i, List.mem_filter.mpr ⟨hi, ?_⟩, rfl⟩)
          simpa [Instance.id] using hid
    | chore c => cases c <;> exact .inl hm
    | joined | tried | called | invoked | started => exact absurd rfl hstays

end Act

namespace Path

variable {r r' : Registry} {es : List Event}

theorem world_eq {s s' : Registry} (h : Path r es r') (hs : Path s es s')
    (hw : r.world = s.world) : r'.world = s'.world := by
  induction h generalizing s with
  | refl =>
      cases hs
      exact hw
  | step hact _ ih =>
      cases hs with
      | step hact' hrest => exact ih hrest (hact.world_eq hact' hw)

/-- Who is registered stays so until it leaves. -/
theorem keeps {handle : ScriptHandle} (h : Path r es r')
    (hm : handle ∈ r.instances.map Instance.handle) :
    handle ∈ r'.instances.map Instance.handle ∨ ∃ ids, .left ids ∈ es ∧ handle.id ∈ ids := by
  induction h with
  | refl => exact .inl hm
  | step hact _ ih =>
      rcases hact.keeps hm with hm' | ⟨ids, rfl, hid⟩
      · rcases ih hm' with hm'' | ⟨ids, hids, hid⟩
        · exact .inl hm''
        · exact .inr ⟨ids, List.mem_cons_of_mem _ hids, hid⟩
      · exact .inr ⟨ids, List.mem_cons_self, hid⟩

end Path

/-! ## The balance -/

/-- What was pending and what the events asked for is what was served and what is pending then. -/
def Balanced (r : Registry) (es : List Event) (served : List String) (r' : Registry) : Prop :=
  ∀ effects, Accounted es effects →
    r.world.host.adds ++ wanted effects = served ++ r'.world.host.adds

namespace Balanced

variable {r r' r'' : Registry} {es es' : List Event} {served served' : List String}

theorem trans (h : Balanced r es served r') (h' : Balanced r' es' served' r'') :
    Balanced r (es ++ es') (served ++ served') r'' := by
  intro effects ha
  obtain ⟨first, rest, hfirst, hrest, rfl⟩ := ha.append_cases
  rw [wanted_append, ← List.append_assoc, h first hfirst, List.append_assoc, h' rest hrest,
    List.append_assoc]

/-- As long as nobody takes the requests they pile up. -/
theorem of_path (h : Path r es r') (hd : ∀ e ∈ es, e.drains = false) : Balanced r es [] r' := by
  induction h with
  | refl r =>
      intro effects ha
      cases ha
      exact List.append_nil _
  | step hact _ ih =>
      obtain ⟨hfirst, hrest⟩ := List.forall_mem_cons.mp hd
      intro effects ha
      cases ha with
      | cons hown hs =>
          rw [wanted_append, ← List.append_assoc, ← hact.adds hown hfirst]
          exact ih hrest _ hs

/-- To take the requests is to serve those that were pending. -/
theorem taken (r : Registry) :
    Balanced r [.chore .takeAdds] r.world.host.adds ((Chore.takeAdds).apply r) := by
  intro effects ha
  cases ha with
  | cons hown hs =>
      cases hs
      cases hown with
      | ran he _ => nomatch he
      | chore => rfl

theorem of_world (h : Balanced r es served r') {s : Registry} (s' : Registry)
    (hr : s.world = r.world) (hr' : s'.world = r'.world) : Balanced s es served s' := by
  intro effects ha
  rw [hr, hr']
  exact h effects ha

end Balanced

/-! ## A pass -/

namespace Rounds

variable {visiting : Visiting (List Call)} {libraries : Libraries} {place : Nat}
  {r r' : Registry} {vs : List (Round (List Call))}

theorem newcomers_told (v : Round (List Call)) :
    newcomers v.told = v.loads.map fun a => a.before.name := by
  have hcalls : newcomers (v.result.map Call.event) = [] := by
    refine List.filterMap_eq_nil_iff.mpr fun e he => ?_
    obtain ⟨d, -, rfl⟩ := List.mem_map.mp he
    rcases d.event_cases with h | h <;> rw [h] <;> rfl
  have hloads : newcomers (v.loads.map .joined) = v.loads.map fun a => a.before.name := by
    simp [newcomers, List.filterMap_map, Function.comp_def, Event.newcomer?]
  unfold Round.told
  rw [newcomers_append, hcalls]
  exact hloads

/-- In a pass those are served that join. -/
theorem balanced (h : Rounds visiting place r vs r') (hv : visiting.Told libraries)
    (hl : r.libraries = libraries) :
    Balanced r (vs.flatMap Round.told) (newcomers (vs.flatMap Round.told)) r' := by
  induction h with
  | done => exact Balanced.of_path (.refl _) (List.forall_mem_nil _)
  | @round place r r₁ r' v vs hi hw hvisit hn hj _ ih =>
      have hcalls := hv hl hi (hw ▸ hvisit)
      have hjoined : Path r v.told r₁ := hcalls.trans (.step (.chore .takeAdds) hj)
      have hfirst : Balanced r v.told (newcomers v.told) r₁ := by
        have hpass := Balanced.of_path hcalls fun e he => by
          obtain ⟨d, -, rfl⟩ := List.mem_map.mp he
          rcases d.event_cases with h | h <;> rw [h] <;> rfl
        have hload := Balanced.of_path hj fun e he => by
          obtain ⟨a, -, rfl⟩ := List.mem_map.mp he
          rfl
        have htold := hpass.trans ((Balanced.taken _).trans hload)
        -- behind the calls the world is the one that the visit left
        have hpending : ([] : List String) ++ (v.left.host.adds ++ []) = newcomers v.told := by
          rw [newcomers_told, hn, List.nil_append, List.append_nil]
        exact hpending ▸ htold
      have hrest := ih (hjoined.fixed.2.trans hl)
      have hall := hfirst.trans hrest
      rw [← newcomers_append] at hall
      exact hall

/-- The same if events that neither take requests nor let anybody join stand around the pass. -/
theorem balanced_between (pre : List Event) {post : List Event} {r₀ r₁ : Registry}
    (h : Rounds visiting place r₀ vs r₁) (hv : visiting.Told libraries)
    (hl : r₀.libraries = libraries) (hpre : Path r pre r₀)
    (hp : Path r (pre ++ vs.flatMap Round.told ++ post) r')
    (hidle : ∀ e ∈ pre ++ post, e.drains = false ∧ e.newcomer? = none) :
    Balanced r (pre ++ vs.flatMap Round.told ++ post)
      (newcomers (pre ++ vs.flatMap Round.told ++ post)) r' := by
  obtain ⟨r₂, hfront, hback⟩ := hp.split
  have hworld : r₂.world = r₁.world := hfront.world_eq (hpre.trans (h.path hv hl)) rfl
  have hbefore := Balanced.of_path hpre fun e he => (hidle e (by simp [he])).1
  have hafter := Balanced.of_path hback fun e he => (hidle e (by simp [he])).1
  have hmiddle := (hbefore.trans (h.balanced hv hl)).of_world r₂ rfl hworld
  have hnobody : newcomers pre = [] ∧ newcomers post = [] :=
    ⟨List.filterMap_eq_nil_iff.mpr fun e he => (hidle e (by simp [he])).2,
      List.filterMap_eq_nil_iff.mpr fun e he => (hidle e (by simp [he])).2⟩
  rw [newcomers_append, newcomers_append, hnobody.1, hnobody.2]
  exact hmiddle.trans hafter

/-- Behind a visit nothing is pending, or there is another visit. -/
theorem drained {α : Type} {visiting : Visiting α} {vs : List (Round α)}
    (h : Rounds visiting place r vs r')
    (hp : r.world.host.adds = [] ∨ place < r.instances.length) : r'.world.host.adds = [] := by
  induction h with
  | done hend =>
      have hle := List.getElem?_eq_none_iff.mp hend
      rcases hp with hnone | hlt
      · exact hnone
      · omega
  | @round place r r₁ r' v vs hi _ _ _ hj _ ih =>
      have hlt := (List.getElem?_eq_some_iff.mp hi).1
      have hlength : r₁.instances.length = r.instances.length + v.loads.length := by
        have := congrArg List.length hj.joined_instances
        simpa using this
      apply ih
      cases hloads : v.loads with
      | nil =>
          rw [hloads] at hj
          cases hj
          exact .inl rfl
      | cons a rest =>
          rw [hloads, List.length_cons] at hlength
          omega

end Rounds

/-- An update leaves requests pending only if there is nobody to visit. -/
theorem Registry.update_adds {budget : Nat} {r r' : Registry} (h : r.update budget = some r') :
    (r'.instances = [] ↔ r.instances = []) ∧
      r'.world.host.adds = if r.instances = [] then r.world.host.adds else [] := by
  obtain ⟨vs, r₁, hrounds, hlist, -, report, cost, hend⟩ := update_rounds h
  have hadds : r'.world.host.adds = r₁.world.host.adds := by
    have hworld := hend.world_eq (s := r₁) (.step (.chore .countFrame) (.step (.chore .tick)
      (.step (.chore (.record report)) (.single (.chore (.measure cost)))))) rfl
    exact congrArg (·.host.adds) hworld
  have hlength := congrArg List.length hrounds.departures
  have hvisits := congrArg List.length hrounds.arrivals
  simp only [List.length_append, List.length_map, List.length_take, List.length_drop,
    Nat.zero_min, Nat.sub_zero, Nat.zero_add] at hlength hvisits
  rw [hadds, hlist]
  by_cases hempty : r.instances = []
  · cases hrounds with
    | done => exact ⟨Iff.rfl, (if_pos hempty).symm⟩
    | round hi => simp [hempty] at hi
  · have hpos : 0 < r.instances.length := List.length_pos_iff.mpr hempty
    refine ⟨⟨fun hnil => ?_, fun hnil => absurd hnil hempty⟩, ?_⟩
    · rw [hnil, List.length_nil] at hlength
      omega
    · rw [if_neg hempty]
      exact hrounds.drained (.inr hpos)

/-! ## Operations and histories -/

/-- The operation is a pass, which serves requests. -/
def Op.serves : Op → Bool
  | .update | .draw _ | .sendMessage _ _ => true
  | _ => false

/-- The operation forgets the requests that are pending. -/
def Op.forgets : Op → Bool
  | .reset | .around .takeAdds => true
  | _ => false

/-- What happened since requests were last forgotten, and whom it served. -/
structure Book where
  events : List Event := []
  served : List String := []

/-- The book after an operation. -/
def Book.enter (b : Book) (p : Op × List Event) : Book :=
  if p.1.forgets then { events := p.2.rtakeWhile fun e => !e.drains }
  else
    { events := b.events ++ p.2
      served := b.served ++ if p.1.serves then newcomers p.2 else [] }

/-- The book of a past. -/
def bookOf (past : List (Op × List Event)) : Book := past.foldl Book.enter {}

theorem Op.Told.balanced {o : Op} {r r' : Registry} {es : List Event} (ht : o.Told r es)
    (hp : Path r es r') (hf : o.forgets = false) :
    Balanced r es (if o.serves then newcomers es else []) r' := by
  cases o with
  | reset => nomatch hf
  | add | addStartup | remove | reload | reloadOne | dispatchOne | invokeOne =>
      refine Balanced.of_path hp ?_
      simp only [Told] at ht
      grind [Event.drains]
  | around c =>
      subst ht
      refine Balanced.of_path hp fun e he => ?_
      cases List.mem_singleton.mp he
      cases c <;> first | rfl | cases hf
  | update =>
      obtain ⟨vs, r₁, report, cost, hrounds, rfl⟩ := ht
      refine hrounds.balanced_between [.chore .tick] Registry.updated_told rfl
        (.single (.chore .tick)) hp fun e he => ?_
      simp only [Registry.counting, List.mem_append, List.mem_cons, List.not_mem_nil,
        or_false] at he
      rcases he with rfl | rfl | rfl | rfl | rfl <;> exact ⟨rfl, rfl⟩
  | draw surface =>
      obtain ⟨vs, r₁, r₂, scanned, tries, hrounds, hscan, -, rfl⟩ := ht
      rw [List.append_assoc] at hp ⊢
      refine hrounds.balanced_between [.chore (.display surface)] Registry.drawn_told rfl
        (.single (.chore (.display surface))) hp fun e he => ?_
      simp only [List.mem_append, List.mem_singleton] at he
      rcases he with rfl | he | he
      · exact ⟨rfl, rfl⟩
      · rcases hscan.cases e he with ⟨a, rfl⟩ | ⟨l, rfl⟩ <;> exact ⟨rfl, rfl⟩
      · unfold Registry.removing at he
        grind [Event.drains, Event.newcomer?]
  | sendMessage name payload =>
      obtain ⟨vs, r₁, hrounds, rfl⟩ := ht
      have hpass := hrounds.balanced Registry.delivered_told rfl
      have hworld := hp.world_eq (hrounds.path Registry.delivered_told rfl) rfl
      exact hpass.of_world _ rfl hworld

theorem Op.Told.forgotten {o : Op} {r r' : Registry} {es : List Event} (ht : o.Told r es)
    (hp : Path r es r') (hf : o.forgets = true) :
    ∀ effects, Accounted (es.rtakeWhile fun e => !e.drains) effects →
      wanted effects = r'.world.host.adds := by
  have hcut : ∃ pre post, es = pre ++ [Event.chore .takeAdds] ++ post ∧
      ∀ e ∈ post, e.drains = false := by
    cases o with
    | reset =>
        obtain ⟨loads, rfl, -⟩ := ht
        refine ⟨[.left (r.instances.map Instance.id), .chore .takeRemovals], loads.map .joined, rfl,
          fun e he => ?_⟩
        obtain ⟨a, -, rfl⟩ := List.mem_map.mp he
        rfl
    | around c =>
        subst ht
        cases c with
        | takeAdds => exact ⟨[], [], rfl, List.forall_mem_nil _⟩
        | _ => nomatch hf
    | _ => nomatch hf
  obtain ⟨pre, post, rfl, hpost⟩ := hcut
  have hsince : (pre ++ [Event.chore .takeAdds] ++ post).rtakeWhile (fun e => !e.drains) = post := by
    unfold List.rtakeWhile
    rw [List.reverse_append, List.takeWhile_append_of_pos, List.reverse_append]
    · simp [Event.drains]
    · intro e he
      simp [hpost e (List.mem_reverse.mp he)]
  intro effects ha
  rw [hsince] at ha
  obtain ⟨r₁, hfront, hback⟩ := hp.split
  obtain ⟨r₀, -, htake⟩ := hfront.split
  have hnone : r₁.world.host.adds = [] := by
    cases htake with
    | step hact hrest =>
        cases hrest
        cases hact
        rfl
  have hbalanced := Balanced.of_path hback hpost effects ha
  rw [hnone] at hbalanced
  exact hbalanced

/-- The requests since the last ones were forgotten, whoever made them, are those that were served
and those that are pending, in this order. -/
def Book.Balanced (b : Book) (r : Registry) : Prop :=
  ∀ effects, Accounted b.events effects → wanted effects = b.served ++ r.world.host.adds

theorem Book.Balanced.enter {b : Book} {o : Op} {r r' : Registry} {es : List Event}
    (h : b.Balanced r) (ht : o.Told r es) (hp : Path r es r') :
    (b.enter (o, es)).Balanced r' := by
  unfold Book.enter
  by_cases hf : o.forgets = true
  · rw [if_pos hf]
    exact ht.forgotten hp hf
  · rw [if_neg hf]
    intro effects ha
    obtain ⟨before, own, hbefore, hown, rfl⟩ := ha.append_cases
    have hnew := ht.balanced hp (Bool.of_not_eq_true hf) own hown
    rw [wanted_append, h before hbefore, List.append_assoc, hnew, List.append_assoc]

theorem Annals.balanced {c : HostConfig} {w : World} {past : List (Op × List Event)} {r : Registry}
    (h : Annals c w past r) : (bookOf past).Balanced r := by
  induction h with
  | start =>
      obtain ⟨log, images, host, hworld, hadds⟩ := Registry.start_world c w
      intro effects ha
      cases ha
      rw [hworld]
      exact hadds.symm
  | op _ _ hp ht ih =>
      unfold bookOf
      rw [List.foldl_append]
      exact ih.enter ht hp

theorem Annals.book_accounted {c : HostConfig} {w : World} {past : List (Op × List Event)}
    {r : Registry} (h : Annals c w past r) : ∃ effects, Accounted (bookOf past).events effects := by
  have hsince : ∃ r₀, Path r₀ (bookOf past).events r := by
    induction h with
    | start => exact ⟨_, .refl _⟩
    | @op past es r r' _ o _ _ hp ht ih =>
        unfold bookOf
        rw [List.foldl_append]
        change ∃ r₀, Path r₀ ((bookOf past).enter (o, es)).events r'
        unfold Book.enter
        split
        · rw [← List.rdropWhile_append_rtakeWhile (p := fun e : Event => !e.drains) (l := es)] at hp
          obtain ⟨r₀, -, hback⟩ := hp.split
          exact ⟨r₀, hback⟩
        · obtain ⟨r₀, hfront⟩ := ih
          exact ⟨r₀, hfront.trans hp⟩
  obtain ⟨r₀, hpath⟩ := hsince
  exact hpath.accounted

/-- What becomes of requests for scripts along a history. All that were made since requests were
last forgotten, by whomever, were served or are pending (`kept`); who is served joins under a number
that nobody had and stays until it leaves (`joined`). An update leaves nothing pending, so that it
has served every request there was, in the order in which they were made (`answered`), unless there
is no instance to visit: then nothing is served, and what was pending is pending still (`idle`). -/
structure AddLaw (c : HostConfig) (w : World) (past : List (Op × List Event)) (r : Registry) :
    Prop where
  accounted : ∃ effects, Accounted (bookOf past).events effects
  kept : ∀ effects, Accounted (bookOf past).events effects →
    wanted effects = (bookOf past).served ++ r.world.host.adds
  joined : ∀ pre a post, eventsOf past = pre ++ .joined a :: post →
    (∀ e ∈ pre, e.subject? ≠ some a.before.id) ∧
      (a.before.handle ∈ r.instances.map Instance.handle ∨
        ∃ ids, .left ids ∈ post ∧ a.before.id ∈ ids)
  answered : ∀ budget r', r.update budget = some r' →
    r.instances ≠ [] ∨ r.world.host.adds = [] →
      r'.world.host.adds = [] ∧ ∃ es, Annals c w (past ++ [(.update, es)]) r' ∧
        ∀ effects, Accounted (bookOf (past ++ [(.update, es)])).events effects →
          wanted effects = (bookOf (past ++ [(.update, es)])).served
  idle : ∀ budget r', r.update budget = some r' → r.instances = [] →
    r'.instances = [] ∧ r'.world.host.adds = r.world.host.adds

/-- Whatever is done with a registry. -/
theorem add_requests_kept {c : HostConfig} {w : World} {past : List (Op × List Event)}
    {r : Registry} (h : Annals c w past r) : AddLaw c w past r where
  accounted := h.book_accounted
  kept := h.balanced
  joined := by
    intro pre a post hsplit
    obtain ⟨r₁, r₂, hst, hact, hrest⟩ := h.at_event hsplit
    have hnew : r₁.nextId = a.before.id ∧ a.after ∈ r₂.instances := by
      cases hact with
      | joined hb =>
          exact ⟨(congrArg Instance.id hb).symm, List.mem_append_right _ (List.mem_singleton_self _)⟩
    have hhandle : a.after.handle = a.before.handle := hact.handle rfl
    refine ⟨fun e he hsubject => ?_, ?_⟩
    · have hlt : a.before.id < r₁.nextId := hst.subjects e he _ hsubject
      rw [hnew.1] at hlt
      exact Nat.lt_irrefl _ hlt
    · rw [← hhandle]
      have hid : a.before.id = a.after.handle.id := congrArg ScriptHandle.id hhandle.symm
      exact hid ▸ hrest.keeps (List.mem_map_of_mem hnew.2)
  answered := by
    intro budget r' hupdate hsome
    have hnone : r'.world.host.adds = [] := by
      rw [(Registry.update_adds hupdate).2]
      split
      · exact hsome.resolve_left fun hne => hne ‹_›
      · rfl
    obtain ⟨es, -, -, hnext⟩ := h.next (o := .update) hupdate
    refine ⟨hnone, es, hnext, fun effects ha => ?_⟩
    have hkept := hnext.balanced effects ha
    rw [hnone, List.append_nil] at hkept
    exact hkept
  idle := by
    intro budget r' hupdate hempty
    obtain ⟨hlist, hadds⟩ := Registry.update_adds hupdate
    rw [if_pos hempty] at hadds
    exact ⟨hlist.mpr hempty, hadds⟩

set_option maxRecDepth 100000 in
/-- A script asks for another and for its own removal, in a load by the scan: it is gone before the
next update, which has nobody to visit. -/
theorem add_request_stranded : ¬ ∀ (c : HostConfig) (w : World) (past : List (Op × List Event))
    (r r' : Registry) (budget : Nat), Annals c w past r → r.update budget = some r' →
      r'.world.host.adds = [] := by
  intro hall
  let c : HostConfig := { scripts := { startup := [] } }
  let script : Node := .file "Host.Add(\"B\"); Script.Remove();".toUTF8 9000
  let changed : FileTree := { root := .dir [("scripts", .dir [("A.rhai", script)])] }
  let ops : List Op := [.add "A", .around (.edit changed), .draw 0]
  have hrun : (Op.runAll 1000 (.start c (.ofScript "A.rhai" "")) ops).any (fun r =>
      (r.update 1000).any fun r' => r'.world.host.adds == ["B"]) = true := by
    decide +kernel
  obtain ⟨r, hr, hrun⟩ := (Option.any_eq_true _ _).mp hrun
  obtain ⟨r', hupdate, hpending⟩ := (Option.any_eq_true _ _).mp hrun
  obtain ⟨past, -, h⟩ := Annals.start.all hr
  rw [hall c _ past r r' 1000 h hupdate] at hpending
  nomatch hpending

set_option maxRecDepth 100000 in
/-- A request by the host, one by a top level and one by an entry point are served in this order. -/
theorem add_requests_kept_growing : ∃ (c : HostConfig) (w : World) (past : List (Op × List Event))
    (r r' : Registry), Annals c w past r ∧ r.world.host.adds = ["C"] ∧
      r.update 1000 = some r' ∧ r'.instances.map Instance.name = ["A", "C", "B", "D"] ∧
      AddLaw c w past r := by
  let c : HostConfig := { scripts := { startup := [] } }
  let w : World := .ofScripts [("A.rhai", "fn OnUpdate() \x7b Host.Add(\"B\") \x7d"),
    ("B.rhai", ""), ("C.rhai", "Host.Add(\"D\")"), ("D.rhai", "")]
  let ops : List Op := [.add "A", .around (.requestAdd "C")]
  have hrun : (Op.runAll 1000 (.start c w) ops).any (fun r => r.world.host.adds == ["C"] &&
      (r.update 1000).any fun r' => r'.instances.map Instance.name == ["A", "C", "B", "D"]) =
        true := by
    decide +kernel
  obtain ⟨r, hr, hrun⟩ := (Option.any_eq_true _ _).mp hrun
  obtain ⟨hpending, hrun⟩ := Bool.and_eq_true_iff.mp hrun
  obtain ⟨r', hupdate, hnames⟩ := (Option.any_eq_true _ _).mp hrun
  obtain ⟨past, -, h⟩ := Annals.start.all hr
  exact ⟨c, w, past, r, r', h, beq_iff_eq.mp hpending, hupdate, beq_iff_eq.mp hnames,
    add_requests_kept h⟩

end Stagehand
