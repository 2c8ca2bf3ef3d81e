import Mathlib.Data.List.DropRight
import Stagehand.Proofs.Annals

/-!
# Requests

Requests for removal come from everywhere: from the host, from entry points, and from top levels,
those of loads that fail included. What every event did is known by its account (`Event.Account`),
so that it is known what was asked for in any part of a history. The requests are taken as a whole,
by draws and when all starts anew (`Op.Told.taken`, `Op.Told.stays`); those that are pending are
therefore the ones of the events since, without exception (`Path.asked`).
-/

namespace Stagehand

open Lang

/-! ## Accounts of events -/

/-- What a chore does to the world, as effects, as far as scripts could do the same. -/
def Chore.effects : Chore → List Effect
  | record r => [.record r]
  | tick => [.tick]
  | requestAdd name => [.requestAdd name]
  | requestRemoval id => [.requestRemoval id]
  | seed id key value => [.set id key value]
  | _ => []

namespace Event

/-- The run that an event is: for whom, and the worlds before it and behind it. -/
def run? : Event → Option (InstanceId × World × World)
  | .joined a | .tried a => some (a.before.id, a.world, a.left)
  | .called c | .invoked c | .started c => some (c.before.id, c.world, c.left)
  | .left _ | .chore _ => none

/-- The event takes the requests for removal. -/
def takes : Event → Bool
  | .chore .takeRemovals => true
  | _ => false

/-- The account of an event: of the code that it ran, or of itself. -/
inductive Account : Event → List Effect → Prop
  | ran {e : Event} {owner : InstanceId} {w w' : World} {es : List Effect}
      (he : e.run? = some (owner, w, w')) (h : Ran (fun _ => True) owner es w w') : Account e es
  | left (ids : List InstanceId) : Account (.left ids) []
  | chore (c : Chore) : Account (.chore c) c.effects

end Event

/-- The accounts of events, one behind the other. -/
inductive Accounted : List Event → List Effect → Prop
  | nil : Accounted [] []
  | cons {e : Event} {es : List Event} {effects rest : List Effect} (h : e.Account effects)
      (hs : Accounted es rest) : Accounted (e :: es) (effects ++ rest)

theorem Accounted.append_cases {es es' : List Event} {effects : List Effect}
    (h : Accounted (es ++ es') effects) :
    ∃ first rest, Accounted es first ∧ Accounted es' rest ∧ effects = first ++ rest := by
  induction es generalizing effects with
  | nil => exact ⟨[], effects, .nil, h, rfl⟩
  | cons e es ih =>
      cases h with
      | cons h hs =>
          obtain ⟨first, rest, hfirst, hrest, rfl⟩ := ih hs
          exact ⟨_, rest, .cons h hfirst, hrest, (List.append_assoc _ _ _).symm⟩

theorem Accounted.concat_cases {es : List Event} {e : Event} {effects : List Effect}
    (h : Accounted (es ++ [e]) effects) : ∃ before own, Accounted es before ∧ e.Account own ∧
      effects = before ++ own := by
  obtain ⟨before, own, hbefore, hown, rfl⟩ := h.append_cases
  cases hown with
  | cons hown hnil =>
      cases hnil
      exact ⟨before, _, hbefore, hown, by rw [List.append_nil]⟩

theorem Ran.removals {A : Allowance} {owner : InstanceId} {es : List Effect} {w w' : World}
    (h : Ran A owner es w w') :
    w'.removals = (es.filterMap Effect.removed?).foldl RemovalQueue.push w.removals := by
  rw [h.part (g := fun e q => e.removed?.toList.foldl RemovalQueue.push q) Effect.apply_removals
    fun _ _ => rfl, foldl_toList_foldl]

namespace Act

variable {r r' : Registry} {e : Event} {effects : List Effect}

theorem account (h : Act r e r') : ∃ effects, e.Account effects := by
  cases h with
  | joined _ _ hg | tried _ _ _ hg =>
      obtain ⟨budget, hreload⟩ := hg
      obtain ⟨effects, hran, -⟩ := Instance.reload_ran (serves_everything _)
        (World.confined_everything _ _) (within_everything _) hreload
      exact ⟨effects, .ran rfl hran⟩
  | called _ _ _ hg | started _ _ _ _ _ _ hg =>
      obtain ⟨budget, hdispatch⟩ := hg
      obtain ⟨effects, hran, -⟩ := Instance.dispatch_ran (serves_everything _)
        (World.confined_everything _ _) (within_everything _) (within_everything _) hdispatch
      exact ⟨effects, .ran rfl hran⟩
  | invoked _ _ _ hg =>
      obtain ⟨budget, hinvoke⟩ := hg
      obtain ⟨effects, hran, -⟩ := Instance.invoke_ran (serves_everything _)
        (World.confined_everything _ _) (within_everything _) (within_everything _) hinvoke
      exact ⟨effects, .ran rfl hran⟩
  | left ids => exact ⟨[], .left ids⟩
  | chore c => exact ⟨_, .chore c⟩

/-- A run goes on from the world of the registry, in which a new instance has a store. -/
theorem run_world (h : Act r e r') {owner : InstanceId} {w w' : World}
    (he : e.run? = some (owner, w, w')) :
    (∃ stores, w = { r.world with stores }) ∧ r'.world = w' := by
  cases h with
  | joined _ hw =>
      cases he
      exact ⟨⟨_, hw⟩, rfl⟩
  | tried _ _ hw | called _ _ hw | invoked _ _ hw | started _ _ hw =>
      cases he
      exact ⟨⟨r.world.stores, hw⟩, rfl⟩
  | left | chore => nomatch he

/-- What the account of an act asks for is pending behind it, unless it takes the requests. -/
theorem removals (h : Act r e r') (ha : e.Account effects) (ht : e.takes = false) :
    r'.world.removals =
      (effects.filterMap Effect.removed?).foldl RemovalQueue.push r.world.removals := by
  cases ha with
  | ran he hran =>
      obtain ⟨⟨stores, rfl⟩, hafter⟩ := h.run_world he
      rw [hafter, hran.removals]
  | left ids =>
      cases h with
      | left =>
          obtain ⟨⟨realms, hforget⟩, -⟩ := r.world.foldl_forget ids
          exact (congrArg World.removals hforget : (ids.foldl World.forget r.world).removals = _)
  | chore c =>
      cases h with
      | chore =>
          cases c with
          | takeRemovals => nomatch ht
          | _ => rfl

theorem removals_taken (h : Act r e r') (ht : e.takes = true) : r'.world.removals = {} := by
  cases h with
  | chore c =>
      cases c with
      | takeRemovals => rfl
      | _ => nomatch ht
  | joined | tried | called | invoked | started | left => nomatch ht

end Act

theorem Path.accounted {r r' : Registry} {es : List Event} (h : Path r es r') :
    ∃ effects, Accounted es effects := by
  induction h with
  | refl => exact ⟨[], .nil⟩
  | step hact _ ih =>
      obtain ⟨first, hfirst⟩ := hact.account
      obtain ⟨rest, hrest⟩ := ih
      exact ⟨first ++ rest, .cons hfirst hrest⟩

/-! ## Since the requests were taken -/

/-- The events behind the last one that takes the requests for removal. -/
def sinceTaken (es : List Event) : List Event := es.rtakeWhile fun e => !e.takes

theorem sinceTaken_concat (es : List Event) (e : Event) :
    sinceTaken (es ++ [e]) = if e.takes then [] else sinceTaken es ++ [e] := by
  unfold sinceTaken
  rw [List.rtakeWhile_concat]
  cases e.takes <;> rfl

theorem sinceTaken_append (es : List Event) {new : List Event} (h : ∀ e ∈ new, e.takes = false) :
    sinceTaken (es ++ new) = sinceTaken es ++ new := by
  induction new using List.reverseRecOn with
  | nil => rw [List.append_nil, List.append_nil]
  | append_singleton new e ih =>
      have hlast : e.takes = false := h e (by simp)
      rw [← List.append_assoc, sinceTaken_concat, hlast, ih fun l hl => h l (by simp [hl])]
      simp

theorem sinceTaken_of_takes (es : List Event) {new : List Event}
    (h : ∃ e ∈ new, e.takes = true) : sinceTaken (es ++ new) = sinceTaken new := by
  induction new using List.reverseRecOn with
  | nil =>
      obtain ⟨e, he, -⟩ := h
      nomatch he
  | append_singleton new e ih =>
      rw [← List.append_assoc, sinceTaken_concat, sinceTaken_concat]
      by_cases hlast : e.takes = true
      · rw [if_pos hlast, if_pos hlast]
      · obtain ⟨l, hl, ht⟩ := h
        rw [if_neg hlast, if_neg hlast, ih ⟨l, ?_, ht⟩]
        rcases List.mem_append.mp hl with hl | hl
        · exact hl
        · cases List.mem_singleton.mp hl
          exact absurd ht hlast

/-- The requests that are pending are those of the events since the last ones were taken. -/
def Asked (es : List Event) (r : Registry) : Prop :=
  ∀ effects, Accounted (sinceTaken es) effects →
    r.world.removals = (effects.filterMap Effect.removed?).foldl RemovalQueue.push {}

theorem Asked.act {es : List Event} {r r' : Registry} {e : Event} (h : Asked es r)
    (ha : Act r e r') : Asked (es ++ [e]) r' := by
  intro effects haccount
  rw [sinceTaken_concat] at haccount
  by_cases ht : e.takes = true
  · rw [if_pos ht] at haccount
    cases haccount
    exact ha.removals_taken ht
  · rw [if_neg ht] at haccount
    obtain ⟨before, own, hbefore, hown, rfl⟩ := haccount.concat_cases
    rw [ha.removals hown (Bool.of_not_eq_true ht), h before hbefore, List.filterMap_append,
      List.foldl_append]

theorem Registry.start_removals (c : HostConfig) (w : World) :
    (Registry.start c w).world.removals = w.removals := by
  obtain ⟨log, images, host, hworld, -⟩ := Registry.start_world c w
  rw [hworld]

theorem Path.asked {c : HostConfig} {w : World} (hw : w.removals = {}) {es : List Event}
    {r : Registry} (h : Path (Registry.start c w) es r) : Asked es r := by
  have hstart : Asked [] (Registry.start c w) := by
    intro effects haccount
    cases haccount
    rw [Registry.start_removals, hw]
    rfl
  exact h.invariant (fun h ha => h.act ha) hstart

theorem Path.accounted_since {r r' : Registry} {es : List Event} (h : Path r es r') :
    ∃ effects, Accounted (sinceTaken es) effects := by
  have hsplit : es.rdropWhile (fun e => !e.takes) ++ sinceTaken es = es :=
    List.rdropWhile_append_rtakeWhile
  rw [← hsplit] at h
  obtain ⟨r₁, -, hsince⟩ := h.split
  exact hsince.accounted

theorem mem_removed {effects : List Effect} {id : InstanceId} :
    id ∈ effects.filterMap Effect.removed? ↔ .requestRemoval id ∈ effects := by
  rw [List.mem_filterMap]
  constructor
  · rintro ⟨e, he, hid⟩
    cases e with
    | requestRemoval other =>
        cases hid
        exact he
    | _ => nomatch hid
  · exact fun he => ⟨_, he, rfl⟩

/-- An instance is pending exactly if one of the effects since was a request for its removal. -/
theorem Asked.mem_pending {es : List Event} {r : Registry} (h : Asked es r)
    {effects : List Effect} (ha : Accounted (sinceTaken es) effects) (id : InstanceId) :
    id ∈ r.world.removals.pending ↔ .requestRemoval id ∈ effects := by
  rw [h effects ha, RemovalQueue.mem_foldl_push, mem_removed]
  simp

/-! ## Who takes them -/

/-- The operation takes the requests for removal: a draw does, a reset, or somebody else. -/
def Op.clears : Op → Bool
  | .draw _ | .reset | .around .takeRemovals => true
  | _ => false

/-- The event is part of a removal. -/
def Event.removes : Event → Bool
  | .left _ | .chore .takeRemovals => true
  | _ => false

theorem Event.not_takes {e : Event} (h : e.removes = false) : e.takes = false := by
  cases e with
  | chore c => cases c <;> first | rfl | nomatch h
  | joined | tried | called | invoked | started | left => rfl

/-- Nobody leaves in the rounds of a pass. -/
theorem Round.stays {vs : List (Round (List Call))} :
    ∀ e ∈ vs.flatMap Round.told, e.removes = false := by
  intro e he
  rcases Round.told_cases he with ⟨v, -, d, -, rfl⟩ | rfl | ⟨a, rfl⟩
  · rcases d.event_cases with h | h <;> rw [h] <;> rfl
  · rfl
  · rfl

namespace Op.Told

variable {o : Op} {r : Registry} {es : List Event}

theorem taken (h : o.Told r es) (hc : o.clears = true) : ∃ e ∈ es, e.takes = true := by
  cases o with
  | draw surface =>
      obtain ⟨vs, r₁, r₂, scanned, tries, -, -, -, rfl⟩ := h
      exact ⟨.chore .takeRemovals, List.mem_append_right _ List.mem_cons_self, rfl⟩
  | reset =>
      obtain ⟨loads, rfl, -⟩ := h
      exact ⟨.chore .takeRemovals, by simp, rfl⟩
  | around c =>
      subst h
      cases c with
      | takeRemovals => exact ⟨.chore .takeRemovals, List.mem_cons_self, rfl⟩
      | _ => nomatch hc
  | _ => nomatch hc

theorem stays (h : o.Told r es) (hc : o.clears = false) : ∀ e ∈ es, e.removes = false := by
  have hnot : o.includes .takeRemovals = false := by
    cases o with
    | draw | reset => nomatch hc
    | _ => rfl
  intro e he
  cases h.tells he with
  | call hcall => cases e <;> first | rfl | nomatch hcall
  | joined | tried => rfl
  | left _ htakes => nomatch hnot.symm.trans htakes
  | around c => cases c <;> first | rfl | nomatch hc
  | @chore _ c htakes =>
      cases c with
      | takeRemovals => nomatch hnot.symm.trans htakes
      | _ => rfl

end Op.Told

end Stagehand
