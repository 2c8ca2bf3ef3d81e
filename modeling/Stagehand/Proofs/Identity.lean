import Stagehand.Proofs.Confinement
import Stagehand.Proofs.DrawPass

/-!
# Identities

A reference to an instance is a number and a name, and it outlives the instance: it may lie in a
store, in a variable or with the host when the instance has long left. What it can do is to ask for
the removal of its number. Numbers are given out one after the other and to nobody twice, whoever
leaves in between (`Numbered`, kept by every act); so a reference never comes to mean another
instance than the one it was made for, and once that has left it means nobody for good.
-/

namespace Stagehand

open Lang

/-! ## Numbers given out -/

/-- The references of all who joined, in the order in which they did. -/
def issued (es : List Event) : List ScriptHandle := es.flatMap Event.joins

theorem issued_append (es es' : List Event) : issued (es ++ es') = issued es ++ issued es' :=
  List.flatMap_append

/-- Those who joined have the numbers from one on, the next number comes behind them, and those who
are still there stand in the order in which they joined. -/
structure Numbered (es : List Event) (r : Registry) : Prop where
  members : (r.instances.map Instance.handle).Sublist (issued es)
  numbers : (issued es).map ScriptHandle.id = List.range' 1 (issued es).length
  next : r.nextId = (issued es).length + 1

namespace Numbered

variable {es : List Event} {r r' : Registry}

theorem start (c : HostConfig) (w : World) : Numbered [] (Registry.start c w) where
  members := by rw [Registry.start_instances]; exact List.Sublist.refl []
  numbers := rfl
  next := rfl

/-- Nobody joins in the act. -/
theorem stay (h : Numbered es r) {e : Event} (he : e.joins = []) (hn : r'.nextId = r.nextId)
    (hm : (r'.instances.map Instance.handle).Sublist (r.instances.map Instance.handle)) :
    Numbered (es ++ [e]) r' := by
  have hissued : issued (es ++ [e]) = issued es := by
    rw [issued_append, issued, issued, List.flatMap_singleton, he, List.append_nil]
  exact ⟨hissued ▸ hm.trans h.members, hissued ▸ h.numbers, hissued ▸ hn.trans h.next⟩

/-- Whoever joins has the next number. -/
theorem join (h : Numbered es r) {a : Attempt} (hid : a.after.id = r.nextId)
    (hn : r'.nextId = r.nextId + 1) (hm : r'.instances.map Instance.handle =
      r.instances.map Instance.handle ++ [a.after.handle]) : Numbered (es ++ [.joined a]) r' := by
  have hissued : issued (es ++ [.joined a]) = issued es ++ [a.after.handle] := issued_append ..
  refine ⟨?_, ?_, ?_⟩
  · rw [hm, hissued]
    exact h.members.append (List.Sublist.refl _)
  · rw [hissued, List.map_append, h.numbers, List.length_append, List.length_singleton,
      List.range'_concat]
    have hlast : a.after.handle.id = 1 + 1 * (issued es).length := by
      rw [Nat.one_mul, Nat.add_comm, ← h.next]
      exact hid
    rw [List.map_singleton, hlast]
  · rw [hn, h.next, hissued, List.length_append, List.length_singleton]

/-- One act, one case for each kind. -/
theorem act (h : Numbered es r) {e : Event} (ha : Act r e r') : Numbered (es ++ [e]) r' := by
  have hhandles := ha.handles
  cases ha with
  | @joined name a hb _ hg =>
      refine h.join ?_ rfl (hhandles rfl)
      rw [hg.id, hb]
      rfl
  | tried | called | invoked | started =>
      refine h.stay rfl rfl ?_
      rw [hhandles rfl]
      exact (List.append_nil _).symm ▸ List.Sublist.refl _
  | left ids => exact h.stay rfl rfl (List.filter_sublist.map Instance.handle)
  | chore c => cases c <;> exact h.stay rfl rfl (List.Sublist.refl _)

theorem path (h : Numbered es r) {new : List Event} (hp : Path r new r') :
    Numbered (es ++ new) r' :=
  hp.invariant (P := Numbered) (fun h ha => h.act ha) h

/-- The numbers of those who joined ascend. -/
theorem ascending (h : Numbered es r) : ((issued es).map ScriptHandle.id).Pairwise (· < ·) :=
  h.numbers ▸ List.pairwise_lt_range' 1

/-- A number belongs to one reference. -/
theorem handle_eq (h : Numbered es r) {a b : ScriptHandle} (ha : a ∈ issued es)
    (hb : b ∈ issued es) (hid : a.id = b.id) : a = b := by
  have hnodup : ((issued es).map ScriptHandle.id).Nodup := h.ascending.imp Nat.ne_of_lt
  exact List.inj_on_of_nodup_map hnodup ha hb hid

theorem below (h : Numbered es r) {a : ScriptHandle} (ha : a ∈ issued es) : a.id < r.nextId := by
  have hid : a.id ∈ List.range' 1 (issued es).length := h.numbers ▸ List.mem_map_of_mem ha
  rw [List.mem_range'_1] at hid
  rw [h.next, Nat.add_comm]
  exact hid.2

theorem member (h : Numbered es r) {i : Instance} (hi : i ∈ r.instances) : i.handle ∈ issued es :=
  h.members.subset (List.mem_map_of_mem hi)

end Numbered

/-! ## What an act leaves alone -/

theorem Event.subject_of_run {e : Event} {owner : InstanceId} {w w' : World}
    (h : e.run? = some (owner, w, w')) : e.subject? = some owner := by
  cases e with
  | joined | tried | called | invoked | started =>
      cases h
      rfl
  | left | chore => cases h

/-- Only a run for the instance itself, or its leaving, changes what was evaluated for it. -/
theorem Act.realm {r r' : Registry} {e : Event} (h : Act r e r') {i : Instance}
    (hi : i ∈ r'.instances) (hother : e.subject? ≠ some i.id) :
    r'.world.realm i.id = r.world.realm i.id := by
  obtain ⟨effects, haccount⟩ := h.account
  cases haccount with
  | @ran _ owner w w' _ he hran =>
      have hne : i.id ≠ owner := fun heq => hother (heq ▸ Event.subject_of_run he)
      obtain ⟨⟨stores, rfl⟩, hafter⟩ := h.run_world he
      rw [hafter, hran.others i.id hne]
      rfl
  | left ids =>
      cases h
      have hkept := (List.mem_filter.mp hi).2
      rw [Bool.not_eq_true', Bool.eq_false_iff] at hkept
      exact (r.world.foldl_forget ids).2 i.id fun hmem => hkept (List.contains_iff_mem.mpr hmem)
  | chore c =>
      cases h
      cases c <;> rfl

/-- A request for removal has no say in what becomes of the others. -/
theorem Registry.mem_applyRemovals {r : Registry} {i : Instance} :
    i ∈ r.applyRemovals.instances ↔ i ∈ r.instances ∧ i.id ∉ r.world.removals.pending := by
  rw [r.applyRemovals_cases.1, List.mem_filter, Bool.not_eq_true', Bool.eq_false_iff, ne_eq,
    List.contains_iff_mem]

theorem Registry.pending_remove (r : Registry) (id other : InstanceId) :
    other ∈ (r.remove id).world.removals.pending ↔
      other ∈ r.world.removals.pending ∨ other = id :=
  RemovalQueue.mem_push

theorem Registry.remove_other {r : Registry} {id : InstanceId} {i : Instance} (h : i.id ≠ id) :
    i ∈ (r.remove id).applyRemovals.instances ↔ i ∈ r.applyRemovals.instances := by
  rw [mem_applyRemovals, mem_applyRemovals, pending_remove, or_iff_left h]
  exact Iff.rfl

/-! ## The law -/

/-- What holds of identities at a point of a history. Numbers ascend along the list, each instance
has the reference that was made for it when it joined, and none of the references ever made has the
number of another. What a reference can do is to ask for the removal of its number (`asks`). That
has a say in whether this instance is taken out and in nothing else (`removed`, `others`), and if
the instance has left, in nothing at all, now or later (`gone`). What was evaluated for an instance
that stays is dropped by nobody (`realms`). -/
structure IdentityLaw (es : List Event) (r : Registry) : Prop where
  ascending : (r.instances.map Instance.id).Pairwise (· < ·)
  below : ∀ i ∈ r.instances, i.id < r.nextId
  next : r.nextId = (issued es).length + 1
  distinct : ((issued es).map ScriptHandle.id).Pairwise (· < ·)
  own : ∀ i ∈ r.instances, i.handle ∈ issued es ∧
    (i.stage r.libraries).builtin? "Script" = some (.script ⟨i.id, i.name⟩)
  foreign : ∀ a ∈ issued es, ∀ i ∈ r.instances, i.handle ≠ a → i.id ≠ a.id
  asks : ∀ a : ScriptHandle, ∃ x, hostFunction "Remove" [.handle (.script a)] = some x ∧
    ∀ m, x m = some (.ok .unit, { m with world := m.world.requestRemoval a.id })
  accounted : ∃ effects, Accounted (sinceTaken es) effects
  removed : ∀ i ∈ r.instances, ∀ effects, Accounted (sinceTaken es) effects →
    (i ∉ r.applyRemovals.instances ↔ .requestRemoval i.id ∈ effects)
  others : ∀ a ∈ issued es, ∀ i ∈ r.instances, i.handle ≠ a →
    (i ∈ (r.remove a.id).applyRemovals.instances ↔ i ∈ r.applyRemovals.instances)
  gone : ∀ a ∈ issued es, a ∉ r.instances.map Instance.handle → ∀ new r', Path r new r' →
    a ∉ r'.instances.map Instance.handle ∧
      (r'.remove a.id).applyRemovals.instances = r'.applyRemovals.instances
  realms : ∀ e r', Act r e r' → ∀ i ∈ r'.instances, e.subject? ≠ some i.id →
    r'.world.realm i.id = r.world.realm i.id

/-- A reference whose instance has left means nobody for good. -/
theorem Numbered.gone {es new : List Event} {r r' : Registry} {a : ScriptHandle}
    (h : Numbered es r) (hst : Standing es r) (ha : a ∈ issued es)
    (hleft : a ∉ r.instances.map Instance.handle) (hp : Path r new r') :
    ∀ i ∈ r'.instances, i.id ≠ a.id := by
  have hnone : ∀ i ∈ r.instances, i.id ≠ a.id := by
    intro i hi hid
    exact hleft (h.handle_eq (h.member hi) ha hid ▸ List.mem_map_of_mem hi)
  clear hleft
  induction hp generalizing es with
  | refl => exact hnone
  | step hact _ ih =>
      have hbelow := h.below ha
      refine ih (h.act hact) (hst.act hact) ?_ (hact.absent hst hbelow hnone).2
      rw [issued_append]
      exact List.mem_append_left _ ha

/-- At every point of a history, between operations and in the midst of them. -/
theorem identities_kept {c : HostConfig} {w : World} {past : List (Op × List Event)} {r : Registry}
    (hw : w.removals = {}) (h : Annals c w past r) : ∀ pre post, eventsOf past = pre ++ post →
      (∃ r₁, Path (Registry.start c w) pre r₁ ∧ Path r₁ post r) ∧
        ∀ r₁, Path (Registry.start c w) pre r₁ → IdentityLaw pre r₁ := by
  intro pre post hsplit
  refine ⟨(hsplit ▸ h.path).split, fun r₁ hpre => ?_⟩
  have hn : Numbered pre r₁ := (Numbered.start c w).path hpre
  have hst : Standing pre r₁ := (Standing.start c w).path hpre
  refine {
    ascending := hst.ascending
    below := hst.below
    next := hn.next
    distinct := hn.ascending
    own := fun i hi => ⟨hn.member hi, rfl⟩
    foreign := fun a ha i hi hne hid => hne (hn.handle_eq (hn.member hi) ha hid)
    asks := fun a => ⟨_, rfl, fun m => rfl⟩
    accounted := hpre.accounted_since
    removed := ?_
    others := fun a ha i hi hne =>
      Registry.remove_other fun hid => hne (hn.handle_eq (hn.member hi) ha hid)
    gone := ?_
    realms := fun e r' ha i hi hne => ha.realm hi hne }
  · intro i hi effects haccount
    rw [← (hpre.asked hw).mem_pending haccount, Registry.mem_applyRemovals]
    simp [hi]
  · intro a ha hleft new r' hp
    have hnone := hn.gone hst ha hleft hp
    refine ⟨fun hmem => ?_, ?_⟩
    · obtain ⟨i, hi, rfl⟩ := List.mem_map.mp hmem
      exact hnone i hi rfl
    · rw [Registry.applyRemovals_cases .. |>.1, r'.applyRemovals_cases.1]
      refine List.filter_congr fun i hi => ?_
      have hpending := r'.pending_remove a.id i.id
      rw [or_iff_left (hnone i hi)] at hpending
      simp only [List.contains_eq_mem, hpending]

set_option maxRecDepth 100000 in
/-- A script has left and another of its name has come; the reference to the first, in the hands of
the second, asks for the removal of a number that nobody has. -/
theorem identities_kept_outlived : ∃ (c : HostConfig) (w : World)
    (past : List (Op × List Event)) (r : Registry), Annals c w past r ∧
      r.instances.map Instance.handle = [⟨2, "A"⟩] ∧ r.world.removals.pending = [1] ∧
      Path (Registry.start c w) (eventsOf past) r ∧ IdentityLaw (eventsOf past) r := by
  let c : HostConfig := { scripts := { startup := [] } }
  let w : World := .ofScript "A.rhai" "fn OnMessage(h) \x7b h.Remove(); \x7d"
  let ops : List Op := [.add "A", .remove 1, .draw 0, .add "A",
    .sendMessage "A" (.handle (.script ⟨1, "A"⟩))]
  have hrun : (Op.runAll 1000 (.start c w) ops).any (fun r =>
      decide (r.instances.map Instance.handle = [⟨2, "A"⟩]) &&
        r.world.removals.pending == [1]) = true := by
    decide +kernel
  obtain ⟨r, hr, hshows⟩ := (Option.any_eq_true _ _).mp hrun
  obtain ⟨hhandles, hpending⟩ := Bool.and_eq_true_iff.mp hshows
  obtain ⟨past, -, h⟩ := Annals.start.all hr
  exact ⟨c, w, past, r, h, of_decide_eq_true hhandles, beq_iff_eq.mp hpending, h.path,
    (identities_kept rfl h _ [] (List.append_nil _).symm).2 r h.path⟩

end Stagehand
