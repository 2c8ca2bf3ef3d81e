import Stagehand.Proofs.Confinement
import Stagehand.Proofs.ParallelRegistries

/-!
# Fresh starts

To reset a registry is to start afresh. The registry then differs from one in which nothing ever
happened (`Registry.afresh`) in the numbers of instances and stores alone, and it stays so under
every operation: none of the instances, requests, references or libraries from before has any part
in it.

Two facts carry this. Realms belong to registered instances (`Act.tidy`, by acts), so that a reset
leaves none; and registries that differ in numbers do the same (`Pairing.Registries.askAll`).
-/

namespace Stagehand

open Lang

/-! ## Realms -/

/-- There is no realm but those of registered instances. -/
def Registry.Tidy (r : Registry) : Prop :=
  ∀ id, id ∉ r.instances.map Instance.id → r.world.realm id = {}

theorem Registry.Tidy.start {c : HostConfig} {w : World} (hw : w.realms = []) :
    (Registry.start c w).Tidy := by
  obtain ⟨log, images, host, hworld, -⟩ := Registry.start_world c w
  intro id _
  rw [hworld, World.realm, hw]
  rfl

/-- A new instance has no realm before it is loaded. -/
theorem Registry.Tidy.enrol {r : Registry} (h : r.Tidy) (name : String) : (r.enrol name).Tidy := by
  intro id hid
  refine h id fun hmem => hid ?_
  unfold Registry.enrol
  rw [List.map_append]
  exact List.mem_append_left _ hmem

/-- A run leaves every realm alone but that of its instance; those who leave take theirs along. -/
theorem Act.tidy {r r' : Registry} {e : Event} (h : Act r e r') (hr : r.Tidy) : r'.Tidy := by
  cases hc : e.change? with
  | some change =>
      obtain ⟨i, i'⟩ := change
      obtain ⟨effects, haccount⟩ := h.account
      have hsame := h.handle hc
      obtain ⟨r₀, place, w', hr₀, hi, hrun, rfl⟩ := h.site hc
      have htidy : r₀.Tidy := by
        rcases hr₀ with rfl | ⟨name, rfl⟩
        · exact hr
        · exact hr.enrol name
      intro id hid
      have hids : (r₀.instances.set place i').map Instance.id = r₀.instances.map Instance.id := by
        rw [List.map_set, show i'.id = i.id from congrArg ScriptHandle.id hsame]
        exact set_self (by simp [hi])
      rw [hids] at hid
      have hne : id ≠ i.id := fun heq => hid (heq ▸ List.mem_map_of_mem (List.mem_of_getElem? hi))
      cases haccount with
      | ran he hran =>
          cases he.symm.trans hrun
          exact (hran.others id hne).trans (htidy id hid)
      | left | chore => nomatch hrun
  | none =>
      cases h with
      | left ids =>
          intro id hid
          by_cases hleft : id ∈ ids
          · exact World.realm_foldl_forget_mem hleft r.world
          · refine ((r.world.foldl_forget ids).2 id hleft).trans (hr id fun hmem => hid ?_)
            obtain ⟨i, hi, rfl⟩ := List.mem_map.mp hmem
            exact List.mem_map_of_mem (List.mem_filter.mpr ⟨hi, by simpa using hleft⟩)
      | chore c => cases c <;> exact hr
      | joined | tried | called | invoked | started => nomatch hc

theorem Reached.tidy {c : HostConfig} {w : World} {es : List Event} {r : Registry}
    (h : Reached c w es r) (hw : w.realms = []) : r.Tidy :=
  h.invariant (P := fun _ r => r.Tidy) (.start hw) fun hr hact => hact.tidy hr

/-! ## A registry that nothing happened in -/

/-- The registry without instances over the same configuration, libraries, files, images and host,
at the same time. It counts instances from a number on, and these stores are there. -/
def Registry.afresh (r : Registry) (nextId : InstanceId := 1) (stores : Array DataStore := #[]) :
    Registry where
  scripts := r.scripts
  libraries := r.libraries
  world :=
    { files := r.world.files
      clock := r.world.clock
      host := { r.world.host with adds := [] }
      images := r.world.images
      stores
      seed := r.world.seed }
  nextId

/-- How numbers that are counted afresh become those of a registry: what is to come gets numbers
alike, and the stores that are there on both sides are the same. -/
structure Pairing.Renumbers (τ : Pairing) (r : Registry) (nextId : InstanceId)
    (stores : Array DataStore) : Prop extends τ.Injective where
  scripts : ∀ k, τ.script (nextId + k) = r.nextId + k
  fresh : ∀ k, τ.store (stores.size + k) = r.world.stores.size + k
  stores : ∀ id : StoreId, r.world.stores[τ.store id]? = stores[id]?.map τ.on
  told : τ.told = []
  told' : τ.told' = r.world.log.toList

namespace Registry

variable {r : Registry}

/-- The registry after all have left and all requests are dropped. -/
def vacated (r : Registry) : Registry :=
  let world := r.instances.foldl (fun w i => w.forget i.id) r.world
  { r with world := world.takeRemovals.2.takeAdds.2, instances := [] }

theorem reset_vacated (budget : Nat) : r.reset budget = r.vacated.addStartup budget := rfl

theorem Tidy.vacated_realm (h : r.Tidy) (id : InstanceId) : r.vacated.world.realm id = {} := by
  have hforget : (r.instances.foldl (fun w i => w.forget i.id) r.world) =
      (r.instances.map Instance.id).foldl World.forget r.world := List.foldl_map.symm
  change (r.instances.foldl (fun w i => w.forget i.id) r.world).realm id = {}
  rw [hforget]
  by_cases hid : id ∈ r.instances.map Instance.id
  · exact World.realm_foldl_forget_mem hid r.world
  · exact ((r.world.foldl_forget _).2 id hid).trans (h id hid)

theorem vacated_world (r : Registry) : ∃ realms, r.vacated.world =
    { r.world with realms, removals := {}, host := { r.world.host with adds := [] } } := by
  obtain ⟨⟨realms, hforget⟩, -⟩ := r.world.foldl_forget (r.instances.map Instance.id)
  rw [List.foldl_map] at hforget
  refine ⟨realms, ?_⟩
  unfold vacated
  dsimp only
  rw [hforget]
  rfl

end Registry

/-- Nothing is left of what was before but the numbers. -/
theorem Pairing.Renumbers.vacated {τ : Pairing} {r : Registry} {nextId : InstanceId}
    {stores : Array DataStore} (h : τ.Renumbers r nextId stores) (hr : r.Tidy) :
    τ.Registries (r.afresh nextId stores) r.vacated where
  scripts := rfl
  libraries := rfl
  instances := rfl
  fresh := h.scripts
  world := by
    have hrealm := hr.vacated_realm
    obtain ⟨realms, hworld⟩ := r.vacated_world
    rw [hworld] at hrealm ⊢
    exact {
      files := rfl
      clock := rfl
      host := rfl
      images := rfl
      seed := rfl
      stores := h.stores
      fresh := h.fresh
      removals := rfl
      realms := fun id => (hrealm _).trans on_realm_empty.symm
      log := ⟨[], [], by rw [h.told]; rfl, by rw [h.told', List.append_nil], rfl⟩ }

/-! ## Numbers -/

/-- Numbers that are counted from one on become those behind the ones that were given out. -/
def Registry.fromOne (r : Registry) : Pairing where
  script id := id + (r.nextId - 1)
  store id := id + r.world.stores.size
  told := []
  told' := r.world.log.toList

theorem Registry.fromOne_renumbers {r : Registry} (hr : 1 ≤ r.nextId) :
    r.fromOne.Renumbers r 1 #[] where
  script _ _ h := Nat.add_right_cancel h
  store _ _ h := Nat.add_right_cancel h
  scripts k := (Nat.add_right_comm 1 k _).trans (congrArg (· + k) (Nat.add_sub_cancel' hr))
  fresh k := (congrArg (· + r.world.stores.size) (Nat.zero_add k)).trans (Nat.add_comm _ _)
  stores id := Array.getElem?_eq_none (Nat.le_add_left r.world.stores.size id)
  told := rfl
  told' := rfl

/-- All numbers stay as they are. -/
def Registry.keeping (r : Registry) : Pairing where
  script := id
  store := id
  told := []
  told' := r.world.log.toList

section Keeping

variable (r : Registry)

theorem keeping_capability (c : Capability) : r.keeping.on c = c := by cases c <;> rfl

mutual

theorem keeping_value : ∀ v : HostValue, r.keeping.on v = v
  | .list items => by rw [HostValues.on_list, keeping_items items]
  | .map entries => by rw [HostValues.on_map, keeping_entries entries]
  | .handle c => congrArg HostValue.handle (keeping_capability r c)
  | .unit | .bool _ | .int _ | .float _ | .str _ => rfl

theorem keeping_items : ∀ vs : List HostValue, vs.map r.keeping.on = vs
  | [] => rfl
  | v :: rest => by rw [List.map_cons, keeping_value v, keeping_items rest]

theorem keeping_entries : ∀ es : List (String × HostValue), es.map r.keeping.on = es
  | [] => rfl
  | (k, v) :: rest => by
    rw [List.map_cons, on_mk, keeping_value v, keeping_entries rest, on_string]

end

theorem keeping_op (o : Op) : r.keeping.on o = o := by
  cases o with
  | sendMessage name payload => exact congrArg (Op.sendMessage name) (keeping_value r payload)
  | dispatchOne place e args => exact congrArg (Op.dispatchOne place e) (keeping_items r args)
  | invokeOne place e args => exact congrArg (Op.invokeOne place e) (keeping_items r args)
  | around c =>
      cases c with
      | seed id key value =>
          exact congrArg (fun v => Op.around (.seed id key v)) (keeping_value r value)
      | _ => rfl
  | _ => rfl

theorem Registry.keeping_renumbers : r.keeping.Renumbers r r.nextId r.world.stores where
  script _ _ h := h
  store _ _ h := h
  scripts _ := rfl
  fresh _ := rfl
  stores id := by
    change r.world.stores[id]? = _
    cases r.world.stores[id]? with
    | none => rfl
    | some d =>
        exact congrArg (fun entries => some (DataStore.mk entries))
          (keeping_entries r d.entries).symm
  told := rfl
  told' := rfl

end Keeping

/-- Those who are added have the names asked for and the numbers that come next. -/
theorem Registry.addAll_numbers {budget : Nat} : ∀ {names : List String} {r r' : Registry},
    r.addAll budget names = some r' →
      r'.instances.map Instance.name = r.instances.map Instance.name ++ names ∧
        r'.instances.map Instance.id =
          r.instances.map Instance.id ++ List.range' r.nextId names.length
  | [], r, r', h => by
    cases h
    exact ⟨(List.append_nil _).symm, (List.append_nil _).symm⟩
  | name :: rest, r, r', h => by
    obtain ⟨⟨id, r₁⟩, hadd, hrest⟩ := Option.bind_eq_some_iff.mp h
    obtain ⟨a, hact, rfl, -⟩ := add_joined hadd
    obtain ⟨hnames, hids⟩ := addAll_numbers (show r₁.addAll budget rest = some r' from hrest)
    have hhandle : a.after.handle = a.before.handle := hact.handle rfl
    have hname : a.after.name = a.before.name := congrArg ScriptHandle.name hhandle
    cases hact with
    | joined hb _ _ =>
        have hid : a.after.id = r.nextId := by
          rw [Instance.id, hhandle, hb]
          rfl
        refine ⟨?_, ?_⟩
        · rw [hnames, List.map_append, List.map_singleton, hname, List.append_assoc]
          rfl
        · rw [hids, List.map_append, List.map_singleton, hid, List.append_assoc]
          rfl

/-! ## The law -/

/-- What a reset comes to. The scripts of the start join under numbers that were never given out,
and of those before not even the realms are left (`renewed`). But for the numbers, the registry is
the one that the same start leads to where nothing ever happened (`alike`), and it does and tells
the same under all operations that follow (`later`), whichever way numbers correspond. The start
afresh can count from one on (`counted`). Or it keeps the numbers, and the stores of those who left:
then references from before mean the same on both sides, and so do operations with them (`kept`). -/
structure ResetLaw (r : Registry) : Prop where
  renewed : ∀ budget r', r.reset budget = some r' →
    r'.instances.map Instance.name = r.scripts.startup ∧
      r'.instances.map Instance.id = List.range' r.nextId r.scripts.startup.length ∧
      ∀ id < r.nextId, r'.world.realm id = {}
  counted : r.fromOne.Renumbers r 1 #[]
  kept : r.keeping.Renumbers r r.nextId r.world.stores ∧ ∀ o : Op, r.keeping.on o = o
  alike : ∀ (τ : Pairing) (nextId : InstanceId) (stores : Array DataStore),
    τ.Renumbers r nextId stores → ∀ budget,
      Option.Rel τ.Registries ((r.afresh nextId stores).addStartup budget) (r.reset budget)
  later : ∀ (τ : Pairing) (nextId : InstanceId) (stores : Array DataStore),
    τ.Renumbers r nextId stores → ∀ budget budget' ops,
      Option.Rel τ.Answers
        ((r.afresh nextId stores).addStartup budget >>= fun f => Op.askAll budget' f ops)
        (r.reset budget >>= fun r' => Op.askAll budget' r' (ops.map τ.on))

/-- Whatever a registry went through, to reset it is to start afresh. -/
theorem reset_starts_afresh {c : HostConfig} {w : World} {es : List Event} {r : Registry}
    (hw : w.realms = []) (h : Reached c w es r) : ResetLaw r := by
  have hr := h.tidy hw
  have alike (τ : Pairing) (nextId : InstanceId) (stores : Array DataStore)
      (hτ : τ.Renumbers r nextId stores) (budget : Nat) :
      Option.Rel τ.Registries ((r.afresh nextId stores).addStartup budget) (r.reset budget) :=
    have := hτ.toInjective
    (hτ.vacated hr).addStartup budget
  refine {
    renewed := fun budget r' hreset => ?_
    counted := Registry.fromOne_renumbers ?_
    kept := ⟨r.keeping_renumbers, keeping_op r⟩
    alike
    later := fun τ nextId stores hτ budget budget' ops =>
      have := hτ.toInjective
      rel_bind (alike τ nextId stores hτ budget) fun f r' hf => hf.askAll budget' ops }
  · obtain ⟨hnames, hids⟩ := Registry.addAll_numbers hreset
    have hids' : r'.instances.map Instance.id =
        List.range' r.nextId r.scripts.startup.length := hids
    obtain ⟨new, -, hreached⟩ := h.next (o := .reset) hreset
    refine ⟨hnames, hids', fun id hid => hreached.tidy hw id fun hmem => ?_⟩
    rw [hids', List.mem_range'_1] at hmem
    exact Nat.not_le.mpr hid hmem.1
  · exact h.invariant (P := fun _ r => 1 ≤ r.nextId) (Nat.le_refl 1) fun hr hact =>
      hr.trans hact.nextId_le

set_option maxRecDepth 100000 in
/-- Two scripts are there, the first of them with a library; it is to be removed, and another is
asked for. After a reset only the script of the start is there, under the next number, as it would
be under the number one where nothing ever happened. -/
theorem reset_starts_afresh_leftovers : ∃ (c : HostConfig) (w : World) (es : List Event)
    (r f r' : Registry), w.realms = [] ∧ Reached c w es r ∧
      r.instances.map Instance.handle = [⟨1, "A"⟩, ⟨2, "B"⟩] ∧
      (r.world.realm 1).modules.length = 1 ∧ r.world.removals.pending = [1] ∧
      r.world.host.adds = ["B"] ∧ r.afresh.addStartup 1000 = some f ∧
      f.instances.map Instance.handle = [⟨1, "A"⟩] ∧ r.reset 1000 = some r' ∧
      r'.instances.map Instance.handle = [⟨3, "A"⟩] ∧ r.fromOne.Registries f r' ∧
      ResetLaw r := by
  let c : HostConfig := { scripts := { startup := ["A"] } }
  let w : World := .ofScripts
    [("A.rhai", "import \"one\" as one; let n = one::n;"), ("B.rhai", "let n = 2;")]
    [("one.rhai", "export let n = 1;")]
  let ops : List Op := [.addStartup, .add "B", .remove 1, .around (.requestAdd "B")]
  have hrun : (Op.runAll 1000 (.start c w) ops).any (fun r =>
      decide (r.instances.map Instance.handle = [⟨1, "A"⟩, ⟨2, "B"⟩]) &&
      (r.world.realm 1).modules.length == 1 && r.world.removals.pending == [1] &&
      r.world.host.adds == ["B"] &&
      (r.afresh.addStartup 1000).any (fun f =>
        decide (f.instances.map Instance.handle = [⟨1, "A"⟩])) &&
      (r.reset 1000).any fun r' =>
        decide (r'.instances.map Instance.handle = [⟨3, "A"⟩])) = true := by
    decide +kernel
  obtain ⟨r, hr, hshows⟩ := (Option.any_eq_true _ _).mp hrun
  simp only [Bool.and_eq_true, decide_eq_true_eq, beq_iff_eq] at hshows
  obtain ⟨⟨⟨⟨⟨hhandles, hmodules⟩, hpending⟩, hadds⟩, hafresh⟩, hreset⟩ := hshows
  obtain ⟨f, hf, hone⟩ := (Option.any_eq_true _ _).mp hafresh
  obtain ⟨r', hr', hthree⟩ := (Option.any_eq_true _ _).mp hreset
  obtain ⟨es, h⟩ := Reached.start.all hr
  have hlaw : ResetLaw r := reset_starts_afresh rfl h
  have halike := hlaw.alike _ _ _ hlaw.counted 1000
  have hf' : (r.afresh 1 #[]).addStartup 1000 = some f := hf
  rw [hf', hr', Option.rel_some_some] at halike
  exact ⟨c, w, _, r, f, r', rfl, h, hhandles, hmodules, hpending, hadds, hf,
    of_decide_eq_true hone, hr', of_decide_eq_true hthree, halike, hlaw⟩

end Stagehand
