import Stagehand.Proofs.FailedReload

/-!
# What a failed reload leaves behind

A load runs the script on the store and the requests that the instance has, and nothing is taken
back if it fails. What is left behind is therefore what the code did before it failed: an account of
effects for each attempt (`Ran`), empty but for the host's report if the source could not be read
or parsed. The accounts of attempts add up, so that a scan that tries a broken source over and over
again repeats them (`FailureEffects`).
-/

namespace Stagehand

open Lang

/-! ## The account of an attempt -/

/-- The failure is one of the source, of which nothing has run then. -/
def ReloadError.isEarly : ReloadError → Bool
  | .read _ _ | .parse _ _ => true
  | .compile _ _ | .run _ _ => false

/-- The attempt failed before anything ran. -/
def Attempt.isEarly (a : Attempt) : Bool :=
  match a.result with
  | .error e => e.isEarly
  | .ok _ => false

/-- A failure to resolve the imports or to run the top level is no failure of the source. -/
theorem binds_late {budget : Nat} {stage : Stage} {script : Script} {w w' : World}
    {r : Except ReloadError Binding} (h : script.Binds budget stage w r w') {e : ReloadError}
    (he : r = .error e) : e.isEarly = false := by
  cases h with
  | unresolved =>
      cases he
      rfl
  | ended =>
      unfold Script.bound at he
      split at he
      · cases he
        rfl
      · nomatch he

theorem build_early {budget : Nat} {stage : Stage} {source : FilePath} {w w' : World}
    {e : ReloadError} (h : build budget stage source w = some (.error e, w'))
    (he : e.isEarly = true) : w' = w := by
  rcases build_iff.mp h with ⟨_, -, -, hw⟩ | ⟨script, -, hbinds⟩
  · exact hw
  · rw [binds_late hbinds rfl] at he
    nomatch he

/-- A failed attempt has an account, and if it failed before anything ran, it has none but the
report. -/
theorem Attempt.failed_account {libraries : Libraries} {a : Attempt} (hg : a.Genuine libraries)
    (hf : a.succeeded = false) : ∃ es, Ran (fun _ => True) a.before.id es a.world a.left ∧
      (a.isEarly = true → ∃ report, es = [.record report]) := by
  by_cases hearly : a.isEarly = true
  · obtain ⟨budget, e, w, hr, hbuild, -, hleft⟩ := Attempt.failed_cases hg hf
    rw [Attempt.isEarly, hr] at hearly
    cases build_early hbuild hearly
    have hran := ((Ran.refl a.world).followed (World.confined_everything a.before.id a.world)
      (e := .record (a.before.failureReport e)) trivial).1
    rw [hleft]
    exact ⟨_, hran, fun _ => ⟨_, rfl⟩⟩
  · obtain ⟨es, hran, -⟩ :=
      Attempt.failed_ran hg hf (serves_everything _) (World.confined_everything _ a.world)
    exact ⟨es, hran, fun h => absurd h hearly⟩

/-! ## Accounts add up -/

/-- Stores and requests are as they were. -/
structure Untouched (w w' : World) : Prop where
  stores : w'.stores = w.stores
  removals : w'.removals = w.removals
  adds : w'.host.adds = w.host.adds

/-- The accounts of failed attempts, one for each. -/
inductive Accounts (owner : InstanceId) : List Attempt → List (List Effect) → Prop
  | nil : Accounts owner [] []
  | cons {a : Attempt} {as : List Attempt} {es : List Effect} {accounts : List (List Effect)}
      (hran : Ran (fun _ => True) owner es a.world a.left)
      (hearly : a.isEarly = true → ∃ report, es = [.record report])
      (hrest : Accounts owner as accounts) : Accounts owner (a :: as) (es :: accounts)

namespace Failing

variable {libraries : Libraries} {between : World → World → Prop} {i i' : Instance} {w w' : World}
  {as : List Attempt}

theorem accounts (h : Failing libraries between i w as i' w') :
    ∃ accounts, Accounts i.id as accounts := by
  generalize hid : i.id = id
  induction h with
  | refl => exact ⟨[], .nil⟩
  | @step i i' w w' a as hi hb hg hf _ ih =>
      subst hi
      subst hid
      obtain ⟨es, hran, hearly⟩ := Attempt.failed_account hg hf
      obtain ⟨rest, hrest⟩ := ih hg.id
      exact ⟨es :: rest, .cons hran hearly hrest⟩

/-- What each effect does to a part of the world that is left alone between the attempts, the
attempts did to it. -/
theorem part (h : Failing libraries between i w as i' w') {owner : InstanceId}
    {accounts : List (List Effect)} (ha : Accounts owner as accounts) {α : Type} {f : World → α}
    {g : Effect → α → α} (hf : ∀ e w, f (Effect.apply e w) = g e (f w))
    (hr : ∀ w realms, f { w with realms } = f w) (hb : ∀ {w w'}, between w w' → f w' = f w) :
    f w' = accounts.flatten.foldl (fun x e => g e x) (f w) := by
  induction h generalizing accounts with
  | refl =>
      cases ha
      rfl
  | step hi hbetween hg hfails hs ih =>
      cases ha with
      | cons hran _ hrest =>
          rw [ih hrest, List.flatten_cons, List.foldl_append, hran.part hf hr, hb hbetween]

end Failing

theorem foldl_map_option {α β : Type} (f : β → α → α) (bs : List β) (a : Option α) :
    bs.foldl (fun a b => a.map (f b)) a = a.map fun a => bs.foldl (fun a b => f b a) a := by
  induction bs generalizing a with
  | nil => cases a <;> rfl
  | cons b rest ih =>
      rw [List.foldl_cons, ih]
      cases a <;> rfl

/-- What effects make of a store, one after the other. -/
def Effect.writeAll (id : StoreId) (es : List Effect) (d : DataStore) : DataStore :=
  es.foldl (fun d e => e.write id d) d

/-- What failed attempts leave behind, by the effects of their code. What the code asked for stands
in the queues, and what it wrote stands in the stores. So the store and the requests are as they
were if and only if the code asked for no script, asked for no removal that was not asked for
before, and wrote to the store of the instance nothing that makes a difference in the end. -/
structure FailureEffects (i : Instance) (w : World) (as : List Attempt) (es : List Effect)
    (w' : World) : Prop where
  account : ∃ accounts, Accounts i.id as accounts ∧ es = accounts.flatten
  adds : w'.host.adds = w.host.adds ++ es.filterMap Effect.added?
  removals : w'.removals = (es.filterMap Effect.removed?).foldl RemovalQueue.push w.removals
  stores : ∀ id : StoreId, w'.stores[id]? = w.stores[id]?.map (Effect.writeAll id es)
  early : (∀ a ∈ as, a.isEarly = true) → (∀ id : StoreId, w'.stores[id]? = w.stores[id]?) ∧
    w'.removals = w.removals ∧ w'.host.adds = w.host.adds
  unchanged : (w'.stores[i.data]? = w.stores[i.data]? ∧ w'.removals = w.removals ∧
      w'.host.adds = w.host.adds) ↔
    (∀ d, w.stores[i.data]? = some d → Effect.writeAll i.data es d = d) ∧
    (∀ id ∈ es.filterMap Effect.removed?, id ∈ w.removals.pending) ∧
    es.filterMap Effect.added? = []

/-- The effects of an early failure are none but reports. -/
theorem Accounts.early {owner : InstanceId} {as : List Attempt} {accounts : List (List Effect)}
    (h : Accounts owner as accounts) (has : ∀ a ∈ as, a.isEarly = true) :
    ∀ e ∈ accounts.flatten, ∃ report, e = .record report := by
  induction h with
  | nil => exact List.forall_mem_nil _
  | cons _ hearly _ ih =>
      obtain ⟨ha, has⟩ := List.forall_mem_cons.mp has
      obtain ⟨report, rfl⟩ := hearly ha
      intro e he
      rcases List.mem_cons.mp he with rfl | he
      · exact ⟨report, rfl⟩
      · exact ih has e he

theorem Effect.writeAll_reports {es : List Effect} (h : ∀ e ∈ es, ∃ report, e = .record report)
    (id : StoreId) (d : DataStore) : Effect.writeAll id es d = d := by
  induction es with
  | nil => rfl
  | cons e rest ih =>
      obtain ⟨⟨report, rfl⟩, hrest⟩ := List.forall_mem_cons.mp h
      exact ih hrest

theorem filterMap_reports {α : Type} {f : Effect → Option α} (hf : ∀ r, f (.record r) = none)
    {es : List Effect} (h : ∀ e ∈ es, ∃ report, e = .record report) : es.filterMap f = [] := by
  refine List.filterMap_eq_nil_iff.mpr fun e he => ?_
  obtain ⟨report, rfl⟩ := h e he
  exact hf report

/-- Failed attempts between which nothing else gets at the stores and the requests. -/
theorem failed_reloads_effects {libraries : Libraries} {i i' : Instance} {w w' : World}
    {as : List Attempt} (h : Failing libraries Untouched i w as i' w') :
    ∃ es, FailureEffects i w as es w' := by
  obtain ⟨accounts, ha⟩ := h.accounts
  have hadds : w'.host.adds = w.host.adds ++ accounts.flatten.filterMap Effect.added? := by
    rw [h.part (f := fun w => w.host.adds) (g := fun e adds => adds ++ e.added?.toList) ha
      Effect.apply_adds (fun _ _ => rfl) (·.adds), foldl_toList_append]
  have hremovals : w'.removals =
      (accounts.flatten.filterMap Effect.removed?).foldl RemovalQueue.push w.removals := by
    rw [h.part (g := fun e q => e.removed?.toList.foldl RemovalQueue.push q) ha
      Effect.apply_removals (fun _ _ => rfl) (·.removals), foldl_toList_foldl]
  have hstores : ∀ id : StoreId,
      w'.stores[id]? = w.stores[id]?.map (Effect.writeAll id accounts.flatten) := by
    intro id
    rw [h.part (f := fun w => w.stores[id]?) (g := fun e d => d.map (e.write id)) ha
      (fun e w => e.apply_stores w id) (fun _ _ => rfl) (fun hb => by rw [hb.stores]), foldl_map_option]
    rfl
  refine ⟨accounts.flatten, ⟨accounts, ha, rfl⟩, hadds, hremovals, hstores, fun hearly => ?_, ?_⟩
  · have hreports := ha.early hearly
    rw [hadds, hremovals, filterMap_reports (fun _ => rfl) hreports,
      filterMap_reports (fun _ => rfl) hreports, List.append_nil]
    refine ⟨fun id => ?_, rfl, rfl⟩
    rw [hstores]
    cases w.stores[id]? with
    | none => rfl
    | some d => exact congrArg some (Effect.writeAll_reports hreports id d)
  · rw [hadds, hremovals, hstores, RemovalQueue.foldl_push_eq, List.append_right_eq_self]
    refine and_congr ?_ Iff.rfl
    cases w.stores[i.data]? with
    | none => simp
    | some d => simp

/-! ## A script that asks and fails -/

/-- A script that leaves something of each kind behind and fails. -/
def askingThenFailing : String :=
  "Data.Set(\"x\", 1); Script.Remove(); Host.Add(\"B\"); throw \"x\";"

/-- The keys in the store of an instance, and the requests. -/
def Instance.traces (i : Instance) (w : World) :
    Option (List String) × List InstanceId × List String :=
  (w.stores[i.data]?.map DataStore.keys, w.removals.pending, w.host.adds)

set_option maxRecDepth 100000 in
theorem asking_traces : ∃ (c : HostConfig) (w₀ : World) (es : List Event) (r : Registry)
    (i : Instance) (a : Attempt), Reached c w₀ es r ∧ i ∈ r.instances ∧
      Failing r.libraries Untouched i r.world [a] a.after a.left ∧
      i.traces r.world = (some [], [], []) ∧ i.traces a.left = (some ["x"], [1], ["B"]) := by
  let c : HostConfig := { scripts := { startup := [] } }
  let w₀ : World := .ofScripts [("A.rhai", "")]
  let files : FileTree := .ofScripts [("A.rhai", askingThenFailing)]
  have hrun : (Op.runAll 1000 (.start c w₀) [.add "A"]).any (fun r => r.instances.any fun i =>
      (i.reload 1000 r.libraries { r.world with files }).any fun p =>
        !p.1.isOk && (i.traces r.world == (some [], [], []) &&
          i.traces p.2.2 == (some ["x"], [1], ["B"]))) = true := by
    decide +kernel
  obtain ⟨es, r, a, h, hi, hw, hg, hf, hshows⟩ := failed_attempt_of_run (fun r i w =>
    i.traces r.world == (some [], [], []) && i.traces w == (some ["x"], [1], ["B"])) hrun
  obtain ⟨hbefore, hafter⟩ := (Bool.and_eq_true _ _).mp hshows
  have huntouched : Untouched r.world a.world := by
    rw [hw]
    exact ⟨rfl, rfl, rfl⟩
  exact ⟨c, w₀, es, r, a.before, a, h, hi, .step rfl huntouched hg hf (.refl _ _),
    beq_iff_eq.mp hbefore, beq_iff_eq.mp hafter⟩

/-- A failed attempt can leave values in the store and requests of both kinds behind. -/
theorem failed_reload_leaves_traces :
    ¬ ∀ (c : HostConfig) (w₀ w' : World) (es : List Event) (r : Registry) (i i' : Instance)
      (as : List Attempt), Reached c w₀ es r → i ∈ r.instances →
        Failing r.libraries Untouched i r.world as i' w' →
          w'.stores[i.data]? = r.world.stores[i.data]? ∧ w'.removals = r.world.removals ∧
            w'.host.adds = r.world.host.adds := by
  intro hall
  obtain ⟨c, w₀, es, r, i, a, h, hi, hf, hbefore, hafter⟩ := asking_traces
  obtain ⟨hstores, hremovals, hadds⟩ := hall c w₀ a.left es r i a.after [a] h hi hf
  have hsame : i.traces a.left = i.traces r.world := by
    rw [Instance.traces, hstores, hremovals, hadds]
    rfl
  rw [hbefore, hafter] at hsame
  nomatch hsame

/-- The effects of that attempt account for all that it left. -/
theorem asking_effects : ∃ (r : Registry) (i : Instance) (a : Attempt) (es : List Effect),
    Failing r.libraries Untouched i r.world [a] a.after a.left ∧
      i.traces a.left = (some ["x"], [1], ["B"]) ∧
      FailureEffects i r.world [a] es a.left := by
  obtain ⟨c, w₀, _, r, i, a, -, -, hf, -, hafter⟩ := asking_traces
  obtain ⟨es, h⟩ := failed_reloads_effects hf
  exact ⟨r, i, a, es, hf, hafter, h⟩

end Stagehand
