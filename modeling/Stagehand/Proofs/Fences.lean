import Stagehand.Proofs.Confinement
import Stagehand.Proofs.Echoes
import Stagehand.Proofs.PassRuns

/-!
# Passes on both sides of a fence

A registry and another one in which one instance is not the same: its code, its data, whether it
runs. A pass over the one is then compared with the same pass over the other, account by account
(`Pass.Runs`). A `Fence` names that instance and what the others can get at, which its store is no
part of. What runs for the instance itself comes on either side alone and has to be discreet; what
runs for any other comes on both sides at once and goes the same way there, because its code leads
nowhere but to what is the same (`Instance.dispatch_echo`, `Instance.reload_echo`). Each part of an
account has one lemma to this effect, by induction on the part, from the calls of one visit up to
the sweep through the source files.
-/

namespace Stagehand

open Lang

/-! ## Lists side by side -/

section Lists

variable {α β : Type} {R : α → β → Prop} {as : List α} {bs : List β}

theorem forall₂_getElem? (h : List.Forall₂ R as bs) {place : Nat} {a : α} {b : β}
    (ha : as[place]? = some a) (hb : bs[place]? = some b) : R a b := by
  obtain ⟨hlt, rfl⟩ := List.getElem?_eq_some_iff.mp ha
  obtain ⟨hlt', rfl⟩ := List.getElem?_eq_some_iff.mp hb
  exact h.get hlt hlt'

theorem forall₂_set (h : List.Forall₂ R as bs) {a : α} {b : β} (hab : R a b) (place : Nat) :
    List.Forall₂ R (as.set place a) (bs.set place b) := by
  induction h generalizing place with
  | nil => exact .nil
  | cons hfirst hrest ih =>
      cases place with
      | zero => exact .cons hab hrest
      | succ place => exact .cons hfirst (ih place)

end Lists

/-! ## What happens to the others -/

/-- The events that are about other instances than this one. -/
def Instance.others (k : Instance) (es : List Event) : List Event :=
  es.filter fun e => e.subject? != some k.id

namespace Event

/-- What was called, with what, and what came of it. -/
def dispatch? (e : Event) : Option (ScriptHandle × EntryPoint × List HostValue × Outcome) :=
  e.call?.map fun c => (c.before.handle, c.entry, c.args, c.outcome)

/-- When the run that the event is began. -/
def clock? (e : Event) : Option Instant := e.run?.map fun p => p.2.1.clock

/-- The run does not ask for the time, but for the one look at the clock when a load is done. -/
def Timeless (e : Event) : Prop :=
  ∀ id w w', e.run? = some (id, w, w') → w'.clock = w.clock + if e.loads then 1 else 0

/-- Two events of which the second is the first in another pass: it begins at the same time, or the
time plays no part, and the instances are then behind the same source files. -/
def InTime (sources : List SourceFile) (e e' : Event) : Prop :=
  e'.clock? = e.clock? ∨ e.Timeless ∧ ∀ i i' j j', e.change? = some (i, i') →
    e'.change? = some (j, j') → ∀ s ∈ sources, j'.isStale s = i'.isStale s

/-- If the event is about this instance, it changes nothing but what is the instance's own. -/
def Discreet (k : Instance) (e : Event) : Prop :=
  ∀ w w', e.run? = some (k.id, w, w') → w.Alike k w'

theorem InTime.clocks {sources : List SourceFile} {e e' : Event} (h : e.InTime sources e')
    {id id' : InstanceId} {w w' v v' : World} (hr : e.run? = some (id, w, w'))
    (hr' : e'.run? = some (id', v, v')) {i i' j j' : Instance} (hc : e.change? = some (i, i'))
    (hc' : e'.change? = some (j, j')) :
    v.clock = w.clock ∨ w'.clock = w.clock + (if e.loads then 1 else 0) ∧
      ∀ s ∈ sources, j'.isStale s = i'.isStale s := by
  rcases h with hclock | ⟨htimeless, hstale⟩
  · rw [clock?, clock?, hr, hr'] at hclock
    exact .inl (Option.some.inj hclock)
  · exact .inr ⟨htimeless _ _ _ hr, hstale _ _ _ _ hc hc'⟩

end Event

namespace Call

variable (c : Call)

theorem event_run : c.event.run? = some (c.before.id, c.world, c.left) := by
  rcases c.event_cases with h | h <;> rw [h] <;> rfl

theorem event_subject : c.event.subject? = some c.before.id := by
  rcases c.event_cases with h | h <;> rw [h] <;> rfl

theorem event_dispatch :
    c.event.dispatch? = some (c.before.handle, c.entry, c.args, c.outcome) := by
  rcases c.event_cases with h | h <;> rw [h] <;> rfl

/-- A call takes as long on both sides, unless the time has no part in it. -/
theorem event_inTime {sources : List SourceFile} {c c' : Call}
    (h : c.event.InTime sources c'.event) :
    c'.world.clock = c.world.clock ∨ c.left.clock = c.world.clock := by
  rcases h with hclock | ⟨htimeless, -⟩
  · rw [Event.clock?, Event.clock?, event_run, event_run] at hclock
    exact .inl (Option.some.inj hclock)
  · have hend := htimeless _ _ _ c.event_run
    have hloads : c.event.loads = false := by
      rcases c.event_cases with h | h <;> rw [h] <;> rfl
    rw [hloads] at hend
    exact .inr (hend.trans (Int.add_zero _))

/-- A call is discreet if it leaves the world as it was but for what is the instance's own, should
the instance be the one that is called. -/
theorem discreet {k : Instance} (h : c.before.id = k.id → c.world.Alike k c.left) :
    c.event.Discreet k := by
  intro w w' hrun
  rw [c.event_run] at hrun
  obtain ⟨hid, hworlds⟩ := Prod.mk.inj (Option.some.inj hrun)
  obtain ⟨rfl, rfl⟩ := Prod.mk.inj hworlds
  exact h hid

end Call

/-- Whatever happens to others than this instance happens in time. -/
def Instance.InStep (k : Instance) (sources : List SourceFile) (es es' : List Event) : Prop :=
  ∀ p ∈ (k.others es).zip (k.others es'), p.1.InTime sources p.2

/-- The same happens to the others, as far as one can see. -/
structure Instance.Parallel (k : Instance) (es es' : List Event) : Prop where
  length : (k.others es').length = (k.others es).length
  calls : (k.others es').filterMap Event.dispatch? = (k.others es).filterMap Event.dispatch?

namespace Instance

variable {k : Instance} {sources : List SourceFile} {e e' : Event} {es es' fs fs' : List Event}

theorem others_append : k.others (es ++ fs) = k.others es ++ k.others fs := List.filter_append ..

theorem others_cons (h : e.subject? ≠ some k.id) : k.others (e :: es) = e :: k.others es :=
  List.filter_cons_of_pos (by simpa using h)

theorem others_cons_self (h : e.subject? = some k.id) : k.others (e :: es) = k.others es :=
  List.filter_cons_of_neg (by simp [h])

theorem Parallel.append (h : k.Parallel es es') (h' : k.Parallel fs fs') :
    k.Parallel (es ++ fs) (es' ++ fs') := by
  refine ⟨?_, ?_⟩
  · rw [others_append, others_append, List.length_append, List.length_append, h.length, h'.length]
  · rw [others_append, others_append, List.filterMap_append, List.filterMap_append, h.calls,
      h'.calls]

theorem Parallel.congr (h : k.Parallel es es') (hs : k.others fs = k.others es)
    (hs' : k.others fs' = k.others es') : k.Parallel fs fs' := by
  constructor
  · rw [hs, hs', h.length]
  · rw [hs, hs', h.calls]

theorem InStep.congr (h : k.InStep sources es es') (hs : k.others fs = k.others es)
    (hs' : k.others fs' = k.others es') : k.InStep sources fs fs' := by
  intro p hp
  rw [hs, hs'] at hp
  exact h p hp

theorem Parallel.of_nil (h : k.others es = []) (h' : k.others es' = []) : k.Parallel es es' := by
  constructor
  · rw [h, h']
  · rw [h, h']

theorem Parallel.single (h : e.subject? ≠ some k.id) (h' : e'.subject? ≠ some k.id)
    (hd : e'.dispatch? = e.dispatch?) : k.Parallel [e] [e'] := by
  constructor
  · rw [others_cons h, others_cons h']
    rfl
  · rw [others_cons h, others_cons h', List.filterMap_cons, List.filterMap_cons, hd]

theorem InStep.first (h : k.InStep sources (es ++ fs) (es' ++ fs')) : k.InStep sources es es' := by
  have hzip : ∀ {as bs cs ds : List Event} {p : Event × Event}, p ∈ as.zip bs →
      p ∈ (as ++ cs).zip (bs ++ ds) := by
    intro as
    induction as with
    | nil => exact fun h => nomatch h
    | cons a as ih =>
        rintro (_ | ⟨b, bs⟩) cs ds p h
        · nomatch h
        · rcases List.mem_cons.mp h with rfl | h
          · exact List.mem_cons_self
          · exact List.mem_cons_of_mem _ (ih h)
  intro p hp
  exact h p (by rw [others_append, others_append]; exact hzip hp)

theorem InStep.second (h : k.InStep sources (es ++ fs) (es' ++ fs')) (hp : k.Parallel es es') :
    k.InStep sources fs fs' := by
  intro p hmem
  refine h p ?_
  rw [others_append, others_append, List.zip_append hp.length.symm]
  exact List.mem_append_right _ hmem

theorem InStep.head (h : k.InStep sources (e :: es) (e' :: es')) (he : e.subject? ≠ some k.id)
    (he' : e'.subject? ≠ some k.id) : e.InTime sources e' := by
  refine h (e, e') ?_
  rw [others_cons he, others_cons he']
  exact List.mem_cons_self

end Instance

/-! ## Fences -/

theorem World.Confined.transfer {A : Allowance} {id : InstanceId} {w w' : World}
    (h : w.Confined A id) (hr : w'.realm id = w.realm id)
    (hs : ∀ id, A (.handle (.data id)) → w'.stores[id]? = w.stores[id]?) : w'.Confined A id where
  cells := hr ▸ h.cells
  fresh := hr ▸ h.fresh
  modules := hr ▸ h.modules
  world id d hd hid := h.world id d (hs id hid ▸ hd) hid

/-- What sets one instance apart from all others: their numbers, the stores that they can get at and
the paths that are read for them, neither its number nor its store among them. -/
structure Fence where
  inside : Instance
  scripts : ScriptConfig
  libraries : Libraries
  files : FileTree
  /-- The source files of a scan, if one is to follow. -/
  sources : List SourceFile
  numbers : InstanceId → Prop
  stores : StoreId → Prop
  reads : FilePath → Prop
  number : ¬ numbers inside.id
  store : ¬ stores inside.data
  library : ∀ entry ∈ libraries.files, reads entry.2

namespace Fence

variable (f : Fence)

/-- All that the others can get at. -/
def allowance : Allowance := .stores f.stores

/-- Another instance, as it is on the two sides: it is the same, but for the time of its last load,
and has no way to the store of the one that is fenced in. -/
structure Outside (i j : Instance) : Prop where
  since : ∃ t, j = i.since t
  stale : ∀ s ∈ f.sources, j.isStale s = i.isStale s
  number : f.numbers i.id
  data : f.stores i.data
  source : f.reads i.source
  program : Within f.allowance i.binding

/-- An instance as it is on the two sides. -/
structure Same (i j : Instance) : Prop where
  handle : j.handle = i.handle
  outside : i.id ≠ f.inside.id → f.Outside i j

/-- Worlds that differ in what belongs to the instance that is fenced in, which the others have no
way to. -/
structure Worlds (w v : World) : Prop where
  mirrors : w.Mirrors f.inside f.reads v
  confined : ∀ id, f.numbers id → w.Confined f.allowance id
  fresh : ∀ id, w.stores.size ≤ id → f.stores id
  files : w.files = f.files

/-- Registries that differ in the one instance. -/
structure Between (r s : Registry) : Prop where
  scripts : r.scripts = f.scripts ∧ s.scripts = f.scripts
  libraries : r.libraries = f.libraries ∧ s.libraries = f.libraries
  nextId : s.nextId = r.nextId
  numbers : ∀ id, r.nextId ≤ id → f.numbers id
  instances : List.Forall₂ f.Same r.instances s.instances
  worlds : f.Worlds r.world s.world

variable {f}

theorem ne_inside {id : InstanceId} (h : f.numbers id) : id ≠ f.inside.id :=
  fun heq => f.number (heq ▸ h)

theorem serves {i : Instance} (h : f.stores i.data) (libraries : Libraries) :
    Serves f.allowance (i.stage libraries) := ⟨trivial, fun _ => trivial, h, trivial⟩

namespace Worlds

variable {w w' v v' : World}

/-- A run for the instance that is fenced in, on one side. -/
theorem aside (h : f.Worlds w v) (ha : w.Alike f.inside w') (hf : w'.files = w.files) :
    f.Worlds w' v := by
  refine ⟨⟨ha.symm.trans h.mirrors.toAlike, hf ▸ h.mirrors.files⟩, fun id hid => ?_, ha.size ▸ h.fresh,
    hf.trans h.files⟩
  refine (h.confined id hid).transfer (ha.realms id (ne_inside hid)) fun store hstore => ?_
  exact ha.stores store fun heq => f.store (heq ▸ hstore)

/-- The same, on the other side. -/
theorem aside' (h : f.Worlds w v) (ha : v.Alike f.inside v') (hf : v'.files = v.files) :
    f.Worlds w v' :=
  ⟨⟨h.mirrors.toAlike.trans ha, hf ▸ h.mirrors.files⟩, h.confined, h.fresh, h.files⟩

/-- A run for another instance, on both sides. -/
theorem ran (h : f.Worlds w v) {owner : InstanceId} {es : List Effect}
    (hran : Ran f.allowance owner es w w') (hstop : w'.Confined f.allowance owner)
    (hm : w'.Mirrors f.inside f.reads v') : f.Worlds w' v' := by
  refine ⟨hm, fun id hid => ?_, hran.stores_size ▸ h.fresh, hran.files.trans h.files⟩
  by_cases heq : id = owner
  · exact heq ▸ hstop
  · have hc : World.Confined f.allowance id { w' with stores := w.stores } :=
      (h.confined id hid).transfer (hran.others id heq) fun _ _ => rfl
    exact ⟨hc.cells, hc.fresh, hc.modules, hstop.world⟩

/-- What the host does on both sides. -/
theorem effect (h : f.Worlds w v) (e : Effect) (he : e.Allowed f.allowance) :
    f.Worlds (e.apply w) (e.apply v) := by
  refine ⟨e.mirrors h.mirrors, fun id hid => ?_, e.apply_stores_size w ▸ h.fresh,
    (e.apply_files w).trans h.files⟩
  have hc := h.confined id hid
  have hrealm : (e.apply w).realm id = w.realm id := by
    rw [World.realm, World.realm, e.apply_realms]
  exact ⟨hrealm ▸ hc.cells, hrealm ▸ hc.fresh, hrealm ▸ hc.modules, Effect.closed he hc.world⟩

theorem modifyHost (h : f.Worlds w v) (g : HostState → HostState) :
    f.Worlds (w.modifyHost g) (v.modifyHost g) := by
  have m := h.mirrors
  refine ⟨⟨⟨congrArg g m.host, m.images, m.seed, m.size, m.stores, m.realms, m.removals⟩, m.files⟩,
    fun id hid => ?_, h.fresh, h.files⟩
  exact (h.confined id hid).transfer rfl fun _ _ => rfl

theorem recordAll (h : f.Worlds w v) (reports : List LogRecord) :
    f.Worlds (w.recordAll reports) (v.recordAll reports) := by
  induction reports generalizing w v with
  | nil => exact h
  | cons report rest ih => exact ih (h.effect (.record report) trivial)

theorem addStore (h : f.Worlds w v) : f.Worlds w.addStore.2 v.addStore.2 := by
  have m := h.mirrors
  refine ⟨⟨⟨m.host, m.images, m.seed, ?_, fun id hid => ?_, m.realms, m.removals⟩, m.files⟩,
    fun id hid => ?_, fun id hid => ?_, h.files⟩
  · simp [World.addStore, m.size]
  · simp only [World.addStore, Array.getElem?_push, m.size, m.stores id hid]
  · have hc := h.confined id hid
    refine ⟨hc.cells, hc.fresh, hc.modules, fun store d hd hstore => ?_⟩
    simp only [World.addStore, Array.getElem?_push] at hd
    split at hd
    · cases hd
      exact within_of_leafless rfl
    · exact hc.world store d hd hstore
  · refine h.fresh id (Nat.le_of_succ_le ?_)
    rwa [World.addStore, Array.size_push] at hid

end Worlds

/-! ## One run -/

section One

variable {i i' j j' : Instance} {w w' v v' : World} {budget : Nat}

theorem Outside.marked (h : f.Outside i j) (e : EntryPoint) :
    f.Outside (i.marked e) (j.marked e) := by
  obtain ⟨t, rfl⟩ := h.since
  unfold Instance.marked
  split
  · exact ⟨⟨t, rfl⟩, h.stale, h.number, h.data, h.source, h.program⟩
  · exact h

/-- An entry point of another instance is dispatched on both sides. -/
theorem dispatch {e : EntryPoint} {args : List HostValue} {o o' : Outcome} (hw : f.Worlds w v)
    (hi : f.Outside i j) (ha : Within f.allowance args)
    (ht : v.clock = w.clock ∨ w'.clock = w.clock)
    (h : i.dispatch budget f.libraries e args w = some (o, i', w'))
    (h' : j.dispatch budget f.libraries e args v = some (o', j', v')) :
    o' = o ∧ f.Outside i' j' ∧ f.Worlds w' v' := by
  obtain ⟨t, rfl⟩ := hi.since
  have hA := serves hi.data f.libraries
  have hid := ne_inside hi.number
  have hconfined := hw.confined i.id hi.number
  obtain ⟨v₁, hv₁, hfollows⟩ := Instance.dispatch_echo f.store hA f.library hid
    hconfined hi.program ha ⟨hw.mirrors, ht⟩ h t
  rw [hv₁] at h'
  cases h'
  obtain ⟨es, hran, hstop, hprogram⟩ :=
    Instance.dispatch_ran hA hconfined hi.program ha h
  obtain ⟨⟨binding, running, rfl⟩, -, -⟩ := Instance.dispatch_continues h
  exact ⟨rfl, ⟨⟨t, rfl⟩, hi.stale, hi.number, hi.data, hi.source, hprogram⟩,
    hw.ran hran hstop hfollows.mirrors⟩

/-- Another instance is loaded on both sides. If the times are not the same, it is then behind the
same files nevertheless. -/
theorem load {result result' : Except ReloadError Unit} (hw : f.Worlds w v) (hi : f.Outside i j)
    (ht : v.clock = w.clock ∨ w'.clock = w.clock + (if result.isOk then 1 else 0) ∧
      ∀ s ∈ f.sources, j'.isStale s = i'.isStale s)
    (h : i.reload budget f.libraries w = some (result, i', w'))
    (h' : j.reload budget f.libraries v = some (result', j', v')) :
    result' = result ∧ f.Outside i' j' ∧ f.Worlds w' v' ∧ i'.handle = i.handle := by
  obtain ⟨t, rfl⟩ := hi.since
  have hA := serves hi.data f.libraries
  have hid := ne_inside hi.number
  have hconfined := hw.confined i.id hi.number
  obtain ⟨v₁, t', hv₁, hfollows, hfailed, hloaded⟩ := Instance.reload_echo f.store hA f.library hid
    hi.source hconfined hw.mirrors (ht.imp_right And.left) h t
  rw [hv₁] at h'
  cases h'
  obtain ⟨es, hran, hstop, hprogram⟩ := Instance.reload_ran hA hconfined hi.program h
  have hsame : i'.handle = i.handle ∧ i'.data = i.data ∧ i'.source = i.source := by
    rcases Instance.reload_cases h with ⟨b, w, -, -, hafter, -⟩ | ⟨e, w, -, -, hafter, -⟩ <;>
      exact hafter ▸ ⟨rfl, rfl, rfl⟩
  obtain ⟨hhandle, hdata, hsource⟩ := hsame
  have hnumber : i'.id = i.id := congrArg ScriptHandle.id hhandle
  have hstale : ∀ s ∈ f.sources, (i'.since t').isStale s = i'.isStale s := by
    rcases ht with hclock | ⟨-, hstale⟩
    · intro s hs
      cases hresult : result.isOk with
      | true =>
          rw [hloaded hresult hclock]
          rfl
      | false =>
          obtain ⟨rfl, htime⟩ := hfailed hresult
          have hbefore := hi.stale s hs
          simp only [Instance.isStale, Instance.since, Instance.name, hhandle, htime] at hbefore ⊢
          exact hbefore
    · exact hstale
  exact ⟨rfl, ⟨⟨t', rfl⟩, hstale, hnumber ▸ hi.number, hdata ▸ hi.data, hsource ▸ hi.source, hprogram⟩,
    hw.ran hran hstop hfollows.mirrors, hhandle⟩

end One

/-! ## The calls of a visit -/

section Calls

variable {budget : Nat} {i i' j j' : Instance} {w w' v v' : World} {es es' : List Event}
  {todo : List Errand}

/-- The calls of a visit to another instance go the same way on both sides. -/
theorem errands (h : Errands budget f.libraries todo i w es i' w')
    (h' : Errands budget f.libraries todo j v es' j' v') (hw : f.Worlds w v) (hi : f.Outside i j)
    (ha : ∀ errand ∈ todo, Within f.allowance errand.2) (hs : f.inside.InStep f.sources es es') :
    i'.handle = i.handle ∧ f.Outside i' j' ∧ f.Worlds w' v' ∧ f.inside.Parallel es es' := by
  induction h generalizing j v es' with
  | done =>
      cases h'
      exact ⟨rfl, hi, hw, .of_nil rfl rfl⟩
  | @call e args rest i i₁ i' w w₁ w' o es hd hrest ih =>
      cases h' with
      | @call _ _ _ _ j₁ _ _ v₁ _ o' es' hd' hrest' =>
          obtain ⟨hargs, ha⟩ := List.forall_mem_cons.mp ha
          have hid := ne_inside hi.number
          have hj : j.handle = i.handle := by
            obtain ⟨t, rfl⟩ := hi.since
            rfl
          let c : Call := ⟨i, e, args, w, o, i₁, w₁⟩
          let c' : Call := ⟨j, e, args, v, o', j₁, v₁⟩
          have hc : c.event.subject? ≠ some f.inside.id := by
            rw [c.event_subject]
            exact fun heq => hid (Option.some.inj heq)
          have hc' : c'.event.subject? ≠ some f.inside.id := by
            rw [c'.event_subject]
            exact fun heq => hid ((congrArg ScriptHandle.id hj).symm.trans (Option.some.inj heq))
          obtain ⟨rfl, hi₁, hw₁⟩ :=
            dispatch hw hi hargs (Call.event_inTime (hs.head hc hc')) hd hd'
          have hhandle : (i₁.marked e).handle = i.handle := by
            rw [← (Instance.dispatch_continues hd).handle, Instance.marked]
            split <;> rfl
          have hone : f.inside.Parallel [c.event] [c'.event] :=
            .single hc hc' (by rw [c.event_dispatch, c'.event_dispatch, hj])
          obtain ⟨hlast, hi', hw', hpar⟩ := ih hrest' hw₁ (hi₁.marked e) ha (hs.second hone)
          exact ⟨hlast.trans hhandle, hi', hw', hone.append hpar⟩

/-- The calls of a visit to the instance that is fenced in change nothing but what is its own. -/
theorem errandsAside (h : Errands budget f.libraries todo i w es i' w') (hid : i.id = f.inside.id)
    (hd : ∀ e ∈ es, e.Discreet f.inside) :
    i'.handle = i.handle ∧ w.Alike f.inside w' ∧ w'.files = w.files ∧ f.inside.others es = [] := by
  induction h with
  | done => exact ⟨rfl, .refl _, rfl, rfl⟩
  | @call e args rest i i₁ i' w w₁ w' o es hdispatch hrest ih =>
      obtain ⟨hfirst, hd⟩ := List.forall_mem_cons.mp hd
      let c : Call := ⟨i, e, args, w, o, i₁, w₁⟩
      have halike : w.Alike f.inside w₁ := hfirst w w₁ (hid ▸ c.event_run)
      obtain ⟨_, hran, -⟩ := Instance.dispatch_ran (serves_everything _)
        (World.confined_everything _ w) (within_everything _) (within_everything _) hdispatch
      have hhandle : (i₁.marked e).handle = i.handle := by
        rw [← (Instance.dispatch_continues hdispatch).handle, Instance.marked]
        split <;> rfl
      obtain ⟨hlast, halike', hfiles, hothers⟩ :=
        ih ((congrArg ScriptHandle.id hhandle).trans hid) hd
      refine ⟨hlast.trans hhandle, halike.trans halike', hfiles.trans hran.files, ?_⟩
      exact (Instance.others_cons_self (c.event_subject.trans (congrArg some hid))).trans hothers

/-- A visit, to whichever instance. -/
theorem visit {errands : Instance → List Errand} (hsince : ∀ i t, errands (i.since t) = errands i)
    (ha : ∀ i, ∀ errand ∈ errands i, Within f.allowance errand.2)
    (h : Errands budget f.libraries (errands i) i w es i' w')
    (h' : Errands budget f.libraries (errands j) j v es' j' v') (hw : f.Worlds w v)
    (hi : f.Same i j) (hd : ∀ e ∈ es, e.Discreet f.inside)
    (hd' : ∀ e ∈ es', e.Discreet f.inside)
    (hs : f.inside.InStep f.sources es es') :
    f.Same i' j' ∧ f.Worlds w' v' ∧ f.inside.Parallel es es' := by
  by_cases hid : i.id = f.inside.id
  · obtain ⟨hhandle, halike, hfiles, hothers⟩ :=
      errandsAside h hid hd
    obtain ⟨hhandle', halike', hfiles', hothers'⟩ :=
      errandsAside h' ((congrArg ScriptHandle.id hi.handle).trans hid) hd'
    refine ⟨⟨hhandle'.trans (hi.handle.trans hhandle.symm), fun hne => ?_⟩,
      (hw.aside halike hfiles).aside' halike' hfiles', .of_nil hothers hothers'⟩
    exact absurd ((congrArg ScriptHandle.id hhandle).trans hid) hne
  · have hout := hi.outside hid
    obtain ⟨t, rfl⟩ := hout.since
    rw [hsince] at h'
    obtain ⟨hhandle, hout', hw', hpar⟩ := f.errands h h' hw hout (ha i) hs
    refine ⟨⟨?_, fun _ => hout'⟩, hw', hpar⟩
    obtain ⟨t', rfl⟩ := hout'.since
    rfl

end Calls

/-! ## Rounds -/

section Rounds

variable {budget : Nat} {r r' s s' : Registry} {es es' : List Event}

/-- Those who are asked for join on both sides. -/
theorem joins {names : List String} (h : Joins budget r names es r')
    (h' : Joins budget s names es' s') (hb : f.Between r s)
    (hreads : ∀ a, Event.joined a ∈ es → f.reads a.before.source)
    (hs : f.inside.InStep f.sources es es') : f.Between r' s' ∧ f.inside.Parallel es es' := by
  induction h generalizing s es' with
  | done =>
      cases h'
      exact ⟨hb, .of_nil rfl rfl⟩
  | @join r r' name names es i' result w' h hrest ih =>
      cases h' with
      | @join _ _ _ _ es' j' result' v' h' hrest' =>
          have hsame : (s.create name).1 = (r.create name).1 := by
            simp only [Registry.create, World.addStore, hb.nextId, hb.scripts.1, hb.scripts.2,
              hb.worlds.mirrors.size]
          let i := (r.create name).1
          have hnumber : f.numbers i.id := hb.numbers _ (Nat.le_refl _)
          have hid : i.id ≠ f.inside.id := ne_inside hnumber
          have hi : f.Outside i i := by
            refine ⟨⟨i.loadTime, rfl⟩, fun _ _ => rfl, hnumber, ?_, ?_, within_none⟩
            · exact hb.worlds.fresh _ (Nat.le_refl _)
            · exact hreads _ List.mem_cons_self
          rw [hsame, hb.libraries.2] at h'
          rw [hb.libraries.1] at h
          have hne : ∀ result i' w w',
              (Event.joined ⟨i, w, result, i', w'⟩).subject? ≠ some f.inside.id :=
            fun _ _ _ _ heq => hid (Option.some.inj heq)
          rw [hsame] at hs
          have ht := (hs.head (hne _ _ _ _) (hne _ _ _ _)).clocks rfl rfl rfl rfl
          obtain ⟨rfl, hi', hw', hhandle⟩ := load hb.worlds.addStore hi ht h h'
          have hone := Instance.Parallel.single (k := f.inside)
            (hne result' i' (r.create name).2.world w')
            (hne result' j' (s.create name).2.world v') rfl
          have hb' : f.Between
              { (r.create name).2 with world := w', instances := r.instances ++ [i'] }
              { (s.create name).2 with world := v', instances := s.instances ++ [j'] } := by
            refine ⟨hb.scripts, hb.libraries, congrArg (· + 1) hb.nextId,
              fun id hid => hb.numbers id (Nat.le_of_succ_le hid), ?_, hw'⟩
            refine List.rel_append hb.instances (.cons ⟨?_, fun _ => hi'⟩ .nil)
            obtain ⟨t, rfl⟩ := hi'.since
            rfl
          obtain ⟨hb', hpar⟩ := ih hrest' hb'
            (fun a ha => hreads a (List.mem_cons_of_mem _ ha)) (hs.second hone)
          rw [hsame]
          exact ⟨hb', hone.append hpar⟩

/-- The visits from a place on, and those who join on the way. -/
theorem tour {errands : Instance → List Errand} (hsince : ∀ i t, errands (i.since t) = errands i)
    (ha : ∀ i, ∀ errand ∈ errands i, Within f.allowance errand.2) {place : Nat}
    (h : Tour budget errands place r es r') (h' : Tour budget errands place s es' s')
    (hb : f.Between r s) (hreads : ∀ a, Event.joined a ∈ es → f.reads a.before.source)
    (hd : ∀ e ∈ es, e.Discreet f.inside)
    (hd' : ∀ e ∈ es', e.Discreet f.inside) (hs : f.inside.InStep f.sources es es') :
    f.Between r' s' ∧ f.inside.Parallel es es' := by
  induction h generalizing s es' with
  | done hend =>
      have hlength := hb.instances.length_eq
      cases h' with
      | done => exact ⟨hb, .of_nil rfl rfl⟩
      | visit hj =>
          have hlt := (List.getElem?_eq_some_iff.mp hj).1
          rw [← hlength] at hlt
          rw [List.getElem?_eq_getElem hlt] at hend
          nomatch hend
  | @visit place r r₁ r' i i' w' calls loads es hi hcalls hjoins hrest ih =>
      have hlength := hb.instances.length_eq
      cases h' with
      | done hend =>
          have hlt := (List.getElem?_eq_some_iff.mp hi).1
          rw [hlength] at hlt
          rw [List.getElem?_eq_getElem hlt] at hend
          nomatch hend
      | @visit _ _ s₁ _ j j' v' calls' loads' es' hj hcalls' hjoins' hrest' =>
          rw [hb.libraries.1] at hcalls
          rw [hb.libraries.2] at hcalls'
          obtain ⟨hcallsd, hd⟩ := List.forall_mem_append.mp hd
          obtain ⟨hcallsd', hd'⟩ := List.forall_mem_append.mp hd'
          have hrestd := (List.forall_mem_append.mp hd).2
          have hrestd' := (List.forall_mem_append.mp hd').2
          obtain ⟨hi', hw', hpar⟩ := visit hsince ha hcalls hcalls' hb.worlds
            (forall₂_getElem? hb.instances hi hj) hcallsd hcallsd' hs.first
          rw [hw'.mirrors.host] at hjoins'
          have hb₁ : f.Between
              { r with world := w'.takeAdds.2, instances := r.instances.set place i' }
              { s with world := v'.takeAdds.2, instances := s.instances.set place j' } :=
            ⟨hb.scripts, hb.libraries, hb.nextId, hb.numbers, forall₂_set hb.instances hi' place,
              hw'.modifyHost fun h => { h with adds := [] }⟩
          have hs₁ := hs.second hpar
          obtain ⟨hb₂, hpar₁⟩ := joins hjoins hjoins' hb₁ (fun a ha => hreads a (by simp [ha]))
            hs₁.first
          obtain ⟨hb', hpar'⟩ := ih hrest' hb₂ (fun a ha => hreads a (by simp [ha])) hrestd
            hrestd' (hs₁.second hpar₁)
          exact ⟨hb', hpar.append (hpar₁.append hpar')⟩

/-! ## The scan -/

/-- The instance that is fenced in is behind a source file, or not. -/
theorem reloadsAside {src : SourceFile} {i : Instance} {is is' : List Instance} {w w' : World}
    (h : Reloads budget f.libraries src (i :: is) w es is' w') (hid : i.id = f.inside.id)
    (hd : ∀ e ∈ es, e.Discreet f.inside) : ∃ i₁ w₁ is₁ es₁, is' = i₁ :: is₁ ∧
      Reloads budget f.libraries src is w₁ es₁ is₁ w' ∧ i₁.handle = i.handle ∧
      w.Alike f.inside w₁ ∧ w₁.files = w.files ∧ f.inside.others es = f.inside.others es₁ ∧
      ∀ e ∈ es₁, e.Discreet f.inside := by
  cases h with
  | fresh _ hs => exact ⟨i, w, _, es, rfl, hs, rfl, .refl w, rfl, rfl, hd⟩
  | @stale _ i₁ _ is₁ _ w₁ _ es₁ result _ hreload hs =>
      obtain ⟨hfirst, hd⟩ := List.forall_mem_cons.mp hd
      obtain ⟨_, hran, -⟩ := Instance.reload_ran (serves_everything _)
        (World.confined_everything _ _) (within_everything _) hreload
      have hgenuine : Attempt.Genuine f.libraries ⟨i, w.record (src.report i), result, i₁, w₁⟩ :=
        ⟨budget, hreload⟩
      have halike : (w.record (src.report i)).Alike f.inside w₁ := hfirst _ _ (hid ▸ rfl)
      have hreport : w.Alike f.inside (w.record (src.report i)) :=
        ⟨rfl, rfl, rfl, rfl, fun _ _ => rfl, fun _ _ => rfl, fun _ _ => Iff.rfl⟩
      exact ⟨i₁, w₁, is₁, es₁, rfl, hs, hgenuine.handle, hreport.trans halike, hran.files,
        Instance.others_cons_self (congrArg some hid), hd⟩

/-- Those that are behind a source file are loaded again on both sides. -/
theorem reloads {src : SourceFile} (hsrc : src ∈ f.sources) {is is' js js' : List Instance}
    {w w' v v' : World} (h : Reloads budget f.libraries src is w es is' w')
    (h' : Reloads budget f.libraries src js v es' js' v') (hi : List.Forall₂ f.Same is js)
    (hw : f.Worlds w v) (hd : ∀ e ∈ es, e.Discreet f.inside)
    (hd' : ∀ e ∈ es', e.Discreet f.inside)
    (hs : f.inside.InStep f.sources es es') :
    List.Forall₂ f.Same is' js' ∧ f.Worlds w' v' ∧ f.inside.Parallel es es' := by
  induction hi generalizing w v es es' is' js' with
  | nil =>
      cases h
      cases h'
      exact ⟨.nil, hw, .of_nil rfl rfl⟩
  | @cons i j is js hij _ ih =>
      by_cases hid : i.id = f.inside.id
      · obtain ⟨i₁, w₁, is₁, es₁, rfl, hrest, hhandle, halike, hfiles, hothers, hd₁⟩ :=
          reloadsAside h hid hd
        obtain ⟨j₁, v₁, js₁, es₁', rfl, hrest', hhandle', halike', hfiles', hothers', hd₁'⟩ :=
          reloadsAside h' ((congrArg ScriptHandle.id hij.handle).trans hid) hd'
        obtain ⟨hrests, hw', hpar⟩ := ih hrest hrest' ((hw.aside halike hfiles).aside' halike' hfiles')
          hd₁ hd₁' (hs.congr hothers.symm hothers'.symm)
        refine ⟨.cons ⟨?_, fun hne => ?_⟩ hrests, hw', hpar.congr hothers hothers'⟩
        · exact hhandle'.trans (hij.handle.trans hhandle.symm)
        · exact absurd ((congrArg ScriptHandle.id hhandle).trans hid) hne
      · have hout := hij.outside hid
        have hstale := hout.stale src hsrc
        cases h with
        | fresh hfresh hrest =>
            cases h' with
            | fresh hfresh' hrest' =>
                obtain ⟨hrests, hw', hpar⟩ := ih hrest hrest' hw hd hd' hs
                exact ⟨.cons hij hrests, hw', hpar⟩
            | stale hstale' => rw [hstale, hfresh] at hstale'; nomatch hstale'
        | @stale _ i₁ _ is₁ _ w₁ _ es₁ result hbehind hreload hrest =>
            cases h' with
            | fresh hfresh' => rw [hstale, hbehind] at hfresh'; nomatch hfresh'
            | @stale _ j₁ _ js₁ _ v₁ _ es₁' result' _ hreload' hrest' =>
                have hd₁ := (List.forall_mem_cons.mp hd).2
                have hd₁' := (List.forall_mem_cons.mp hd').2
                obtain ⟨t, rfl⟩ := hout.since
                have hwr := hw.effect (.record (src.report i)) trivial
                have hne : ∀ {a : Attempt}, a.before.id = i.id →
                    (Event.tried a).subject? ≠ some f.inside.id :=
                  fun heq hsome => hid (heq.symm.trans (Option.some.inj hsome))
                have ht := (hs.head (hne rfl) (hne rfl)).clocks rfl rfl rfl rfl
                obtain ⟨rfl, hout', hw₁, hhandle⟩ := load hwr hout ht hreload hreload'
                have hone : f.inside.Parallel
                    [.tried ⟨i, w.record (src.report i), result', i₁, w₁⟩]
                    [.tried ⟨i.since t, v.record (src.report (i.since t)), result', j₁, v₁⟩] :=
                  .single (hne rfl) (hne rfl) rfl
                obtain ⟨hrests, hw', hpar⟩ := ih hrest hrest' hw₁ hd₁ hd₁' (hs.second hone)
                refine ⟨.cons ⟨?_, fun _ => hout'⟩ hrests, hw', hone.append hpar⟩
                obtain ⟨t', rfl⟩ := hout'.since
                rfl

/-- One source file after the other. -/
theorem sweep {srcs : List SourceFile} (hsub : ∀ s ∈ srcs, s ∈ f.sources)
    {is is' js js' : List Instance} {w w' v v' : World}
    (h : Sweep budget f.libraries srcs is w es is' w')
    (h' : Sweep budget f.libraries srcs js v es' js' v') (hi : List.Forall₂ f.Same is js)
    (hw : f.Worlds w v) (hd : ∀ e ∈ es, e.Discreet f.inside)
    (hd' : ∀ e ∈ es', e.Discreet f.inside)
    (hs : f.inside.InStep f.sources es es') :
    List.Forall₂ f.Same is' js' ∧ f.Worlds w' v' ∧ f.inside.Parallel es es' := by
  induction h generalizing js v es' with
  | done =>
      cases h'
      exact ⟨hi, hw, .of_nil rfl rfl⟩
  | @source src rest is is₁ is' w w₁ w' tries es hreloads _ ih =>
      cases h' with
      | @source _ _ _ js₁ _ _ v₁ _ tries' es' hreloads' hrest' =>
          obtain ⟨hsrc, hsub⟩ := List.forall_mem_cons.mp hsub
          obtain ⟨htries, hd⟩ := List.forall_mem_append.mp hd
          obtain ⟨htries', hd'⟩ := List.forall_mem_append.mp hd'
          obtain ⟨hi₁, hw₁, hpar₁⟩ := reloads hsrc hreloads hreloads' hi hw htries htries' hs.first
          obtain ⟨hi', hw', hpar'⟩ := ih hsub hrest' hi₁ hw₁ hd hd' (hs.second hpar₁)
          exact ⟨hi', hw', hpar₁.append hpar'⟩

end Rounds

end Fence

end Stagehand
