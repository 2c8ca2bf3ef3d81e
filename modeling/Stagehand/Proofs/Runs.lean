import Stagehand.Proofs.Evaluation
import Stagehand.Proofs.Performances

/-!
# What a run leaves behind

A run for an instance takes place in a world, and the world afterwards differs from it by the
effects of the run and by the instance's own realm: `Ran` gives the account. Other realms are as
they were, cells that were not allowed are as they were, and no effect touches the files or the
frame counter. Loading an instance and calling it are runs, or end before they get that far.
-/

namespace Stagehand

open Lang

/-! ## Realms -/

namespace World

@[simp] theorem realm_setRealm (w : World) (id : InstanceId) (realm : Realm) :
    (w.setRealm id realm).realm id = realm := by
  simp [World.realm, World.setRealm]

@[simp] theorem realm_forget (w : World) (id : InstanceId) : (w.forget id).realm id = {} := by
  have hnone : (w.forget id).realms.find? (·.1 == id) = none :=
    List.find?_eq_none.mpr fun p hp => by simpa using (List.mem_filter.mp hp).2
  rw [World.realm, hnone]
  rfl

theorem realm_forget_of_ne (w : World) {id other : InstanceId} (h : other ≠ id) :
    (w.forget id).realm other = w.realm other := by
  have hfind : (w.forget id).realms.find? (·.1 == other) = w.realms.find? (·.1 == other) := by
    rw [World.forget, List.find?_filter]
    congr 1
    funext p
    by_cases hp : p.1 = other
    · simp [hp, h]
    · simp [hp]
  rw [World.realm, World.realm, hfind]

theorem realm_setRealm_of_ne (w : World) {id other : InstanceId} (h : other ≠ id) (realm : Realm) :
    (w.setRealm id realm).realm other = w.realm other := by
  rw [← w.realm_forget_of_ne h, World.realm, World.setRealm, List.find?_cons_of_neg]
  · rfl
  · simpa using Ne.symm h

/-- To drop realms changes the realms alone, and no other realm. -/
theorem foldl_forget (ids : List InstanceId) (w : World) :
    (∃ realms, ids.foldl forget w = { w with realms }) ∧
      ∀ other, other ∉ ids → (ids.foldl forget w).realm other = w.realm other := by
  induction ids generalizing w with
  | nil => exact ⟨⟨w.realms, rfl⟩, fun _ _ => rfl⟩
  | cons id rest ih =>
      obtain ⟨⟨realms, heq⟩, hothers⟩ := ih (w.forget id)
      refine ⟨⟨realms, heq⟩, fun other hother => ?_⟩
      have hne := List.ne_of_not_mem_cons hother
      have hrest := List.not_mem_of_not_mem_cons hother
      exact (hothers other hrest).trans (w.realm_forget_of_ne hne)

theorem realm_foldl_forget_mem {ids : List InstanceId} {id : InstanceId} (h : id ∈ ids)
    (w : World) : (ids.foldl forget w).realm id = {} := by
  induction ids generalizing w with
  | nil => nomatch h
  | cons other rest ih =>
      by_cases hrest : id ∈ rest
      · exact ih hrest (w.forget other)
      · obtain rfl := (List.mem_cons.mp h).resolve_right hrest
        exact ((w.forget id).foldl_forget rest).2 id hrest |>.trans (w.realm_forget id)

end World

/-! ## Moves of a run -/

namespace Lang

section Moves

variable {A : Allowance} {m m' : Machine}

/-- The world gets on by effects alone. -/
theorem Moves.effects (h : Moves A m m') :
    ∃ es, (∀ e ∈ es, Effect.Allowed A e) ∧ m'.world = Effect.applyAll es m.world := by
  induction h with
  | refl => exact ⟨[], nofun, rfl⟩
  | tail _ hmove ih =>
      obtain ⟨es, hes, hw⟩ := ih
      cases hmove with
      | effect e he =>
          refine ⟨es ++ [e], fun e' he' => ?_, ?_⟩
          · rcases List.mem_append.mp he' with he' | he'
            · exact hes e' he'
            · exact List.mem_singleton.mp he' ▸ he
          · rw [Effect.applyAll_append, ← hw]
            rfl
      | frame | newCell | setCell | keep => exact ⟨es, hes, hw⟩

/-- Cells are never given up. -/
theorem Moves.grows (h : Moves A m m') : m.realm.heap.size ≤ m'.realm.heap.size := by
  induction h with
  | refl => exact Nat.le_refl _
  | tail _ hmove ih =>
      cases hmove with
      | newCell held hh => exact Nat.le_trans ih (by simp)
      | setCell cell v hc hv => exact Nat.le_trans ih (by simp)
      | frame | effect | keep => exact ih

/-- A cell that is not allowed holds what it held. -/
theorem Moves.cell (h : Moves A m m') (hm : m.Confined A) {cell : CellId} (hc : ¬ A (.cell cell)) :
    m'.realm.heap[cell]? = m.realm.heap[cell]? := by
  induction h with
  | refl => rfl
  | tail hmoves hmove ih =>
      rw [← ih]
      cases hmove with
      | newCell held hh =>
          -- the new cell has a number that is allowed
          rw [Array.getElem?_push, if_neg]
          intro heq
          exact hc ((Moves.confined hmoves hm).fresh cell (Nat.le_of_eq heq.symm))
      | setCell other v ho hv =>
          rw [Array.getElem?_modify, if_neg]
          rintro rfl
          exact hc ho
      | frame | effect | keep => rfl

/-- No move of a run counts a frame. -/
theorem Moves.frame (h : Moves A m m') : m'.world.host.frame = m.world.host.frame := by
  obtain ⟨es, -, hw⟩ := h.effects
  rw [hw]
  exact Effect.applyAll_eq (f := fun w => w.host.frame) Effect.apply_frame es m.world

end Moves

end Lang

/-! ## The account of a run -/

/-- What a run for an instance may start from: its realm and the stores lead nowhere but to what is
allowed, and cells that it will make are allowed. -/
structure World.Confined (A : Allowance) (owner : InstanceId) (w : World) : Prop where
  cells : (w.realm owner).heap.Closed A
  fresh : ∀ cell, (w.realm owner).heap.size ≤ cell → A (.cell cell)
  modules : Within A (w.realm owner).modules
  world : w.Closed A

theorem World.confined_everything (owner : InstanceId) (w : World) :
    w.Confined (fun _ => True) owner where
  cells := fun _ held _ _ => within_everything held
  fresh := fun _ _ => trivial
  modules := within_everything _
  world := fun _ d _ _ => within_everything d

theorem Lang.serves_everything (stage : Stage) : Serves (fun _ => True) stage :=
  ⟨trivial, fun _ => trivial, trivial, trivial⟩

/-- The account of a run for an instance: the world afterwards is the world before with these
effects, but for the realm of the instance, in which no cell beyond the allowance changed. -/
structure Ran (A : Allowance) (owner : InstanceId) (es : List Effect) (w w' : World) : Prop where
  allowed : ∀ e ∈ es, e.Allowed A
  world : { w' with realms := w.realms } = Effect.applyAll es w
  others : ∀ id, id ≠ owner → w'.realm id = w.realm id
  cell : ∀ cell, ¬ A (.cell cell) →
    (w'.realm owner).heap[cell]? = (w.realm owner).heap[cell]?
  grows : (w.realm owner).heap.size ≤ (w'.realm owner).heap.size

namespace Ran

variable {A : Allowance} {owner : InstanceId} {es es' : List Effect} {w w' w'' : World}

theorem refl (w : World) : Ran A owner [] w w :=
  ⟨nofun, rfl, fun _ _ => rfl, fun _ _ => rfl, Nat.le_refl _⟩

theorem trans (h : Ran A owner es w w') (h' : Ran A owner es' w' w'') :
    Ran A owner (es ++ es') w w'' where
  allowed e he := (List.mem_append.mp he).elim (h.allowed e) (h'.allowed e)
  world := by
    have hw : { w'' with realms := w.realms } =
        ({ { w'' with realms := w'.realms } with realms := w.realms } : World) := rfl
    rw [hw, h'.world, ← Effect.applyAll_withRealms, h.world, Effect.applyAll_append]
  others id hid := (h'.others id hid).trans (h.others id hid)
  cell c hc := (h'.cell c hc).trans (h.cell c hc)
  grows := Nat.le_trans h.grows h'.grows

/-- An effect of the host on behalf of an instance comes behind its run. -/
theorem followed (h : Ran A owner es w w') (hw : w'.Confined A owner) {e : Effect}
    (he : e.Allowed A) :
    Ran A owner (es ++ [e]) w (e.apply w') ∧ (e.apply w').Confined A owner := by
  have hrealm : ∀ id, (e.apply w').realm id = w'.realm id := fun id => by
    rw [World.realm, World.realm, e.apply_realms]
  have hworld : { e.apply w' with realms := w'.realms } = Effect.applyAll [e] w' := by
    rw [← e.apply_realms w']
    rfl
  refine ⟨h.trans ⟨fun e' he' => List.mem_singleton.mp he' ▸ he, hworld, fun id _ => hrealm id,
    fun c _ => by rw [hrealm], Nat.le_of_eq (by rw [hrealm])⟩, ?_⟩
  exact ⟨hrealm owner ▸ hw.cells, hrealm owner ▸ hw.fresh, hrealm owner ▸ hw.modules,
    Effect.closed he hw.world⟩

/-- What each effect does to a part of the world, the run did to it. -/
theorem part (h : Ran A owner es w w') {α : Type} {f : World → α} {g : Effect → α → α}
    (hf : ∀ e w, f (Effect.apply e w) = g e (f w)) (hr : ∀ w realms, f { w with realms } = f w) :
    f w' = es.foldl (fun x e => g e x) (f w) := by
  rw [← hr w' w.realms, h.world, Effect.applyAll_part hf]

/-- What no effect changes is as it was. -/
theorem unchanged (h : Ran A owner es w w') {α : Type} {f : World → α}
    (hf : ∀ e w, f (Effect.apply e w) = f w) (hr : ∀ w realms, f { w with realms } = f w) :
    f w' = f w := by
  rw [← hr w' w.realms, h.world, Effect.applyAll_eq hf]

theorem files (h : Ran A owner es w w') : w'.files = w.files :=
  h.unchanged Effect.apply_files fun _ _ => rfl

/-- The frame counter does not move while scripts run. -/
theorem frame (h : Ran A owner es w w') : w'.host.frame = w.host.frame :=
  h.unchanged (f := fun w => w.host.frame) Effect.apply_frame fun _ _ => rfl

end Ran

/-- A run from a frame within the allowance gives an account, and what it leaves and yields is
within the allowance again. -/
theorem perform_ran {α : Type} [Leafy α] {A : Allowance} {stage : Stage} {x : Eval α}
    {frame frame' : Frame} {w w' : World} {r : Except Halt α} (hx : Does A x)
    (hf : Within A frame) (hw : w.Confined A stage.owner.id)
    (h : perform stage x frame w = some (r, frame', w')) :
    ∃ es, Ran A stage.owner.id es w w' ∧ w'.Confined A stage.owner.id ∧ Within A frame' ∧
      Within A r := by
  obtain ⟨⟨r₁, m⟩, hrun, h⟩ := Option.bind_eq_some_iff.mp h
  cases h
  have hm : Machine.Confined A ⟨w, w.realm stage.owner.id, frame⟩ :=
    ⟨hf, hw.cells, hw.fresh, hw.modules, hw.world⟩
  obtain ⟨hmoves, hr⟩ := hx _ _ _ hm hrun
  have hm' := hmoves.confined hm
  obtain ⟨es, hes, hworld⟩ := hmoves.effects
  refine ⟨es, ⟨hes, ?_, ?_, ?_, ?_⟩, ⟨?_, ?_, ?_, hm'.world⟩, hm'.frame, hr⟩
  · change { m.world with realms := w.realms } = _
    rw [hworld, ← Effect.applyAll_eq Effect.apply_realms es w]
  · intro id hid
    rw [World.realm_setRealm_of_ne _ hid, hworld]
    unfold World.realm
    rw [Effect.applyAll_eq Effect.apply_realms]
  · intro cell hc
    rw [World.realm_setRealm]
    exact hmoves.cell hm hc
  · rw [World.realm_setRealm]
    exact hmoves.grows
  · rw [World.realm_setRealm]
    exact hm'.cells
  · rw [World.realm_setRealm]
    exact hm'.fresh
  · rw [World.realm_setRealm]
    exact hm'.modules

/-! ## Loading -/

instance : Leafy EntryPoint := ⟨fun _ => []⟩

instance : Leafy Callable := ⟨fun
  | .function => []
  | .value _ curried _ => Leafy.leaves curried⟩

instance : Leafy Binding := ⟨fun b => Leafy.leaves (b.vars, b.kept, b.entries)⟩

section Loading

variable {A : Allowance} {stage : Stage}

theorem within_binding {b : Binding} :
    Within A b ↔ Within A b.vars ∧ Within A b.kept ∧ Within A b.entries := by
  rw [← within_pair (p := (b.kept, b.entries)), ← within_pair (p := (b.vars, _))]; rfl

theorem within_hostVars (hA : Serves A stage) : Within A (hostVars stage) := by
  rw [within_list]
  intro v hv
  obtain ⟨name, -, hname⟩ := List.mem_filterMap.mp (List.mem_reverse.mp hv)
  obtain ⟨c, hc, rfl⟩ := Option.map_eq_some_iff.mp hname
  exact within_var.mpr (within_const (within_handle.mpr (hA.builtin? hc)))

theorem Lang.Built.keepLibraries {run : Run} (hrun : RunBuilt A stage run) :
    ∀ {texts : List String}, Built A stage (keepLibraries stage run texts)
  | [] => .pure (within_of_leafless rfl)
  | text :: rest => by
    unfold Stagehand.keepLibraries
    refine (Built.resolveLibrary hrun).bind fun m hm => (keepLibraries hrun).bind fun ms hms => ?_
    refine .pure (within_list.mpr (List.forall_mem_cons.mpr ⟨?_, within_list.mp hms⟩))
    exact within_pair.mpr ⟨within_string text, within_named text hm⟩

theorem within_findEntries {functions : List FnDef} {vars : List Var} {heap : Heap}
    (hv : Within A vars) (hh : heap.Closed A) : Within A (findEntries functions vars heap) := by
  rw [within_list]
  intro p hp
  obtain ⟨e, -, he⟩ := List.mem_filterMap.mp hp
  split at he
  · cases he
    exact within_of_leafless rfl
  · split at he
    · rename_i name curried function hfn
      cases he
      obtain ⟨v, hfind, hv'⟩ := Option.map_eq_some_iff.mp hfn
      have hvar := within_list.mp hv v (List.mem_of_find?_eq_some hfind)
      have hflat := within_flatten hh (within_held.mp hvar).1
      rw [hv', within_fn, ← within_list] at hflat
      exact within_pair.mpr ⟨within_of_leafless rfl, hflat⟩
    · nomatch he

theorem Lang.Script.within_frame {script : Script} {kept : List (String × Module)}
    (hA : Serves A stage) (hk : Within A kept) : Within A (script.frame stage kept) :=
  Lang.within_frame.mpr ⟨within_hostVars hA, within_none, within_of_leafless rfl,
    within_of_leafless rfl, hk⟩

/-- To resolve a script's imports and to run its top level are two runs for its instance, the second
in the frame that the libraries kept by the first are part of. -/
theorem Lang.Script.Binds.ran {budget : Nat} {script : Script} {w w' : World}
    {r : Except ReloadError Binding} (h : script.Binds budget stage w r w') (hA : Serves A stage)
    (hw : w.Confined A stage.owner.id) :
    ∃ es, Ran A stage.owner.id es w w' ∧ w'.Confined A stage.owner.id ∧
      ∀ b, r = .ok b → Within A b := by
  have hrun := Built.evaluate hA budget
  cases h with
  | unresolved hkeep =>
      obtain ⟨es, hran, hw', -, -⟩ :=
        perform_ran (Built.keepLibraries hrun).does (within_of_leafless rfl) hw hkeep
      exact ⟨es, hran, hw', nofun⟩
  | ended hkeep hbody =>
      obtain ⟨es₁, hran₁, hw₁, -, hr₁⟩ :=
        perform_ran (Built.keepLibraries hrun).does (within_of_leafless rfl) hw hkeep
      obtain ⟨es₂, hran₂, hw₂, hf₂, -⟩ :=
        perform_ran (hrun.stmts script.body).does (Script.within_frame hA hr₁) hw₁ hbody
      refine ⟨es₁ ++ es₂, hran₁.trans hran₂, hw₂, fun b hb => ?_⟩
      obtain ⟨-, rfl⟩ := Script.bound_ok hb
      have hvars := (Lang.within_frame.mp hf₂).1
      exact within_binding.mpr ⟨hvars, hr₁, within_findEntries hvars hw₂.cells⟩

theorem build_ran {budget : Nat} {source : FilePath} {w w' : World}
    {r : Except ReloadError Binding} (hA : Serves A stage) (hw : w.Confined A stage.owner.id)
    (h : build budget stage source w = some (r, w')) :
    ∃ es, Ran A stage.owner.id es w w' ∧ w'.Confined A stage.owner.id ∧
      ∀ b, r = .ok b → Within A b := by
  rcases build_iff.mp h with ⟨e, -, rfl, rfl⟩ | ⟨script, -, hbinds⟩
  · exact ⟨[], .refl w', hw, nofun⟩
  · exact hbinds.ran hA hw

end Loading

/-- A reload is a run for its instance, and what the host reports of it comes behind. -/
theorem Instance.reload_ran {A : Allowance} {budget : Nat} {libraries : Libraries}
    {i i' : Instance} {w w' : World} {r : Except ReloadError Unit}
    (hA : Serves A (i.stage libraries)) (hw : w.Confined A i.id) (hb : Within A i.binding)
    (h : i.reload budget libraries w = some (r, i', w')) :
    ∃ es, Ran A i.id es w w' ∧ w'.Confined A i.id ∧ Within A i'.binding := by
  rcases reload_cases h with ⟨b, w₁, hbuild, rfl, rfl, rfl⟩ | ⟨e, w₁, hbuild, rfl, rfl, rfl⟩
  · obtain ⟨es, hran, hw₁, hr⟩ := build_ran hA hw hbuild
    have hlog := hran.followed hw₁ (e := .record (i.successReport b)) trivial
    have htick := hlog.1.followed hlog.2 (e := .tick) trivial
    exact ⟨_, htick.1, htick.2, within_some.mpr (hr b rfl)⟩
  · obtain ⟨es, hran, hw₁, -⟩ := build_ran hA hw hbuild
    have hlog := hran.followed hw₁ (e := .record (i.failureReport e)) trivial
    exact ⟨_, hlog.1, hlog.2, hb⟩

/-! ## Calling -/

theorem Lang.Built.callAlone {A : Allowance} {stage : Stage} {run : Run} (hA : Serves A stage)
    (hrun : RunBuilt A stage run) {name : String} {args : List Value} {function : Option FnDef}
    (ha : ∀ v ∈ args, Within A v) :
    Built A stage (Lang.callAlone stage run name function args) := by
  have hcall : Built A stage (do
      Eval.valueOf (← Lang.callValue stage run name function none args none)) :=
    (callValue hA hrun within_none ha).bind fun u hu => valueOf hu
  exact ite hcall (deeper hcall)

/-- Code of scripts is built as everything that scripts do. -/
theorem Code.built {stage : Stage} {α : Type} {x : Eval α} (h : Code stage x) :
    ∃ _ : Leafy α, Built (fun _ => True) stage x := by
  have hA := serves_everything stage
  induction h with
  | imports budget => exact ⟨inferInstance, .keepLibraries (Built.evaluate hA budget)⟩
  | body budget stmts => exact ⟨inferInstance, (Built.evaluate hA budget).stmts stmts⟩
  | value budget =>
      refine ⟨inferInstance, Built.bind ?_ fun u hu => .valueOf hu⟩
      exact .callValue hA (Built.evaluate hA budget) within_none fun v _ => within_everything v
  | deeper _ ih =>
      obtain ⟨hleafy, hx⟩ := ih
      exact ⟨hleafy, hx.deeper⟩

namespace Binding

variable {A : Allowance} {stage : Stage} {b b' : Binding} {args : List Value}

theorem within_frame {f : FnDef} (hb : Within A b) (ha : Within A args) :
    Within A (b.frame f args) := by
  obtain ⟨hvars, hkept, -⟩ := within_binding.mp hb
  refine Lang.within_frame.mpr
    ⟨within_list.mpr fun v hv => ?_, within_none, within_of_leafless rfl, within_none, hkept⟩
  rcases List.mem_append.mp hv with hv | hv
  · exact within_list.mp (within_params (within_list.mp ha)) v hv
  · exact within_list.mp hvars v hv

theorem within_resumed {last : Frame} (hb : Within A b) (hl : Within A last) :
    Within A (b.resumed last) := by
  obtain ⟨-, hkept, hentries⟩ := within_binding.mp hb
  refine within_binding.mpr ⟨within_list.mpr fun v hv => ?_, hkept, hentries⟩
  exact within_vars hl v (List.mem_of_mem_drop hv)

/-- A call is a run for the instance, from the binding and into the binding. -/
theorem Responds.ran {budget : Nat} {e : EntryPoint} {c : Callable} {w w' : World}
    {r : Except Fault Value} (h : b.Responds budget stage e args w c r b' w')
    (hA : Serves A stage) (hw : w.Confined A stage.owner.id) (hb : Within A b) (hc : Within A c)
    (ha : Within A args) :
    ∃ es, Ran A stage.owner.id es w w' ∧ w'.Confined A stage.owner.id ∧ Within A b' := by
  have hrun := Built.evaluate hA budget
  cases h with
  | unfit => exact ⟨[], .refl w, hw, hb⟩
  | function _ hbody =>
      obtain ⟨es, hran, hw', hl, -⟩ :=
        perform_ran (hrun.stmts _).does (within_frame hb ha) hw hbody
      exact ⟨es, hran, hw', within_resumed hb hl⟩
  | @value name curried function _ _ _ hcall =>
      have hargs : ∀ v ∈ curried ++ args, Within A v :=
        List.forall_mem_append.mpr ⟨within_list.mp hc, within_list.mp ha⟩
      obtain ⟨es, hran, hw', -, -⟩ :=
        perform_ran (Built.callAlone hA hrun hargs).does (within_of_leafless rfl) hw hcall
      exact ⟨es, hran, hw', hb⟩

end Binding

namespace Instance

section Dispatch

variable {A : Allowance} {budget : Nat} {libraries : Libraries} {i i' : Instance} {e : EntryPoint}
  {w w' : World}

theorem within_callable {b : Binding} {c : Callable} (hb : Within A i.binding)
    (hc : i.callable? e = some (b, c)) : Within A b ∧ Within A c := by
  obtain ⟨hbinding, e', hmem⟩ := callable?_cases hc
  have hb' : Within A b := within_option.mp hb b hbinding
  have hentry := within_list.mp (within_binding.mp hb').2.2 _ hmem
  exact ⟨hb', (within_pair.mp hentry).2⟩

theorem within_args {args : List HostValue} (ha : Within A args) :
    Within A (args.map HostValue.toScript) := by
  rw [within_list] at ha ⊢
  intro v hv
  obtain ⟨u, hu, rfl⟩ := List.mem_map.mp hv
  exact within_toScript.mpr (ha u hu)

theorem call_ran {args : List Value} {o : Option (Except Fault Value)}
    (hA : Serves A (i.stage libraries)) (hw : w.Confined A i.id) (hb : Within A i.binding)
    (ha : Within A args) (h : i.call budget libraries e args w = some (o, i', w')) :
    ∃ es, Ran A i.id es w w' ∧ w'.Confined A i.id ∧ Within A i'.binding := by
  rcases call_iff.mp h with ⟨b, c, r, b', -, hc, hresponds, -, rfl⟩ | ⟨-, -, rfl, rfl⟩
  · obtain ⟨hb', hc'⟩ := within_callable hb hc
    exact hresponds.ran hA hw hb' hc' ha
  · exact ⟨[], .refl w', hw, hb⟩

variable {args : List HostValue} {o : Outcome}

theorem invoke_ran (hA : Serves A (i.stage libraries)) (hw : w.Confined A i.id)
    (hb : Within A i.binding) (ha : Within A args)
    (h : i.invoke budget libraries e args w = some (o, i', w')) :
    ∃ es, Ran A i.id es w w' ∧ w'.Confined A i.id ∧ Within A i'.binding := by
  rcases invoke_iff.mp h with ⟨-, r, hcall, -⟩ | ⟨-, -, rfl, rfl⟩
  · exact call_ran hA hw hb (within_args ha) hcall
  · exact ⟨[], .refl w', hw, hb⟩

theorem dispatch_ran (hA : Serves A (i.stage libraries)) (hw : w.Confined A i.id)
    (hb : Within A i.binding) (ha : Within A args)
    (h : i.dispatch budget libraries e args w = some (o, i', w')) :
    ∃ es, Ran A i.id es w w' ∧ w'.Confined A i.id ∧ Within A i'.binding := by
  rcases dispatch_iff.mp h with ⟨err, i₁, w₁, hinvoke, -, rfl, rfl⟩ | ⟨hinvoke, -⟩
  · obtain ⟨es, hran, hw₁, hb₁⟩ := invoke_ran hA hw hb ha hinvoke
    have hlog := hran.followed hw₁ (e := .record err.report) trivial
    exact ⟨_, hlog.1, hlog.2, hb₁⟩
  · exact invoke_ran hA hw hb ha hinvoke

end Dispatch

section Frame

variable {budget : Nat} {libraries : Libraries} {i i' : Instance} {e : EntryPoint}
  {args : List HostValue} {w w' : World}

theorem reload_frame {r : Except ReloadError Unit}
    (h : i.reload budget libraries w = some (r, i', w')) : w'.host.frame = w.host.frame := by
  obtain ⟨es, hran, -⟩ := reload_ran (serves_everything _) (World.confined_everything _ w)
    (within_everything _) h
  exact hran.frame

theorem invoke_frame {o : Outcome} (h : i.invoke budget libraries e args w = some (o, i', w')) :
    w'.host.frame = w.host.frame := by
  obtain ⟨es, hran, -⟩ := invoke_ran (serves_everything _) (World.confined_everything _ w)
    (within_everything _) (within_everything _) h
  exact hran.frame

theorem dispatch_frame {o : Outcome}
    (h : i.dispatch budget libraries e args w = some (o, i', w')) :
    w'.host.frame = w.host.frame := by
  obtain ⟨es, hran, -⟩ := dispatch_ran (serves_everything _) (World.confined_everything _ w)
    (within_everything _) (within_everything _) h
  exact hran.frame

end Frame

end Instance

end Stagehand
