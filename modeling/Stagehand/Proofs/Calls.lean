import Stagehand.Proofs.HostCalls

/-!
# What calls do

Calls of script functions, function values, built-in functions and methods. All of them get other
jobs done by `run`; that these are built within the allowance is the one hypothesis about them.
-/

namespace Stagehand.Lang

variable {A : Allowance} {stage : Stage} {run : Run}

instance : Leafy Items := ⟨fun
  | .list vs => Leafy.leaves vs
  | .span _ _ => []⟩

instance : Leafy Job := ⟨fun
  | .forLoop _ _ items _ _ => Leafy.leaves items
  | _ => []⟩

instance : Leafy Reached := ⟨fun
  | .inLibrary home _ => Leafy.leaves home
  | _ => []⟩

instance : Leafy Offer := ⟨fun o => Leafy.leaves (o.item, o.given, o.extra)⟩

@[simp] theorem within_offer {o : Offer} :
    Within A o ↔ Within A o.item ∧ Within A o.given ∧ Within A o.extra := by
  rw [← within_pair (p := (o.given, o.extra)), ← within_pair (p := (o.item, _))]; rfl

/-- A way to get jobs done is that of scripts, and is built within the allowance. -/
structure RunBuilt (A : Allowance) (stage : Stage) (run : Run) : Prop where
  job : ∀ job, Within A job → Built A stage (run job)
  evaluates : ∃ budget, run = evaluate stage budget

section Jobs

variable (hrun : RunBuilt A stage run)
include hrun

theorem RunBuilt.expr (e : Expr) : Built A stage (run (.expr e)) :=
  hrun.job _ (within_of_leafless rfl)
theorem RunBuilt.stmt (s : Stmt) : Built A stage (run (.stmt s)) :=
  hrun.job _ (within_of_leafless rfl)
theorem RunBuilt.stmts (b : List Stmt) : Built A stage (run (.stmts b)) :=
  hrun.job _ (within_of_leafless rfl)
theorem RunBuilt.block (b : List Stmt) : Built A stage (run (.block b)) :=
  hrun.job _ (within_of_leafless rfl)

end Jobs

theorem within_forCall {outer : Frame} {f : FnDef} {args : List Value} {this : Option Held}
    {reached : Reached} (hf : Within A outer) (ha : ∀ v ∈ args, Within A v)
    (ht : Within A this) (hr : Within A reached) :
    Within A (outer.forCall f args this reached) := by
  obtain ⟨-, -, hi, hc, hk⟩ := within_frame.mp hf
  unfold Frame.forCall
  cases reached with
  | byName | byValue => exact within_frame.mpr ⟨within_params ha, ht, hi, hc, hk⟩
  | inLibrary m source =>
      have hm : Within A m := hr
      obtain ⟨-, hmc, hmi⟩ := within_module.mp hm
      refine within_frame.mpr ⟨within_params ha, ht, within_list.mpr fun e he => ?_, hmc, hk⟩
      rcases List.mem_append.mp he with he | he
      · exact within_list.mp hmi e he
      · exact within_list.mp hi e he

theorem within_changed {f : Frame} (hf : Within A f) : Within A (f.this.map (·.value)) := by
  have ht := within_this hf
  cases hthis : f.this with
  | none => exact within_none
  | some held => exact (within_held.mp (within_some.mp (hthis ▸ ht))).1

/-- What comes of a call, from the frame that the function leaves and what it ended with. -/
def upshotOf (f : FnDef) (pos : Place) (inner : Frame) (outcome : Except Halt Value) :
    Eval Upshot := do
  let changed := inner.this.map (·.value)
  match outcome with
  | .ok v | .error (.ret v) => return ⟨.ok (← Eval.flatten v), changed⟩
  | .error (.fault fault) =>
    let traced := if fault.untraced then fault.movedTo pos
      else .inCall fault f.name inner.source pos
    return ⟨.error (.fault traced), changed⟩
  | .error h => return ⟨.error h, changed⟩

/-- A function runs in a frame of its own, unless there are too many calls inside one another. -/
theorem callFunction_eq (f : FnDef) (args : List Value) (this : Option Held) (reached : Reached)
    (pos : Place) :
    callFunction run f args this reached pos =
      (get >>= fun m : Machine =>
        if maxDepth ≤ m.frame.depth then Eval.raise .stackOverflow pos
        else Eval.apart (·.forCall f args this reached) (run (.stmts f.body))
          (upshotOf f pos)) := by
  funext m
  change (if maxDepth ≤ m.frame.depth then _ else _ : Eval Upshot) m =
    (if maxDepth ≤ m.frame.depth then _ else _ : Eval Upshot) m
  split
  · rfl
  · rfl

namespace Built

/-! ## Script functions -/

/-- The frame of the caller comes back as it was; what the function made of `this` is in the
upshot. -/
theorem callFunction (hrun : RunBuilt A stage run) {f : FnDef} {args : List Value}
    {this : Option Held} {reached : Reached} {pos : Place} (ha : ∀ v ∈ args, Within A v)
    (ht : Within A this) (hr : Within A reached) :
    Built A stage (Lang.callFunction run f args this reached pos) := by
  rw [callFunction_eq]
  refine inspect (fun m _ => ?_) fun _ _ => rfl
  split
  · exact raise_leafless rfl
  · refine apart (fun _ hf => within_forCall hf ha ht hr) (hrun.stmts f.body)
      fun inner r hi hr => ?_
    have hc := within_changed hi
    unfold upshotOf
    split
    · exact (flatten hr).bind fun v hv => pure (within_upshot.mpr ⟨hv, hc⟩)
    · exact (flatten hr).bind fun v hv => pure (within_upshot.mpr ⟨hv, hc⟩)
    · rename_i fault
      refine pure (within_upshot.mpr ⟨within_error.mpr (within_halt_fault.mpr ?_), hc⟩)
      split
      · exact within_movedTo.mpr hr
      · exact within_inCall.mpr hr
    · exact pure (within_upshot.mpr ⟨hr, hc⟩)

theorem ensureFree {name : String} {args : List Value} {pos : Place} :
    Built A stage (Lang.ensureFree name args pos) := by
  refine inspect (fun m _ => ?_) fun _ _ => rfl
  dsimp only
  split
  · exact raise_leafless rfl
  · exact pure (within_unit ())

/-! ## Built-in functions -/

theorem callNative (hA : Serves A stage) {name : String} {args : List Value}
    (ha : ∀ v ∈ args, Within A v) {x : Eval Upshot} (h : Lang.callNative stage name args = some x) :
    Built A stage x := by
  have effect : ∀ {y : Eval Value}, Built A stage y →
      Built A stage (do return ({ outcome := .ok (← y) } : Upshot)) := fun hy =>
    hy.bind fun v hv => pure (within_upshot.mpr ⟨hv, within_none⟩)
  unfold Lang.callNative at h
  dsimp only at h
  split at h
  · rename_i y hy
    cases h
    exact effect (outputFunction ha hy)
  · split at h
    · rename_i y hy
      cases h
      exact effect (hostFunction hA ha hy)
    · obtain ⟨r, hr, rfl⟩ := Option.map_eq_some_iff.mp h
      have hy : Within A (native name args) := within_native (within_list.mpr ha)
      rw [hr] at hy
      refine (orRaise hy).bind fun y hy => pure ?_
      exact within_upshot.mpr ⟨(within_yield.mp hy).1, (within_yield.mp hy).2⟩

theorem callByType (hA : Serves A stage) {name : String} {constant : Bool} {args : List Value}
    {pos : Place} (ha : ∀ v ∈ args, Within A v) :
    Built A stage (Lang.callByType stage name constant args pos) := by
  unfold Lang.callByType
  split
  · exact raise_leafless rfl
  · rename_i x hx
    refine (placed (callNative hA ha hx)).bind fun u hu => ?_
    dsimp only
    split
    · exact raise_bind rfl
    · exact pure hu

/-! ## Calls by name and of function values -/

theorem within_withObject {object : Option Held} {args : List Value} (ho : Within A object)
    (ha : ∀ v ∈ args, Within A v) : ∀ v ∈ withObject object args, Within A v := by
  cases object with
  | none => exact ha
  | some held => exact List.forall_mem_cons.mpr ⟨(within_held.mp (within_some.mp ho)).1, ha⟩

theorem callByName (hA : Serves A stage) (hrun : RunBuilt A stage run) {name : String}
    {object : Option Held} {args : List Value} {pos : Place} (ho : Within A object)
    (ha : ∀ v ∈ args, Within A v) :
    Built A stage (Lang.callByName stage run name object args pos) := by
  refine ensureFree.bind fun _ _ => function?.bind fun f _ => ?_
  split
  · exact callFunction hrun ha ho (within_of_leafless rfl)
  · refine (mapM fun v hv => flatten (ha v hv)).bind fun flat hf => ?_
    exact callByType hA (within_withObject ho (within_list.mp hf))

theorem callValue (hA : Serves A stage) (hrun : RunBuilt A stage run) {name : String}
    {function : Option FnDef} {object : Option Held} {args : List Value} {pos : Place}
    (ho : Within A object) (ha : ∀ v ∈ args, Within A v) :
    Built A stage (Lang.callValue stage run name function object args pos) := by
  unfold Lang.callValue
  split
  · exact callFunction hrun ha ho (within_of_leafless rfl)
  · exact callByName hA hrun ho ha

/-! ## Functions of many items -/

theorem within_taken {o : Offer} (h : Within A o) : ∀ v ∈ o.taken, Within A v := by
  obtain ⟨hi, hg, -⟩ := within_offer.mp h
  intro v hv
  rcases List.mem_append.mp hv with hv | hv
  · exact within_list.mp hg v (List.mem_of_mem_take hv)
  · rcases List.mem_cons.mp hv with rfl | hv
    · exact hi
    · exact within_list.mp hg v (List.mem_of_mem_drop hv)

theorem within_ways {o : Offer} (h : Within A o) : ∀ way ∈ o.ways, Within A way := by
  obtain ⟨hi, hg, he⟩ := within_offer.mp h
  have ht := within_taken h
  intro way hway
  simp only [Offer.ways, List.mem_cons, List.not_mem_nil, or_false] at hway
  rcases hway with rfl | rfl | rfl
  · exact within_pair.mpr ⟨within_mutable hi, hg⟩
  · exact within_pair.mpr ⟨within_none, within_list.mpr ht⟩
  · refine within_pair.mpr ⟨within_none, within_list.mpr fun v hv => ?_⟩
    exact (List.mem_append.mp hv).elim (ht v) (within_list.mp he v)

theorem callInSomeWay (hA : Serves A stage) (hrun : RunBuilt A stage run) {name : String}
    {curried : List Value} {pos : Place} (hc : ∀ v ∈ curried, Within A v) :
    ∀ {ways : List (Option Held × List Value)}, (∀ way ∈ ways, Within A way) →
      Built A stage (Lang.callInSomeWay stage run name curried pos ways)
  | [], _ => pure within_value_unit
  | (this, args) :: rest, h => by
    rw [List.forall_mem_cons, within_pair] at h
    unfold Lang.callInSomeWay
    dsimp only
    have call : Built A stage (do
        Eval.valueOf (← Lang.callByName stage run name this (curried ++ args) pos)) :=
      (callByName hA hrun h.1.1 (List.forall_mem_append.mpr ⟨hc, within_list.mp h.1.2⟩)).bind
        fun u hu => valueOf hu
    refine (attempt call).bind fun r hr => ?_
    split
    · exact pure hr
    · split
      · exact callInSomeWay hA hrun hc h.2
      · exact throw hr

theorem acceptOffer (hA : Serves A stage) (hrun : RunBuilt A stage run) {name : String}
    {curried : List Value} {function : Option FnDef} {offer : Offer} {pos : Place}
    (hc : ∀ v ∈ curried, Within A v) (ho : Within A offer) :
    Built A stage (Lang.acceptOffer stage run name curried function offer pos) := by
  unfold Lang.acceptOffer
  dsimp only
  split
  · rename_i f this args heq
    obtain ⟨g, -, hway⟩ := Option.bind_eq_some_iff.mp heq
    obtain ⟨way, hfind, heq⟩ := Option.map_eq_some_iff.mp hway
    cases heq
    have hw := within_pair.mp (within_ways ho _ (List.mem_of_find?_eq_some hfind))
    refine (callFunction hrun (List.forall_mem_append.mpr ⟨hc, within_list.mp hw.2⟩) hw.1
      (within_of_leafless rfl)).bind fun u hu => valueOf hu
  · exact deeper (callInSomeWay hA hrun hc (within_ways ho))

theorem mapOffer (hA : Serves A stage) (hrun : RunBuilt A stage run) {name : String}
    {curried : List Value} {function : Option FnDef} {offer : Offer} {pos : Place}
    (hc : ∀ v ∈ curried, Within A v) (ho : Within A offer) :
    Built A stage (Lang.mapOffer stage run name curried function pos offer) := by
  unfold Lang.mapOffer
  dsimp only
  refine (attempt (deeper (acceptOffer hA hrun hc ho))).bind fun r hr => ?_
  split
  · exact pure hr
  · exact throw hr
  · exact throw hr
  · exact throw hr

theorem within_itemOffers {items : List Value} (h : ∀ v ∈ items, Within A v) :
    ∀ o ∈ items.zipIdx.map fun (v, i) => (⟨v, [], 0, [countValue i]⟩ : Offer), Within A o := by
  intro o ho
  obtain ⟨⟨v, i⟩, hmem, rfl⟩ := List.mem_map.mp ho
  refine within_offer.mpr ⟨h v (List.fst_mem_of_mem_zipIdx hmem), within_of_leafless rfl, ?_⟩
  exact within_of_leafless rfl

theorem within_checkName {name : String} : Within A (checkName name) := by
  unfold checkName
  split
  · split <;> exact within_of_leafless rfl
  all_goals exact within_of_leafless rfl

theorem mapFunction (hA : Serves A stage) (hrun : RunBuilt A stage run) {args : List Value}
    {pos : Place}
    (ha : ∀ v ∈ args, Within A v) {x : Eval Value}
    (h : Lang.mapFunction stage run args pos = some x) : Built A stage x := by
  unfold Lang.mapFunction at h
  split at h <;> cases h
  · rename_i items f curried function
    rw [List.forall_mem_cons, List.forall_mem_cons, within_array, within_fn] at ha
    refine (mapM fun o ho => mapOffer hA hrun ha.2.1 (within_itemOffers ha.1 o ho)).bind ?_
    exact fun vs hvs => pure (within_array.mpr (within_list.mp hvs))
  · rename_i items f
    rw [List.forall_mem_cons, within_array] at ha
    refine (orRaise within_checkName).bind fun _ _ => ?_
    refine (mapM fun o ho => mapOffer hA hrun (List.forall_mem_nil _)
      (within_itemOffers ha.1 o ho)).bind ?_
    exact fun vs hvs => pure (within_array.mpr (within_list.mp hvs))
  · rename_i fields f curried function
    rw [List.forall_mem_cons, List.forall_mem_cons, within_object, within_fn] at ha
    refine bind (mapM fun field hfield => ?_)
      fun vs hvs => pure (within_object.mpr (within_list.mp hvs))
    have hv := (within_pair.mp (ha.1 field hfield)).2
    refine (mapOffer hA hrun ha.2.1 (within_offer.mpr ⟨hv, ?_, ?_⟩)).bind fun u hu => ?_
    · exact within_of_leafless rfl
    · exact within_of_leafless rfl
    · exact pure (within_pair.mpr ⟨within_string _, hu⟩)

theorem callBuiltIn (hA : Serves A stage) (hrun : RunBuilt A stage run) {name : String}
    {constant : Bool} {args : List Value} {pos : Place} (ha : ∀ v ∈ args, Within A v) :
    Built A stage (Lang.callBuiltIn stage run name constant args pos) := by
  unfold Lang.callBuiltIn
  split
  · rename_i x hx
    split at hx
    · refine (mapFunction hA hrun ha hx).bind fun v hv => ?_
      exact pure (within_upshot.mpr ⟨hv, within_none⟩)
    · nomatch hx
  · exact callByType hA ha

/-! ## Methods -/

/-- A method has its object for `this` or for its first argument; what it was given and what a
function value was given before are its arguments. -/
theorem callPlain (hA : Serves A stage) (hrun : RunBuilt A stage run) {object : Held}
    {name : String} {args : List Value} {pos : Place} (ho : Within A object)
    (ha : ∀ v ∈ args, Within A v) :
    Built A stage (Lang.callPlain stage run object name args pos) := by
  refine ensureFree.bind fun _ _ => function?.bind fun f _ => ?_
  split
  · exact callFunction hrun ha (within_some.mpr ho) (within_of_leafless rfl)
  · exact callBuiltIn hA hrun (List.forall_mem_cons.mpr ⟨(within_held.mp ho).1, ha⟩)

theorem callMethod (hA : Serves A stage) (hrun : RunBuilt A stage run) {object : Held}
    {name : String} {args : List Value} {pos : Place} (ho : Within A object)
    (ha : ∀ v ∈ args, Within A v) :
    Built A stage (Lang.callMethod stage run object name args pos) := by
  have hvalue := (within_held.mp ho).1
  unfold Lang.callMethod
  split
  · rename_i f curried function hv
    rw [hv, within_fn] at hvalue
    refine ensureFree.bind fun _ _ => ?_
    have hargs := List.forall_mem_append.mpr ⟨hvalue, ha⟩
    refine (callValue hA hrun within_none hargs).bind fun u hu => ?_
    exact pure (within_upshot.mpr ⟨(within_upshot.mp hu).1, within_none⟩)
  · rename_i f curried function hv
    rw [hv, within_fn] at hvalue
    have hargs := List.forall_mem_append.mpr ⟨hvalue, ha⟩
    exact pure (within_upshot.mpr ⟨within_ok.mpr (within_fn.mpr hargs), within_none⟩)
  · rename_i f curried function args _
    rw [List.forall_mem_cons, within_fn] at ha
    refine ensureFree.bind fun _ _ => ?_
    exact callValue hA hrun (within_some.mpr ho) (List.forall_mem_append.mpr ha)
  · exact raise_leafless rfl
  · exact raise_leafless rfl
  · rename_i fields hv _ _ _
    rw [hv, within_object, ← within_list] at hvalue
    split
    · rename_i f curried function hf
      have hfn := within_fn.mp (within_get? hvalue hf)
      exact callValue hA hrun (within_some.mpr ho) (List.forall_mem_append.mpr ⟨hfn, ha⟩)
    · exact callPlain hA hrun ho ha
  · exact callPlain hA hrun ho ha

/-! ## Function values -/

theorem namedFunction {v : Value} {pos : Place} (hv : Within A v) :
    Built A stage (Lang.namedFunction v pos) := by
  unfold Lang.namedFunction
  split
  · exact (orRaise within_checkName).bind fun _ _ => pure (within_fn.mpr (List.forall_mem_nil _))
  · exact pure hv
  · exact raise_leafless rfl

theorem languageCall (hA : Serves A stage) (hrun : RunBuilt A stage run) {name : String}
    {args : List Value} {pos : Place} (ha : ∀ v ∈ args, Within A v) {x : Eval Value}
    (h : Lang.languageCall stage run name args pos = some x) : Built A stage x := by
  unfold Lang.languageCall at h
  split at h <;> cases h
  · exact namedFunction (ha _ List.mem_cons_self)
  · rw [List.forall_mem_cons, within_fn] at ha
    refine ensureFree.bind fun _ _ => ?_
    have hargs := List.forall_mem_append.mpr ha
    refine (callValue hA hrun within_none hargs).bind fun u hu => ?_
    exact valueOf hu
  · exact raise_leafless rfl
  · rw [List.forall_mem_cons, within_fn] at ha
    exact pure (within_fn.mpr (List.forall_mem_append.mpr ha))
  · exact raise_leafless rfl

end Built
end Stagehand.Lang
