import Stagehand.Proofs.Leaves

/-!
# Functions of their arguments alone

Operators, built-in functions, the way across the boundary and the description of a fault yield data
whose leaves all were leaves of their arguments. Each lemma is stated for whatever the function
yields, a value or a cause, so that callers need no case distinction.
-/

namespace Stagehand.Lang

variable {A : Allowance}

/-! ## Maps -/

section Entries

variable {α : Type} [Leafy α] {key : String} {value : α} {m : List (String × α)}

theorem within_get? (hm : Within A m) (h : Entries.get? key m = some value) : Within A value :=
  (within_pair.mp (within_list.mp hm _ (Entries.mem_of_get? h))).2

theorem within_put (hv : Within A value) (hm : Within A m) : Within A (Entries.put key value m) :=
  within_list.mpr fun e he => by
    rcases Entries.mem_put he with rfl | he
    · exact within_pair.mpr ⟨within_string _, hv⟩
    · exact within_list.mp hm e he

theorem within_ofList (hm : Within A m) : Within A (Entries.ofList m) :=
  within_list.mpr fun e he => within_list.mp hm e (Entries.mem_ofList he)

end Entries

theorem within_getD {o : Option Value} (h : ∀ v, o = some v → Within A v) :
    Within A (o.getD .unit) := by
  cases o with
  | none => exact within_value_unit
  | some v => exact h v rfl

/-! ## Constants -/

mutual

theorem within_ofLiteral : ∀ c : Literal, Within A (Value.ofLiteral c)
  | .array items => within_array.mpr (within_list.mp (within_ofLiterals items))
  | .object fields => within_object.mpr (within_list.mp (within_ofLiteralFields fields))
  | .unit | .bool _ | .int _ | .float _ | .char _ | .str _ | .range _ _ _ => by
    simp [Value.ofLiteral]

theorem within_ofLiterals : ∀ cs : List Literal, Within A (Value.ofLiterals cs)
  | [] => within_of_leafless rfl
  | c :: rest => by
    have hc := within_ofLiteral c
    have hrest := within_list.mp (within_ofLiterals rest)
    simpa [Value.ofLiterals, hc] using hrest

theorem within_ofLiteralFields :
    ∀ fs : List (String × Literal), Within A (Value.ofLiteralFields fs)
  | [] => within_of_leafless rfl
  | (_, c) :: rest => by
    have hc := within_ofLiteral c
    have hrest := within_list.mp (within_ofLiteralFields rest)
    rw [Value.ofLiteralFields, within_list]
    intro f hf
    rcases List.mem_cons.mp hf with rfl | hf
    · exact within_pair.mpr ⟨within_string _, hc⟩
    · exact hrest f hf

end

/-! ## Operators -/

theorem within_noFunction {α : Type} [Leafy α] (name : String) (args : List Value) :
    Within A (noFunction name args : Except Cause α) := within_of_leafless rfl

theorem within_checkedInt (n : Int) (fault : String) : Within A (checkedInt n fault) := by
  unfold checkedInt
  split <;> exact within_of_leafless rfl

theorem within_power (a b : Int64) : Within A (power a b) := by
  unfold power
  iterate 6 (split; · exact within_of_leafless rfl)
  exact within_checkedInt _ _

theorem within_shift (a : Int64) (distance : Int) : Within A (shift a distance) := by
  unfold shift
  iterate 3 (split; · exact within_value_int _)
  exact within_value_int _

theorem within_intOp (op : BinaryOp) (a b : Int64) : Within A (intOp op a b) := by
  cases op with
  | add | sub | mul => exact within_checkedInt _ _
  | div =>
      simp only [intOp]
      split
      · exact within_of_leafless rfl
      · exact within_checkedInt _ _
  | mod =>
      simp only [intOp]
      split <;> exact within_of_leafless rfl
  | pow => exact within_power a b
  | shiftLeft | shiftRight => exact within_shift _ _
  | bitAnd | bitOr | bitXor | range | rangeIncl => exact within_of_leafless rfl
  | eq | ne | lt | le | gt | ge => exact within_of_leafless rfl

theorem within_clockOp (op : BinaryOp) (a b : Int) :
    ∀ v, clockOp op a b = some v → Within A v := by
  intro v h
  cases op <;> simp only [clockOp, compareWith, Option.map_some, Option.map_none, Option.some.injEq,
    reduceCtorEq] at h <;> subst h <;> exact within_of_leafless rfl

theorem within_floatOp (op : BinaryOp) (a b : Float) :
    ∀ v, floatOp op a b = some v → Within A v := by
  intro v h
  cases op <;> simp only [floatOp, Option.some.injEq, reduceCtorEq] at h <;> subst h <;>
    exact within_of_leafless rfl

theorem within_stringOp (op : BinaryOp) (a b : String) :
    ∀ v, stringOp op a b = some v → Within A v := by
  intro v h
  cases op <;> simp only [stringOp, compareWith, Option.map_some, Option.map_none,
    Option.some.injEq, reduceCtorEq] at h <;> subst h <;> exact within_of_leafless rfl

theorem within_boolOp (op : BinaryOp) (a b : Bool) :
    ∀ v, boolOp op a b = some v → Within A v := by
  intro v h
  cases op <;> simp only [boolOp, compareWith, Option.map_some, Option.map_none,
    Option.some.injEq, reduceCtorEq] at h <;> subst h <;> exact within_of_leafless rfl

theorem within_foldl_put {as bs : List (String × Value)} (ha : Within A as) (hb : Within A bs) :
    Within A (bs.foldl (fun m (k, v) => Entries.put k v m) as) :=
  within_list.mpr fun e he => (Entries.mem_foldl_put he).elim (within_list.mp hb e)
    (within_list.mp ha e)

theorem within_except_bind {α β : Type} [Leafy α] [Leafy β] {x : Except Cause α}
    {f : α → Except Cause β} (hx : Within A x) (hf : ∀ a, Within A a → Within A (f a)) :
    Within A (x >>= f) := by
  cases x with
  | ok a => exact hf a hx
  | error cause => exact hx

mutual

theorem within_equal : ∀ a b : Value, Within A (Value.equal a b)
  | a, b => by
    unfold Value.equal
    split
    case h_11 => exact within_equalItems _ _ _ _
    case h_12 => exact within_equalFields _ _ _ _
    all_goals first
      | exact within_of_leafless rfl
      | (split <;> exact within_of_leafless rfl)

theorem within_equalItems : ∀ (n m : Nat) (as bs : List Value),
    Within A (Value.equalItems n m as bs)
  | _, _, [], _ => within_of_leafless rfl
  | _, _, _ :: _, [] => within_of_leafless rfl
  | n, m, a :: as, b :: bs => by
    rw [Value.equalItems]
    split
    · exact within_of_leafless rfl
    · refine within_except_bind (within_equal a b) fun same _ => ?_
      split
      · exact within_equalItems n m as bs
      · exact within_of_leafless rfl

theorem within_equalFields : ∀ (n m : Nat) (as bs : List (String × Value)),
    Within A (Value.equalFields n m as bs)
  | _, _, [], _ => within_of_leafless rfl
  | _, _, _ :: _, [] => within_of_leafless rfl
  | n, m, (_, a) :: as, (_, b) :: bs => by
    rw [Value.equalFields]
    split
    · exact within_of_leafless rfl
    · refine within_except_bind (within_equal a b) fun same _ => ?_
      split
      · exact within_equalFields n m as bs
      · exact within_of_leafless rfl

end

/-- An operator on arrays or objects keeps what they hold; any other makes plain data. -/
theorem within_mixedOp (op : BinaryOp) {a b : Value} (ha : Within A a) (hb : Within A b) :
    Within A (mixedOp op a b) := by
  unfold mixedOp
  split
  case h_5 as bs =>
    rw [within_array] at ha hb
    exact within_array.mpr fun v hv => (List.mem_append.mp hv).elim (ha v) (hb v)
  case h_6 as bs =>
    rw [within_object, ← within_list] at ha hb
    exact within_object.mpr (within_list.mp (within_foldl_put ha hb))
  case h_8 =>
    split
    · exact within_except_bind (within_equal _ _) fun _ _ => within_of_leafless rfl
    · split
      · exact within_noFunction _ _
      · cases op <;> exact within_of_leafless rfl
  all_goals exact within_of_leafless rfl

theorem within_orMixed {result : Option Value} (op : BinaryOp) {a b : Value}
    (hr : ∀ v, result = some v → Within A v) (ha : Within A a) (hb : Within A b) :
    Within A (orMixed result op a b) := by
  cases result with
  | some v => exact hr v rfl
  | none => exact within_mixedOp op ha hb

theorem within_binaryOp (op : BinaryOp) {a b : Value} (ha : Within A a) (hb : Within A b) :
    Within A (op.apply a b) := by
  unfold BinaryOp.apply
  split
  · exact within_intOp op _ _
  · exact within_orMixed op (within_floatOp op _ _) ha hb
  · exact within_orMixed op (within_floatOp op _ _) ha hb
  · exact within_orMixed op (within_floatOp op _ _) ha hb
  · exact within_orMixed op (within_stringOp op _ _) ha hb
  · exact within_orMixed op (within_stringOp op _ _) ha hb
  · refine within_orMixed op (fun v h => ?_) ha hb
    split at h
    · nomatch h
    · exact within_stringOp op _ _ v h
  · refine within_orMixed op (fun v h => ?_) ha hb
    split at h
    · nomatch h
    · exact within_stringOp op _ _ v h
  · exact within_orMixed op (within_boolOp op _ _) ha hb
  · refine within_orMixed op (fun v h => ?_) ha hb
    obtain ⟨_, -, rfl⟩ := Option.map_eq_some_iff.mp h
    exact within_value_bool _
  · exact within_orMixed op (within_clockOp op _ _) ha hb
  · exact within_mixedOp op ha hb

theorem within_assigned (op : BinaryOp) {old value : Value} (ho : Within A old)
    (hv : Within A value) : Within A (op.assigned old value) := by
  unfold BinaryOp.assigned
  split
  · rw [within_array] at ho hv
    exact within_array.mpr fun v h => (List.mem_append.mp h).elim (ho v) (hv v)
  · rw [within_array] at ho
    refine within_array.mpr fun v h => ?_
    rcases List.mem_append.mp h with h | h
    · exact ho v h
    · exact List.mem_singleton.mp h ▸ hv
  · exact within_of_leafless rfl
  · exact within_of_leafless rfl
  · exact within_of_leafless rfl
  · exact within_binaryOp op ho hv

theorem within_unaryOp (op : UnaryOp) (v : Value) : Within A (op.apply v) := by
  unfold UnaryOp.apply
  split
  · exact within_checkedInt _ _
  all_goals exact within_of_leafless rfl

/-! ## Built-in functions -/

theorem within_answer {v : Value} (hv : Within A v) : Within A (answer v) :=
  within_some.mpr (within_ok.mpr (within_yield.mpr ⟨hv, within_none⟩))

theorem within_hasItem (v : Value) : ∀ items : List Value, Within A (hasItem v items)
  | [] => within_of_leafless rfl
  | item :: rest => by
    rw [hasItem]
    refine within_except_bind (within_equal item v) fun same _ => ?_
    split
    · exact within_of_leafless rfl
    · exact within_hasItem v rest

theorem within_containsAnswer (a b : Value) : Within A (containsAnswer a b) := by
  unfold containsAnswer
  split
  · rename_i items
    have h := within_hasItem (A := A) b items
    cases hb : hasItem b items with
    | ok same => exact within_of_leafless rfl
    | error cause => rw [hb] at h; exact h
  all_goals exact within_of_leafless rfl

theorem within_textArray (pieces : List (List Char)) : Within A (textArray pieces) := by
  rw [textArray, within_array]
  intro v hv
  obtain ⟨_, -, rfl⟩ := List.mem_map.mp hv
  exact within_value_str _

theorem within_cutItems {items : List Value} (n : Int64) (h : ∀ v ∈ items, Within A v) :
    Within A (cutAnswer .array items n) := by
  refine within_some.mpr (within_ok.mpr (within_yield.mpr ⟨?_, ?_⟩))
  · exact within_array.mpr fun v hv => h v (List.mem_of_mem_drop hv)
  · exact within_some.mpr (within_array.mpr fun v hv => h v (List.mem_of_mem_take hv))

theorem within_splitAnswer {args : List Value} (h : Within A args) :
    Within A (splitAnswer args) := by
  rw [within_list] at h
  unfold splitAnswer
  split
  case h_4 items n =>
    exact within_cutItems n (within_array.mp (h _ List.mem_cons_self))
  case h_5 bytes n => exact within_of_leafless rfl
  all_goals first
    | exact within_answer (within_textArray _)
    | exact within_of_leafless rfl

theorem within_parseIntAnswer (text : String) (radix : Nat) :
    Within A (parseIntAnswer text radix) := by
  unfold parseIntAnswer
  split <;> exact within_of_leafless rfl

theorem within_wholePart (x : Float) : Within A (wholePart x) := by
  unfold wholePart
  split <;> exact within_of_leafless rfl

theorem within_minAnswer (a b : Value) : Within A (minAnswer a b) := by
  unfold minAnswer
  split <;> exact within_of_leafless rfl

theorem within_pushAnswer {a v : Value} (ha : Within A a) (hv : Within A v) :
    Within A (pushAnswer a v) := by
  unfold pushAnswer
  split
  · refine within_some.mpr (within_ok.mpr (within_yield.mpr ⟨within_value_unit, ?_⟩))
    refine within_some.mpr (within_array.mpr fun u hu => ?_)
    rcases List.mem_append.mp hu with hu | hu
    · exact within_array.mp ha u hu
    · exact List.mem_singleton.mp hu ▸ hv
  all_goals exact within_of_leafless rfl

theorem within_lengthAnswer (v : Value) : Within A (lengthAnswer v) := by
  unfold lengthAnswer
  split <;> exact within_of_leafless rfl

theorem within_absAnswer (v : Value) : Within A (absAnswer v) := by
  unfold absAnswer
  split
  · unfold checkedInt
    split <;> exact within_of_leafless rfl
  all_goals exact within_of_leafless rfl

theorem within_upperAnswer (v : Value) : Within A (upperAnswer v) := by
  unfold upperAnswer
  split
  · exact within_of_leafless rfl
  · split <;> exact within_of_leafless rfl
  · exact within_none

theorem within_radixAnswer (s : String) (radix : Int64) : Within A (radixAnswer s radix) := by
  unfold radixAnswer
  split
  · exact within_parseIntAnswer _ _
  · exact within_of_leafless rfl

theorem within_toIntAnswer (v : Value) : Within A (toIntAnswer v) := by
  unfold toIntAnswer
  split
  · exact within_of_leafless rfl
  · exact within_of_leafless rfl
  · exact within_wholePart _
  · exact within_none

theorem within_collectionNative {name : String} {args : List Value} (h : Within A args) :
    Within A (collectionNative name args) := by
  rw [within_list] at h
  unfold collectionNative
  split
  · exact within_lengthAnswer _
  · rename_i a v
    exact within_pushAnswer (h a List.mem_cons_self) (h v (List.mem_cons_of_mem _ List.mem_cons_self))
  · refine within_answer (within_array.mpr fun v hv => ?_)
    obtain ⟨_, -, rfl⟩ := List.mem_map.mp hv
    exact within_value_str _
  · exact within_containsAnswer _ _
  all_goals exact within_of_leafless rfl

theorem within_textNative {name : String} {args : List Value} (h : Within A args) :
    Within A (textNative name args) := by
  unfold textNative
  split
  · exact within_of_leafless rfl
  · exact within_splitAnswer h
  · exact within_upperAnswer _
  all_goals exact within_of_leafless rfl

theorem within_numberNative (name : String) (args : List Value) :
    Within A (numberNative name args) := by
  unfold numberNative
  split
  · exact within_of_leafless rfl
  · exact within_toIntAnswer _
  · exact within_absAnswer _
  · exact within_minAnswer _ _
  · exact within_parseIntAnswer _ 10
  · exact within_radixAnswer _ _
  · exact within_none

theorem within_or {a b : Answer} (ha : Within A a) (hb : Within A b) : Within A (a.or b) := by
  cases a with
  | none => exact hb
  | some _ => exact ha

/-- What a built-in function yields, its first argument included, holds what its arguments held. -/
theorem within_native {name : String} {args : List Value} (h : Within A args) :
    Within A (native name args) :=
  within_or (within_collectionNative h) (within_or (within_textNative h) (within_numberNative name args))

theorem within_property? {name : String} {v part : Value} (h : property? name v = some part) :
    Within A part := by
  unfold property? at h
  split at h <;> simp only [Option.some.injEq, reduceCtorEq] at h <;> subst h <;>
    exact within_of_leafless rfl

/-! ## Across the boundary -/

mutual

theorem leaves_toScript : ∀ v : HostValue, v.toScript.leaves = v.leaves
  | .list items => by rw [HostValue.toScript, Value.leaves, HostValue.leaves, leaves_toScriptItems]
  | .map entries => by
    rw [HostValue.toScript, Value.leaves, HostValue.leaves, leaves_toScriptEntries]
  | .unit | .bool _ | .int _ | .float _ | .str _ | .handle _ => rfl

theorem leaves_toScriptItems : ∀ vs : List HostValue,
    Value.itemLeaves (HostValue.toScriptItems vs) = HostValue.itemLeaves vs
  | [] => rfl
  | v :: rest => by
    rw [HostValue.toScriptItems, Value.itemLeaves, HostValue.itemLeaves, leaves_toScript v,
      leaves_toScriptItems rest]

theorem leaves_toScriptEntries : ∀ es : List (String × HostValue),
    Value.fieldLeaves (HostValue.toScriptEntries es) = HostValue.entryLeaves es
  | [] => rfl
  | (_, v) :: rest => by
    rw [HostValue.toScriptEntries, Value.fieldLeaves, HostValue.entryLeaves, leaves_toScript v,
      leaves_toScriptEntries rest]

end

theorem within_toScript {v : HostValue} : Within A v.toScript ↔ Within A v := by
  unfold Within
  rw [show Leafy.leaves v.toScript = Leafy.leaves v from leaves_toScript v]

instance : Leafy HostValue.Unsupported := ⟨fun _ => []⟩

mutual

theorem within_ofFlat : ∀ v : Value, Within A v → Within A (HostValue.ofFlat v)
  | .array items, h => by
    have hs := within_ofFlatItems items (within_list.mpr (within_array.mp h))
    rw [HostValue.ofFlat]
    cases hi : HostValue.ofFlatItems items with
    | error e => exact within_of_leafless rfl
    | ok vs =>
        rw [hi] at hs
        exact HostValues.within_list.mpr (within_list.mp (within_ok.mp hs))
  | .object fields, h => by
    have hs := within_ofFlatFields fields (within_list.mpr (within_object.mp h))
    rw [HostValue.ofFlat]
    cases hi : HostValue.ofFlatFields fields with
    | error e => exact within_of_leafless rfl
    | ok vs =>
        rw [hi] at hs
        exact HostValues.within_map.mpr (within_list.mp (within_ok.mp hs))
  | .handle c, h => HostValues.within_handle.mpr (within_handle.mp h)
  | .unit, _ | .bool _, _ | .int _, _ | .float _, _ | .char _, _ | .str _, _ | .blob _, _
  | .range _ _ _, _ | .timestamp _, _ | .fn _ _ _, _ | .shared _, _ => within_of_leafless rfl

theorem within_ofFlatItems :
    ∀ vs : List Value, Within A vs → Within A (HostValue.ofFlatItems vs)
  | [], _ => within_of_leafless rfl
  | v :: rest, h => by
    rw [within_list, List.forall_mem_cons] at h
    have hv := within_ofFlat v h.1
    have hrest := within_ofFlatItems rest (within_list.mpr h.2)
    rw [HostValue.ofFlatItems]
    cases hi : HostValue.ofFlat v with
    | error e => exact within_of_leafless rfl
    | ok u =>
        cases hr : HostValue.ofFlatItems rest with
        | error e => exact within_of_leafless rfl
        | ok us =>
            rw [hi] at hv
            rw [hr] at hrest
            exact within_list.mpr (List.forall_mem_cons.mpr ⟨hv, within_list.mp hrest⟩)

theorem within_ofFlatFields : ∀ fs : List (String × Value),
    Within A fs → Within A (HostValue.ofFlatFields fs)
  | [], _ => within_of_leafless rfl
  | (k, v) :: rest, h => by
    rw [within_list, List.forall_mem_cons] at h
    have hv := within_ofFlat v (within_pair.mp h.1).2
    have hrest := within_ofFlatFields rest (within_list.mpr h.2)
    rw [HostValue.ofFlatFields]
    cases hi : HostValue.ofFlat v with
    | error e => exact within_of_leafless rfl
    | ok u =>
        cases hr : HostValue.ofFlatFields rest with
        | error e => exact within_of_leafless rfl
        | ok us =>
            rw [hi] at hv
            rw [hr] at hrest
            exact within_list.mpr (List.forall_mem_cons.mpr
              ⟨within_pair.mpr ⟨within_string k, hv⟩, within_list.mp hrest⟩)

end

/-! ## Cells -/

/-- What the allowed cells hold is allowed. -/
def Heap.Closed (A : Allowance) (h : Heap) : Prop :=
  ∀ cell held, h[cell]? = some held → A (.cell cell) → Within A held

section Cells

variable {h : Heap} {look : CellId → Value}

theorem within_follow (hh : h.Closed A) :
    ∀ (fuel : Nat) (v : Value), Within A v → Within A (h.follow fuel v)
  | 0, v, hv => by simpa [Heap.follow] using hv
  | fuel + 1, v, hv => by
    cases v with
    | shared cell =>
        rw [Heap.follow]
        split
        · rename_i held hc
          exact within_follow hh fuel _ (within_held.mp (hh cell held hc (within_shared.mp hv))).1
        · exact within_value_unit
    | _ => exact hv

theorem within_flatten (hh : h.Closed A) {v : Value} (hv : Within A v) :
    Within A (h.flatten v) := within_follow hh _ v hv

mutual

theorem within_expandWith (hl : ∀ cell, A (.cell cell) → Within A (look cell)) :
    ∀ v : Value, Within A v → Within A (v.expandWith look)
  | .array items, hv => by
    rw [Value.expandWith, within_array, ← within_list]
    exact within_expandItems hl items (within_list.mpr (within_array.mp hv))
  | .object fields, hv => by
    rw [Value.expandWith, within_object, ← within_list]
    exact within_expandFields hl fields (within_list.mpr (within_object.mp hv))
  | .shared cell, hv => hl cell (within_shared.mp hv)
  | .unit, hv | .bool _, hv | .int _, hv | .float _, hv | .char _, hv | .str _, hv | .blob _, hv
  | .range _ _ _, hv | .timestamp _, hv | .fn _ _ _, hv | .handle _, hv => hv

theorem within_expandItems (hl : ∀ cell, A (.cell cell) → Within A (look cell)) :
    ∀ vs : List Value, Within A vs → Within A (Value.expandItems look vs)
  | [], _ => within_of_leafless rfl
  | v :: rest, h => by
    rw [within_list, List.forall_mem_cons] at h
    exact within_list.mpr (List.forall_mem_cons.mpr ⟨within_expandWith hl v h.1,
      within_list.mp (within_expandItems hl rest (within_list.mpr h.2))⟩)

theorem within_expandFields (hl : ∀ cell, A (.cell cell) → Within A (look cell)) :
    ∀ fs : List (String × Value), Within A fs → Within A (Value.expandFields look fs)
  | [], _ => within_of_leafless rfl
  | (k, v) :: rest, h => by
    rw [within_list, List.forall_mem_cons, within_pair] at h
    exact within_list.mpr (List.forall_mem_cons.mpr
      ⟨within_pair.mpr ⟨within_string k, within_expandWith hl v h.1.2⟩,
        within_list.mp (within_expandFields hl rest (within_list.mpr h.2))⟩)

end

theorem within_expand (hh : h.Closed A) :
    ∀ (depth : Nat) (v : Value), Within A v → Within A (h.expand depth v)
  | 0, v, hv => within_expandWith (fun _ hc => within_shared.mpr hc) v hv
  | depth + 1, v, hv => by
    refine within_expandWith (fun cell hc => ?_) v hv
    split
    · rename_i held heq
      exact within_expand hh depth _ (within_held.mp (hh cell held heq hc)).1
    · exact within_value_unit

theorem within_ofScript (hh : h.Closed A) {v : Value} (hv : Within A v) :
    Within A (HostValue.ofScript h v) := within_ofFlat _ (within_expand hh _ v hv)

end Cells

/-! ## Faults -/

theorem within_causeDetails (cause : Cause) : Within A cause.details := by
  rw [within_list]
  intro e he
  cases cause <;> simp only [Cause.details, List.mem_cons, List.not_mem_nil, or_false] at he
  all_goals first
    | (subst he; exact within_of_leafless rfl)
    | (rcases he with rfl | rfl <;> exact within_of_leafless rfl)

theorem within_details (f : Fault) : Within A f.details := by
  cases f with
  | raised cause _ => exact within_causeDetails cause
  | inCall _ _ _ _ | inModule _ _ _ => exact within_of_leafless rfl

/-- A description is plain data. -/
theorem within_description (source : Option String) (f : Fault) :
    Within A (f.description source) := by
  refine within_ofList (within_list.mpr fun e he => ?_)
  simp only [List.cons_append, List.mem_cons, List.mem_append] at he
  rcases he with rfl | (he | he) | rfl | he
  · exact within_of_leafless rfl
  · split at he <;> simp only [List.mem_cons, List.not_mem_nil, or_false] at he
    subst he
    exact within_of_leafless rfl
  · split at he <;> simp only [List.mem_cons, List.not_mem_nil, or_false] at he
    rcases he with rfl | rfl <;> exact within_of_leafless rfl
  · exact within_of_leafless rfl
  · exact within_list.mp (within_details f) e he

/-- Of what a handler gets, only what was thrown leads on. -/
theorem within_caught {f : Fault} (source : Option String) (hf : Within A f) :
    Within A (f.caught source) := by
  unfold Fault.caught
  split
  · rename_i v hc
    unfold Within at hf
    rw [show Leafy.leaves f = Leafy.leaves f.cause from rfl, hc] at hf
    exact hf
  · exact within_object.mpr (within_list.mp (within_description source f))

/-! ## Libraries -/

theorem Module.mem_of_find? {name : String} {m : Module} :
    ∀ {ms : List (String × Module)}, Module.find? name ms = some m → ∃ entry ∈ ms, entry.2 = m
  | [], h => nomatch h
  | (n, m') :: rest, h => by
    rw [Module.find?] at h
    split at h
    · exact ⟨(n, m'), List.mem_cons_self, Option.some.inj h⟩
    · obtain ⟨entry, hentry, heq⟩ := mem_of_find? h
      exact ⟨entry, List.mem_cons_of_mem _ hentry, heq⟩

theorem within_find? {name : String} {m : Module} {ms : List (String × Module)}
    (hms : Within A ms) (h : Module.find? name ms = some m) : Within A m := by
  obtain ⟨entry, hentry, rfl⟩ := Module.mem_of_find? h
  exact (within_pair.mp (within_list.mp hms entry hentry)).2

theorem within_inner? : ∀ {names : List String} {m inner : Module},
    Within A m → Eval.inner? names m = some inner → Within A inner
  | [], _, _, hm, h => Option.some.inj h ▸ hm
  | _ :: _, _, _, hm, h => by
    obtain ⟨next, hnext, h⟩ := Option.bind_eq_some_iff.mp h
    exact within_inner? (within_find? (within_module.mp hm).2.2 hnext) h

theorem within_library? {path : ModulePath} {imports : List (String × Module)} {root m : Module}
    (hi : Within A imports) (h : Eval.library? path imports = some (root, m)) :
    Within A root ∧ Within A m := by
  -- whichever way the root was found, the rest of the path starts there
  have walk : ∀ {root' : Module}, Within A root' →
      (Eval.inner? path.names.tail root').bind (fun m' => some (root', m')) = some (root, m) →
      Within A root ∧ Within A m := by
    intro root' hr h
    obtain ⟨m', hm, h⟩ := Option.bind_eq_some_iff.mp h
    cases h
    exact ⟨hr, within_inner? hr hm⟩
  unfold Eval.library? at h
  dsimp only at h
  split at h
  · rename_i hb
    obtain ⟨i, -, hmem⟩ := Option.bind_eq_some_iff.mp hb
    exact walk (within_pair.mp (within_list.mp hi _ (List.mem_of_getElem? hmem))).2 h
  · obtain ⟨root', hf, h⟩ := Option.bind_eq_some_iff.mp h
    obtain ⟨name, -, hf⟩ := Option.bind_eq_some_iff.mp hf
    exact walk (within_find? hi hf) h

theorem within_named {m : Module} (text : String) (hm : Within A m) : Within A (m.named text) := by
  cases m
  exact within_module.mpr (within_module.mp hm)

theorem within_exportedVars {vars : List Var} (hv : Within A vars) :
    Within A (exportedVars vars) := by
  rw [within_list] at hv
  have names : ∀ (v : Value) (aliases : List String) (m : List (String × Value)), Within A v →
      Within A m → Within A (aliases.foldl (fun m name => Entries.put name v m) m) := by
    intro v aliases
    induction aliases with
    | nil => exact fun m _ hm => hm
    | cons name rest ih => exact fun m hv hm => ih _ hv (within_put hv hm)
  have all : ∀ (vs : List Var) (m : List (String × Value)), (∀ v ∈ vs, Within A v) → Within A m →
      Within A (vs.foldl (fun done v =>
        v.aliases.foldl (fun m name => Entries.put name v.held.value m) done) m) := by
    intro vs
    induction vs with
    | nil => exact fun m _ hm => hm
    | cons v rest ih =>
        intro m hvs hm
        rw [List.forall_mem_cons] at hvs
        exact ih _ hvs.2 (names _ _ _ (within_held.mp hvs.1).1 hm)
  exact all vars [] hv (within_of_leafless rfl)

/-- A library leads to no more than the frame that its top level ended in. -/
theorem within_moduleOf (script : Script) {f : Frame} (hf : Within A f) :
    Within A (moduleOf script f) := by
  obtain ⟨hvars, -, himports, hconstants, -⟩ := within_frame.mp hf
  refine within_module.mpr ⟨within_exportedVars ?_, ?_, himports⟩
  · exact within_list.mpr fun v hv => within_list.mp hvars v (List.mem_reverse.mp hv)
  · change Within A (f.constants.getD [])
    cases hc : f.constants with
    | none => exact within_of_leafless rfl
    | some cs => exact within_option.mp hconstants cs hc

end Stagehand.Lang
