import Stagehand.Proofs.Renaming

/-!
# Functions of their arguments alone, under other numbers

Operators, built-in functions, the way across the boundary and the description of a fault do not
look at numbers: what they make of arguments with other numbers is what they make of the arguments,
with other numbers in it. No text shows a number.
-/

namespace Stagehand

open Lang

variable {ρ : Renaming}

/-! ## Maps -/

namespace Entries

variable {α : Type} [Renames α]

theorem get?_on (key : String) : ∀ m : List (String × α),
    get? key (m.map ρ.on) = (get? key m).map ρ.on
  | [] => rfl
  | (k, v) :: rest => by
    by_cases hk : k = key
    · simp [get?, hk]
    · simp [get?, hk, get?_on key rest]

theorem put_on (key : String) (value : α) : ∀ m : List (String × α),
    put key (ρ.on value) (m.map ρ.on) = (put key value m).map ρ.on
  | [] => rfl
  | (k, v) :: rest => by
    by_cases hk : k = key
    · simp [put, hk]
    · by_cases hlt : key < k
      · simp [put, hk, hlt]
      · simp [put, hk, hlt, put_on key value rest]

theorem foldl_put_on : ∀ entries m : List (String × α),
    (entries.map ρ.on).foldl (fun m (k, v) => put k v m) (m.map ρ.on) =
      (entries.foldl (fun m (k, v) => put k v m) m).map ρ.on
  | [], _ => rfl
  | (k, v) :: rest, m => by
    simp only [List.map_cons, List.foldl_cons, on_mk, on_string, put_on, foldl_put_on rest]

theorem ofList_on (entries : List (String × α)) :
    ofList (entries.map ρ.on) = (ofList entries).map ρ.on := foldl_put_on entries []

theorem keys_on (m : List (String × α)) : keys (m.map ρ.on) = keys m := by
  simp [keys, Function.comp_def]

end Entries

namespace Lang

/-! ## Texts -/

section Texts

@[simp] theorem kind_on (c : Capability) : (ρ.on c).kind = c.kind := by cases c <;> rfl

@[simp] theorem capability_typePath_on (c : Capability) : (ρ.on c).typePath = c.typePath := by
  cases c <;> rfl

@[simp] theorem typeName_on (v : Value) : (ρ.on v).typeName = v.typeName := by
  cases v with
  | handle c => exact kind_on c
  | _ => rfl

@[simp] theorem typePath_on (v : Value) : (ρ.on v).typePath = v.typePath := by
  cases v with
  | handle c => exact capability_typePath_on c
  | _ => rfl

@[simp] theorem argumentType_on (v : Value) : (ρ.on v).argumentType = v.argumentType := by
  cases v with
  | handle c => exact kind_on c
  | _ => rfl

mutual

theorem dump_on : ∀ v : Value, (ρ.on v).dump = v.dump
  | .array items => by rw [on_value_array, Value.dump, Value.dump, dumpItems_on items]
  | .object fields => by rw [on_value_object, Value.dump, Value.dump, dumpFields_on fields]
  | .fn name [] function => rfl
  | .fn name (v :: rest) function => by
    rw [on_value_fn, List.map_cons, Value.dump, Value.dump, dump_on v, dumpItems_on rest]
  | .handle c => capability_typePath_on c
  | .unit | .bool _ | .int _ | .float _ | .char _ | .str _ | .blob _ | .range _ _ _ | .timestamp _
  | .shared _ => rfl

theorem dumpItems_on : ∀ vs : List Value, Value.dumpItems (vs.map ρ.on) = Value.dumpItems vs
  | [] => rfl
  | v :: rest => by
    rw [List.map_cons, Value.dumpItems, Value.dumpItems, dump_on v, dumpItems_on rest]

theorem dumpFields_on : ∀ fs : List (String × Value),
    Value.dumpFields (fs.map ρ.on) = Value.dumpFields fs
  | [] => rfl
  | (k, v) :: rest => by
    rw [List.map_cons, on_mk, Value.dumpFields, Value.dumpFields, dump_on v, dumpFields_on rest,
      on_string]

end

mutual

theorem debugText_on : ∀ v : Value, (ρ.on v).debugText = v.debugText
  | .array items => by rw [on_value_array, Value.debugText, Value.debugText, debugItems_on items]
  | .object fields => by
    rw [on_value_object, Value.debugText, Value.debugText, debugFields_on fields]
  | .handle c => kind_on c
  | .unit | .bool _ | .int _ | .float _ | .char _ | .str _ | .blob _ | .range _ _ _ | .timestamp _
  | .fn _ _ _ | .shared _ => rfl

theorem debugItems_on : ∀ vs : List Value, Value.debugItems (vs.map ρ.on) = Value.debugItems vs
  | [] => rfl
  | v :: rest => by
    rw [List.map_cons, Value.debugItems, Value.debugItems, debugText_on v, debugItems_on rest]

theorem debugFields_on : ∀ fs : List (String × Value),
    Value.debugFields (fs.map ρ.on) = Value.debugFields fs
  | [] => rfl
  | (k, v) :: rest => by
    rw [List.map_cons, on_mk, Value.debugFields, Value.debugFields, debugText_on v,
      debugFields_on rest, on_string]

end

attribute [simp] dump_on debugText_on

@[simp] theorem display_on (v : Value) : (ρ.on v).display = v.display := by
  cases v with
  | array | object | handle => exact dump_on _
  | _ => rfl

@[simp] theorem text_on (v : Value) : (ρ.on v).text = v.text := by
  cases v with
  | array | object | handle => exact debugText_on _
  | _ => rfl

@[simp] theorem signature_on (name : String) (args : List Value) :
    signature name (args.map ρ.on) = signature name args := by
  simp [signature, Function.comp_def]

theorem noFunction_on {α : Type} [Renames α] (name : String) (args : List Value) :
    (noFunction name (args.map ρ.on) : Except Cause α) = ρ.on (noFunction name args) := by
  rw [noFunction, noFunction, signature_on]
  rfl

end Texts

/-! ## Operators -/

section Operators

@[simp] theorem on_ofLiteral (c : Literal) : ρ.on (Value.ofLiteral c) = .ofLiteral c :=
  on_of_within (within_ofLiteral c)

@[simp] theorem on_intOp (op : BinaryOp) (a b : Int64) : ρ.on (intOp op a b) = intOp op a b :=
  on_of_within (within_intOp op a b)

mutual

theorem equal_on : ∀ a b : Value, (ρ.on a).equal (ρ.on b) = a.equal b
  | .array as, b => by
    cases b with
    | array bs =>
        rw [on_value_array, on_value_array, Value.equal, Value.equal, List.length_map,
          List.length_map, equalItems_on]
    | _ => rfl
  | .object as, b => by
    cases b with
    | object bs =>
        rw [on_value_object, on_value_object, Value.equal, Value.equal, List.length_map,
          List.length_map, equalFields_on]
    | _ => rfl
  | .fn n c f, b => by
    cases b with
    | fn m d g =>
        rw [on_value_fn, on_value_fn, Value.equal, Value.equal, ← on_value_fn, ← on_value_fn]
        exact noFunction_on "==" [.fn n c f, .fn m d g]
    | _ => rfl
  | .handle a, b => by
    cases b with
    | handle b =>
        rw [on_value_handle, on_value_handle, Value.equal, Value.equal, kind_on, kind_on]
        exact ite_congr rfl (fun _ => noFunction_on "==" [.handle a, .handle b]) fun _ => rfl
    | _ => rfl
  | .unit, b | .bool _, b | .int _, b | .float _, b | .char _, b | .str _, b | .blob _, b
  | .range _ _ _, b | .timestamp _, b | .shared _, b => by cases b <;> rfl

theorem equalItems_on (n m : Nat) : ∀ as bs : List Value,
    Value.equalItems n m (as.map ρ.on) (bs.map ρ.on) = Value.equalItems n m as bs
  | [], _ => rfl
  | _ :: _, [] => rfl
  | a :: as, b :: bs => by
    simp only [List.map_cons, Value.equalItems, equal_on a b, equalItems_on n m as bs]

theorem equalFields_on (n m : Nat) : ∀ as bs : List (String × Value),
    Value.equalFields n m (as.map ρ.on) (bs.map ρ.on) = Value.equalFields n m as bs
  | [], _ => rfl
  | _ :: _, [] => rfl
  | (k, a) :: as, (l, b) :: bs => by
    simp only [List.map_cons, on_mk, on_string, Value.equalFields, equal_on a b,
      equalFields_on n m as bs]

end

mutual

theorem same_on : ∀ a b : Value, (ρ.on a).same (ρ.on b) = a.same b
  | .array as, b => by
    cases b with
    | array bs => rw [on_value_array, on_value_array, Value.same, Value.same, sameItems_on]
    | _ => rfl
  | .object as, b => by
    cases b with
    | object bs => rw [on_value_object, on_value_object, Value.same, Value.same, sameFields_on]
    | _ => rfl
  | .unit, b | .bool _, b | .int _, b | .float _, b | .char _, b | .str _, b | .blob _, b
  | .range _ _ _, b | .timestamp _, b | .fn _ _ _, b | .handle _, b | .shared _, b => by
    cases b <;> rfl

theorem sameItems_on : ∀ as bs : List Value,
    Value.sameItems (as.map ρ.on) (bs.map ρ.on) = Value.sameItems as bs
  | [], [] => rfl
  | [], _ :: _ => rfl
  | _ :: _, [] => rfl
  | a :: as, b :: bs => by
    simp only [List.map_cons, Value.sameItems, same_on a b, sameItems_on as bs]

theorem sameFields_on : ∀ as bs : List (String × Value),
    Value.sameFields (as.map ρ.on) (bs.map ρ.on) = Value.sameFields as bs
  | [], [] => rfl
  | [], _ :: _ => rfl
  | _ :: _, [] => rfl
  | (k, a) :: as, (l, b) :: bs => by
    simp only [List.map_cons, on_mk, on_string, Value.sameFields, same_on a b,
      sameFields_on as bs]

end

theorem rangeAccepts_on (first last : Int64) (inclusive : Bool) (v : Value) :
    rangeAccepts first last inclusive (ρ.on v) = rangeAccepts first last inclusive v := by
  cases v with
  | array | object => exact same_on _ (.range first last inclusive)
  | _ => rfl

theorem equatable_on (a b : Value) : (ρ.on a).equatable (ρ.on b) = a.equatable b := by
  cases a <;> cases b <;> rfl

theorem sameType_on (a b : Value) : (ρ.on a).sameType (ρ.on b) = a.sameType b := by
  have names : ((ρ.on a).typeName == (ρ.on b).typeName) = (a.typeName == b.typeName) := by
    rw [typeName_on, typeName_on]
  cases a <;> cases b <;> first | rfl | exact names

/-- The operator has something of its own for these types. -/
def isMixed (op : BinaryOp) (a b : Value) : Bool :=
  op == .add &&
    match a, b with
    | .str _, _ | _, .str _ | .array _, .array _ | .object _, .object _ | .blob _, .blob _ => true
    | _, _ => false

/-- What there is for any types. -/
def plainOp (op : BinaryOp) (a b : Value) : Except Cause Value :=
  if a.equatable b && (op == .eq || op == .ne) then do
    let same ← a.equal b
    return .bool (same == (op == .eq))
  else if a.sameType b then noFunction op.text [a, b]
  else
    match unrelated op with
    | some v => .ok v
    | none => noFunction op.text [a, b]

theorem mixedOp_of_plain {op : BinaryOp} {a b : Value} (h : isMixed op a b = false) :
    mixedOp op a b = plainOp op a b := by
  unfold mixedOp
  split
  case h_4 => cases a <;> exact nomatch h
  case h_8 => rfl
  all_goals exact nomatch h

theorem on_unrelated (op : BinaryOp) : (unrelated op).map ρ.on = unrelated op := by cases op <;> rfl

theorem plainOp_on (op : BinaryOp) (a b : Value) :
    plainOp op (ρ.on a) (ρ.on b) = ρ.on (plainOp op a b) := by
  have hnone : (noFunction op.text [ρ.on a, ρ.on b] : Except Cause Value) =
      ρ.on (noFunction op.text [a, b]) :=
    noFunction_on op.text [a, b]
  unfold plainOp
  rw [equatable_on, sameType_on, equal_on]
  split
  · have hwithin := within_equal (A := cellsOnly) a b
    cases hequal : a.equal b with
    | ok same => rfl
    | error cause =>
        rw [hequal] at hwithin
        exact congrArg Except.error (on_of_within (within_error.mp hwithin)).symm
  · split
    · exact hnone
    · have hsame := on_unrelated (ρ := ρ) op
      cases hu : unrelated op with
      | none => exact hnone
      | some v =>
          rw [hu] at hsame
          exact congrArg Except.ok (Option.some.inj hsame).symm

theorem isMixed_on (op : BinaryOp) (a b : Value) :
    isMixed op (ρ.on a) (ρ.on b) = isMixed op a b := by
  cases a <;> cases b <;> rfl

theorem mixedOp_before {s : String} {v : Value} (h : ∀ bytes, v ≠ .blob bytes) :
    mixedOp .add (.str s) v = .ok (.str (s ++ v.text)) := by
  cases v with
  | blob bytes => exact absurd rfl (h bytes)
  | _ => rfl

theorem mixedOp_behind {s : String} {v : Value} (hblob : ∀ bytes, v ≠ .blob bytes)
    (hstr : ∀ t, v ≠ .str t) : mixedOp .add v (.str s) = .ok (.str (v.text ++ s)) := by
  cases v with
  | blob bytes => exact absurd rfl (hblob bytes)
  | str t => exact absurd rfl (hstr t)
  | _ => rfl

/-- Text in front of any value but bytes. -/
theorem mixedOp_str_on (s : String) (v : Value) :
    mixedOp .add (.str s) (ρ.on v) = ρ.on (mixedOp .add (.str s) v) := by
  by_cases h : ∃ bytes, v = .blob bytes
  · obtain ⟨bytes, rfl⟩ := h
    rfl
  · rw [mixedOp_before fun bytes hv => h ⟨bytes, hv⟩,
      mixedOp_before fun bytes hv => h ⟨bytes, on_eq_blob.mp hv⟩, text_on]
    rfl

/-- Text behind any value but bytes. -/
theorem mixedOp_on_str (v : Value) (s : String) :
    mixedOp .add (ρ.on v) (.str s) = ρ.on (mixedOp .add v (.str s)) := by
  by_cases hblob : ∃ bytes, v = .blob bytes
  · obtain ⟨bytes, rfl⟩ := hblob
    rfl
  · by_cases hstr : ∃ t, v = .str t
    · obtain ⟨t, rfl⟩ := hstr
      rfl
    · rw [mixedOp_behind (fun bytes hv => hblob ⟨bytes, hv⟩) fun t hv => hstr ⟨t, hv⟩,
        mixedOp_behind (fun bytes hv => hblob ⟨bytes, on_eq_blob.mp hv⟩)
          fun t hv => hstr ⟨t, on_eq_str.mp hv⟩, text_on]
      rfl

theorem mixedOp_on (op : BinaryOp) (a b : Value) :
    mixedOp op (ρ.on a) (ρ.on b) = ρ.on (mixedOp op a b) := by
  cases h : isMixed op a b with
  | false => rw [mixedOp_of_plain h, mixedOp_of_plain (isMixed_on op a b ▸ h), plainOp_on]
  | true =>
      obtain ⟨hadd, h⟩ := Bool.and_eq_true_iff.mp h
      obtain rfl := beq_iff_eq.mp hadd
      cases b with
      | str t => exact mixedOp_on_str a t
      | array bs =>
          cases a with
          | str s => exact mixedOp_str_on s _
          | array as =>
              rw [on_value_array, on_value_array, mixedOp, mixedOp, on_ok, on_value_array,
                List.map_append]
          | _ => exact nomatch h
      | object bs =>
          cases a with
          | str s => exact mixedOp_str_on s _
          | object as =>
              rw [on_value_object, on_value_object, mixedOp, mixedOp, Entries.foldl_put_on, on_ok,
                on_value_object]
          | _ => exact nomatch h
      | blob bs =>
          cases a with
          | str s => rfl
          | blob as => rfl
          | _ => exact nomatch h
      | _ =>
          cases a with
          | str s => exact mixedOp_str_on s _
          | _ => exact nomatch h

theorem orMixed_on {result result' : Option Value} (op : BinaryOp) (a b : Value)
    (h : result' = ρ.on result) :
    orMixed result' op (ρ.on a) (ρ.on b) = ρ.on (orMixed result op a b) := by
  subst h
  cases result with
  | some v => rfl
  | none => exact mixedOp_on op a b

theorem on_result {result : Option Value} (h : ∀ v, result = some v → Within cellsOnly v) :
    result = ρ.on result := (on_of_within (within_option.mpr h)).symm

theorem binaryOp_on (op : BinaryOp) (a b : Value) :
    op.apply (ρ.on a) (ρ.on b) = ρ.on (op.apply a b) := by
  fun_cases BinaryOp.apply op a b with
  | case1 x y => exact (on_of_within (within_intOp op x y)).symm
  | case2 | case3 | case4 => exact orMixed_on op _ _ (on_result (within_floatOp op _ _))
  | case5 | case6 => exact orMixed_on op _ _ (on_result (within_stringOp op _ _))
  | case7 | case8 =>
      refine orMixed_on op _ _ ?_
      split
      · rfl
      · exact on_result (within_stringOp op _ _)
  | case9 => exact orMixed_on op _ _ (on_result (within_boolOp op _ _))
  | case10 =>
      refine orMixed_on op _ _ ?_
      cases unrelated op <;> rfl
  | case11 => exact orMixed_on op _ _ (on_result (within_clockOp op _ _))
  | case12 =>
      rw [← mixedOp_on]
      unfold BinaryOp.apply
      split
      case h_12 => rfl
      all_goals grind [on_eq_unit, on_eq_bool, on_eq_int, on_eq_float, on_eq_char, on_eq_str,
        on_eq_timestamp]
/-- What a compound assignment makes of bytes, of an array, and of all else. -/
theorem assigned_on (op : BinaryOp) (old value : Value) :
    op.assigned (ρ.on old) (ρ.on value) = ρ.on (op.assigned old value) := by
  fun_cases BinaryOp.assigned op old value with
  | case1 as bs => simp [BinaryOp.assigned]
  | case2 as v h =>
      rw [on_value_array, BinaryOp.assigned]
      · simp
      · intro bs hbs
        obtain ⟨bs', rfl, -⟩ := on_eq_array.mp hbs
        exact h bs' rfl
  | case3 | case4 | case5 => rfl
  | case6 =>
      rw [← binaryOp_on]
      unfold BinaryOp.assigned
      split
      case h_6 => rfl
      all_goals grind [on_eq_array, on_eq_blob, on_eq_int, on_eq_char, on_eq_str]

theorem unaryOp_on (op : UnaryOp) (v : Value) : op.apply (ρ.on v) = ρ.on (op.apply v) := by
  have hnone : (noFunction op.text [ρ.on v] : Except Cause Value) =
      ρ.on (noFunction op.text [v]) := noFunction_on op.text [v]
  have hplain : ρ.on (op.apply v) = op.apply v := on_of_within (within_unaryOp op v)
  cases v with
  | array | object | fn | handle => cases op <;> exact hnone
  | _ => exact hplain.symm

end Operators

/-! ## Built-in functions -/

section Natives

theorem on_answer (v : Value) : ρ.on (answer v) = answer (ρ.on v) := rfl

theorem on_yield_mk (result : Value) (changed : Option Value) :
    ρ.on (Yield.mk result changed) = ⟨ρ.on result, changed.map ρ.on⟩ := rfl

theorem hasItem_on (v : Value) : ∀ items : List Value,
    hasItem (ρ.on v) (items.map ρ.on) = hasItem v items
  | [] => rfl
  | item :: rest => by simp only [List.map_cons, hasItem, equal_on, hasItem_on v rest]

theorem containsAnswer_on (a b : Value) :
    containsAnswer (ρ.on a) (ρ.on b) = ρ.on (containsAnswer a b) := by
  rw [on_of_within (within_containsAnswer a b)]
  cases a with
  | array items => rw [on_value_array, containsAnswer, containsAnswer, hasItem_on]
  | object fields =>
      cases b with
      | str key =>
          rw [on_value_object, on_value_str, containsAnswer, containsAnswer, Entries.get?_on,
            Option.isSome_map]
      | _ => rfl
  | _ => cases b <;> rfl

theorem minAnswer_on (a b : Value) : minAnswer (ρ.on a) (ρ.on b) = ρ.on (minAnswer a b) := by
  rw [on_of_within (within_minAnswer a b)]
  cases a <;> cases b <;> rfl

theorem pushAnswer_on (a v : Value) : pushAnswer (ρ.on a) (ρ.on v) = ρ.on (pushAnswer a v) := by
  cases a with
  | array items => simp [pushAnswer, on_yield_mk]
  | _ => cases v <;> rfl

theorem lengthAnswer_on (v : Value) : lengthAnswer (ρ.on v) = ρ.on (lengthAnswer v) := by
  rw [on_of_within (within_lengthAnswer v)]
  cases v <;> simp [lengthAnswer]

theorem absAnswer_on (v : Value) : absAnswer (ρ.on v) = ρ.on (absAnswer v) := by
  rw [on_of_within (within_absAnswer v)]
  cases v <;> rfl

theorem upperAnswer_on (v : Value) : upperAnswer (ρ.on v) = ρ.on (upperAnswer v) := by
  rw [on_of_within (within_upperAnswer v)]
  cases v <;> rfl

theorem toIntAnswer_on (v : Value) : toIntAnswer (ρ.on v) = ρ.on (toIntAnswer v) := by
  rw [on_of_within (within_toIntAnswer v)]
  cases v <;> rfl

theorem splitAnswer_on {args : List Value} (h : (splitAnswer args).isSome) :
    splitAnswer (args.map ρ.on) = ρ.on (splitAnswer args) := by
  have texts (pieces : List (List Char)) :
      ρ.on (answer (textArray pieces)) = answer (textArray pieces) :=
    on_of_within (within_answer (within_textArray pieces))
  revert h
  fun_cases splitAnswer args
  case case4 items n => simp [splitAnswer, cutAnswer, on_yield_mk]
  case case1 | case2 | case3 | case5 => exact fun _ => rfl
  case case9 s n place =>
    rw [texts]
    simp [splitAnswer, place]
  case case12 => exact fun h => nomatch h
  all_goals
    rw [texts]
    intro _
    simp_all [splitAnswer]

theorem property?_on (name : String) (v : Value) :
    property? name (ρ.on v) = property? name v := by
  fun_cases property? name v with
  | case1 items => simp [property?]
  | case9 =>
    unfold property?
    split
    case h_9 => rfl
    all_goals grind [on_eq_array, on_eq_str, on_eq_blob, on_eq_range, on_eq_timestamp, on_eq_fn]
  | _ => rfl

variable [ρ.Injective]

theorem collectionNative_on (name : String) (args : List Value) :
    collectionNative name (args.map ρ.on) = ρ.on (collectionNative name args) := by
  refine on_of_isSome (fun ρ args => ?_) args
  fun_cases collectionNative name args with
  | case1 v => exact fun _ => lengthAnswer_on v
  | case2 a v => exact fun _ => pushAnswer_on a v
  | case3 fields =>
      intro _
      rw [on_answer]
      simp [collectionNative, Function.comp_def]
  | case4 a v => exact fun _ => containsAnswer_on a v
  | case5 | case6 | case7 => exact fun _ => rfl
  | case8 => exact fun h => nomatch h

theorem textNative_on (name : String) (args : List Value) :
    textNative name (args.map ρ.on) = ρ.on (textNative name args) := by
  refine on_of_isSome (fun ρ args => ?_) args
  fun_cases textNative name args with
  | case1 v => exact fun _ => congrArg (fun t => answer (.str t)) (typeName_on v)
  | case2 args => exact splitAnswer_on
  | case3 v => exact fun _ => upperAnswer_on v
  | case4 v => exact fun _ => congrArg (fun t => answer (.str t)) (text_on v)
  | case5 v => exact fun _ => congrArg (fun t => answer (.str t)) (debugText_on v)
  | case6 => exact fun h => nomatch h

theorem numberNative_on (name : String) (args : List Value) :
    numberNative name (args.map ρ.on) = ρ.on (numberNative name args) := by
  refine on_of_isSome (fun ρ args => ?_) args
  rw [on_of_within (within_numberNative name args)]
  fun_cases numberNative name args with
  | case1 n => exact fun _ => rfl
  | case2 v => exact fun _ => (toIntAnswer_on v).trans (on_of_within (within_toIntAnswer v))
  | case3 v => exact fun _ => (absAnswer_on v).trans (on_of_within (within_absAnswer v))
  | case4 a b => exact fun _ => (minAnswer_on a b).trans (on_of_within (within_minAnswer a b))
  | case5 s => exact fun _ => rfl
  | case6 s radix => exact fun _ => rfl
  | case7 => exact fun h => nomatch h

theorem native_on (name : String) (args : List Value) :
    native name (args.map ρ.on) = ρ.on (native name args) := by
  rw [native, native, collectionNative_on, textNative_on, numberNative_on]
  cases collectionNative name args with
  | some _ => rfl
  | none => cases textNative name args <;> rfl

end Natives

/-! ## Across the boundary -/

section Boundary

mutual

theorem on_toScript : ∀ v : HostValue, ρ.on v.toScript = (ρ.on v).toScript
  | .list items => by
    rw [HostValues.on_list, HostValue.toScript, HostValue.toScript, on_value_array,
      on_toScriptItems items]
  | .map entries => by
    rw [HostValues.on_map, HostValue.toScript, HostValue.toScript, on_value_object,
      on_toScriptEntries entries]
  | .unit | .bool _ | .int _ | .float _ | .str _ | .handle _ => rfl

theorem on_toScriptItems : ∀ vs : List HostValue,
    (HostValue.toScriptItems vs).map ρ.on = HostValue.toScriptItems (vs.map ρ.on)
  | [] => rfl
  | v :: rest => by
    rw [HostValue.toScriptItems, List.map_cons, List.map_cons, HostValue.toScriptItems,
      on_toScript v, on_toScriptItems rest]

theorem on_toScriptEntries : ∀ es : List (String × HostValue),
    (HostValue.toScriptEntries es).map ρ.on = HostValue.toScriptEntries (es.map ρ.on)
  | [] => rfl
  | (k, v) :: rest => by
    rw [HostValue.toScriptEntries, List.map_cons, List.map_cons, on_mk, on_mk,
      HostValue.toScriptEntries, on_toScript v, on_toScriptEntries rest]

end

instance : Renames HostValue.Unsupported := ⟨fun _ u => u⟩

mutual

theorem ofFlat_on : ∀ v : Value, HostValue.ofFlat (ρ.on v) = ρ.on (HostValue.ofFlat v)
  | .array items => by
    rw [on_value_array, HostValue.ofFlat, HostValue.ofFlat, ofFlatItems_on items]
    cases HostValue.ofFlatItems items with
    | ok vs => exact congrArg Except.ok (HostValues.on_list vs).symm
    | error e => rfl
  | .object fields => by
    rw [on_value_object, HostValue.ofFlat, HostValue.ofFlat, ofFlatFields_on fields]
    cases HostValue.ofFlatFields fields with
    | ok vs => exact congrArg Except.ok (HostValues.on_map vs).symm
    | error e => rfl
  | .unit | .bool _ | .int _ | .float _ | .char _ | .str _ | .handle _ | .blob _
  | .range _ _ false | .range _ _ true | .timestamp _ | .fn _ _ _ | .shared _ => rfl

theorem ofFlatItems_on : ∀ vs : List Value,
    HostValue.ofFlatItems (vs.map ρ.on) = ρ.on (HostValue.ofFlatItems vs)
  | [] => rfl
  | v :: rest => by
    rw [List.map_cons, HostValue.ofFlatItems, HostValue.ofFlatItems, ofFlat_on v,
      ofFlatItems_on rest]
    cases HostValue.ofFlat v with
    | error e => rfl
    | ok u => cases HostValue.ofFlatItems rest <;> rfl

theorem ofFlatFields_on : ∀ fs : List (String × Value),
    HostValue.ofFlatFields (fs.map ρ.on) = ρ.on (HostValue.ofFlatFields fs)
  | [] => rfl
  | (k, v) :: rest => by
    rw [List.map_cons, on_mk, HostValue.ofFlatFields, HostValue.ofFlatFields, ofFlat_on v,
      ofFlatFields_on rest]
    cases HostValue.ofFlat v with
    | error e => rfl
    | ok u => cases HostValue.ofFlatFields rest <;> rfl

end

end Boundary

/-! ## Cells -/

section Cells

variable (h : Heap)

theorem follow_on : ∀ (fuel : Nat) (v : Value),
    Heap.follow (h.map ρ.on) fuel (ρ.on v) = ρ.on (h.follow fuel v)
  | 0, v => by rw [Heap.follow, Heap.follow] <;> (intro _ _ h; cases h)
  | fuel + 1, v => by
    cases v with
    | shared cell =>
        rw [on_value_shared, Heap.follow, Heap.follow, Array.getElem?_map]
        cases h[cell]? with
        | none => rfl
        | some held => exact follow_on fuel held.value
    | _ => rfl

theorem flatten_on (v : Value) : Heap.flatten (h.map ρ.on) (ρ.on v) = ρ.on (h.flatten v) := by
  rw [Heap.flatten, Heap.flatten, Array.size_map, follow_on]

mutual

theorem expandWith_on {look look' : CellId → Value} (hl : ∀ cell, look' cell = ρ.on (look cell)) :
    ∀ v : Value, (ρ.on v).expandWith look' = ρ.on (v.expandWith look)
  | .array items => by
    rw [on_value_array, Value.expandWith, Value.expandWith, on_value_array,
      expandItems_on hl items]
  | .object fields => by
    rw [on_value_object, Value.expandWith, Value.expandWith, on_value_object,
      expandFields_on hl fields]
  | .fn name curried function => by
    rw [on_value_fn, Value.expandWith, Value.expandWith, on_value_fn]
  | .shared cell => hl cell
  | .unit | .bool _ | .int _ | .float _ | .char _ | .str _ | .blob _ | .range _ _ _
  | .timestamp _ | .handle _ => rfl

theorem expandItems_on {look look' : CellId → Value} (hl : ∀ cell, look' cell = ρ.on (look cell)) :
    ∀ vs : List Value, Value.expandItems look' (vs.map ρ.on) = (Value.expandItems look vs).map ρ.on
  | [] => rfl
  | v :: rest => by
    rw [List.map_cons, Value.expandItems, Value.expandItems, List.map_cons, expandWith_on hl v,
      expandItems_on hl rest]

theorem expandFields_on {look look' : CellId → Value} (hl : ∀ cell, look' cell = ρ.on (look cell)) :
    ∀ fs : List (String × Value),
      Value.expandFields look' (fs.map ρ.on) = (Value.expandFields look fs).map ρ.on
  | [] => rfl
  | (k, v) :: rest => by
    rw [List.map_cons, on_mk, Value.expandFields, Value.expandFields, List.map_cons, on_mk,
      expandWith_on hl v, expandFields_on hl rest, on_string]

end

theorem expand_on : ∀ (depth : Nat) (v : Value),
    Heap.expand (h.map ρ.on) depth (ρ.on v) = ρ.on (h.expand depth v)
  | 0, v => expandWith_on (fun cell => (on_value_shared cell).symm) v
  | depth + 1, v => by
    refine expandWith_on (fun cell => ?_) v
    rw [Array.getElem?_map]
    cases h[cell]? with
    | none => rfl
    | some held => exact expand_on depth held.value

theorem ofScript_on (v : Value) :
    HostValue.ofScript (h.map ρ.on) (ρ.on v) = ρ.on (HostValue.ofScript h v) := by
  rw [HostValue.ofScript, HostValue.ofScript, Array.size_map, expand_on, ofFlat_on]

mutual

theorem touches_on (cells : List CellId) : ∀ v : Value, (ρ.on v).touches cells = v.touches cells
  | .fn name curried function => by
    rw [on_value_fn, Value.touches, Value.touches, someTouches_on cells curried]
  | .array _ | .object _ | .handle _ | .unit | .bool _ | .int _ | .float _ | .char _ | .str _
  | .blob _ | .range _ _ _ | .timestamp _ | .shared _ => rfl

theorem someTouches_on (cells : List CellId) : ∀ vs : List Value,
    Value.someTouches cells (vs.map ρ.on) = Value.someTouches cells vs
  | [] => rfl
  | v :: rest => by
    rw [List.map_cons, Value.someTouches, Value.someTouches, touches_on cells v,
      someTouches_on cells rest]

end

theorem field?_on (name : String) (v : Value) : (ρ.on v).field? name = ρ.on (v.field? name) := by
  cases v with
  | object fields => rw [on_value_object, Value.field?, Value.field?, Entries.get?_on]; rfl
  | _ => rfl

theorem itemAt?_on (place : Nat) (v : Value) :
    (ρ.on v).itemAt? place = ρ.on (v.itemAt? place) := by
  cases v with
  | array items => rw [on_value_array, Value.itemAt?, Value.itemAt?, List.getElem?_map]; rfl
  | _ => rfl

end Cells

/-! ## Faults -/

section Faults

theorem thrown_message {v : Value} (h : v ≠ .unit) : (Cause.thrown v).message =
    if v.display = "" then "Runtime error" else "Runtime error: " ++ v.display := by
  cases v with
  | unit => exact absurd rfl h
  | _ => rfl

@[simp] theorem cause_message_on (cause : Cause) : (ρ.on cause).message = cause.message := by
  cases cause with
  | thrown v =>
      by_cases hv : v = .unit
      · rw [hv]
        rfl
      · rw [thrown_message hv, ← display_on (ρ := ρ) v]
        exact thrown_message fun h => hv (on_eq_unit.mp h)
  | _ => rfl

@[simp] theorem cause_kind_on (cause : Cause) : (ρ.on cause).kind = cause.kind := by
  cases cause <;> rfl

@[simp] theorem cause_details_on (cause : Cause) : (ρ.on cause).details = cause.details := by
  cases cause <;> rfl

@[simp] theorem untraced_on : ∀ f : Fault, (ρ.on f).untraced = f.untraced
  | .raised cause pos => by cases cause <;> rfl
  | .inCall .. | .inModule .. => rfl

@[simp] theorem catchable_on (f : Fault) : (ρ.on f).catchable = f.catchable := by
  rw [Fault.catchable, Fault.catchable, untraced_on]

@[simp] theorem place_on (f : Fault) : (ρ.on f).place = f.place := by cases f <;> rfl

theorem on_movedTo (pos : Place) (f : Fault) : ρ.on (f.movedTo pos) = (ρ.on f).movedTo pos := by
  cases f <;> rfl

theorem on_placed (pos : Place) (f : Fault) : ρ.on (f.placed pos) = (ρ.on f).placed pos := by
  rw [Fault.placed, Fault.placed, place_on]
  split
  · exact on_movedTo pos f
  · rfl

@[simp] theorem shownPlace_on (f : Fault) : (ρ.on f).shownPlace = f.shownPlace := by
  cases f with
  | raised cause pos => cases cause <;> rfl
  | _ => rfl

@[simp] theorem fault_text_on : ∀ f : Fault, (ρ.on f).text = f.text
  | .raised cause pos => cause_message_on cause
  | .inCall inner function none pos => by
    rw [on_fault_inCall, Fault.text, Fault.text, fault_text_on inner, shownPlace_on]
  | .inCall inner function (some source) pos => by
    rw [on_fault_inCall, Fault.text, Fault.text, fault_text_on inner, shownPlace_on]
  | .inModule inner path pos => by
    rw [on_fault_inModule, Fault.text, Fault.text, fault_text_on inner, shownPlace_on]

@[simp] theorem fault_message_on (f : Fault) : (ρ.on f).message = f.message := by
  rw [Fault.message, Fault.message, fault_text_on, shownPlace_on]

theorem on_cause : ∀ f : Fault, (ρ.on f).cause = ρ.on f.cause
  | .raised _ _ => rfl
  | .inCall inner _ _ _ | .inModule inner _ _ => on_cause inner

@[simp] theorem fault_kind_on (f : Fault) : (ρ.on f).kind = f.kind := by
  cases f with
  | raised cause pos => exact cause_kind_on cause
  | _ => rfl

@[simp] theorem fault_details_on (f : Fault) : (ρ.on f).details = f.details := by
  cases f with
  | raised cause pos => exact cause_details_on cause
  | _ => rfl

@[simp] theorem description_on (source : Option String) (f : Fault) :
    (ρ.on f).description source = f.description source := by
  simp only [Fault.description, place_on, fault_text_on, fault_kind_on, fault_details_on]

theorem on_caught (source : Option String) (f : Fault) :
    (ρ.on f).caught source = ρ.on (f.caught source) := by
  have hplain : ρ.on (Value.object (f.description source)) = .object (f.description source) :=
    on_of_within (within_object.mpr (within_list.mp (within_description source f)))
  unfold Fault.caught
  rw [on_cause, description_on]
  cases f.cause with
  | thrown v => rfl
  | _ => exact hplain.symm

end Faults

/-! ## Libraries -/

section Libraries

theorem find?_on (name : String) : ∀ ms : List (String × Lang.Module),
    Lang.Module.find? name (ms.map ρ.on) = ρ.on (Lang.Module.find? name ms)
  | [] => rfl
  | (n, m) :: rest => by
    rw [List.map_cons, on_mk, on_string, Lang.Module.find?, Lang.Module.find?, find?_on name rest]
    split <;> rfl

theorem inner?_on : ∀ (names : List String) (m : Lang.Module),
    Eval.inner? names (ρ.on m) = ρ.on (Eval.inner? names m)
  | [], _ => rfl
  | name :: rest, m => by
    rw [Eval.inner?, Eval.inner?, on_module_imports, find?_on]
    cases Lang.Module.find? name m.imports with
    | none => rfl
    | some m' => exact inner?_on rest m'

theorem library?_on (path : ModulePath) (imports : List (String × Lang.Module)) :
    Eval.library? path (imports.map ρ.on) = ρ.on (Eval.library? path imports) := by
  have walk : ∀ root : Module,
      (Eval.inner? path.names.tail (ρ.on root)).bind (fun m => some (ρ.on root, m)) =
        ρ.on ((Eval.inner? path.names.tail root).bind fun m => some (root, m)) := by
    intro root
    rw [inner?_on]
    cases Eval.inner? path.names.tail root <;> rfl
  have back : (path.back.bind fun n => (imports.map ρ.on)[n - 1]?) =
      (path.back.bind fun n => imports[n - 1]?).map ρ.on := by
    cases path.back with
    | none => rfl
    | some n => exact List.getElem?_map
  have front : path.names.head?.bind (Lang.Module.find? · (imports.map ρ.on)) =
      (path.names.head?.bind (Lang.Module.find? · imports)).map ρ.on := by
    cases path.names.head? with
    | none => rfl
    | some name => exact find?_on name imports
  unfold Eval.library?
  dsimp only
  rw [back]
  cases path.back.bind fun n => imports[n - 1]? with
  | some entry => exact walk entry.2
  | none =>
      change (path.names.head?.bind (Lang.Module.find? · (imports.map ρ.on))).bind _ = _
      rw [front]
      cases path.names.head?.bind (Lang.Module.find? · imports) with
      | none => rfl
      | some root => exact walk root

theorem on_named (text : String) (m : Lang.Module) : ρ.on (m.named text) = (ρ.on m).named text := by
  cases m
  simp [Lang.Module.named]

theorem foldl_aliases_on (v : Value) : ∀ (aliases : List String) (m : List (String × Value)),
    aliases.foldl (fun m name => Entries.put name (ρ.on v) m) (m.map ρ.on) =
      (aliases.foldl (fun m name => Entries.put name v m) m).map ρ.on
  | [], _ => rfl
  | name :: rest, m => by
    rw [List.foldl_cons, List.foldl_cons, Entries.put_on, foldl_aliases_on v rest]

theorem foldl_vars_on : ∀ (vs : List Var) (m : List (String × Value)),
    (vs.map ρ.on).foldl (fun done v =>
        v.aliases.foldl (fun m name => Entries.put name v.held.value m) done) (m.map ρ.on) =
      (vs.foldl (fun done v =>
        v.aliases.foldl (fun m name => Entries.put name v.held.value m) done) m).map ρ.on
  | [], _ => rfl
  | v :: rest, m => by
    rw [List.map_cons, List.foldl_cons, List.foldl_cons, on_var_aliases, on_var_held,
      on_held_value, foldl_aliases_on, foldl_vars_on rest]

theorem exportedVars_on (vars : List Var) :
    exportedVars (vars.map ρ.on) = (exportedVars vars).map ρ.on := foldl_vars_on vars []

theorem moduleOf_on (script : Script) (f : Frame) :
    moduleOf script (ρ.on f) = ρ.on (moduleOf script f) := by
  have hconstants : ((ρ.on f).constants.getD []) = (f.constants.getD []).map ρ.on := by
    rw [on_frame_constants]
    cases f.constants <;> rfl
  rw [moduleOf, moduleOf, on_module_mk, hconstants, ← exportedVars_on, on_frame_vars,
    List.map_reverse, on_frame_imports]

end Libraries

end Lang
end Stagehand
