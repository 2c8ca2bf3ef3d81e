import Stagehand.Proofs.KeyOrder
import Stagehand.Proofs.Unwrapping

/-!
# What converts, to what, and what is refused

`HostValue.ofScript` succeeds if every value inside the value, out of its cells, is of a kind the
host has; the host then has the value with characters as texts, and no more than that is lost. If it
fails, it names the type of the first value without a counterpart, depth first. The conversion walks
the items and the fields in their order and stops at the first refusal, so before the place that it
stops at there are only values that convert (`Reading`), and the place is the least.
-/

namespace Stagehand.Lang

/-! ## Positions in a value -/

/-- A step into an array or into an object. -/
inductive Key where
  | item (place : Nat)
  | field (name : String)
  deriving DecidableEq

/-- Items come by place and fields by ascending key. -/
inductive Key.Before : Key → Key → Prop
  | item {m n : Nat} (h : m < n) : Before (.item m) (.item n)
  | field {a b : String} (h : a < b) : Before (.field a) (.field b)

namespace Value

/-- The part of a value that one step leads to. -/
def part? : Key → Value → Option Value
  | .item n, v => v.itemAt? n
  | .field k, v => v.field? k

/-- The value at a position, which is the steps that lead to it. -/
def at? : List Key → Value → Option Value
  | [], v => some v
  | k :: rest, v => (v.part? k).bind (at? rest)

/-- The host has values of this kind, whatever is inside. -/
def supported : Value → Bool
  | .unit | .bool _ | .int _ | .float _ | .char _ | .str _ => true
  | .array _ | .object _ | .handle _ => true
  | .blob _ | .range _ _ _ | .timestamp _ | .fn _ _ _ | .shared _ => false

/-- Every value inside is of a kind that the host has. -/
def Supported (u : Value) : Prop := ∀ p x, u.at? p = some x → x.supported = true

/-- At the position is a value of a kind that the host has not, and there is none before it: the
position of a value is before those in the value, and otherwise the first step in which they differ
decides. -/
structure Refused (u : Value) (p : List Key) (x : Value) : Prop where
  here : u.at? p = some x
  unsupported : x.supported = false
  least : ∀ q y, u.at? q = some y → y.supported = false → q = p ∨ List.Lex Key.Before p q

mutual

/-- The fields of every object inside are by ascending key, as a script makes them. -/
def ordered : Value → Bool
  | .array items => orderedItems items
  | .object fields => decide (fields.Pairwise fun e f => e.1 < f.1) && orderedFields fields
  | _ => true

/-- The same for the items of an array. -/
def orderedItems : List Value → Bool
  | [] => true
  | v :: rest => v.ordered && orderedItems rest

/-- The same for the fields of an object. -/
def orderedFields : List (String × Value) → Bool
  | [] => true
  | (_, v) :: rest => v.ordered && orderedFields rest

end

mutual

/-- The value with every character in it as a text of one letter. -/
def normal : Value → Value
  | .char c => .str c.toString
  | .array items => .array (normalItems items)
  | .object fields => .object (normalFields fields)
  | v => v

/-- The items of an array, characters as texts. -/
def normalItems : List Value → List Value
  | [] => []
  | v :: rest => v.normal :: normalItems rest

/-- The fields of an object, characters as texts. -/
def normalFields : List (String × Value) → List (String × Value)
  | [] => []
  | (k, v) :: rest => (k, v.normal) :: normalFields rest

end

/-! ## Collections and what is in them -/

theorem at?_array {items : List Value} {p : List Key} {x : Value}
    (h : (Value.array items).at? p = some x) :
    p = [] ∧ x = .array items ∨
      ∃ n v q, p = .item n :: q ∧ items[n]? = some v ∧ v.at? q = some x := by
  cases p with
  | nil => exact .inl ⟨rfl, (Option.some.inj h).symm⟩
  | cons k q =>
    cases k with
    | field k => simp [at?, part?, field?] at h
    | item n =>
      obtain ⟨v, hv, hq⟩ := Option.bind_eq_some_iff.mp h
      exact .inr ⟨n, v, q, rfl, hv, hq⟩

theorem at?_object {fields : List (String × Value)} {p : List Key} {x : Value}
    (h : (Value.object fields).at? p = some x) :
    p = [] ∧ x = .object fields ∨
      ∃ k v q, p = .field k :: q ∧ Entries.get? k fields = some v ∧ v.at? q = some x := by
  cases p with
  | nil => exact .inl ⟨rfl, (Option.some.inj h).symm⟩
  | cons k q =>
    cases k with
    | item n => simp [at?, part?, itemAt?] at h
    | field k =>
      obtain ⟨v, hv, hq⟩ := Option.bind_eq_some_iff.mp h
      exact .inr ⟨k, v, q, rfl, hv, hq⟩

theorem supported_array {items : List Value} (h : ∀ v ∈ items, v.Supported) :
    (Value.array items).Supported := by
  intro p x hx
  rcases at?_array hx with ⟨-, rfl⟩ | ⟨n, v, q, rfl, hv, hq⟩
  · rfl
  · exact h v (List.mem_of_getElem? hv) q x hq

theorem supported_object {fields : List (String × Value)} (h : ∀ e ∈ fields, e.2.Supported) :
    (Value.object fields).Supported := by
  intro p x hx
  rcases at?_object hx with ⟨-, rfl⟩ | ⟨k, v, q, rfl, hv, hq⟩
  · rfl
  · exact h (k, v) (Entries.mem_of_get? hv) q x hq

/-- The first item that is refused, if those before it convert, is what the array is refused for. -/
theorem Refused.array {before after : List Value} {v x : Value} {p : List Key}
    (hbefore : ∀ u ∈ before, u.Supported) (hv : v.Refused p x) :
    (Value.array (before ++ v :: after)).Refused (.item before.length :: p) x where
  here := by
    have hitem : (before ++ v :: after)[before.length]? = some v := by simp
    simp only [at?, part?, itemAt?, hitem, Option.bind_some, hv.here]
  unsupported := hv.unsupported
  least := by
    intro q y hy hno
    rcases at?_array hy with ⟨-, rfl⟩ | ⟨n, u, q, rfl, hu, hq⟩
    · exact absurd hno (by simp [supported])
    rcases lt_trichotomy n before.length with hlt | rfl | hgt
    · rw [List.getElem?_append_left hlt] at hu
      exact absurd (hbefore u (List.mem_of_getElem? hu) q y hq) (by simp [hno])
    · have huv : v = u := by simpa using hu
      subst huv
      rcases hv.least q y hq hno with rfl | hlex
      · exact .inl rfl
      · exact .inr (.cons hlex)
    · exact .inr (.rel (.item hgt))

/-- The first field that is refused, if those before it convert, is what the object is refused
for. -/
theorem Refused.object {before after : List (String × Value)} {k : String} {v x : Value}
    {p : List Key} (hord : Entries.Ordered (before ++ (k, v) :: after))
    (hbefore : ∀ e ∈ before, e.2.Supported) (hv : v.Refused p x) :
    (Value.object (before ++ (k, v) :: after)).Refused (.field k :: p) x where
  here := by
    have hfield : Entries.get? k (before ++ (k, v) :: after) = some v :=
      Entries.get?_of_mem hord (by simp)
    simp only [at?, part?, field?, hfield, Option.bind_some, hv.here]
  unsupported := hv.unsupported
  least := by
    intro q y hy hno
    rcases at?_object hy with ⟨-, rfl⟩ | ⟨l, u, q, rfl, hu, hq⟩
    · exact absurd hno (by simp [supported])
    rcases List.mem_append.mp (Entries.mem_of_get? hu) with hmem | hmem
    · exact absurd (hbefore (l, u) hmem q y hq) (by simp [hno])
    rcases List.mem_cons.mp hmem with heq | hmem
    · cases heq
      rcases hv.least q y hq hno with rfl | hlex
      · exact .inl rfl
      · exact .inr (.cons hlex)
    · have hafter := (List.pairwise_cons.mp (List.pairwise_append.mp hord).2.1).1
      exact .inr (.rel (.field (hafter (l, u) hmem)))

end Value
end Stagehand.Lang

namespace Stagehand.HostValue

open Lang

/-! ## What a conversion says -/

/-- What the result of a conversion says of the value. -/
def Reading (u : Value) : Except Unsupported HostValue → Prop
  | .ok v => u.Supported ∧ v.toScript = u.normal
  | .error e => ∃ p x, u.Refused p x ∧ e.typeName = x.typePath

/-- What the result of converting items says of them. -/
def ReadingItems (us : List Value) : Except Unsupported (List HostValue) → Prop
  | .ok vs => (∀ u ∈ us, u.Supported) ∧ toScriptItems vs = Value.normalItems us
  | .error e => ∃ before u after, us = before ++ u :: after ∧ (∀ b ∈ before, b.Supported) ∧
      Reading u (.error e)

/-- What the result of converting fields says of them. -/
def ReadingFields (us : List (String × Value)) :
    Except Unsupported (List (String × HostValue)) → Prop
  | .ok vs => (∀ e ∈ us, e.2.Supported) ∧ toScriptEntries vs = Value.normalFields us
  | .error e => ∃ before k u after, us = before ++ (k, u) :: after ∧
      (∀ b ∈ before, b.2.Supported) ∧ Reading u (.error e)

/-- What has no parts is supported by its kind. -/
theorem reading_leaf {u : Value} {v : HostValue} (hparts : ∀ k, u.part? k = none)
    (hu : u.supported = true) (hv : v.toScript = u.normal) : Reading u (.ok v) := by
  refine ⟨fun p x hx => ?_, hv⟩
  cases p with
  | nil => exact Option.some.inj hx ▸ hu
  | cons k q => simp [Value.at?, hparts] at hx

/-- A value that is refused for its kind is the first in it that is. -/
theorem reading_refused {u : Value} (hu : u.supported = false) :
    Reading u (.error ⟨u.typePath⟩) := by
  refine ⟨[], u, ⟨rfl, hu, fun q y _ _ => ?_⟩, rfl⟩
  cases q with
  | nil => exact .inl rfl
  | cons k q => exact .inr .nil

mutual

theorem reading_ofFlat : ∀ u : Value, u.ordered = true → Reading u (ofFlat u)
  | .unit, _ | .bool _, _ | .int _, _ | .float _, _ | .char _, _ | .str _, _ | .handle _, _ =>
    reading_leaf (fun k => by cases k <;> rfl) rfl rfl
  | .blob _, _ | .range _ _ _, _ | .timestamp _, _ | .fn _ _ _, _ | .shared _, _ =>
    reading_refused rfl
  | .array items, hu => by
    have hitems := reading_ofFlatItems items hu
    rw [ofFlat]
    cases hr : ofFlatItems items with
    | ok vs =>
      rw [hr] at hitems
      exact ⟨Value.supported_array hitems.1, congrArg Value.array hitems.2⟩
    | error e =>
      rw [hr] at hitems
      obtain ⟨before, v, after, rfl, hbefore, p, x, hv, hx⟩ := hitems
      exact ⟨_, x, hv.array hbefore, hx⟩
  | .object fields, hu => by
    rw [Value.ordered, Bool.and_eq_true, decide_eq_true_eq] at hu
    have hfields := reading_ofFlatFields fields hu.2
    rw [ofFlat]
    cases hr : ofFlatFields fields with
    | ok vs =>
      rw [hr] at hfields
      exact ⟨Value.supported_object hfields.1, congrArg Value.object hfields.2⟩
    | error e =>
      rw [hr] at hfields
      obtain ⟨before, k, v, after, rfl, hbefore, p, x, hv, hx⟩ := hfields
      exact ⟨_, x, hv.object hu.1 hbefore, hx⟩

theorem reading_ofFlatItems :
    ∀ us : List Value, Value.orderedItems us = true → ReadingItems us (ofFlatItems us)
  | [], _ => ⟨List.forall_mem_nil _, rfl⟩
  | u :: rest, hus => by
    rw [Value.orderedItems, Bool.and_eq_true] at hus
    have hhead := reading_ofFlat u hus.1
    have hrest := reading_ofFlatItems rest hus.2
    rw [ofFlatItems]
    cases hr : ofFlat u with
    | error e =>
      rw [hr] at hhead
      exact ⟨[], u, rest, rfl, List.forall_mem_nil _, hhead⟩
    | ok v =>
      rw [hr] at hhead
      cases hrs : ofFlatItems rest with
      | error e =>
        rw [hrs] at hrest
        obtain ⟨before, x, after, rfl, hbefore, hx⟩ := hrest
        exact ⟨u :: before, x, after, rfl, List.forall_mem_cons.mpr ⟨hhead.1, hbefore⟩, hx⟩
      | ok vs =>
        rw [hrs] at hrest
        refine ⟨List.forall_mem_cons.mpr ⟨hhead.1, hrest.1⟩, ?_⟩
        rw [toScriptItems, Value.normalItems, hhead.2, hrest.2]

theorem reading_ofFlatFields :
    ∀ us : List (String × Value), Value.orderedFields us = true →
      ReadingFields us (ofFlatFields us)
  | [], _ => ⟨List.forall_mem_nil _, rfl⟩
  | (k, u) :: rest, hus => by
    rw [Value.orderedFields, Bool.and_eq_true] at hus
    have hhead := reading_ofFlat u hus.1
    have hrest := reading_ofFlatFields rest hus.2
    rw [ofFlatFields]
    cases hr : ofFlat u with
    | error e =>
      rw [hr] at hhead
      exact ⟨[], k, u, rest, rfl, List.forall_mem_nil _, hhead⟩
    | ok v =>
      rw [hr] at hhead
      cases hrs : ofFlatFields rest with
      | error e =>
        rw [hrs] at hrest
        obtain ⟨before, l, x, after, rfl, hbefore, hx⟩ := hrest
        exact ⟨(k, u) :: before, l, x, after, rfl, List.forall_mem_cons.mpr ⟨hhead.1, hbefore⟩, hx⟩
      | ok vs =>
        rw [hrs] at hrest
        refine ⟨List.forall_mem_cons.mpr ⟨hhead.1, hrest.1⟩, ?_⟩
        rw [toScriptEntries, Value.normalFields, hhead.2, hrest.2]

end

/-! ## What is inside, through the cells -/

/-- What is in a value, through the cells at every level. -/
inductive Contains (h : Heap) : Value → Value → Prop
  | here (v : Value) : Contains h v v
  | cell {c : CellId} {held : Held} {x : Value} (found : h[c]? = some held)
      (inside : Contains h held.value x) : Contains h (.shared c) x
  | item {items : List Value} {v x : Value} (hv : v ∈ items) (inside : Contains h v x) :
      Contains h (.array items) x
  | field {fields : List (String × Value)} {k : String} {v x : Value} (hv : (k, v) ∈ fields)
      (inside : Contains h v x) : Contains h (.object fields) x

theorem ofFlat_array_ok {items : List Value} {u : HostValue} (h : ofFlat (.array items) = .ok u) :
    ∃ us, ofFlatItems items = .ok us ∧ u = .list us := by
  rw [ofFlat] at h
  cases hr : ofFlatItems items with
  | error e =>
    rw [hr] at h
    nomatch h
  | ok us =>
    rw [hr] at h
    cases h
    exact ⟨us, rfl, rfl⟩

theorem ofFlat_object_ok {fields : List (String × Value)} {u : HostValue}
    (h : ofFlat (.object fields) = .ok u) : ∃ es, ofFlatFields fields = .ok es ∧ u = .map es := by
  rw [ofFlat] at h
  cases hr : ofFlatFields fields with
  | error e =>
    rw [hr] at h
    nomatch h
  | ok es =>
    rw [hr] at h
    cases h
    exact ⟨es, rfl, rfl⟩

theorem ofFlatItems_ok {v : Value} {rest : List Value} {us : List HostValue}
    (h : ofFlatItems (v :: rest) = .ok us) :
    ∃ u us', ofFlat v = .ok u ∧ ofFlatItems rest = .ok us' ∧ us = u :: us' := by
  rw [ofFlatItems] at h
  cases hv : ofFlat v with
  | error e =>
    rw [hv] at h
    nomatch h
  | ok u =>
    cases hr : ofFlatItems rest with
    | error e =>
      rw [hv, hr] at h
      nomatch h
    | ok us' =>
      rw [hv, hr] at h
      cases h
      exact ⟨u, us', rfl, rfl, rfl⟩

theorem ofFlatFields_ok {k : String} {v : Value} {rest : List (String × Value)}
    {es : List (String × HostValue)} (h : ofFlatFields ((k, v) :: rest) = .ok es) :
    ∃ u es', ofFlat v = .ok u ∧ ofFlatFields rest = .ok es' ∧ es = (k, u) :: es' := by
  rw [ofFlatFields] at h
  cases hv : ofFlat v with
  | error e =>
    rw [hv] at h
    nomatch h
  | ok u =>
    cases hr : ofFlatFields rest with
    | error e =>
      rw [hv, hr] at h
      nomatch h
    | ok es' =>
      rw [hv, hr] at h
      cases h
      exact ⟨u, es', rfl, rfl, rfl⟩

theorem ofFlatItems_mem {look : CellId → Value} {v : Value} :
    ∀ {items : List Value} {us : List HostValue},
      ofFlatItems (Value.expandItems look items) = .ok us → v ∈ items →
      ∃ u, ofFlat (v.expandWith look) = .ok u
  | head :: rest, us, h, hv => by
    obtain ⟨u, us', hhead, hrest, -⟩ := ofFlatItems_ok h
    rcases List.mem_cons.mp hv with rfl | hv
    · exact ⟨u, hhead⟩
    · exact ofFlatItems_mem hrest hv

theorem ofFlatFields_mem {look : CellId → Value} {k : String} {v : Value} :
    ∀ {fields : List (String × Value)} {es : List (String × HostValue)},
      ofFlatFields (Value.expandFields look fields) = .ok es → (k, v) ∈ fields →
      ∃ u, ofFlat (v.expandWith look) = .ok u
  | (l, x) :: rest, es, h, hv => by
    obtain ⟨u, es', hhead, hrest, -⟩ := ofFlatFields_ok h
    rcases List.mem_cons.mp hv with heq | hv
    · cases heq
      exact ⟨u, hhead⟩
    · exact ofFlatFields_mem hrest hv

/-- If a value converts, so does all that is in it; the depth left for cells may be less. -/
theorem Contains.converts {h : Heap} {v x : Value} (hx : Contains h v x) :
    ∀ {n : Nat} {u : HostValue}, ofFlat (h.expand n v) = .ok u →
      ∃ m y, ofFlat (h.expand m x) = .ok y := by
  induction hx with
  | here v => exact fun {n u} hu => ⟨n, u, hu⟩
  | cell found _ ih =>
    intro n u hu
    cases n with
    | zero => nomatch hu
    | succ n =>
      rw [Heap.expand, Value.expandWith, found] at hu
      exact ih hu
  | item hv _ ih =>
    intro n u hu
    obtain ⟨look, hlook⟩ := h.expand_eq n
    rw [hlook] at hu
    obtain ⟨us, hus, -⟩ := ofFlat_array_ok hu
    obtain ⟨y, hy⟩ := ofFlatItems_mem hus hv
    rw [← hlook] at hy
    exact ih hy
  | field hv _ ih =>
    intro n u hu
    obtain ⟨look, hlook⟩ := h.expand_eq n
    rw [hlook] at hu
    obtain ⟨es, hes, -⟩ := ofFlat_object_ok hu
    obtain ⟨y, hy⟩ := ofFlatFields_mem hes hv
    rw [← hlook] at hy
    exact ih hy

/-- A value that has a value of no kind of the host in it does not convert. -/
theorem Contains.refused {h : Heap} {v x : Value} (hx : Contains h v x) (hw : x.whole = true)
    (hs : x.supported = false) : ∃ e, ofScript h v = .error e := by
  cases hr : ofScript h v with
  | error e => exact ⟨e, rfl⟩
  | ok u =>
    obtain ⟨n, y, hy⟩ := hx.converts hr
    obtain ⟨look, hlook⟩ := h.expand_eq n
    rw [hlook] at hy
    cases x with
    | blob | range | timestamp | fn => nomatch hy
    | array | object | shared => exact absurd hw (by simp [Value.whole])
    | unit | bool | int | float | char | str | handle => exact absurd hs (by simp [Value.supported])

/-! ## The law -/

/-- What converting a value does, told by the value out of its cells. -/
structure ConversionLaw (h : Heap) (d u : Value) : Prop where
  /-- It succeeds if and only if every value inside is of a kind that the host has. -/
  succeeds : (∃ v, ofScript h d = .ok v) ↔ u.Supported
  /-- The way back gives the value out of its cells, with characters as texts. -/
  back : ∀ v, ofScript h d = .ok v → v.toScript = u.normal
  /-- To convert that again gives what the first time gave. -/
  again : ∀ v, ofScript h d = .ok v → ∀ h', ofScript h' v.toScript = .ok v
  /-- A failure names the type of the first value that the host has no counterpart for. -/
  refused : ∀ e, ofScript h d = .error e → ∃ p x, u.Refused p x ∧ e.typeName = x.typePath

/-- The conversion of every value of a script, with cells in it at any depth, is told by what the
value is without the cells. -/
theorem conversion_exact (h : Heap) (d u : Value) (hu : Unwraps h d u) (hord : u.ordered = true) :
    ConversionLaw h d u := by
  have hread : Reading u (ofScript h d) := by
    rw [ofScript, hu.expand]
    exact reading_ofFlat u hord
  refine ⟨⟨?_, fun hsupported => ?_⟩, ?_, fun v _ h' => ofScript_toScript h' v, ?_⟩
  · rintro ⟨v, hv⟩
    rw [hv] at hread
    exact hread.1
  · cases hr : ofScript h d with
    | ok v => exact ⟨v, rfl⟩
    | error e =>
      rw [hr] at hread
      obtain ⟨p, x, hx, -⟩ := hread
      exact absurd (hsupported p x hx.here) (by simp [hx.unsupported])
  · intro v hv
    rw [hv] at hread
    exact hread.2
  · intro e he
    rw [he] at hread
    exact hread

/-- A cell with an array, and in the array another cell, with bytes. -/
def nestedHeap : Heap := #[{ value := .array [.char 'x', .shared 1] }, { value := .blob [7] }]

/-- An object with the first cell, and after it a reading of the clock. -/
def nestedValue : Value := .object [("a", .shared 0), ("b", .timestamp 3)]

/-- The object out of its cells. -/
def nestedPlain : Value := .object [("a", .array [.char 'x', .blob [7]]), ("b", .timestamp 3)]

/-- The object is refused for the bytes, which come first, and the array's letter is a text. -/
theorem conversion_exact_nested :
    Unwraps nestedHeap nestedValue nestedPlain ∧ nestedPlain.ordered = true ∧
      ConversionLaw nestedHeap nestedValue nestedPlain ∧
      ofScript nestedHeap nestedValue = .error ⟨"blob"⟩ ∧
      ofScript #[{ value := .char 'x' }] (.array [.shared 0]) = .ok (.list [.str "x"]) := by
  have hunwraps : Unwraps nestedHeap nestedValue nestedPlain :=
    .object (.cons (.cell rfl (.array (.cons (.whole rfl) (.cons (.cell rfl (.whole rfl)) .nil))))
      (.cons (.whole rfl) .nil))
  have hordered : nestedPlain.ordered = true := by decide +kernel
  exact ⟨hunwraps, hordered,
    conversion_exact nestedHeap nestedValue nestedPlain hunwraps hordered, rfl, rfl⟩

end Stagehand.HostValue
