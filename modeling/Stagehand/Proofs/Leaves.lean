import Stagehand.Instance

/-!
# What data leads to

All that a script can get at beyond plain data hangs on the leaves of its values: references of the
host and shared cells. A set of leaves is an allowance; data is within it if all its leaves are.
Nothing a script computes has a leaf that its operands did not have, so what starts within an
allowance stays there. The facts about functions that depend on their arguments alone are stated
here, one for each; what runs add to this is in `Stagehand.Proofs.Moves`.
-/

namespace Stagehand.Lang

/-- What data can lead to. -/
inductive Leaf where
  | handle (c : Capability)
  | cell (c : CellId)

/-- A set of leaves. -/
abbrev Allowance := Leaf → Prop

mutual

/-- The leaves of a value. A function value leads to what it was given. -/
def Value.leaves : Value → List Leaf
  | .array items => Value.itemLeaves items
  | .object fields => Value.fieldLeaves fields
  | .fn _ curried _ => Value.itemLeaves curried
  | .handle c => [.handle c]
  | .shared cell => [.cell cell]
  | .unit | .bool _ | .int _ | .float _ | .char _ | .str _ | .blob _ | .range .. | .timestamp _ =>
    []

/-- The leaves of some values. -/
def Value.itemLeaves : List Value → List Leaf
  | [] => []
  | v :: rest => v.leaves ++ Value.itemLeaves rest

/-- The leaves of fields. -/
def Value.fieldLeaves : List (String × Value) → List Leaf
  | [] => []
  | (_, v) :: rest => v.leaves ++ Value.fieldLeaves rest

end

mutual

/-- The leaves of a library. -/
def Module.leaves : Module → List Leaf
  | .mk _ vars _ constants imports =>
    Value.fieldLeaves vars ++ Value.fieldLeaves constants ++ Module.importLeaves imports

/-- The leaves of libraries. -/
def Module.importLeaves : List (String × Module) → List Leaf
  | [] => []
  | (_, m) :: rest => m.leaves ++ Module.importLeaves rest

end

end Stagehand.Lang

namespace Stagehand.HostValue

open Lang

mutual

/-- The leaves of a value of the host, all of them references. -/
def leaves : HostValue → List Leaf
  | .list items => itemLeaves items
  | .map entries => entryLeaves entries
  | .handle c => [.handle c]
  | .unit | .bool _ | .int _ | .float _ | .str _ => []

/-- The leaves of the items of a list. -/
def itemLeaves : List HostValue → List Leaf
  | [] => []
  | v :: rest => v.leaves ++ itemLeaves rest

/-- The leaves of the entries of a map. -/
def entryLeaves : List (String × HostValue) → List Leaf
  | [] => []
  | (_, v) :: rest => v.leaves ++ entryLeaves rest

end

end Stagehand.HostValue

namespace Stagehand.Lang

/-- Data that can have leaves. -/
class Leafy (α : Type) where
  leaves : α → List Leaf

/-- The data leads nowhere but to what is allowed. -/
def Within {α : Type} [Leafy α] (A : Allowance) (a : α) : Prop := ∀ l ∈ Leafy.leaves a, A l

instance : Leafy Unit := ⟨fun _ => []⟩
instance : Leafy Bool := ⟨fun _ => []⟩
instance : Leafy Nat := ⟨fun _ => []⟩
instance : Leafy Int := ⟨fun _ => []⟩
instance : Leafy Float := ⟨fun _ => []⟩
instance : Leafy String := ⟨fun _ => []⟩
instance : Leafy FnDef := ⟨fun _ => []⟩
instance : Leafy Stmt := ⟨fun _ => []⟩
instance : Leafy FilePath := ⟨fun _ => []⟩
instance : Leafy Value := ⟨Value.leaves⟩
instance : Leafy Module := ⟨Module.leaves⟩
instance : Leafy HostValue := ⟨HostValue.leaves⟩

section Containers

variable {α β : Type} [Leafy α] [Leafy β]

instance : Leafy (List α) := ⟨fun as => as.flatMap Leafy.leaves⟩
instance : Leafy (Option α) := ⟨fun a => a.elim [] Leafy.leaves⟩
instance : Leafy (α × β) := ⟨fun p => Leafy.leaves p.1 ++ Leafy.leaves p.2⟩
instance : Leafy (Except α β) := ⟨fun
  | .ok b => Leafy.leaves b
  | .error a => Leafy.leaves a⟩

variable {A : Allowance}

theorem within_of_leafless {a : α} (h : Leafy.leaves a = []) : Within A a := by
  simp [Within, h]

@[simp] theorem within_list {as : List α} : Within A as ↔ ∀ a ∈ as, Within A a := by
  simp only [Within, Leafy.leaves, List.mem_flatMap]
  exact ⟨fun h a ha l hl => h l ⟨a, ha, hl⟩, fun h l ⟨a, ha, hl⟩ => h a ha l hl⟩

@[simp] theorem within_none : Within A (none : Option α) := within_of_leafless rfl

@[simp] theorem within_some {a : α} : Within A (some a) ↔ Within A a := Iff.rfl

@[simp] theorem within_pair {p : α × β} : Within A p ↔ Within A p.1 ∧ Within A p.2 := by
  simp [Within, Leafy.leaves, List.mem_append, or_imp, forall_and]

@[simp] theorem within_ok {b : β} : Within A (.ok b : Except α β) ↔ Within A b := Iff.rfl

@[simp] theorem within_error {a : α} : Within A (.error a : Except α β) ↔ Within A a := Iff.rfl

theorem within_option {o : Option α} : Within A o ↔ ∀ a, o = some a → Within A a := by
  cases o <;> simp

end Containers

/-- All data is within the allowance of everything. -/
theorem within_everything {α : Type} [Leafy α] (a : α) : Within (fun _ => True) a :=
  fun _ _ => trivial

section Plain

variable {A : Allowance}

@[simp] theorem within_unit (u : Unit) : Within A u := within_of_leafless rfl
@[simp] theorem within_bool (b : Bool) : Within A b := within_of_leafless rfl
@[simp] theorem within_nat (n : Nat) : Within A n := within_of_leafless rfl
@[simp] theorem within_int (n : Int) : Within A n := within_of_leafless rfl
@[simp] theorem within_float (x : Float) : Within A x := within_of_leafless rfl
@[simp] theorem within_string (s : String) : Within A s := within_of_leafless rfl
@[simp] theorem within_fnDef (f : FnDef) : Within A f := within_of_leafless rfl
@[simp] theorem within_stmt (s : Stmt) : Within A s := within_of_leafless rfl
@[simp] theorem within_filePath (p : FilePath) : Within A p := within_of_leafless rfl

end Plain

/-! ## Values -/

section Values

variable {A : Allowance}

theorem itemLeaves_eq (vs : List Value) : Value.itemLeaves vs = Leafy.leaves vs := by
  induction vs with
  | nil => rfl
  | cons v rest ih => rw [Value.itemLeaves, ih]; rfl

theorem fieldLeaves_eq (fs : List (String × Value)) : Value.fieldLeaves fs = Leafy.leaves fs := by
  induction fs with
  | nil => rfl
  | cons f rest ih => rw [Value.fieldLeaves, ih]; rfl

theorem importLeaves_eq (ms : List (String × Module)) :
    Module.importLeaves ms = Leafy.leaves ms := by
  induction ms with
  | nil => rfl
  | cons m rest ih => rw [Module.importLeaves, ih]; rfl

@[simp] theorem within_value_unit : Within A Value.unit := within_of_leafless rfl
@[simp] theorem within_value_bool (b : Bool) : Within A (Value.bool b) := within_of_leafless rfl
@[simp] theorem within_value_int (n : Int64) : Within A (Value.int n) := within_of_leafless rfl
@[simp] theorem within_value_float (x : Float) : Within A (Value.float x) := within_of_leafless rfl
@[simp] theorem within_value_char (c : Char) : Within A (Value.char c) := within_of_leafless rfl
@[simp] theorem within_value_str (s : String) : Within A (Value.str s) := within_of_leafless rfl
@[simp] theorem within_value_blob (bs : List UInt8) : Within A (Value.blob bs) :=
  within_of_leafless rfl
@[simp] theorem within_value_range (a b : Int64) (i : Bool) : Within A (Value.range a b i) :=
  within_of_leafless rfl
@[simp] theorem within_value_timestamp (t : Int) : Within A (Value.timestamp t) :=
  within_of_leafless rfl

@[simp] theorem within_array {items : List Value} :
    Within A (Value.array items) ↔ ∀ v ∈ items, Within A v := by
  rw [← within_list, Within, Within, ← itemLeaves_eq]; rfl

@[simp] theorem within_object {fields : List (String × Value)} :
    Within A (Value.object fields) ↔ ∀ f ∈ fields, Within A f := by
  rw [← within_list, Within, Within, ← fieldLeaves_eq]; rfl

@[simp] theorem within_fn {name : String} {curried : List Value} {function : Option FnDef} :
    Within A (Value.fn name curried function) ↔ ∀ v ∈ curried, Within A v := by
  rw [← within_list, Within, Within, ← itemLeaves_eq]; rfl

@[simp] theorem within_handle {c : Capability} : Within A (Value.handle c) ↔ A (.handle c) := by
  simp [Within, Leafy.leaves, Value.leaves]

@[simp] theorem within_shared {cell : CellId} : Within A (Value.shared cell) ↔ A (.cell cell) := by
  simp [Within, Leafy.leaves, Value.leaves]

theorem within_module {m : Module} :
    Within A m ↔ Within A m.vars ∧ Within A m.constants ∧ Within A m.imports := by
  cases m
  simp only [Within, Leafy.leaves, Module.leaves, fieldLeaves_eq, importLeaves_eq, Module.vars,
    Module.constants, Module.imports, List.mem_append, or_imp, forall_and, and_assoc]

end Values

namespace HostValues

variable {A : Allowance}

theorem itemLeaves_eq (vs : List HostValue) : HostValue.itemLeaves vs = Leafy.leaves vs := by
  induction vs with
  | nil => rfl
  | cons v rest ih => rw [HostValue.itemLeaves, ih]; rfl

theorem entryLeaves_eq (es : List (String × HostValue)) :
    HostValue.entryLeaves es = Leafy.leaves es := by
  induction es with
  | nil => rfl
  | cons e rest ih => rw [HostValue.entryLeaves, ih]; rfl

@[simp] theorem within_list {items : List HostValue} :
    Within A (HostValue.list items) ↔ ∀ v ∈ items, Within A v := by
  rw [← Lang.within_list, Within, Within, ← itemLeaves_eq]; rfl

@[simp] theorem within_map {entries : List (String × HostValue)} :
    Within A (HostValue.map entries) ↔ ∀ e ∈ entries, Within A e := by
  rw [← Lang.within_list, Within, Within, ← entryLeaves_eq]; rfl

@[simp] theorem within_handle {c : Capability} : Within A (HostValue.handle c) ↔ A (.handle c) := by
  simp [Within, Leafy.leaves, HostValue.leaves]

end HostValues

/-! ## Records that hold values -/

instance : Leafy Held := ⟨fun h => Leafy.leaves (h.value, h.fixed)⟩
instance : Leafy Var := ⟨fun v => Leafy.leaves v.held⟩
instance : Leafy DataStore := ⟨fun d => Leafy.leaves d.entries⟩
instance : Leafy CachedModule := ⟨fun c => Leafy.leaves c.module⟩
instance : Leafy Yield := ⟨fun y => Leafy.leaves (y.result, y.changed)⟩

instance : Leafy Cause := ⟨fun
  | .thrown v | .exited v => Leafy.leaves v
  | _ => []⟩

instance : Leafy Fault := ⟨fun f => Leafy.leaves f.cause⟩

instance : Leafy Halt := ⟨fun
  | .fault f => Leafy.leaves f
  | .leave v | .ret v | .exit v => Leafy.leaves v
  | .again => []⟩

instance : Leafy Upshot := ⟨fun u => Leafy.leaves (u.outcome, u.changed)⟩

instance : Leafy Frame :=
  ⟨fun f => Leafy.leaves (f.vars, f.this, f.imports, f.constants, f.kept)⟩

section Records

variable {A : Allowance}

@[simp] theorem within_held {h : Held} :
    Within A h ↔ Within A h.value ∧ ∀ v, h.fixed = some v → Within A v := by
  rw [← within_option, ← within_pair (p := (h.value, h.fixed))]; rfl

theorem within_mutable {v : Value} (hv : Within A v) : Within A ({ value := v } : Held) :=
  within_held.mpr ⟨hv, nofun⟩

theorem within_const {v : Value} (hv : Within A v) : Within A (Held.const v) :=
  within_held.mpr ⟨hv, fun _ h => Option.some.inj h ▸ hv⟩

@[simp] theorem within_var {v : Var} : Within A v ↔ Within A v.held := Iff.rfl

@[simp] theorem within_cached {c : CachedModule} : Within A c ↔ Within A c.module := Iff.rfl

@[simp] theorem within_thrown {v : Value} : Within A (Cause.thrown v) ↔ Within A v := Iff.rfl

@[simp] theorem within_raised {cause : Cause} {pos : Place} :
    Within A (Fault.raised cause pos) ↔ Within A cause := Iff.rfl

@[simp] theorem within_inCall {f : Fault} {function : String} {source : Option String}
    {pos : Place} : Within A (Fault.inCall f function source pos) ↔ Within A f := Iff.rfl

@[simp] theorem within_inModule {f : Fault} {path : String} {pos : Place} :
    Within A (Fault.inModule f path pos) ↔ Within A f := Iff.rfl

@[simp] theorem within_movedTo {f : Fault} {pos : Place} :
    Within A (f.movedTo pos) ↔ Within A f := by
  cases f <;> rfl

@[simp] theorem within_placed {f : Fault} {pos : Place} :
    Within A (f.placed pos) ↔ Within A f := by
  unfold Fault.placed
  split <;> simp

@[simp] theorem within_halt_fault {f : Fault} : Within A (Halt.fault f) ↔ Within A f := Iff.rfl
@[simp] theorem within_halt_leave {v : Value} : Within A (Halt.leave v) ↔ Within A v := Iff.rfl
@[simp] theorem within_halt_ret {v : Value} : Within A (Halt.ret v) ↔ Within A v := Iff.rfl
@[simp] theorem within_halt_exit {v : Value} : Within A (Halt.exit v) ↔ Within A v := Iff.rfl
@[simp] theorem within_halt_again : Within A Halt.again := within_of_leafless rfl

@[simp] theorem within_upshot {u : Upshot} :
    Within A u ↔ Within A u.outcome ∧ Within A u.changed :=
  within_pair (p := (u.outcome, u.changed))

@[simp] theorem within_yield {y : Yield} : Within A y ↔ Within A y.result ∧ Within A y.changed :=
  within_pair (p := (y.result, y.changed))

@[simp] theorem within_store {d : DataStore} : Within A d ↔ ∀ e ∈ d.entries, Within A e :=
  within_list

theorem within_frame {f : Frame} :
    Within A f ↔ Within A f.vars ∧ Within A f.this ∧ Within A f.imports ∧ Within A f.constants ∧
      Within A f.kept := by
  rw [← within_pair (p := (f.constants, f.kept)), ← within_pair (p := (f.imports, _)),
    ← within_pair (p := (f.this, _)), ← within_pair (p := (f.vars, _))]; rfl

end Records

end Stagehand.Lang
