import Mathlib.Logic.Function.Basic
import Stagehand.Proofs.Functions

/-!
# Other numbers

Instances and stores are known by numbers, and which numbers they have is an accident of what was
there before. A renaming gives them other numbers; on data it acts through the references in it and
leaves all else alone. Data without references stays what it is (`on_of_within`), so what is known
of where references come from serves here as well.
-/

namespace Stagehand

open Lang

/-- Other numbers for instances and stores. -/
structure Renaming where
  script : InstanceId → InstanceId
  store : StoreId → StoreId

/-- Data that can have numbers of instances and stores in it. -/
class Renames (α : Type) where
  renamed : Renaming → α → α

/-- The data with other numbers in it. -/
def Renaming.on {α : Type} [Renames α] (ρ : Renaming) (a : α) : α := Renames.renamed ρ a

/-- The reference with another number; hosts and images keep theirs. -/
def Capability.renamed (ρ : Renaming) : Capability → Capability
  | .host id => .host id
  | .image id => .image id
  | .data id => .data (ρ.store id)
  | .script h => .script ⟨ρ.script h.id, h.name⟩

namespace Lang

mutual

/-- The value with other numbers in it. -/
def Value.renamed (ρ : Renaming) : Value → Value
  | .array items => .array (Value.renamedItems ρ items)
  | .object fields => .object (Value.renamedFields ρ fields)
  | .fn name curried function => .fn name (Value.renamedItems ρ curried) function
  | .handle c => .handle (c.renamed ρ)
  | .unit => .unit
  | .bool b => .bool b
  | .int n => .int n
  | .float x => .float x
  | .char c => .char c
  | .str s => .str s
  | .blob bytes => .blob bytes
  | .range a b inclusive => .range a b inclusive
  | .timestamp time => .timestamp time
  | .shared cell => .shared cell

/-- The values with other numbers in them. -/
def Value.renamedItems (ρ : Renaming) : List Value → List Value
  | [] => []
  | v :: rest => v.renamed ρ :: Value.renamedItems ρ rest

/-- The fields with other numbers in them. -/
def Value.renamedFields (ρ : Renaming) : List (String × Value) → List (String × Value)
  | [] => []
  | (k, v) :: rest => (k, v.renamed ρ) :: Value.renamedFields ρ rest

end

mutual

/-- The library with other numbers in it. -/
def Module.renamed (ρ : Renaming) : Module → Module
  | .mk path vars functions constants imports =>
    .mk path (Value.renamedFields ρ vars) functions (Value.renamedFields ρ constants)
      (Module.renamedImports ρ imports)

/-- The libraries with other numbers in them. -/
def Module.renamedImports (ρ : Renaming) : List (String × Module) → List (String × Module)
  | [] => []
  | (k, m) :: rest => (k, m.renamed ρ) :: Module.renamedImports ρ rest

end

end Lang

namespace HostValue

mutual

/-- The value of the host with other numbers in it. -/
def renamed (ρ : Renaming) : HostValue → HostValue
  | .list items => .list (renamedItems ρ items)
  | .map entries => .map (renamedEntries ρ entries)
  | .handle c => .handle (c.renamed ρ)
  | .unit => .unit
  | .bool b => .bool b
  | .int n => .int n
  | .float x => .float x
  | .str s => .str s

/-- The items with other numbers in them. -/
def renamedItems (ρ : Renaming) : List HostValue → List HostValue
  | [] => []
  | v :: rest => v.renamed ρ :: renamedItems ρ rest

/-- The entries with other numbers in them. -/
def renamedEntries (ρ : Renaming) : List (String × HostValue) → List (String × HostValue)
  | [] => []
  | (k, v) :: rest => (k, v.renamed ρ) :: renamedEntries ρ rest

end

end HostValue

/-! ## Plain data and containers -/

section Containers

variable {α β : Type} [Renames α] [Renames β] {ρ : Renaming}

instance : Renames Unit := ⟨fun _ u => u⟩
instance : Renames Bool := ⟨fun _ b => b⟩
instance : Renames Nat := ⟨fun _ n => n⟩
instance : Renames Int := ⟨fun _ n => n⟩
instance : Renames Float := ⟨fun _ x => x⟩
instance : Renames String := ⟨fun _ s => s⟩
instance : Renames FnDef := ⟨fun _ f => f⟩
instance : Renames Stmt := ⟨fun _ s => s⟩
instance : Renames FilePath := ⟨fun _ p => p⟩
instance : Renames Capability := ⟨Capability.renamed⟩
instance : Renames ScriptHandle := ⟨fun ρ h => ⟨ρ.script h.id, h.name⟩⟩
instance : Renames Value := ⟨Value.renamed⟩
instance : Renames Module := ⟨Module.renamed⟩
instance : Renames HostValue := ⟨HostValue.renamed⟩
instance : Renames (List α) := ⟨fun ρ as => as.map ρ.on⟩
instance : Renames (Option α) := ⟨fun ρ o => o.map ρ.on⟩
instance : Renames (α × β) := ⟨fun ρ p => (ρ.on p.1, ρ.on p.2)⟩
instance : Renames (Except α β) := ⟨fun ρ r =>
  match r with
  | .ok b => .ok (ρ.on b)
  | .error a => .error (ρ.on a)⟩

@[simp] theorem on_unit (u : Unit) : ρ.on u = u := rfl
@[simp] theorem on_bool (b : Bool) : ρ.on b = b := rfl
@[simp] theorem on_nat (n : Nat) : ρ.on n = n := rfl
@[simp] theorem on_int (n : Int) : ρ.on n = n := rfl
@[simp] theorem on_float (x : Float) : ρ.on x = x := rfl
@[simp] theorem on_string (s : String) : ρ.on s = s := rfl
@[simp] theorem on_fnDef (f : FnDef) : ρ.on f = f := rfl
@[simp] theorem on_stmt (s : Stmt) : ρ.on s = s := rfl
@[simp] theorem on_filePath (p : FilePath) : ρ.on p = p := rfl

@[simp] theorem on_list (as : List α) : ρ.on as = as.map ρ.on := rfl

@[simp] theorem on_option (o : Option α) : ρ.on o = o.map ρ.on := rfl

@[simp] theorem on_mk (a : α) (b : β) : ρ.on (a, b) = (ρ.on a, ρ.on b) := rfl

@[simp] theorem on_fst (p : α × β) : (ρ.on p).1 = ρ.on p.1 := rfl

@[simp] theorem on_snd (p : α × β) : (ρ.on p).2 = ρ.on p.2 := rfl

@[simp] theorem on_ok (b : β) : ρ.on (.ok b : Except α β) = .ok (ρ.on b) := rfl

@[simp] theorem on_error (a : α) : ρ.on (.error a : Except α β) = .error (ρ.on a) := rfl

end Containers

/-! ## Values -/

section Values

variable {ρ : Renaming}

theorem renamedItems_eq (vs : List Value) : Value.renamedItems ρ vs = vs.map ρ.on := by
  induction vs with
  | nil => rfl
  | cons v rest ih => rw [Value.renamedItems, ih]; rfl

theorem renamedFields_eq (fs : List (String × Value)) :
    Value.renamedFields ρ fs = fs.map ρ.on := by
  induction fs with
  | nil => rfl
  | cons f rest ih => rw [Value.renamedFields, ih]; rfl

theorem renamedImports_eq (ms : List (String × Lang.Module)) :
    Lang.Module.renamedImports ρ ms = ms.map ρ.on := by
  induction ms with
  | nil => rfl
  | cons m rest ih => rw [Lang.Module.renamedImports, ih]; rfl

@[simp] theorem on_capability_host (id : HostId) : ρ.on (Capability.host id) = .host id := rfl
@[simp] theorem on_capability_image (id : ImageId) : ρ.on (Capability.image id) = .image id := rfl
@[simp] theorem on_capability_data (id : StoreId) :
    ρ.on (Capability.data id) = .data (ρ.store id) := rfl
@[simp] theorem on_capability_script (h : ScriptHandle) :
    ρ.on (Capability.script h) = .script (ρ.on h) := rfl

@[simp] theorem on_handle_id (h : ScriptHandle) : (ρ.on h).id = ρ.script h.id := rfl
@[simp] theorem on_handle_name (h : ScriptHandle) : (ρ.on h).name = h.name := rfl

@[simp] theorem on_value_unit : ρ.on Value.unit = .unit := rfl
@[simp] theorem on_value_bool (b : Bool) : ρ.on (Value.bool b) = .bool b := rfl
@[simp] theorem on_value_int (n : Int64) : ρ.on (Value.int n) = .int n := rfl
@[simp] theorem on_value_float (x : Float) : ρ.on (Value.float x) = .float x := rfl
@[simp] theorem on_value_char (c : Char) : ρ.on (Value.char c) = .char c := rfl
@[simp] theorem on_value_str (s : String) : ρ.on (Value.str s) = .str s := rfl
@[simp] theorem on_value_blob (bs : List UInt8) : ρ.on (Value.blob bs) = .blob bs := rfl
@[simp] theorem on_value_range (a b : Int64) (i : Bool) :
    ρ.on (Value.range a b i) = .range a b i := rfl
@[simp] theorem on_value_timestamp (t : Int) : ρ.on (Value.timestamp t) = .timestamp t := rfl
@[simp] theorem on_value_shared (cell : CellId) : ρ.on (Value.shared cell) = .shared cell := rfl
@[simp] theorem on_value_handle (c : Capability) :
    ρ.on (Value.handle c) = .handle (ρ.on c) := rfl

@[simp] theorem on_value_array (items : List Value) :
    ρ.on (Value.array items) = .array (items.map ρ.on) :=
  congrArg Value.array (renamedItems_eq items)

@[simp] theorem on_value_object (fields : List (String × Value)) :
    ρ.on (Value.object fields) = .object (fields.map ρ.on) :=
  congrArg Value.object (renamedFields_eq fields)

@[simp] theorem on_value_fn (name : String) (curried : List Value) (function : Option FnDef) :
    ρ.on (Value.fn name curried function) = .fn name (curried.map ρ.on) function :=
  congrArg (Value.fn name · function) (renamedItems_eq curried)

@[simp] theorem on_eq_unit {v : Value} : ρ.on v = .unit ↔ v = .unit := by cases v <;> simp
@[simp] theorem on_eq_bool {v : Value} {b : Bool} : ρ.on v = .bool b ↔ v = .bool b := by
  cases v <;> simp
@[simp] theorem on_eq_int {v : Value} {n : Int64} : ρ.on v = .int n ↔ v = .int n := by
  cases v <;> simp
@[simp] theorem on_eq_float {v : Value} {x : Float} : ρ.on v = .float x ↔ v = .float x := by
  cases v <;> simp
@[simp] theorem on_eq_char {v : Value} {c : Char} : ρ.on v = .char c ↔ v = .char c := by
  cases v <;> simp
@[simp] theorem on_eq_str {v : Value} {s : String} : ρ.on v = .str s ↔ v = .str s := by
  cases v <;> simp
@[simp] theorem on_eq_blob {v : Value} {bs : List UInt8} : ρ.on v = .blob bs ↔ v = .blob bs := by
  cases v <;> simp
@[simp] theorem on_eq_range {v : Value} {a b : Int64} {i : Bool} :
    ρ.on v = .range a b i ↔ v = .range a b i := by
  cases v <;> simp

@[simp] theorem on_eq_timestamp {v : Value} {t : Int} :
    ρ.on v = .timestamp t ↔ v = .timestamp t := by
  cases v <;> simp

theorem on_eq_array {v : Value} {items : List Value} :
    ρ.on v = .array items ↔ ∃ items', v = .array items' ∧ items'.map ρ.on = items := by
  cases v <;> simp

theorem on_eq_object {v : Value} {fields : List (String × Value)} :
    ρ.on v = .object fields ↔ ∃ fields', v = .object fields' ∧ fields'.map ρ.on = fields := by
  cases v <;> simp

theorem on_eq_fn {v : Value} {name : String} {curried : List Value} {function : Option FnDef} :
    ρ.on v = .fn name curried function ↔
      ∃ curried', v = .fn name curried' function ∧ curried'.map ρ.on = curried := by
  cases v with
  | fn name' curried' function' =>
      rw [on_value_fn]
      constructor
      · rintro ⟨⟩
        exact ⟨curried', rfl, rfl⟩
      · rintro ⟨_, ⟨⟩, rfl⟩
        rfl
  | _ => simp

@[simp] theorem on_module_mk (path : Option String) (vars : List (String × Value))
    (functions : List FnDef) (constants : List (String × Value))
    (imports : List (String × Lang.Module)) :
    ρ.on (Lang.Module.mk path vars functions constants imports) =
      .mk path (vars.map ρ.on) functions (constants.map ρ.on) (imports.map ρ.on) := by
  change Lang.Module.mk _ _ _ _ _ = _
  rw [renamedFields_eq, renamedFields_eq, renamedImports_eq]

@[simp] theorem on_module_path (m : Lang.Module) : (ρ.on m).path = m.path := by
  cases m; simp [Lang.Module.path]

@[simp] theorem on_module_vars (m : Lang.Module) : (ρ.on m).vars = m.vars.map ρ.on := by
  cases m; simp [Lang.Module.vars]

@[simp] theorem on_module_functions (m : Lang.Module) : (ρ.on m).functions = m.functions := by
  cases m; simp [Lang.Module.functions]

@[simp] theorem on_module_constants (m : Lang.Module) :
    (ρ.on m).constants = m.constants.map ρ.on := by
  cases m; simp [Lang.Module.constants]

@[simp] theorem on_module_imports (m : Lang.Module) : (ρ.on m).imports = m.imports.map ρ.on := by
  cases m; simp [Lang.Module.imports]

end Values

namespace HostValues

variable {ρ : Renaming}

theorem renamedItems_eq (vs : List HostValue) : HostValue.renamedItems ρ vs = vs.map ρ.on := by
  induction vs with
  | nil => rfl
  | cons v rest ih => rw [HostValue.renamedItems, ih]; rfl

theorem renamedEntries_eq (es : List (String × HostValue)) :
    HostValue.renamedEntries ρ es = es.map ρ.on := by
  induction es with
  | nil => rfl
  | cons e rest ih => rw [HostValue.renamedEntries, ih]; rfl

@[simp] theorem on_list (items : List HostValue) :
    ρ.on (HostValue.list items) = .list (items.map ρ.on) :=
  congrArg HostValue.list (renamedItems_eq items)

@[simp] theorem on_map (entries : List (String × HostValue)) :
    ρ.on (HostValue.map entries) = .map (entries.map ρ.on) :=
  congrArg HostValue.map (renamedEntries_eq entries)

@[simp] theorem on_handle (c : Capability) : ρ.on (HostValue.handle c) = .handle (ρ.on c) := rfl

end HostValues

/-! ## Records that hold values -/

instance : Renames Held := ⟨fun ρ h => ⟨ρ.on h.value, ρ.on h.fixed⟩⟩
instance : Renames Var := ⟨fun ρ v => { v with held := ρ.on v.held }⟩
instance : Renames DataStore := ⟨fun ρ d => ⟨ρ.on d.entries⟩⟩
instance : Renames CachedModule := ⟨fun ρ c => { c with module := ρ.on c.module }⟩
instance : Renames Yield := ⟨fun ρ y => ⟨ρ.on y.result, ρ.on y.changed⟩⟩

instance : Renames Realm :=
  ⟨fun ρ realm => ⟨realm.heap.map ρ.on, ρ.on realm.modules⟩⟩

instance : Renames Cause := ⟨fun ρ cause =>
  match cause with
  | .thrown v => .thrown (ρ.on v)
  | .exited v => .exited (ρ.on v)
  | cause => cause⟩

/-- The fault with other numbers in what was thrown. -/
def Lang.Fault.renamed (ρ : Renaming) : Fault → Fault
  | .raised cause pos => .raised (ρ.on cause) pos
  | .inCall inner function source pos => .inCall (inner.renamed ρ) function source pos
  | .inModule inner path pos => .inModule (inner.renamed ρ) path pos

instance : Renames Fault := ⟨Fault.renamed⟩

instance : Renames Halt := ⟨fun ρ h =>
  match h with
  | .fault f => .fault (ρ.on f)
  | .leave v => .leave (ρ.on v)
  | .again => .again
  | .ret v => .ret (ρ.on v)
  | .exit v => .exit (ρ.on v)⟩

instance : Renames Upshot := ⟨fun ρ u => ⟨ρ.on u.outcome, ρ.on u.changed⟩⟩

instance : Renames Frame := ⟨fun ρ f =>
  { f with
    vars := ρ.on f.vars
    this := ρ.on f.this
    imports := ρ.on f.imports
    constants := ρ.on f.constants
    kept := ρ.on f.kept }⟩

instance : Renames Stage := ⟨fun ρ s =>
  { s with owner := ρ.on s.owner, data := ρ.store s.data }⟩

section Records

variable {ρ : Renaming}

@[simp] theorem on_held_mk (v : Value) (fixed : Option Value) :
    ρ.on (Held.mk v fixed) = ⟨ρ.on v, fixed.map ρ.on⟩ := rfl
@[simp] theorem on_held_value (h : Held) : (ρ.on h).value = ρ.on h.value := rfl
@[simp] theorem on_held_fixed (h : Held) : (ρ.on h).fixed = h.fixed.map ρ.on := rfl
@[simp] theorem on_held_put (h : Held) (v : Value) : ρ.on (h.put v) = (ρ.on h).put (ρ.on v) := rfl
@[simp] theorem on_held_const (v : Value) : ρ.on (Held.const v) = .const (ρ.on v) := rfl
@[simp] theorem on_held_isConstant (h : Held) : (ρ.on h).isConstant = h.isConstant := by
  simp [Held.isConstant]

@[simp] theorem on_var_name (v : Var) : (ρ.on v).name = v.name := rfl
@[simp] theorem on_var_held (v : Var) : (ρ.on v).held = ρ.on v.held := rfl
@[simp] theorem on_var_aliases (v : Var) : (ρ.on v).aliases = v.aliases := rfl
@[simp] theorem on_var_mk (name : String) (held : Held) (aliases : List String) :
    ρ.on (Var.mk name held aliases) = ⟨name, ρ.on held, aliases⟩ := rfl

@[simp] theorem on_store_entries (d : DataStore) :
    (ρ.on d).entries = d.entries.map ρ.on := rfl

@[simp] theorem on_cached_modified (c : CachedModule) : (ρ.on c).modified = c.modified := rfl
@[simp] theorem on_cached_module (c : CachedModule) : (ρ.on c).module = ρ.on c.module := rfl

@[simp] theorem on_yield_result (y : Yield) : (ρ.on y).result = ρ.on y.result := rfl
@[simp] theorem on_yield_changed (y : Yield) : (ρ.on y).changed = y.changed.map ρ.on := rfl

@[simp] theorem on_realm_heap (realm : Realm) : (ρ.on realm).heap = realm.heap.map ρ.on := rfl
@[simp] theorem on_realm_modules (realm : Realm) :
    (ρ.on realm).modules = realm.modules.map ρ.on := rfl

@[simp] theorem on_fault_raised (cause : Cause) (pos : Place) :
    ρ.on (Fault.raised cause pos) = .raised (ρ.on cause) pos := rfl
@[simp] theorem on_fault_inCall (inner : Fault) (function : String) (source : Option String)
    (pos : Place) :
    ρ.on (Fault.inCall inner function source pos) = .inCall (ρ.on inner) function source pos := rfl
@[simp] theorem on_fault_inModule (inner : Fault) (path : String) (pos : Place) :
    ρ.on (Fault.inModule inner path pos) = .inModule (ρ.on inner) path pos := rfl

@[simp] theorem on_halt_fault (f : Fault) : ρ.on (Halt.fault f) = .fault (ρ.on f) := rfl

@[simp] theorem on_upshot_outcome (u : Upshot) : (ρ.on u).outcome = ρ.on u.outcome := rfl
@[simp] theorem on_upshot_changed (u : Upshot) : (ρ.on u).changed = u.changed.map ρ.on := rfl
@[simp] theorem on_upshot_mk (outcome : Except Halt Value) (changed : Option Value) :
    ρ.on (Upshot.mk outcome changed) = ⟨ρ.on outcome, changed.map ρ.on⟩ := rfl

@[simp] theorem on_frame_vars (f : Frame) : (ρ.on f).vars = f.vars.map ρ.on := rfl
@[simp] theorem on_frame_this (f : Frame) : (ρ.on f).this = f.this.map ρ.on := rfl
@[simp] theorem on_frame_imports (f : Frame) : (ρ.on f).imports = f.imports.map ρ.on := rfl
@[simp] theorem on_frame_functions (f : Frame) : (ρ.on f).functions = f.functions := rfl
@[simp] theorem on_frame_source (f : Frame) : (ρ.on f).source = f.source := rfl
@[simp] theorem on_frame_constants (f : Frame) :
    (ρ.on f).constants = f.constants.map (List.map ρ.on) := rfl
@[simp] theorem on_frame_kept (f : Frame) : (ρ.on f).kept = f.kept.map ρ.on := rfl
@[simp] theorem on_frame_depth (f : Frame) : (ρ.on f).depth = f.depth := rfl
@[simp] theorem on_frame_level (f : Frame) : (ρ.on f).level = f.level := rfl
@[simp] theorem on_frame_locked (f : Frame) : (ρ.on f).locked = f.locked := rfl

@[simp] theorem on_stage_owner (s : Stage) : (ρ.on s).owner = ρ.on s.owner := rfl
@[simp] theorem on_stage_data (s : Stage) : (ρ.on s).data = ρ.store s.data := rfl
@[simp] theorem on_stage_libraries (s : Stage) : (ρ.on s).libraries = s.libraries := rfl

end Records

/-! ## Data without references -/

/-- Cells are allowed, references are not. -/
def cellsOnly : Allowance
  | .handle _ => False
  | .cell _ => True

section Leafless

variable {ρ : Renaming}

mutual

theorem on_value_of_within : ∀ v : Value, Within cellsOnly v → ρ.on v = v
  | .array items, h => by
    rw [on_value_array, on_items_of_within items (within_array.mp h)]
  | .object fields, h => by
    rw [on_value_object, on_fields_of_within fields (within_object.mp h)]
  | .fn name curried function, h => by
    rw [on_value_fn, on_items_of_within curried (within_fn.mp h)]
  | .handle c, h => (within_handle.mp h).elim
  | .unit, _ | .bool _, _ | .int _, _ | .float _, _ | .char _, _ | .str _, _ | .blob _, _
  | .range _ _ _, _ | .timestamp _, _ | .shared _, _ => rfl

theorem on_items_of_within :
    ∀ vs : List Value, (∀ v ∈ vs, Within cellsOnly v) → vs.map ρ.on = vs
  | [], _ => rfl
  | v :: rest, h => by
    rw [List.forall_mem_cons] at h
    rw [List.map_cons, on_value_of_within v h.1, on_items_of_within rest h.2]

theorem on_fields_of_within : ∀ fs : List (String × Value),
    (∀ f ∈ fs, Within cellsOnly f) → fs.map ρ.on = fs
  | [], _ => rfl
  | (k, v) :: rest, h => by
    rw [List.forall_mem_cons, within_pair] at h
    rw [List.map_cons, on_mk, on_value_of_within v h.1.2, on_fields_of_within rest h.2, on_string]

end

/-- Data is all that its references make of it. -/
class Referential (α : Type) [Leafy α] [Renames α] : Prop where
  on_eq : ∀ (ρ : Renaming) (a : α), Within cellsOnly a → ρ.on a = a

/-- Data without references is the same under other numbers. -/
theorem on_of_within {α : Type} [Leafy α] [Renames α] [Referential α] {a : α}
    (h : Within cellsOnly a) : ρ.on a = a := Referential.on_eq ρ a h

instance : Referential Value := ⟨fun _ v => on_value_of_within v⟩
instance : Referential Unit := ⟨fun _ _ _ => rfl⟩
instance : Referential Bool := ⟨fun _ _ _ => rfl⟩
instance : Referential String := ⟨fun _ _ _ => rfl⟩

instance : Referential Cause where
  on_eq ρ cause h := by
    cases cause with
    | thrown v => exact congrArg Cause.thrown (on_value_of_within v h)
    | exited v => exact congrArg Cause.exited (on_value_of_within v h)
    | _ => rfl

section Containers

variable {α β : Type} [Leafy α] [Renames α] [Referential α] [Leafy β] [Renames β] [Referential β]

instance : Referential (List α) where
  on_eq ρ as h := by
    rw [on_list, List.map_congr_left fun a ha => on_of_within (within_list.mp h a ha), List.map_id']

instance : Referential (Option α) where
  on_eq ρ o h := by
    cases o with
    | none => rfl
    | some a => exact congrArg some (on_of_within h)

instance : Referential (α × β) where
  on_eq ρ p h := by
    rw [within_pair] at h
    exact Prod.ext (on_of_within h.1) (on_of_within h.2)

instance : Referential (Except α β) where
  on_eq ρ r h := by
    cases r with
    | ok b => exact congrArg Except.ok (on_of_within h)
    | error a => exact congrArg Except.error (on_of_within h)

end Containers

instance : Referential Yield where
  on_eq ρ y h := by
    obtain ⟨hresult, hchanged⟩ := within_yield.mp h
    change Yield.mk (ρ.on y.result) (ρ.on y.changed) = y
    rw [on_of_within hresult, on_of_within hchanged]

end Leafless

/-! ## Renamings that can be taken back -/

/-- No two instances get one number, and no two stores. -/
class Renaming.Injective (ρ : Renaming) : Prop where
  script : Function.Injective ρ.script
  store : Function.Injective ρ.store

section Inverse

variable {ρ σ : Renaming}

/-- The second renaming takes back what the first did. -/
structure Renaming.Undone (ρ σ : Renaming) : Prop where
  script : ∀ id, σ.script (ρ.script id) = id
  store : ∀ id, σ.store (ρ.store id) = id

/-- What is injective can be taken back. -/
theorem Renaming.exists_undone (ρ : Renaming) [hρ : ρ.Injective] : ∃ σ, ρ.Undone σ := by
  obtain ⟨script, hscript⟩ := hρ.script.hasLeftInverse
  obtain ⟨store, hstore⟩ := hρ.store.hasLeftInverse
  exact ⟨⟨script, store⟩, hscript, hstore⟩

mutual

theorem on_undone (h : ρ.Undone σ) : ∀ v : Value, σ.on (ρ.on v) = v
  | .array items => by rw [on_value_array, on_value_array, on_undone_items h items]
  | .object fields => by rw [on_value_object, on_value_object, on_undone_fields h fields]
  | .fn name curried function => by rw [on_value_fn, on_value_fn, on_undone_items h curried]
  | .handle c => by
    cases c with
    | host | image => rfl
    | data id => exact congrArg (fun id => Value.handle (.data id)) (h.store id)
    | script s => exact congrArg (fun id => Value.handle (.script ⟨id, s.name⟩)) (h.script s.id)
  | .unit | .bool _ | .int _ | .float _ | .char _ | .str _ | .blob _ | .range _ _ _ | .timestamp _
  | .shared _ => rfl

theorem on_undone_items (h : ρ.Undone σ) : ∀ vs : List Value, (vs.map ρ.on).map σ.on = vs
  | [] => rfl
  | v :: rest => by
    rw [List.map_cons, List.map_cons, on_undone h v, on_undone_items h rest]

theorem on_undone_fields (h : ρ.Undone σ) :
    ∀ fs : List (String × Value), (fs.map ρ.on).map σ.on = fs
  | [] => rfl
  | (k, v) :: rest => by
    rw [List.map_cons, List.map_cons, on_mk, on_mk, on_undone h v, on_undone_fields h rest]
    rfl

end

/-- What is there for arguments is there for them under other numbers; so it is there for those
alone. -/
theorem isSome_on [ρ.Injective] {β : Type} {f : List Value → Option β}
    (hf : ∀ (ρ : Renaming) args, (f args).isSome → (f (args.map ρ.on)).isSome) (args : List Value) :
    (f (args.map ρ.on)).isSome = (f args).isSome := by
  obtain ⟨σ, hσ⟩ := ρ.exists_undone
  refine Bool.eq_iff_iff.mpr ⟨fun h => ?_, hf ρ args⟩
  exact on_undone_items hσ args ▸ hf σ _ h

/-- A function commutes with renamings if it does so where it yields something. -/
theorem on_of_isSome [ρ.Injective] {β : Type} [Renames β] {f : List Value → Option β}
    (hf : ∀ (ρ : Renaming) args, (f args).isSome → f (args.map ρ.on) = ρ.on (f args))
    (args : List Value) : f (args.map ρ.on) = ρ.on (f args) := by
  have hsome := isSome_on (ρ := ρ) (f := f)
    (fun ρ args h => by rw [hf ρ args h, on_option, Option.isSome_map]; exact h) args
  cases h : f args with
  | none =>
      rw [h] at hsome
      exact Option.not_isSome_iff_eq_none.mp (by rw [hsome]; exact Bool.false_ne_true)
  | some r => exact h ▸ hf ρ args (by rw [h]; rfl)

end Inverse

end Stagehand
