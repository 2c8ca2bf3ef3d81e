import Stagehand.Proofs.Histories
import Stagehand.Proofs.Loads

/-!
# Across the boundary and back

What the host hands to a script comes back as what it was: a value made for a script holds no cell,
so reading through cells leaves it alone, and each of its parts is read as the part that it was made
of. That also holds where the script has it in a shared cell. So a message that a script keeps in
its store is found there by the host as it was sent.
-/

namespace Stagehand

open Lang

namespace HostValue

mutual

theorem expandWith_toScript (look : CellId → Value) :
    ∀ v : HostValue, v.toScript.expandWith look = v.toScript
  | .unit | .bool _ | .int _ | .float _ | .str _ | .handle _ => rfl
  | .list items => congrArg Value.array (expandItems_toScript look items)
  | .map entries => congrArg Value.object (expandFields_toScript look entries)

theorem expandItems_toScript (look : CellId → Value) :
    ∀ vs : List HostValue, Value.expandItems look (toScriptItems vs) = toScriptItems vs
  | [] => rfl
  | v :: rest => by
      simp only [toScriptItems, Value.expandItems, expandWith_toScript look v,
        expandItems_toScript look rest]

theorem expandFields_toScript (look : CellId → Value) :
    ∀ es : List (String × HostValue),
      Value.expandFields look (toScriptEntries es) = toScriptEntries es
  | [] => rfl
  | (k, v) :: rest => by
      simp only [toScriptEntries, Value.expandFields, expandWith_toScript look v,
        expandFields_toScript look rest]

end

mutual

theorem ofFlat_toScript : ∀ v : HostValue, ofFlat v.toScript = .ok v
  | .unit | .bool _ | .int _ | .float _ | .str _ | .handle _ => rfl
  | .list items => by
      have hitems := ofFlatItems_toScript items
      simp only [toScript, ofFlat, hitems]
      rfl
  | .map entries => by
      have hentries := ofFlatFields_toScript entries
      simp only [toScript, ofFlat, hentries]
      rfl

theorem ofFlatItems_toScript : ∀ vs : List HostValue, ofFlatItems (toScriptItems vs) = .ok vs
  | [] => rfl
  | v :: rest => by
      have hhead := ofFlat_toScript v
      have hrest := ofFlatItems_toScript rest
      simp only [toScriptItems, ofFlatItems, hhead, hrest]
      rfl

theorem ofFlatFields_toScript :
    ∀ es : List (String × HostValue), ofFlatFields (toScriptEntries es) = .ok es
  | [] => rfl
  | (k, v) :: rest => by
      have hhead := ofFlat_toScript v
      have hrest := ofFlatFields_toScript rest
      simp only [toScriptEntries, ofFlatFields, hhead, hrest]
      rfl

end

theorem expand_toScript (h : Heap) (depth : Nat) (v : HostValue) :
    h.expand depth v.toScript = v.toScript := by
  cases depth <;> exact expandWith_toScript _ v

/-- A value that the host handed over is read as itself, whatever cells the script has. -/
theorem ofScript_toScript (h : Heap) (v : HostValue) : ofScript h v.toScript = .ok v := by
  rw [ofScript, expand_toScript, ofFlat_toScript]

/-- So it is out of a cell that closures share. -/
theorem ofScript_shared {h : Heap} {cell : CellId} {held : Held} {v : HostValue}
    (hcell : h[cell]? = some held) (hheld : held.value = v.toScript) :
    ofScript h (.shared cell) = .ok v := by
  have hexpand : h.expand h.size (.shared cell) = v.toScript := by
    obtain ⟨hlt, -⟩ := Array.getElem?_eq_some_iff.mp hcell
    obtain ⟨n, hn⟩ := Nat.exists_eq_add_of_lt (Nat.zero_lt_of_lt hlt)
    rw [hn, Nat.zero_add, Heap.expand, Value.expandWith, hcell]
    exact hheld ▸ expand_toScript h n v
  rw [ofScript, hexpand, ofFlat_toScript]

end HostValue

/-! ## A store that keeps what it is given -/

theorem World.store_modifyStore_self (w : World) {id : StoreId} (h : id < w.stores.size)
    (f : DataStore → DataStore) : (w.modifyStore id f).store id = f (w.store id) := by
  simp [World.store, World.modifyStore, h]

/-- Under the key that was set is the value, and under the others is what was there. -/
theorem DataStore.get?_set (d : DataStore) (key : String) (v : HostValue) :
    (d.set key v).get? key = some v ∧
      ∀ other, other ≠ key → (d.set key v).get? other = d.get? other :=
  ⟨Entries.get?_put_self key v d.entries,
    fun _ hother => Entries.get?_put_of_ne hother v d.entries⟩

/-- Setting a payload somewhere takes it away from nowhere. -/
theorem World.get?_set_stays {w : World} {id other : StoreId} {key key' : String} {v : HostValue}
    (h : (w.store id).get? key = some v) :
    ((w.modifyStore other (·.set key' v)).store id).get? key = some v := by
  rw [World.store] at h ⊢
  rw [World.modifyStore_stores]
  cases hd : w.stores[id]? with
  | none =>
    rw [hd] at h
    exact h
  | some d =>
    rw [hd] at h
    by_cases hid : other = id
    · by_cases hkey : key = key'
      · simpa [hid, hkey] using (d.get?_set key' v).1
      · simpa [hid] using ((d.get?_set key' v).2 key hkey).trans h
    · simpa [hid] using h

namespace Lang

/-- Read through the cells of its script, the value is one that the host handed over. -/
def Machine.Holds (m : Machine) (x : Value) (v : HostValue) : Prop :=
  HostValue.ofScript m.realm.heap x = .ok v

theorem marshal_ok {m : Machine} {x : Value} {v : HostValue} (hx : m.Holds x v) :
    marshal x m = some (.ok v, m) := by
  rw [marshal, Eval.get_bind, hx]
  rfl

/-- The machine with a value in a store. -/
def Machine.storing (m : Machine) (id : StoreId) (key : String) (v : HostValue) : Machine :=
  { m with world := m.world.modifyStore id (·.set key v) }

/-- `Data.Set` puts the value of the host into the store and does nothing else. -/
theorem onData_set {m : Machine} {x : Value} {v : HostValue} (hx : m.Holds x v) (id : StoreId)
    (key : String) : ∃ set, onData id "Set" [.str key, x] = some set ∧
      set m = some (.ok .unit, m.storing id key v) :=
  ⟨_, rfl, Eval.bind_ok (marshal_ok hx)⟩

/-! ## A script that keeps what it is sent -/

mutual

theorem touches_nil : ∀ v : Value, v.touches [] = false
  | .shared _ => rfl
  | .fn _ curried _ => by rw [Value.touches, someTouches_nil curried]
  | .unit | .bool _ | .int _ | .float _ | .char _ | .str _ | .array _ | .object _ | .blob _
  | .range _ _ _ | .timestamp _ | .handle _ => rfl

theorem someTouches_nil : ∀ vs : List Value, Value.someTouches [] vs = false
  | [] => rfl
  | v :: rest => by rw [Value.someTouches, touches_nil v, someTouches_nil rest]; rfl

end

/-- Where the words of `Data.Set(key, param);` stand. -/
structure KeepPlaces where
  data : Pos
  set : Pos
  key : Pos
  param : Pos

/-- The statement `Data.Set(key, param);`. -/
def keepStmt (key param : String) (place : KeepPlaces) : Stmt :=
  .expr (.chain (.var "Data" false place.data)
    [.method "Set" [.literal (.str key) place.key, .var param true place.param] false place.set])

/-- The key and the parameter of a function `fn OnMessage(param) { Data.Set(key, param); }`. -/
def keeper? (f : FnDef) : Option (String × String) :=
  match f.params, f.body with
  | [param], [.expr (.chain (.var "Data" false _)
      [.method "Set" [.literal (.str key) _, .var x true _] false _])] =>
    if x = param then some (key, param) else none
  | _, _ => none

theorem keeper?_eq_some {f : FnDef} {key param : String} (h : keeper? f = some (key, param)) :
    f.params = [param] ∧ ∃ place, f.body = [keepStmt key param place] := by
  unfold keeper? at h
  split at h
  · rename_i hparams hbody
    split at h
    · rename_i hx
      cases h
      exact ⟨hparams, ⟨_, _, _, _⟩, hx ▸ hbody⟩
    · cases h
  · cases h

/-- The words of the statement mean what they usually mean: the name of the parameter is none of the
host, and no function takes the place of `Data` or `Set`. -/
structure Usual (libraries : Libraries) (functions : List FnDef) (param : String) : Prop where
  globals : libraries.globals = builtinNames
  param : param ∉ builtinNames
  data : ∀ f ∈ functions, f.name ≠ "Data"
  set : ∀ f ∈ functions, f.name = "Set" → f.params.length ≠ 2

instance (libraries : Libraries) (functions : List FnDef) (param : String) :
    Decidable (Usual libraries functions param) :=
  decidable_of_iff (libraries.globals = builtinNames ∧ param ∉ builtinNames ∧
      (∀ f ∈ functions, f.name ≠ "Data") ∧
      ∀ f ∈ functions, f.name = "Set" → f.params.length ≠ 2)
    ⟨fun ⟨hg, hp, hd, hs⟩ => ⟨hg, hp, hd, hs⟩, fun ⟨hg, hp, hd, hs⟩ => ⟨hg, hp, hd, hs⟩⟩

section Keeping

variable {stage : Stage} {m : Machine} {x : Var} {v : HostValue} {functions : List FnDef}
  {key param : String}

/-- What is no cell is what it stands for. -/
theorem flatten_run {v : Value} (hv : ∀ cell, v ≠ .shared cell) (m : Machine) :
    Eval.flatten v m = some (.ok v, m) := by
  have hself : m.realm.heap.flatten v = v := by
    unfold Heap.flatten
    generalize m.realm.heap.size = n
    cases v with
    | shared cell => exact absurd rfl (hv cell)
    | _ => cases n <;> rfl
  exact congrArg (fun v => some (Except.ok v, m)) hself

theorem flatten_toScript (h : Heap) (v : HostValue) : h.flatten v.toScript = v.toScript := by
  unfold Heap.flatten
  generalize h.size = n
  cases v <;> cases n <;> rfl

theorem plainSlot_var {name : String} (hg : stage.libraries.isGlobal name = false)
    (hl : m.frame.locked = []) (hvar : m.frame.vars.find? (·.name == name) = some x) (pos : Place) :
    plainSlot stage name pos m = some (.ok (.var x), m) := by
  have h1 : Eval.var? name m = some (.ok (some x), m) := by
    rw [← hvar]; rfl
  have h2 : Eval.isLocked x.held.value m = some (.ok false, m) := by
    rw [← touches_nil x.held.value, ← hl]; rfl
  simp only [plainSlot, hg, Bool.false_eq_true, if_false]
  refine (Eval.bind_ok h1).trans ?_
  exact Eval.bind_ok h2

theorem slot_host {name : String} {c : Capability} (hg : stage.libraries.isGlobal name = true)
    (hc : stage.builtin? name = some c) (hf : m.frame.functions = [functions])
    (hno : ∀ f ∈ functions, f.name ≠ name) (pos : Place) :
    slot stage name false pos m = some (.ok (.fixed (.handle c)), m) := by
  have hany : Eval.anyFunction? name m = some (.ok none, m) := by
    have hfind : functions.find? (·.name == name) = none := by simpa using hno
    change some (Except.ok (m.frame.functions.findSome? _), m) = _
    rw [hf, List.findSome?_cons, hfind]
    rfl
  refine (Eval.bind_ok hany).trans ?_
  simp only [plainSlot, hg, if_true, hc]
  rfl

theorem function?_none {name : String} {arity : Nat} (hf : m.frame.functions = [functions])
    (hno : ∀ f ∈ functions, f.name = name → f.params.length ≠ arity) :
    Eval.function? name arity m = some (.ok none, m) := by
  have hfind : functions.find? (fun f => f.name == name && f.params.length == arity) = none := by
    simpa using hno
  change some (Except.ok (m.frame.functions.findSome? _), m) = _
  rw [hf, List.findSome?_cons, hfind]
  rfl

/-- `Data.Set` as a method. -/
theorem callMethod_set (run : Run) {y : Value} (hf : m.frame.functions = [functions])
    (hno : ∀ f ∈ functions, f.name = "Set" → f.params.length ≠ 2) (hl : m.frame.locked = [])
    (hy : m.Holds y v) (pos : Place) :
    callMethod stage run (.const (.handle (.data stage.data))) "Set" [.str key, y] pos m =
      some (.ok { outcome := .ok .unit }, m.storing stage.data key v) := by
  have hfree : ensureFree "Set" [.str key, y] pos m = some (.ok (), m) := by
    have hnone : [Value.str key, y].findIdx? (fun v => v.touches m.frame.locked) = none := by
      simp [hl, touches_nil]
    rw [ensureFree, Eval.get_bind, hnone]
    rfl
  obtain ⟨set, hset, hrun⟩ := onData_set hy stage.data key
  have hbuiltin : callBuiltIn stage run "Set" true [.handle (.data stage.data), .str key, y] pos m =
      some (.ok { outcome := .ok .unit }, m.storing stage.data key v) := by
    have hnative : callNative stage "Set" [.handle (.data stage.data), .str key, y] =
        some (do return ({ outcome := .ok (← set) } : Upshot)) := by
      have houtput : outputFunction stage "Set" [.handle (.data stage.data), .str key, y] = none :=
        rfl
      simp only [callNative, houtput, hostFunction, hset]
    have hplaced : placed pos (do return ({ outcome := .ok (← set) } : Upshot)) m =
        some (.ok { outcome := .ok .unit }, m.storing stage.data key v) := by
      have hattempt : Eval.attempt (do return ({ outcome := .ok (← set) } : Upshot)) m =
          some (.ok (.ok { outcome := .ok .unit }), m.storing stage.data key v) := by
        rw [Eval.attempt, Eval.bind_ok hrun]
        rfl
      exact Eval.bind_ok hattempt
    change callByType stage "Set" true [.handle (.data stage.data), .str key, y] pos m = _
    rw [callByType, hnative]
    exact Eval.bind_ok hplaced
  refine (Eval.bind_ok hfree).trans ?_
  exact (Eval.bind_ok (function?_none hf hno)).trans hbuiltin

theorem evaluate_keepStmt (hu : Usual stage.libraries functions param)
    (hf : m.frame.functions = [functions]) (hl : m.frame.locked = [])
    (hvar : m.frame.vars.find? (·.name == param) = some x)
    (hx : m.Holds (m.realm.heap.flatten x.held.value) v) (place : KeepPlaces) (budget : Nat) :
    evaluate stage (budget + 4) (.stmts [keepStmt key param place]) m =
      some (.ok .unit, m.storing stage.data key v) := by
  have hparam : stage.libraries.isGlobal param = false := by
    simp [Libraries.isGlobal, hu.globals, hu.param]
  have hdata : stage.libraries.isGlobal "Data" = true := by
    simp [Libraries.isGlobal, hu.globals, builtinNames]
  let run := evaluate stage (budget + 1)
  let value := m.realm.heap.flatten x.held.value
  have hkey : flat run (.literal (.str key) place.key) m = some (.ok (.str key), m) :=
    flatten_run (v := .str key) (by simp) m
  have harg : flat run (.var param true place.param) m = some (.ok value, m) := by
    have hread : run (.expr (.var param true place.param)) m = some (.ok x.held.value, m) :=
      Eval.bind_ok (plainSlot_var hparam hl hvar _)
    exact Eval.bind_ok hread
  have hlinks : [Step.method "Set" [.literal (.str key) place.key, .var param true place.param]
      false place.set].mapM (evalStep run) m =
        some (.ok [.method "Set" [.str key, value] false place.set], m) := by
    have hargs : [Expr.literal (.str key) place.key, .var param true place.param].mapM
        (flat run) m = some (.ok [.str key, value], m) := by
      simp only [List.mapM_cons, List.mapM_nil]
      refine (Eval.bind_ok hkey).trans ?_
      refine (Eval.bind_ok ((Eval.bind_ok harg).trans rfl)).trans rfl
    have hstep : evalStep run (.method "Set" [.literal (.str key) place.key,
        .var param true place.param] false place.set) m =
          some (.ok (.method "Set" [.str key, value] false place.set), m) :=
      (Eval.bind_ok hargs).trans rfl
    simp only [List.mapM_cons, List.mapM_nil]
    exact (Eval.bind_ok hstep).trans rfl
  have hwalk : walk stage run none [.method "Set" [.str key, value] false place.set]
      (.const (.handle (.data stage.data))) m =
        some (.ok { outcome := .ok .unit }, m.storing stage.data key v) := by
    have hflat : Eval.flatten (.handle (.data stage.data)) m =
        some (.ok (.handle (.data stage.data)), m) := flatten_run (by simp) m
    refine (Eval.bind_ok hflat).trans ?_
    refine (Eval.bind_ok (callMethod_set run hf hu.set hl hx _)).trans ?_
    rfl
  have hchain : evaluate stage (budget + 4) (.stmts [keepStmt key param place]) =
      evalChain stage run none (.var "Data" false place.data)
        [.method "Set" [.literal (.str key) place.key, .var param true place.param] false
          place.set] := rfl
  rw [hchain]
  refine (Eval.bind_ok hlinks).trans ?_
  refine (Eval.bind_ok (slot_host hdata rfl hf hu.data _)).trans ?_
  refine (Eval.bind_ok hwalk).trans ?_
  rfl

end Keeping

end Lang

/-- A message to the instance goes to `fn OnMessage(param) { Data.Set(key, param); }`. -/
structure Instance.Keeps (i : Instance) (libraries : Libraries) (key param : String) : Prop where
  running : i.running = true
  ready : i.state = .ready
  keeper : ∃ b f, i.callable? .onMessage = some (b, .function) ∧
    b.functions.find? (fun f => f.name == EntryPoint.onMessage.name && f.params.length == 1) =
      some f ∧ keeper? f = some (key, param) ∧ Usual libraries b.functions param

/-- The key and the parameter of an instance that keeps what it is sent. -/
def Instance.keeps? (i : Instance) (libraries : Libraries) : Option (String × String) :=
  match i.running, i.state, i.callable? .onMessage with
  | true, .ready, some (b, .function) => do
    let f ← b.functions.find? fun f =>
      f.name == EntryPoint.onMessage.name && f.params.length == 1
    (keeper? f).filter fun (_, param) => Usual libraries b.functions param
  | _, _, _ => none

theorem Instance.keeps_of_keeps? {i : Instance} {libraries : Libraries} {key param : String}
    (h : i.keeps? libraries = some (key, param)) : i.Keeps libraries key param := by
  unfold Instance.keeps? at h
  split at h
  · rename_i b hrunning hready hcallable
    obtain ⟨f, hfind, h⟩ := Option.bind_eq_some_iff.mp h
    obtain ⟨hkeeper, husual⟩ := Option.filter_eq_some_iff.mp h
    exact ⟨hrunning, hready, b, f, hcallable, hfind, hkeeper, of_decide_eq_true husual⟩
  · cases h

section Delivery

variable {i : Instance} {libraries : Libraries} {key param : String}

/-- The function puts what it is given into the store, and that is all. -/
theorem callNamed_keeps (stage : Stage) {b : Binding} {f : FnDef} {name : String}
    (hfind : b.functions.find? (fun f => f.name == name && f.params.length == 1) = some f)
    (hf : Lang.keeper? f = some (key, param)) (hu : Usual stage.libraries b.functions param)
    (payload : HostValue) (w : World) (budget : Nat) : ∃ b' realm,
      Instance.callNamed (evaluate stage (budget + 4)) stage b name [payload.toScript] w =
        some (.ok .unit, b',
          (w.modifyStore stage.data (·.set key payload)).setRealm stage.owner.id realm) := by
  obtain ⟨hparams, place, hbody⟩ := keeper?_eq_some hf
  let x : Var := { name := param, held := { value := payload.toScript } }
  let frame : Frame :=
    { vars := x :: b.vars, functions := [b.functions], kept := b.kept, level := 1 }
  let realm := w.realm stage.owner.id
  have hx : Machine.Holds ⟨w, realm, frame⟩ (realm.heap.flatten payload.toScript) payload := by
    rw [flatten_toScript]
    exact HostValue.ofScript_toScript _ payload
  have hrun : evaluate stage (budget + 4) (.stmts f.body) ⟨w, realm, frame⟩ =
      some (.ok .unit, ⟨w.modifyStore stage.data (·.set key payload), realm, frame⟩) := by
    rw [hbody]
    have hvar : frame.vars.find? (·.name == param) = some x :=
      List.find?_cons_of_pos (beq_self_eq_true param)
    exact evaluate_keepStmt hu rfl rfl hvar hx place budget
  have hperform : perform stage (evaluate stage (budget + 4) (.stmts f.body)) frame w =
      some (.ok .unit, frame,
        (w.modifyStore stage.data (·.set key payload)).setRealm stage.owner.id realm) := by
    change (evaluate stage (budget + 4) (.stmts f.body) ⟨w, realm, frame⟩).bind _ = _
    rw [hrun]
    rfl
  refine ⟨{ b with vars := frame.vars.drop (frame.vars.length - b.vars.length) }, realm, ?_⟩
  simp only [Instance.callNamed, List.length_cons, List.length_nil, Nat.zero_add, hfind, hparams]
  change (perform stage (evaluate stage (budget + 4) (.stmts f.body)) frame w).bind _ = _
  rw [hperform]
  have hended (w : World) : Instance.ended stage w (.ok .unit) = .ok .unit :=
    congrArg Except.ok (HostValue.expand_toScript _ _ .unit)
  simp only [Option.bind_some, hended]
  rfl

/-- Who keeps what it is sent has handled the message, and has kept it. -/
theorem messageVisit_keeps (hi : i.Keeps libraries key param) (payload : HostValue) (w : World)
    (budget : Nat) : ∃ b realm,
      Registry.messageVisit (budget + 4) libraries i.name payload i w = some (true,
        { i with binding := some b },
        (w.modifyStore i.data (·.set key payload)).setRealm i.id realm) := by
  obtain ⟨b, f, hcall, hfind, hkeeper, husual⟩ := hi.keeper
  obtain ⟨b', realm, hnamed⟩ := callNamed_keeps (i.stage libraries) hfind hkeeper husual payload w
    budget
  have hcalled : i.call (budget + 4) libraries .onMessage [payload.toScript] w =
      some (some (.ok .unit), { i with binding := some b' },
        (w.modifyStore i.data (·.set key payload)).setRealm i.id realm) := by
    simp only [Instance.call, hi.ready, hcall]
    rw [hnamed]
    rfl
  have hinvoked : i.invoke (budget + 4) libraries .onMessage [payload] w =
      some (.completed .unit, { i with binding := some b' },
        (w.modifyStore i.data (·.set key payload)).setRealm i.id realm) := by
    simp only [Instance.invoke, hi.running, List.map_cons, List.map_nil, hcalled]
    rfl
  refine ⟨b', realm, ?_⟩
  simp only [Registry.messageVisit, beq_self_eq_true, if_true, Instance.dispatch, hinvoked]
  rfl

/-- Between the worlds, those of the name among some instances kept a payload, and what held the
payload before still holds it. -/
structure Stored (libraries : Libraries) (name : String) (payload : HostValue)
    (is : List Instance) (w w' : World) : Prop where
  size : w'.stores.size = w.stores.size
  stays : ∀ id key, (w.store id).get? key = some payload → (w'.store id).get? key = some payload
  kept : ∀ i ∈ is, i.name = name → i.data < w.stores.size → ∀ key param,
    i.Keeps libraries key param → (w'.store i.data).get? key = some payload

variable {name : String} {payload : HostValue}

theorem Stored.nil (w : World) : Stored libraries name payload [] w w :=
  ⟨rfl, fun _ _ => id, fun _ hi => nomatch hi⟩

theorem Stored.cons {is : List Instance} {w w₁ w' : World}
    (first : Stored libraries name payload [i] w w₁)
    (rest : Stored libraries name payload is w₁ w') :
    Stored libraries name payload (i :: is) w w' where
  size := rest.size.trans first.size
  stays id key h := rest.stays id key (first.stays id key h)
  kept j hj hname hsize key param hkeeps := by
    rcases List.mem_cons.mp hj with rfl | hj
    · exact rest.stays _ _ (first.kept j List.mem_cons_self hname hsize key param hkeeps)
    · exact rest.kept j hj hname (first.size ▸ hsize) key param hkeeps

/-- A visit with the message keeps it, or is none of the instance's business. -/
theorem messageVisit_stored (hi : i.name = name → ∃ key param, i.Keeps libraries key param)
    (payload : HostValue) (w : World) (budget : Nat) : ∃ i' w',
      Registry.messageVisit (budget + 4) libraries name payload i w =
        some (i.name == name, i', w') ∧
      w'.host = w.host ∧ Stored libraries name payload [i] w w' := by
  by_cases hname : i.name = name
  · subst hname
    obtain ⟨key, param, hkeeps⟩ := hi rfl
    obtain ⟨b, realm, hvisit⟩ := messageVisit_keeps hkeeps payload w budget
    have hsize : (w.modifyStore i.data (·.set key payload)).stores.size = w.stores.size :=
      Array.size_setIfInBounds
    rw [beq_self_eq_true]
    refine ⟨_, _, hvisit, rfl, hsize, fun id key' h => ?_, ?_⟩
    · exact World.get?_set_stays h
    · intro j hj _ hdata key' param' hkeeps'
      obtain rfl := List.mem_singleton.mp hj
      obtain ⟨b', realm', hvisit'⟩ := messageVisit_keeps hkeeps' payload w budget
      have hworld : (w.modifyStore j.data (·.set key payload)).setRealm j.id realm =
          (w.modifyStore j.data (·.set key' payload)).setRealm j.id realm' :=
        congrArg (fun p => p.2.2) (Option.some.inj (hvisit.symm.trans hvisit'))
      rw [hworld]
      change ((w.modifyStore j.data (·.set key' payload)).store j.data).get? key' = some payload
      rw [World.store_modifyStore_self w hdata]
      exact (DataStore.get?_set _ key' payload).1
  · refine ⟨i, w, ?_, rfl, rfl, fun _ _ => id, ?_⟩
    · simp only [Registry.messageVisit, beq_eq_false_iff_ne.mpr hname, Bool.false_eq_true, if_false]
    · intro j hj hj'
      exact absurd (List.mem_singleton.mp hj ▸ hj') hname

theorem Registry.applyAdds_none {r : Registry} (h : r.world.host.adds = []) (budget : Nat) :
    r.applyAdds budget = some r := by
  have hworld : r.world.takeAdds = ([], r.world) := by
    rw [World.takeAdds, World.modifyHost, h, ← h]
  rw [Registry.applyAdds, hworld]
  rfl

/-- A pass with a message, from a place of the list on: all of the name keep it. -/
theorem passFrom_stored {budget : Nat} (left : Nat) : ∀ (index : Nat) (r : Registry),
    r.world.host.adds = [] → r.instances.length ≤ left + index →
    (∀ i ∈ r.instances.drop index, i.name = name →
      ∃ key param, i.Keeps r.libraries key param) →
    ∃ r', Registry.passFrom (budget + 4)
        (Registry.messageVisit (budget + 4) r.libraries name payload) (left + 1) index r =
          some ((r.instances.drop index).map (·.name == name), r') ∧
      Stored r.libraries name payload (r.instances.drop index) r.world r'.world := by
  induction left with
  | zero =>
    intro index r _ hlength _
    rw [Nat.zero_add] at hlength
    rw [Registry.passFrom, List.getElem?_eq_none hlength, List.drop_eq_nil_of_le hlength]
    exact ⟨r, rfl, .nil _⟩
  | succ left ih =>
    intro index r hadds hlength hall
    rw [Registry.passFrom]
    cases hi : r.instances[index]? with
    | none =>
      rw [List.drop_eq_nil_of_le (List.getElem?_eq_none_iff.mp hi)]
      exact ⟨r, rfl, .nil _⟩
    | some i =>
      obtain ⟨hlt, hget⟩ := List.getElem?_eq_some_iff.mp hi
      have hdrop : r.instances.drop index = i :: r.instances.drop (index + 1) := by
        rw [← hget]
        exact List.drop_eq_getElem_cons hlt
      rw [hdrop, List.forall_mem_cons] at hall
      obtain ⟨i', w', hvisit, hhost, hstored⟩ :=
        messageVisit_stored hall.1 payload r.world budget
      let r₁ : Registry := { r with world := w', instances := r.instances.set index i' }
      have hafter : r₁.instances.drop (index + 1) = r.instances.drop (index + 1) :=
        List.drop_set_of_lt (Nat.lt_succ_self index)
      have hadds₁ : r₁.world.host.adds = [] := hhost ▸ hadds
      have hvisitAt : r.visitAt (budget + 4)
          (Registry.messageVisit (budget + 4) r.libraries name payload) index i =
            some (i.name == name, r₁) := by
        rw [Registry.visitAt, hvisit]
        change (r₁.applyAdds (budget + 4)).bind _ = _
        rw [Registry.applyAdds_none hadds₁]
        rfl
      obtain ⟨r', hrest, hstored'⟩ := ih (index + 1) r₁ hadds₁
        (by rw [List.length_set]; omega) (hafter ▸ hall.2)
      refine ⟨r', ?_, ?_⟩
      · change (r.visitAt _ _ index i).bind _ = _
        rw [hvisitAt]
        change (Registry.passFrom _ (Registry.messageVisit _ r₁.libraries name payload) (left + 1)
          (index + 1) r₁).bind _ = _
        rw [hrest, hafter, hdrop]
        rfl
      · rw [hdrop]
        exact hstored.cons (hafter ▸ hstored')

end Delivery

/-- A value of the host comes back from scripts as it was. -/
structure RoundTrip (v : HostValue) : Prop where
  /-- Made into a value of a script, it is read as itself. -/
  crosses : ∀ h : Heap, HostValue.ofScript h v.toScript = .ok v
  /-- A script that sets it, itself or a cell with it, has put it into the store. -/
  stored : ∀ (m : Machine) (x : Value) (id : StoreId) (key : String), id < m.world.stores.size →
    (x = v.toScript ∨ ∃ cell held, x = .shared cell ∧ m.realm.heap[cell]? = some held ∧
      held.value = v.toScript) →
    ∃ set m', hostFunction "Set" [.handle (.data id), .str key, x] = some set ∧
      set m = some (.ok .unit, m') ∧ (m'.world.store id).get? key = some v
  /-- Sent to a name all of whose instances keep what they are sent, it is handled by each of them
  and is in the store of each. -/
  delivered : ∀ (r : Registry) (name : String) (budget : Nat), r.world.host.adds = [] →
    4 ≤ budget → r.instances.length < budget →
    (∀ i ∈ r.instances, i.name = name → ∃ key param, i.Keeps r.libraries key param) →
    ∃ r', r.sendMessage budget name v = some (r.instances.countP (·.name == name), r') ∧
      ∀ i ∈ r.instances, i.name = name → i.data < r.world.stores.size → ∀ key param,
        i.Keeps r.libraries key param → (r'.world.store i.data).get? key = some v

/-- Every value of the host makes the round trip. -/
theorem round_trip (v : HostValue) : RoundTrip v where
  crosses h := HostValue.ofScript_toScript h v
  stored m x id key hid hx := by
    have hholds : m.Holds x v := by
      rcases hx with rfl | ⟨cell, held, rfl, hcell, hheld⟩
      · exact HostValue.ofScript_toScript m.realm.heap v
      · exact HostValue.ofScript_shared hcell hheld
    obtain ⟨set, hset, hrun⟩ := onData_set hholds id key
    refine ⟨set, _, hset, hrun, ?_⟩
    rw [Machine.storing, World.store_modifyStore_self _ hid]
    exact (DataStore.get?_set _ key v).1
  delivered r name budget hadds hbudget hlength hall := by
    obtain ⟨n, rfl⟩ := Nat.exists_eq_add_of_le' hbudget
    have hleft : r.instances.length ≤ n + 3 + 0 := by omega
    obtain ⟨r', hpass, hstored⟩ :
        ∃ r', Registry.passFrom (n + 4) (Registry.messageVisit (n + 4) r.libraries name v)
          (n + 4) 0 r = some ((r.instances.drop 0).map (·.name == name), r') ∧
          Stored r.libraries name v (r.instances.drop 0) r.world r'.world :=
      passFrom_stored (n + 3) 0 r hadds hleft hall
    refine ⟨r', ?_, hstored.kept⟩
    rw [Registry.sendMessage, Registry.pass]
    change (Registry.passFrom _ _ (n + 3 + 1) 0 r).bind _ = _
    rw [hpass]
    have hcount : ((r.instances.drop 0).map (·.name == name)).count true =
        r.instances.countP (·.name == name) := by
      rw [List.drop_zero, List.count, List.countP_map]
      congr 1
      funext i
      simp
    exact congrArg (fun n => some (n, r')) hcount

/-- A map of all kinds of values, no number among them, a store and a script. -/
def mixedPayload : HostValue :=
  .map [("deep", .list [.map [("none", .unit)], .float (0.0 / 0.0), .handle (.image 0)]),
    ("flag", .bool true), ("least", .int Int64.minValue),
    ("refs", .list [.handle (.data 0), .handle (.script ⟨7, "B"⟩), .handle (.host 0)]),
    ("text", .str "")]

set_option maxRecDepth 100000 in
/-- A script keeps such a map when it is sent. -/
theorem round_trip_inbox : ∃ (c : HostConfig) (w : World) (r r' : Registry) (i : Instance),
    Op.runAll 40 (.start c w) [.add "A"] = some r ∧ r.instances = [i] ∧
      i.keeps? r.libraries = some ("inbox", "m") ∧
      r.sendMessage 40 "A" mixedPayload = some (1, r') ∧
      (r'.world.store i.data).get? "inbox" = some mixedPayload := by
  let c : HostConfig := { scripts := { startup := [] } }
  let w : World := .ofScript "A.rhai" "fn OnMessage(m) \x7b Data.Set(\"inbox\", m); \x7d"
  have hrun : (Op.runAll 40 (.start c w) [.add "A"]).any (fun r =>
      r.world.host.adds == [] && r.instances.map (fun i => (i.name, i.keeps? r.libraries,
        decide (i.data < r.world.stores.size))) == [("A", some ("inbox", "m"), true)]) = true := by
    decide +kernel
  obtain ⟨r, hr, hshows⟩ := (Option.any_eq_true _ _).mp hrun
  obtain ⟨hadds, hinstances⟩ := Bool.and_eq_true_iff.mp hshows
  obtain ⟨i, his, hi⟩ := List.map_eq_singleton_iff.mp (beq_iff_eq.mp hinstances)
  obtain ⟨hname, hkeeps, hdata⟩ : i.name = "A" ∧ i.keeps? r.libraries = some ("inbox", "m") ∧
      i.data < r.world.stores.size := by
    simpa using hi
  have hall : ∀ j ∈ r.instances, j.name = "A" → ∃ key param, j.Keeps r.libraries key param := by
    intro j hj _
    rw [his, List.mem_singleton] at hj
    exact ⟨"inbox", "m", Instance.keeps_of_keeps? (hj ▸ hkeeps)⟩
  obtain ⟨r', hsend, hkept⟩ := (round_trip mixedPayload).delivered r "A" 40 (beq_iff_eq.mp hadds)
    (by decide) (by simp [his]) hall
  refine ⟨c, w, r, r', i, hr, his, hkeeps, ?_, ?_⟩
  · rw [hsend, his, List.countP_singleton, hname]
    rfl
  · exact hkept i (his ▸ List.mem_singleton_self i) hname hdata "inbox" "m"
      (Instance.keeps_of_keeps? hkeeps)

end Stagehand
