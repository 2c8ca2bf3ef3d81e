import Stagehand.Proofs.Conversion
import Stagehand.Proofs.Deeds
import Stagehand.Proofs.StoreWrites

/-!
# Stores as maps

A store is one finite map for all who hold its number: under a key is what was written last, by
whoever and through whichever handle (`Deed.store_get?`), and the keys are in order. `Set` and
`SetAll` write to the store that they are called on, and only if the whole value converts
(`storeFunctions`). What is in a store stays until code of a script or the host writes there.
-/

namespace Stagehand

open Lang

/-! ## One store -/

namespace DataStore

/-- The keys of the store are in order. -/
def Ordered (d : DataStore) : Prop := Entries.Ordered d.entries

theorem get?_setAll (d : DataStore) (entries : List (String × HostValue)) (key : String) :
    (d.setAll entries).get? key = entries.reverse.lookup key := Entries.get?_ofList key entries

theorem Ordered.set {d : DataStore} (hd : d.Ordered) (key : String) (value : HostValue) :
    (d.set key value).Ordered := Entries.ordered_put hd

theorem ordered_setAll (d : DataStore) (entries : List (String × HostValue)) :
    (d.setAll entries).Ordered := Entries.ordered_ofList entries

theorem mem_keys {d : DataStore} {key : String} : key ∈ d.keys ↔ (d.get? key).isSome :=
  Entries.mem_keys

/-- A store has as many keys as it says, each once and in order, and those it has a value under. -/
structure Keyed (d : DataStore) : Prop where
  ascending : d.keys.Pairwise fun a b => utf8Bytes a < utf8Bytes b
  value : ∀ key, key ∈ d.keys ↔ (d.get? key).isSome
  count : d.size = d.keys.length ∧ d.keys.Nodup

theorem Ordered.keyed {d : DataStore} (hd : d.Ordered) : d.Keyed where
  ascending := Entries.keys_ascending hd
  value _ := mem_keys
  count := ⟨(List.length_map _).symm, (List.pairwise_map.mpr hd).imp fun h => h.ne⟩

/-- Replacing everything leaves the new keys and no others. -/
theorem mem_keys_setAll (d : DataStore) (entries : List (String × HostValue)) (key : String) :
    key ∈ (d.setAll entries).keys ↔ key ∈ entries.map (·.1) := by
  rw [mem_keys, get?_setAll, List.lookup_isSome_iff, List.mem_map]
  simp only [List.mem_reverse, beq_iff_eq]
  exact exists_congr fun e => and_congr_right fun _ => eq_comm

end DataStore

/-! ## What was written last -/

/-- What an effect leaves under a key of a store, if it has a say in it: a value, or nothing. -/
def Effect.puts (id : StoreId) (key : String) : Effect → Option (Option HostValue)
  | .set other k value => if other = id ∧ k = key then some (some value) else none
  | .setAll other entries => if other = id then some (entries.reverse.lookup key) else none
  | _ => none

/-- Under a key is what an effect left there, or what was there. -/
theorem Effect.get?_write (e : Effect) (id : StoreId) (key : String) (d : DataStore) :
    (e.write id d).get? key = (e.puts id key).getD (d.get? key) := by
  cases e with
  | set other k value =>
    by_cases hid : other = id
    · by_cases hk : k = key
      · simpa [Effect.write, Effect.puts, hid, hk] using (d.get?_set key value).1
      · simpa [Effect.write, Effect.puts, hid, hk] using (d.get?_set k value).2 key (Ne.symm hk)
    · simp [Effect.write, Effect.puts, hid]
  | setAll other entries =>
    by_cases hid : other = id
    · simpa [Effect.write, Effect.puts, hid] using d.get?_setAll entries key
    · simp [Effect.write, Effect.puts, hid]
  | _ => rfl

namespace Deed

/-- What a deed makes of a store. -/
def write (id : StoreId) (d : Deed) : DataStore → DataStore :=
  (d.effect?.map (Effect.write id)).getD fun x => x

theorem store_apply (d : Deed) {w : World} {id : StoreId} (hid : id < w.stores.size) :
    id < (d.apply w).stores.size ∧ (d.apply w).store id = d.write id (w.store id) := by
  cases d with
  | effect e =>
    have hstores := e.apply_stores w id
    rw [Array.getElem?_eq_getElem hid, Option.map_some] at hstores
    refine ⟨(Array.getElem?_eq_some_iff.mp hstores).1, ?_⟩
    rw [World.store, World.store, apply, hstores, Array.getElem?_eq_getElem hid]
    rfl
  | newStore =>
    have hpush : id < (w.stores.push {}).size := Array.size_push _ ▸ Nat.lt_succ_of_lt hid
    refine ⟨hpush, ?_⟩
    change ((w.stores.push {})[id]?).getD default = (w.stores[id]?).getD default
    rw [Array.getElem?_push_lt hid, Array.getElem?_eq_getElem hid]
  | newImage | paint | elsewhere => exact ⟨hid, rfl⟩

/-- Whatever happens, under a key of a store is the last thing that was left there. -/
theorem store_get? (key : String) : ∀ (ds : List Deed) {w : World} {id : StoreId},
    id < w.stores.size →
    ((applyAll ds w).store id).get? key =
      ((effects ds).reverse.findSome? (Effect.puts id key)).getD ((w.store id).get? key)
  | [], _, _, _ => rfl
  | d :: ds, w, id, hid => by
    obtain ⟨hsize, hstore⟩ := d.store_apply hid
    rw [applyAll_cons, store_get? key ds hsize, hstore]
    cases he : d.effect? with
    | none =>
      have heffects : effects (d :: ds) = effects ds := List.filterMap_cons_none he
      rw [heffects, write, he]
      rfl
    | some e =>
      have heffects : effects (d :: ds) = e :: effects ds := List.filterMap_cons_some he
      rw [heffects, write, he, List.reverse_cons, List.findSome?_append, List.findSome?_singleton]
      change _ = (((effects ds).reverse.findSome? (Effect.puts id key)).or _).getD _
      cases (effects ds).reverse.findSome? (Effect.puts id key) with
      | none => exact e.get?_write id key (w.store id)
      | some v => rfl

end Deed

/-! ## Keys in order -/

/-- The keys of every store are in order. -/
def World.KeysOrdered (w : World) : Prop := ∀ id, (w.store id).Ordered

theorem Effect.ordered_write (e : Effect) (id : StoreId) {d : DataStore} (hd : d.Ordered) :
    (e.write id d).Ordered := by
  cases e with
  | set other k value =>
    by_cases hid : other = id
    · simpa [Effect.write, hid] using hd.set k value
    · simpa [Effect.write, hid] using hd
  | setAll other entries =>
    by_cases hid : other = id
    · simpa [Effect.write, hid] using d.ordered_setAll entries
    · simpa [Effect.write, hid] using hd
  | _ => exact hd

theorem World.store_of_le {w : World} {id : StoreId} (h : w.stores.size ≤ id) :
    w.store id = {} := by
  rw [World.store, Array.getElem?_eq_none h]
  rfl

theorem Deed.keysOrdered (d : Deed) (w : World) (hw : w.KeysOrdered) :
    (d.apply w).KeysOrdered := by
  intro id
  by_cases hid : id < w.stores.size
  · rw [(d.store_apply hid).2, Deed.write]
    cases d.effect? with
    | none => exact hw id
    | some e => exact e.ordered_write id (hw id)
  · have hnew : (d.apply w).store id = {} := by
      have hle := Nat.le_of_not_lt hid
      cases d with
      | effect e =>
        have hstores := e.apply_stores w id
        rw [Array.getElem?_eq_none hle] at hstores
        rw [World.store, Deed.apply, hstores]
        rfl
      | newStore =>
        change ((w.stores.push {})[id]?).getD default = {}
        rw [Array.getElem?_push]
        split
        · rfl
        · rw [Array.getElem?_eq_none hle]
          rfl
      | newImage | paint | elsewhere => exact World.store_of_le hle
    rw [hnew]
    exact Entries.ordered_nil

/-! ## The functions on stores -/

theorem marshal_error {m : Machine} {x : Value} {e : HostValue.Unsupported}
    (hx : HostValue.ofScript m.realm.heap x = .error e) :
    marshal x m = some (.error (refusal e.message), m) := by
  rw [marshal, Eval.get_bind, hx]
  rfl

/-- The values of an object convert under the keys that they have. -/
theorem ofFlatFields_keys {look : CellId → Value} :
    ∀ {fields : List (String × Value)} {es : List (String × HostValue)},
      HostValue.ofFlatFields (Value.expandFields look fields) = .ok es →
      es.map (·.1) = fields.map (·.1)
  | [], es, h => by
    cases h
    rfl
  | (k, x) :: rest, es, h => by
    obtain ⟨u, es', -, hrest, rfl⟩ := HostValue.ofFlatFields_ok h
    simp only [List.map_cons, ofFlatFields_keys hrest]

theorem ofScript_object {h : Heap} {fields : List (String × Value)} {v : HostValue}
    (hv : HostValue.ofScript h (.object fields) = .ok v) :
    ∃ es, v = .map es ∧ es.map (·.1) = fields.map (·.1) := by
  obtain ⟨look, hlook⟩ := h.expand_eq h.size
  rw [HostValue.ofScript, hlook] at hv
  obtain ⟨es, hes, rfl⟩ := HostValue.ofFlat_object_ok hv
  exact ⟨es, rfl, ofFlatFields_keys hes⟩

/-- The machine with a world in which there was another effect. -/
def Lang.Machine.with (m : Machine) (e : Effect) : Machine := { m with world := e.apply m.world }

/-- What the functions on a store do at a machine. -/
structure StoreFunctions (m : Machine) : Prop where
  /-- `Get` yields what is under the key, or the unit, and changes nothing. -/
  get : ∀ id key, ∃ x, hostFunction "Get" [.handle (.data id), .str key] = some x ∧
    x m = some (.ok ((((m.world.store id).get? key).map HostValue.toScript).getD .unit), m)
  /-- `Keys` yields the keys in their order and changes nothing. -/
  keys : ∀ id, ∃ x, hostFunction "Keys" [.handle (.data id)] = some x ∧
    x m = some (.ok (.array ((m.world.store id).keys.map .str)), m)
  /-- `Set` of a value that converts is a write under the key. -/
  set : ∀ id key v u, HostValue.ofScript m.realm.heap v = .ok u →
    ∃ x, hostFunction "Set" [.handle (.data id), .str key, v] = some x ∧
      x m = some (.ok .unit, m.with (.set id key u))
  /-- `SetAll` of an object that converts writes all its fields, under their names. -/
  setAll : ∀ id fields u, HostValue.ofScript m.realm.heap (.object fields) = .ok u →
    ∃ x es, hostFunction "SetAll" [.handle (.data id), .object fields] = some x ∧ u = .map es ∧
      es.map (·.1) = fields.map (·.1) ∧ x m = some (.ok .unit, m.with (.setAll id es))
  /-- `Set` of a value with an unsupported value anywhere in it raises an error and leaves all as it
  was. -/
  setRefused : ∀ id key v y, HostValue.Contains m.realm.heap v y → y.whole = true →
    y.supported = false → ∃ x e, hostFunction "Set" [.handle (.data id), .str key, v] = some x ∧
      HostValue.ofScript m.realm.heap v = .error e ∧ x m = some (.error (refusal e.message), m)
  /-- And so does `SetAll`, whatever fields of the object would convert. -/
  setAllRefused : ∀ id fields y, HostValue.Contains m.realm.heap (.object fields) y →
    y.whole = true → y.supported = false →
    ∃ x e, hostFunction "SetAll" [.handle (.data id), .object fields] = some x ∧
      HostValue.ofScript m.realm.heap (.object fields) = .error e ∧
      x m = some (.error (refusal e.message), m)

theorem storeFunctions (m : Machine) : StoreFunctions m where
  get id key := by
    refine ⟨_, rfl, ?_⟩
    change (get >>= fun m => _ : Eval Value) m = _
    rw [Eval.get_bind]
    cases (m.world.store id).get? key <;> rfl
  keys id := ⟨_, rfl, rfl⟩
  set id key v u hu := ⟨_, rfl, Eval.bind_ok (marshal_ok hu)⟩
  setAll id fields u hu := by
    obtain ⟨es, rfl, hkeys⟩ := ofScript_object hu
    refine ⟨_, es, rfl, rfl, hkeys, ?_⟩
    have hfields : marshalFields fields m = some (.ok es, m) := Eval.bind_ok (marshal_ok hu)
    exact Eval.bind_ok hfields
  setRefused id key v y hy hw hs := by
    obtain ⟨e, he⟩ := hy.refused hw hs
    exact ⟨_, e, rfl, he, Eval.bind_error (marshal_error he)⟩
  setAllRefused id fields y hy hw hs := by
    obtain ⟨e, he⟩ := hy.refused hw hs
    have hfields : marshalFields fields m = some (.error (refusal e.message), m) :=
      Eval.bind_error (marshal_error he)
    exact ⟨_, e, rfl, he, Eval.bind_error hfields⟩

/-! ## The law of stores -/

/-- What holds of the stores when deeds have led from one world to another. A handle is the number
of a store, and whoever has the number has the store. -/
structure StoreLaw (w₀ : World) (ds : List Deed) (w : World) : Prop where
  /-- Under a key of a store is what the last effect that had a say in it left there, a value or
  nothing; if there was none, what was there before. -/
  content : ∀ id key, id < w₀.stores.size → (w.store id).get? key =
    ((Deed.effects ds).reverse.findSome? (Effect.puts id key)).getD ((w₀.store id).get? key)
  /-- So what nobody writes stays, through loads, reloads and dispatches of any number. -/
  survives : ∀ id key, id < w₀.stores.size → (∀ e ∈ Deed.effects ds, e.puts id key = none) →
    (w.store id).get? key = (w₀.store id).get? key
  /-- The keys are ascending byte by byte, and there are as many as the store says. -/
  keyed : ∀ id, (w.store id).Keyed
  /-- To replace everything leaves the new keys and no others. -/
  replaced : ∀ id entries, id < w.stores.size → ∀ key,
    key ∈ (((Effect.setAll id entries).apply w).store id).keys ↔ key ∈ entries.map (·.1)
  /-- A store that is made is empty, and no other than those that are there. -/
  fresh : w.addStore.1 = w.stores.size ∧ w.addStore.2.store w.stores.size = {}
  /-- The functions on stores read this world and write to it, or raise an error. -/
  functions : ∀ m : Machine, m.world = w → StoreFunctions m
  /-- No other function that scripts are given writes a store. -/
  others : ∀ stage name args y, name ≠ "Set" → name ≠ "SetAll" →
    callNative stage name args = some y → LeavesStores y
  /-- Nor does a load, a reload, a dispatch or a removal: around the code of scripts that is run,
  nothing writes a store. -/
  acts : ∀ (r r' : Registry) (e : Event), r.world = w → Act r e r' → e.seeds = false →
    r'.world.stores = w.stores ∨ ∃ (i : Instance) (v : World),
      (v = w ∨ v = w.addStore.2) ∧ RanCode (i.stage r.libraries) v r'.world
  /-- Whatever the host does with a registry goes on with deeds, those of its events. -/
  operations : ∀ (budget : Nat) (r r' : Registry) (o : Op), r.world = w →
    o.run budget r = some r' → ∃ es more, Path r es r' ∧ Deed.applyAll more w = r'.world ∧
      Accounted es (Deed.effects more)

/-- Every store is a map, whatever is done to however many of them, by whom and in which order. -/
theorem stores_are_maps (w₀ : World) (hw : w₀.KeysOrdered) (ds : List Deed) :
    StoreLaw w₀ ds (Deed.applyAll ds w₀) where
  content id key hid := Deed.store_get? key ds hid
  survives id key hid hnone := by
    have hlast : (Deed.effects ds).reverse.findSome? (Effect.puts id key) = none :=
      List.findSome?_eq_none_iff.mpr fun e he => hnone e (List.mem_reverse.mp he)
    rw [Deed.store_get? key ds hid, hlast]
    rfl
  keyed id := (Deed.applyAll_invariant Deed.keysOrdered ds hw id).keyed
  replaced id entries hid key := by
    change key ∈ (((Deed.applyAll ds w₀).modifyStore id _).store id).keys ↔ _
    rw [World.store_modifyStore_self _ hid]
    exact DataStore.mem_keys_setAll _ entries key
  fresh := by
    refine ⟨rfl, ?_⟩
    simp [World.store, World.addStore]
  functions m _ := storeFunctions m
  others _ _ _ _ hset hall h := callNative_leavesStores hset hall h
  acts r r' e hr hact he := hr ▸ hact.ranCode he
  operations budget r r' o hr ho := by
    obtain ⟨es, more, hpath, -, hmore, haccounted⟩ := Op.deeds ho
    exact ⟨es, more, hpath, hr ▸ hmore, haccounted⟩

/-- Two stores: in the second is a handle to the first, and a script replaces all that is in it. In
between all else changes, the first keeps what it has and takes on an image. -/
theorem stores_are_maps_two :
    let w₀ : World := { (default : World) with
      stores := #[⟨[("a", .int 1)]⟩, ⟨[("own", .handle (.data 0))]⟩] }
    let ds : List Deed := [.effect (.set 0 "B" (.handle (.image 3))), .elsewhere default,
      .effect (.setAll 1 [("z", .unit), ("own", .bool true)])]
    w₀.KeysOrdered ∧ StoreLaw w₀ ds (Deed.applyAll ds w₀) ∧
      ((Deed.applyAll ds w₀).store 0).keys = ["B", "a"] ∧
      ((Deed.applyAll ds w₀).store 0).get? "a" = some (.int 1) ∧
      ((Deed.applyAll ds w₀).store 0).get? "B" = some (.handle (.image 3)) ∧
      ((Deed.applyAll ds w₀).store 1).keys = ["own", "z"] := by
  intro w₀ ds
  have hordered : w₀.KeysOrdered
    | 0 => List.pairwise_singleton _ _
    | 1 => List.pairwise_singleton _ _
    | _ + 2 => List.Pairwise.nil
  exact ⟨hordered, stores_are_maps w₀ hordered ds, by decide +kernel, rfl, rfl, by decide +kernel⟩

end Stagehand
