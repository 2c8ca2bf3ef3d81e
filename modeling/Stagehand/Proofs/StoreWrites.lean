import Stagehand.Proofs.Requests

/-!
# Who writes a store

Of the functions of the host none writes a store but `Set` and `SetAll` (`callNative_leavesStores`).
Loads, reloads and dispatches run code of scripts, once or several times, and around it they write
the log, ask the clock and keep what came of it: between one run of code and the next, and before
and behind, every store is as it was (`RanCode`, `Act.ranCode`).
-/

namespace Stagehand

open Lang

/-! ## Functions that leave the stores alone -/

/-- However the run ends, the stores are what they were. -/
def Lang.LeavesStores {α : Type} (x : Eval α) : Prop :=
  ∀ (m : Machine) (r : Except Halt α) (m' : Machine), x m = some (r, m') →
    m'.world.stores = m.world.stores

namespace Lang.LeavesStores

variable {α β : Type}

theorem pure (a : α) : LeavesStores (Pure.pure a : Eval α) :=
  Leads.pure (K := fun m m' => m'.world.stores = m.world.stores) (fun _ => rfl) a

theorem throw (halt : Halt) : LeavesStores (MonadExcept.throw halt : Eval α) :=
  Leads.throw (K := fun m m' => m'.world.stores = m.world.stores) (fun _ => rfl) halt

theorem reject (message : String) : LeavesStores (Eval.reject message : Eval α) := throw _

theorem bind {x : Eval α} {f : α → Eval β} (hx : LeavesStores x) (hf : ∀ a, LeavesStores (f a)) :
    LeavesStores (x >>= f) := Leads.bind (fun h h' => h'.trans h) hx hf

theorem look {f : Machine → Eval α} (hf : ∀ m, LeavesStores (f m)) : LeavesStores (get >>= f) :=
  fun m r m' h => hf m m r m' h

theorem act {f : World → World} (hf : ∀ w, (f w).stores = w.stores) :
    LeavesStores (Lang.act f) := by
  refine bind (fun m r m' h => ?_) fun _ => pure _
  cases h
  exact hf m.world

theorem askWorld {f : World → α × World} (hf : ∀ w, (f w).2.stores = w.stores) :
    LeavesStores (Eval.askWorld f) := by
  intro m r m' h
  cases h
  exact hf m.world

theorem numberOf (v : Value) : LeavesStores (Lang.numberOf v) := by
  unfold Lang.numberOf
  split
  · exact pure _
  · exact pure _
  · exact reject _

end Lang.LeavesStores

theorem World.loadImage_stores (w : World) (path : String) :
    (w.loadImage path).2.stores = w.stores := by
  obtain ⟨images, assets, h⟩ := w.loadImage_world path
  rw [h]

theorem World.random_stores (w : World) (low high : Float) :
    (w.random low high).2.stores = w.stores := by
  obtain ⟨seed, h⟩ := w.random_world low high
  rw [h]

namespace Lang

variable {stage : Stage} {name : String} {args : List Value} {x : Eval Value}

theorem onHost_leavesStores (h : onHost name args = some x) : LeavesStores x := by
  unfold onHost at h
  split at h <;> cases h
  · exact .look fun _ => .pure _
  · exact .act fun _ => rfl
  · exact .look fun _ => .pure _
  · exact .look fun _ => .pure _
  · exact .look fun _ => .pure _
  · refine .bind (.askWorld fun w => w.loadImage_stores _) fun r => ?_
    split
    · exact .pure _
    · exact .reject _
  · exact .act fun _ => rfl
  · refine .bind (.numberOf _) fun low => .bind (.numberOf _) fun high => ?_
    refine .bind (.askWorld fun w => w.random_stores low high) fun r => ?_
    split
    · exact .pure _
    · exact .reject _

theorem onData_leavesStores {id : StoreId} (hset : name ≠ "Set") (hall : name ≠ "SetAll")
    (h : onData id name args = some x) : LeavesStores x := by
  unfold onData at h
  split at h <;> cases h
  · refine .look fun m => ?_
    split
    · exact .pure _
    · exact .pure _
  · exact absurd rfl hset
  · exact absurd rfl hall
  · exact .look fun _ => .pure _

theorem onScript_leavesStores {handle : ScriptHandle} (h : onScript handle name args = some x) :
    LeavesStores x := by
  unfold onScript at h
  split at h <;> cases h
  · exact .act fun _ => rfl
  · exact .pure _

theorem onImage_leavesStores {id : ImageId} (h : onImage id name args = some x) :
    LeavesStores x := by
  unfold onImage at h
  split at h <;> cases h
  · exact .look fun _ => .pure _
  · exact .look fun _ => .pure _
  · exact .bind (.numberOf _) fun _ => .bind (.numberOf _) fun _ => .act fun _ => rfl

theorem hostFunction_leavesStores (hset : name ≠ "Set") (hall : name ≠ "SetAll")
    (h : hostFunction name args = some x) : LeavesStores x := by
  unfold hostFunction at h
  split at h
  · exact onHost_leavesStores h
  · exact onData_leavesStores hset hall h
  · exact onScript_leavesStores h
  · exact onImage_leavesStores h
  · nomatch h

theorem outputFunction_leavesStores (h : outputFunction stage name args = some x) :
    LeavesStores x := by
  unfold outputFunction at h
  split at h <;> cases h
  · exact .act fun _ => rfl
  · exact .act fun _ => rfl
  · exact .act fun _ => rfl
  · exact .act fun _ => rfl
  · exact .bind (.askWorld fun _ => rfl) fun _ => .pure _
  · exact .throw _
  · exact .throw _

/-- Of all functions that are not a script's own, `Set` and `SetAll` alone write a store. -/
theorem callNative_leavesStores {y : Eval Upshot} (hset : name ≠ "Set") (hall : name ≠ "SetAll")
    (h : callNative stage name args = some y) : LeavesStores y := by
  unfold callNative at h
  dsimp only at h
  split at h
  · rename_i x hx
    cases h
    exact .bind (outputFunction_leavesStores hx) fun _ => .pure _
  · split at h
    · rename_i x hx
      cases h
      exact .bind (hostFunction_leavesStores hset hall hx) fun _ => .pure _
    · obtain ⟨r, -, rfl⟩ := Option.map_eq_some_iff.mp h
      refine .bind ?_ fun _ => .pure _
      cases r with
      | ok a => exact .pure a
      | error cause => exact .throw _

end Lang

/-! ## Runs of code and what is around them -/

/-- From one world to the other, whatever wrote a store was code of scripts. -/
inductive RanCode (stage : Stage) : World → World → Prop
  | idle {w w' : World} (h : w'.stores = w.stores) : RanCode stage w w'
  | code {α : Type} {x : Eval α} {frame frame' : Frame} {r : Except Halt α} {w w₁ w' : World}
      (hx : Code stage x) (h : perform stage x frame w = some (r, frame', w₁))
      (hrest : RanCode stage w₁ w') : RanCode stage w w'

namespace RanCode

variable {stage : Stage} {w w' w'' : World}

theorem followed (h : RanCode stage w w') (hidle : w''.stores = w'.stores) :
    RanCode stage w w'' := by
  induction h with
  | idle h => exact .idle (hidle.trans h)
  | code hx hrun _ ih => exact .code hx hrun (ih hidle)

end RanCode

theorem Performed.ranCode {stage : Stage} {w w' : World} (h : Performed stage w w') :
    RanCode stage w w' := by
  induction h with
  | nothing => exact .idle rfl
  | code hx hrun _ ih => exact .code hx hrun ih

namespace Instance

variable {budget : Nat} {libraries : Libraries} {i i' : Instance} {w w' : World}

/-- A load or reload writes no store but by the code that it runs. -/
theorem reload_ranCode {r : Except ReloadError Unit}
    (h : i.reload budget libraries w = some (r, i', w')) : RanCode (i.stage libraries) w w' := by
  rcases reload_cases h with ⟨b, w₁, hbuild, -, -, rfl⟩ | ⟨e, w₁, hbuild, -, -, rfl⟩ <;>
    exact (build_performed hbuild).ranCode.followed rfl

/-- A dispatch writes no store but by the code that it runs. -/
theorem dispatch_ranCode {e : EntryPoint} {args : List HostValue} {o : Outcome}
    (h : i.dispatch budget libraries e args w = some (o, i', w')) :
    RanCode (i.stage libraries) w w' := by
  rcases dispatch_iff.mp h with ⟨err, i₁, w₁, hinvoke, -, -, rfl⟩ | ⟨hinvoke, -⟩
  · exact (invoke_performed hinvoke).ranCode.followed rfl
  · exact (invoke_performed hinvoke).ranCode

end Instance

/-- The host puts a value into a store. -/
def Event.seeds : Event → Bool
  | .chore (.seed _ _ _) => true
  | _ => false

/-- No act writes a store but by the code that it runs for an instance, unless the host puts a value
there. A new instance first gets a store, which is empty. -/
theorem Act.ranCode {r r' : Registry} {e : Event} (h : Act r e r') (he : e.seeds = false) :
    r'.world.stores = r.world.stores ∨ ∃ (i : Instance) (w : World),
      (w = r.world ∨ w = r.world.addStore.2) ∧ RanCode (i.stage r.libraries) w r'.world := by
  cases h with
  | joined hb hw hg =>
    obtain ⟨budget, hreload⟩ := hg
    exact .inr ⟨_, _, .inr hw, Instance.reload_ranCode hreload⟩
  | tried place hi hw hg =>
    obtain ⟨budget, hreload⟩ := hg
    exact .inr ⟨_, _, .inl hw, Instance.reload_ranCode hreload⟩
  | called place hi hw hg =>
    obtain ⟨budget, hdispatch⟩ := hg
    exact .inr ⟨_, _, .inl hw, Instance.dispatch_ranCode hdispatch⟩
  | invoked place hi hw hg =>
    obtain ⟨budget, hinvoke⟩ := hg
    exact .inr ⟨_, _, .inl hw, (Instance.invoke_performed hinvoke).ranCode⟩
  | started place hi hw _ _ _ hg =>
    obtain ⟨budget, hdispatch⟩ := hg
    exact .inr ⟨_, _, .inl hw, Instance.dispatch_ranCode hdispatch⟩
  | left ids =>
    obtain ⟨⟨realms, hforget⟩, -⟩ := r.world.foldl_forget ids
    left
    change (ids.foldl World.forget r.world).stores = r.world.stores
    rw [hforget]
  | chore c =>
    left
    cases c with
    | seed id key value => nomatch he
    | _ => rfl

end Stagehand
