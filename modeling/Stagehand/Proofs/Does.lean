import Stagehand.Proofs.Moves

/-!
# What runs do

`Does A x`: from whatever machine is confined to the allowance, the run `x` gets on by moves within
it, and what it ends with, a value or a halt, is within it too. There is a rule for each way of
putting runs together and one for each access to the machine. Where nothing is asked of what a run
ends with, only of the machines before and behind it, `Leads` is enough.
-/

namespace Stagehand.Lang

/-- What follows a run that succeeds. -/
theorem Eval.bind_ok {α β : Type} {x : Eval α} {f : α → Eval β} {m m' : Machine} {a : α}
    (hx : x m = some (.ok a, m')) : (x >>= f) m = f a m' := by
  change (x m).bind _ = _
  rw [hx]
  rfl

theorem Eval.bind_error {α β : Type} {x : Eval α} {f : α → Eval β} {m m' : Machine} {halt : Halt}
    (hx : x m = some (.error halt, m')) : (x >>= f) m = some (.error halt, m') := by
  change (x m).bind _ = _
  rw [hx]
  rfl

theorem Eval.bind_none {α β : Type} {x : Eval α} {f : α → Eval β} {m : Machine} (hx : x m = none) :
    (x >>= f) m = none := by
  change (x m).bind _ = _
  rw [hx]
  rfl

/-- However the run ends, it leads from one machine to a related one. -/
def Leads (K : Machine → Machine → Prop) {α : Type} (x : Eval α) : Prop :=
  ∀ m r m', x m = some (r, m') → K m m'

namespace Leads

variable {K : Machine → Machine → Prop} {α β : Type}

theorem pure (refl : ∀ m, K m m) (a : α) : Leads K (Pure.pure a : Eval α) := by
  intro m r m' h
  cases h
  exact refl m

theorem throw (refl : ∀ m, K m m) (halt : Halt) :
    Leads K (MonadExcept.throw halt : Eval α) := by
  intro m r m' h
  cases h
  exact refl m

theorem get (refl : ∀ m, K m m) : Leads K (MonadState.get : Eval Machine) := by
  intro m r m' h
  cases h
  exact refl m

theorem change {g : Machine → Machine} (hg : ∀ m, K m (g m)) :
    Leads K (modify g : Eval Unit) := by
  intro m r m' h
  cases h
  exact hg m

theorem bind (trans : ∀ {m m' m''}, K m m' → K m' m'' → K m m'') {x : Eval α} {f : α → Eval β}
    (hx : Leads K x) (hf : ∀ a, Leads K (f a)) : Leads K (x >>= f) := by
  intro m r m' h
  obtain ⟨⟨r₁, m₁⟩, h₁, h⟩ := Option.bind_eq_some_iff.mp h
  cases r₁ with
  | ok a => exact trans (hx m _ m₁ h₁) (hf a m₁ r m' h)
  | error halt =>
      cases h
      exact hx m _ m' h₁

theorem attempt {x : Eval α} (hx : Leads K x) : Leads K (Eval.attempt x) := by
  intro m r m' h
  obtain ⟨⟨r₁, m₁⟩, h₁, h⟩ := Option.bind_eq_some_iff.mp h
  cases h
  exact hx m r₁ m' h₁

end Leads

/-- The run gets on by moves within the allowance and ends within it. -/
def Does {α : Type} [Leafy α] (A : Allowance) (x : Eval α) : Prop :=
  ∀ (m : Machine) (r : Except Halt α) (m' : Machine),
    m.Confined A → x m = some (r, m') → Moves A m m' ∧ Within A r

namespace Does

section Rules

variable {α β : Type} [Leafy α] [Leafy β] {A : Allowance}

theorem pure {a : α} (ha : Within A a) : Does A (Pure.pure a : Eval α) := by
  intro m r m' _ h
  cases h
  exact ⟨.refl, ha⟩

theorem throw {h : Halt} (hh : Within A h) : Does A (MonadExcept.throw h : Eval α) := by
  intro m r m' _ h
  cases h
  exact ⟨.refl, hh⟩

/-- A run followed by another: what the first yields is within the allowance. -/
theorem bind {x : Eval α} {f : α → Eval β} (hx : Does A x) (hf : ∀ a, Within A a → Does A (f a)) :
    Does A (x >>= f) := by
  intro m r m' hm h
  obtain ⟨⟨r₁, m₁⟩, h₁, h⟩ := Option.bind_eq_some_iff.mp h
  obtain ⟨hmoves, hr₁⟩ := hx m r₁ m₁ hm h₁
  cases r₁ with
  | ok a =>
      obtain ⟨hmoves', hr⟩ := hf a hr₁ m₁ r m' (hmoves.confined hm) h
      exact ⟨hmoves.trans hmoves', hr⟩
  | error halt =>
      cases h
      exact ⟨hmoves, hr₁⟩

/-- What follows a look at the machine may rely on the machine being confined. -/
theorem look {f : Machine → Eval α} (hf : ∀ m, m.Confined A → Does A (f m)) :
    Does A (get >>= f) :=
  fun m r m' hm h => hf m hm m r m' hm h

theorem attempt {x : Eval α} (hx : Does A x) : Does A (Eval.attempt x) := by
  intro m r m' hm h
  obtain ⟨⟨r₁, m₁⟩, h₁, h⟩ := Option.bind_eq_some_iff.mp h
  cases h
  exact hx m _ _ hm h₁

/-- A run of which nothing is asked but what the first part does. -/
theorem of_move {x : Eval Unit} {g : Machine → Machine} (hx : ∀ m, x m = some (.ok (), g m))
    (hg : ∀ m, m.Confined A → Move A m (g m)) : Does A x := by
  intro m r m' hm h
  rw [hx m] at h
  cases h
  exact ⟨.single (hg m hm), within_unit ()⟩

end Rules

/-! ## Access to the machine -/

section Access

variable {α β : Type} [Leafy α] [Leafy β] {A : Allowance}

theorem modifyFrame {f : Frame → Frame} (hf : ∀ frame, Within A frame → Within A (f frame)) :
    Does A (Eval.modifyFrame f) :=
  of_move (g := fun m => { m with frame := f m.frame }) (fun _ => rfl) fun m hm =>
    .frame _ (hf m.frame hm.frame)

theorem effect (e : Effect) (he : e.Allowed A) : Does A (Eval.modifyWorld e.apply) :=
  of_move (g := fun m => { m with world := e.apply m.world }) (fun _ => rfl) fun _ _ => .effect e he

theorem askWorld {f : World → α × World} {e : Effect} (he : e.Allowed A)
    (hf : ∀ w, w.Closed A → Within A (f w).1) (hw : ∀ w, (f w).2 = e.apply w) :
    Does A (Eval.askWorld f) := by
  intro m r m' hm h
  cases h
  refine ⟨.single ?_, hf m.world hm.world⟩
  rw [hw]
  exact .effect e he

theorem setCell {cell : CellId} {v : Value} (hc : A (.cell cell)) (hv : Within A v) :
    Does A (Eval.setCell cell v) :=
  of_move (fun _ => rfl) fun _ _ => .setCell cell v hc hv

/-- A new cell has a number that is allowed. -/
theorem newCell {held : Held} {f : CellId → Eval α} (hh : Within A held)
    (hf : ∀ cell, A (.cell cell) → Does A (f cell)) : Does A (Eval.newCell held >>= f) := by
  intro m r m' hm h
  have hmove : Move A m { m with realm := { m.realm with heap := m.realm.heap.push held } } :=
    .newCell held hh
  obtain ⟨hmoves, hr⟩ := hf m.realm.heap.size (hm.fresh _ (Nat.le_refl _)) _ r m'
    (hmove.confined hm) h
  exact ⟨.head hmove hmoves, hr⟩

theorem keepModule {file : FilePath} {c : CachedModule} (hc : Within A c) :
    Does A (modify fun m => { m with realm := { m.realm with
      modules := (file, c) :: m.realm.modules.filter (·.1 != file) } } : Eval Unit) :=
  of_move (fun _ => rfl) fun _ _ => .keep file c hc

end Access

end Does
end Stagehand.Lang
