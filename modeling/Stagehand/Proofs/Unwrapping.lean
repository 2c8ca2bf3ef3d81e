import Mathlib.Data.Finset.Card
import Stagehand.Proofs.Marshalling

/-!
# Values out of their cells

What a value is once every shared cell in it is replaced by what the cell holds, at every level:
`Unwraps`. `Heap.expand` finds it when it may go as deep as there are cells. The cells that depth
`n` resolves are among those that depth `n + 1` resolves; as long as there is a new one at each
depth there are as many cells as depths, and once there is none there is never one again
(`Heap.resolved_size`).
-/

namespace Stagehand.Lang

/-! ## What unwrapping is -/

/-- The value is no cell and holds none where the host would look. -/
def Value.whole : Value → Bool
  | .array _ | .object _ | .shared _ => false
  | _ => true

mutual

/-- The second value is the first with each cell in it, at every level, replaced by what the cell
holds. A cell that lies inside itself unwraps to no value. -/
inductive Unwraps (h : Heap) : Value → Value → Prop
  | cell {cell : CellId} {held : Held} {u : Value} (found : h[cell]? = some held)
      (inside : Unwraps h held.value u) : Unwraps h (.shared cell) u
  | array {items us : List Value} (inside : UnwrapsItems h items us) :
      Unwraps h (.array items) (.array us)
  | object {fields us : List (String × Value)} (inside : UnwrapsFields h fields us) :
      Unwraps h (.object fields) (.object us)
  | whole {v : Value} (hv : v.whole = true) : Unwraps h v v

/-- The same item by item. -/
inductive UnwrapsItems (h : Heap) : List Value → List Value → Prop
  | nil : UnwrapsItems h [] []
  | cons {v u : Value} {items us : List Value} (head : Unwraps h v u)
      (rest : UnwrapsItems h items us) : UnwrapsItems h (v :: items) (u :: us)

/-- The same field by field. -/
inductive UnwrapsFields (h : Heap) : List (String × Value) → List (String × Value) → Prop
  | nil : UnwrapsFields h [] []
  | cons {k : String} {v u : Value} {fields us : List (String × Value)} (head : Unwraps h v u)
      (rest : UnwrapsFields h fields us) : UnwrapsFields h ((k, v) :: fields) ((k, u) :: us)

end

/-! ## Values without cells -/

mutual

/-- No cell is left in the value. -/
def Value.cellFree : Value → Bool
  | .array items => Value.cellFreeItems items
  | .object fields => Value.cellFreeFields fields
  | .shared _ => false
  | _ => true

/-- No cell is left in the items. -/
def Value.cellFreeItems : List Value → Bool
  | [] => true
  | v :: rest => v.cellFree && Value.cellFreeItems rest

/-- No cell is left in the fields. -/
def Value.cellFreeFields : List (String × Value) → Bool
  | [] => true
  | (_, v) :: rest => v.cellFree && Value.cellFreeFields rest

end

section Looking

variable {look look' : CellId → Value}

mutual

/-- Where no cell is left, whoever finds the same in the cells makes the same value. -/
theorem expandWith_congr (h : ∀ c, (look c).cellFree = true → look' c = look c) :
    ∀ v : Value, (v.expandWith look).cellFree = true → v.expandWith look' = v.expandWith look
  | .shared c, hv => h c hv
  | .array items, hv => congrArg Value.array (expandItems_congr h items hv)
  | .object fields, hv => congrArg Value.object (expandFields_congr h fields hv)
  | .unit, _ | .bool _, _ | .int _, _ | .float _, _ | .char _, _ | .str _, _ | .blob _, _
  | .range _ _ _, _ | .timestamp _, _ | .fn _ _ _, _ | .handle _, _ => rfl

theorem expandItems_congr (h : ∀ c, (look c).cellFree = true → look' c = look c) :
    ∀ vs : List Value, Value.cellFreeItems (Value.expandItems look vs) = true →
      Value.expandItems look' vs = Value.expandItems look vs
  | [], _ => rfl
  | v :: rest, hv => by
    rw [Value.expandItems, Value.cellFreeItems, Bool.and_eq_true] at hv
    rw [Value.expandItems, Value.expandItems, expandWith_congr h v hv.1,
      expandItems_congr h rest hv.2]

theorem expandFields_congr (h : ∀ c, (look c).cellFree = true → look' c = look c) :
    ∀ fs : List (String × Value), Value.cellFreeFields (Value.expandFields look fs) = true →
      Value.expandFields look' fs = Value.expandFields look fs
  | [], _ => rfl
  | (k, v) :: rest, hv => by
    rw [Value.expandFields, Value.cellFreeFields, Bool.and_eq_true] at hv
    rw [Value.expandFields, Value.expandFields, expandWith_congr h v hv.1,
      expandFields_congr h rest hv.2]

end

mutual

/-- Who resolves the same cells leaves none where the other leaves none. -/
theorem cellFree_expandWith (h : ∀ c, (look c).cellFree = true → (look' c).cellFree = true) :
    ∀ v : Value, (v.expandWith look).cellFree = true → (v.expandWith look').cellFree = true
  | .shared c, hv => h c hv
  | .array items, hv => cellFree_expandItems h items hv
  | .object fields, hv => cellFree_expandFields h fields hv
  | .unit, _ | .bool _, _ | .int _, _ | .float _, _ | .char _, _ | .str _, _ | .blob _, _
  | .range _ _ _, _ | .timestamp _, _ | .fn _ _ _, _ | .handle _, _ => rfl

theorem cellFree_expandItems (h : ∀ c, (look c).cellFree = true → (look' c).cellFree = true) :
    ∀ vs : List Value, Value.cellFreeItems (Value.expandItems look vs) = true →
      Value.cellFreeItems (Value.expandItems look' vs) = true
  | [], _ => rfl
  | v :: rest, hv => by
    rw [Value.expandItems, Value.cellFreeItems, Bool.and_eq_true] at hv ⊢
    exact ⟨cellFree_expandWith h v hv.1, cellFree_expandItems h rest hv.2⟩

theorem cellFree_expandFields (h : ∀ c, (look c).cellFree = true → (look' c).cellFree = true) :
    ∀ fs : List (String × Value), Value.cellFreeFields (Value.expandFields look fs) = true →
      Value.cellFreeFields (Value.expandFields look' fs) = true
  | [], _ => rfl
  | (k, v) :: rest, hv => by
    rw [Value.expandFields, Value.cellFreeFields, Bool.and_eq_true] at hv ⊢
    exact ⟨cellFree_expandWith h v hv.1, cellFree_expandFields h rest hv.2⟩

end

end Looking

/-! ## Cells resolved at a depth -/

/-- What is in a cell, as far as a depth goes; a cell beyond that, or of another heap, stays. -/
def Heap.content (h : Heap) : Nat → CellId → Value
  | 0, c => .shared c
  | depth + 1, c =>
    match h[c]? with
    | some held => held.value.expandWith (h.content depth)
    | none => .shared c

theorem Heap.content_found {h : Heap} {c : CellId} {held : Held} (hc : h[c]? = some held)
    (n : Nat) : h.content (n + 1) c = held.value.expandWith (h.content n) := by
  rw [Heap.content, hc]

theorem Heap.content_none {h : Heap} {c : CellId} (hc : h[c]? = none) (n : Nat) :
    h.content n c = .shared c := by
  cases n with
  | zero => rfl
  | succ n => rw [Heap.content, hc]

/-- A greater depth finds the same where nothing was left. -/
theorem Heap.content_succ {h : Heap} {c : CellId} {n : Nat}
    (hc : (h.content n c).cellFree = true) : h.content (n + 1) c = h.content n c := by
  induction n generalizing c with
  | zero => exact absurd hc (by simp [Heap.content, Value.cellFree])
  | succ n ih =>
    cases hget : h[c]? with
    | none =>
      rw [Heap.content_none hget] at hc
      exact absurd hc (by simp [Value.cellFree])
    | some held =>
      rw [Heap.content_found hget] at hc
      rw [Heap.content_found hget, Heap.content_found hget]
      exact expandWith_congr (fun _ => ih) held.value hc

theorem Heap.content_le {h : Heap} {c : CellId} {n m : Nat} (hnm : n ≤ m)
    (hc : (h.content n c).cellFree = true) : h.content m c = h.content n c := by
  induction m, hnm using Nat.le_induction with
  | base => rfl
  | succ m _ ih =>
    rw [← ih] at hc
    rw [Heap.content_succ hc, ih]

/-- The cells that a depth resolves. -/
def Heap.resolved (h : Heap) (n : Nat) : Finset CellId :=
  (Finset.range h.size).filter fun c => (h.content n c).cellFree = true

theorem Heap.mem_resolved {h : Heap} {n : Nat} {c : CellId} :
    c ∈ h.resolved n ↔ (h.content n c).cellFree = true := by
  rw [Heap.resolved, Finset.mem_filter, Finset.mem_range]
  refine and_iff_right_of_imp fun hc => ?_
  by_contra hlt
  rw [Heap.content_none (Array.getElem?_eq_none (not_lt.mp hlt))] at hc
  exact absurd hc (by simp [Value.cellFree])

theorem Heap.resolved_mono {h : Heap} {n m : Nat} (hnm : n ≤ m) :
    h.resolved n ⊆ h.resolved m := by
  intro c hc
  rw [Heap.mem_resolved] at hc ⊢
  rw [Heap.content_le hnm hc]
  exact hc

/-- A depth that resolves no new cell is the last that could. -/
theorem Heap.resolved_stable {h : Heap} {n : Nat} (hn : h.resolved (n + 1) ⊆ h.resolved n) :
    h.resolved (n + 2) ⊆ h.resolved (n + 1) := by
  intro c hc
  rw [Heap.mem_resolved] at hc ⊢
  cases hget : h[c]? with
  | none =>
    rw [Heap.content_none hget] at hc
    exact absurd hc (by simp [Value.cellFree])
  | some held =>
    rw [Heap.content_found hget] at hc ⊢
    exact cellFree_expandWith
      (fun c hc => Heap.mem_resolved.mp (hn (Heap.mem_resolved.mpr hc))) held.value hc

/-- Up to the last depth that resolves a new cell, there are as many cells as depths. -/
theorem Heap.resolved_card (h : Heap) (n : Nat) :
    h.resolved (n + 1) ⊆ h.resolved n ∨ n < (h.resolved (n + 1)).card := by
  induction n with
  | zero =>
    by_cases hsub : h.resolved 1 ⊆ h.resolved 0
    · exact .inl hsub
    · right
      obtain ⟨c, hc, -⟩ := Finset.not_subset.mp hsub
      exact Finset.card_pos.mpr ⟨c, hc⟩
  | succ n ih =>
    by_cases hsub : h.resolved (n + 2) ⊆ h.resolved (n + 1)
    · exact .inl hsub
    · right
      rcases ih with hstable | hcard
      · exact absurd (Heap.resolved_stable hstable) hsub
      · have hmono : h.resolved (n + 1) ⊆ h.resolved (n + 2) := Heap.resolved_mono (by omega)
        exact Nat.lt_of_le_of_lt hcard (Finset.card_lt_card ⟨hmono, hsub⟩)

/-- As deep as there are cells is deep enough. -/
theorem Heap.resolved_size (h : Heap) (n : Nat) : h.resolved n ⊆ h.resolved h.size := by
  have hlast : h.resolved (h.size + 1) ⊆ h.resolved h.size := by
    rcases h.resolved_card h.size with hsub | hcard
    · exact hsub
    · have hle := Finset.card_filter_le (Finset.range h.size) fun c =>
        (h.content (h.size + 1) c).cellFree = true
      rw [Finset.card_range] at hle
      exact absurd hcard (not_lt.mpr hle)
  have hafter : ∀ k, h.resolved (h.size + k + 1) ⊆ h.resolved (h.size + k) := by
    intro k
    induction k with
    | zero => exact hlast
    | succ k ih => exact Heap.resolved_stable ih
  have hall : ∀ k, h.resolved (h.size + k) ⊆ h.resolved h.size := by
    intro k
    induction k with
    | zero => exact subset_rfl
    | succ k ih => exact (hafter k).trans ih
  exact (Heap.resolved_mono (by omega)).trans (hall n)

/-! ## Unwrapping is expanding -/

/-- At every depth, expanding replaces each cell by something. -/
theorem Heap.expand_eq (h : Heap) (n : Nat) : ∃ look, h.expand n = Value.expandWith look := by
  cases n <;> exact ⟨_, rfl⟩

/-- At some depth each cell of the value is resolved, and then it is the other value. -/
def Heap.Settles (h : Heap) (n : Nat) (v u : Value) : Prop :=
  v.expandWith (h.content n) = u ∧ u.cellFree = true

theorem Heap.Settles.le {h : Heap} {n m : Nat} {v u : Value} (hv : h.Settles n v u)
    (hnm : n ≤ m) : h.Settles m v u := by
  obtain ⟨rfl, hfree⟩ := hv
  exact ⟨expandWith_congr (fun _ => Heap.content_le hnm) v hfree, hfree⟩

mutual

theorem Unwraps.settles {h : Heap} :
    ∀ {v u : Value}, Unwraps h v u → ∃ n, h.Settles n v u
  | _, _, .cell found inside => by
    obtain ⟨n, hexpand, hfree⟩ := inside.settles
    exact ⟨n + 1, (Heap.content_found found n).trans hexpand, hfree⟩
  | _, _, .array inside => by
    obtain ⟨n, hexpand, hfree⟩ := inside.settles
    exact ⟨n, congrArg Value.array hexpand, hfree⟩
  | _, _, .object inside => by
    obtain ⟨n, hexpand, hfree⟩ := inside.settles
    exact ⟨n, congrArg Value.object hexpand, hfree⟩
  | v, _, .whole hv => by
    refine ⟨0, ?_⟩
    cases v with
    | array _ | object _ | shared _ => exact absurd hv (by simp [Value.whole])
    | _ => exact ⟨rfl, rfl⟩

theorem UnwrapsItems.settles {h : Heap} :
    ∀ {vs us : List Value}, UnwrapsItems h vs us →
      ∃ n, Value.expandItems (h.content n) vs = us ∧ Value.cellFreeItems us = true
  | _, _, .nil => ⟨0, rfl, rfl⟩
  | _ :: items, _, .cons head rest => by
    obtain ⟨n, hhead⟩ := head.settles
    obtain ⟨m, rfl, hfree⟩ := rest.settles
    obtain ⟨hexpand, hhead⟩ := hhead.le (Nat.le_max_left n m)
    refine ⟨max n m, ?_, Bool.and_eq_true_iff.mpr ⟨hhead, hfree⟩⟩
    rw [Value.expandItems, hexpand,
      expandItems_congr (fun _ => Heap.content_le (Nat.le_max_right n m)) items hfree]

theorem UnwrapsFields.settles {h : Heap} :
    ∀ {vs us : List (String × Value)}, UnwrapsFields h vs us →
      ∃ n, Value.expandFields (h.content n) vs = us ∧ Value.cellFreeFields us = true
  | _, _, .nil => ⟨0, rfl, rfl⟩
  | _ :: fields, _, .cons head rest => by
    obtain ⟨n, hhead⟩ := head.settles
    obtain ⟨m, rfl, hfree⟩ := rest.settles
    obtain ⟨hexpand, hhead⟩ := hhead.le (Nat.le_max_left n m)
    refine ⟨max n m, ?_, Bool.and_eq_true_iff.mpr ⟨hhead, hfree⟩⟩
    rw [Value.expandFields, hexpand,
      expandFields_congr (fun _ => Heap.content_le (Nat.le_max_right n m)) fields hfree]

end

/-- What is settled at any depth is settled at the depth of as many cells as there are. -/
theorem Heap.Settles.size {h : Heap} {n : Nat} {v u : Value} (hv : h.Settles n v u) :
    h.Settles h.size v u := by
  have hfree : (v.expandWith (h.content h.size)).cellFree = true := by
    refine cellFree_expandWith (fun c hc => ?_) v (hv.1 ▸ hv.2)
    exact Heap.mem_resolved.mp (h.resolved_size n (Heap.mem_resolved.mpr hc))
  have hsize : h.Settles h.size v (v.expandWith (h.content h.size)) := ⟨rfl, hfree⟩
  have hmax := hv.le (Nat.le_max_left n h.size)
  rw [← hmax.1, (hsize.le (Nat.le_max_right n h.size)).1]
  exact hsize

/-- Where no cell is left in what a cell holds, to go one level less deep finds the same. -/
theorem Heap.expand_shared {h : Heap} {n : Nat} {c : CellId}
    (hc : (h.content n c).cellFree = true) : h.expand n (.shared c) = h.content n c := by
  induction n generalizing c with
  | zero => rfl
  | succ n ih =>
    cases hget : h[c]? with
    | none =>
      rw [Heap.content_none hget] at hc
      exact absurd hc (by simp [Value.cellFree])
    | some held =>
      rw [Heap.content_found hget] at hc
      rw [Heap.content_found hget, Heap.expand, Value.expandWith, hget]
      cases n <;> exact expandWith_congr (fun _ => ih) held.value hc

/-- What a value unwraps to is what expanding it finds. -/
theorem Unwraps.expand {h : Heap} {v u : Value} (hu : Unwraps h v u) :
    h.expand h.size v = u := by
  obtain ⟨n, hn⟩ := hu.settles
  obtain ⟨rfl, hfree⟩ := hn.size
  generalize h.size = n at *
  cases n <;> exact expandWith_congr (fun _ => Heap.expand_shared) v hfree

/-- So a value unwraps to no more than one. -/
theorem Unwraps.unique {h : Heap} {v u u' : Value} (hu : Unwraps h v u) (hu' : Unwraps h v u') :
    u = u' :=
  hu.expand.symm.trans hu'.expand

end Stagehand.Lang
