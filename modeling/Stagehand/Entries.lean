/-!
# Entries by ascending key

A finite map from names is a list of entries in strictly ascending order of their keys. `put` keeps
that order and touches no other key, so that two maps with the same entries are equal and their
keys come out sorted.
-/

namespace Stagehand.Entries

variable {α : Type}

/-- The value under a key. -/
def get? (key : String) : List (String × α) → Option α
  | [] => none
  | (k, v) :: rest => if k = key then some v else get? key rest

/-- Puts a value under a key, in place of what was there. -/
def put (key : String) (value : α) : List (String × α) → List (String × α)
  | [] => [(key, value)]
  | (k, v) :: rest =>
    if k = key then (key, value) :: rest
    else if key < k then (key, value) :: (k, v) :: rest
    else (k, v) :: put key value rest

/-- The map of a list of entries; of two with one key the later counts. -/
def ofList (entries : List (String × α)) : List (String × α) :=
  entries.foldl (fun m (k, v) => put k v m) []

/-- The keys in ascending order. -/
def keys (m : List (String × α)) : List String := m.map (·.1)

@[simp] theorem get?_put_self (key : String) (value : α) (m : List (String × α)) :
    get? key (put key value m) = some value := by
  induction m with
  | nil => simp [put, get?]
  | cons e rest ih =>
    obtain ⟨k, v⟩ := e
    by_cases hk : k = key
    · simp [put, get?, hk]
    · by_cases hlt : key < k <;> simp [put, get?, hk, hlt, ih]

theorem get?_put_of_ne {key other : String} (h : other ≠ key) (value : α)
    (m : List (String × α)) : get? other (put key value m) = get? other m := by
  induction m with
  | nil => simp [put, get?, Ne.symm h]
  | cons e rest ih =>
    obtain ⟨k, v⟩ := e
    by_cases hk : k = key
    · subst hk; simp [put, get?, Ne.symm h]
    · by_cases hlt : key < k
      · simp [put, get?, hk, hlt, Ne.symm h]
      · simp [put, get?, hk, hlt, ih]

theorem mem_of_get? {key : String} {value : α} :
    ∀ {m : List (String × α)}, get? key m = some value → (key, value) ∈ m
  | [], h => nomatch h
  | (k, v) :: rest, h => by
    by_cases hk : k = key
    · simp only [get?, hk, if_true, Option.some.injEq] at h
      simp [hk, h]
    · simp only [get?, hk, if_false] at h
      exact List.mem_cons_of_mem _ (mem_of_get? h)

/-- A map holds nothing but what was there and what was put. -/
theorem mem_put {key : String} {value : α} {e : String × α} :
    ∀ {m : List (String × α)}, e ∈ put key value m → e = (key, value) ∨ e ∈ m
  | [], h => by simpa [put] using h
  | (k, v) :: rest, h => by
    by_cases hk : k = key
    · simp only [put, hk, if_true, List.mem_cons] at h ⊢
      exact h.imp_right Or.inr
    · by_cases hlt : key < k
      · simpa [put, hk, hlt] using h
      · simp only [put, hk, hlt, if_false, List.mem_cons] at h ⊢
        rcases h with rfl | h
        · exact Or.inr (Or.inl rfl)
        · exact (mem_put h).imp_right Or.inr

theorem mem_foldl_put {entries m : List (String × α)} {e : String × α}
    (h : e ∈ entries.foldl (fun m (k, v) => put k v m) m) : e ∈ entries ∨ e ∈ m := by
  induction entries generalizing m with
  | nil => exact Or.inr h
  | cons x rest ih =>
    rcases ih h with h | h
    · exact Or.inl (List.mem_cons_of_mem _ h)
    · rcases mem_put h with rfl | h
      · exact Or.inl List.mem_cons_self
      · exact Or.inr h

/-- A map holds only entries of the list that it was made of. -/
theorem mem_ofList {entries : List (String × α)} {e : String × α} (h : e ∈ ofList entries) :
    e ∈ entries := by
  rcases mem_foldl_put h with h | h
  · exact h
  · nomatch h

end Stagehand.Entries
