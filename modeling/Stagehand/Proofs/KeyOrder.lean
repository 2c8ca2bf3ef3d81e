import Mathlib.Data.String.Basic
import Mathlib.Tactic.SplitIfs
import Stagehand.Entries

/-!
# The order of keys

Keys are compared letter by letter, which for text in UTF-8 is to compare it byte by byte: of two
letters the lesser has the lesser first byte that differs, so the bytes after it do not matter. A
map is a list of entries in strictly ascending order of their keys; `put` keeps that order, and so
every map that was made by putting has it. Then a key stands in the list once, and the number of
keys is the number of entries.
-/

namespace Stagehand

/-! ## Letters and bytes -/

/-- The lesser byte decides, and an equal one leaves it to the rest. -/
theorem cons_ofNat_lt {a b : Nat} {x y : List UInt8} (hle : a ≤ b) (hb : b < 256)
    (htail : a = b → x < y) : UInt8.ofNat a :: x < UInt8.ofNat b :: y := by
  rw [List.cons_lt_cons_iff]
  by_cases h : a = b
  · exact .inr ⟨congrArg _ h, htail h⟩
  · left
    rw [UInt8.lt_iff_toNat_lt, UInt8.toNat_ofNat', UInt8.toNat_ofNat']
    omega

/-- The bytes of the lesser letter are less, whatever follows them. -/
theorem utf8EncodeChar_append_lt {c d : Char} (h : c < d) (x y : List UInt8) :
    String.utf8EncodeChar c ++ x < String.utf8EncodeChar d ++ y := by
  have hlt : c.val.toNat < d.val.toNat := h
  have hmax : d.val.toNat < 0x110000 := by
    have hvalid := d.valid
    rw [UInt32.isValidChar, Nat.isValidChar] at hvalid
    omega
  rw [String.utf8EncodeChar, String.utf8EncodeChar]
  generalize c.val.toNat = m at *
  generalize d.val.toNat = n at *
  -- The greater letter is not the shorter one. A longer letter has a greater first byte; of equal
  -- length, the bytes are digits.
  split_ifs <;> first | omega | simp only [List.cons_append, List.nil_append]
  · exact cons_ofNat_lt (by omega) (by omega) (by omega)
  · exact cons_ofNat_lt (by omega) (by omega) (by omega)
  · exact cons_ofNat_lt (by omega) (by omega) (by omega)
  · exact cons_ofNat_lt (by omega) (by omega) (by omega)
  · refine cons_ofNat_lt (by omega) (by omega) fun h1 => ?_
    exact cons_ofNat_lt (by omega) (by omega) (by omega)
  · exact cons_ofNat_lt (by omega) (by omega) (by omega)
  · exact cons_ofNat_lt (by omega) (by omega) (by omega)
  · refine cons_ofNat_lt (by omega) (by omega) fun h1 => ?_
    refine cons_ofNat_lt (by omega) (by omega) fun h2 => ?_
    exact cons_ofNat_lt (by omega) (by omega) (by omega)
  · exact cons_ofNat_lt (by omega) (by omega) (by omega)
  · refine cons_ofNat_lt (by omega) (by omega) fun h1 => ?_
    refine cons_ofNat_lt (by omega) (by omega) fun h2 => ?_
    refine cons_ofNat_lt (by omega) (by omega) fun h3 => ?_
    exact cons_ofNat_lt (by omega) (by omega) (by omega)

/-- The bytes of a text. -/
def utf8Bytes (s : String) : List UInt8 := s.toUTF8.data.toList

theorem utf8Bytes_eq (s : String) : utf8Bytes s = s.toList.flatMap String.utf8EncodeChar := by
  rw [utf8Bytes, String.toUTF8, ← String.utf8Encode_toList, List.utf8Encode]
  exact List.toList_data_toByteArray

theorem flatMap_utf8EncodeChar_lt {cs ds : List Char} (h : cs < ds) :
    cs.flatMap String.utf8EncodeChar < ds.flatMap String.utf8EncodeChar := by
  induction cs generalizing ds with
  | nil =>
    cases ds with
    | nil => exact absurd h (by simp)
    | cons d ds =>
      obtain ⟨b, bs, hbytes⟩ := List.exists_cons_of_ne_nil (String.utf8EncodeChar_ne_nil (c := d))
      simp [hbytes]
  | cons c cs ih =>
    cases ds with
    | nil => exact absurd h (by simp)
    | cons d ds =>
      simp only [List.flatMap_cons]
      rcases List.cons_lt_cons_iff.mp h with hlt | ⟨rfl, htail⟩
      · exact utf8EncodeChar_append_lt hlt _ _
      · exact List.append_left_lt (ih htail)

/-- A text that is less has the lesser bytes. -/
theorem utf8Bytes_lt {s t : String} (h : s < t) : utf8Bytes s < utf8Bytes t := by
  rw [utf8Bytes_eq, utf8Bytes_eq]
  exact flatMap_utf8EncodeChar_lt (String.lt_iff.mp h)

/-! ## Maps in order -/

namespace Entries

variable {α : Type}

/-- The entries are in strictly ascending order of their keys. -/
def Ordered (m : List (String × α)) : Prop := m.Pairwise fun e f => e.1 < f.1

theorem ordered_nil : Ordered ([] : List (String × α)) := List.Pairwise.nil

theorem ordered_put {key : String} {value : α} :
    ∀ {m : List (String × α)}, Ordered m → Ordered (put key value m)
  | [], _ => List.pairwise_singleton _ _
  | (k, v) :: rest, h => by
    obtain ⟨hhead, hrest⟩ := List.pairwise_cons.mp h
    by_cases hk : k = key
    · subst hk
      rw [put, if_pos rfl]
      exact List.pairwise_cons.mpr ⟨hhead, hrest⟩
    by_cases hlt : key < k
    · have hall : ∀ e ∈ (k, v) :: rest, key < e.1 := by
        intro e he
        rcases List.mem_cons.mp he with rfl | he
        · exact hlt
        · exact lt_trans hlt (hhead e he)
      rw [put, if_neg hk, if_pos hlt]
      exact List.pairwise_cons.mpr ⟨hall, h⟩
    · have hgt : k < key := lt_of_le_of_ne (not_lt.mp hlt) hk
      rw [put, if_neg hk, if_neg hlt]
      refine List.pairwise_cons.mpr ⟨fun e he => ?_, ordered_put hrest⟩
      rcases mem_put he with rfl | he
      · exact hgt
      · exact hhead e he

theorem ordered_foldl_put {entries m : List (String × α)} (h : Ordered m) :
    Ordered (entries.foldl (fun m (k, v) => put k v m) m) := by
  induction entries generalizing m with
  | nil => exact h
  | cons e rest ih => exact ih (ordered_put h)

/-- A map that was made of a list is in order, whatever the list. -/
theorem ordered_ofList (entries : List (String × α)) : Ordered (ofList entries) :=
  ordered_foldl_put ordered_nil

theorem get?_foldl_put (key : String) (entries m : List (String × α)) :
    get? key (entries.foldl (fun m (k, v) => put k v m) m) =
      (entries.reverse.lookup key).or (get? key m) := by
  induction entries generalizing m with
  | nil => rfl
  | cons e rest ih =>
    obtain ⟨k, v⟩ := e
    have hput : get? key (put k v m) = ([(k, v)].lookup key).or (get? key m) := by
      by_cases hk : key = k
      · simp [hk]
      · have hlookup : [(k, v)].lookup key = none := by
          rw [List.lookup_cons, beq_false_of_ne hk]
          rfl
        rw [get?_put_of_ne hk, hlookup, Option.none_or]
    rw [List.foldl_cons, ih, hput, List.reverse_cons, List.lookup_append, Option.or_assoc]

/-- Under a key is what the list has for it last. -/
theorem get?_ofList (key : String) (entries : List (String × α)) :
    get? key (ofList entries) = entries.reverse.lookup key := by
  rw [ofList, get?_foldl_put, get?, Option.or_none]

/-- Each entry of a map in order is found under its key. -/
theorem get?_of_mem {key : String} {value : α} :
    ∀ {m : List (String × α)}, Ordered m → (key, value) ∈ m → get? key m = some value
  | (k, v) :: rest, h, hmem => by
    obtain ⟨hhead, hrest⟩ := List.pairwise_cons.mp h
    rcases List.mem_cons.mp hmem with heq | hmem
    · cases heq
      rw [get?, if_pos rfl]
    · have hne : k ≠ key := (hhead (key, value) hmem).ne
      rw [get?, if_neg hne]
      exact get?_of_mem hrest hmem

theorem mem_keys {key : String} {m : List (String × α)} :
    key ∈ keys m ↔ (get? key m).isSome := by
  induction m with
  | nil => simp [keys, get?]
  | cons e rest ih =>
    obtain ⟨k, v⟩ := e
    rw [keys] at ih ⊢
    by_cases hk : k = key
    · simp [get?, hk]
    · simp [get?, hk, Ne.symm hk, ih]

/-- The keys of a map in order are strictly ascending byte by byte. -/
theorem keys_ascending {m : List (String × α)} (h : Ordered m) :
    (keys m).Pairwise fun a b => utf8Bytes a < utf8Bytes b :=
  List.pairwise_map.mpr (h.imp utf8Bytes_lt)

end Entries
end Stagehand
