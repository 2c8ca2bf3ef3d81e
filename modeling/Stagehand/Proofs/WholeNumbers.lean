import Mathlib.Tactic.SplitIfs
import Stagehand.Number.Whole

/-!
# Numbers in text

Which texts are numbers up to a limit (`Written`), and why the others are not (`Invalid`). Reading
goes digit by digit and stops where the number is too large or a character is no digit, whichever
comes first from the left; as the number only grows with each digit, one that is within the limit in
the end was so all along (`le_ofDigitChars`).
-/

namespace Stagehand.Number

/-- The characters are decimal digits. -/
def Digits (cs : List Char) : Prop := ∀ c ∈ cs, c.isDigit = true

/-- A text without its plus sign. -/
def unsigned : List Char → List Char
  | '+' :: ds => ds
  | ds => ds

/-- The text is the number `n`, at most the limit: digits behind a plus sign or none. -/
structure Written (limit : Nat) (cs : List Char) (n : Nat) : Prop where
  some : unsigned cs ≠ []
  digits : Digits (unsigned cs)
  value : Nat.ofDigitChars 10 (unsigned cs) 0 = n
  within : n ≤ limit

/-- Why characters cannot be read on from the number `n`. -/
inductive Spoilt (limit n : Nat) : List Char → WholeError → Prop
  | digit {ds rest : List Char} {c : Char} (hd : Digits ds) (hn : Nat.ofDigitChars 10 ds n ≤ limit)
      (hc : c.isDigit = false) : Spoilt limit n (ds ++ c :: rest) .digit
  | tooLarge {ds rest : List Char} (hd : Digits ds) (hn : limit < Nat.ofDigitChars 10 ds n) :
      Spoilt limit n (ds ++ rest) .tooLarge

/-- Why a text is no number up to the limit. -/
inductive Invalid (limit : Nat) : List Char → WholeError → Prop
  | empty : Invalid limit [] .empty
  | sign : Invalid limit ['+'] .digit
  | spoilt {cs : List Char} {e : WholeError} (h : Spoilt limit 0 (unsigned cs) e) :
      Invalid limit cs e

theorem Written.unique {limit n m : Nat} {cs : List Char} (hn : Written limit cs n)
    (hm : Written limit cs m) : n = m := hn.value.symm.trans hm.value

theorem digitIn?_ten (c : Char) :
    digitIn? 10 c = if c.isDigit then some (c.toNat - '0'.toNat) else none := by
  have hle (a b : Char) : a ≤ b ↔ a.toNat ≤ b.toNat := Iff.rfl
  have hdigit : c.isDigit = true ↔ '0' ≤ c ∧ c ≤ '9' := by
    rw [Char.isDigit, Bool.and_eq_true, decide_eq_true_eq, decide_eq_true_eq]
    rfl
  have h0 : '0'.toNat = 48 := rfl
  have h9 : '9'.toNat = 57 := rfl
  unfold digitIn?
  rw [hle, hle] at hdigit
  simp only [Bool.and_eq_true, decide_eq_true_eq, hle, hdigit]
  have ha : 'a'.toNat = 97 := rfl
  have hA : 'A'.toNat = 65 := rfl
  split_ifs <;> simp only [Option.filter] <;> grind

variable {limit : Nat}

/-- One more character: it is a digit or not, and the number fits with it or not. -/
theorem readDigits_cons (c : Char) (cs : List Char) (n : Nat) :
    readDigits 10 0 limit false (c :: cs) n =
      if c.isDigit then
        if limit < 10 * n + (c.toNat - '0'.toNat) then .error .tooLarge
        else readDigits 10 0 limit false cs ((10 * n + (c.toNat - '0'.toNat) : Nat) : Int)
      else .error .digit := by
  rw [readDigits, digitIn?_ten]
  cases c.isDigit with
  | false => rfl
  | true =>
    have hnext : (n : Int) * (10 : Nat) + ((c.toNat - '0'.toNat : Nat) : Int) =
        ((10 * n + (c.toNat - '0'.toNat) : Nat) : Int) := by
      push_cast
      omega
    have hlow : ¬ ((10 * n + (c.toNat - '0'.toNat) : Nat) : Int) < 0 := by omega
    simp only [if_true, Bool.false_eq_true, if_false, hnext, if_neg hlow, Int.ofNat_lt]

theorem digits_cons {c : Char} {cs : List Char} :
    Digits (c :: cs) ↔ c.isDigit = true ∧ Digits cs := List.forall_mem_cons

theorem le_ofDigitChars (cs : List Char) (n : Nat) : n ≤ Nat.ofDigitChars 10 cs n := by
  induction cs generalizing n with
  | nil => exact Nat.le_refl n
  | cons c cs ih =>
    rw [Nat.ofDigitChars_cons]
    exact Nat.le_trans (by omega) (ih _)

theorem readDigits_ok {v : Int} : ∀ {cs : List Char} {n : Nat}, n ≤ limit →
    (readDigits 10 0 limit false cs n = .ok v ↔
      Digits cs ∧ Nat.ofDigitChars 10 cs n ≤ limit ∧ v = Nat.ofDigitChars 10 cs n)
  | [], n, hn => by
    have hnone : Digits [] := List.forall_mem_nil _
    rw [readDigits, Except.ok.injEq]
    exact ⟨fun h => ⟨hnone, hn, h.symm⟩, fun h => h.2.2.symm⟩
  | c :: cs, n, hn => by
    rw [readDigits_cons, Nat.ofDigitChars_cons, digits_cons]
    by_cases hc : c.isDigit = true
    · rw [if_pos hc]
      split
      · rename_i hlarge
        have hle := le_ofDigitChars cs (10 * n + (c.toNat - '0'.toNat))
        refine iff_of_false nofun fun h => ?_
        have hlimit := h.2.1
        omega
      · rename_i hfits
        rw [readDigits_ok (Nat.le_of_not_lt hfits)]
        simp [hc]
    · rw [if_neg hc]
      exact iff_of_false nofun fun h => hc h.1.1

/-- Beyond the limit, nothing that follows matters. -/
theorem spoilt_of_lt {n : Nat} (h : limit < n) {cs : List Char} {e : WholeError} :
    Spoilt limit n cs e ↔ e = .tooLarge := by
  constructor
  · intro hs
    cases hs with
    | @digit ds _ _ _ hn _ =>
      have hle := le_ofDigitChars ds n
      omega
    | tooLarge => rfl
  · rintro rfl
    exact @Spoilt.tooLarge _ _ [] _ (List.forall_mem_nil _) h

theorem spoilt_cons {n : Nat} (hn : n ≤ limit) {c : Char} (hc : c.isDigit = true)
    {cs : List Char} {e : WholeError} :
    Spoilt limit n (c :: cs) e ↔ Spoilt limit (10 * n + (c.toNat - '0'.toNat)) cs e := by
  constructor
  · intro hs
    generalize hall : c :: cs = all at hs
    cases hs with
    | @digit ds rest d hd hle hnot =>
      cases ds with
      | nil =>
        cases hall
        rw [hc] at hnot
        nomatch hnot
      | cons d ds =>
        cases hall
        exact .digit (digits_cons.mp hd).2 hle hnot
    | @tooLarge ds rest hd hlt =>
      cases ds with
      | nil => exact absurd hlt (Nat.not_lt.mpr hn)
      | cons d ds =>
        cases hall
        exact .tooLarge (digits_cons.mp hd).2 hlt
  · intro hs
    cases hs with
    | digit hd hle hnot => exact @Spoilt.digit _ _ (c :: _) _ _ (digits_cons.mpr ⟨hc, hd⟩) hle hnot
    | tooLarge hd hlt => exact @Spoilt.tooLarge _ _ (c :: _) _ (digits_cons.mpr ⟨hc, hd⟩) hlt

theorem spoilt_noDigit {n : Nat} (hn : n ≤ limit) {c : Char} (hc : ¬ c.isDigit = true)
    {cs : List Char} {e : WholeError} : Spoilt limit n (c :: cs) e ↔ e = .digit := by
  constructor
  · intro hs
    generalize hall : c :: cs = all at hs
    cases hs with
    | digit => rfl
    | @tooLarge ds rest hd hlt =>
      cases ds with
      | nil => exact absurd hlt (Nat.not_lt.mpr hn)
      | cons d ds =>
        cases hall
        exact absurd (digits_cons.mp hd).1 hc
  · rintro rfl
    exact @Spoilt.digit _ _ [] _ _ (List.forall_mem_nil _) hn (Bool.eq_false_iff.mpr hc)

theorem readDigits_error {e : WholeError} : ∀ {cs : List Char} {n : Nat}, n ≤ limit →
    (readDigits 10 0 limit false cs n = .error e ↔ Spoilt limit n cs e)
  | [], n, hn => by
    refine iff_of_false nofun fun hs => ?_
    generalize hall : ([] : List Char) = all at hs
    cases hs with
    | digit => simp at hall
    | @tooLarge ds rest _ hlt =>
      obtain ⟨rfl, -⟩ := List.append_eq_nil_iff.mp hall.symm
      exact absurd hlt (Nat.not_lt.mpr hn)
  | c :: cs, n, hn => by
    rw [readDigits_cons]
    by_cases hc : c.isDigit = true
    · rw [if_pos hc, spoilt_cons hn hc]
      split
      · rename_i hlarge
        rw [spoilt_of_lt hlarge, Except.error.injEq, eq_comm]
      · rename_i hfits
        exact readDigits_error (Nat.le_of_not_lt hfits)
    · rw [if_neg hc, spoilt_noDigit hn hc, Except.error.injEq, eq_comm]

theorem parseWhole_unsigned {cs : List Char} (h : unsigned cs ≠ []) :
    parseWhole 10 0 limit cs = readDigits 10 0 limit false (unsigned cs) 0 := by
  unfold parseWhole
  split
  · exact absurd rfl h
  · exact absurd rfl h
  · rfl
  · rfl
  · rfl
  · rename_i hplus _
    rw [unsigned]
    exact fun ds hds => hplus ds hds

/-- Without digits there is nothing, or a sign alone. -/
theorem unsigned_eq_nil {cs : List Char} (h : unsigned cs = []) : cs = [] ∨ cs = ['+'] := by
  unfold unsigned at h
  split at h
  · exact .inr (by rw [h])
  · exact .inl h

/-- Reading a number yields the number that the text is, if it is one. -/
theorem parseWhole_ok {cs : List Char} {v : Int} :
    parseWhole 10 0 limit cs = .ok v ↔ ∃ n, Written limit cs n ∧ v = n := by
  by_cases h : unsigned cs = []
  · refine iff_of_false (fun hread => ?_) fun ⟨n, hn, _⟩ => hn.some h
    rcases unsigned_eq_nil h with rfl | rfl <;> nomatch hread
  · rw [parseWhole_unsigned h]
    have hread := @readDigits_ok limit v (unsigned cs) 0 (Nat.zero_le limit)
    rw [Int.natCast_zero] at hread
    rw [hread]
    constructor
    · rintro ⟨hdigits, hlimit, rfl⟩
      exact ⟨_, ⟨h, hdigits, rfl, hlimit⟩, rfl⟩
    · rintro ⟨n, ⟨-, hdigits, rfl, hlimit⟩, rfl⟩
      exact ⟨hdigits, hlimit, rfl⟩

theorem parseWhole_error {cs : List Char} {e : WholeError} :
    parseWhole 10 0 limit cs = .error e ↔ Invalid limit cs e := by
  by_cases h : unsigned cs = []
  · have hnot : ¬ Spoilt limit 0 [] e := by
      rw [← readDigits_error (Nat.zero_le limit)]
      nofun
    rcases unsigned_eq_nil h with rfl | rfl
    · constructor
      · rintro ⟨⟩
        exact .empty
      · intro hinvalid
        cases hinvalid with
        | empty => rfl
        | spoilt hspoilt => exact absurd hspoilt hnot
    · constructor
      · rintro ⟨⟩
        exact .sign
      · intro hinvalid
        cases hinvalid with
        | sign => rfl
        | spoilt hspoilt => exact absurd hspoilt hnot
  · have hread := @readDigits_error limit e (unsigned cs) 0 (Nat.zero_le limit)
    rw [Int.natCast_zero] at hread
    rw [parseWhole_unsigned h, hread]
    constructor
    · exact .spoilt
    · intro hinvalid
      cases hinvalid with
      | empty => exact absurd rfl h
      | sign => exact absurd rfl h
      | spoilt hspoilt => exact hspoilt

end Stagehand.Number
