import Mathlib.Data.List.TakeDrop
import Mathlib.Data.List.TakeWhile
import Stagehand.Json.Reader
import Stagehand.Proofs.KeyOrder

/-!
# The tokens of JSON

What white space, numbers and strings are, said without a reader, and that the readers take exactly
these. For each reader there are two lemmas: what it takes is a token (`_sound`), and a token is
taken whole (`_complete`). A number ends only where something follows that cannot go on with it
(`Stops`); in a document something of the kind follows every value.
-/

namespace Stagehand.Json

/-! ## Readers -/

section Readers

variable {α β : Type} {bs rest : List UInt8}

theorem bind_ok {x : Read α} {f : α → Read β} {b : β} :
    (x >>= f) bs = .ok (b, rest) ↔ ∃ a mid, x bs = .ok (a, mid) ∧ f a mid = .ok (b, rest) := by
  change (x bs >>= fun p => f p.1 p.2) = _ ↔ _
  cases x bs with
  | error e => exact iff_of_false nofun nofun
  | ok p =>
    refine ⟨fun h => ⟨p.1, p.2, rfl, h⟩, fun ⟨a, mid, hp, h⟩ => ?_⟩
    cases hp
    exact h

theorem bind_of_ok {x : Read α} {a : α} {mid : List UInt8} (h : x bs = .ok (a, mid))
    (f : α → Read β) : (x >>= f) bs = f a mid := by
  change (x bs >>= fun p => f p.1 p.2) = _
  rw [h]
  rfl

theorem pure_ok {a b : α} : (pure a : Read α) bs = .ok (b, rest) ↔ a = b ∧ bs = rest := by
  change Except.ok (a, bs) = .ok (b, rest) ↔ _
  simp

theorem throw_ok {e : Fault} {b : α} : ¬ (throw e : Read α) bs = .ok (b, rest) := nofun

/-- A reader behind a test of which the other outcome is a fault. -/
theorem guard_ok {e : Fault} {p : Prop} [Decidable p] {x : Read α} {b : α} :
    (if p then throw e else x : Read α) bs = .ok (b, rest) ↔ ¬ p ∧ x bs = .ok (b, rest) := by
  by_cases hp : p
  · rw [if_pos hp]
    exact iff_of_false throw_ok fun h => h.1 hp
  · rw [if_neg hp]
    exact (and_iff_right hp).symm

/-- The same where more follows the test. -/
theorem guard_bind_ok {e : Fault} {p : Prop} [Decidable p] {f : α → Read β} {x : Read β} {b : β} :
    (if p then throw e >>= f else x : Read β) bs = .ok (b, rest) ↔ ¬ p ∧ x bs = .ok (b, rest) :=
  guard_ok (e := e)

theorem drop_eq (b : UInt8) (bs : List UInt8) : drop (b :: bs) = .ok ((), bs) := rfl

theorem next_ok {b : UInt8} : next bs = .ok (b, rest) ↔ bs = b :: rest := by
  cases bs with
  | nil => exact iff_of_false nofun nofun
  | cons c bs =>
    change Except.ok (c, bs) = .ok (b, rest) ↔ _
    simp

end Readers

/-! ## White space -/

/-- There is nothing but white space. -/
def Space (s : List UInt8) : Prop := ∀ b ∈ s, isSpace b = true

theorem space_nil : Space [] := List.forall_mem_nil _

section Spaces

variable {bs rest s : List UInt8} {b : UInt8}

theorem dropWhile_space (hs : Space s) (hb : isSpace b = false) :
    (s ++ b :: rest).dropWhile isSpace = b :: rest := by
  rw [List.dropWhile_append_of_pos hs, List.dropWhile_cons_of_neg (by simp [hb])]

/-- The next byte is found behind white space. -/
theorem peekValue_ok : peekValue bs = .ok (b, rest) ↔
    ∃ s t, bs = s ++ b :: t ∧ Space s ∧ isSpace b = false ∧ rest = b :: t := by
  constructor
  · intro h
    obtain ⟨_, _, hpeek, hvalue⟩ := bind_ok.mp h
    cases hpeek
    cases hdrop : bs.dropWhile isSpace with
    | nil =>
      rw [hdrop] at hvalue
      exact absurd hvalue throw_ok
    | cons c t =>
      rw [hdrop] at hvalue
      obtain ⟨rfl, rfl⟩ := pure_ok.mp hvalue
      have hnot : isSpace c = false := by
        have hhead := List.head?_dropWhile_not isSpace bs
        rw [hdrop] at hhead
        simpa using hhead
      refine ⟨bs.takeWhile isSpace, t, ?_, fun c hc => List.mem_takeWhile_imp hc, hnot, rfl⟩
      rw [← hdrop, List.takeWhile_append_dropWhile]
  · rintro ⟨s, t, rfl, hs, hb, rfl⟩
    have hpeek : peek (s ++ b :: t) = .ok (some b, b :: t) := by
      change Except.ok (((s ++ b :: t).dropWhile isSpace).head?, _) = _
      rw [dropWhile_space hs hb]
      rfl
    exact bind_of_ok hpeek _

theorem peekValue_complete (hs : Space s) (hb : isSpace b = false) :
    peekValue (s ++ b :: rest) = .ok (b, b :: rest) :=
  peekValue_ok.mpr ⟨s, rest, rfl, hs, hb, rfl⟩

end Spaces

/-- The character is none of white space. -/
theorem isSpace_of_is {c : Char} {b : UInt8} (h : is c b = true)
    (hc : c.toNat ≠ 32 ∧ c.toNat ≠ 10 ∧ c.toNat ≠ 9 ∧ c.toNat ≠ 13) : isSpace b = false := by
  have hb : b.toNat = c.toNat := beq_iff_eq.mp h
  simp only [isSpace, is, Bool.or_eq_false_iff, beq_eq_false_iff_ne, hb]
  exact ⟨⟨⟨hc.1, hc.2.1⟩, hc.2.2.1⟩, hc.2.2.2⟩

/-- A byte is one character only. -/
theorem is_ne {c d : Char} {b : UInt8} (h : is c b = true) (hne : c.toNat ≠ d.toNat) :
    is d b = false := by
  have hb : b.toNat = c.toNat := beq_iff_eq.mp h
  rw [is, hb]
  exact beq_eq_false_iff_ne.mpr hne

/-! ## Words -/

/-- The bytes are these characters. -/
def Word (cs : List Char) (v : List UInt8) : Prop := List.Forall₂ (fun c b => is c b = true) cs v

theorem word_ok : ∀ {cs : List Char} {bs rest : List UInt8},
    word cs bs = .ok ((), rest) ↔ ∃ v, bs = v ++ rest ∧ Word cs v
  | [], bs, rest => by
    rw [word, pure_ok]
    constructor
    · rintro ⟨-, rfl⟩
      exact ⟨[], rfl, .nil⟩
    · rintro ⟨v, rfl, hv⟩
      cases hv
      exact ⟨rfl, rfl⟩
  | c :: cs, bs, rest => by
    rw [word, bind_ok]
    constructor
    · rintro ⟨b, mid, hnext, h⟩
      obtain rfl := next_ok.mp hnext
      split at h
      · rename_i hb
        obtain ⟨v, rfl, hv⟩ := word_ok.mp h
        exact ⟨b :: v, rfl, .cons hb hv⟩
      · exact absurd h throw_ok
    · rintro ⟨v, rfl, hv⟩
      cases hv with
      | @cons _ b _ v hb hv =>
        refine ⟨b, v ++ rest, next_ok.mpr rfl, ?_⟩
        rw [if_pos hb]
        exact word_ok.mpr ⟨v, rfl, hv⟩

/-! ## Numbers -/

/-- There is a digit, and nothing but digits. -/
def Digits (ds : List UInt8) : Prop := ds ≠ [] ∧ ∀ d ∈ ds, isDigit d = true

/-- The whole part of a number: a zero stands alone. -/
inductive WholePart : List UInt8 → Prop
  | digit {d : UInt8} (hd : isDigit d = true) : WholePart [d]
  | digits {d : UInt8} {ds : List UInt8} (hd : isDigit d = true) (hz : is '0' d = false)
      (hs : Digits ds) : WholePart (d :: ds)

/-- Digits with a sign in front of them, or none: whether they count below zero, and the digits. -/
inductive Signed : Bool × List UInt8 → List UInt8 → Prop
  | plain {ds : List UInt8} (hs : Digits ds) : Signed (false, ds) ds
  | plus {p : UInt8} {ds : List UInt8} (hp : is '+' p = true) (hs : Digits ds) :
      Signed (false, ds) (p :: ds)
  | minus {m : UInt8} {ds : List UInt8} (hm : is '-' m = true) (hs : Digits ds) :
      Signed (true, ds) (m :: ds)

/-- Nothing, or a mark and what stands behind it. -/
inductive Marked {α : Type} (mark : UInt8 → Bool) (T : α → List UInt8 → Prop) :
    Option α → List UInt8 → Prop
  | none : Marked mark T none []
  | some {m : UInt8} {a : α} {v : List UInt8} (hm : mark m = true) (hv : T a v) :
      Marked mark T (some a) (m :: v)

/-- The mark in front of an exponent. -/
def isExponent (b : UInt8) : Bool := is 'e' b || is 'E' b

/-- A number and how it is written. -/
inductive Number : Numeral → List UInt8 → Prop
  | intro {sign : Option Unit} {fraction : Option (List UInt8)}
      {exponent : Option (Bool × List UInt8)} {s w f e : List UInt8}
      (hs : Marked (is '-') (fun _ v => v = []) sign s) (hw : WholePart w)
      (hf : Marked (is '.') (fun ds v => ds = v ∧ Digits v) fraction f)
      (he : Marked isExponent Signed exponent e) :
      Number ⟨sign.isSome, w, fraction, exponent⟩ (s ++ (w ++ (f ++ e)))

/-- What follows does not go on with a number. -/
def Stops (rest : List UInt8) : Prop := ∀ b ∈ rest.head?,
  isDigit b = false ∧ is '.' b = false ∧ isExponent b = false

section Numbers

variable {bs rest ds v : List UInt8} {e : Fault}

theorem digits_eq (bs : List UInt8) :
    digits bs = .ok (bs.takeWhile isDigit, bs.dropWhile isDigit) := by
  rw [← List.span_eq_takeWhile_dropWhile]
  rfl

theorem digits_sound (h : digits bs = .ok (ds, rest)) :
    bs = ds ++ rest ∧ ∀ d ∈ ds, isDigit d = true := by
  rw [digits_eq] at h
  cases h
  exact ⟨(List.takeWhile_append_dropWhile).symm, fun d hd => List.mem_takeWhile_imp hd⟩

theorem digits_complete (hs : ∀ d ∈ ds, isDigit d = true)
    (hrest : ∀ b ∈ rest.head?, isDigit b = false) : digits (ds ++ rest) = .ok (ds, rest) := by
  have htake : rest.takeWhile isDigit = [] ∧ rest.dropWhile isDigit = rest := by
    cases rest with
    | nil => exact ⟨rfl, rfl⟩
    | cons b rest => simp [hrest b rfl]
  rw [digits_eq, List.takeWhile_append_of_pos hs, List.dropWhile_append_of_pos hs, htake.1,
    htake.2, List.append_nil]

theorem wholeDigits_sound (h : wholeDigits e bs = .ok (v, rest)) :
    bs = v ++ rest ∧ WholePart v := by
  obtain ⟨ds, mid, hdigits, hread⟩ := bind_ok.mp h
  obtain ⟨rfl, hall⟩ := digits_sound hdigits
  split at hread
  · obtain ⟨_, _, -, hfault⟩ := bind_ok.mp hread
    exact absurd hfault throw_ok
  · obtain ⟨rfl, rfl⟩ := pure_ok.mp hread
    exact ⟨rfl, .digit (hall _ List.mem_cons_self)⟩
  · rename_i d ds hne
    obtain ⟨hz, hread⟩ := guard_ok.mp hread
    obtain ⟨rfl, rfl⟩ := pure_ok.mp hread
    obtain ⟨hd, hds⟩ := List.forall_mem_cons.mp hall
    exact ⟨rfl, .digits hd (by simpa using hz) ⟨hne, hds⟩⟩

theorem wholeDigits_complete (hv : WholePart v) (hrest : ∀ b ∈ rest.head?, isDigit b = false) :
    wholeDigits e (v ++ rest) = .ok (v, rest) := by
  cases hv with
  | @digit d hd =>
    have hdigits : digits ([d] ++ rest) = .ok ([d], rest) :=
      digits_complete (List.forall_mem_singleton.mpr hd) hrest
    rw [wholeDigits, bind_of_ok hdigits]
    rfl
  | @digits d ds hd hz hs =>
    have hdigits : Json.digits (d :: ds ++ rest) = .ok (d :: ds, rest) :=
      digits_complete (List.forall_mem_cons.mpr ⟨hd, hs.2⟩) hrest
    rw [wholeDigits, bind_of_ok hdigits]
    cases ds with
    | nil => exact absurd rfl hs.1
    | cons d' ds => exact guard_ok.mpr ⟨by simp [hz], rfl⟩

theorem someDigits_sound (h : someDigits e bs = .ok (ds, rest)) :
    bs = ds ++ rest ∧ Digits ds := by
  obtain ⟨ds', mid, hdigits, hread⟩ := bind_ok.mp h
  obtain ⟨rfl, hall⟩ := digits_sound hdigits
  split at hread
  · obtain ⟨_, _, -, hfault⟩ := bind_ok.mp hread
    exact absurd hfault throw_ok
  · rename_i hne
    obtain ⟨rfl, rfl⟩ := pure_ok.mp hread
    exact ⟨rfl, hne, hall⟩

theorem someDigits_complete (hs : Digits ds) (hrest : ∀ b ∈ rest.head?, isDigit b = false) :
    someDigits e (ds ++ rest) = .ok (ds, rest) := by
  rw [someDigits, bind_of_ok (digits_complete hs.2 hrest)]
  cases ds with
  | nil => exact absurd rfl hs.1
  | cons d ds => rfl

theorem ite_bind {α β : Type} {p : Prop} [Decidable p] {x y : Read α} {f : α → Read β} :
    ((if p then x else y) >>= f) = if p then x >>= f else y >>= f :=
  apply_ite (· >>= f) p x y

/-- Reads what stands behind a mark, if the mark is there. -/
def marked {α : Type} (mark : UInt8 → Bool) (x : Read α) : Read (Option α) := do
  if ((← get).head?.map mark).getD false then do
    drop
    pure (some (← x))
  else pure none

/-- Reads digits with a sign in front of them, or none. -/
def signed (e : Fault) : Read (Bool × List UInt8) := do
  let sign := (← get).head?
  let below := (sign.map (is '-')).getD false
  if below || (sign.map (is '+')).getD false then drop
  pure (below, ← someDigits e)

/-- A number is read a part at a time. -/
theorem numeral_eq (wanted : Bool) : numeral wanted = (do
    let atEnd : Fault := if wanted then .eof else .notJson
    let sign ← marked (is '-') (pure ())
    let whole ← wholeDigits atEnd
    let fraction ← marked (is '.') (someDigits atEnd)
    let exponent ← marked isExponent (signed atEnd)
    return ⟨sign.isSome, whole, fraction, exponent⟩) := by
  have hmark : isExponent = fun b => is 'e' b || is 'E' b := rfl
  unfold numeral marked signed
  rw [hmark]
  simp only [bind_assoc, pure_bind, ite_bind]
  refine bind_congr fun bs => ?_
  cases (bs.head?.map (is '-')).getD false <;>
    simp only [Option.isSome_some, Option.isSome_none, if_true, Bool.false_eq_true, if_false]

section Marks

variable {α : Type} {mark : UInt8 → Bool} {x : Read α} {T : α → List UInt8 → Prop} {o : Option α}

theorem marked_of_mark {m : UInt8} (hm : mark m = true) (bs : List UInt8) :
    marked mark x (m :: bs) = (do pure (some (← x)) : Read (Option α)) bs := by
  change (if mark m = true then (do drop; pure (some (← x)) : Read (Option α)) else pure none)
    (m :: bs) = _
  rw [if_pos hm]
  rfl

theorem marked_of_none (hrest : ∀ b ∈ rest.head?, mark b = false) :
    marked mark x rest = .ok (none, rest) := by
  cases rest with
  | nil => rfl
  | cons m rest =>
    change (if mark m = true then _ else pure none : Read (Option α)) (m :: rest) = _
    rw [if_neg (by simp [hrest m rfl])]
    rfl

theorem marked_sound (hx : ∀ {bs a rest}, x bs = .ok (a, rest) → ∃ v, bs = v ++ rest ∧ T a v)
    (h : marked mark x bs = .ok (o, rest)) : ∃ v, bs = v ++ rest ∧ Marked mark T o v := by
  by_cases hm : ∃ m mid, bs = m :: mid ∧ mark m = true
  · obtain ⟨m, mid, rfl, hm⟩ := hm
    rw [marked_of_mark hm] at h
    obtain ⟨a, _, ha, hpure⟩ := bind_ok.mp h
    obtain ⟨rfl, rfl⟩ := pure_ok.mp hpure
    obtain ⟨v, rfl, hv⟩ := hx ha
    exact ⟨m :: v, rfl, .some hm hv⟩
  · have hnone : ∀ b ∈ bs.head?, mark b = false := by
      cases bs with
      | nil => exact nofun
      | cons m mid => exact fun b hb => Bool.eq_false_iff.mpr fun h => hm ⟨b, mid, by simp_all, h⟩
    rw [marked_of_none hnone] at h
    cases h
    exact ⟨[], rfl, .none⟩

theorem marked_complete (hx : ∀ {a v}, T a v → x (v ++ rest) = .ok (a, rest))
    (hrest : ∀ b ∈ rest.head?, mark b = false) (hv : Marked mark T o v) :
    marked mark x (v ++ rest) = .ok (o, rest) := by
  cases hv with
  | none => exact marked_of_none hrest
  | @some m a v hm hv =>
    rw [List.cons_append, marked_of_mark hm, bind_of_ok (hx hv)]
    rfl

/-- What can be told of a mark and of what follows can be told of the next byte. -/
theorem Marked.head {p : UInt8 → Prop} (h : Marked mark T o v) (hm : ∀ m, mark m = true → p m)
    (hrest : ∀ b ∈ rest.head?, p b) : ∀ b ∈ (v ++ rest).head?, p b := by
  cases h with
  | none => exact hrest
  | some hmark _ => exact fun b hb => Option.some.inj hb ▸ hm _ hmark

end Marks

theorem isDigit_of_is {c : Char} {b : UInt8} (h : is c b = true)
    (hc : c.toNat < 48 ∨ 57 < c.toNat) : isDigit b = false := by
  have hb : b.toNat = c.toNat := beq_iff_eq.mp h
  simp only [isDigit, hb]
  simp only [Bool.and_eq_false_iff, decide_eq_false_iff_not, not_le]
  exact hc

theorem isDigit_of_isExponent {b : UInt8} (h : isExponent b = true) : isDigit b = false := by
  obtain h | h := Bool.or_eq_true_iff.mp h
  · exact isDigit_of_is h (by decide)
  · exact isDigit_of_is h (by decide)

theorem is_of_isExponent {c : Char} {b : UInt8} (h : isExponent b = true)
    (hc : 'e'.toNat ≠ c.toNat ∧ 'E'.toNat ≠ c.toNat) : is c b = false := by
  obtain h | h := Bool.or_eq_true_iff.mp h
  · exact is_ne h hc.1
  · exact is_ne h hc.2

theorem WholePart.digits_of {v : List UInt8} (h : WholePart v) : Digits v := by
  cases h with
  | digit hd => exact ⟨nofun, List.forall_mem_singleton.mpr hd⟩
  | digits hd _ hs => exact ⟨nofun, List.forall_mem_cons.mpr ⟨hd, hs.2⟩⟩

theorem signed_of_sign {b : UInt8} (hb : is '-' b = true ∨ is '+' b = true) (bs : List UInt8) :
    signed e (b :: bs) = (do pure (is '-' b, ← someDigits e) : Read (Bool × List UInt8)) bs := by
  change (if (is '-' b || is '+' b) = true then
      (do drop; pure (is '-' b, ← someDigits e) : Read (Bool × List UInt8))
    else (do pure (is '-' b, ← someDigits e))) (b :: bs) = _
  rw [if_pos (Bool.or_eq_true_iff.mpr hb)]
  rfl

theorem signed_of_none (h : ∀ b ∈ bs.head?, is '-' b = false ∧ is '+' b = false) :
    signed e bs = (do pure (false, ← someDigits e) : Read (Bool × List UInt8)) bs := by
  cases bs with
  | nil => rfl
  | cons b bs =>
    obtain ⟨hm, hp⟩ := h b rfl
    change (if (is '-' b || is '+' b) = true then _
      else (do pure (is '-' b, ← someDigits e) : Read (Bool × List UInt8))) (b :: bs) = _
    rw [hm, hp]
    rfl

theorem signed_sound {p : Bool × List UInt8} (h : signed e bs = .ok (p, rest)) :
    ∃ v, bs = v ++ rest ∧ Signed p v := by
  by_cases hsign : ∃ b mid, bs = b :: mid ∧ (is '-' b = true ∨ is '+' b = true)
  · obtain ⟨b, mid, rfl, hb⟩ := hsign
    rw [signed_of_sign hb] at h
    obtain ⟨ds, _, hdigits, hpure⟩ := bind_ok.mp h
    obtain ⟨rfl, rfl⟩ := pure_ok.mp hpure
    obtain ⟨rfl, hds⟩ := someDigits_sound hdigits
    refine ⟨b :: ds, rfl, ?_⟩
    obtain hm | hp := hb
    · rw [hm]
      exact .minus hm hds
    · rw [is_ne hp (by decide)]
      exact .plus hp hds
  · have hnone : ∀ b ∈ bs.head?, is '-' b = false ∧ is '+' b = false := by
      intro b hb
      obtain ⟨mid, rfl⟩ : ∃ mid, bs = b :: mid := ⟨bs.tail, List.eq_cons_of_mem_head? hb⟩
      simpa using fun h => hsign ⟨b, mid, rfl, h⟩
    rw [signed_of_none hnone] at h
    obtain ⟨ds, _, hdigits, hpure⟩ := bind_ok.mp h
    obtain ⟨rfl, rfl⟩ := pure_ok.mp hpure
    obtain ⟨rfl, hds⟩ := someDigits_sound hdigits
    exact ⟨ds, rfl, .plain hds⟩

theorem is_of_isDigit {c : Char} {b : UInt8} (h : isDigit b = true)
    (hc : c.toNat < 48 ∨ 57 < c.toNat) : is c b = false := by
  refine Bool.eq_false_iff.mpr fun hb => ?_
  rw [isDigit_of_is hb hc] at h
  nomatch h

theorem Digits.head {ds : List UInt8} (h : Digits ds) (rest : List UInt8) :
    ∃ d mid, ds ++ rest = d :: mid ∧ isDigit d = true := by
  obtain ⟨hne, hall⟩ := h
  cases ds with
  | nil => exact absurd rfl hne
  | cons d ds => exact ⟨d, ds ++ rest, rfl, hall d List.mem_cons_self⟩

theorem signed_complete {p : Bool × List UInt8} (h : Signed p v)
    (hrest : ∀ b ∈ rest.head?, isDigit b = false) : signed e (v ++ rest) = .ok (p, rest) := by
  cases h with
  | plain hs =>
    obtain ⟨d, mid, heq, hd⟩ := hs.head rest
    have hnone : ∀ b ∈ (v ++ rest).head?, is '-' b = false ∧ is '+' b = false := by
      rw [heq]
      rintro b ⟨⟩
      exact ⟨is_of_isDigit hd (by decide), is_of_isDigit hd (by decide)⟩
    rw [signed_of_none hnone, bind_of_ok (someDigits_complete hs hrest)]
    rfl
  | plus hp hs =>
    rw [List.cons_append, signed_of_sign (.inr hp), bind_of_ok (someDigits_complete hs hrest),
      is_ne hp (by decide)]
    rfl
  | minus hm hs =>
    rw [List.cons_append, signed_of_sign (.inl hm), bind_of_ok (someDigits_complete hs hrest), hm]
    rfl

theorem numeral_sound {wanted : Bool} {n : Numeral} (h : numeral wanted bs = .ok (n, rest)) :
    ∃ v, bs = v ++ rest ∧ Number n v := by
  rw [numeral_eq] at h
  obtain ⟨sign, bs₁, hsign, h⟩ := bind_ok.mp h
  obtain ⟨w, bs₂, hwhole, h⟩ := bind_ok.mp h
  obtain ⟨fraction, bs₃, hfraction, h⟩ := bind_ok.mp h
  obtain ⟨exponent, bs₄, hexponent, h⟩ := bind_ok.mp h
  obtain ⟨rfl, rfl⟩ := pure_ok.mp h
  obtain ⟨s, rfl, hs⟩ := marked_sound (T := fun _ v => v = [])
    (fun h => ⟨[], (pure_ok.mp h).2, rfl⟩) hsign
  obtain ⟨rfl, hw⟩ := wholeDigits_sound hwhole
  obtain ⟨f, rfl, hf⟩ := marked_sound (T := fun ds v => ds = v ∧ Digits v)
    (fun h => ⟨_, (someDigits_sound h).1, rfl, (someDigits_sound h).2⟩) hfraction
  obtain ⟨e, rfl, he⟩ := marked_sound (T := Signed) signed_sound hexponent
  exact ⟨s ++ (w ++ (f ++ e)), by simp only [List.append_assoc], .intro hs hw hf he⟩

theorem numeral_complete {wanted : Bool} {n : Numeral} (hv : Number n v) (hrest : Stops rest) :
    numeral wanted (v ++ rest) = .ok (n, rest) := by
  obtain ⟨hs, hw, hf, he⟩ := hv
  rename_i sign fraction exponent s w f x
  have hexponent : ∀ b ∈ (x ++ rest).head?, isDigit b = false ∧ is '.' b = false :=
    he.head (fun m hm => ⟨isDigit_of_isExponent hm, is_of_isExponent hm (by decide)⟩)
      fun b hb => ⟨(hrest b hb).1, (hrest b hb).2.1⟩
  have hfraction : ∀ b ∈ (f ++ (x ++ rest)).head?, isDigit b = false :=
    hf.head (fun m hm => isDigit_of_is hm (by decide)) fun b hb => (hexponent b hb).1
  have hwhole : ∀ b ∈ (w ++ (f ++ (x ++ rest))).head?, is '-' b = false := by
    obtain ⟨d, mid, heq, hd⟩ := hw.digits_of.head (f ++ (x ++ rest))
    rw [heq]
    rintro b ⟨⟩
    exact is_of_isDigit hd (by decide)
  have hdigits {e : Fault} {ds v : List UInt8} (h : ds = v ∧ Digits v) :
      someDigits e (v ++ (x ++ rest)) = .ok (ds, x ++ rest) := by
    obtain ⟨rfl, hds⟩ := h
    exact someDigits_complete hds fun b hb => (hexponent b hb).1
  rw [numeral_eq]
  simp only [List.append_assoc]
  rw [bind_of_ok (marked_complete (by rintro ⟨⟩ _ rfl; rfl) hwhole hs),
    bind_of_ok (wholeDigits_complete hw hfraction),
    bind_of_ok (marked_complete hdigits (fun b hb => (hexponent b hb).2) hf),
    bind_of_ok (marked_complete (fun h => signed_complete h fun b hb => (hrest b hb).1)
      (fun b hb => (hrest b hb).2.2) he)]
  rfl

end Numbers

/-! ## Strings -/

/-- Four hexadecimal digits and their value. -/
inductive Hex : List UInt8 → Nat → Prop
  | intro {a b c d : UInt8} {i j k l : Nat} (ha : hexValue? a = some i) (hb : hexValue? b = some j)
      (hc : hexValue? c = some k) (hd : hexValue? d = some l) :
      Hex [a, b, c, d] (((i * 16 + j) * 16 + k) * 16 + l)

/-- What can stand in a string for itself. -/
structure Plain (b : UInt8) : Prop where
  quote : is '\x22' b = false
  escape : is '\\' b = false
  control : ¬ b.toNat < 0x20

/-- The digits behind `\u`, and the character they stand for. A character beyond the first 65536
takes two halves. -/
inductive Code : List UInt8 → Char → Prop
  | single {v : List UInt8} {n : Nat} (hv : Hex v n) (hn : n < 0xd800 ∨ 0xdfff < n) :
      Code v (Char.ofNat n)
  | pair {v w : List UInt8} {e u : UInt8} {n m : Nat} (hv : Hex v n)
      (hn : 0xd800 ≤ n ∧ n ≤ 0xdbff) (he : is '\\' e = true) (hu : is 'u' u = true) (hw : Hex w m)
      (hm : 0xdc00 ≤ m ∧ m ≤ 0xdfff) :
      Code (v ++ e :: u :: w) (Char.ofNat (0x10000 + (n - 0xd800) * 0x400 + (m - 0xdc00)))

/-- What stands behind a backslash, and the character it stands for. -/
inductive Escape : List UInt8 → Char → Prop
  | simple {x : UInt8} {c : Char} (hc : simpleEscape? x = some c) : Escape [x] c
  | code {u : UInt8} {v : List UInt8} {c : Char} (hu : is 'u' u = true) (hv : Code v c) :
      Escape (u :: v) c

/-- What stands between the quotes of a string, and the bytes it stands for. -/
inductive Spells : List UInt8 → List UInt8 → Prop
  | nil : Spells [] []
  | plain {b : UInt8} {raw out : List UInt8} (hb : Plain b) (h : Spells raw out) :
      Spells (b :: raw) (b :: out)
  | escape {e : UInt8} {c : Char} {v raw out : List UInt8} (he : is '\\' e = true)
      (hv : Escape v c) (h : Spells raw out) :
      Spells (e :: (v ++ raw)) (utf8Bytes c.toString ++ out)

/-- What can stand behind a backslash in a string that nobody asks for. -/
inductive AnyEscape : List UInt8 → Prop
  | simple {x : UInt8} (hx : (simpleEscape? x).isSome = true) : AnyEscape [x]
  | code {u : UInt8} {v : List UInt8} {n : Nat} (hu : is 'u' u = true) (hv : Hex v n) :
      AnyEscape (u :: v)

/-- What stands between the quotes of a string that nobody asks for: halves need not be pairs, and
the bytes need not be a text. -/
inductive Inside : List UInt8 → Prop
  | nil : Inside []
  | plain {b : UInt8} {raw : List UInt8} (hb : Plain b) (h : Inside raw) : Inside (b :: raw)
  | escape {e : UInt8} {v raw : List UInt8} (he : is '\\' e = true) (hv : AnyEscape v)
      (h : Inside raw) : Inside (e :: (v ++ raw))

/-- A string and what stands between its quotes. -/
def Quoted (raw v : List UInt8) : Prop :=
  ∃ q q', v = q :: (raw ++ [q']) ∧ is '\x22' q = true ∧ is '\x22' q' = true

/-- A string and the text it stands for. -/
def Text (v : List UInt8) (s : String) : Prop := ∃ raw, Quoted raw v ∧ Spells raw (utf8Bytes s)

section Strings

variable {bs rest raw v out : List UInt8} {q : UInt8}

theorem hex_cons (a b c d : UInt8) (rest : List UInt8) : hex (a :: b :: c :: d :: rest) =
    match hexValue? a, hexValue? b, hexValue? c, hexValue? d with
    | some a, some b, some c, some d => Except.ok (((a * 16 + b) * 16 + c) * 16 + d, rest)
    | _, _, _, _ => Except.error Fault.notJson := by
  change (match hexValue? a, hexValue? b, hexValue? c, hexValue? d with
    | some a, some b, some c, some d => pure (((a * 16 + b) * 16 + c) * 16 + d)
    | _, _, _, _ => throw Fault.notJson : Read Nat) rest = _
  cases hexValue? a <;> cases hexValue? b <;> cases hexValue? c <;> cases hexValue? d <;> rfl

theorem hex_sound {n : Nat} (h : hex bs = .ok (n, rest)) : ∃ v, bs = v ++ rest ∧ Hex v n := by
  match bs, h with
  | a :: b :: c :: d :: t, h =>
    rw [hex_cons] at h
    split at h
    · rename_i i j k l ha hb hc hd
      cases h
      exact ⟨[a, b, c, d], rfl, .intro ha hb hc hd⟩
    · nomatch h

theorem hex_complete {n : Nat} (h : Hex v n) (rest : List UInt8) :
    hex (v ++ rest) = .ok (n, rest) := by
  obtain ⟨ha, hb, hc, hd⟩ := h
  rename_i a b c d i j k l
  change hex (a :: b :: c :: d :: rest) = _
  rw [hex_cons, ha, hb, hc, hd]

theorem unicode_sound {c : Char} (h : unicode bs = .ok (c, rest)) :
    ∃ v, bs = v ++ rest ∧ Code v c := by
  obtain ⟨n, bs₁, hn, h₁⟩ := bind_ok.mp h
  obtain ⟨hlow, h₂⟩ := guard_bind_ok.mp h₁
  obtain ⟨v, rfl, hv⟩ := hex_sound hn
  split at h₂
  · rename_i hsingle
    obtain ⟨rfl, rfl⟩ := pure_ok.mp h₂
    refine ⟨v, rfl, .single hv ?_⟩
    simp only [Bool.and_eq_true, Bool.or_eq_true, decide_eq_true_eq] at hlow hsingle
    omega
  · rename_i hpair
    obtain ⟨e, bs₂, he, h₃⟩ := bind_ok.mp h₂
    obtain ⟨hescape, h₄⟩ := guard_bind_ok.mp h₃
    obtain ⟨u, bs₃, hu, h₅⟩ := bind_ok.mp h₄
    obtain ⟨hunicode, h₆⟩ := guard_bind_ok.mp h₅
    obtain ⟨m, bs₄, hm, h₇⟩ := bind_ok.mp h₆
    obtain ⟨hhigh, h₈⟩ := guard_bind_ok.mp h₇
    obtain ⟨rfl, rfl⟩ := pure_ok.mp h₈
    obtain ⟨w, rfl, hw⟩ := hex_sound hm
    obtain rfl := next_ok.mp hu
    obtain rfl := next_ok.mp he
    simp only [Bool.and_eq_true, Bool.or_eq_true, decide_eq_true_eq] at hlow hpair hhigh
    exact ⟨v ++ e :: u :: w, by simp, .pair hv (by omega) (by simpa using hescape)
      (by simpa using hunicode) hw (by omega)⟩

theorem unicode_complete {c : Char} (h : Code v c) (rest : List UInt8) :
    unicode (v ++ rest) = .ok (c, rest) := by
  cases h with
  | single hv hn =>
    rw [unicode, bind_of_ok (hex_complete hv rest)]
    refine guard_bind_ok.mpr ⟨by simp; omega, ?_⟩
    rw [if_pos (by simp; omega)]
    rfl
  | @pair v w e u n m hv hn he hu hw hm =>
    rw [List.append_assoc, unicode, bind_of_ok (hex_complete hv _)]
    refine guard_bind_ok.mpr ⟨by simp; omega, ?_⟩
    rw [if_neg (by simp; omega)]
    refine guard_bind_ok.mpr ⟨by simp [he], ?_⟩
    refine guard_bind_ok.mpr ⟨by simp [hu], ?_⟩
    refine (bind_of_ok (hex_complete hw rest) _).trans ?_
    exact guard_bind_ok.mpr ⟨by simp; omega, rfl⟩

/-- Reads the character behind a backslash. -/
def escape (e : UInt8) : Read Char :=
  if is 'u' e then unicode
  else match simpleEscape? e with
    | some c => pure c
    | none => throw .notJson

theorem stringBytes_cons (fuel : Nat) (done : ByteArray) (b : UInt8) (bs : List UInt8) :
    stringBytes (fuel + 1) done (b :: bs) =
      if is '\x22' b then .ok (done, bs) else if b.toNat < 0x20 then .error .notJson
      else if is '\\' b then (do
        let c ← next >>= escape
        stringBytes fuel (done ++ c.toString.toUTF8)) bs
      else stringBytes fuel (done.push b) bs := by
  change (if is '\x22' b = true then pure done
    else if b.toNat < 0x20 then throw Fault.notJson
    else if is '\\' b = true then _
    else stringBytes fuel (done.push b) : Read ByteArray) bs = _
  split_ifs with hquote hcontrol hescape
  · rfl
  · rfl
  · rw [bind_assoc]
    refine congrFun (bind_congr fun e => ?_) bs
    unfold escape
    split_ifs
    · rfl
    · cases simpleEscape? e <;> rfl
  · rfl

theorem not_isUnicode {x : UInt8} (hx : (simpleEscape? x).isSome = true) : is 'u' x = false := by
  refine Bool.eq_false_iff.mpr fun hu => ?_
  have hnone : simpleEscape? x = none := by
    simp [simpleEscape?, is_ne hu]
  rw [hnone] at hx
  nomatch hx

theorem not_control {e : UInt8} (he : is '\\' e = true) : ¬ e.toNat < 0x20 := by
  rw [beq_iff_eq.mp he]
  decide

theorem escape_sound {c : Char} (h : (next >>= escape) bs = .ok (c, rest)) :
    ∃ v, bs = v ++ rest ∧ Escape v c := by
  obtain ⟨x, mid, hx, h₁⟩ := bind_ok.mp h
  obtain rfl := next_ok.mp hx
  unfold escape at h₁
  split at h₁
  · rename_i hu
    obtain ⟨v, rfl, hv⟩ := unicode_sound h₁
    exact ⟨x :: v, rfl, .code hu hv⟩
  · cases hc : simpleEscape? x with
    | none =>
      rw [hc] at h₁
      exact absurd h₁ throw_ok
    | some c' =>
      rw [hc] at h₁
      obtain ⟨rfl, rfl⟩ := pure_ok.mp h₁
      exact ⟨[x], rfl, .simple hc⟩

theorem escape_complete {c : Char} (h : Escape v c) (rest : List UInt8) :
    (next >>= escape) (v ++ rest) = .ok (c, rest) := by
  cases h with
  | @simple x c hc =>
    change escape x rest = _
    rw [escape, not_isUnicode (by simp [hc]), hc]
    rfl
  | @code u v c hu hv =>
    change escape u (v ++ rest) = _
    rw [escape, if_pos hu]
    exact unicode_complete hv rest

theorem stringBytes_sound : ∀ {fuel : Nat} {done : ByteArray} {bs rest : List UInt8}
    {out : ByteArray}, stringBytes fuel done bs = .ok (out, rest) → ∃ raw o q,
      bs = raw ++ q :: rest ∧ is '\x22' q = true ∧ Spells raw o ∧
        out.data.toList = done.data.toList ++ o
  | fuel + 1, done, b :: bs, rest, out, h => by
    rw [stringBytes_cons] at h
    split_ifs at h with hquote hcontrol hescape
    · cases h
      exact ⟨[], [], b, rfl, hquote, .nil, (List.append_nil _).symm⟩
    · obtain ⟨c, mid, hc, h₁⟩ := bind_ok.mp h
      obtain ⟨raw, o, q, rfl, hq, hspells, hout⟩ := stringBytes_sound h₁
      obtain ⟨v, rfl, hv⟩ := escape_sound hc
      refine ⟨b :: (v ++ raw), utf8Bytes c.toString ++ o, q, by simp, hq,
        .escape hescape hv hspells, ?_⟩
      simp [hout, utf8Bytes]
    · obtain ⟨raw, o, q, rfl, hq, hspells, hout⟩ := stringBytes_sound h
      refine ⟨b :: raw, b :: o, q, rfl, hq, .plain ⟨?_, ?_, hcontrol⟩ hspells, ?_⟩
      · simpa using hquote
      · simpa using hescape
      · simpa using hout

theorem stringBytes_complete (hq : is '\x22' q = true) (h : Spells raw out) (rest : List UInt8) :
    ∀ (fuel : Nat) (done : ByteArray), raw.length < fuel → ∃ all,
      stringBytes fuel done (raw ++ q :: rest) = .ok (all, rest) ∧
        all.data.toList = done.data.toList ++ out := by
  induction h with
  | nil =>
    rintro (_ | fuel) done hfuel
    · nomatch hfuel
    refine ⟨done, ?_, (List.append_nil _).symm⟩
    rw [List.nil_append, stringBytes_cons, if_pos hq]
  | @plain b raw out hb h ih =>
    rintro (_ | fuel) done hfuel
    · nomatch hfuel
    obtain ⟨all, hread, hall⟩ := ih fuel (done.push b) (by simpa using hfuel)
    refine ⟨all, ?_, by simpa using hall⟩
    rw [List.cons_append, stringBytes_cons, if_neg (by simp [hb.quote]), if_neg hb.control,
      if_neg (by simp [hb.escape]), hread]
  | @escape e c v raw out he hv h ih =>
    rintro (_ | fuel) done hfuel
    · nomatch hfuel
    simp only [List.length_cons, List.length_append] at hfuel
    obtain ⟨all, hread, hall⟩ := ih fuel (done ++ c.toString.toUTF8) (by omega)
    refine ⟨all, ?_, by simpa [utf8Bytes] using hall⟩
    rw [List.cons_append, List.append_assoc, stringBytes_cons, if_neg (by simp [is_ne he]),
      if_neg (not_control he), if_pos he, bind_of_ok (escape_complete hv _), hread]

/-- The bytes are those of one text only. -/
theorem fromUTF8?_eq {bytes : ByteArray} {s : String} :
    String.fromUTF8? bytes = some s ↔ bytes.data.toList = utf8Bytes s := by
  have hbytes : bytes.data.toList = utf8Bytes s ↔ bytes = s.toByteArray :=
    ⟨fun h => ByteArray.ext (Array.toList_inj.mp h), fun h => h ▸ rfl⟩
  rw [hbytes, String.fromUTF8?]
  split_ifs with hvalid
  · rw [Option.some.injEq]
    exact ⟨fun h => h ▸ rfl, fun h => String.toByteArray_inj.mp h⟩
  · exact iff_of_false nofun fun h => hvalid (h ▸ s.isValidUTF8)

theorem stringBody_sound {s : String} (h : stringBody bs = .ok (s, rest)) :
    ∃ raw q, bs = raw ++ q :: rest ∧ is '\x22' q = true ∧ Spells raw (utf8Bytes s) := by
  obtain ⟨_, _, hget, h₁⟩ := bind_ok.mp h
  cases hget
  obtain ⟨all, mid, hbytes, h₂⟩ := bind_ok.mp h₁
  cases hs : String.fromUTF8? all with
  | none =>
    rw [hs] at h₂
    exact absurd h₂ throw_ok
  | some t =>
    rw [hs] at h₂
    obtain ⟨rfl, rfl⟩ := pure_ok.mp h₂
    obtain ⟨raw, o, q, rfl, hq, hspells, hall⟩ := stringBytes_sound hbytes
    obtain rfl : o = utf8Bytes t := hall.symm.trans (fromUTF8?_eq.mp hs)
    exact ⟨raw, q, rfl, hq, hspells⟩

theorem stringBody_complete {s : String} (hq : is '\x22' q = true) (h : Spells raw (utf8Bytes s))
    (rest : List UInt8) : stringBody (raw ++ q :: rest) = .ok (s, rest) := by
  obtain ⟨all, hread, hall⟩ := stringBytes_complete hq h rest
    ((raw ++ q :: rest).length + 1) ByteArray.empty (by rw [List.length_append]; omega)
  refine (bind_of_ok (x := get) rfl _).trans ((bind_of_ok hread _).trans ?_)
  rw [fromUTF8?_eq.mpr hall]
  rfl

/-- Skips what stands behind a backslash. -/
def skipEscape (e : UInt8) : Read Unit := do
  if is 'u' e then let _ ← hex
  else if (simpleEscape? e).isSome then pure ()
  else throw .notJson

theorem skipString_cons (fuel : Nat) (b : UInt8) (bs : List UInt8) :
    skipString (fuel + 1) (b :: bs) =
      if is '\x22' b then .ok ((), bs) else if b.toNat < 0x20 then .error .notJson
      else if is '\\' b then (do next >>= skipEscape; skipString fuel) bs
      else skipString fuel bs := by
  change (if is '\x22' b = true then pure ()
    else if b.toNat < 0x20 then throw Fault.notJson
    else if is '\\' b = true then _
    else skipString fuel : Read Unit) bs = _
  split_ifs with hquote hcontrol hescape
  · rfl
  · rfl
  · rw [bind_assoc]
    refine congrFun (bind_congr fun e => ?_) bs
    unfold skipEscape
    split_ifs
    · rw [bind_assoc]
      rfl
    · rfl
    · rfl
  · rfl

theorem skipEscape_sound (h : (next >>= skipEscape) bs = .ok ((), rest)) :
    ∃ v, bs = v ++ rest ∧ AnyEscape v := by
  obtain ⟨x, mid, hx, h₁⟩ := bind_ok.mp h
  obtain rfl := next_ok.mp hx
  unfold skipEscape at h₁
  split_ifs at h₁ with hu hsimple
  · obtain ⟨n, _, hn, h₂⟩ := bind_ok.mp h₁
    obtain ⟨-, rfl⟩ := pure_ok.mp h₂
    obtain ⟨v, rfl, hv⟩ := hex_sound hn
    exact ⟨x :: v, rfl, .code hu hv⟩
  · obtain ⟨-, rfl⟩ := pure_ok.mp h₁
    exact ⟨[x], rfl, .simple hsimple⟩
  · exact absurd h₁ throw_ok

theorem skipEscape_complete (h : AnyEscape v) (rest : List UInt8) :
    (next >>= skipEscape) (v ++ rest) = .ok ((), rest) := by
  cases h with
  | @simple x hx =>
    change skipEscape x rest = _
    rw [skipEscape, not_isUnicode hx, if_pos hx]
    rfl
  | @code u v n hu hv =>
    change skipEscape u (v ++ rest) = _
    rw [skipEscape, if_pos hu, bind_of_ok (hex_complete hv rest)]
    rfl

theorem skipString_sound : ∀ {fuel : Nat} {bs rest : List UInt8},
    skipString fuel bs = .ok ((), rest) → ∃ raw q, bs = raw ++ q :: rest ∧ is '\x22' q = true ∧
      Inside raw
  | fuel + 1, b :: bs, rest, h => by
    rw [skipString_cons] at h
    split_ifs at h with hquote hcontrol hescape
    · cases h
      exact ⟨[], b, rfl, hquote, .nil⟩
    · obtain ⟨_, mid, hskip, h₁⟩ := bind_ok.mp h
      obtain ⟨raw, q, rfl, hq, hinside⟩ := skipString_sound h₁
      obtain ⟨v, rfl, hv⟩ := skipEscape_sound hskip
      exact ⟨b :: (v ++ raw), q, by simp, hq, .escape hescape hv hinside⟩
    · obtain ⟨raw, q, rfl, hq, hinside⟩ := skipString_sound h
      refine ⟨b :: raw, q, rfl, hq, .plain ⟨?_, ?_, hcontrol⟩ hinside⟩
      · simpa using hquote
      · simpa using hescape

theorem skipString_complete (hq : is '\x22' q = true) (h : Inside raw) :
    ∀ {fuel : Nat}, raw.length < fuel → skipString fuel (raw ++ q :: rest) = .ok ((), rest) := by
  induction h with
  | nil =>
    rintro (_ | fuel) hfuel
    · nomatch hfuel
    rw [List.nil_append, skipString_cons, if_pos hq]
  | @plain b raw hb h ih =>
    rintro (_ | fuel) hfuel
    · nomatch hfuel
    rw [List.cons_append, skipString_cons, if_neg (by simp [hb.quote]), if_neg hb.control,
      if_neg (by simp [hb.escape]), ih (by simpa using hfuel)]
  | @escape e v raw he hv h ih =>
    rintro (_ | fuel) hfuel
    · nomatch hfuel
    simp only [List.length_cons, List.length_append] at hfuel
    rw [List.cons_append, List.append_assoc, skipString_cons, if_neg (by simp [is_ne he]),
      if_neg (not_control he), if_pos he, bind_of_ok (skipEscape_complete hv _), ih (by omega)]

theorem skipBody_complete (hq : is '\x22' q = true) (h : Inside raw) (rest : List UInt8) :
    skipString ((raw ++ q :: rest).length + 1) (raw ++ q :: rest) = .ok ((), rest) :=
  skipString_complete hq h (by rw [List.length_append]; omega)

/-- What stands behind the digits of the first half goes on like any string. -/
theorem Code.inside {c : Char} (h : Code v c) : ∃ w n raw', v = w ++ raw' ∧ Hex w n ∧
    ∀ {raw}, Inside raw → Inside (raw' ++ raw) := by
  cases h with
  | @single v n hv hn => exact ⟨v, n, [], (List.append_nil v).symm, hv, id⟩
  | @pair v w e u n m hv hn he hu hw hm =>
    exact ⟨v, n, e :: u :: w, rfl, hv, fun h => .escape he (.code hu hw) h⟩

/-- A string that can be read can be skipped. -/
theorem Spells.inside (h : Spells raw out) : Inside raw := by
  induction h with
  | nil => exact .nil
  | plain hb h ih => exact .plain hb ih
  | escape he hv h ih =>
    cases hv with
    | simple hc => exact .escape he (.simple (by rw [hc]; rfl)) ih
    | @code u v c hu hv =>
      obtain ⟨w, n, raw', rfl, hw, hinside⟩ := hv.inside
      rw [List.cons_append, List.append_assoc]
      exact .escape he (.code hu hw) (hinside ih)

end Strings

end Stagehand.Json
