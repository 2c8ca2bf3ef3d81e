import Stagehand.Proofs.JsonTokens

/-!
# The values of JSON

What a value is, and that skipping takes exactly a value, however deep it is. A list and an object
are read alike: something opens them, their items stand between commas, and something closes them
(`Items`); an item of a list is a value, and one of an object a key and a value.

Skipping keeps what encloses the value on a stack. So the two directions are shown for a run that
goes on behind the value: a value takes a run some steps further, to where it is done with the value
and the stack is the same (`Value.skips`); and a run that ends well has done so (`skipFrom_sound`).
-/

namespace Stagehand.Json

/-! ## Items between commas -/

/-- What stands in front of an item: white space, and a comma if it is not the first. -/
def Separator : Bool → List UInt8 → Prop
  | true, s => Space s
  | false, s => ∃ s₁ c s₂, s = s₁ ++ c :: s₂ ∧ Space s₁ ∧ is ',' c = true ∧ Space s₂

/-- What is left of a list or an object, up to what closes it: the items that follow. The first of
all has no comma in front of it. -/
inductive Items (close : Char) : Bool → List UInt8 → List (List UInt8) → Prop
  | last {first : Bool} {s : List UInt8} {c : UInt8} (hs : Space s) (hc : is close c = true) :
      Items close first (s ++ [c]) []
  | item {first : Bool} {s m t : List UInt8} {ms : List (List UInt8)} (hs : Separator first s)
      (h : Items close false t ms) : Items close first (s ++ (m ++ t)) (m :: ms)

/-- A key and its value. -/
inductive Member (key : List UInt8 → Prop) : List UInt8 → List UInt8 → Prop
  | intro {q q' c : UInt8} {raw s s' v : List UInt8} (hq : is '\x22' q = true) (hkey : key raw)
      (hq' : is '\x22' q' = true) (hs : Space s) (hc : is ':' c = true) (hs' : Space s') :
      Member key (q :: (raw ++ q' :: (s ++ c :: (s' ++ v)))) v

/-- The byte that begins what encloses a value. -/
def Enclosure.start : Enclosure → Char
  | .list => '['
  | .object => '\x7b'

/-- An item of a list or an object, and the value that it has. -/
def Item : Enclosure → List UInt8 → List UInt8 → Prop
  | .list => Eq
  | .object => Member Inside

/-- A value that encloses nothing, and that nobody asks for. -/
inductive Scalar : List UInt8 → Prop
  | word {cs : List Char} {v : List UInt8}
      (hcs : cs ∈ [['n', 'u', 'l', 'l'], ['t', 'r', 'u', 'e'], ['f', 'a', 'l', 's', 'e']])
      (hv : Word cs v) : Scalar v
  | number {n : Numeral} {v : List UInt8} (hv : Number n v) : Scalar v
  | string {raw v : List UInt8} (hv : Quoted raw v) (h : Inside raw) : Scalar v

/-- A value that nobody asks for. -/
inductive Value : List UInt8 → Prop
  | scalar {v : List UInt8} (hv : Scalar v) : Value v
  | enclosed {e : Enclosure} {b : UInt8} {t : List UInt8} {ms vs : List (List UInt8)}
      (hb : is e.start b = true) (ht : Items e.close true t ms) (hms : List.Forall₂ (Item e) ms vs)
      (h : ∀ v ∈ vs, Value v) : Value (b :: t)

/-! ## How a value begins -/

/-- The byte can begin an item: it neither closes nor goes on. -/
structure Starts (b : UInt8) : Prop where
  space : isSpace b = false
  list : is ']' b = false
  object : is '\x7d' b = false
  comma : is ',' b = false

/-- There is a first byte, and it can begin an item. -/
def Begins (v : List UInt8) : Prop := ∃ b t, v = b :: t ∧ Starts b

theorem starts_of_is {c : Char} {b : UInt8} (h : is c b = true)
    (hc : c ∈ ['n', 't', 'f', '-', '\x22', '[', '\x7b']) : Starts b := by
  have hall : ∀ c ∈ ['n', 't', 'f', '-', '\x22', '[', '\x7b'],
      (c.toNat ≠ 32 ∧ c.toNat ≠ 10 ∧ c.toNat ≠ 9 ∧ c.toNat ≠ 13) ∧ c.toNat ≠ ']'.toNat ∧
        c.toNat ≠ '\x7d'.toNat ∧ c.toNat ≠ ','.toNat := by simp
  obtain ⟨hspace, hlist, hobject, hcomma⟩ := hall c hc
  exact ⟨isSpace_of_is h hspace, is_ne h hlist, is_ne h hobject, is_ne h hcomma⟩

theorem starts_of_isDigit {b : UInt8} (h : isDigit b = true) : Starts b where
  space := by
    simp only [isSpace, Bool.or_eq_false_iff]
    exact ⟨⟨⟨is_of_isDigit h (by decide), is_of_isDigit h (by decide)⟩,
      is_of_isDigit h (by decide)⟩, is_of_isDigit h (by decide)⟩
  list := is_of_isDigit h (by decide)
  object := is_of_isDigit h (by decide)
  comma := is_of_isDigit h (by decide)

/-- A number begins with a sign or a digit. -/
theorem Number.head {n : Numeral} {v : List UInt8} (h : Number n v) :
    ∃ b t, v = b :: t ∧ (is '-' b || isDigit b) = true := by
  obtain ⟨hs, hw, hf, he⟩ := h
  cases hs with
  | none =>
    obtain ⟨d, t, heq, hd⟩ := hw.digits_of.head _
    exact ⟨d, t, heq, by simp [hd]⟩
  | some hm _ => exact ⟨_, _, rfl, by simp [hm]⟩

theorem Starts.of_number {b : UInt8} (h : (is '-' b || isDigit b) = true) : Starts b := by
  obtain h | h := Bool.or_eq_true_iff.mp h
  · exact starts_of_is h (by decide)
  · exact starts_of_isDigit h

/-- A value that encloses nothing is known by its first byte. -/
theorem Scalar.head {v : List UInt8} (h : Scalar v) : ∃ b t, v = b :: t ∧
    ((∃ c ∈ ['n', 't', 'f', '\x22'], is c b = true) ∨ (is '-' b || isDigit b) = true) := by
  cases h with
  | word hcs hv =>
    simp only [List.mem_cons, List.not_mem_nil, or_false] at hcs
    obtain rfl | rfl | rfl := hcs <;> obtain _ | ⟨hb, _⟩ := hv <;>
      exact ⟨_, _, rfl, .inl ⟨_, by decide, hb⟩⟩
  | number hv =>
    obtain ⟨b, t, rfl, hb⟩ := hv.head
    exact ⟨b, t, rfl, .inr hb⟩
  | string hv _ =>
    obtain ⟨q, q', rfl, hq, -⟩ := hv
    exact ⟨q, _, rfl, .inl ⟨_, by decide, hq⟩⟩

theorem Scalar.starts {b : UInt8}
    (h : (∃ c ∈ ['n', 't', 'f', '\x22'], is c b = true) ∨ (is '-' b || isDigit b) = true) :
    Starts b ∧ is '[' b = false ∧ is '\x7b' b = false := by
  have hall : ∀ c ∈ ['n', 't', 'f', '\x22'], c ∈ ['n', 't', 'f', '-', '\x22', '[', '\x7b'] ∧
      c.toNat ≠ '['.toNat ∧ c.toNat ≠ '\x7b'.toNat := by simp
  obtain ⟨c, hc, hb⟩ | hb := h
  · obtain ⟨hmem, hlist, hobject⟩ := hall c hc
    exact ⟨starts_of_is hb hmem, is_ne hb hlist, is_ne hb hobject⟩
  · refine ⟨.of_number hb, ?_⟩
    obtain hb | hb := Bool.or_eq_true_iff.mp hb
    · exact ⟨is_ne hb (by decide), is_ne hb (by decide)⟩
    · exact ⟨is_of_isDigit hb (by decide), is_of_isDigit hb (by decide)⟩

theorem Value.begins {v : List UInt8} (h : Value v) : Begins v := by
  cases h with
  | scalar hv =>
    obtain ⟨b, t, rfl, hb⟩ := hv.head
    exact ⟨b, t, rfl, (Scalar.starts hb).1⟩
  | @enclosed e b t ms vs hb _ _ _ =>
    refine ⟨b, t, rfl, starts_of_is hb ?_⟩
    cases e <;> decide

theorem Item.begins {e : Enclosure} {m v : List UInt8} (h : Item e m v) (hv : Value v) :
    Begins m := by
  cases e with
  | list =>
    obtain rfl : m = v := h
    exact hv.begins
  | object =>
    obtain ⟨hq, -, -, -, -, -⟩ := h
    exact ⟨_, _, rfl, starts_of_is hq (by decide)⟩

theorem Space.append {s s' : List UInt8} (hs : Space s) (hs' : Space s') : Space (s ++ s') :=
  List.forall_mem_append.mpr ⟨hs, hs'⟩

/-- What neither is a digit nor goes on with a number. -/
theorem stops_of_is {c : Char} {b : UInt8} (h : is c b = true)
    (hc : c ∈ [' ', '\n', '\t', '\r', ',', ']', '\x7d']) (rest : List UInt8) :
    Stops (b :: rest) := by
  have hall : ∀ c ∈ [' ', '\n', '\t', '\r', ',', ']', '\x7d'], (c.toNat < 48 ∨ 57 < c.toNat) ∧
      c.toNat ≠ '.'.toNat ∧ c.toNat ≠ 'e'.toNat ∧ c.toNat ≠ 'E'.toNat := by simp
  obtain ⟨hdigit, hpoint, he, hE⟩ := hall c hc
  rintro _ ⟨⟩
  exact ⟨isDigit_of_is h hdigit, is_ne h hpoint, Bool.or_eq_false_iff.mpr ⟨is_ne h he, is_ne h hE⟩⟩

theorem stops_append {s rest : List UInt8} (hs : Space s) (hrest : Stops rest) :
    Stops (s ++ rest) := by
  cases s with
  | nil => exact hrest
  | cons b s =>
    have hb := hs b List.mem_cons_self
    simp only [isSpace, Bool.or_eq_true] at hb
    obtain ((hb | hb) | hb) | hb := hb <;> exact stops_of_is hb (by decide) _

theorem Separator.append {first : Bool} {s s' : List UInt8} (hs : Separator first s)
    (hs' : Space s') : Separator first (s ++ s') := by
  cases first with
  | true => exact Space.append hs hs'
  | false =>
    obtain ⟨s₁, c, s₂, rfl, hs₁, hc, hs₂⟩ := hs
    exact ⟨s₁, c, s₂ ++ s', by simp, hs₁, hc, hs₂.append hs'⟩

/-- There are no more items than bytes. -/
theorem Items.length_le {close : Char} {first : Bool} {t : List UInt8} {ms : List (List UInt8)}
    (h : Items close first t ms) (hms : ∀ m ∈ ms, Begins m) : ms.length ≤ t.length := by
  induction h with
  | last => exact Nat.zero_le _
  | item _ _ ih =>
    obtain ⟨⟨b, m, rfl, -⟩, hrest⟩ := List.forall_mem_cons.mp hms
    have hle := ih hrest
    simp only [List.length_cons, List.length_append]
    omega

theorem Enclosure.close_mem (e : Enclosure) : e.close ∈ [']', '\x7d'] := by
  cases e <;> decide

/-- What follows an item does not go on with a number. -/
theorem Items.stops {close : Char} (hclose : close ∈ [']', '\x7d']) {t : List UInt8}
    {ms : List (List UInt8)} (h : Items close false t ms) (rest : List UInt8) :
    Stops (t ++ rest) := by
  cases h with
  | last hs hc =>
    rw [List.append_assoc]
    exact stops_append hs (stops_of_is hc (by simp at hclose ⊢; tauto) _)
  | item hs _ =>
    obtain ⟨s₁, c, s₂, rfl, hs₁, hc, -⟩ := hs
    simp only [List.append_assoc]
    exact stops_append hs₁ (stops_of_is hc (by decide) _)

/-! ## Skipping scalars and keys -/

section Scalars

variable {bs rest v : List UInt8}

theorem skipScalar_sound {b : UInt8} {t : List UInt8} (h : skipScalar b (b :: t) = .ok ((), rest)) :
    ∃ v, b :: t = v ++ rest ∧ Scalar v := by
  unfold skipScalar at h
  split_ifs at h with hn ht hf hnumber hquote
  · obtain ⟨v, hbs, hv⟩ := word_ok.mp h
    exact ⟨v, hbs, .word (by decide) hv⟩
  · obtain ⟨v, hbs, hv⟩ := word_ok.mp h
    exact ⟨v, hbs, .word (by decide) hv⟩
  · obtain ⟨v, hbs, hv⟩ := word_ok.mp h
    exact ⟨v, hbs, .word (by decide) hv⟩
  · obtain ⟨n, mid, hread, hpure⟩ := bind_ok.mp h
    obtain ⟨-, rfl⟩ := pure_ok.mp hpure
    obtain ⟨v, hbs, hv⟩ := numeral_sound hread
    exact ⟨v, hbs, .number hv⟩
  · have hskip : skipString (t.length + 1) t = .ok ((), rest) := h
    obtain ⟨raw, q, rfl, hq, hinside⟩ := skipString_sound hskip
    exact ⟨b :: (raw ++ [q]), by simp, .string ⟨b, q, rfl, hquote, hq⟩ hinside⟩
  · exact absurd h throw_ok

theorem skipScalar_complete {b : UInt8} {t : List UInt8} (h : Scalar (b :: t))
    (hrest : Stops rest) : skipScalar b (b :: t ++ rest) = .ok ((), rest) := by
  unfold skipScalar
  cases h with
  | word hcs hv =>
    have hword {cs : List Char} (hv : Word cs (b :: t)) :
        word cs (b :: t ++ rest) = .ok ((), rest) := word_ok.mpr ⟨b :: t, rfl, hv⟩
    simp only [List.mem_cons, List.not_mem_nil, or_false] at hcs
    obtain rfl | rfl | rfl := hcs <;> obtain _ | ⟨hb, ht⟩ := hv
    · rw [if_pos hb]
      exact hword (.cons hb ht)
    · rw [if_neg (by simp [is_ne hb]), if_pos hb]
      exact hword (.cons hb ht)
    · rw [if_neg (by simp [is_ne hb]), if_neg (by simp [is_ne hb]), if_pos hb]
      exact hword (.cons hb ht)
  | number hv =>
    obtain ⟨b', t', heq, hb⟩ := hv.head
    cases heq
    have hne (c : Char) (hc : (c.toNat < 48 ∨ 57 < c.toNat) ∧ '-'.toNat ≠ c.toNat) :
        ¬ is c b = true := by
      obtain hb | hb := Bool.or_eq_true_iff.mp hb
      · simp [is_ne hb hc.2]
      · simp [is_of_isDigit hb hc.1]
    rw [if_neg (hne 'n' (by decide)), if_neg (hne 't' (by decide)), if_neg (hne 'f' (by decide)),
      if_pos hb, bind_of_ok (numeral_complete hv hrest)]
    rfl
  | @string raw _ hv hraw =>
    obtain ⟨q, q', heq, hq, hq'⟩ := hv
    cases heq
    rw [if_neg (by simp [is_ne hq]), if_neg (by simp [is_ne hq]), if_neg (by simp [is_ne hq]),
      if_neg (by simp [is_ne hq, isDigit_of_is hq]), if_pos hq]
    have hskip := skipBody_complete hq' hraw rest
    rw [← List.singleton_append, ← List.append_assoc] at hskip
    exact hskip

theorem skipKey_sound (h : skipKey bs = .ok ((), rest)) : ∃ s q raw q' s' c,
    bs = s ++ q :: (raw ++ q' :: (s' ++ c :: rest)) ∧ Space s ∧ is '\x22' q = true ∧ Inside raw ∧
      is '\x22' q' = true ∧ Space s' ∧ is ':' c = true := by
  obtain ⟨q, mid, hpeek, h₁⟩ := bind_ok.mp h
  obtain ⟨hquote, h₂⟩ := guard_bind_ok.mp h₁
  obtain ⟨s, t, rfl, hs, -, rfl⟩ := peekValue_ok.mp hpeek
  obtain ⟨_, _, hdrop, h₃⟩ := bind_ok.mp h₂
  obtain ⟨_, _, hget, h₄⟩ := bind_ok.mp h₃
  obtain ⟨_, mid₁, hskip, h₅⟩ := bind_ok.mp h₄
  obtain ⟨c, mid₂, hpeek', h₆⟩ := bind_ok.mp h₅
  obtain ⟨hcolon, h₇⟩ := guard_bind_ok.mp h₆
  obtain ⟨s', t', rfl, hs', -, rfl⟩ := peekValue_ok.mp hpeek'
  obtain ⟨raw, q', rfl, hq', hraw⟩ := skipString_sound hskip
  cases hdrop
  cases hget
  cases h₇
  exact ⟨s, q, raw, q', s', c, rfl, hs, by simpa using hquote, hraw, hq', hs',
    by simpa using hcolon⟩

theorem skipKey_complete {s raw s' : List UInt8} {q q' c : UInt8} (hs : Space s)
    (hq : is '\x22' q = true) (hraw : Inside raw) (hq' : is '\x22' q' = true) (hs' : Space s')
    (hc : is ':' c = true) (rest : List UInt8) :
    skipKey (s ++ q :: (raw ++ q' :: (s' ++ c :: rest))) = .ok ((), rest) := by
  have hskip := skipBody_complete hq' hraw (s' ++ c :: rest)
  rw [skipKey, bind_of_ok (peekValue_complete hs (isSpace_of_is hq (by decide)))]
  refine guard_bind_ok.mpr ⟨by simp [hq], ?_⟩
  refine bind_ok.mpr ⟨(), _, drop_eq _ _, bind_ok.mpr ⟨_, _, rfl, bind_ok.mpr ⟨(), _, hskip, ?_⟩⟩⟩
  rw [bind_of_ok (peekValue_complete hs' (isSpace_of_is hc (by decide)))]
  exact guard_bind_ok.mpr ⟨by simp [hc], rfl⟩

end Scalars

/-! ## Skipping values -/

/-- Skips an item and what follows it in everything that encloses it. -/
def skipItem (fuel : Nat) (e : Enclosure) (outer : List Enclosure) : Read Unit := do
  if e == .object then skipKey
  skipFrom fuel .value (e :: outer)

section Steps

variable {fuel : Nat} {e : Enclosure} {outer : List Enclosure} {spot : Spot} {b : UInt8}
  {s bs rest : List UInt8}

/-- A step in front of a value. -/
theorem skipFrom_value (hs : Space s) (hb : isSpace b = false) :
    skipFrom (fuel + 1) .value outer (s ++ b :: bs) =
      if is '[' b then skipFrom fuel .opened (.list :: outer) bs
      else if is '\x7b' b then skipFrom fuel .opened (.object :: outer) bs
      else (do skipScalar b; skipFrom fuel .behind outer) (b :: bs) := by
  refine (bind_of_ok (peekValue_complete hs hb) fun b =>
    if is '[' b then (do drop; skipFrom fuel .opened (.list :: outer))
    else if is '\x7b' b then (do drop; skipFrom fuel .opened (.object :: outer))
    else (do skipScalar b; skipFrom fuel .behind outer)).trans ?_
  split_ifs <;> rfl

/-- Where a skip stands in front of the next item. -/
def Spot.atItem (first : Bool) : Spot := if first then .opened else .behind

/-- A step in front of the next item. -/
theorem skipFrom_atItem {first : Bool} (hs : Space s) (hb : isSpace b = false) :
    skipFrom (fuel + 1) (.atItem first) (e :: outer) (s ++ b :: bs) =
      if is e.close b then skipFrom fuel .behind outer bs
      else if first then skipItem fuel e outer (b :: bs)
      else if is ',' b then skipItem fuel e outer bs
      else .error .notJson := by
  cases first with
  | true =>
    refine (bind_of_ok (peekValue_complete hs hb) fun b =>
      if is e.close b then (do drop; skipFrom fuel .behind outer)
      else skipItem fuel e outer).trans ?_
    rw [if_pos rfl]
    split_ifs <;> rfl
  | false =>
    refine (bind_of_ok (peekValue_complete hs hb) fun b =>
      if is e.close b then (do drop; skipFrom fuel .behind outer)
      else do
        if is ',' b then drop else throw .notJson
        skipItem fuel e outer).trans ?_
    rw [if_neg Bool.false_ne_true]
    split_ifs <;> rfl

/-- A run that ends well has found a byte first, unless there was nothing left to skip. -/
theorem skipFrom_byte {spot : Spot} (hspot : spot = .value ∨ outer ≠ [])
    (h : skipFrom fuel spot outer bs = .ok ((), rest)) :
    ∃ fuel' s b mid, fuel = fuel' + 1 ∧ bs = s ++ b :: mid ∧ Space s ∧ isSpace b = false := by
  have hpeek : ∃ fuel' b mid, fuel = fuel' + 1 ∧ peekValue bs = .ok (b, mid) := by
    match fuel, spot, outer, hspot, h with
    | fuel + 1, .value, outer, _, h =>
      obtain ⟨b, mid, hpeek, -⟩ := bind_ok.mp h
      exact ⟨fuel, b, mid, rfl, hpeek⟩
    | fuel + 1, .opened, e :: outer, _, h =>
      obtain ⟨b, mid, hpeek, -⟩ := bind_ok.mp h
      exact ⟨fuel, b, mid, rfl, hpeek⟩
    | fuel + 1, .behind, e :: outer, _, h =>
      obtain ⟨b, mid, hpeek, -⟩ := bind_ok.mp h
      exact ⟨fuel, b, mid, rfl, hpeek⟩
  obtain ⟨fuel', b, _, rfl, hpeek⟩ := hpeek
  obtain ⟨s, mid, rfl, hs, hb, -⟩ := peekValue_ok.mp hpeek
  exact ⟨fuel', s, b, mid, rfl, rfl, hs, hb⟩

end Steps

section Sound

variable {outer : List Enclosure} {rest : List UInt8}

/-- A run that ends well has skipped a value, or what was left of the items. -/
structure Ends (fuel : Nat) : Prop where
  value : ∀ {outer bs rest}, skipFrom fuel .value outer bs = .ok ((), rest) →
    ∃ s v mid, ∃ fuel' < fuel, bs = s ++ (v ++ mid) ∧ Space s ∧ Value v ∧
      skipFrom fuel' .behind outer mid = .ok ((), rest)
  items : ∀ first {e outer bs rest},
    skipFrom fuel (.atItem first) (e :: outer) bs = .ok ((), rest) →
    ∃ t ms vs mid, ∃ fuel' < fuel, bs = t ++ mid ∧ Items e.close first t ms ∧
      List.Forall₂ (Item e) ms vs ∧ (∀ v ∈ vs, Value v) ∧
      skipFrom fuel' .behind outer mid = .ok ((), rest)

/-- An item and what follows it. -/
theorem skipItem_sound {fuel : Nat} {e : Enclosure} {bs : List UInt8}
    (ih : ∀ fuel' ≤ fuel, Ends fuel') (h : skipItem fuel e outer bs = .ok ((), rest)) :
    ∃ s m v t ms vs mid, ∃ fuel' < fuel, bs = s ++ (m ++ (t ++ mid)) ∧ Space s ∧ Item e m v ∧
      Value v ∧ Items e.close false t ms ∧ List.Forall₂ (Item e) ms vs ∧ (∀ v ∈ vs, Value v) ∧
      skipFrom fuel' .behind outer mid = .ok ((), rest) := by
  have hvalue {bs : List UInt8} (h : skipFrom fuel .value (e :: outer) bs = .ok ((), rest)) :
      ∃ s v t ms vs mid, ∃ fuel' < fuel, bs = s ++ (v ++ (t ++ mid)) ∧ Space s ∧ Value v ∧
        Items e.close false t ms ∧ List.Forall₂ (Item e) ms vs ∧ (∀ v ∈ vs, Value v) ∧
        skipFrom fuel' .behind outer mid = .ok ((), rest) := by
    obtain ⟨s, v, mid, fuel₁, hfuel₁, rfl, hs, hv, h₁⟩ := (ih fuel le_rfl).value h
    obtain ⟨t, ms, vs, mid, fuel₂, hfuel₂, rfl, ht, hms, hvs, h₂⟩ :=
      (ih fuel₁ hfuel₁.le).items false h₁
    exact ⟨s, v, t, ms, vs, mid, fuel₂, hfuel₂.trans hfuel₁, rfl, hs, hv, ht, hms, hvs, h₂⟩
  cases e with
  | list =>
    obtain ⟨s, v, t, ms, vs, mid, fuel', hfuel', rfl, hs, hv, hrest⟩ := hvalue h
    exact ⟨s, v, v, t, ms, vs, mid, fuel', hfuel', rfl, hs, rfl, hv, hrest⟩
  | object =>
    obtain ⟨_, mid, hkey, h₁⟩ := bind_ok.mp h
    obtain ⟨s, v, t, ms, vs, mid, fuel', hfuel', rfl, hs, hv, hrest⟩ := hvalue h₁
    obtain ⟨s', q, raw, q', s₁, c, rfl, hs', hq, hraw, hq', hs₁, hc⟩ := skipKey_sound hkey
    exact ⟨s', _, v, t, ms, vs, mid, fuel', hfuel', by simp, hs', .intro hq hraw hq' hs₁ hc hs, hv,
      hrest⟩

/-- A run that ends well has skipped what it stood in front of. -/
theorem skipFrom_sound (fuel : Nat) : Ends fuel := by
  induction fuel using Nat.strong_induction_on with
  | _ fuel ih =>
    refine ⟨fun {outer bs rest} h => ?_, fun first {e outer bs rest} h => ?_⟩
    · obtain ⟨fuel, s, b, mid, rfl, rfl, hs, hb⟩ := skipFrom_byte (.inl rfl) h
      rw [skipFrom_value hs hb] at h
      have henclosed {e : Enclosure} (hb : is e.start b = true)
          (h : skipFrom fuel .opened (e :: outer) mid = .ok ((), rest)) :
          ∃ v mid', ∃ fuel' < fuel, b :: mid = v ++ mid' ∧ Value v ∧
            skipFrom fuel' .behind outer mid' = .ok ((), rest) := by
        obtain ⟨t, ms, vs, mid', fuel', hfuel', rfl, ht, hms, hvs, hrest⟩ :=
          (ih fuel (Nat.lt_succ_self fuel)).items true h
        exact ⟨b :: t, mid', fuel', hfuel', rfl, .enclosed hb ht hms hvs, hrest⟩
      split_ifs at h with hlist hobject
      · obtain ⟨v, mid', fuel', hfuel', heq, hv, hrest⟩ := henclosed (e := .list) hlist h
        exact ⟨s, v, mid', fuel', by omega, by rw [heq], hs, hv, hrest⟩
      · obtain ⟨v, mid', fuel', hfuel', heq, hv, hrest⟩ := henclosed (e := .object) hobject h
        exact ⟨s, v, mid', fuel', by omega, by rw [heq], hs, hv, hrest⟩
      · obtain ⟨_, mid', hskip, hrest⟩ := bind_ok.mp h
        obtain ⟨v, heq, hv⟩ := skipScalar_sound hskip
        exact ⟨s, v, mid', fuel, Nat.lt_succ_self fuel, by rw [heq], hs, .scalar hv, hrest⟩
    · obtain ⟨fuel, s, b, mid, rfl, rfl, hs, hb⟩ :=
        skipFrom_byte (.inr (List.cons_ne_nil e outer)) h
      rw [skipFrom_atItem hs hb] at h
      have hitem {mid : List UInt8} {s₁ : List UInt8}
          (h : skipItem fuel e outer mid = .ok ((), rest))
          (hsep : ∀ {s₂}, Space s₂ → Separator first (s₁ ++ s₂)) :
          ∃ t ms vs mid', ∃ fuel' < fuel + 1, s₁ ++ mid = t ++ mid' ∧ Items e.close first t ms ∧
            List.Forall₂ (Item e) ms vs ∧ (∀ v ∈ vs, Value v) ∧
            skipFrom fuel' .behind outer mid' = .ok ((), rest) := by
        obtain ⟨s₂, m, v, t, ms, vs, mid', fuel', hfuel', rfl, hs₂, hm, hv, ht, hms, hvs, hrest⟩ :=
          skipItem_sound (fun fuel' hle => ih fuel' (Nat.lt_succ_of_le hle)) h
        exact ⟨s₁ ++ s₂ ++ (m ++ t), m :: ms, v :: vs, mid', fuel', by omega, by simp,
          .item (hsep hs₂) ht, .cons hm hms, List.forall_mem_cons.mpr ⟨hv, hvs⟩, hrest⟩
      split_ifs at h with hclose hfirst hcomma
      · exact ⟨s ++ [b], [], [], mid, fuel, Nat.lt_succ_self fuel, by simp, .last hs hclose, .nil,
          List.forall_mem_nil _, h⟩
      · subst hfirst
        exact hitem h fun hs₂ => hs.append hs₂
      · obtain rfl := Bool.eq_false_iff.mpr hfirst
        rw [← List.singleton_append, ← List.append_assoc]
        exact hitem h fun {s₂} hs₂ => ⟨s, b, s₂, by simp, hs, hcomma, hs₂⟩

/-- What is skipped is a value. -/
theorem skip_sound {bs rest : List UInt8} (h : skip bs = .ok ((), rest)) :
    ∃ s v, bs = s ++ (v ++ rest) ∧ Space s ∧ Value v := by
  obtain ⟨s, v, mid, fuel, -, rfl, hs, hv, hend⟩ := (skipFrom_sound (2 * bs.length + 2)).value h
  cases fuel with
  | zero => nomatch hend
  | succ fuel =>
    obtain ⟨-, rfl⟩ := pure_ok.mp hend
    exact ⟨s, v, rfl, hs, hv⟩

end Sound

section Complete

theorem forall₂_mem {α β : Type} {R : α → β → Prop} {as : List α} {bs : List β}
    (h : List.Forall₂ R as bs) : ∀ a ∈ as, ∃ b ∈ bs, R a b := by
  induction h with
  | nil => exact List.forall_mem_nil _
  | @cons a b as bs hab _ ih =>
    refine List.forall_mem_cons.mpr ⟨⟨b, List.mem_cons_self, hab⟩, fun a' ha' => ?_⟩
    obtain ⟨b', hb', hab'⟩ := ih a' ha'
    exact ⟨b', List.mem_cons_of_mem b hb', hab'⟩

/-- A run that skips an item is so many steps further behind it. -/
def Skips (e : Enclosure) (m : List UInt8) : Prop := Begins m ∧ ∃ k < 2 * m.length,
  ∀ {fuel outer s rest}, Space s → Stops rest →
    skipItem (fuel + k) e outer (s ++ (m ++ rest)) = skipFrom fuel .behind (e :: outer) rest

/-- A run that skips a value is so many steps further behind it. -/
def ValueSkips (v : List UInt8) : Prop := ∃ k < 2 * v.length,
  ∀ {fuel outer s rest}, Space s → Stops rest →
    skipFrom (fuel + k) .value outer (s ++ (v ++ rest)) = skipFrom fuel .behind outer rest

variable {e : Enclosure}

theorem Item.skips {m v : List UInt8} (h : Item e m v) (hv : Value v) (hskips : ValueSkips v) :
    Skips e m := by
  refine ⟨h.begins hv, ?_⟩
  obtain ⟨k, hk, hrun⟩ := hskips
  cases e with
  | list =>
    obtain rfl : m = v := h
    exact ⟨k, hk, fun hs hrest => hrun hs hrest⟩
  | object =>
    obtain ⟨hq, hraw, hq', hs₁, hc, hs'⟩ := h
    refine ⟨k, ?_, fun {fuel outer s rest} hs hrest => ?_⟩
    · simp only [List.length_cons, List.length_append]
      omega
    · have hkey := skipKey_complete hs hq hraw hq' hs₁ hc
      change (do skipKey; skipFrom _ .value (.object :: outer) : Read Unit) _ = _
      simp only [List.cons_append, List.append_assoc]
      rw [bind_of_ok (hkey _), hrun hs' hrest]

theorem Starts.not_close {b : UInt8} (h : Starts b) : ¬ is e.close b = true := by
  cases e with
  | list => simp [Enclosure.close, h.list]
  | object => simp [Enclosure.close, h.object]

theorem isSpace_of_close {c : UInt8} (hc : is e.close c = true) : isSpace c = false :=
  isSpace_of_is hc (by cases e <;> decide)

/-- A step to an item, over what stands in front of it. -/
theorem skipFrom_item {first : Bool} {fuel : Nat} {s m : List UInt8}
    (hs : Separator first s) (hm : Begins m) : ∃ s', Space s' ∧ ∀ outer rest,
      skipFrom (fuel + 1) (.atItem first) (e :: outer) (s ++ (m ++ rest)) =
        skipItem fuel e outer (s' ++ (m ++ rest)) := by
  cases first with
  | true =>
    obtain ⟨b, m, rfl, hb⟩ := hm
    refine ⟨[], space_nil, fun outer rest => ?_⟩
    rw [List.cons_append, skipFrom_atItem hs hb.space, if_neg hb.not_close, if_pos rfl]
    rfl
  | false =>
    obtain ⟨s₁, c, s₂, rfl, hs₁, hc, hs₂⟩ := hs
    have hclose : ¬ is e.close c = true := by
      cases e <;> simp [Enclosure.close, is_ne hc]
    refine ⟨s₂, hs₂, fun outer rest => ?_⟩
    rw [List.append_assoc, List.cons_append, skipFrom_atItem hs₁ (isSpace_of_is hc (by decide)),
      if_neg hclose, if_neg Bool.false_ne_true, if_pos hc]

/-- What is left of the items is skipped. -/
theorem Items.skips {first : Bool} {t : List UInt8} {ms : List (List UInt8)}
    (h : Items e.close first t ms) (hms : ∀ m ∈ ms, Skips e m) :
    ∃ k ≤ 2 * t.length, ∀ {fuel outer rest},
      skipFrom (fuel + k) (.atItem first) (e :: outer) (t ++ rest) =
        skipFrom fuel .behind outer rest := by
  induction h with
  | @last first s c hs hc =>
    have hlength : 1 ≤ 2 * (s ++ [c]).length := by
      rw [List.length_append, List.length_singleton]
      omega
    refine ⟨1, hlength, fun {fuel outer rest} => ?_⟩
    rw [List.append_assoc, List.singleton_append, skipFrom_atItem hs (isSpace_of_close hc),
      if_pos hc]
  | @item first s m t ms hs h ih =>
    obtain ⟨⟨hbegins, k, hk, hrun⟩, hms⟩ := List.forall_mem_cons.mp hms
    obtain ⟨k', hk', hrun'⟩ := ih hms
    refine ⟨k' + k + 1, ?_, fun {fuel outer rest} => ?_⟩
    · simp only [List.length_append]
      omega
    · obtain ⟨s', hs', hstep⟩ := skipFrom_item (e := e) hs hbegins
      have hsum : fuel + (k' + k + 1) = fuel + k' + k + 1 := by omega
      simp only [hsum, List.append_assoc]
      rw [hstep, hrun hs' (h.stops e.close_mem rest)]
      exact hrun'

theorem Value.skips {v : List UInt8} (h : Value v) : ValueSkips v := by
  induction h with
  | @scalar v hv =>
    obtain ⟨b, t, rfl, hb⟩ := hv.head
    obtain ⟨hstarts, hlist, hobject⟩ := Scalar.starts hb
    refine ⟨1, by rw [List.length_cons]; omega, fun {fuel outer s rest} hs hrest => ?_⟩
    rw [List.cons_append, skipFrom_value hs hstarts.space, if_neg (by simp [hlist]),
      if_neg (by simp [hobject])]
    exact bind_of_ok (skipScalar_complete hv hrest) _
  | @enclosed e b t ms vs hb ht hms hvs ih =>
    have hitems : ∀ m ∈ ms, Skips e m := by
      intro m hm
      obtain ⟨v, hv, hitem⟩ := forall₂_mem hms m hm
      exact hitem.skips (hvs v hv) (ih v hv)
    obtain ⟨k, hk, hrun⟩ := ht.skips hitems
    refine ⟨k + 1, by rw [List.length_cons]; omega, fun {fuel outer s rest} hs hrest => ?_⟩
    have hspace : isSpace b = false := isSpace_of_is hb (by cases e <;> decide)
    rw [List.cons_append, ← Nat.add_assoc, skipFrom_value hs hspace]
    cases e with
    | list =>
      have hlist : is '[' b = true := hb
      rw [if_pos hlist]
      exact hrun
    | object =>
      have hobject : is '\x7b' b = true := hb
      rw [if_neg (by simp [is_ne hobject]), if_pos hobject]
      exact hrun

/-- A value is skipped. -/
theorem skip_complete {s v rest : List UInt8} (hs : Space s) (hv : Value v) (hrest : Stops rest) :
    skip (s ++ (v ++ rest)) = .ok ((), rest) := by
  obtain ⟨k, hk, hrun⟩ := hv.skips
  have hfuel : 2 * (s ++ (v ++ rest)).length + 2 =
      (2 * s.length + (2 * v.length - k) + 2 * rest.length + 2) + k := by
    simp only [List.length_append]
    omega
  change skipFrom (2 * (s ++ (v ++ rest)).length + 2) .value [] _ = _
  rw [hfuel, hrun hs hrest]
  rfl

end Complete

end Stagehand.Json
