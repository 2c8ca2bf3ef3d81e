import Stagehand.Proofs.JsonValues

/-!
# Values that are asked for

A reader of values reads exactly the values that mean something to it (`Reads`): what it takes is
white space and one of them, and it takes each of them whole, wherever it stands. Texts, numbers up
to a limit, and lists of what can be read are such values; a value of another kind never is.
-/

namespace Stagehand.Json

/-- The reader reads the values that mean something, as what they mean. -/
structure Reads {α : Type} (read : Read α) (M : List UInt8 → α → Prop) : Prop where
  begins : ∀ {v a}, M v a → Begins v
  sound : ∀ {bs a rest}, read bs = .ok (a, rest) → ∃ s v, bs = s ++ (v ++ rest) ∧ Space s ∧ M v a
  complete : ∀ {s v a rest}, Space s → M v a → Stops rest → read (s ++ (v ++ rest)) = .ok (a, rest)

theorem Reads.congr {α : Type} {read : Read α} {M M' : List UInt8 → α → Prop}
    (h : Reads read M) (heq : ∀ v a, M v a ↔ M' v a) : Reads read M' := by
  obtain rfl : M = M' := funext fun v => funext fun a => propext (heq v a)
  exact h

/-- A value means one thing only. -/
theorem Reads.unique {α : Type} {read : Read α} {M : List UInt8 → α → Prop} (h : Reads read M)
    {v : List UInt8} {a b : α} (ha : M v a) (hb : M v b) : a = b := by
  have hread {a : α} (ha : M v a) : read (v ++ []) = .ok (a, []) :=
    h.complete space_nil ha fun _ hb => nomatch hb
  exact congrArg Prod.fst (Except.ok.inj ((hread ha).symm.trans (hread hb)))

section WrongKinds

variable {α β : Type} {b : UInt8} {bs rest : List UInt8}

/-- A value of the wrong kind is never read. -/
theorem wrongKind_ok {a : α} : ¬ (wrongKind b : Read α) bs = .ok (a, rest) := by
  intro h
  unfold wrongKind at h
  split_ifs at h
  · obtain ⟨_, _, -, h₁⟩ := bind_ok.mp h
    exact throw_ok h₁
  · obtain ⟨_, _, -, h₁⟩ := bind_ok.mp h
    obtain ⟨_, _, -, h₂⟩ := bind_ok.mp h₁
    exact throw_ok h₂
  · exact throw_ok h
  · obtain ⟨_, _, -, h₁⟩ := bind_ok.mp h
    exact throw_ok h₁

/-- A reader for values that are of the right kind. -/
theorem wrongKind_else {p : Prop} [Decidable p] {x : Read α} {a : α} :
    (if p then x else wrongKind b) bs = .ok (a, rest) ↔ p ∧ x bs = .ok (a, rest) := by
  by_cases hp : p
  · rw [if_pos hp]
    exact (and_iff_right hp).symm
  · rw [if_neg hp]
    exact iff_of_false wrongKind_ok fun h => hp h.1

theorem wrongKind_guard {p : Prop} [Decidable p] {f : α → Read β} {x : Read β} {a : β} :
    (if p then wrongKind b >>= f else x : Read β) bs = .ok (a, rest) ↔
      ¬ p ∧ x bs = .ok (a, rest) := by
  by_cases hp : p
  · rw [if_pos hp]
    refine iff_of_false (fun h => ?_) fun h => h.1 hp
    obtain ⟨_, _, hwrong, -⟩ := bind_ok.mp h
    exact wrongKind_ok hwrong
  · rw [if_neg hp]
    exact (and_iff_right hp).symm

end WrongKinds

/-! ## Texts -/

theorem string_reads : Reads string Text where
  begins {v s} := by
    rintro ⟨raw, ⟨q, q', rfl, hq, -⟩, -⟩
    exact ⟨q, _, rfl, starts_of_is hq (by decide)⟩
  sound {bs a rest} h := by
    obtain ⟨q, mid, hpeek, h₁⟩ := bind_ok.mp h
    obtain ⟨hq, h₂⟩ := wrongKind_else.mp h₁
    obtain ⟨s, t, rfl, hs, -, rfl⟩ := peekValue_ok.mp hpeek
    have hbody : stringBody t = .ok (a, rest) := h₂
    obtain ⟨raw, q', rfl, hq', hspells⟩ := stringBody_sound hbody
    exact ⟨s, q :: (raw ++ [q']), by simp, hs, raw, ⟨q, q', rfl, hq, hq'⟩, hspells⟩
  complete {s v a rest} hs h _ := by
    obtain ⟨raw, ⟨q, q', rfl, hq, hq'⟩, hspells⟩ := h
    have hbody := stringBody_complete hq' hspells rest
    rw [List.cons_append, List.append_assoc, List.singleton_append, string,
      bind_of_ok (peekValue_complete hs (isSpace_of_is hq (by decide))), if_pos hq]
    exact hbody

/-! ## Numbers -/

/-- A number up to a limit. -/
structure Count (limit : Nat) (v : List UInt8) (n : Nat) : Prop where
  whole : WholePart v
  value : digitsValue v = n
  bound : n ≤ limit

theorem number_ok {bs rest : List UInt8} {n : Numeral} : number bs = .ok (n, rest) ↔
    numeral true bs = .ok (n, rest) ∧ n.isTooLarge = false := by
  constructor
  · intro h
    obtain ⟨m, mid, hread, h₁⟩ := bind_ok.mp h
    obtain ⟨hsmall, h₂⟩ := guard_bind_ok.mp h₁
    obtain ⟨rfl, rfl⟩ := pure_ok.mp h₂
    exact ⟨hread, by simpa using hsmall⟩
  · rintro ⟨hread, hsmall⟩
    refine bind_ok.mpr ⟨n, rest, hread, ?_⟩
    exact guard_bind_ok.mpr ⟨by simp [hsmall], rfl⟩

/-- A digit behind a number. -/
def digitStep (n : Nat) (d : UInt8) : Nat := n * 10 + (d.toNat - 48)

theorem le_foldl_digitStep : ∀ (ds : List UInt8) (n : Nat), n ≤ ds.foldl digitStep n
  | [], n => le_rfl
  | d :: ds, n =>
    le_trans (Nat.le_add_right_of_le (Nat.le_mul_of_pos_right n (by decide)))
      (le_foldl_digitStep ds (digitStep n d))

/-- Digits whose value fits into 64 bits are all significant. -/
theorem significand_eq : ∀ {ds : List UInt8} {n : Nat}, ds.foldl digitStep n < UInt64.size →
    significand ds n = (ds.foldl digitStep n, [])
  | [], _, _ => rfl
  | d :: ds, n, h => by
    have hnext : digitsValue [d] + 10 * n = digitStep n d := by
      simp only [digitsValue, digitStep, List.foldl_cons, List.foldl_nil]
      omega
    rw [List.foldl_cons] at h
    rw [significand, hnext, if_pos (lt_of_le_of_lt (le_foldl_digitStep ds _) h), significand_eq h,
      List.foldl_cons]

theorem not_isTooLarge {ds : List UInt8} (h : digitsValue ds < UInt64.size) :
    (Numeral.mk false ds none none).isTooLarge = false := by
  have hall : significand ds 0 = (digitsValue ds, []) := significand_eq h
  simp [Numeral.isTooLarge, hall, significand]

theorem natural?_sound {m : Numeral} {v : List UInt8} {k : Nat} (hv : Number m v)
    (h : m.natural? = some k) : v = m.whole ∧ WholePart m.whole ∧ digitsValue m.whole = k := by
  obtain ⟨hs, hw, hf, he⟩ := hv
  simp only [Numeral.natural?] at h
  split_ifs at h with hparts
  simp only [Bool.or_eq_true, not_or, Bool.not_eq_true, Option.isSome_eq_false_iff,
    Option.isNone_iff_eq_none] at hparts
  obtain ⟨⟨rfl, rfl⟩, rfl⟩ := hparts
  cases hs
  cases hf
  cases he
  exact ⟨by simp, hw, Option.some.inj h⟩

theorem WholePart.number {v : List UInt8} (hv : WholePart v) :
    Number ⟨false, v, none, none⟩ v := by
  have hnumber : Number ⟨(none : Option Unit).isSome, v, none, none⟩ ([] ++ (v ++ ([] ++ []))) :=
    .intro .none hv .none .none
  simpa using hnumber

theorem natural_reads {limit : Nat} (hlimit : limit < UInt64.size) :
    Reads (natural limit) (Count limit) where
  begins {v n} h := by
    obtain ⟨d, t, heq, hd⟩ := h.whole.digits_of.head []
    rw [List.append_nil] at heq
    exact ⟨d, t, heq, starts_of_isDigit hd⟩
  sound {bs n rest} h := by
    obtain ⟨b, mid, hpeek, h₁⟩ := bind_ok.mp h
    obtain ⟨hb, h₂⟩ := wrongKind_else.mp h₁
    obtain ⟨m, mid', hnumber, h₃⟩ := bind_ok.mp h₂
    obtain ⟨s, t, rfl, hs, -, rfl⟩ := peekValue_ok.mp hpeek
    obtain ⟨v, heq, hv⟩ := numeral_sound (number_ok.mp hnumber).1
    cases hm : m.natural? with
    | none =>
      rw [hm] at h₃
      exact absurd h₃ throw_ok
    | some k =>
      rw [hm] at h₃
      change (if k ≤ limit then pure k else throw Fault.data : Read Nat) mid' = _ at h₃
      split_ifs at h₃ with hbound
      · obtain ⟨rfl, rfl⟩ := pure_ok.mp h₃
        obtain ⟨rfl, hwhole, hvalue⟩ := natural?_sound hv hm
        exact ⟨s, m.whole, by rw [heq], hs, hwhole, hvalue, hbound⟩
      · exact absurd h₃ throw_ok
  complete {s v n rest} hs h hrest := by
    obtain ⟨hwhole, rfl, hbound⟩ := h
    obtain ⟨d, t, heq, hd⟩ := hwhole.digits_of.head rest
    have hnumber : number (v ++ rest) = .ok (⟨false, v, none, none⟩, rest) :=
      number_ok.mpr ⟨numeral_complete (hwhole.number) hrest,
        not_isTooLarge (lt_of_le_of_lt hbound hlimit)⟩
    rw [heq] at hnumber ⊢
    have hb : (is '-' d || isDigit d) = true := by simp [hd]
    rw [natural, bind_of_ok (peekValue_complete hs (starts_of_isDigit hd).space), if_pos hb,
      bind_of_ok hnumber]
    change (if digitsValue v ≤ limit then pure (digitsValue v) else throw Fault.data : Read Nat)
      rest = _
    rw [if_pos hbound]
    rfl

/-! ## Lists -/

/-- A list of values that mean something. -/
inductive Listed {α : Type} (M : List UInt8 → α → Prop) : List UInt8 → List α → Prop
  | intro {b : UInt8} {t : List UInt8} {vs : List (List UInt8)} {as : List α}
      (hb : is '[' b = true) (ht : Items ']' true t vs) (hvs : List.Forall₂ M vs as) :
      Listed M (b :: t) as

section Lists

variable {first more : Bool} {bs rest s m : List UInt8} {c : UInt8}

theorem hasItem_last (hs : Space s) (hc : is ']' c = true) :
    hasItem first (s ++ c :: rest) = .ok (false, c :: rest) := by
  rw [hasItem, bind_of_ok (peekValue_complete hs (isSpace_of_is hc (by decide))), if_pos hc]
  rfl

theorem hasItem_item (hs : Separator first s) (hm : Begins m) :
    hasItem first (s ++ (m ++ rest)) = .ok (true, m ++ rest) := by
  obtain ⟨b, m, rfl, hb⟩ := hm
  cases first with
  | true =>
    rw [List.cons_append, hasItem, bind_of_ok (peekValue_complete hs hb.space),
      if_neg (by simp [hb.list])]
    rfl
  | false =>
    obtain ⟨s₁, c, s₂, rfl, hs₁, hc, hs₂⟩ := hs
    rw [List.append_assoc, List.cons_append, List.cons_append, hasItem,
      bind_of_ok (peekValue_complete hs₁ (isSpace_of_is hc (by decide))),
      if_neg (by simp [is_ne hc])]
    refine guard_bind_ok.mpr ⟨by simp [hc], bind_ok.mpr ⟨(), _, drop_eq _ _, ?_⟩⟩
    rw [bind_of_ok (peekValue_complete hs₂ hb.space)]
    exact guard_bind_ok.mpr ⟨by simp [hb.list], rfl⟩

/-- In front of an item its separator has been taken, and otherwise the list is at its end. -/
theorem hasItem_sound (h : hasItem first bs = .ok (more, rest)) :
    if more then ∃ s, bs = s ++ rest ∧ Separator first s
    else ∃ s c t, bs = s ++ rest ∧ rest = c :: t ∧ Space s ∧ is ']' c = true := by
  obtain ⟨b, mid, hpeek, h₁⟩ := bind_ok.mp h
  obtain ⟨s, t, rfl, hs, -, rfl⟩ := peekValue_ok.mp hpeek
  split at h₁
  · rename_i hclose
    obtain ⟨rfl, rfl⟩ := pure_ok.mp h₁
    exact ⟨s, b, t, rfl, rfl, hs, hclose⟩
  cases first with
  | true =>
    obtain ⟨rfl, rfl⟩ := pure_ok.mp h₁
    exact ⟨s, rfl, hs⟩
  | false =>
    obtain ⟨hcomma, h₂⟩ := guard_bind_ok.mp h₁
    obtain ⟨_, _, hdrop, h₃⟩ := bind_ok.mp h₂
    cases hdrop
    obtain ⟨b', mid', hpeek', h₄⟩ := bind_ok.mp h₃
    obtain ⟨-, h₅⟩ := guard_bind_ok.mp h₄
    obtain ⟨rfl, rfl⟩ := pure_ok.mp h₅
    obtain ⟨s', t', rfl, hs', -, rfl⟩ := peekValue_ok.mp hpeek'
    exact ⟨s ++ b :: s', by simp, s, b, s', rfl, hs, by simpa using hcomma, hs'⟩

end Lists

section Items

variable {α : Type} {item : Read α} {M : List UInt8 → α → Prop}

theorem items_sound (hitem : Reads item M) : ∀ {fuel : Nat} {first : Bool} {bs rest : List UInt8}
    {as : List α}, items item fuel first bs = .ok (as, rest) → ∃ t vs c rest',
      rest = c :: rest' ∧ bs = t ++ rest' ∧ Items ']' first t vs ∧ List.Forall₂ M vs as
  | fuel + 1, first, bs, rest, as, h => by
    obtain ⟨more, mid, hmore, h₁⟩ := bind_ok.mp h
    have hturn := hasItem_sound hmore
    cases more with
    | false =>
      obtain ⟨s, c, t, rfl, rfl, hs, hc⟩ := hturn
      obtain ⟨rfl, rfl⟩ := pure_ok.mp h₁
      exact ⟨s ++ [c], [], c, t, rfl, by simp, .last hs hc, .nil⟩
    | true =>
      obtain ⟨s, rfl, hs⟩ := hturn
      obtain ⟨a, mid₁, ha, h₂⟩ := bind_ok.mp h₁
      obtain ⟨as, mid₂, has, h₃⟩ := bind_ok.mp h₂
      obtain ⟨rfl, rfl⟩ := pure_ok.mp h₃
      obtain ⟨t, vs, c, rest', rfl, rfl, ht, hvs⟩ := items_sound hitem has
      obtain ⟨s', v, rfl, hs', hv⟩ := hitem.sound ha
      exact ⟨s ++ s' ++ (v ++ t), v :: vs, c, rest', rfl, by simp,
        .item (Separator.append hs hs') ht, .cons hv hvs⟩

theorem items_complete (hitem : Reads item M) {first : Bool} {t : List UInt8}
    {vs : List (List UInt8)} (h : Items ']' first t vs) :
    ∀ {as : List α}, List.Forall₂ M vs as → ∀ {fuel : Nat}, vs.length < fuel → ∀ rest, ∃ c,
      items item fuel first (t ++ rest) = .ok (as, c :: rest) := by
  induction h with
  | @last first s c hs hc =>
    rintro as hvs (_ | fuel) hfuel rest
    · nomatch hfuel
    cases hvs
    refine ⟨c, ?_⟩
    rw [List.append_assoc, List.singleton_append, items, bind_of_ok (hasItem_last hs hc)]
    rfl
  | @item first s v t vs hs ht ih =>
    rintro as hvs (_ | fuel) hfuel rest
    · nomatch hfuel
    cases hvs with
    | @cons _ a _ as hv hvs =>
      obtain ⟨c, hrest⟩ := ih hvs (Nat.lt_of_succ_lt_succ hfuel) rest
      have hread := hitem.complete space_nil hv (ht.stops (by decide) rest)
      refine ⟨c, ?_⟩
      simp only [List.append_assoc]
      rw [items, bind_of_ok (hasItem_item hs (hitem.begins hv)), if_pos rfl]
      refine bind_ok.mpr ⟨a, _, hread, bind_ok.mpr ⟨as, _, hrest, rfl⟩⟩

theorem list_reads (hitem : Reads item M) : Reads (list item) (Listed M) where
  begins {v as} h := by
    obtain ⟨hb, -, -⟩ := h
    exact ⟨_, _, rfl, starts_of_is hb (by decide)⟩
  sound {bs as rest} h := by
    obtain ⟨b, mid, hpeek, h₁⟩ := bind_ok.mp h
    obtain ⟨s, t, rfl, hs, -, rfl⟩ := peekValue_ok.mp hpeek
    obtain ⟨hb, h₂⟩ := wrongKind_guard.mp h₁
    obtain ⟨_, _, hdrop, h₃⟩ := bind_ok.mp h₂
    cases hdrop
    obtain ⟨_, _, hget, h₄⟩ := bind_ok.mp h₃
    cases hget
    obtain ⟨found, mid₁, hitems, h₅⟩ := bind_ok.mp h₄
    obtain ⟨_, mid₂, hdrop, h₆⟩ := bind_ok.mp h₅
    obtain ⟨rfl, rfl⟩ := pure_ok.mp h₆
    obtain ⟨t, vs, c, rest', rfl, rfl, ht, hvs⟩ := items_sound hitem hitems
    cases hdrop
    exact ⟨s, b :: t, rfl, hs, .intro (by simpa using hb) ht hvs⟩
  complete {s v as rest} hs h _ := by
    obtain ⟨hb, ht, hvs⟩ := h
    rename_i b t vs
    have hlength : vs.length < (t ++ rest).length + 1 := by
      rw [List.length_append]
      have hlength := ht.length_le fun v hv => (forall₂_mem hvs v hv).elim fun a ha =>
        hitem.begins ha.2
      omega
    obtain ⟨c, hitems⟩ := items_complete hitem ht hvs hlength rest
    rw [List.cons_append, list, bind_of_ok (peekValue_complete hs (isSpace_of_is hb (by decide)))]
    refine wrongKind_guard.mpr ⟨by simp [hb], ?_⟩
    refine bind_ok.mpr ⟨(), _, drop_eq _ _, bind_ok.mpr ⟨_, _, rfl, ?_⟩⟩
    exact bind_ok.mpr ⟨as, _, hitems, rfl⟩

end Items

/-! ## Whole texts -/

theorem peek_none {bs rest : List UInt8} {o : Option UInt8} (h : peek bs = .ok (o, rest)) :
    o.isSome = false ↔ Space bs := by
  change Except.ok ((bs.dropWhile isSpace).head?, bs.dropWhile isSpace) = _ at h
  cases h
  rw [Option.isSome_eq_false_iff, Option.isNone_iff_eq_none, List.head?_eq_none_iff,
    List.dropWhile_eq_nil_iff]
  rfl

theorem run_ok {α : Type} {x : Read α} {bs : List UInt8} {a : α} :
    (do return (← x.run bs).1 : Except Fault α) = .ok a ↔ ∃ rest, x bs = .ok (a, rest) := by
  change (x bs >>= fun p => pure p.1) = _ ↔ _
  cases x bs with
  | error e => exact iff_of_false nofun nofun
  | ok p =>
    constructor
    · intro h
      cases h
      exact ⟨p.2, rfl⟩
    · rintro ⟨rest, h⟩
      cases h
      rfl

/-- A whole text is a value with white space around it. -/
theorem whole_ok {α : Type} {value : Read α} {M : List UInt8 → α → Prop} (hvalue : Reads value M)
    {bytes : ByteArray} {a : α} : whole value bytes = .ok a ↔
      ∃ s v s', bytes.data.toList = s ++ (v ++ s') ∧ Space s ∧ Space s' ∧ M v a := by
  have hrun : whole value bytes = .ok a ↔ ∃ rest, (do
      let a ← value
      if (← peek).isSome then throw .notJson
      return a : Read α) bytes.data.toList = .ok (a, rest) := run_ok
  rw [hrun]
  constructor
  · rintro ⟨rest, h⟩
    obtain ⟨a, mid, ha, h₁⟩ := bind_ok.mp h
    obtain ⟨o, mid', hpeek, h₂⟩ := bind_ok.mp h₁
    obtain ⟨hnone, h₃⟩ := guard_bind_ok.mp h₂
    obtain ⟨rfl, rfl⟩ := pure_ok.mp h₃
    obtain ⟨s, v, heq, hs, hv⟩ := hvalue.sound ha
    exact ⟨s, v, mid, heq, hs, (peek_none hpeek).mp (by simpa using hnone), hv⟩
  · rintro ⟨s, v, s', heq, hs, hs', hv⟩
    have hstops : Stops s' := by
      have happend : Stops (s' ++ []) := stops_append hs' fun _ hb => nomatch hb
      rwa [List.append_nil] at happend
    refine ⟨s'.dropWhile isSpace, bind_ok.mpr ⟨a, s', ?_, ?_⟩⟩
    · rw [heq]
      exact hvalue.complete hs hv hstops
    · refine bind_ok.mpr ⟨(s'.dropWhile isSpace).head?, s'.dropWhile isSpace, rfl, ?_⟩
      have hpeek : peek s' = .ok ((s'.dropWhile isSpace).head?, s'.dropWhile isSpace) := rfl
      exact guard_bind_ok.mpr ⟨by simp [(peek_none hpeek).mpr hs'], rfl⟩

end Stagehand.Json
