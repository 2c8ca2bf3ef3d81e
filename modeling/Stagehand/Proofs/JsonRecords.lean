import Mathlib.Data.List.Nodup
import Stagehand.Proofs.JsonReads

/-!
# Records

A record has slots, each with a name (`Slot`), and is written as an object or as a list. Either way
it comes down to entries, of a name and a value each (`Entries`), which are taken up one after the
other (`Assigned`): a name of a slot once, as the slot is read, and any other name with whatever
value. Slots do not touch each other, so that what a slot is in the end is up to the entry of its
name alone (`Assigned.slot`): neither the order of the entries matters, nor which others there are.
-/

namespace Stagehand.Json

/-! ## Entries -/

/-- A key and its value, as an entry. -/
def Entry (m : List UInt8) (e : String × List UInt8) : Prop :=
  Member (fun raw => Spells raw (utf8Bytes e.1)) m e.2

/-- The entries of a record: those of an object, or the items of a list under their names. -/
inductive Entries (names : List String) : List UInt8 → List (String × List UInt8) → Prop
  | object {b : UInt8} {t : List UInt8} {ms : List (List UInt8)} {es : List (String × List UInt8)}
      (hb : is '\x7b' b = true) (ht : Items '\x7d' true t ms) (hms : List.Forall₂ Entry ms es) :
      Entries names (b :: t) es
  | list {b : UInt8} {t : List UInt8} {vs : List (List UInt8)} (hb : is '[' b = true)
      (ht : Items ']' true t vs) (hvs : vs.length ≤ names.length) :
      Entries names (b :: t) (names.zip vs)

/-- A slot of a record: its name, how it is read and what is read for what, and how it is taken from
and put into the record. -/
structure Slot (σ : Type) where
  name : String
  α : Type
  read : Read α
  means : List UInt8 → α → Prop
  get : σ → α
  set : σ → α → σ

/-- The field of a slot. -/
def Slot.field {σ : Type} (l : Slot σ) : FieldReader σ :=
  (l.name, fun s => do return l.set s (← l.read))

/-- The slots are those of a record: each is read as it means, they do not touch each other, and
there is nothing to the record but them. -/
structure SlotLaw {σ : Type} (slots : List (Slot σ)) : Prop where
  names : (slots.map Slot.name).Nodup
  reads : ∀ l ∈ slots, Reads l.read l.means
  own : ∀ l ∈ slots, ∀ s a, l.get (l.set s a) = a
  apart : ∀ l ∈ slots, ∀ l' ∈ slots, l.name ≠ l'.name → ∀ s a, l'.get (l.set s a) = l'.get s
  ext : ∀ s s', (∀ l ∈ slots, l.get s = l.get s') → s = s'

section Records

variable {σ : Type}

/-- The entries are taken up from the first on, where the names in `seen` were seen already. -/
inductive Assigned (slots : List (Slot σ)) :
    List String → List (String × List UInt8) → σ → σ → Prop
  | nil {seen : List String} {s : σ} : Assigned slots seen [] s s
  | known {seen : List String} {v : List UInt8} {l : Slot σ} {a : l.α}
      {es : List (String × List UInt8)} {s s' : σ} (hl : l ∈ slots) (hnew : l.name ∉ seen)
      (hv : l.means v a) (h : Assigned slots (l.name :: seen) es (l.set s a) s') :
      Assigned slots seen ((l.name, v) :: es) s s'
  | other {seen : List String} {name : String} {v : List UInt8} {es : List (String × List UInt8)}
      {s s' : σ} (hname : name ∉ slots.map Slot.name) (hv : Value v)
      (h : Assigned slots seen es s s') : Assigned slots seen ((name, v) :: es) s s'

variable {slots : List (Slot σ)}

/-- A field is known by the name of its slot. -/
theorem find_field (slots : List (Slot σ)) (name : String) :
    ((slots.map Slot.field).find? (·.1 == name) = none ∧ name ∉ slots.map Slot.name) ∨
      ∃ l ∈ slots, l.name = name ∧ (slots.map Slot.field).find? (·.1 == name) = some l.field := by
  induction slots with
  | nil => exact .inl ⟨rfl, List.not_mem_nil⟩
  | cons l slots ih =>
    by_cases hn : l.name = name
    · exact .inr ⟨l, List.mem_cons_self, hn, by simp [Slot.field, hn]⟩
    · have hfind : ((l :: slots).map Slot.field).find? (·.1 == name) =
          (slots.map Slot.field).find? (·.1 == name) := by simp [Slot.field, hn]
      rw [hfind]
      refine ih.imp (fun ⟨hnone, hname⟩ => ⟨hnone, ?_⟩) fun ⟨l', hl', h⟩ =>
        ⟨l', List.mem_cons_of_mem l hl', h⟩
      exact List.not_mem_cons_of_ne_of_not_mem (Ne.symm hn) hname

/-- A slot is read with its value put into it. -/
theorem field_sound {l : Slot σ} (hl : Reads l.read l.means) {s s' : σ} {bs rest : List UInt8}
    (h : l.field.2 s bs = .ok (s', rest)) :
    ∃ sp v a, bs = sp ++ (v ++ rest) ∧ Space sp ∧ l.means v a ∧ s' = l.set s a := by
  obtain ⟨a, mid, ha, hpure⟩ := bind_ok.mp h
  obtain ⟨rfl, rfl⟩ := pure_ok.mp hpure
  obtain ⟨sp, v, rfl, hsp, hv⟩ := hl.sound ha
  exact ⟨sp, v, a, rfl, hsp, hv, rfl⟩

theorem field_complete {l : Slot σ} (hl : Reads l.read l.means) {sp v rest : List UInt8} {a : l.α}
    (hsp : Space sp) (hv : l.means v a) (hrest : Stops rest) (s : σ) :
    l.field.2 s (sp ++ (v ++ rest)) = .ok (l.set s a, rest) :=
  bind_ok.mpr ⟨a, rest, hl.complete hsp hv hrest, rfl⟩

/-! ## Objects -/

section Keys

variable {first more : Bool} {bs rest s : List UInt8} {c q : UInt8}

theorem hasKey_last (hs : Space s) (hc : is '\x7d' c = true) :
    hasKey first (s ++ c :: rest) = .ok (false, c :: rest) := by
  rw [hasKey, bind_of_ok (peekValue_complete hs (isSpace_of_is hc (by decide))), if_pos hc]
  rfl

theorem hasKey_key (hs : Separator first s) (hq : is '\x22' q = true) :
    hasKey first (s ++ q :: rest) = .ok (true, q :: rest) := by
  have hpeek {s : List UInt8} (hs : Space s) : peekValue (s ++ q :: rest) = .ok (q, q :: rest) :=
    peekValue_complete hs (isSpace_of_is hq (by decide))
  cases first with
  | true =>
    rw [hasKey, bind_of_ok (hpeek hs), if_neg (by simp [is_ne hq])]
    refine bind_ok.mpr ⟨q, _, hpeek space_nil, ?_⟩
    exact guard_bind_ok.mpr ⟨by simp [hq], rfl⟩
  | false =>
    obtain ⟨s₁, c, s₂, rfl, hs₁, hc, hs₂⟩ := hs
    rw [List.append_assoc, List.cons_append, hasKey,
      bind_of_ok (peekValue_complete hs₁ (isSpace_of_is hc (by decide))),
      if_neg (by simp [is_ne hc])]
    refine guard_bind_ok.mpr ⟨by simp [hc], bind_ok.mpr ⟨(), _, drop_eq _ _, ?_⟩⟩
    refine bind_ok.mpr ⟨q, _, hpeek hs₂, ?_⟩
    exact guard_bind_ok.mpr ⟨by simp [hq], rfl⟩

/-- In front of a key its separator has been taken, and otherwise the object is at its end. -/
theorem hasKey_sound (h : hasKey first bs = .ok (more, rest)) :
    if more then ∃ s q t, bs = s ++ rest ∧ rest = q :: t ∧ Separator first s ∧ is '\x22' q = true
    else ∃ s c t, bs = s ++ rest ∧ rest = c :: t ∧ Space s ∧ is '\x7d' c = true := by
  obtain ⟨b, mid, hpeek, h₁⟩ := bind_ok.mp h
  obtain ⟨s, t, rfl, hs, -, rfl⟩ := peekValue_ok.mp hpeek
  split at h₁
  · rename_i hclose
    obtain ⟨rfl, rfl⟩ := pure_ok.mp h₁
    exact ⟨s, b, t, rfl, rfl, hs, hclose⟩
  have hkey {mid : List UInt8} (h : (do
      if !is '\x22' (← peekValue) then throw .notJson
      return true : Read Bool) mid = .ok (more, rest)) : more = true ∧ ∃ s' q t', mid = s' ++ rest ∧
        rest = q :: t' ∧ Space s' ∧ is '\x22' q = true := by
    obtain ⟨q, mid', hpeek, h₁⟩ := bind_ok.mp h
    obtain ⟨hq, h₂⟩ := guard_bind_ok.mp h₁
    obtain ⟨rfl, rfl⟩ := pure_ok.mp h₂
    obtain ⟨s', t', rfl, hs', -, rfl⟩ := peekValue_ok.mp hpeek
    exact ⟨rfl, s', q, t', rfl, rfl, hs', by simpa using hq⟩
  cases first with
  | true =>
    obtain ⟨rfl, s', q, t', heq, rfl, hs', hq⟩ := hkey h₁
    exact ⟨s ++ s', q, t', by simp [heq], rfl, hs.append hs', hq⟩
  | false =>
    obtain ⟨hcomma, h₂⟩ := guard_bind_ok.mp h₁
    obtain ⟨_, _, hdrop, h₃⟩ := bind_ok.mp h₂
    cases hdrop
    obtain ⟨rfl, s', q, t', heq, rfl, hs', hq⟩ := hkey h₃
    have hmid : t = s' ++ q :: t' := heq
    have hsep : Separator false (s ++ b :: s') := ⟨s, b, s', rfl, hs, by simpa using hcomma, hs'⟩
    exact ⟨s ++ b :: s', q, t', by simp [hmid], rfl, hsep, hq⟩

end Keys

/-- What follows a key and its colon. -/
theorem colon_ok {x : Read σ} {bs rest : List UInt8} {a : σ} : (do
    if !is ':' (← peekValue) then throw .notJson
    drop
    x : Read σ) bs = .ok (a, rest) ↔
      ∃ s c mid, bs = s ++ c :: mid ∧ Space s ∧ is ':' c = true ∧ x mid = .ok (a, rest) := by
  constructor
  · intro h
    obtain ⟨c, mid, hpeek, h₁⟩ := bind_ok.mp h
    obtain ⟨hc, h₂⟩ := guard_bind_ok.mp h₁
    obtain ⟨s, t, rfl, hs, -, rfl⟩ := peekValue_ok.mp hpeek
    exact ⟨s, c, t, rfl, hs, by simpa using hc, h₂⟩
  · rintro ⟨s, c, mid, rfl, hs, hc, hx⟩
    rw [bind_of_ok (peekValue_complete hs (isSpace_of_is hc (by decide)))]
    exact guard_bind_ok.mpr ⟨by simp [hc], hx⟩

theorem objectFields_sound (hslots : SlotLaw slots) :
    ∀ {fuel : Nat} {first : Bool} {seen : List String} {s s' : σ} {bs rest : List UInt8},
      objectFields (slots.map Slot.field) fuel first seen s bs = .ok (s', rest) →
        ∃ t ms es c rest', rest = c :: rest' ∧ bs = t ++ rest' ∧ Items '\x7d' first t ms ∧
          List.Forall₂ Entry ms es ∧ Assigned slots seen es s s'
  | fuel + 1, first, seen, s, s', bs, rest, h => by
    obtain ⟨more, mid, hmore, h₁⟩ := bind_ok.mp h
    have hturn := hasKey_sound hmore
    cases more with
    | false =>
      obtain ⟨sp, c, t, rfl, rfl, hsp, hc⟩ := hturn
      obtain ⟨rfl, rfl⟩ := pure_ok.mp h₁
      exact ⟨sp ++ [c], [], [], c, t, rfl, by simp, .last hsp hc, .nil, .nil⟩
    | true =>
      obtain ⟨sp, q, t, rfl, rfl, hsp, hq⟩ := hturn
      obtain ⟨_, _, hdrop, h₂⟩ := bind_ok.mp h₁
      cases hdrop
      obtain ⟨key, mid₁, hkey, h₃⟩ := bind_ok.mp h₂
      obtain ⟨raw, q', rfl, hq', hspells⟩ := stringBody_sound hkey
      obtain ⟨hfind, hname⟩ | ⟨l, hl, rfl, hfind⟩ := find_field slots key
      · rw [hfind] at h₃
        obtain ⟨s₁, c, mid₂, rfl, hs₁, hc, h₄⟩ := colon_ok.mp h₃
        obtain ⟨_, mid₃, hskip, h₅⟩ := bind_ok.mp h₄
        obtain ⟨t, ms, es, c', rest', rfl, rfl, ht, hms, hes⟩ := objectFields_sound hslots h₅
        obtain ⟨s₂, v, rfl, hs₂, hv⟩ := skip_sound hskip
        exact ⟨sp ++ (q :: (raw ++ q' :: (s₁ ++ c :: (s₂ ++ v))) ++ t), _ :: ms, (key, v) :: es, c',
          rest', rfl, by simp, .item hsp ht, .cons (.intro hq hspells hq' hs₁ hc hs₂) hms,
          .other hname hv hes⟩
      · rw [hfind] at h₃
        obtain ⟨hnew, h₄⟩ := guard_bind_ok.mp h₃
        obtain ⟨s₁, c, mid₂, rfl, hs₁, hc, h₅⟩ := colon_ok.mp h₄
        obtain ⟨s'', mid₃, hvalue, h₆⟩ := bind_ok.mp h₅
        obtain ⟨t, ms, es, c', rest', rfl, rfl, ht, hms, hes⟩ := objectFields_sound hslots h₆
        obtain ⟨s₂, v, a, rfl, hs₂, ha, rfl⟩ := field_sound (hslots.reads l hl) hvalue
        exact ⟨sp ++ (q :: (raw ++ q' :: (s₁ ++ c :: (s₂ ++ v))) ++ t), _ :: ms, (l.name, v) :: es,
          c', rest', rfl, by simp, .item hsp ht, .cons (.intro hq hspells hq' hs₁ hc hs₂) hms,
          .known hl (by simpa using hnew) ha hes⟩

theorem objectFields_complete (hslots : SlotLaw slots) {first : Bool} {t : List UInt8}
    {ms : List (List UInt8)} (h : Items '\x7d' first t ms) :
    ∀ {seen : List String} {es : List (String × List UInt8)} {s s' : σ}, List.Forall₂ Entry ms es →
      Assigned slots seen es s s' → ∀ {fuel : Nat}, ms.length < fuel → ∀ rest,
      ∃ c, objectFields (slots.map Slot.field) fuel first seen s (t ++ rest) =
        .ok (s', c :: rest) := by
  induction h with
  | @last first sp c hsp hc =>
    rintro seen es s s' hes hassigned (_ | fuel) hfuel rest
    · nomatch hfuel
    cases hes
    cases hassigned
    refine ⟨c, ?_⟩
    rw [List.append_assoc, List.singleton_append, objectFields, bind_of_ok (hasKey_last hsp hc)]
    rfl
  | @item first sp m t ms hsp ht ih =>
    rintro seen es s s' hes hassigned (_ | fuel) hfuel rest
    · nomatch hfuel
    have hfuel' : ms.length < fuel := Nat.lt_of_succ_lt_succ hfuel
    have hstops := ht.stops (by decide) rest
    cases hes with
    | @cons _ e _ es hm hms =>
      obtain ⟨key, v⟩ := e
      obtain ⟨hq, hspells, hq', hs₁, hc, hs₂⟩ := hm
      rename_i q q' c raw s₁ s₂
      have hbody := stringBody_complete hq' hspells (s₁ ++ c :: (s₂ ++ (v ++ (t ++ rest))))
      simp only [List.append_assoc, List.cons_append]
      cases hassigned with
      | @known _ _ l a _ _ _ hl hnew ha hassigned =>
        obtain ⟨-, hname⟩ | ⟨l', hl', heq, hfind⟩ := find_field slots l.name
        · exact absurd (List.mem_map_of_mem hl) hname
        obtain rfl : l' = l := List.inj_on_of_nodup_map hslots.names hl' hl heq
        obtain ⟨c', hrest⟩ := ih hms hassigned hfuel' rest
        refine ⟨c', bind_ok.mpr ⟨true, _, hasKey_key hsp hq, ?_⟩⟩
        refine bind_ok.mpr ⟨(), _, drop_eq _ _, bind_ok.mpr ⟨l'.name, _, hbody, ?_⟩⟩
        rw [hfind]
        refine guard_bind_ok.mpr ⟨by simpa using hnew, ?_⟩
        refine colon_ok.mpr ⟨s₁, c, _, rfl, hs₁, hc, bind_ok.mpr ⟨l'.set s a, _, ?_, hrest⟩⟩
        exact field_complete (hslots.reads l' hl) hs₂ ha hstops s
      | other hname hv hassigned =>
        obtain ⟨hfind, -⟩ | ⟨l, hl, rfl, -⟩ := find_field slots key
        · obtain ⟨c', hrest⟩ := ih hms hassigned hfuel' rest
          refine ⟨c', bind_ok.mpr ⟨true, _, hasKey_key hsp hq, ?_⟩⟩
          refine bind_ok.mpr ⟨(), _, drop_eq _ _, bind_ok.mpr ⟨key, _, hbody, ?_⟩⟩
          rw [hfind]
          refine colon_ok.mpr ⟨s₁, c, _, rfl, hs₁, hc, bind_ok.mpr ⟨(), _, ?_, hrest⟩⟩
          exact skip_complete hs₂ hv hstops
        · exact absurd (List.mem_map_of_mem hl) hname

/-! ## Lists -/

/-- The end of a record that is written as a list. -/
def listEnd (s : σ) : Read σ := do
  if !is ']' (← peekValue) then throw .notJson
  drop
  return s

theorem listEnd_ok {s s' : σ} {bs rest : List UInt8} : listEnd s bs = .ok (s', rest) ↔
    s = s' ∧ ∃ sp c, bs = sp ++ c :: rest ∧ Space sp ∧ is ']' c = true := by
  constructor
  · intro h
    obtain ⟨c, mid, hpeek, h₁⟩ := bind_ok.mp h
    obtain ⟨hc, h₂⟩ := guard_bind_ok.mp h₁
    obtain ⟨_, _, hdrop, h₃⟩ := bind_ok.mp h₂
    obtain ⟨rfl, rfl⟩ := pure_ok.mp h₃
    obtain ⟨sp, t, rfl, hsp, -, rfl⟩ := peekValue_ok.mp hpeek
    cases hdrop
    exact ⟨rfl, sp, c, rfl, hsp, by simpa using hc⟩
  · rintro ⟨rfl, sp, c, rfl, hsp, hc⟩
    rw [listEnd, bind_of_ok (peekValue_complete hsp (isSpace_of_is hc (by decide)))]
    exact guard_bind_ok.mpr ⟨by simp [hc], rfl⟩

/-- The items of a list are the values of the first slots, in order. -/
theorem listFields_sound (hslots : SlotLaw slots) : ∀ {left : List (Slot σ)} {first : Bool}
    {seen : List String} {s s' : σ} {bs rest : List UInt8}, left ⊆ slots →
      (∀ l ∈ left, l.name ∉ seen) → (left.map Slot.name).Nodup →
      (listFields (left.map Slot.field) first s >>= listEnd) bs = .ok (s', rest) →
      ∃ t vs, bs = t ++ rest ∧ Items ']' first t vs ∧ vs.length ≤ left.length ∧
        Assigned slots seen ((left.map Slot.name).zip vs) s s'
  | [], first, seen, s, s', bs, rest, _, _, _, h => by
    obtain ⟨rfl, sp, c, rfl, hsp, hc⟩ := listEnd_ok.mp h
    exact ⟨sp ++ [c], [], by simp, .last hsp hc, le_rfl, .nil⟩
  | l :: left, first, seen, s, s', bs, rest, hleft, hseen, hnodup, h => by
    obtain ⟨s₁, mid, hlist, hend⟩ := bind_ok.mp h
    obtain ⟨more, mid₁, hmore, h₁⟩ := bind_ok.mp hlist
    have hturn := hasItem_sound hmore
    cases more with
    | false =>
      obtain ⟨sp, c, t, rfl, rfl, hsp, hc⟩ := hturn
      obtain ⟨rfl, rfl⟩ := pure_ok.mp h₁
      obtain ⟨rfl, sp', c', heq, hsp', hc'⟩ := listEnd_ok.mp hend
      exact ⟨sp ++ sp' ++ [c'], [], by simp [heq], .last (hsp.append hsp') hc', Nat.zero_le _, .nil⟩
    | true =>
      obtain ⟨sp, rfl, hsp⟩ := hturn
      obtain ⟨s₂, mid₂, hvalue, h₂⟩ := bind_ok.mp h₁
      obtain ⟨hl, hleft⟩ := List.cons_subset.mp hleft
      obtain ⟨hnew, hseen⟩ := List.forall_mem_cons.mp hseen
      obtain ⟨hname, hnodup⟩ := List.nodup_cons.mp hnodup
      have hseen' : ∀ l' ∈ left, l'.name ∉ l.name :: seen := fun l' hl' =>
        List.not_mem_cons_of_ne_of_not_mem (fun h => hname (h ▸ List.mem_map_of_mem hl'))
          (hseen l' hl')
      obtain ⟨t, vs, rfl, ht, hlength, hassigned⟩ := listFields_sound hslots hleft hseen' hnodup
        (bind_ok.mpr ⟨s₁, mid, h₂, hend⟩)
      obtain ⟨sp', v, a, rfl, hsp', ha, rfl⟩ := field_sound (hslots.reads l hl) hvalue
      exact ⟨sp ++ sp' ++ (v ++ t), v :: vs, by simp, .item (Separator.append hsp hsp') ht,
        Nat.succ_le_succ hlength, .known hl hnew ha hassigned⟩

theorem listFields_complete (hslots : SlotLaw slots) : ∀ {left : List (Slot σ)} {first : Bool}
    {seen : List String} {s s' : σ} {t : List UInt8} {vs : List (List UInt8)}, left ⊆ slots →
      Items ']' first t vs → vs.length ≤ left.length →
      Assigned slots seen ((left.map Slot.name).zip vs) s s' → ∀ rest,
        (listFields (left.map Slot.field) first s >>= listEnd) (t ++ rest) = .ok (s', rest)
  | [], first, seen, s, s', t, vs, _, ht, hlength, hassigned, rest => by
    cases ht with
    | last hsp hc =>
      cases hassigned
      exact listEnd_ok.mpr ⟨rfl, _, _, by simp, hsp, hc⟩
    | item => nomatch hlength
  | l :: left, first, seen, s, s', t, vs, hleft, ht, hlength, hassigned, rest => by
    obtain ⟨hl, hleft⟩ := List.cons_subset.mp hleft
    cases ht with
    | @last _ sp c hsp hc =>
      cases hassigned
      refine bind_ok.mpr ⟨s, c :: rest, ?_, listEnd_ok.mpr ⟨rfl, [], c, rfl, space_nil, hc⟩⟩
      refine bind_ok.mpr ⟨false, c :: rest, ?_, rfl⟩
      rw [List.append_assoc, List.singleton_append]
      exact hasItem_last hsp hc
    | @item _ sp v t vs hsp ht =>
      rw [List.map_cons, List.zip_cons_cons] at hassigned
      generalize hkey : l.name = key at hassigned
      cases hassigned with
      | other hname => exact absurd (hkey ▸ List.mem_map_of_mem hl) hname
      | @known _ _ l' a _ _ _ hl' hnew ha hassigned =>
        obtain rfl : l = l' := List.inj_on_of_nodup_map hslots.names hl hl' hkey
        have hlength := Nat.le_of_succ_le_succ hlength
        obtain ⟨s₁, mid, hlist, hend⟩ :=
          bind_ok.mp (listFields_complete hslots hleft ht hlength hassigned rest)
        have hreads := hslots.reads l hl
        refine bind_ok.mpr ⟨s₁, mid, ?_, hend⟩
        simp only [List.append_assoc]
        refine bind_ok.mpr ⟨true, _, hasItem_item hsp (hreads.begins ha), ?_⟩
        refine bind_ok.mpr ⟨l.set s a, _, ?_, hlist⟩
        exact field_complete hreads space_nil ha (ht.stops (by decide) rest) s

/-! ## Both -/

/-- A record is read from its entries. -/
theorem record_assigned (hslots : SlotLaw slots) (s : σ) :
    Reads (record (slots.map Slot.field) s) fun v s' =>
      ∃ es, Entries (slots.map Slot.name) v es ∧ Assigned slots [] es s s' where
  begins := by
    rintro v s' ⟨es, ⟨hb, -, -⟩ | ⟨hb, -, -⟩, -⟩
    · exact ⟨_, _, rfl, starts_of_is hb (by decide)⟩
    · exact ⟨_, _, rfl, starts_of_is hb (by decide)⟩
  sound {bs s' rest} h := by
    obtain ⟨b, mid, hpeek, h₁⟩ := bind_ok.mp h
    obtain ⟨sp, t, rfl, hsp, -, rfl⟩ := peekValue_ok.mp hpeek
    split at h₁
    · rename_i hb
      obtain ⟨_, _, hdrop, h₂⟩ := bind_ok.mp h₁
      cases hdrop
      obtain ⟨_, _, hget, h₃⟩ := bind_ok.mp h₂
      cases hget
      obtain ⟨s₁, mid₁, hread, h₄⟩ := bind_ok.mp h₃
      obtain ⟨_, _, hdrop, h₅⟩ := bind_ok.mp h₄
      obtain ⟨rfl, rfl⟩ := pure_ok.mp h₅
      obtain ⟨t, ms, es, c, rest', rfl, rfl, ht, hms, hassigned⟩ := objectFields_sound hslots hread
      cases hdrop
      exact ⟨sp, b :: t, rfl, hsp, es, .object hb ht hms, hassigned⟩
    · split at h₁
      · rename_i hb
        have hlist : (listFields (slots.map Slot.field) true s >>= listEnd) t = .ok (s', rest) := h₁
        obtain ⟨t, vs, rfl, ht, hlength, hassigned⟩ := listFields_sound hslots
          (List.Subset.refl slots) (fun _ _ => List.not_mem_nil) hslots.names hlist
        exact ⟨sp, b :: t, rfl, hsp, _, .list hb ht (by rwa [List.length_map]), hassigned⟩
      · exact absurd h₁ wrongKind_ok
  complete {sp v s' rest} hsp h _ := by
    obtain ⟨es, hes, hassigned⟩ := h
    cases hes with
    | @object b t ms _ hb ht hms =>
      rw [List.cons_append, record,
        bind_of_ok (peekValue_complete hsp (isSpace_of_is hb (by decide))), if_pos hb]
      have hbegins : ∀ m ∈ ms, Begins m := fun m hm => by
        obtain ⟨e, -, hq, -, -, -, -, -⟩ := forall₂_mem hms m hm
        exact ⟨_, _, rfl, starts_of_is hq (by decide)⟩
      have hlength : ms.length < (t ++ rest).length + 1 := by
        rw [List.length_append]
        have hle := ht.length_le hbegins
        omega
      obtain ⟨c, hread⟩ := objectFields_complete hslots ht hms hassigned hlength rest
      refine bind_ok.mpr ⟨(), _, drop_eq _ _, bind_ok.mpr ⟨_, _, rfl, ?_⟩⟩
      exact bind_ok.mpr ⟨s', _, hread, rfl⟩
    | @list b t vs hb ht hlength =>
      rw [List.cons_append, record,
        bind_of_ok (peekValue_complete hsp (isSpace_of_is hb (by decide))),
        if_neg (by simp [is_ne hb]), if_pos hb]
      rw [List.length_map] at hlength
      exact listFields_complete hslots (List.Subset.refl slots) ht hlength hassigned rest

/-! ## What a slot is in the end -/

/-- Of the names that are known each is there at most once, and under any other there is a value. -/
structure Proper (names : List String) (es : List (String × List UInt8)) : Prop where
  once : ((es.map Prod.fst).filter (· ∈ names)).Nodup
  others : ∀ e ∈ es, e.1 ∉ names → Value e.2

section Proper

variable {names : List String} {es : List (String × List UInt8)} {e : String × List UInt8}

theorem Proper.nil : Proper names [] := ⟨List.nodup_nil, List.forall_mem_nil _⟩

/-- An entry with a name that is known, in front of entries without it. -/
theorem Proper.cons_known (h : Proper names es) (he : e.1 ∈ names) (hnew : e.1 ∉ es.map Prod.fst) :
    Proper names (e :: es) where
  once := by
    rw [List.map_cons, List.filter_cons_of_pos (by simpa using he)]
    exact List.nodup_cons.mpr ⟨fun hmem => hnew (List.mem_filter.mp hmem).1, h.once⟩
  others := List.forall_mem_cons.mpr ⟨fun hnot => absurd he hnot, h.others⟩

/-- An entry with a name that is not known. -/
theorem Proper.cons_other (h : Proper names es) (he : e.1 ∉ names) (hv : Value e.2) :
    Proper names (e :: es) where
  once := by
    rw [List.map_cons, List.filter_cons_of_neg (by simpa using he)]
    exact h.once
  others := List.forall_mem_cons.mpr ⟨fun _ => hv, h.others⟩

theorem Proper.tail (h : Proper names (e :: es)) : Proper names es where
  once := h.once.sublist ((List.sublist_cons_self e es).map Prod.fst |>.filter _)
  others e' he' := h.others e' (List.mem_cons_of_mem e he')

/-- A name that is known is not there again. -/
theorem Proper.head (h : Proper names (e :: es)) (he : e.1 ∈ names) : e.1 ∉ es.map Prod.fst := by
  intro hmem
  have hnodup := h.once
  rw [List.map_cons, List.filter_cons_of_pos (by simpa using he)] at hnodup
  exact (List.nodup_cons.mp hnodup).1 (List.mem_filter.mpr ⟨hmem, by simpa using he⟩)

/-- So a name that is known stands for each value that is there under it. -/
theorem Proper.lookup : ∀ {es : List (String × List UInt8)}, Proper names es → ∀ e ∈ es,
    e.1 ∈ names → es.lookup e.1 = some e.2
  | e :: es, h, e', he', hname => by
    obtain rfl | he' := List.mem_cons.mp he'
    · rw [List.lookup_cons, beq_self_eq_true]
    · have hne : e'.1 ≠ e.1 := fun heq => h.head (heq ▸ hname) (heq ▸ List.mem_map_of_mem he')
      rw [List.lookup_cons, beq_false_of_ne hne]
      exact h.tail.lookup e' he' hname

/-- The entries with these names are the same, in whatever order and with whatever others. -/
structure Alike (names : List String) (es es' : List (String × List UInt8)) : Prop where
  proper : Proper names es
  proper' : Proper names es'
  same : ∀ e, e.1 ∈ names → (e ∈ es ↔ e ∈ es')

theorem Proper.lookup_iff (h : Proper names es) {name : String} {v : List UInt8}
    (hname : name ∈ names) : es.lookup name = some v ↔ (name, v) ∈ es := by
  constructor
  · intro hlookup
    obtain ⟨front, back, rfl, -⟩ := List.lookup_eq_some_iff.mp hlookup
    exact List.mem_append_right front List.mem_cons_self
  · exact fun hmem => h.lookup (name, v) hmem hname

/-- So each of the names stands for the same. -/
theorem Alike.lookup {es' : List (String × List UInt8)} (h : Alike names es es') (name : String)
    (hname : name ∈ names) : es.lookup name = es'.lookup name :=
  Option.ext fun v => by
    rw [h.proper.lookup_iff hname, h.proper'.lookup_iff hname, h.same (name, v) hname]

end Proper

section Assignments

variable {seen : List String} {es : List (String × List UInt8)} {s s' : σ} {l : Slot σ}

/-- Names that were seen are not there again. -/
theorem Assigned.fresh (h : Assigned slots seen es s s') :
    ∀ name ∈ seen, name ∈ slots.map Slot.name → name ∉ es.map Prod.fst := by
  induction h with
  | nil => exact fun _ _ _ => List.not_mem_nil
  | known hl hnew _ _ ih =>
    intro name hseen hname hmem
    obtain rfl | hmem := List.mem_cons.mp hmem
    · exact hnew hseen
    · exact ih name (List.mem_cons_of_mem _ hseen) hname hmem
  | other hother _ _ ih =>
    intro name hseen hname hmem
    obtain rfl | hmem := List.mem_cons.mp hmem
    · exact hother hname
    · exact ih name hseen hname hmem

theorem Assigned.proper (h : Assigned slots seen es s s') : Proper (slots.map Slot.name) es := by
  induction h with
  | nil => exact .nil
  | known hl _ _ h ih =>
    have hknown := List.mem_map_of_mem (f := Slot.name) hl
    exact ih.cons_known hknown (h.fresh _ List.mem_cons_self hknown)
  | other hname hv _ ih => exact ih.cons_other hname hv

/-- Entries are taken up if each value is one for its slot. -/
theorem Proper.assigned : ∀ {es : List (String × List UInt8)} {seen : List String} (s : σ),
    Proper (slots.map Slot.name) es →
      (∀ name ∈ seen, name ∈ slots.map Slot.name → name ∉ es.map Prod.fst) →
      (∀ e ∈ es, ∀ l ∈ slots, l.name = e.1 → ∃ a, l.means e.2 a) → ∃ s', Assigned slots seen es s s'
  | [], _, s, _, _, _ => ⟨s, .nil⟩
  | (name, v) :: es, seen, s, h, hseen, hmeans => by
    obtain ⟨hmean, hothers⟩ := List.forall_mem_cons.mp hmeans
    have hrest : ∀ n ∈ seen, n ∈ slots.map Slot.name → n ∉ es.map Prod.fst :=
      fun n hn hknown hmem => hseen n hn hknown (List.mem_cons_of_mem name hmem)
    by_cases hname : name ∈ slots.map Slot.name
    · obtain ⟨l, hl, rfl⟩ := List.mem_map.mp hname
      obtain ⟨a, ha⟩ := hmean l hl rfl
      have hseen' : ∀ n ∈ l.name :: seen, n ∈ slots.map Slot.name → n ∉ es.map Prod.fst :=
        List.forall_mem_cons.mpr ⟨fun _ => h.head hname, hrest⟩
      obtain ⟨s', hassigned⟩ := Proper.assigned (l.set s a) h.tail hseen' hothers
      exact ⟨s', .known hl (fun hmem => hseen _ hmem hname List.mem_cons_self) ha hassigned⟩
    · obtain ⟨s', hassigned⟩ := Proper.assigned s h.tail hrest hothers
      exact ⟨s', .other hname (h.others _ List.mem_cons_self hname) hassigned⟩

/-- A slot without an entry is as it was. -/
theorem Assigned.unchanged (hslots : SlotLaw slots) (hl : l ∈ slots)
    (h : Assigned slots seen es s s') (hname : l.name ∉ es.map Prod.fst) : l.get s' = l.get s := by
  induction h with
  | nil => rfl
  | known hl' _ _ _ ih =>
    rw [List.map_cons, List.mem_cons, not_or] at hname
    rw [ih hname.2, hslots.apart _ hl' l hl (Ne.symm hname.1)]
  | other _ _ _ ih =>
    rw [List.map_cons, List.mem_cons, not_or] at hname
    exact ih hname.2

/-- What entries give for a slot. -/
def Gives (l : Slot σ) (es : List (String × List UInt8)) : Option l.α → Prop :=
  Option.Rel l.means (es.lookup l.name)

/-- A slot is what the entry of its name says, and what it was if there is none. -/
theorem Assigned.slot (hslots : SlotLaw slots) (hl : l ∈ slots) (h : Assigned slots seen es s s') :
    ∃ given, Gives l es given ∧ l.get s' = given.getD (l.get s) := by
  unfold Gives
  induction h with
  | nil => exact ⟨none, .none, rfl⟩
  | @known seen v l' a es s s' hl' hnew ha h ih =>
    by_cases hn : l'.name = l.name
    · obtain rfl : l' = l := List.inj_on_of_nodup_map hslots.names hl' hl hn
      refine ⟨some a, ?_, ?_⟩
      · rw [List.lookup_cons, beq_self_eq_true]
        exact .some ha
      · rw [h.unchanged hslots hl (h.fresh _ List.mem_cons_self (List.mem_map_of_mem hl)),
          hslots.own l' hl]
        rfl
    · obtain ⟨given, hgiven, hget⟩ := ih
      refine ⟨given, ?_, ?_⟩
      · rw [List.lookup_cons, beq_false_of_ne (Ne.symm hn)]
        exact hgiven
      · rw [hget, hslots.apart _ hl' l hl hn]
  | @other seen n v es s s' hname hv h ih =>
    have hn : n ≠ l.name := fun hn => hname (hn ▸ List.mem_map_of_mem hl)
    rw [List.lookup_cons, beq_false_of_ne (Ne.symm hn)]
    exact ih

end Assignments

theorem Gives.unique (hslots : SlotLaw slots) {l : Slot σ} (hl : l ∈ slots)
    {es : List (String × List UInt8)} {given given' : Option l.α} (h : Gives l es given)
    (h' : Gives l es given') : given = given' := by
  unfold Gives at h h'
  generalize es.lookup l.name = v at h h'
  cases h with
  | none =>
    cases h'
    rfl
  | some ha =>
    cases h' with
    | some hb => exact congrArg some ((hslots.reads l hl).unique ha hb)

/-- A record is read as what its entries give for each slot, and as it was where they give
nothing. -/
theorem record_reads (hslots : SlotLaw slots) (s : σ) :
    Reads (record (slots.map Slot.field) s) fun v s' =>
      ∃ es, Entries (slots.map Slot.name) v es ∧ Proper (slots.map Slot.name) es ∧
        ∀ l ∈ slots, ∃ given, Gives l es given ∧ l.get s' = given.getD (l.get s) := by
  refine (record_assigned hslots s).congr fun v s' => ?_
  constructor
  · rintro ⟨es, hes, hassigned⟩
    exact ⟨es, hes, hassigned.proper, fun l hl => hassigned.slot hslots hl⟩
  · rintro ⟨es, hes, hproper, hgives⟩
    have hmeans : ∀ e ∈ es, ∀ l ∈ slots, l.name = e.1 → ∃ a, l.means e.2 a := by
      intro e he l hl hname
      have hlookup := hproper.lookup e he (hname ▸ List.mem_map_of_mem hl)
      obtain ⟨given, hgiven, -⟩ := hgives l hl
      rw [Gives, hname, hlookup] at hgiven
      cases hgiven with
      | some ha => exact ⟨_, ha⟩
    obtain ⟨s'', hassigned⟩ := Proper.assigned s hproper (List.forall_mem_nil _) hmeans
    have hsame : s'' = s' := hslots.ext s'' s' fun l hl => by
      obtain ⟨given, hgiven, hget⟩ := hassigned.slot hslots hl
      obtain ⟨given', hgiven', hget'⟩ := hgives l hl
      rw [hget, hget', hgiven.unique hslots hl hgiven']
    exact ⟨es, hes, hsame ▸ hassigned⟩

end Records

end Stagehand.Json
