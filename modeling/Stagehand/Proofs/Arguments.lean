import Mathlib.Algebra.Group.Nat.Defs
import Stagehand.CommandLine
import Stagehand.Proofs.WholeNumbers

/-!
# The grammar of the command line

Arguments are read from the left, a pair of a flag and its value at a time. A pair that is in order
sets what its flag stands for and nothing else (`set_ok`), so that after all of them the last pair
of each flag counts; the first pair that is not in order is the fault, whatever follows it. One
induction over the arguments finds which of the two it is (`setAll_cases`). There is no third case,
so that each of the two is an equivalence.
-/

namespace Stagehand.CommandLine

open Number (Written Invalid)

/-! ## Pairs in order -/

/-- Pairs of a flag and its value, as they stand in the arguments. -/
def spread (pairs : List (String × String)) : List String := pairs.flatMap fun p => [p.1, p.2]

/-- The value of the last pair with a flag. -/
def last? (flag : String) (pairs : List (String × String)) : Option String :=
  pairs.reverse.lookup flag

/-- All flags there are. -/
def flags : List String :=
  ["--config", "--scripts", "--width", "--height", "--frames", "--snapshot"]

/-- The flags with a number behind them: what it is called, and how many bits it may have. -/
def numeric? : String → Option (String × Nat)
  | "--width" => some ("width", 32)
  | "--height" => some ("height", 32)
  | "--frames" => some ("frame count", 64)
  | _ => none

/-- A flag and a value that go together. -/
structure InOrder (p : String × String) : Prop where
  known : p.1 ∈ flags
  number : ∀ what bits, numeric? p.1 = some (what, bits) →
    ∃ n, Written (2 ^ bits - 1) p.2.toList n

/-- Why a flag and a value do not go together. -/
inductive Misfit (flag value : String) : ArgumentError → Prop
  | unknown (h : flag ∉ flags) : Misfit flag value (.unknownFlag flag)
  | number {what : String} {bits : Nat} {cause : Number.WholeError}
      (h : numeric? flag = some (what, bits)) (hv : Invalid (2 ^ bits - 1) value.toList cause) :
      Misfit flag value (.badNumber what value cause)

/-- Why arguments are not in order at their very front. -/
inductive Offence : List String → ArgumentError → Prop
  | noFlag {text : String} {rest : List String} (h : ¬ "--".toList <+: text.toList) :
      Offence (text :: rest) (.noFlag text)
  /-- The flag need not be known. -/
  | noValue {flag : String} (h : "--".toList <+: flag.toList) : Offence [flag] (.noValue flag)
  | misfit {flag value : String} {rest : List String} {e : ArgumentError}
      (h : "--".toList <+: flag.toList) (hp : Misfit flag value e) :
      Offence (flag :: value :: rest) e

/-! ## What pairs set -/

/-- The last pair with the flag says what is there afterwards; without one it is what was there. -/
def Settled {α : Type} (reads : String → α → Prop) (flag : String) (pairs : List (String × String))
    (before after : Option α) : Prop :=
  match last? flag pairs with
  | some value => ∃ a, after = some a ∧ reads value a
  | none => after = before

/-- What pairs make of a command line, field by field. -/
structure Sets (pairs : List (String × String)) (before after : CommandLine) : Prop where
  config : Settled (fun value path => path = ⟨value⟩) "--config" pairs before.config after.config
  scripts : Settled (fun value path => path = ⟨value⟩) "--scripts" pairs before.scripts
    after.scripts
  width : Settled (fun value => Written (2 ^ 32 - 1) value.toList) "--width" pairs before.width
    after.width
  height : Settled (fun value => Written (2 ^ 32 - 1) value.toList) "--height" pairs before.height
    after.height
  frames : Settled (fun value => Written (2 ^ 64 - 1) value.toList) "--frames" pairs before.frames
    after.frames
  snapshot : Settled (fun value path => path = ⟨value⟩) "--snapshot" pairs before.snapshot
    after.snapshot

theorem last?_append (flag : String) (pairs more : List (String × String)) :
    last? flag (pairs ++ more) = (last? flag more).or (last? flag pairs) := by
  rw [last?, List.reverse_append, List.lookup_append]
  rfl

theorem last?_self (flag value : String) : last? flag [(flag, value)] = some value := by
  simp [last?]

theorem last?_of_ne {flag other : String} (h : flag ≠ other) (value : String) :
    last? flag [(other, value)] = none := by
  simp [last?, h]

theorem Settled.cons {α : Type} {reads : String → α → Prop} {flag : String}
    {p : String × String} {pairs : List (String × String)} {before between after : Option α}
    (h : Settled reads flag [p] before between) (h' : Settled reads flag pairs between after) :
    Settled reads flag (p :: pairs) before after := by
  unfold Settled at h' ⊢
  rw [← List.singleton_append, last?_append]
  cases hlast : last? flag pairs with
  | some value =>
    rw [hlast] at h'
    exact h'
  | none =>
    rw [hlast] at h'
    rw [Option.none_or, h']
    exact h

theorem Settled.own {α : Type} {reads : String → α → Prop} {flag value : String}
    {before : Option α} {a : α} (h : reads value a) :
    Settled reads flag [(flag, value)] before (some a) := by
  rw [Settled, last?_self]
  exact ⟨a, rfl, h⟩

theorem Settled.other {α : Type} {reads : String → α → Prop} {flag other value : String}
    {before : Option α} (h : flag ≠ other) : Settled reads flag [(other, value)] before before := by
  rw [Settled, last?_of_ne h]

theorem Sets.cons {p : String × String} {pairs : List (String × String)}
    {before between after : CommandLine} (h : Sets [p] before between)
    (h' : Sets pairs between after) : Sets (p :: pairs) before after where
  config := h.config.cons h'.config
  scripts := h.scripts.cons h'.scripts
  width := h.width.cons h'.width
  height := h.height.cons h'.height
  frames := h.frames.cons h'.frames
  snapshot := h.snapshot.cons h'.snapshot

theorem Sets.nil (c : CommandLine) : Sets [] c c := ⟨rfl, rfl, rfl, rfl, rfl, rfl⟩

/-! ## One pair -/

section Pair

variable {c c' : CommandLine} {flag value what : String} {bits : Nat} {e : ArgumentError}

/-- The greatest number of so many bits. -/
theorem greatest (bits : Nat) : ((1 <<< bits) - 1 : Int) = ((2 ^ bits - 1 : Nat) : Int) := by
  rw [Nat.one_shiftLeft, Int.natCast_sub Nat.one_le_two_pow]
  rfl

theorem number_ok {n : Nat} :
    number what bits value = .ok n ↔ Written (2 ^ bits - 1) value.toList n := by
  unfold number
  rw [greatest]
  split
  · rename_i v hread
    obtain ⟨m, hm, rfl⟩ := Number.parseWhole_ok.mp hread
    rw [Int.toNat_natCast, Except.ok.injEq]
    exact ⟨fun heq => heq ▸ hm, fun hn => hm.unique hn⟩
  · rename_i cause hread
    refine iff_of_false nofun fun hn => ?_
    have hok := Number.parseWhole_ok.mpr ⟨n, hn, rfl⟩
    rw [hread] at hok
    nomatch hok

theorem number_error : number what bits value = .error e ↔
    ∃ cause, Invalid (2 ^ bits - 1) value.toList cause ∧ e = .badNumber what value cause := by
  unfold number
  rw [greatest]
  split
  · rename_i v hread
    refine iff_of_false nofun fun ⟨cause, hinvalid, _⟩ => ?_
    have herror := Number.parseWhole_error.mpr hinvalid
    rw [hread] at herror
    nomatch herror
  · rename_i cause hread
    rw [Except.error.injEq]
    constructor
    · rintro rfl
      exact ⟨cause, Number.parseWhole_error.mp hread, rfl⟩
    · rintro ⟨other, hinvalid, rfl⟩
      have herror := Number.parseWhole_error.mpr hinvalid
      rw [hread] at herror
      cases herror
      rfl

/-- A number that is taken up is one. -/
theorem number_bind {f : Nat → CommandLine}
    (h : (do return f (← number what bits value)) = Except.ok c') :
    ∃ n, Written (2 ^ bits - 1) value.toList n ∧ c' = f n := by
  cases hn : number what bits value with
  | error e =>
    rw [hn] at h
    nomatch h
  | ok n =>
    rw [hn] at h
    cases h
    exact ⟨n, number_ok.mp hn, rfl⟩

/-- A pair that is taken up is in order, and sets its field and no other. -/
theorem set_ok (h : c.set flag value = .ok c') :
    InOrder (flag, value) ∧ Sets [(flag, value)] c c' := by
  have other {f : String} (hf : f ≠ flag) {α : Type} {reads : String → α → Prop}
      {before : Option α} : Settled reads f [(flag, value)] before before := .other hf
  have numeric {flag what : String} {bits n : Nat} (hf : flag ∈ flags)
      (h : numeric? flag = some (what, bits)) (hn : Written (2 ^ bits - 1) value.toList n) :
      InOrder (flag, value) := by
    refine ⟨hf, fun what' bits' h' => ?_⟩
    cases h.symm.trans h'
    exact ⟨n, hn⟩
  unfold set at h
  split at h
  · cases h
    refine ⟨⟨by simp [flags], nofun⟩, .own rfl, other ?_, other ?_, other ?_, other ?_,
      other ?_⟩ <;> decide
  · cases h
    refine ⟨⟨by simp [flags], nofun⟩, other ?_, .own rfl, other ?_, other ?_, other ?_,
      other ?_⟩ <;> decide
  · obtain ⟨n, hn, rfl⟩ := number_bind h
    refine ⟨numeric (by simp [flags]) rfl hn, other ?_, other ?_, .own hn, other ?_, other ?_,
      other ?_⟩ <;> decide
  · obtain ⟨n, hn, rfl⟩ := number_bind h
    refine ⟨numeric (by simp [flags]) rfl hn, other ?_, other ?_, other ?_, .own hn, other ?_,
      other ?_⟩ <;> decide
  · obtain ⟨n, hn, rfl⟩ := number_bind h
    refine ⟨numeric (by simp [flags]) rfl hn, other ?_, other ?_, other ?_, other ?_, .own hn,
      other ?_⟩ <;> decide
  · cases h
    refine ⟨⟨by simp [flags], nofun⟩, other ?_, other ?_, other ?_, other ?_, other ?_,
      .own rfl⟩ <;> decide
  · nomatch h

/-- A pair that is not taken up does not go together. -/
theorem set_error : c.set flag value = .error e ↔ Misfit flag value e := by
  have unread {flag what : String} {bits : Nat} {f : Nat → CommandLine} (hf : flag ∈ flags)
      (h : numeric? flag = some (what, bits)) :
      (do return f (← number what bits value)) = Except.error e ↔ Misfit flag value e := by
    have hbind : (do return f (← number what bits value)) = Except.error e ↔
        number what bits value = .error e := by
      cases number what bits value <;> simp [bind, Except.bind, pure, Except.pure]
    rw [hbind, number_error]
    constructor
    · rintro ⟨cause, hinvalid, rfl⟩
      exact .number h hinvalid
    · intro hmisfit
      cases hmisfit with
      | unknown hnot => exact absurd hf hnot
      | number h' hinvalid =>
        cases h.symm.trans h'
        exact ⟨_, hinvalid, rfl⟩
  have plain {flag : String} (hf : flag ∈ flags) (h : numeric? flag = none) :
      ¬ Misfit flag value e := by
    intro hmisfit
    cases hmisfit with
    | unknown hnot => exact hnot hf
    | number h' _ => nomatch h.symm.trans h'
  unfold set
  split
  · exact iff_of_false nofun (plain (by simp [flags]) rfl)
  · exact iff_of_false nofun (plain (by simp [flags]) rfl)
  · exact unread (by simp [flags]) rfl
  · exact unread (by simp [flags]) rfl
  · exact unread (by simp [flags]) rfl
  · exact iff_of_false nofun (plain (by simp [flags]) rfl)
  · rename_i hconfig hscripts hwidth hheight hframes hsnapshot
    have hunknown : flag ∉ flags := by
      simp only [flags, List.mem_cons, List.not_mem_nil, or_false, not_or]
      exact ⟨hconfig, hscripts, hwidth, hheight, hframes, hsnapshot⟩
    have hplain : numeric? flag = none := by
      unfold numeric?
      split <;> first | rfl | contradiction
    rw [Except.error.injEq]
    constructor
    · rintro rfl
      exact .unknown hunknown
    · intro hmisfit
      cases hmisfit with
      | unknown => rfl
      | number h' _ => nomatch hplain.symm.trans h'

/-- A pair in order is taken up. -/
theorem InOrder.set {p : String × String} (h : InOrder p) (c : CommandLine) :
    ∃ c', c.set p.1 p.2 = .ok c' := by
  cases hset : c.set p.1 p.2 with
  | ok c' => exact ⟨c', rfl⟩
  | error e =>
    exfalso
    cases set_error.mp hset with
    | unknown hnot => exact hnot h.known
    | number hf hinvalid =>
      obtain ⟨n, hn⟩ := h.number _ _ hf
      have hok := Number.parseWhole_ok.mpr ⟨n, hn, rfl⟩
      rw [Number.parseWhole_error.mpr hinvalid] at hok
      nomatch hok

end Pair

/-! ## All of them -/

theorem isFlag_iff {text : String} : isFlag text = true ↔ "--".toList <+: text.toList :=
  List.isPrefixOf_iff_prefix

theorem InOrder.isFlag {p : String × String} (h : InOrder p) :
    CommandLine.isFlag p.1 = true := by
  have hall : ∀ flag ∈ flags, CommandLine.isFlag flag = true := by decide
  exact hall p.1 h.known

/-- Pairs in order are taken up, whatever follows them. -/
theorem setAll_spread : ∀ {pairs : List (String × String)} (c : CommandLine),
    (∀ p ∈ pairs, InOrder p) → ∀ rest, ∃ c', setAll c (spread pairs ++ rest) = setAll c' rest
  | [], c, _, _ => ⟨c, rfl⟩
  | p :: pairs, c, h, rest => by
    obtain ⟨hp, hpairs⟩ := List.forall_mem_cons.mp h
    obtain ⟨c₁, hset⟩ := hp.set c
    obtain ⟨c', hrest⟩ := setAll_spread c₁ hpairs rest
    refine ⟨c', ?_⟩
    change setAll c (p.1 :: p.2 :: (spread pairs ++ rest)) = _
    rw [setAll, if_pos hp.isFlag, hset]
    exact hrest

/-- Whatever the arguments are, some pairs of them are in order from the left. If these are all,
they set what the last of each flag says; and otherwise what follows them is the fault. -/
theorem setAll_cases : ∀ (args : List String) (c : CommandLine),
    ∃ pairs rest, args = spread pairs ++ rest ∧ (∀ p ∈ pairs, InOrder p) ∧
      ((rest = [] ∧ ∃ c', setAll c args = .ok c' ∧ Sets pairs c c') ∨
        ∃ e, setAll c args = .error e ∧ Offence rest e)
  | [], c => ⟨[], [], rfl, List.forall_mem_nil _, .inl ⟨rfl, c, rfl, .nil c⟩⟩
  | [flag], c => by
    refine ⟨[], [flag], rfl, List.forall_mem_nil _, .inr ⟨_, rfl, ?_⟩⟩
    by_cases hflag : isFlag flag = true
    · rw [if_pos hflag]
      exact .noValue (isFlag_iff.mp hflag)
    · rw [if_neg hflag]
      exact .noFlag (mt isFlag_iff.mpr hflag)
  | flag :: value :: args, c => by
    by_cases hflag : isFlag flag = true
    · cases hset : c.set flag value with
      | error e =>
        refine ⟨[], flag :: value :: args, rfl, List.forall_mem_nil _, .inr ⟨e, ?_, ?_⟩⟩
        · rw [setAll, if_pos hflag, hset]
          rfl
        · exact .misfit (isFlag_iff.mp hflag) (set_error.mp hset)
      | ok c₁ =>
        obtain ⟨hp, hfirst⟩ := set_ok hset
        obtain ⟨pairs, rest, rfl, hpairs, hend⟩ := setAll_cases args c₁
        have hall : setAll c (flag :: value :: (spread pairs ++ rest)) =
            setAll c₁ (spread pairs ++ rest) := by
          rw [setAll, if_pos hflag, hset]
          rfl
        refine ⟨(flag, value) :: pairs, rest, rfl, List.forall_mem_cons.mpr ⟨hp, hpairs⟩, ?_⟩
        rw [hall]
        exact hend.imp (fun ⟨hrest, c', hc, hsets⟩ => ⟨hrest, c', hc, hfirst.cons hsets⟩) id
    · refine ⟨[], flag :: value :: args, rfl, List.forall_mem_nil _, .inr ⟨.noFlag flag, ?_, ?_⟩⟩
      · rw [setAll, if_neg hflag]
      · exact .noFlag (mt isFlag_iff.mpr hflag)

theorem Offence.setAll {args : List String} {e : ArgumentError} (h : Offence args e)
    (c : CommandLine) : c.setAll args = .error e := by
  cases h with
  | @noFlag text rest h =>
    have hflag : ¬ isFlag text = true := mt isFlag_iff.mp h
    cases rest with
    | nil => rw [CommandLine.setAll, if_neg hflag]
    | cons => rw [CommandLine.setAll, if_neg hflag]
  | noValue h => rw [CommandLine.setAll, if_pos (isFlag_iff.mpr h)]
  | misfit h hp =>
    rw [CommandLine.setAll, if_pos (isFlag_iff.mpr h), set_error.mpr hp]
    rfl

/-! ## The law -/

/-- A command line says what the last pair of each flag says, and nothing where there is none. -/
structure Asks (pairs : List (String × String)) (c : CommandLine) : Prop where
  config : c.config = (last? "--config" pairs).map FilePath.mk
  scripts : c.scripts = (last? "--scripts" pairs).map FilePath.mk
  width : Option.Rel (fun value => Written (2 ^ 32 - 1) value.toList) (last? "--width" pairs)
    c.width
  height : Option.Rel (fun value => Written (2 ^ 32 - 1) value.toList) (last? "--height" pairs)
    c.height
  frames : Option.Rel (fun value => Written (2 ^ 64 - 1) value.toList) (last? "--frames" pairs)
    c.frames
  snapshot : c.snapshot = (last? "--snapshot" pairs).map FilePath.mk

theorem Settled.rel {α : Type} {reads : String → α → Prop} {flag : String}
    {pairs : List (String × String)} {after : Option α} (h : Settled reads flag pairs none after) :
    Option.Rel reads (last? flag pairs) after := by
  unfold Settled at h
  split at h
  · rename_i hlast
    obtain ⟨a, rfl, ha⟩ := h
    rw [hlast]
    exact .some ha
  · rename_i hlast
    rw [hlast, h]
    exact .none

theorem Settled.path {flag : String} {pairs : List (String × String)} {after : Option FilePath}
    (h : Settled (fun value path => path = ⟨value⟩) flag pairs none after) :
    after = (last? flag pairs).map FilePath.mk := by
  have hrel := h.rel
  generalize last? flag pairs = given at hrel
  cases hrel with
  | some ha => exact congrArg some ha
  | none => rfl

theorem Sets.asks {pairs : List (String × String)} {c : CommandLine} (h : Sets pairs {} c) :
    Asks pairs c :=
  ⟨h.config.path, h.scripts.path, h.width.rel, h.height.rel, h.frames.rel, h.snapshot.path⟩

theorem written_unique {limit : Nat} {given : Option String} {a b : Option Nat}
    (ha : Option.Rel (fun value => Written limit value.toList) given a)
    (hb : Option.Rel (fun value => Written limit value.toList) given b) : a = b := by
  cases ha with
  | none =>
    cases hb
    rfl
  | some ha =>
    cases hb with
    | some hb => exact congrArg some (ha.unique hb)

theorem Asks.unique {pairs pairs' : List (String × String)} {c c' : CommandLine}
    (h : Asks pairs c) (h' : Asks pairs' c')
    (hlast : ∀ flag, last? flag pairs = last? flag pairs') : c = c' := by
  obtain ⟨hconfig, hscripts, hwidth, hheight, hframes, hsnapshot⟩ := h
  obtain ⟨hconfig', hscripts', hwidth', hheight', hframes', hsnapshot'⟩ := h'
  rw [hlast] at hconfig hscripts hwidth hheight hframes hsnapshot
  have hw := written_unique hwidth hwidth'
  have hh := written_unique hheight hheight'
  have hf := written_unique hframes hframes'
  cases c
  cases c'
  simp_all

theorem spread_injective : ∀ {pairs pairs' : List (String × String)},
    spread pairs = spread pairs' → pairs = pairs'
  | [], [], _ => rfl
  | [], _ :: _, h => nomatch h
  | _ :: _, [], h => nomatch h
  | (flag, value) :: pairs, (flag', value') :: pairs', h => by
    have hcons : flag :: value :: spread pairs = flag' :: value' :: spread pairs' := h
    simp only [List.cons.injEq] at hcons
    obtain ⟨rfl, rfl, hrest⟩ := hcons
    rw [spread_injective hrest]

theorem last?_swap {p q : String × String} (h : p.1 ≠ q.1) (front back : List (String × String))
    (flag : String) :
    last? flag (front ++ p :: q :: back) = last? flag (front ++ q :: p :: back) := by
  have hpair : last? flag [p, q] = last? flag [q, p] := by
    rw [← List.singleton_append, last?_append, ← List.singleton_append (l := [p]), last?_append]
    by_cases hp : flag = p.1
    · have hnone : last? flag [q] = none := last?_of_ne (hp ▸ h) q.2
      rw [hnone]
      simp
    · have hnone : last? flag [p] = none := last?_of_ne hp p.2
      rw [hnone]
      simp
  have hsplit (a b : String × String) : front ++ a :: b :: back = front ++ ([a, b] ++ back) := rfl
  rw [hsplit, hsplit, last?_append, last?_append, last?_append _ front, last?_append, hpair]

/-- A command line that is read was pairs in order, and says what they say. -/
theorem parse_ok {args : List String} {c : CommandLine} (h : parse args = .ok c) :
    ∃ pairs, args.drop 1 = spread pairs ∧ (∀ p ∈ pairs, InOrder p) ∧ Asks pairs c := by
  obtain ⟨pairs, rest, hargs, hpairs, ⟨rfl, c', hc, hsets⟩ | ⟨e, he, -⟩⟩ :=
    setAll_cases (args.drop 1) {}
  · rw [List.append_nil] at hargs
    cases h.symm.trans hc
    exact ⟨pairs, hargs, hpairs, hsets.asks⟩
  · nomatch h.symm.trans he

/-- What arguments are read as, whatever they are. -/
structure ArgumentLaw (args : List String) : Prop where
  /-- They are accepted exactly if they are pairs in order behind the name of the program. -/
  accepted : (∃ c, parse args = .ok c) ↔
    ∃ pairs, args.drop 1 = spread pairs ∧ ∀ p ∈ pairs, InOrder p
  /-- Then each field is what the last pair with its flag says. -/
  asks : ∀ {pairs c}, args.drop 1 = spread pairs → parse args = .ok c → Asks pairs c
  /-- Pairs with different flags can change places. -/
  commute : ∀ {front p q back}, args.drop 1 = spread (front ++ p :: q :: back) → p.1 ≠ q.1 →
    ∀ c, parse args = .ok c ↔ parse (args.take 1 ++ spread (front ++ q :: p :: back)) = .ok c
  /-- And otherwise the fault is that of the first pair from the left that is not in order. -/
  refused : ∀ e, parse args = .error e ↔
    ∃ pairs rest, args.drop 1 = spread pairs ++ rest ∧ (∀ p ∈ pairs, InOrder p) ∧ Offence rest e

/-- Pairs in order are read. -/
theorem parse_spread {args : List String} {pairs : List (String × String)}
    (hargs : args.drop 1 = spread pairs) (h : ∀ p ∈ pairs, InOrder p) :
    ∃ c, parse args = .ok c ∧ Asks pairs c := by
  obtain ⟨c, hc⟩ := setAll_spread {} h []
  have hparse : parse args = .ok c := by
    rw [parse, hargs, ← List.append_nil (spread pairs), hc]
    rfl
  obtain ⟨pairs', hsplit, -, hasks⟩ := parse_ok hparse
  exact ⟨c, hparse, spread_injective (hargs.symm.trans hsplit) ▸ hasks⟩

/-- Two pairs with different flags that change places are read as the same. -/
theorem parse_swap {args args' : List String} {front back : List (String × String)}
    {p q : String × String} (hargs : args.drop 1 = spread (front ++ p :: q :: back))
    (hargs' : args'.drop 1 = spread (front ++ q :: p :: back)) (hne : p.1 ≠ q.1) {c : CommandLine}
    (h : parse args = .ok c) : parse args' = .ok c := by
  obtain ⟨pairs, hsplit, hpairs, hasks⟩ := parse_ok h
  obtain rfl := spread_injective (hargs.symm.trans hsplit)
  have hswap : (front ++ q :: p :: back).Perm (front ++ p :: q :: back) :=
    (List.Perm.swap p q back).append_left front
  obtain ⟨c', hc', hasks'⟩ := parse_spread hargs' fun r hr => hpairs r (hswap.mem_iff.mp hr)
  rw [hc', hasks'.unique hasks (last?_swap hne.symm front back)]

/-- Reading arguments keeps the law, whatever they are. -/
theorem arguments_lawful (args : List String) : ArgumentLaw args where
  accepted := by
    constructor
    · rintro ⟨c, hc⟩
      obtain ⟨pairs, hargs, hpairs, -⟩ := parse_ok hc
      exact ⟨pairs, hargs, hpairs⟩
    · rintro ⟨pairs, hargs, hpairs⟩
      obtain ⟨c, hc, -⟩ := parse_spread hargs hpairs
      exact ⟨c, hc⟩
  asks {pairs c} hargs hc := by
    obtain ⟨pairs', hsplit, -, hasks⟩ := parse_ok hc
    exact spread_injective (hargs.symm.trans hsplit) ▸ hasks
  commute {front p q back} hargs hne c := by
    have hargs' : (args.take 1 ++ spread (front ++ q :: p :: back)).drop 1 =
        spread (front ++ q :: p :: back) := by
      cases args with
      | nil => simp [spread] at hargs
      | cons => rfl
    exact ⟨parse_swap hargs hargs' hne, parse_swap hargs' hargs hne.symm⟩
  refused e := by
    constructor
    · intro he
      obtain ⟨pairs, rest, hargs, hpairs, ⟨-, c', hc, -⟩ | ⟨e', he', hoffence⟩⟩ :=
        setAll_cases (args.drop 1) {}
      · nomatch he.symm.trans hc
      · cases he.symm.trans he'
        exact ⟨pairs, rest, hargs, hpairs, hoffence⟩
    · rintro ⟨pairs, rest, hargs, hpairs, hoffence⟩
      obtain ⟨c, hc⟩ := setAll_spread {} hpairs rest
      rw [parse, hargs, hc, hoffence.setAll]

end Stagehand.CommandLine
