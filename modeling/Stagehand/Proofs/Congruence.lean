import Stagehand.Proofs.Idle
import Stagehand.Proofs.Loads

/-!
# Runs that differ in how jobs get done

Everything that scripts do is put together from other jobs and from accesses that have no part in
imports. So what relates the ways to get jobs done, and is kept when runs are put together, relates
the runs themselves: `Congruence.stepBy` says so of one job, and an evaluator that treats imports in
its own way is compared with `evaluate` by an induction on the budget.
-/

namespace Stagehand.Lang

/-- A relation between runs that holds of each idle run with itself, and is kept when runs are put
together. -/
structure Congruence (R : ∀ {α : Type}, Eval α → Eval α → Prop) : Prop where
  idle {α : Type} {x : Eval α} (hx : Idle x) : R x x
  bind {α β : Type} {x y : Eval α} {f g : α → Eval β} (hx : R x y) (hf : ∀ a, R (f a) (g a)) :
    R (x >>= f) (y >>= g)
  attempt {α : Type} {x y : Eval α} (hx : R x y) : R (Eval.attempt x) (Eval.attempt y)

/-- The runs are the same where the first predicate holds, and lead from there to what is related to
it by the second. -/
def Same (I : Machine → Prop) (K : Machine → Machine → Prop) {α : Type} (x y : Eval α) : Prop :=
  ∀ m, I m → x m = y m ∧ ∀ r m', x m = some (r, m') → K m m'

/-- That two runs are the same is kept when runs are put together, if what the runs lead to is. -/
theorem Congruence.same {I : Machine → Prop} {K : Machine → Machine → Prop}
    (unmoved : ∀ {m m'}, I m → Unmoved m m' → K m m')
    (trans : ∀ {m m' m''}, K m m' → K m' m'' → K m m'') (kept : ∀ {m m'}, I m → K m m' → I m') :
    Congruence (Same I K) where
  idle hx m hm := ⟨rfl, fun r m' h => unmoved hm (hx m r m' h)⟩
  bind {α β x y f g} hx hf m hm := by
    obtain ⟨hsame, hafter⟩ := hx m hm
    cases hrun : x m with
    | none =>
        rw [Eval.bind_none hrun, Eval.bind_none (hsame ▸ hrun)]
        exact ⟨rfl, fun _ _ h => by cases h⟩
    | some p =>
        obtain ⟨r, m₁⟩ := p
        have hm₁ := hafter r m₁ hrun
        cases r with
        | ok a =>
            rw [Eval.bind_ok hrun, Eval.bind_ok (hsame ▸ hrun)]
            obtain ⟨hsame', hafter'⟩ := hf a m₁ (kept hm hm₁)
            exact ⟨hsame', fun r m' h => trans hm₁ (hafter' r m' h)⟩
        | error halt =>
            rw [Eval.bind_error hrun, Eval.bind_error (hsame ▸ hrun)]
            refine ⟨rfl, fun r m' h => ?_⟩
            cases h
            exact hm₁
  attempt {α x y} hx m hm := by
    obtain ⟨hsame, hafter⟩ := hx m hm
    refine ⟨by simp only [Eval.attempt, hsame], fun r m' h => ?_⟩
    obtain ⟨⟨r₁, m₁⟩, h₁, h⟩ := Option.bind_eq_some_iff.mp h
    cases h
    exact hafter r₁ m' h₁

namespace Congruence

variable {R : ∀ {α : Type}, Eval α → Eval α → Prop} (c : Congruence R)
include c

section Rules

variable {α β : Type} {x y : Eval α} {f g : α → Eval β}

theorem pure (a : α) : R (Pure.pure a : Eval α) (Pure.pure a) := c.idle (.pure a)

theorem throw (halt : Halt) : R (MonadExcept.throw halt : Eval α) (MonadExcept.throw halt) :=
  c.idle (.throw halt)

theorem raise (cause : Cause) (pos : Place) :
    R (Eval.raise cause pos : Eval α) (Eval.raise cause pos) := c.idle (.raise cause pos)

theorem look {f g : Machine → Eval α} (hf : ∀ m, R (f m) (g m)) : R (get >>= f) (get >>= g) :=
  c.bind (c.idle .get) hf

/-- First the same idle run. -/
theorem first (hx : Idle x) (hf : ∀ a, R (f a) (g a)) : R (x >>= f) (x >>= g) :=
  c.bind (c.idle hx) hf

/-- In the end the same idle run. -/
theorem last (hx : R x y) (hf : ∀ a, Idle (f a)) : R (x >>= f) (y >>= f) :=
  c.bind hx fun a => c.idle (hf a)

omit c in
theorem branch {p : Prop} [Decidable p] {x' y' : Eval α} (hx : R x y) (hx' : R x' y') :
    R (if p then x else x') (if p then y else y') := by
  split
  · exact hx
  · exact hx'

theorem mapM {f g : α → Eval β} (hf : ∀ a, R (f a) (g a)) : ∀ as : List α,
    R (as.mapM f) (as.mapM g)
  | [] => by
    rw [List.mapM_nil, List.mapM_nil]
    exact c.pure []
  | a :: as => by
    rw [List.mapM_cons, List.mapM_cons]
    exact c.bind (hf a) fun b => c.bind (mapM hf as) fun bs => c.pure (b :: bs)

theorem apart {h : Frame → Frame} {k l : Frame → Except Halt α → Eval β} (hx : R x y)
    (hk : ∀ inner r, R (k inner r) (l inner r)) : R (Eval.apart h x k) (Eval.apart h y l) := by
  refine c.look fun outer => c.first (.modifyFrame h) fun _ => c.bind (c.attempt hx) fun r => ?_
  exact c.look fun inner => c.first (.modifyFrame _) fun _ => hk inner.frame r

/-- What was attempted goes on as it ended. -/
theorem resume (r : Except Halt α) :
    R (match r with
      | .ok a => return a
      | .error h => MonadExcept.throw h : Eval α)
      (match r with
      | .ok a => return a
      | .error h => MonadExcept.throw h) := by
  cases r with
  | ok a => exact c.pure a
  | error h => exact c.throw h

theorem deeper (hx : R x y) : R (Eval.deeper x) (Eval.deeper y) := by
  refine c.look fun m => c.first (.modifyFrame _) fun _ => c.bind (c.attempt hx) fun r => ?_
  exact c.first (.modifyFrame _) fun _ => c.resume r

theorem holding (v : Var) (hx : R x y) : R (Eval.holding v x) (Eval.holding v y) := by
  unfold Eval.holding
  split
  · refine c.look fun m => c.first (.modifyFrame _) fun _ => c.bind (c.attempt hx) fun r => ?_
    exact c.first (.modifyFrame _) fun _ => c.resume r
  · exact hx

theorem enclosed (hx : R x y) : R (Eval.enclosed x) (Eval.enclosed y) := by
  refine c.first (Idle.get.bind fun _ => .pure _) fun mark => c.bind (c.attempt hx) fun r => ?_
  exact c.first (.modifyFrame _) fun _ => c.resume r

end Rules

/-! ## Calls -/

section Calls

variable {stage : Stage} {run run' : Run} (hrun : ∀ job, R (run job) (run' job))
include hrun

theorem callFunction (f : FnDef) (args : List Value) (this : Option Held) (reached : Reached)
    (pos : Place) :
    R (Lang.callFunction run f args this reached pos)
      (Lang.callFunction run' f args this reached pos) := by
  rw [callFunction_eq, callFunction_eq]
  refine c.look fun m => branch (c.raise _ _) (c.apart (hrun _) fun inner r => ?_)
  exact c.idle (.upshotOf f pos inner r)

theorem callByName (name : String) (object : Option Held) (args : List Value) (pos : Place) :
    R (Lang.callByName stage run name object args pos)
      (Lang.callByName stage run' name object args pos) := by
  refine c.first (.ensureFree _ _ _) fun _ => c.first (.function? _ _) fun f => ?_
  cases f with
  | some f => exact c.callFunction hrun _ _ _ _ _
  | none =>
      refine c.bind (c.mapM (fun v => c.idle (.flatten v)) args) fun flat => ?_
      exact c.idle (.callByType stage _ _ _ _)

theorem callValue (name : String) (function : Option FnDef) (object : Option Held)
    (args : List Value) (pos : Place) :
    R (Lang.callValue stage run name function object args pos)
      (Lang.callValue stage run' name function object args pos) := by
  unfold Lang.callValue
  split
  · exact c.callFunction hrun _ _ _ _ _
  · exact c.callByName hrun _ _ _ _

theorem callInSomeWay (name : String) (curried : List Value) (pos : Place) :
    ∀ ways : List (Option Held × List Value),
      R (Lang.callInSomeWay stage run name curried pos ways)
        (Lang.callInSomeWay stage run' name curried pos ways)
  | [] => c.pure _
  | (this, args) :: rest => by
    refine c.bind (c.attempt (c.last (c.callByName hrun name this (curried ++ args) pos) .valueOf))
      fun r => ?_
    cases r with
    | ok v => exact c.pure v
    | error h => exact branch (callInSomeWay name curried pos rest) (c.throw h)

theorem acceptOffer (name : String) (curried : List Value) (function : Option FnDef) (offer : Offer)
    (pos : Place) :
    R (Lang.acceptOffer stage run name curried function offer pos)
      (Lang.acceptOffer stage run' name curried function offer pos) := by
  unfold Lang.acceptOffer
  dsimp only
  split
  · exact c.last (c.callFunction hrun _ _ _ _ _) .valueOf
  · exact c.deeper (c.callInSomeWay hrun _ _ _ _)

theorem mapOffer (name : String) (curried : List Value) (function : Option FnDef) (pos : Place)
    (offer : Offer) :
    R (Lang.mapOffer stage run name curried function pos offer)
      (Lang.mapOffer stage run' name curried function pos offer) := by
  refine c.bind (c.attempt (c.deeper (c.acceptOffer hrun _ _ _ _ _))) fun r => ?_
  rcases r with (f | _ | _ | _ | v) | v
  · exact c.throw _
  · exact c.throw _
  · exact c.throw _
  · exact c.throw _
  · exact c.throw _
  · exact c.pure v

variable (stage) in
/-- What is there under both ways to get jobs done, or under neither. -/
theorem mapFunction (args : List Value) (pos : Place) :
    Lang.mapFunction stage run args pos = none ∧ Lang.mapFunction stage run' args pos = none ∨
      ∃ x y, Lang.mapFunction stage run args pos = some x ∧
        Lang.mapFunction stage run' args pos = some y ∧ R x y := by
  have offers (name : String) (curried : List Value) (function : Option FnDef)
      (offers : List Offer) :
      R (do return Value.array (← offers.mapM (Lang.mapOffer stage run name curried function pos)))
        (do return .array (← offers.mapM (Lang.mapOffer stage run' name curried function pos))) :=
    c.last (c.mapM (c.mapOffer hrun name curried function pos) offers) fun _ => .pure _
  unfold Lang.mapFunction
  split
  · exact .inr ⟨_, _, rfl, rfl, offers _ _ _ _⟩
  · exact .inr ⟨_, _, rfl, rfl, c.first (.orRaise _ _) fun _ => offers _ _ _ _⟩
  · refine .inr ⟨_, _, rfl, rfl, c.last (c.mapM (fun field => ?_) _) fun _ => .pure _⟩
    exact c.last (c.mapOffer hrun _ _ _ _ _) fun _ => .pure _
  · exact .inl ⟨rfl, rfl⟩

theorem callBuiltIn (name : String) (constant : Bool) (args : List Value) (pos : Place) :
    R (Lang.callBuiltIn stage run name constant args pos)
      (Lang.callBuiltIn stage run' name constant args pos) := by
  have byType : R (Lang.callByType stage name constant args pos) _ :=
    c.idle (.callByType stage name constant args pos)
  unfold Lang.callBuiltIn
  by_cases hname : (name == "map") = true
  · rw [if_pos hname, if_pos hname]
    rcases c.mapFunction stage hrun args pos with ⟨hx, hy⟩ | ⟨x, y, hx, hy, hR⟩
    · rw [hx, hy]
      exact byType
    · rw [hx, hy]
      exact c.last hR fun _ => .pure _
  · rw [if_neg hname, if_neg hname]
    exact byType

theorem callPlain (object : Held) (name : String) (args : List Value) (pos : Place) :
    R (Lang.callPlain stage run object name args pos)
      (Lang.callPlain stage run' object name args pos) := by
  refine c.first (.ensureFree _ _ _) fun _ => c.first (.function? _ _) fun f => ?_
  cases f with
  | some f => exact c.callFunction hrun _ _ _ _ _
  | none => exact c.callBuiltIn hrun _ _ _ _

theorem callMethod (object : Held) (name : String) (args : List Value) (pos : Place) :
    R (Lang.callMethod stage run object name args pos)
      (Lang.callMethod stage run' object name args pos) := by
  unfold Lang.callMethod
  split
  · refine c.first (.ensureFree _ _ _) fun _ => ?_
    exact c.last (c.callValue hrun _ _ _ _ _) fun _ => .pure _
  · exact c.pure _
  · exact c.first (.ensureFree _ _ _) fun _ => c.callValue hrun _ _ _ _ _
  · exact c.raise _ _
  · exact c.raise _ _
  · split
    · exact c.callValue hrun _ _ _ _ _
    · exact c.callPlain hrun _ _ _ _
  · exact c.callPlain hrun _ _ _ _

variable (stage) in
/-- What belongs to the language is there under both ways to get jobs done, or under neither. -/
theorem languageCall (name : String) (args : List Value) (pos : Place) :
    Lang.languageCall stage run name args pos = none ∧
        Lang.languageCall stage run' name args pos = none ∨
      ∃ x y, Lang.languageCall stage run name args pos = some x ∧
        Lang.languageCall stage run' name args pos = some y ∧ R x y := by
  unfold Lang.languageCall
  split
  · exact .inr ⟨_, _, rfl, rfl, c.idle (.alone (Built.namedFunction (within_everything _)))⟩
  · refine .inr ⟨_, _, rfl, rfl, c.first (.ensureFree _ _ _) fun _ => ?_⟩
    exact c.last (c.callValue hrun _ _ _ _ _) .valueOf
  · exact .inr ⟨_, _, rfl, rfl, c.raise _ _⟩
  · exact .inr ⟨_, _, rfl, rfl, c.pure _⟩
  · exact .inr ⟨_, _, rfl, rfl, c.raise _ _⟩
  · exact .inl ⟨rfl, rfl⟩

end Calls

/-! ## Chains -/

theorem caughtWalk {x y : Eval Upshot} (hx : R x y) :
    R (Lang.caughtWalk x) (Lang.caughtWalk y) := by
  refine c.last (c.attempt hx) fun r => ?_
  cases r with
  | ok u => exact .pure u
  | error h => exact .pure _

section Steps

variable {storing : Option Storing} {last : Bool} {next next' : Held → Eval Upshot}
  (hnext : ∀ held, R (next held) (next' held))
include hnext

theorem walkProperty (name : String) (pos : Pos) (held : Held) :
    R (Lang.walkProperty storing last next name pos held)
      (Lang.walkProperty storing last next' name pos held) := by
  unfold Lang.walkProperty
  split
  · refine c.last (c.caughtWalk (hnext _)) fun u => ?_
    exact .alone (Built.around (within_everything u) fun _ _ => .pure (within_everything _))
  · split
    · exact c.raise _ _
    · exact c.raise _ _
    · exact c.first (.into _ _) fun _ => c.raise _ _
    · exact c.last (hnext _) fun _ => .pure _

theorem walkIndex (key : Value) (pos : Pos) (held : Held) :
    R (Lang.walkIndex storing last next key pos held)
      (Lang.walkIndex storing last next' key pos held) := by
  refine c.first (.alone Built.ensureIndexable) fun _ => ?_
  refine c.first (.alone (Built.heldItem (within_everything held))) fun part => ?_
  refine c.last (c.caughtWalk (hnext part)) fun u => .alone ?_
  exact Built.around (within_everything u) fun _ _ =>
    Built.withItem (within_everything _) (within_everything _)

end Steps

section Walks

variable {stage : Stage} {run run' : Run} (hrun : ∀ job, R (run job) (run' job))
include hrun

theorem walkMethod {next next' : Held → Eval Upshot} (hnext : ∀ held, R (next held) (next' held))
    (name : String) (args : List Value) (pos : Pos) (held : Held) :
    R (Lang.walkMethod stage run next name args pos held)
      (Lang.walkMethod stage run' next' name args pos held) := by
  refine c.bind (c.callMethod hrun held name args (some pos)) fun called => ?_
  split
  · exact c.pure _
  · exact c.last (c.caughtWalk (hnext _)) fun _ => .pure _

variable (stage) in
/-- Along a chain, by induction on its steps. -/
theorem walk (storing : Option Storing) : ∀ (links : List Link) (held : Held),
    R (Lang.walk stage run storing links held) (Lang.walk stage run' storing links held)
  | [], held => by
    unfold Lang.walk
    cases storing with
    | none => exact c.pure _
    | some s => exact c.last (c.idle (.into s held)) fun _ => .pure _
  | link :: rest, held => by
    have hnext := walk storing rest
    unfold Lang.walk
    refine c.first (.flatten _) fun v => branch (c.pure _) ?_
    cases link with
    | property name safe pos => exact c.walkProperty hnext name pos _
    | method name args safe pos => exact c.walkMethod hrun hnext name args pos _
    | index key safe pos => exact c.walkIndex hnext key pos _

theorem evalStep (s : Step) : R (Lang.evalStep run s) (Lang.evalStep run' s) := by
  cases s with
  | property name safe pos => exact c.pure _
  | method name args safe pos =>
      exact c.last (c.mapM (fun e => c.last (hrun (.expr e)) .flatten) args) fun _ => .pure _
  | index key safe pos =>
      exact c.last (hrun (.expr key)) fun v => (Idle.flatten v).bind fun _ => .pure _

theorem evalChain (storing : Option Storing) (base : Expr) (steps : List Step) :
    R (Lang.evalChain stage run storing base steps)
      (Lang.evalChain stage run' storing base steps) := by
  refine c.bind (c.mapM (c.evalStep hrun) steps) fun links => ?_
  have walk := c.walk stage hrun storing links
  dsimp only
  split
  · refine c.first (.slot stage _ _ _) fun s => ?_
    cases s with
    | fixed v => exact c.last (walk _) .valueOf
    | var x =>
        have heldBy : Idle (Eval.heldBy x) := .alone (Built.heldBy (within_everything x))
        refine c.last (c.holding x (c.first heldBy walk)) fun u => .alone ?_
        refine (Built.forM_option fun v _ => ?_).bind fun _ _ => .valueOf (within_everything u)
        exact Built.setVar (within_everything x) (within_everything v)
  · refine c.look fun m => ?_
    split
    · exact c.raise _ _
    · refine c.last (walk _) fun u => .alone ?_
      refine (Built.forM_option fun v _ => ?_).bind fun _ _ => .valueOf (within_everything u)
      exact Built.setThis (within_everything _) (within_everything v)
  · refine c.first (.alone Built.evalMember) fun v => ?_
    exact c.last (walk _) .valueOf
  · refine c.bind (hrun _) fun v => c.first (.flatten v) fun v => ?_
    exact c.last (walk _) .valueOf

theorem store (op : Option BinaryOp) (value : Value) (pos : Pos) (target : Expr) :
    R (Lang.store stage run op value pos target) (Lang.store stage run' op value pos target) := by
  unfold Lang.store
  dsimp only
  split
  · refine c.first (.slot stage _ _ _) fun s => ?_
    cases s with
    | fixed v => exact c.raise _ _
    | var x =>
        refine c.first (.alone (Built.heldBy (within_everything x))) fun held => ?_
        exact c.first (.into _ held) fun v => c.idle (.setVar x v)
  · refine c.look fun m => ?_
    split
    · exact c.raise _ _
    · exact c.first (.into _ _) fun v => c.idle (.modifyFrame _)
  · exact c.first (.alone Built.evalMember) fun _ => c.raise _ _
  · exact c.last (c.evalChain hrun _ _ _) fun _ => .pure ()
  · exact c.raise _ _

end Walks

/-! ## Expressions -/

section Expressions

variable {stage : Stage} {run run' : Run} (hrun : ∀ job, R (run job) (run' job))
include hrun

theorem flat (e : Expr) : R (Lang.flat run e) (Lang.flat run' e) := c.last (hrun _) .flatten

theorem evalTest (e : Expr) : R (Lang.evalTest run e) (Lang.evalTest run' e) := by
  refine c.last (c.flat hrun e) fun v => ?_
  split
  · exact .pure _
  · exact .raise _ _

theorem evalArgs (args : List Expr) :
    R (Lang.evalArgs stage run args) (Lang.evalArgs stage run' args) := by
  have flats (es : List Expr) : R (es.mapM (Lang.flat run)) (es.mapM (Lang.flat run')) :=
    c.mapM (c.flat hrun) es
  unfold Lang.evalArgs
  split
  · refine c.last (flats _) fun rest => (Idle.slot stage _ _ _).bind fun s => ?_
    split
    · exact .pure _
    · refine (Idle.flatten _).bind fun v => ?_
      split <;> exact .pure _
  · refine c.last (flats _) fun rest => Idle.get.bind fun m => ?_
    split
    · exact .raise _ _
    · exact .pure _
  · exact c.last (flats _) fun _ => .pure _
  · exact c.last (flats _) fun _ => .pure _

theorem evalCall (name : String) (args : List Expr) (pos : Pos) :
    R (Lang.evalCall stage run name args pos) (Lang.evalCall stage run' name args pos) := by
  refine c.bind (c.evalArgs hrun args) fun ⟨values, receiver⟩ => ?_
  dsimp only
  rcases c.languageCall stage hrun name values (some pos) with
    ⟨hx, hy⟩ | ⟨x, y, hx, hy, hR⟩
  · rw [hx, hy]
    refine c.first (.ensureFree _ _ _) fun _ => c.first (.function? _ _) fun f => ?_
    cases f with
    | some f => exact c.last (c.callFunction hrun _ _ _ _ _) .valueOf
    | none =>
        refine c.last (c.callBuiltIn hrun _ _ _ _) fun u => .alone ?_
        refine (Built.forM_option fun v _ => ?_).bind fun _ _ => .valueOf (within_everything u)
        exact Built.keep (within_everything receiver) (within_everything v)
  · rw [hx, hy]
    exact hR

theorem evalMemberCall (path : ModulePath) (name : String) (args : List Expr) (pos : Pos) :
    R (Lang.evalMemberCall stage run path name args pos)
      (Lang.evalMemberCall stage run' path name args pos) := by
  refine c.bind (c.evalArgs hrun args) fun p => c.first (.alone Built.library) fun ms => ?_
  dsimp only
  split
  · exact c.last (c.callFunction hrun _ _ _ _ _) .valueOf
  · exact c.raise _ _

theorem evalExpr (e : Expr) : R (Lang.evalExpr stage run e) (Lang.evalExpr stage run' e) := by
  cases e with
  | literal value pos => exact c.pure _
  | builtin name pos =>
      unfold Lang.evalExpr
      dsimp only
      split
      · exact c.pure _
      · exact c.pure _
  | template parts pos => exact c.last (c.mapM (c.flat hrun) parts) fun _ => .pure _
  | array items pos => exact c.last (c.mapM (c.flat hrun) items) fun _ => .pure _
  | object fields pos =>
      refine c.last (c.mapM (fun field => ?_) fields) fun _ => .pure _
      exact c.last (c.flat hrun field.2) fun _ => .pure _
  | var name known pos =>
      exact c.idle (.bare stage (Built.readName (serves_everything _)))
  | this pos =>
      refine c.look fun m => ?_
      split
      · exact c.pure _
      · exact c.raise _ _
  | member path name pos => exact c.idle (.alone Built.evalMember)
  | call name args pos => exact c.evalCall hrun name args pos
  | memberCall path name args pos => exact c.evalMemberCall hrun path name args pos
  | unary op operand pos => exact c.last (c.flat hrun operand) fun _ => .orRaise _ _
  | binary op l r pos =>
      exact c.bind (c.flat hrun l) fun a => c.last (c.flat hrun r) fun b => .orRaise _ _
  | and l r pos =>
      refine c.bind (c.evalTest hrun l) fun b => branch ?_ (c.pure _)
      exact c.last (c.evalTest hrun r) fun _ => .pure _
  | or l r pos =>
      refine c.bind (c.evalTest hrun l) fun b => branch (c.pure _) ?_
      exact c.last (c.evalTest hrun r) fun _ => .pure _
  | coalesce l r pos =>
      refine c.bind (c.flat hrun l) fun v => ?_
      split
      · exact hrun _
      · exact c.pure _
  | chain base steps => exact c.evalChain hrun none base steps
  | control s pos =>
      cases s with
      | block body pos => exact hrun _
      | _ => exact hrun _
  | closure name captured pos =>
      exact c.idle (.bare stage (Built.evalClosure (serves_everything _)))

end Expressions

/-! ## Statements -/

section Statements

variable {stage : Stage} {run run' : Run} (hrun : ∀ job, R (run job) (run' job))
include hrun

theorem evalOption (value : Option Expr) :
    R (Lang.evalOption run value) (Lang.evalOption run' value) := by
  cases value with
  | none => exact c.pure _
  | some e => exact c.flat hrun e

theorem evalDeclare (name : String) (constant exported : Bool) (value : Option Expr) :
    R (Lang.evalDeclare run name constant exported value)
      (Lang.evalDeclare run' name constant exported value) := by
  have declare (v : Value) : Idle (declareAs name constant exported v) :=
    .alone (Built.declareAs (within_everything v))
  rw [evalDeclare_eq, evalDeclare_eq]
  cases value with
  | none => exact c.last (c.pure _) declare
  | some e => exact c.last (c.flat hrun e) declare

theorem chooseArm : ∀ arms : List (Option Expr × Stmt),
    R (Lang.chooseArm run arms) (Lang.chooseArm run' arms)
  | [] => c.pure _
  | (none, body) :: _ => c.pure _
  | (some test, body) :: rest => by
    refine c.bind (c.evalTest hrun test) fun b => branch (c.pure _) ?_
    exact chooseArm rest

theorem evalSwitch (v : Value) (arms : List (List Pattern × Option Expr × Stmt)) :
    R (Lang.evalSwitch run v arms) (Lang.evalSwitch run' v arms) := by
  refine c.bind (c.chooseArm hrun _) fun s => ?_
  split
  · exact hrun _
  · exact hrun _
  · exact c.pure _

theorem evalRound (body : List Stmt) : R (Lang.evalRound run body) (Lang.evalRound run' body) := by
  refine c.last (c.attempt (hrun _)) fun r => ?_
  split
  · exact .pure _
  · exact .pure _
  · exact .pure _
  · exact .throw _

theorem evalItem (item : String) (counter : Option String) (v : Value) (index : Nat)
    (body : List Stmt) :
    R (Lang.evalItem run item counter v index body)
      (Lang.evalItem run' item counter v index body) := by
  refine c.enclosed (c.first (.alone (Built.forM_option fun name _ => ?_)) fun _ => ?_)
  · exact Built.bindVar (within_everything _)
  · exact c.first (.bindVar item v) fun _ => c.evalRound hrun body

theorem evalTry (body : List Stmt) (caught : Option String) (handler : List Stmt) :
    R (Lang.evalTry run body caught handler) (Lang.evalTry run' body caught handler) := by
  have handled (f : Fault) :
      R (Lang.evalHandler run f caught handler) (Lang.evalHandler run' f caught handler) := by
    refine c.enclosed (c.look fun m => ?_)
    refine c.first (.alone (Built.forM_option fun name _ => ?_)) fun _ => ?_
    · exact Built.bindVar (within_everything _)
    · refine c.last (c.attempt (hrun _)) fun r => ?_
      split
      · exact .pure _
      · exact .throw _
      · exact .throw _
  refine c.bind (c.attempt (hrun _)) fun r => ?_
  split
  · exact c.pure _
  · exact branch (handled _) (c.throw _)
  · exact c.throw _

theorem evalStmt {s : Stmt} (hs : ∀ path name pos, s ≠ .importModule path name pos) :
    R (Lang.evalStmt stage run s) (Lang.evalStmt stage run' s) := by
  cases s with
  | skip => exact c.pure _
  | expr e => exact hrun _
  | declare name constant exported value pos =>
      exact c.evalDeclare hrun name constant exported value
  | assign op target value pos =>
      refine c.bind (c.flat hrun value) fun v => ?_
      exact c.last (c.store hrun op v pos target) fun _ => .pure _
  | cond test yes no pos => exact c.bind (c.evalTest hrun test) fun b => branch (hrun _) (hrun _)
  | switch e arms pos => exact c.bind (c.flat hrun e) fun v => c.evalSwitch hrun v arms
  | whileLoop test body => exact hrun _
  | doLoop body test untilTrue => exact hrun _
  | forLoop item counter items body pos =>
      refine c.bind (c.flat hrun items) fun v => c.first ?_ fun source => hrun _
      exact .alone (Built.itemsOf (within_everything v))
  | breakLoop value pos => exact c.last (c.evalOption hrun value) fun _ => .throw _
  | continueLoop pos => exact c.throw _
  | ret value pos => exact c.last (c.evalOption hrun value) fun _ => .throw _
  | throw value pos => exact c.last (c.evalOption hrun value) fun _ => .raise _ _
  | tryCatch body caught handler => exact c.evalTry hrun body caught handler
  | importModule path name pos => exact absurd rfl (hs path name pos)
  | exportVar name visible pos =>
      refine c.idle (Idle.bind (.alone Built.var?) fun v => ?_)
      cases v with
      | none => exact .raise _ _
      | some v => exact (Idle.modifyFrame _).bind fun _ => .pure _
  | block body pos => exact hrun _

theorem evalStmts : ∀ body : List Stmt, R (Lang.evalStmts run body) (Lang.evalStmts run' body)
  | [] => c.pure _
  | [_] => hrun _
  | _ :: t :: rest => c.bind (hrun _) fun _ => evalStmts (t :: rest)

theorem evalWhile (test : Option Expr) (body : List Stmt) :
    R (Lang.evalWhile run test body) (Lang.evalWhile run' test body) := by
  have goes : R (Lang.loopTest run test) (Lang.loopTest run' test) := by
    cases test with
    | none => exact c.pure true
    | some e => exact c.evalTest hrun e
  refine c.bind goes fun b => branch (c.pure _) (c.bind (c.evalRound hrun body) fun o => ?_)
  cases o with
  | some v => exact c.pure v
  | none => exact hrun _

/-- Every job but an import is related if the jobs inside it are. -/
theorem step {job : Job} (hjob : ∀ path name pos, job ≠ .stmt (.importModule path name pos)) :
    R (Lang.step stage run job) (Lang.step stage run' job) := by
  cases job with
  | expr e => exact c.evalExpr hrun e
  | stmt s => exact c.evalStmt hrun fun path name pos hs => hjob path name pos (congrArg _ hs)
  | stmts body => exact c.evalStmts hrun body
  | block body =>
      refine c.enclosed (c.first (.modifyFrame _) fun _ => ?_)
      exact c.last (c.evalStmts hrun body) .flatten
  | whileLoop test body => exact c.evalWhile hrun test body
  | doLoop body test untilTrue =>
      refine c.bind (c.evalRound hrun body) fun o => ?_
      cases o with
      | some v => exact c.pure v
      | none => exact c.bind (c.evalTest hrun test) fun b => branch (c.pure _) (hrun _)
  | forLoop item counter items index body =>
      unfold Lang.step
      dsimp only
      split
      · exact c.pure _
      · refine c.bind (c.evalItem hrun _ _ _ _ _) fun o => ?_
        cases o with
        | some v => exact c.pure v
        | none => exact hrun _

end Statements

end Congruence

/-! ## Imports that are resolved in another way -/

/-- The library for an import, which `resolve` finds if it is not kept. -/
def importBy (resolve : String → Place → Eval Module) (text : String) (pos : Place) :
    Eval Module := do
  match Module.find? text (← get).frame.kept with
  | some m => return m
  | none => resolve text pos

/-- An `import`, where `resolve` finds the libraries. -/
def evalImportBy (resolve : String → Place → Eval Module) (run : Run) (path : Expr)
    (name : Option String) (pos : Pos) : Eval Value := do
  match ← flat run path with
  | .str text =>
    let m ← importBy resolve text (some pos)
    name.forM fun name => Eval.modifyFrame fun f => { f with imports := (name, m) :: f.imports }
    return .unit
  | v => Eval.raise (.wrongType v.typeName "string") (some path.pos)

/-- Does one job, where `resolve` finds the libraries. -/
def stepBy (stage : Stage) (resolve : String → Place → Eval Module) (run : Run) (job : Job) :
    Eval Value :=
  match job with
  | .stmt (.importModule path name pos) => evalImportBy resolve run path name pos
  | job => step stage run job

theorem stepBy_resolveLibrary (stage : Stage) (run : Run) :
    stepBy stage (resolveLibrary stage run) run = step stage run := by
  funext job
  unfold stepBy
  split <;> rfl

namespace Congruence

variable {R : ∀ {α : Type}, Eval α → Eval α → Prop} (c : Congruence R) {stage : Stage}
  {run run' : Run} (hrun : ∀ job, R (run job) (run' job))
include c hrun

theorem evaluateLibrary (script : Script) :
    R (Lang.evaluateLibrary run script) (Lang.evaluateLibrary run' script) := by
  rw [evaluateLibrary_eq, evaluateLibrary_eq]
  refine c.apart (hrun _) fun inner r => ?_
  unfold moduleFrom
  split
  · exact c.pure _
  · exact c.pure _
  · exact c.pure _
  · exact c.throw _

theorem readLibrary (file : FilePath) :
    R (Lang.readLibrary run file) (Lang.readLibrary run' file) := by
  refine c.look fun m => ?_
  split
  · exact c.raise _ _
  · split
    · exact c.raise _ _
    · exact c.evaluateLibrary hrun _

/-- To load a library is to evaluate it or to find it, and then to keep it. -/
theorem loadLibrary {file : FilePath}
    (hkeep : ∀ modified module,
      R (keepModule file modified module) (keepModule file modified module))
    (text : String) (pos : Place) :
    R (Lang.loadLibrary stage run file text pos) (Lang.loadLibrary stage run' file text pos) := by
  have fresh (modified : Option Instant) : R (readAnew stage run file modified text pos)
      (readAnew stage run' file modified text pos) := by
    refine c.bind (c.last (c.attempt (c.readLibrary hrun file)) fun r => ?_) fun module => ?_
    · split
      · exact .pure _
      · exact .throw _
      · exact .throw _
    · refine c.first (.bare stage (Built.effect (.record _) trivial (.library _ _))) fun _ => ?_
      exact c.last (hkeep modified module) fun _ => .pure _
  refine c.look fun m => ?_
  rw [fetchLibrary_eq, fetchLibrary_eq]
  refine c.look fun m' => ?_
  split
  · split
    · exact c.pure _
    · exact fresh _
  · exact fresh _

/-- Every job is related if the jobs inside it are, and the ways to resolve imports. -/
theorem stepBy {resolve resolve' : String → Place → Eval Module}
    (hresolve : ∀ text pos, R (resolve text pos) (resolve' text pos)) (job : Job) :
    R (Lang.stepBy stage resolve run job) (Lang.stepBy stage resolve' run' job) := by
  unfold Lang.stepBy
  split
  · rename_i path name pos
    refine c.bind (c.flat hrun path) fun v => ?_
    cases v with
    | str text =>
        refine c.last (c.look fun m => ?_) fun module =>
          (Idle.bring name module).bind fun _ => .pure _
        split
        · exact c.pure _
        · exact hresolve _ _
    | _ => exact c.raise _ _
  · rename_i hjob
    exact c.step hrun hjob

end Congruence

/-- The first run is put together from jobs and imports as the second is from other ways to do them;
all else has no part in either. -/
def Woven (run run' : Run) (resolve resolve' : String → Place → Eval Module) {α : Type}
    (x y : Eval α) : Prop :=
  ∀ R : (∀ {β : Type}, Eval β → Eval β → Prop), Congruence R → (∀ job, R (run job) (run' job)) →
    (∀ text pos, R (resolve text pos) (resolve' text pos)) → R x y

/-- The run is put together from such jobs and imports. -/
abbrev Made (run : Run) (resolve : String → Place → Eval Module) {α : Type} (x : Eval α) : Prop :=
  Woven run run resolve resolve x x

end Stagehand.Lang
