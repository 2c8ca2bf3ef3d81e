import Mathlib.Data.List.Perm.Subperm
import Stagehand.Proofs.Congruence

/-!
# Guarded imports

What would become of a run if imports were treated in another way is said by an evaluator with a
guard at the imports, `evaluateGuarded`. Guards are compared by one lemma (`Permits.evaluate`): a
run without an answer where the guard refuses is the start of a run behind a guard that refuses
less, and without any guard it is the run itself.
-/

namespace Stagehand.Lang

/-! ## Runs that go on from where others stop -/

/-- Where the first run ends, the second ends with the same. -/
def Extends {α : Type} (x y : Eval α) : Prop := ∀ m r, x m = some r → y m = some r

theorem Extends.refl {α : Type} (x : Eval α) : Extends x x := fun _ _ h => h

theorem extends_congruence : Congruence Extends where
  idle _ := .refl _
  bind hx hf m r h := by
    obtain ⟨⟨r₁, m₁⟩, h₁, h⟩ := Option.bind_eq_some_iff.mp h
    refine Option.bind_eq_some_iff.mpr ⟨(r₁, m₁), hx m _ h₁, ?_⟩
    cases r₁ with
    | ok a => exact hf a m₁ r h
    | error halt => exact h
  attempt hx m r h := by
    obtain ⟨r₁, h₁, h⟩ := Option.bind_eq_some_iff.mp h
    exact Option.bind_eq_some_iff.mpr ⟨r₁, hx m r₁ h₁, h⟩

/-! ## Guarded imports -/

section Guarded

variable {σ : Type} (stage : Stage) (gate : σ → FilePath → Option σ)
  (answer : String → Place → Eval Module)

/-- The library that the text of an import names, if the guard admits its file; the guard changes
its mind while that is loaded. -/
def resolveGuarded (next : σ → Run) (s : σ) (text : String) (pos : Place) : Eval Module :=
  match stage.libraries.path? text with
  | none => Eval.raise (.moduleNotFound text) pos
  | some file =>
    match gate s file with
    | some s' => loadLibrary stage (next s') file text pos
    | none => answer text pos

/-- Does a job, with a guard at all imports and an answer to those that it does not gate. -/
def evaluateGuarded : Nat → σ → Run
  | 0, _, _ => fun _ => none
  | budget + 1, s, job =>
    stepBy stage (resolveGuarded stage gate answer (evaluateGuarded budget) s)
      (evaluateGuarded budget s) job

end Guarded

/-- No answer. -/
def unanswered : String → Place → Eval Module := fun _ _ _ => none

/-- The answer that there is no such library. -/
def refused : String → Place → Eval Module := fun text pos => Eval.raise (.moduleNotFound text) pos

/-- Admits every library. -/
def always : Unit → FilePath → Option Unit := fun _ _ => some ()

/-- Admits a library unless it is being loaded; the innermost load comes first. -/
def unlessUnderway (underway : List FilePath) (file : FilePath) : Option (List FilePath) :=
  if file ∈ underway then none else some (file :: underway)

/-- Admits so many loads inside one another. -/
def upToDepth : Nat → FilePath → Option Nat
  | 0, _ => none
  | depth + 1, _ => some depth

/-- Admits all libraries but these. -/
def avoiding (files : List FilePath) : Unit → FilePath → Option Unit :=
  fun _ file => if file ∈ files then none else some ()

section Guards

variable {σ τ : Type} {stage : Stage} {gate : σ → FilePath → Option σ}
  {gate' : τ → FilePath → Option τ} {answer answer' : String → Place → Eval Module}

theorem resolveGuarded_always (answer : String → Place → Eval Module) (run : Run) :
    resolveGuarded stage always answer (fun _ => run) () = resolveLibrary stage run := by
  funext text pos
  unfold resolveGuarded resolveLibrary
  cases stage.libraries.path? text <;> rfl

theorem evaluateGuarded_always (answer : String → Place → Eval Module) : ∀ budget,
    evaluateGuarded stage always answer budget () = evaluate stage budget
  | 0 => rfl
  | budget + 1 => by
    funext job
    have hnext : evaluateGuarded stage always answer budget = fun _ => evaluate stage budget :=
      funext fun _ => evaluateGuarded_always answer budget
    rw [evaluateGuarded, hnext, resolveGuarded_always, stepBy_resolveLibrary]
    rfl

theorem unanswered_extends (text : String) (pos : Place) (x : Eval Module) :
    Extends (unanswered text pos) x := fun _ _ h => nomatch h

/-- The second guard admits what the first one does, and where the first one does not, either there
is no answer or both answer in the same way. -/
structure Permits (stage : Stage) (gate : σ → FilePath → Option σ)
    (answer : String → Place → Eval Module) (gate' : τ → FilePath → Option τ)
    (answer' : String → Place → Eval Module) (R : σ → τ → Prop) : Prop where
  admits : ∀ s t file s', R s t → file ∈ stage.libraries.files.map Prod.snd →
    gate s file = some s' → ∃ t', gate' t file = some t' ∧ R s' t'
  answers : ∀ s t file, R s t → gate s file = none →
    answer = unanswered ∨ gate' t file = none ∧ answer = answer'

theorem Permits.resolve {R : σ → τ → Prop} (h : Permits stage gate answer gate' answer' R)
    {next : σ → Run} {next' : τ → Run}
    (hnext : ∀ s t, R s t → ∀ job, Extends (next s job) (next' t job)) {s : σ} {t : τ}
    (hR : R s t) (text : String) (pos : Place) :
    Extends (resolveGuarded stage gate answer next s text pos)
      (resolveGuarded stage gate' answer' next' t text pos) := by
  unfold resolveGuarded
  cases hpath : stage.libraries.path? text with
  | none => exact .refl _
  | some file =>
      dsimp only
      cases hs : gate s file with
      | none =>
          rcases h.answers s t file hR hs with rfl | ⟨ht, rfl⟩
          · exact unanswered_extends text pos _
          · rw [ht]
            exact .refl _
      | some s' =>
          obtain ⟨t', ht, hR'⟩ := h.admits s t file s' hR (Libraries.indexed_of_path? hpath) hs
          rw [ht]
          exact extends_congruence.loadLibrary (hnext s' t' hR') (fun _ _ => .refl _) text pos

/-- A guard that admits as much and a budget that is as large take a run at least as far. -/
theorem Permits.evaluate {R : σ → τ → Prop} (h : Permits stage gate answer gate' answer' R) :
    ∀ {budget budget' : Nat}, budget ≤ budget' → ∀ s t, R s t → ∀ job,
      Extends (evaluateGuarded stage gate answer budget s job)
        (evaluateGuarded stage gate' answer' budget' t job)
  | 0, _, _, _, _, _, _ => fun _ _ h => nomatch h
  | budget + 1, budget' + 1, hle, s, t, hR, job => by
    have hnext := h.evaluate (Nat.le_of_succ_le_succ hle)
    exact extends_congruence.stepBy (hnext s t hR) (h.resolve hnext hR) job

/-- Every guard permits what it permits itself. -/
theorem Permits.refl : Permits stage gate answer gate answer Eq where
  admits _ _ _ s' hst _ hs := ⟨s', hst ▸ hs, rfl⟩
  answers _ _ _ hst hs := .inr ⟨hst ▸ hs, rfl⟩

/-- No guard permits everything that is permitted by a guard without answers. -/
theorem Permits.always : Permits stage gate unanswered Lang.always unanswered fun _ _ => True where
  admits _ _ _ _ _ _ _ := ⟨(), rfl, trivial⟩
  answers _ _ _ _ _ := .inl rfl

/-- A budget that is enough yields the same as any larger one. -/
theorem evaluate_extends {budget budget' : Nat} (hle : budget ≤ budget') (job : Job) :
    Extends (evaluate stage budget job) (evaluate stage budget' job) := by
  rw [← evaluateGuarded_always unanswered, ← evaluateGuarded_always unanswered]
  exact Permits.refl.evaluate hle () () rfl job

/-- Libraries that are loaded inside one another: different ones of the index, so that there can be
no more of them than `depth` others. -/
structure Underway (libraries : Libraries) (underway : List FilePath) (depth : Nat) : Prop where
  nodup : underway.Nodup
  indexed : underway ⊆ libraries.files.map Prod.snd
  fits : libraries.files.length ≤ underway.length + depth

theorem Underway.nothing (libraries : Libraries) :
    Underway libraries [] libraries.files.length where
  nodup := List.nodup_nil
  indexed := List.nil_subset _
  fits := Nat.le_add_left _ _

theorem Underway.next {libraries : Libraries} {u u' : List FilePath} {depth : Nat} {file : FilePath}
    (h : Underway libraries u depth) (hfile : file ∈ libraries.files.map Prod.snd)
    (hs : unlessUnderway u file = some u') :
    ∃ depth', upToDepth depth file = some depth' ∧ Underway libraries u' depth' := by
  unfold unlessUnderway at hs
  split at hs
  · nomatch hs
  · rename_i hnew
    cases hs
    have hnodup : (file :: u).Nodup := List.nodup_cons.mpr ⟨hnew, h.nodup⟩
    have hindexed : file :: u ⊆ libraries.files.map Prod.snd :=
      List.cons_subset.mpr ⟨hfile, h.indexed⟩
    have hle := (List.subperm_of_subset hnodup hindexed).length_le
    rw [List.length_map] at hle
    have hfits := h.fits
    cases depth with
    | zero => exact absurd hle (Nat.not_le.mpr (Nat.lt_succ_of_le hfits))
    | succ depth => exact ⟨depth, rfl, hnodup, hindexed, by rw [List.length_cons]; omega⟩

/-- Loads of different libraries go no deeper than there are libraries. -/
theorem Permits.upToDepth :
    Permits stage unlessUnderway unanswered Lang.upToDepth unanswered
      (Underway stage.libraries) where
  admits _ _ _ _ hu hfile hs := hu.next hfile hs
  answers _ _ _ _ _ := .inl rfl

end Guards

end Stagehand.Lang
