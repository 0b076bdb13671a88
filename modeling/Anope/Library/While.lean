import Mathlib.Logic.Relation
import Mathlib.Tactic.Common

/-!
# Loops without a bound

A loop is the repetition of a body that goes on with a state or ends with a
result.  Such a loop may run forever.  The rules below say when it ends, with what,
and when it does not.
-/

namespace Library.While

universe u v

variable {σ : Type u} {ρ : Type v}

/-- What a pass of a loop does. -/
inductive Pass (σ : Type u) (ρ : Type v) where
  | goOn (state : σ)
  | done (result : ρ)
  deriving DecidableEq, Repr

/-- The result of a loop, when some number of passes is enough to reach it. -/
def within (body : σ → Pass σ ρ) : Nat → σ → Option ρ
  | 0, _ => none
  | passes + 1, state =>
      match body state with
      | .goOn next => within body passes next
      | .done result => some result

/-- The loop ends with a result. -/
def Ends (body : σ → Pass σ ρ) (state : σ) (result : ρ) : Prop :=
  ∃ passes, within body passes state = some result

/-- The loop does not end. -/
def Diverges (body : σ → Pass σ ρ) (state : σ) : Prop :=
  ∀ passes, within body passes state = none

/-- Some passes lead from a state to another one. -/
def Reaches (body : σ → Pass σ ρ) : σ → σ → Prop :=
  Relation.ReflTransGen fun state next => body state = .goOn next

/-- A condition holds before each of so many passes. -/
def EachPass (body : σ → Pass σ ρ) (condition : σ → Prop) : Nat → σ → Prop
  | 0, _ => True
  | passes + 1, state =>
      condition state ∧
        match body state with
        | .goOn next => EachPass body condition passes next
        | .done _ => True

instance decidableEachPass (body : σ → Pass σ ρ) (condition : σ → Prop) [DecidablePred condition] :
    (passes : Nat) → (state : σ) → Decidable (EachPass body condition passes state)
  | 0, _ => .isTrue trivial
  | passes + 1, state => by
      unfold EachPass
      have rest (next : σ) := decidableEachPass body condition passes next
      split <;> infer_instance

variable {body : σ → Pass σ ρ} {state next : σ} {result result' : ρ}

theorem within_of_goOn (isNext : body state = .goOn next) (passes : Nat) :
    within body (passes + 1) state = within body passes next := by
  rw [within, isNext]

theorem within_of_done (isDone : body state = .done result) (passes : Nat) :
    within body (passes + 1) state = some result := by
  rw [within, isDone]

/-- More passes do not change a result. -/
theorem within_mono {passes passes' : Nat} (le : passes ≤ passes')
    (reached : within body passes state = some result) :
    within body passes' state = some result := by
  induction passes generalizing state passes' with
  | zero => cases reached
  | succ passes ih =>
      obtain ⟨more, rfl⟩ := Nat.exists_eq_add_of_le' (Nat.le_trans (Nat.succ_pos passes) le)
      cases pass : body state with
      | goOn next =>
          rw [within_of_goOn pass] at reached ⊢
          exact ih (Nat.le_of_succ_le_succ le) reached
      | done result =>
          rw [within_of_done pass] at reached ⊢
          exact reached

theorem Ends.unique (ends : Ends body state result) (ends' : Ends body state result') :
    result = result' := by
  obtain ⟨passes, reached⟩ := ends
  obtain ⟨passes', reached'⟩ := ends'
  have first := within_mono (Nat.le_max_left passes passes') reached
  have second := within_mono (Nat.le_max_right passes passes') reached'
  exact Option.some.inj (first.symm.trans second)

theorem ends_of_done (isDone : body state = .done result) : Ends body state result :=
  ⟨1, within_of_done isDone 0⟩

theorem ends_of_goOn (isNext : body state = .goOn next) (ends : Ends body next result) :
    Ends body state result := by
  obtain ⟨passes, reached⟩ := ends
  exact ⟨passes + 1, (within_of_goOn isNext passes).trans reached⟩

theorem reaches_of_goOn (isNext : body state = .goOn next) : Reaches body state next :=
  .single isNext

/-- A loop ends in the same way from a state that it comes to. -/
theorem Reaches.ends (reaches : Reaches body state next) (ends : Ends body next result) :
    Ends body state result := by
  induction reaches using Relation.ReflTransGen.head_induction_on with
  | refl => exact ends
  | head isNext _ ih => exact ends_of_goOn isNext ih

theorem diverges_iff : Diverges body state ↔ ∀ result, ¬Ends body state result := by
  constructor
  · rintro diverges result ⟨passes, reached⟩
    cases (diverges passes).symm.trans reached
  · intro none passes
    cases reached : within body passes state with
    | none => rfl
    | some result => exact absurd ⟨passes, reached⟩ (none result)

/-- Termination rule: a loop ends when every pass that goes on keeps an invariant and
makes a measure smaller; the measure bounds the number of passes. -/
theorem within_of_measure (invariant : σ → Prop) (size : σ → Nat)
    (pass : ∀ {state next}, invariant state → body state = .goOn next →
      invariant next ∧ size next < size state)
    {passes : Nat} (initially : invariant state) (enough : size state < passes) :
    ∃ result, within body passes state = some result := by
  induction passes generalizing state with
  | zero => cases enough
  | succ passes ih =>
      cases isNext : body state with
      | goOn next =>
          obtain ⟨kept, smaller⟩ := pass initially isNext
          rw [within_of_goOn isNext]
          exact ih kept (Nat.lt_of_lt_of_le smaller (Nat.le_of_lt_succ enough))
      | done result => exact ⟨result, within_of_done isNext passes⟩

/-- A loop does not end from a state with an invariant under which every pass goes on. -/
theorem diverges_of_invariant (invariant : σ → Prop)
    (pass : ∀ {state}, invariant state → ∃ next, body state = .goOn next ∧ invariant next)
    (initially : invariant state) : Diverges body state := by
  intro passes
  induction passes generalizing state with
  | zero => rfl
  | succ passes ih =>
      obtain ⟨next, isNext, kept⟩ := pass initially
      rw [within_of_goOn isNext]
      exact ih kept

/-- Result rule: the result has what every pass that ends the loop gives it under an
invariant. -/
theorem Ends.of_passes (invariant : σ → Prop) {property : ρ → Prop}
    (pass : ∀ {state next}, invariant state → body state = .goOn next → invariant next)
    (last : ∀ {state result}, invariant state → body state = .done result → property result)
    (initially : invariant state) (ends : Ends body state result) : property result := by
  obtain ⟨passes, reached⟩ := ends
  induction passes generalizing state with
  | zero => cases reached
  | succ passes ih =>
      cases isNext : body state with
      | goOn next =>
          rw [within_of_goOn isNext] at reached
          exact ih (pass initially isNext) reached
      | done final =>
          rw [within_of_done isNext] at reached
          exact Option.some.inj reached ▸ last initially isNext

end Library.While
