import Mathlib.Tactic.Common

/-!
# Runs of labelled partial transitions

A system is a function from a state and an action to the next state, partial
where an action is not possible.  The rules below turn step lemmas into run
lemmas: an invariant under a condition on the steps holds along every run whose
steps meet it, and an invariant that a step keeps exactly under the condition
characterises these runs.
-/

namespace Library.Run

universe u v

variable {σ : Type u} {α : Type v} {step : σ → α → Option σ}

/-- The state after a sequence of actions. -/
def run (step : σ → α → Option σ) : σ → List α → Option σ
  | state, [] => some state
  | state, action :: actions => (step state action).bind fun next => run step next actions

/-- A condition holds before every step of a run. -/
def EachStep (step : σ → α → Option σ) (condition : σ → α → Prop) : σ → List α → Prop
  | _, [] => True
  | state, action :: actions =>
      ∀ next, step state action = some next →
        condition state action ∧ EachStep step condition next actions

/-- A property holds in every state of a run, the first and the last included. -/
def Always (step : σ → α → Option σ) (property : σ → Prop) : σ → List α → Prop
  | state, [] => property state
  | state, action :: actions =>
      property state ∧
        ∀ next, step state action = some next → Always step property next actions

theorem Always.head {property : σ → Prop} {state : σ} {actions : List α}
    (always : Always step property state actions) : property state := by
  cases actions with
  | nil => exact always
  | cons action actions => exact always.1

theorem run_append (state : σ) (first second : List α) :
    run step state (first ++ second) =
      (run step state first).bind fun next => run step next second := by
  induction first generalizing state with
  | nil => rfl
  | cons action first ih =>
      rw [List.cons_append, run, run, Option.bind_assoc]
      exact congrArg (step state action).bind (funext ih)

/-- What always holds holds in the state reached. -/
theorem Always.of_run {property : σ → Prop} {state final : σ} {actions : List α}
    (always : Always step property state actions) (reached : run step state actions = some final) :
    property final := by
  induction actions generalizing state with
  | nil =>
      cases reached
      exact always
  | cons action actions ih =>
      simp only [run, Option.bind_eq_some_iff] at reached
      obtain ⟨next, stepped, rest⟩ := reached
      exact ih (always.2 next stepped) rest

theorem Always.imp {property weaker : σ → Prop} (implies : ∀ state, property state → weaker state)
    {state : σ} {actions : List α} (always : Always step property state actions) :
    Always step weaker state actions := by
  induction actions generalizing state with
  | nil => exact implies state always
  | cons action actions ih =>
      exact ⟨implies state always.1, fun next stepped => ih (always.2 next stepped)⟩

/-- Properties that are the same where an invariant holds always hold in the same runs. -/
theorem always_congr (invariant : σ → Prop) {property property' : σ → Prop}
    (keeps : ∀ {state action next}, invariant state → step state action = some next →
      invariant next)
    (same : ∀ {state}, invariant state → (property state ↔ property' state))
    {state : σ} (initially : invariant state) (actions : List α) :
    Always step property state actions ↔ Always step property' state actions := by
  induction actions generalizing state with
  | nil => exact same initially
  | cons action actions ih =>
      refine and_congr (same initially) (forall_congr' fun next => forall_congr' fun stepped => ?_)
      exact ih (keeps initially stepped)

/-- A condition that every step meets holds before every step of a run. -/
theorem eachStep_of_forall {condition : σ → α → Prop}
    (met : ∀ state action, condition state action) {state : σ} {actions : List α} :
    EachStep step condition state actions := by
  induction actions generalizing state with
  | nil => trivial
  | cons action actions ih => exact fun next _ => ⟨met state action, ih⟩

/-- A run can be checked for a condition that can be decided. -/
instance decidableEachStep {condition : σ → α → Prop}
    [∀ state action, Decidable (condition state action)] :
    (state : σ) → (actions : List α) → Decidable (EachStep step condition state actions)
  | _, [] => .isTrue trivial
  | state, action :: actions =>
      match stepped : step state action with
      | none =>
          .isTrue fun _ isNext => absurd (stepped.symm.trans isNext) (Option.some_ne_none _).symm
      | some next =>
          haveI : Decidable (EachStep step condition next actions) :=
            decidableEachStep next actions
          decidable_of_iff (condition state action ∧ EachStep step condition next actions)
            ⟨fun met _ isOther => Option.some.inj (stepped.symm.trans isOther) ▸ met,
              fun each => each next stepped⟩

/-- Conditions that are the same are met by the same runs. -/
theorem eachStep_congr {condition condition' : σ → α → Prop}
    (same : ∀ state action, condition state action ↔ condition' state action)
    {state : σ} {actions : List α} :
    EachStep step condition state actions ↔ EachStep step condition' state actions := by
  have equal : condition = condition' := funext₂ fun state action => propext (same state action)
  rw [equal]

/-- Conditions that are the same where an invariant holds are met by the same runs. -/
theorem eachStep_congr_of_kept (invariant : σ → Prop) {condition condition' : σ → α → Prop}
    (keeps : ∀ {state action next}, invariant state → step state action = some next →
      invariant next)
    (same : ∀ {state}, invariant state → ∀ action,
      (condition state action ↔ condition' state action))
    {state : σ} (initially : invariant state) (actions : List α) :
    EachStep step condition state actions ↔ EachStep step condition' state actions := by
  induction actions generalizing state with
  | nil => exact Iff.rfl
  | cons action actions ih =>
      refine forall_congr' fun next => forall_congr' fun stepped => ?_
      exact and_congr (same initially action) (ih (keeps initially stepped))

/-- The condition that a step of a run meets. -/
theorem EachStep.of_run {condition : σ → α → Prop} {state middle next : σ} {action : α}
    {before after : List α} (conditions : EachStep step condition state (before ++ action :: after))
    (reached : run step state before = some middle) (stepped : step middle action = some next) :
    condition middle action := by
  induction before generalizing state with
  | nil =>
      cases reached
      exact (conditions next stepped).1
  | cons first before ih =>
      obtain ⟨other, isOther, rest⟩ := Option.bind_eq_some_iff.mp reached
      exact ih (conditions other isOther).2 rest

theorem EachStep.cons {condition : σ → α → Prop} {state next : σ} {action : α} {actions : List α}
    (met : condition state action) (stepped : step state action = some next)
    (rest : EachStep step condition next actions) :
    EachStep step condition state (action :: actions) := by
  intro other isOther
  cases stepped.symm.trans isOther
  exact ⟨met, rest⟩

/-- Invariant rule: an invariant that every step keeps under a condition holds
along every run whose steps meet the condition. -/
theorem always_of_eachStep {invariant : σ → Prop} {condition : σ → α → Prop}
    (keeps : ∀ {state action next}, invariant state → condition state action →
      step state action = some next → invariant next)
    {state : σ} (initially : invariant state) {actions : List α}
    (conditions : EachStep step condition state actions) :
    Always step invariant state actions := by
  induction actions generalizing state with
  | nil => exact initially
  | cons action actions ih =>
      refine ⟨initially, fun next stepped => ?_⟩
      obtain ⟨met, rest⟩ := conditions next stepped
      exact ih (keeps initially met stepped) rest

/-- Invariant rule without a condition. -/
theorem always_of_step {invariant : σ → Prop}
    (keeps : ∀ {state action next}, invariant state → step state action = some next →
      invariant next)
    {state : σ} (initially : invariant state) (actions : List α) :
    Always step invariant state actions := by
  induction actions generalizing state with
  | nil => exact initially
  | cons action actions ih =>
      exact ⟨initially, fun next stepped => ih (keeps initially stepped)⟩

/-- Exactness rule: when a step from a state with the property keeps it exactly
under the condition, the property holds along a run exactly when every step
meets the condition.  `support` is what holds as long as the property does. -/
theorem always_iff_eachStep_of_kept (support : σ → Prop) {property : σ → Prop}
    {condition : σ → α → Prop}
    (supported : ∀ {state action next}, support state → property state → property next →
      step state action = some next → support next)
    (exact_step : ∀ {state action next}, support state → property state →
      step state action = some next → (property next ↔ condition state action))
    {state : σ} (support_state : support state) (initially : property state)
    (actions : List α) :
    Always step property state actions ↔ EachStep step condition state actions := by
  induction actions generalizing state with
  | nil => exact iff_of_true initially trivial
  | cons action actions ih =>
      constructor
      · rintro ⟨_, rest⟩ next stepped
        have after := rest next stepped
        have kept := after.head
        exact ⟨(exact_step support_state initially stepped).mp kept,
          (ih (supported support_state initially kept stepped) kept).mp after⟩
      · intro conditions
        refine ⟨initially, fun next stepped => ?_⟩
        obtain ⟨met, rest⟩ := conditions next stepped
        have kept := (exact_step support_state initially stepped).mpr met
        exact (ih (supported support_state initially kept stepped) kept).mpr rest

/-- The exactness rule with a support that every step keeps. -/
theorem always_iff_eachStep (support : σ → Prop) {property : σ → Prop}
    {condition : σ → α → Prop}
    (supported : ∀ {state action next}, support state → step state action = some next →
      support next)
    (exact_step : ∀ {state action next}, support state → property state →
      step state action = some next → (property next ↔ condition state action))
    {state : σ} (support_state : support state) (initially : property state)
    (actions : List α) :
    Always step property state actions ↔ EachStep step condition state actions :=
  always_iff_eachStep_of_kept support (fun supportState _ _ stepped =>
    supported supportState stepped) exact_step support_state initially actions

end Library.Run
