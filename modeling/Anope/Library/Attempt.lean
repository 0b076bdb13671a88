import Mathlib.Data.List.TakeWhile

/-!
# Programs that fail and keep their state

Programs with a state and exceptions, where an exception leaves the state as it
was when it was thrown.  A step that checks before it has an effect, and what a
loop of such steps leaves behind.
-/

namespace Library.Attempt

universe u

variable {ε σ α β ι : Type u}

/-- Throw what a computation without a state throws. -/
def attempt (result : Except ε α) : EStateM ε σ α := fun state =>
  match result with
  | .ok value => .ok value state
  | .error exception => .error exception state

theorem attempt_ok {result : Except ε α} {value : α} (is : result = .ok value) (state : σ) :
    attempt result state = .ok value state := by
  rw [is]
  rfl

theorem attempt_error {result : Except ε α} {exception : ε} (is : result = .error exception)
    (state : σ) : attempt result state = .error exception state := by
  rw [is]
  rfl

theorem bind_of_ok {program : EStateM ε σ α} {value : α} {state next : σ}
    (is : program state = .ok value next) (rest : α → EStateM ε σ β) :
    (program >>= rest) state = rest value next := by
  change EStateM.bind program rest state = _
  rw [EStateM.bind, is]

theorem bind_of_error {program : EStateM ε σ α} {exception : ε} {state next : σ}
    (is : program state = .error exception next) (rest : α → EStateM ε σ β) :
    (program >>= rest) state = .error exception next := by
  change EStateM.bind program rest state = _
  rw [EStateM.bind, is]

theorem get_bind (rest : σ → EStateM ε σ β) (state : σ) :
    (get >>= rest) state = rest state state :=
  rfl

theorem modify_bind (change : σ → σ) (rest : PUnit → EStateM ε σ β) (state : σ) :
    (modify change >>= rest) state = rest ⟨⟩ (change state) :=
  rfl

/-! ## Steps that check first -/

/-- The items ahead of the first that fails its check. -/
def passed (check : ι → Except ε PUnit) (items : List ι) : List ι :=
  items.takeWhile fun item => (check item).isOk

/-- A step with a check and an effect. -/
def step (check : ι → Except ε PUnit) (effect : ι → σ → σ) (item : ι) : EStateM ε σ PUnit := do
  attempt (check item)
  modify (effect item)

variable {check : ι → Except ε PUnit} {effect : ι → σ → σ} {item : ι} {items : List ι}

theorem passed_cons_of_ok (ok : check item = .ok ⟨⟩) :
    passed check (item :: items) = item :: passed check items := by
  apply List.takeWhile_cons_of_pos
  rw [ok]
  rfl

theorem passed_cons_of_error {exception : ε} (fails : check item = .error exception) :
    passed check (item :: items) = [] := by
  apply List.takeWhile_cons_of_neg
  rw [fails]
  exact Bool.false_ne_true

theorem passed_eq_self (ok : ∀ item ∈ items, check item = .ok ⟨⟩) : passed check items = items := by
  apply List.takeWhile_eq_self_iff.mpr
  intro item mem
  rw [ok item mem]
  rfl

variable (effect) in
theorem step_of_ok (ok : check item = .ok ⟨⟩) (state : σ) :
    step check effect item state = .ok ⟨⟩ (effect item state) :=
  bind_of_ok (attempt_ok ok state) _

variable (effect) in
theorem step_of_error {exception : ε} (fails : check item = .error exception) (state : σ) :
    step check effect item state = .error exception state :=
  bind_of_error (attempt_error fails state) _

/-- A loop whose items pass has all effects. -/
theorem forM_of_ok (ok : ∀ item ∈ items, check item = .ok ⟨⟩) (state : σ) :
    items.forM (step check effect) state =
      .ok ⟨⟩ (items.foldl (fun state item => effect item state) state) := by
  induction items generalizing state with
  | nil => rfl
  | cons item items ih =>
      have passes := step_of_ok effect (ok item List.mem_cons_self) state
      change (step check effect item >>= fun _ => items.forM (step check effect)) state = _
      rw [bind_of_ok passes]
      exact ih (fun later mem => ok later (List.mem_cons_of_mem item mem)) _

variable (effect) in
/-- A loop with an item that fails has the effects of the items ahead of it. -/
theorem forM_of_not_all (fails : ¬∀ item ∈ items, check item = .ok ⟨⟩) (state : σ) :
    ∃ exception, items.forM (step check effect) state =
      .error exception
        ((passed check items).foldl (fun state item => effect item state) state) := by
  induction items generalizing state with
  | nil => exact absurd (fun item mem => absurd mem List.not_mem_nil) fails
  | cons item items ih =>
      cases first : check item with
      | error exception =>
          refine ⟨exception, ?_⟩
          have stops := step_of_error effect first state
          change (step check effect item >>= fun _ => items.forM (step check effect)) state = _
          rw [bind_of_error stops, passed_cons_of_error first]
          rfl
      | ok value =>
          have later : ¬∀ item ∈ items, check item = .ok ⟨⟩ := fun ok =>
            fails (List.forall_mem_cons.mpr ⟨first, ok⟩)
          rcases ih later (effect item state) with ⟨exception, stops⟩
          refine ⟨exception, ?_⟩
          have passes := step_of_ok effect first state
          change (step check effect item >>= fun _ => items.forM (step check effect)) state = _
          rw [bind_of_ok passes, passed_cons_of_ok first]
          exact stops

end Library.Attempt
