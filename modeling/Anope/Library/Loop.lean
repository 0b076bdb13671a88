import Mathlib.Data.Option.Basic
import Mathlib.Tactic.Common

/-!
# Loops that may stop

A loop whose body may end it early is a fold in `Option`.  The rules below lift
what one pass does to the whole loop: a reflexive and transitive relation of the
states before and after, and a relation between two runs of the loop, which may
depend on the passes still to come.
-/

namespace Library.Loop

universe u v w

variable {α : Type u} {σ : Type v} {τ : Type w}

/-- What holds between the states before and after every pass holds between the
first and the last state. -/
theorem foldlM_preorder (relation : σ → σ → Prop)
    (refl : ∀ state : σ, relation state state)
    (trans : ∀ {first second third}, relation first second → relation second third →
      relation first third)
    {body : σ → α → Option σ} {items : List α}
    (pass : ∀ {state item next}, item ∈ items → body state item = some next →
      relation state next)
    {state final : σ} (ran : items.foldlM body state = some final) :
    relation state final := by
  induction items generalizing state with
  | nil =>
      cases ran
      exact refl _
  | cons item items ih =>
      rw [List.foldlM_cons, Option.bind_eq_bind, Option.bind_eq_some_iff] at ran
      rcases ran with ⟨next, passed, rest⟩
      have first := pass List.mem_cons_self passed
      exact trans first (ih (fun mem => pass (List.mem_cons_of_mem _ mem)) rest)

/-- Two loops over the same items stay related when every pass keeps them
related; `relation` may mention the items that are left. -/
theorem foldlM_rel (relation : List α → σ → τ → Prop) {body : σ → α → Option σ}
    {body' : τ → α → Option τ}
    (pass : ∀ {item items state state'}, relation (item :: items) state state' →
      Option.Rel (relation items) (body state item) (body' state' item))
    {items : List α} {state : σ} {state' : τ} (related : relation items state state') :
    Option.Rel (relation []) (items.foldlM body state) (items.foldlM body' state') := by
  induction items generalizing state state' with
  | nil => exact .some related
  | cons item items ih =>
      rw [List.foldlM_cons, List.foldlM_cons]
      cases next : body state item with
      | none =>
          have passed := pass related
          rw [next] at passed
          cases next' : body' state' item with
          | none => exact .none
          | some after' =>
              rw [next'] at passed
              cases passed
      | some after =>
          have passed := pass related
          rw [next] at passed
          cases next' : body' state' item with
          | none =>
              rw [next'] at passed
              cases passed
          | some after' =>
              rw [next'] at passed
              cases passed with
              | some stillRelated => exact ih stillRelated

/-- A loop whose state is known from the items that it has passed. -/
theorem foldlM_eq_some {body : σ → α → Option σ} {items : List α} (stateAt : List α → σ)
    (pass : ∀ done item rest, items = done ++ item :: rest →
      body (stateAt done) item = some (stateAt (done ++ [item]))) :
    items.foldlM body (stateAt []) = some (stateAt items) := by
  have goesOn : ∀ rest done, items = done ++ rest →
      rest.foldlM body (stateAt done) = some (stateAt items) := by
    intro rest
    induction rest with
    | nil =>
        intro done split
        rw [split, List.append_nil]
        rfl
    | cons item rest ih =>
        intro done split
        rw [List.foldlM_cons, pass done item rest split]
        apply ih
        rw [split, List.append_assoc, List.singleton_append]
  exact goesOn items [] rfl

/-- Related results stay related under related continuations. -/
theorem rel_bind {relation : σ → τ → Prop} {relation' : σ → τ → Prop} {result : Option σ}
    {result' : Option τ} {next : σ → Option σ} {next' : τ → Option τ}
    (related : Option.Rel relation result result')
    (continues : ∀ {state state'}, relation state state' →
      Option.Rel relation' (next state) (next' state')) :
    Option.Rel relation' (result.bind next) (result'.bind next') := by
  cases related with
  | some stateRelated => exact continues stateRelated
  | none => exact .none

/-- Results related by equality are equal. -/
theorem eq_of_rel {relation : σ → σ → Prop}
    (equal : ∀ {state state'}, relation state state' → state = state') {result result' : Option σ}
    (related : Option.Rel relation result result') : result = result' := by
  cases related with
  | some stateRelated => rw [equal stateRelated]
  | none => rfl

end Library.Loop
