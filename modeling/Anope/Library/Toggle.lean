import Mathlib.Data.Finset.Basic

/-!
# Sets that are switched

Elements of a set are switched on and off in turn.  In the end an element is in the set when it
was switched on last.
-/

namespace Library.Toggle

universe u

variable {κ : Type u} [DecidableEq κ]

/-- A switch: on or off, and of which element. -/
abbrev Switch (κ : Type u) := Bool × κ

/-- The set after a switch. -/
def apply (set : Finset κ) (switch : Switch κ) : Finset κ :=
  if switch.1 then insert switch.2 set else set.erase switch.2

/-- How an element was switched last. -/
def latest (k : κ) (switches : List (Switch κ)) : Option Bool :=
  (switches.filter fun switch => switch.2 = k).getLast?.map Prod.fst

theorem latest_cons_self (on : Bool) (k : κ) (switches : List (Switch κ)) :
    latest k ((on, k) :: switches) = some ((latest k switches).getD on) := by
  rw [latest, List.filter_cons_of_pos (by simp), List.getLast?_cons, latest]
  cases (switches.filter fun switch => switch.2 = k).getLast? with
  | none => rfl
  | some last => rfl

theorem latest_cons_ne {k : κ} {switch : Switch κ} (different : switch.2 ≠ k)
    (switches : List (Switch κ)) : latest k (switch :: switches) = latest k switches := by
  rw [latest, List.filter_cons_of_neg (by simpa using different), latest]

theorem mem_of_latest {k : κ} {switches : List (Switch κ)} {on : Bool}
    (isLatest : latest k switches = some on) : (on, k) ∈ switches := by
  obtain ⟨switch, isLast, rfl⟩ := Option.map_eq_some_iff.mp isLatest
  obtain ⟨mem, isKey⟩ := List.mem_filter.mp (List.mem_of_getLast? isLast)
  rwa [← of_decide_eq_true isKey]

/-- After some switches, an element is in the set if it was switched on last, or was in it and was
not switched. -/
theorem mem_foldl_apply_iff {k : κ} {switches : List (Switch κ)} {set : Finset κ} :
    k ∈ switches.foldl apply set ↔ (latest k switches).getD (decide (k ∈ set)) = true := by
  induction switches generalizing set with
  | nil => exact decide_eq_true_iff.symm
  | cons switch switches ih =>
      obtain ⟨on, other⟩ := switch
      rw [List.foldl_cons, ih]
      by_cases same : other = k
      · subst same
        rw [latest_cons_self]
        cases latest other switches with
        | none => cases on <;> simp [apply]
        | some last => rfl
      · rw [latest_cons_ne same]
        have kept : k ∈ apply set (on, other) ↔ k ∈ set := by
          cases on <;> simp [apply, Ne.symm same]
        simp only [kept]

/-- From the empty set on, an element is in it if it was switched on last. -/
theorem mem_foldl_empty_iff {k : κ} {switches : List (Switch κ)} :
    k ∈ switches.foldl apply ∅ ↔ latest k switches = some true := by
  rw [mem_foldl_apply_iff]
  cases latest k switches with
  | none => simp
  | some on => cases on <;> simp

end Library.Toggle
