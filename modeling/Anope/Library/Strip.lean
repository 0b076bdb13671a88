import Mathlib.Data.List.Basic
import Mathlib.Tactic.Common

/-!
# Taking marked codes out of a text

A code is a marked element with some of the elements behind it, its arguments.  Two rules of how
many arguments a code has are compared: a rule that takes more keeps less.
-/

namespace Library.Strip

universe u

variable {α : Type u} (marks : α → Bool)

/-- What is left of a text without its codes and without so many elements at its start. -/
def strip (args : α → List α → Nat) : Nat → List α → List α
  | _, [] => []
  | skip + 1, _ :: rest => strip args skip rest
  | 0, head :: rest =>
      if marks head then strip args (args head rest) rest else head :: strip args 0 rest

/-- Behind each code one rule takes at least as much as the other, all of it there and none of it
marked. -/
structure Widens (args wider : α → List α → Nat) : Prop where
  le : ∀ head (rest : List α), marks head = true → args head rest ≤ wider head rest
  inside : ∀ head (rest : List α), marks head = true → wider head rest ≤ rest.length
  unmarked : ∀ head (rest : List α), marks head = true →
    ∀ element ∈ rest.take (wider head rest), marks element = false

/-- Both rules take the same behind each code of a text. -/
def SameArgs (args wider : α → List α → Nat) (text : List α) : Prop :=
  ∀ before head rest, text = before ++ head :: rest → marks head = true →
    args head rest = wider head rest

variable {marks} {args wider : α → List α → Nat} {text : List α}

theorem strip_sublist (skip : Nat) (text : List α) : (strip marks args skip text).Sublist text := by
  induction text generalizing skip with
  | nil => rw [strip]
  | cons head rest ih =>
      cases skip with
      | succ skip => exact (ih skip).cons head
      | zero =>
          rw [strip]
          split
          · exact (ih _).cons head
          · exact (ih 0).cons_cons head

theorem marks_of_mem_strip {skip : Nat} {element : α} (mem : element ∈ strip marks args skip text) :
    marks element = false := by
  induction text generalizing skip with
  | nil =>
      rw [strip] at mem
      cases mem
  | cons head rest ih =>
      cases skip with
      | succ skip => exact ih mem
      | zero =>
          rw [strip] at mem
          split at mem
          · exact ih mem
          next unmarked =>
            rcases List.mem_cons.mp mem with rfl | mem
            · exact Bool.eq_false_iff.mpr unmarked
            · exact ih mem

/-- A text without codes is left as it is. -/
theorem strip_of_unmarked (unmarked : ∀ element ∈ text, marks element = false) :
    strip marks args 0 text = text := by
  induction text with
  | nil => rw [strip]
  | cons head rest ih =>
      rw [List.forall_mem_cons] at unmarked
      rw [strip, if_neg (Bool.eq_false_iff.mp unmarked.1), ih unmarked.2]

theorem strip_strip (text : List α) :
    strip marks args 0 (strip marks args 0 text) = strip marks args 0 text :=
  strip_of_unmarked fun _ mem => marks_of_mem_strip mem

theorem sameArgs_nil : SameArgs marks args wider [] := by
  intro before head rest split
  cases before <;> cases split

theorem sameArgs_cons_iff {head : α} {rest : List α} :
    SameArgs marks args wider (head :: rest) ↔
      (marks head = true → args head rest = wider head rest) ∧ SameArgs marks args wider rest := by
  constructor
  · intro same
    refine ⟨same [] head rest rfl, ?_⟩
    intro before other after split
    exact same (head :: before) other after (congrArg (head :: ·) split)
  · rintro ⟨first, same⟩ before other after split
    cases before with
    | nil =>
        cases split
        exact first
    | cons _ before =>
        cases split
        exact same before other after rfl

namespace Widens

variable (widens : Widens marks args wider)

include widens

/-- A rule that takes more keeps less. -/
theorem sublist {skip more : Nat} (le : skip ≤ more)
    (unmarked : ∀ element ∈ text.take more, marks element = false) :
    (strip marks wider more text).Sublist (strip marks args skip text) := by
  induction text generalizing skip more with
  | nil => simp [strip]
  | cons head rest ih =>
      cases more with
      | succ more =>
          rw [List.take_succ_cons, List.forall_mem_cons] at unmarked
          cases skip with
          | succ skip => exact ih (Nat.le_of_succ_le_succ le) unmarked.2
          | zero =>
              rw [strip, strip, if_neg (Bool.eq_false_iff.mp unmarked.1)]
              exact (ih (Nat.zero_le more) unmarked.2).cons head
      | zero =>
          cases Nat.le_zero.mp le
          rw [strip, strip]
          split
          next isMark => exact ih (widens.le head rest isMark) (widens.unmarked head rest isMark)
          · exact (ih (Nat.le_refl 0) (by simp)).cons_cons head

/-- It keeps all that the other rule keeps only if it takes nothing more anywhere. -/
theorem sublist_iff_of_skip {skip more : Nat} (le : skip ≤ more) (inside : more ≤ text.length)
    (unmarked : ∀ element ∈ text.take more, marks element = false) :
    (strip marks args skip text).Sublist (strip marks wider more text) ↔
      skip = more ∧ SameArgs marks args wider text := by
  induction text generalizing skip more with
  | nil =>
      cases Nat.le_zero.mp inside
      cases Nat.le_zero.mp le
      simp [strip, sameArgs_nil]
  | cons head rest ih =>
      rw [sameArgs_cons_iff]
      cases more with
      | succ more =>
          rw [List.take_succ_cons, List.forall_mem_cons] at unmarked
          have notMark := Bool.eq_false_iff.mp unmarked.1
          rw [List.length_cons] at inside
          cases skip with
          | succ skip =>
              rw [strip, strip, ih (Nat.le_of_succ_le_succ le) (Nat.le_of_succ_le_succ inside)
                unmarked.2]
              simp [notMark]
          | zero =>
              -- the element that is taken here is kept by the other rule
              have shorter := (widens.sublist (Nat.zero_le more) unmarked.2).length_le
              apply iff_of_false
              · intro sublist
                have longer := sublist.length_le
                rw [strip, strip, if_neg notMark, List.length_cons] at longer
                omega
              · rintro ⟨same, _⟩
                cases same
      | zero =>
          cases Nat.le_zero.mp le
          rw [strip, strip]
          by_cases isMark : marks head = true
          · rw [if_pos isMark, if_pos isMark, ih (widens.le head rest isMark)
              (widens.inside head rest isMark) (widens.unmarked head rest isMark)]
            simp [isMark]
          · rw [if_neg isMark, if_neg isMark, List.cons_sublist_cons,
              ih (Nat.le_refl 0) (Nat.zero_le _) (by simp)]
            simp [isMark]

theorem sublist_iff (text : List α) :
    (strip marks args 0 text).Sublist (strip marks wider 0 text) ↔
      SameArgs marks args wider text := by
  rw [widens.sublist_iff_of_skip (Nat.le_refl 0) (Nat.zero_le _) (by simp)]
  exact and_iff_right rfl

end Widens

end Library.Strip
