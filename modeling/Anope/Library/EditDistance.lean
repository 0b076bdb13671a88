import Mathlib.Order.Bounds.Basic
import Mathlib.Order.MinMax
import Mathlib.Tactic.Common

/-!
# Edit distance

An edit inserts, deletes or substitutes one element of a list.  The distance of two lists is the
least number of edits that lead from one to the other.  It is computed by a recursion on both
lists, in which each case looks at the first elements only.
-/

namespace Library.EditDistance

universe u

variable {α : Type u}

/-- A list is changed at one place. -/
inductive Edit : List α → List α → Prop
  | insert (before after : List α) (element : α) :
      Edit (before ++ after) (before ++ element :: after)
  | delete (before after : List α) (element : α) :
      Edit (before ++ element :: after) (before ++ after)
  | substitute (before after : List α) (old new : α) :
      Edit (before ++ old :: after) (before ++ new :: after)

/-- So many edits lead from one list to another. -/
inductive Edits (source : List α) : Nat → List α → Prop
  | refl : Edits source 0 source
  | step {count : Nat} {middle target : List α} :
      Edits source count middle → Edit middle target → Edits source (count + 1) target

/-- The least number of edits. -/
def IsDistance (source target : List α) (distance : Nat) : Prop :=
  IsLeast {count | Edits source count target} distance

/-! ## Edits -/

theorem Edit.symm {source target : List α} (edit : Edit source target) : Edit target source := by
  cases edit with
  | insert before after element => exact .delete before after element
  | delete before after element => exact .insert before after element
  | substitute before after old new => exact .substitute before after new old

theorem Edit.cons {source target : List α} (edit : Edit source target) (element : α) :
    Edit (element :: source) (element :: target) := by
  cases edit with
  | insert before after new => exact .insert (element :: before) after new
  | delete before after old => exact .delete (element :: before) after old
  | substitute before after old new => exact .substitute (element :: before) after old new

theorem Edit.reverse {source target : List α} (edit : Edit source target) :
    Edit source.reverse target.reverse := by
  cases edit with
  | insert before after element => simpa using Edit.insert after.reverse before.reverse element
  | delete before after element => simpa using Edit.delete after.reverse before.reverse element
  | substitute before after old new =>
      simpa using Edit.substitute after.reverse before.reverse old new

namespace Edits

variable {first second count : Nat} {source middle target : List α}

theorem single (edit : Edit source target) : Edits source 1 target :=
  .step .refl edit

theorem trans (start : Edits source first middle) (rest : Edits middle second target) :
    Edits source (first + second) target := by
  induction rest with
  | refl => exact start
  | step _ edit ih => exact .step ih edit

theorem symm (edits : Edits source count target) : Edits target count source := by
  induction edits with
  | refl => exact .refl
  | step _ edit ih =>
      rw [Nat.add_comm]
      exact (single edit.symm).trans ih

theorem cons (edits : Edits source count target) (element : α) :
    Edits (element :: source) count (element :: target) := by
  induction edits with
  | refl => exact .refl
  | step _ edit ih => exact .step ih (edit.cons element)

theorem reverse (edits : Edits source count target) :
    Edits source.reverse count target.reverse := by
  induction edits with
  | refl => exact .refl
  | step _ edit ih => exact .step ih edit.reverse

end Edits

/-! ## The distance is a metric -/

namespace IsDistance

variable {source middle target : List α} {distance first second : Nat}

theorem unique (isFirst : IsDistance source target first)
    (isSecond : IsDistance source target second) : first = second :=
  IsLeast.unique isFirst isSecond

theorem symm (isDistance : IsDistance source target distance) :
    IsDistance target source distance :=
  ⟨isDistance.1.symm, fun _ edits => isDistance.2 edits.symm⟩

theorem eq_zero_iff (isDistance : IsDistance source target distance) :
    distance = 0 ↔ source = target := by
  constructor
  · intro isZero
    have edits := isDistance.1
    rw [isZero] at edits
    cases edits
    rfl
  · intro same
    subst same
    exact Nat.le_zero.mp (isDistance.2 Edits.refl)

theorem triangle (isFirst : IsDistance source middle first)
    (isSecond : IsDistance middle target second) (isDistance : IsDistance source target distance) :
    distance ≤ first + second :=
  isDistance.2 (isFirst.1.trans isSecond.1)

end IsDistance

/-! ## The recursion -/

variable [DecidableEq α]

/-- The distance, computed from the first elements on. -/
def distance : List α → List α → Nat
  | [], target => target.length
  | element :: source, [] => source.length + 1
  | old :: source, new :: target =>
      min (distance source (new :: target) + 1)
        (min (distance (old :: source) target + 1)
          (distance source target + if old = new then 0 else 1))
  termination_by source target => source.length + target.length

@[simp]
theorem distance_nil_left (target : List α) : distance [] target = target.length := by
  rw [distance]

@[simp]
theorem distance_nil_right (source : List α) : distance source [] = source.length := by
  cases source with
  | nil => simp
  | cons element source => rw [distance, List.length_cons]

theorem distance_cons_cons (old new : α) (source target : List α) :
    distance (old :: source) (new :: target) =
      min (distance source (new :: target) + 1)
        (min (distance (old :: source) target + 1)
          (distance source target + if old = new then 0 else 1)) := by
  rw [distance]

theorem distance_cons_left_le (element : α) (source target : List α) :
    distance (element :: source) target ≤ distance source target + 1 := by
  cases target with
  | nil => simp
  | cons new target =>
      rw [distance_cons_cons]
      exact Nat.min_le_left _ _

theorem distance_cons_right_le (element : α) (source target : List α) :
    distance source (element :: target) ≤ distance source target + 1 := by
  cases source with
  | nil => simp
  | cons old source =>
      rw [distance_cons_cons]
      exact (Nat.min_le_right _ _).trans (Nat.min_le_left _ _)

theorem distance_le_cons_right (element : α) (source target : List α) :
    distance source target ≤ distance source (element :: target) + 1 := by
  induction source with
  | nil =>
      simp only [distance_nil_left, List.length_cons]
      omega
  | cons old source ih =>
      have shorter := distance_cons_left_le old source target
      rw [distance_cons_cons]
      omega

theorem distance_le_cons_left (element : α) (source target : List α) :
    distance source target ≤ distance (element :: source) target + 1 := by
  induction target with
  | nil =>
      simp only [distance_nil_right, List.length_cons]
      omega
  | cons new target ih =>
      have shorter := distance_cons_right_le new source target
      rw [distance_cons_cons]
      omega

/-- Where the first elements are the same, they are left as they are. -/
theorem distance_cons_self (element : α) (source target : List α) :
    distance (element :: source) (element :: target) = distance source target := by
  have left := distance_le_cons_right element source target
  have right := distance_le_cons_left element source target
  rw [distance_cons_cons, if_pos rfl]
  omega

/-- Where they are not, one of the three edits is made. -/
theorem distance_cons_of_ne {old new : α} (different : old ≠ new) (source target : List α) :
    distance (old :: source) (new :: target) =
      min (distance (old :: source) target)
        (min (distance source (new :: target)) (distance source target)) + 1 := by
  rw [distance_cons_cons, if_neg different]
  omega

/-! ## The recursion computes the distance -/

theorem distance_self (list : List α) : distance list list = 0 := by
  induction list with
  | nil => simp
  | cons element list ih => rw [distance_cons_self, ih]

/-- What an edit changes behind an element both lists start with. -/
theorem distance_cons_le_of_le {left right : List α}
    (near : ∀ source, distance source right ≤ distance source left + 1) (element : α)
    (source : List α) :
    distance source (element :: right) ≤ distance source (element :: left) + 1 := by
  induction source with
  | nil =>
      have lengths := near []
      simp only [distance_nil_left, List.length_cons] at lengths ⊢
      omega
  | cons old source ih =>
      have same := near (old :: source)
      have shorter := near source
      rw [distance_cons_cons, distance_cons_cons]
      omega

theorem distance_substitute_le (old new : α) (source target : List α) :
    distance source (new :: target) ≤ distance source (old :: target) + 1 := by
  induction source with
  | nil => simp
  | cons element source ih =>
      rw [distance_cons_cons, distance_cons_cons]
      split <;> split <;> omega

/-- An edit changes the distance by at most one. -/
theorem distance_le_of_edit {left right : List α} (edit : Edit left right) (source : List α) :
    distance source right ≤ distance source left + 1 := by
  cases edit with
  | insert before after element =>
      induction before generalizing source with
      | nil => exact distance_cons_right_le element source after
      | cons head before ih => exact distance_cons_le_of_le ih head source
  | delete before after element =>
      induction before generalizing source with
      | nil => exact distance_le_cons_right element source after
      | cons head before ih => exact distance_cons_le_of_le ih head source
  | substitute before after old new =>
      induction before generalizing source with
      | nil => exact distance_substitute_le old new source after
      | cons head before ih => exact distance_cons_le_of_le ih head source

/-- The distance is at most the number of any edits. -/
theorem distance_le_of_edits {count : Nat} {source target : List α}
    (edits : Edits source count target) : distance source target ≤ count := by
  induction edits with
  | refl => exact (distance_self source).le
  | step _ edit ih =>
      have near := distance_le_of_edit edit source
      omega

omit [DecidableEq α] in
theorem edits_nil_left (target : List α) : Edits [] target.length target := by
  induction target with
  | nil => exact .refl
  | cons element target ih => exact .step ih (.insert [] target element)

/-- So many edits do lead from one list to the other. -/
theorem edits_distance (source target : List α) :
    Edits source (distance source target) target := by
  induction source, target using distance.induct with
  | case1 target =>
      rw [distance_nil_left]
      exact edits_nil_left target
  | case2 old source =>
      rw [distance_nil_right]
      exact (edits_nil_left (old :: source)).symm
  | case3 old source new target deleted inserted substituted =>
      by_cases same : old = new
      · subst same
        rw [distance_cons_self]
        exact substituted.cons old
      · rw [distance_cons_of_ne same]
        rcases min_choice (distance (old :: source) target)
          (min (distance source (new :: target)) (distance source target)) with isLeast | isLeast
        · rw [isLeast]
          exact .step inserted (.insert [] target new)
        · rw [isLeast]
          rcases min_choice (distance source (new :: target)) (distance source target)
            with isLeast | isLeast
          · rw [isLeast, Nat.add_comm]
            exact (Edits.single (.delete [] source old)).trans deleted
          · rw [isLeast]
            exact .step (substituted.cons old) (.substitute [] target old new)

theorem isDistance_distance (source target : List α) :
    IsDistance source target (distance source target) :=
  ⟨edits_distance source target, fun _ edits => distance_le_of_edits edits⟩

/-- The lists may be read from their ends. -/
theorem distance_reverse (source target : List α) :
    distance source.reverse target.reverse = distance source target := by
  apply (isDistance_distance source.reverse target.reverse).unique
  refine ⟨(edits_distance source target).reverse, fun count edits => ?_⟩
  have back := edits.reverse
  rw [List.reverse_reverse, List.reverse_reverse] at back
  exact distance_le_of_edits back

end Library.EditDistance
