import Mathlib.Algebra.Ring.Parity
import Mathlib.Data.List.Count
import Mathlib.Tactic.Common

/-!
# Rendering of a markup

Marks are dropped from a text or kept, and a part of it may be enclosed in a pair of control
codes.  The texts are read in step, so that nothing else can be lost, moved or written twice.
-/

namespace Library.Markup

universe u

variable {α : Type u}

/-- The second list is a rendering of the first. -/
inductive Rendering (mark control : α → Bool) : List α → List α → Prop
  | nil : Rendering mark control [] []
  | keep (element : α) {input output : List α} (rest : Rendering mark control input output) :
      Rendering mark control (element :: input) (element :: output)
  | drop {element : α} (isMark : mark element = true) {input output : List α}
      (rest : Rendering mark control input output) :
      Rendering mark control (element :: input) output
  | enclose {code : α} (isControl : control code = true) {input output input' output' : List α}
      (inside : Rendering mark control input output)
      (rest : Rendering mark control input' output') :
      Rendering mark control (input ++ input') (code :: (output ++ code :: output'))

namespace Rendering

variable {mark control : α → Bool} {input output input' output' : List α}

theorem refl (input : List α) : Rendering mark control input input := by
  induction input with
  | nil => exact nil
  | cons element input ih => exact ih.keep element

/-- Marks can be dropped in front of what is rendered. -/
theorem drop_append {marks : List α} (areMarks : ∀ element ∈ marks, mark element = true)
    (rest : Rendering mark control input output) :
    Rendering mark control (marks ++ input) output := by
  induction marks with
  | nil => exact rest
  | cons element marks ih =>
      rcases List.forall_mem_cons.mp areMarks with ⟨isMark, areMarks⟩
      exact (ih areMarks).drop isMark

theorem append (first : Rendering mark control input output)
    (second : Rendering mark control input' output') :
    Rendering mark control (input ++ input') (output ++ output') := by
  induction first with
  | nil => exact second
  | keep element _ ih => exact ih.keep element
  | drop isMark _ ih => exact ih.drop isMark
  | enclose isControl inside _ _ ih =>
      rw [List.append_assoc, List.cons_append, List.append_assoc, List.cons_append]
      exact inside.enclose isControl ih

/-- A part between two delimiters is enclosed. -/
theorem enclose_delimited {code : α} {delim : List α} (isControl : control code = true)
    (areMarks : ∀ element ∈ delim, mark element = true)
    (inside : Rendering mark control input output)
    (rest : Rendering mark control input' output') :
    Rendering mark control (delim ++ (input ++ (delim ++ input')))
      (code :: (output ++ code :: output')) := by
  have closed : Rendering mark control (input ++ delim) (output ++ []) := by
    refine inside.append ?_
    rw [← List.append_nil delim]
    exact drop_append areMarks nil
  rw [List.append_nil] at closed
  rw [← List.append_assoc input, ← List.append_assoc]
  exact (drop_append areMarks closed).enclose isControl rest

/-- What is left without the control codes is a part of the text. -/
theorem sublist (rendering : Rendering mark control input output) :
    List.Sublist (output.filter fun element => !control element) input := by
  induction rendering with
  | nil => exact List.Sublist.slnil
  | keep element _ ih =>
      rw [List.filter_cons]
      split_ifs
      · exact ih.cons_cons element
      · exact ih.cons element
  | drop _ _ ih => exact ih.cons _
  | enclose isControl _ _ ihInside ihRest =>
      rw [List.filter_cons_of_neg (by rw [isControl]; exact Bool.false_ne_true),
        List.filter_append,
        List.filter_cons_of_neg (by rw [isControl]; exact Bool.false_ne_true)]
      exact ihInside.append ihRest

/-- The elements that are neither marks nor control codes are the same. -/
theorem filter_eq (rendering : Rendering mark control input output) :
    (output.filter fun element => !control element && !mark element) =
      input.filter fun element => !control element && !mark element := by
  induction rendering with
  | nil => rfl
  | keep element _ ih => rw [List.filter_cons, List.filter_cons, ih]
  | drop isMark _ ih =>
      rw [List.filter_cons_of_neg (by rw [isMark, Bool.and_comm]; exact Bool.false_ne_true), ih]
  | enclose isControl _ _ ihInside ihRest =>
      rw [List.filter_cons_of_neg (by rw [isControl]; exact Bool.false_ne_true),
        List.filter_append, List.filter_append, ihInside,
        List.filter_cons_of_neg (by rw [isControl]; exact Bool.false_ne_true), ihRest]

/-- A code that is not in the text comes in pairs. -/
theorem even_count [DecidableEq α] (rendering : Rendering mark control input output) {code : α}
    (absent : code ∉ input) : Even (output.count code) := by
  induction rendering with
  | nil => exact Even.zero
  | keep element _ ih =>
      rw [List.mem_cons, not_or] at absent
      rw [List.count_cons_of_ne (Ne.symm absent.1)]
      exact ih absent.2
  | drop _ _ ih => exact ih fun mem => absent (List.mem_cons_of_mem _ mem)
  | @enclose written _ input output input' output' _ _ ihInside ihRest =>
      rw [List.mem_append, not_or] at absent
      have both := (ihInside absent.1).add (ihRest absent.2)
      have around : (written :: (output ++ written :: output')).count code =
          output.count code + output'.count code +
            2 * (if (written == code) = true then 1 else 0) := by
        rw [List.count_cons, List.count_append, List.count_cons]
        omega
      rw [around]
      exact both.add (even_two_mul _)

end Rendering

end Library.Markup
