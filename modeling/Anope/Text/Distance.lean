import Anope.Library.EditDistance
import Anope.Library.Loop
import Anope.Text.Casemap
import Mathlib.Data.List.Range

/-!
# Levenshtein distance

`Anope::Distance` keeps one row of costs, which it overwrites from the left: what stands behind
the place it has come to belongs to the row before.
-/

namespace Anope.Text

open Library.EditDistance Library.Loop

namespace Distance

/-- The variables of the inner loop. -/
structure Row where
  costs : List Nat
  corner : Nat
  j : Nat

/-- The body of the inner loop; a read past the end of the costs has no result. -/
def Row.pass (c1 : UInt8) (row : Row) (c2 : UInt8) : Option Row := do
  let upper ← row.costs[row.j + 1]?
  let cost ←
    if c1 = c2 then some row.corner
    else do
      let t := if upper < row.corner then upper else row.corner
      let left ← row.costs[row.j]?
      some ((if left < t then left else t) + 1)
  some ⟨row.costs.set (row.j + 1) cost, upper, row.j + 1⟩

/-- The body of the outer loop: the costs and `i`. -/
def outerPass (s2 : Str) (state : List Nat × Nat) (c1 : UInt8) : Option (List Nat × Nat) := do
  let (costs, i) := state
  let row ← s2.foldlM (Row.pass c1) ⟨costs.set 0 (i + 1), i, 0⟩
  some (row.costs, i + 1)

end Distance

open Distance

/-- `Anope::Distance`. -/
def distance (s1 s2 : Str) : Option Nat :=
  if s1 = [] then some s2.length
  else if s2 = [] then some s1.length
  else do
    let (costs, _) ← s1.foldlM (outerPass s2) (List.range (s2.length + 1), 0)
    costs[s2.length]?

example : distance (ascii "REGISTER") (ascii "RESET") = some 4 := by
  decide

namespace Distance

/-! ## Rows -/

/-- The costs of a row, by their places. -/
def rowOf (size : Nat) (cost : Nat → Nat) : List Nat :=
  (List.range (size + 1)).map cost

variable {size place : Nat} {cost : Nat → Nat}

theorem rowOf_getElem? (inside : place ≤ size) : (rowOf size cost)[place]? = some (cost place) := by
  rw [rowOf, List.getElem?_map, List.getElem?_range (Nat.lt_succ_of_le inside), Option.map_some]

theorem rowOf_set (place value : Nat) :
    (rowOf size cost).set place value = rowOf size (Function.update cost place value) := by
  apply List.ext_getElem
  · simp [rowOf]
  · intro other inLeft inRight
    by_cases same : place = other
    · subst same
      simp [rowOf]
    · simp [rowOf, same, Function.update_of_ne (Ne.symm same)]

/-- The distance of what has been read of the first string and so many characters of the second.
What has been read is kept from its end, where a character is added. -/
def costOf (read s2 : Str) (j : Nat) : Nat :=
  Library.EditDistance.distance read (s2.take j).reverse

/-- The costs where the row of a new character is written up to a place. -/
def costUpTo (c1 : UInt8) (read s2 : Str) (j : Nat) (place : Nat) : Nat :=
  if place ≤ j then costOf (c1 :: read) s2 place else costOf read s2 place

/-- The variables of the inner loop behind what it has passed of the second string. -/
def rowAt (c1 : UInt8) (read s2 done : Str) : Row where
  costs := rowOf s2.length (costUpTo c1 read s2 done.length)
  corner := costOf read s2 done.length
  j := done.length

variable {c1 c2 : UInt8} {read s2 done rest : Str}

theorem take_of_append (split : s2 = done ++ rest) : s2.take done.length = done := by
  rw [split, List.take_left]

theorem take_succ_of_append (split : s2 = done ++ c2 :: rest) :
    (s2.take (done.length + 1)).reverse = c2 :: done.reverse := by
  rw [split, List.take_append, List.take_of_length_le (Nat.le_succ _)]
  simp

/-- The recursion of the distance at the place that the loop has come to. -/
theorem costOf_succ (split : s2 = done ++ c2 :: rest) :
    costOf (c1 :: read) s2 (done.length + 1) =
      if c1 = c2 then costOf read s2 done.length
      else min (costOf (c1 :: read) s2 done.length)
        (min (costOf read s2 (done.length + 1)) (costOf read s2 done.length)) + 1 := by
  rw [costOf, costOf, costOf, costOf, take_succ_of_append split, take_of_append split]
  split
  · next same =>
      subst same
      exact distance_cons_self c1 read done.reverse
  · next different => exact distance_cons_of_ne different read done.reverse

theorem update_costUpTo (j : Nat) :
    Function.update (costUpTo c1 read s2 j) (j + 1) (costOf (c1 :: read) s2 (j + 1)) =
      costUpTo c1 read s2 (j + 1) := by
  funext place
  by_cases same : place = j + 1
  · subst same
    simp [costUpTo]
  · have before : place ≤ j + 1 ↔ place ≤ j := by omega
    rw [Function.update_of_ne same, costUpTo, costUpTo]
    simp only [before]

/-- A pass of the inner loop writes the next cost of the new row. -/
theorem pass_rowAt (split : s2 = done ++ c2 :: rest) :
    (rowAt c1 read s2 done).pass c1 c2 = some (rowAt c1 read s2 (done ++ [c2])) := by
  have inside : done.length + 1 ≤ s2.length := by
    rw [split, List.length_append, List.length_cons]
    omega
  have upper : (rowAt c1 read s2 done).costs[done.length + 1]? =
      some (costOf read s2 (done.length + 1)) := by
    rw [rowAt, rowOf_getElem? inside, costUpTo, if_neg (Nat.not_succ_le_self _)]
  have left : (rowAt c1 read s2 done).costs[done.length]? =
      some (costOf (c1 :: read) s2 done.length) := by
    rw [rowAt, rowOf_getElem? (Nat.le_of_succ_le inside), costUpTo, if_pos (Nat.le_refl _)]
  have written : (rowAt c1 read s2 done).costs.set (done.length + 1)
      (costOf (c1 :: read) s2 (done.length + 1)) =
        (rowAt c1 read s2 (done ++ [c2])).costs := by
    rw [rowAt, rowAt, rowOf_set, update_costUpTo, List.length_append, List.length_singleton]
  have next : (rowAt c1 read s2 (done ++ [c2])) =
      ⟨(rowAt c1 read s2 done).costs.set (done.length + 1)
        (costOf (c1 :: read) s2 (done.length + 1)), costOf read s2 (done.length + 1),
        done.length + 1⟩ := by
    rw [written, rowAt, List.length_append, List.length_singleton]
  rw [next, costOf_succ split, Row.pass]
  simp only [rowAt] at upper left ⊢
  rw [upper]
  by_cases same : c1 = c2
  · simp [same]
  · simp only [Option.bind_eq_bind, Option.bind_some, if_neg same, left]
    congr 3
    grind

/-- The inner loop makes the row of the next character out of the row before. -/
theorem foldlM_pass (c1 : UInt8) (read s2 : Str) :
    s2.foldlM (Row.pass c1) ⟨(rowOf s2.length (costOf read s2)).set 0 (read.length + 1),
      read.length, 0⟩ = some (rowAt c1 read s2 s2) := by
  have start : (⟨(rowOf s2.length (costOf read s2)).set 0 (read.length + 1), read.length, 0⟩ :
      Row) = rowAt c1 read s2 [] := by
    have corner : costOf read s2 0 = read.length := by simp [costOf]
    have head : Function.update (costOf read s2) 0 (read.length + 1) =
        costUpTo c1 read s2 0 := by
      funext place
      by_cases isFirst : place = 0
      · subst isFirst
        simp [costUpTo, costOf]
      · simp [costUpTo, isFirst]
    rw [rowOf_set, head, rowAt, List.length_nil, corner]
  rw [start]
  exact foldlM_eq_some (rowAt c1 read s2) fun done c2 rest split => pass_rowAt split

/-- The costs and `i` behind what the outer loop has passed of the first string. -/
def stateAt (s2 done : Str) : List Nat × Nat :=
  (rowOf s2.length (costOf done.reverse s2), done.length)

theorem outerPass_stateAt (s2 done : Str) (c1 : UInt8) :
    outerPass s2 (stateAt s2 done) c1 = some (stateAt s2 (done ++ [c1])) := by
  have inner := foldlM_pass c1 done.reverse s2
  have whole : rowOf s2.length (costUpTo c1 done.reverse s2 s2.length) =
      rowOf s2.length (costOf (c1 :: done.reverse) s2) := by
    apply List.map_congr_left
    intro place mem
    rw [costUpTo, if_pos (Nat.le_of_lt_succ (List.mem_range.mp mem))]
  rw [List.length_reverse] at inner
  simp only [outerPass, stateAt, inner]
  simp [rowAt, whole]

end Distance

/-! ## The distance -/

theorem distance_eq (s1 s2 : Str) :
    distance s1 s2 = some (Library.EditDistance.distance s1 s2) := by
  rw [distance]
  split
  · next isEmpty => rw [isEmpty, distance_nil_left]
  · split
    · next isEmpty => rw [isEmpty, distance_nil_right]
    · have start : (List.range (s2.length + 1), 0) = stateAt s2 [] := by
        have lengths : List.range (s2.length + 1) = rowOf s2.length (costOf [] s2) := by
          apply List.ext_getElem
          · simp [rowOf]
          · intro place inLeft _
            rw [List.length_range] at inLeft
            have inside : place ≤ s2.length := Nat.le_of_lt_succ inLeft
            simp [rowOf, costOf, inside]
        rw [stateAt, lengths]
        rfl
      rw [start, foldlM_eq_some (stateAt s2) fun done c1 _ _ => outerPass_stateAt s2 done c1]
      simp only [Option.bind_eq_bind, Option.bind_some, stateAt]
      rw [rowOf_getElem? (Nat.le_refl _), costOf, List.take_length, distance_reverse]

/-- `Distance` gives the least number of edits, and is a metric. -/
theorem distance_isDistance (s t : Str) :
    ∃ edits, distance s t = some edits ∧ IsDistance s t edits ∧ distance t s = some edits ∧
      (edits = 0 ↔ s = t) ∧
      ∀ middle first second, distance s middle = some first → distance middle t = some second →
        edits ≤ first + second := by
  have isLeast := isDistance_distance s t
  refine ⟨_, distance_eq s t, isLeast, ?_, isLeast.eq_zero_iff, ?_⟩
  · rw [distance_eq t s, (isDistance_distance t s).unique isLeast.symm]
  · intro middle first second toMiddle fromMiddle
    rw [distance_eq, Option.some.injEq] at toMiddle fromMiddle
    rw [← toMiddle, ← fromMiddle]
    exact (isDistance_distance s middle).triangle (isDistance_distance middle t) isLeast

end Anope.Text
