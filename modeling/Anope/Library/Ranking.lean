import Mathlib.Data.List.TakeWhile
import Mathlib.Tactic.Common

/-!
# Comparison by rank

Sides are compared by the highest of a list of items that not both lack.  The comparison is that of
a number for each side, the place of its highest item; and operators that compare numbers are a
consistent order.
-/

namespace Library.Ranking

universe u v

variable {α : Type u} {β : Type v}

/-- Operators `>`, `<` and `>=` that belong to one order. -/
structure Comparison (gt lt ge : β → β → Bool) : Prop where
  asymm : ∀ left right, ¬(gt left right = true ∧ gt right left = true)
  gt_iff_lt : ∀ left right, gt left right = true ↔ lt right left = true
  ge_iff_not_gt : ∀ left right, ge left right = true ↔ ¬gt right left = true
  trans : ∀ left middle right, gt left middle = true → gt middle right = true →
    gt left right = true

/-- Operators that compare a number. -/
theorem comparison_of_rank {gt lt ge : β → β → Bool} (rank : β → Nat)
    (gt_iff : ∀ left right, gt left right = true ↔ rank right < rank left)
    (lt_iff : ∀ left right, lt left right = true ↔ rank left < rank right)
    (ge_eq : ∀ left right, ge left right = !lt left right) : Comparison gt lt ge where
  asymm left right := by
    rw [gt_iff, gt_iff]
    rintro ⟨less, greater⟩
    exact Nat.lt_asymm less greater
  gt_iff_lt left right := (gt_iff left right).trans (lt_iff right left).symm
  ge_iff_not_gt left right := by
    rw [ge_eq, Bool.not_eq_true', ← Bool.not_eq_true, lt_iff, gt_iff]
  trans left middle right := by
    rw [gt_iff, gt_iff, gt_iff]
    exact fun first second => Nat.lt_trans second first

/-- The place, from the end, of the first item that a side has. -/
def height (has : α → Bool) : List α → Nat
  | [] => 0
  | item :: items => if has item then items.length + 1 else height has items

theorem height_le_length (has : α → Bool) (items : List α) : height has items ≤ items.length := by
  induction items with
  | nil => exact Nat.le_refl 0
  | cons item items ih =>
      rw [height]
      split
      · exact Nat.le_refl _
      · exact Nat.le_succ_of_le ih

/-- Who has more has at least the height. -/
theorem height_mono {left right : α → Bool} {items : List α}
    (more : ∀ item ∈ items, left item = true → right item = true) :
    height left items ≤ height right items := by
  induction items with
  | nil => exact Nat.le_refl 0
  | cons item items ih =>
      rw [height, height]
      by_cases has : left item = true
      · rw [if_pos has, if_pos (more item List.mem_cons_self has)]
      · rw [if_neg has]
        have rest := ih fun other mem => more other (List.mem_cons_of_mem item mem)
        split
        · exact Nat.le_trans (height_le_length left items) (Nat.le_succ _)
        · exact rest

/-- The left side is above the right one: it alone has the first item that not both lack. -/
def above (left right : α → Bool) (items : List α) : Bool :=
  (items.find? fun item => left item || right item).any fun item => left item && !right item

/-- Who is above has the greater height. -/
theorem above_eq_height_lt (left right : α → Bool) (items : List α) :
    above left right items = decide (height right items < height left items) := by
  induction items with
  | nil => rfl
  | cons item items ih =>
      have below (has : α → Bool) : height has items < items.length + 1 :=
        Nat.lt_succ_of_le (height_le_length has items)
      rw [above, List.find?_cons, height, height]
      cases hasLeft : left item with
      | true =>
          cases hasRight : right item with
          | true => simp [hasLeft, hasRight]
          | false => simp [hasLeft, hasRight, below right]
      | false =>
          cases hasRight : right item with
          | true => simp [hasLeft, hasRight, Nat.le_of_lt (below left)]
          | false => exact ih

end Library.Ranking
