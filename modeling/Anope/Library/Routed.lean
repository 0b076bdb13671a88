import Mathlib.Logic.Function.Basic

/-!
# Changes routed by a key

A function is changed by a list of items, each of them at its own key only.  At
a key there are then the changes of the items of that key, in their order.
-/

namespace Library.Routed

universe u v w

variable {κ : Type u} {α : Type v} {ι : Type w} [DecidableEq κ] {key : ι → κ}
  {change : ι → α → α}

/-- Carry out the change of every item at its key. -/
def route (key : ι → κ) (change : ι → α → α) (items : List ι) (state : κ → α) : κ → α :=
  items.foldl
    (fun state item => Function.update state (key item) (change item (state (key item)))) state

/-- The items of a key. -/
def itemsAt (key : ι → κ) (place : κ) (items : List ι) : List ι :=
  items.filter fun item => key item = place

theorem mem_itemsAt_iff {place : κ} {items : List ι} {item : ι} :
    item ∈ itemsAt key place items ↔ item ∈ items ∧ key item = place := by
  rw [itemsAt, List.mem_filter, decide_eq_true_iff]

theorem itemsAt_cons_of_eq {place : κ} {item : ι} (same : key item = place) (items : List ι) :
    itemsAt key place (item :: items) = item :: itemsAt key place items :=
  List.filter_cons_of_pos (decide_eq_true same)

theorem itemsAt_cons_of_ne {place : κ} {item : ι} (different : key item ≠ place)
    (items : List ι) : itemsAt key place (item :: items) = itemsAt key place items :=
  List.filter_cons_of_neg fun same => different (of_decide_eq_true same)

/-- A key sees the changes of its items only. -/
theorem route_apply (items : List ι) (state : κ → α) (place : κ) :
    route key change items state place =
      (itemsAt key place items).foldl (fun value item => change item value) (state place) := by
  induction items generalizing state with
  | nil => rfl
  | cons item items ih =>
      have later := ih (Function.update state (key item) (change item (state (key item))))
      change route key change items _ place = _
      rw [later]
      by_cases same : key item = place
      · rw [itemsAt_cons_of_eq same, List.foldl_cons, same, Function.update_self]
      · rw [itemsAt_cons_of_ne same, Function.update_of_ne fun is => same is.symm]

end Library.Routed
