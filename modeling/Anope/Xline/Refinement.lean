import Anope.Xline.Consistent
import Anope.Xline.Core

/-!
# `CanAdd` on the heap and on a list

Where the tables are consistent, `CanAdd` on the addresses of a manager does
what it does on the list of the lines they stand for.
-/

namespace Anope.Xline

open Library.Table Anope.Text

variable {α μ : Type} [DecidableEq α] [DecidableEq μ]

namespace State

/-- The addresses stand for the lines. -/
def Stand (state : State α μ) (addresses : List α) (lines : List XLine) : Prop :=
  List.Forall₂ (fun x line => (state.objects.lookup x).map (·.toXLine) = some line) addresses lines

variable {casemap : Casemap} {state : State α μ}

omit [DecidableEq μ] in
/-- Addresses that are looked up as before stand for the same lines. -/
theorem Stand.congr {next : State α μ} {addresses : List α} {lines : List XLine}
    (stand : state.Stand addresses lines)
    (same : ∀ x ∈ addresses, next.objects.lookup x = state.objects.lookup x) :
    next.Stand addresses lines := by
  induction stand with
  | nil => exact .nil
  | @cons x line addresses lines found _ ih =>
      obtain ⟨first, rest⟩ := List.forall_mem_cons.mp same
      exact .cons (by rw [first, found]) (ih rest)

omit [DecidableEq μ] in
theorem Stand.append {first second : List α} {lines lines' : List XLine}
    (stand : state.Stand first lines) (stand' : state.Stand second lines') :
    state.Stand (first ++ second) (lines ++ lines') :=
  List.rel_append stand stand'

omit [DecidableEq μ] in
theorem Stand.reverse {addresses : List α} {lines : List XLine}
    (stand : state.Stand addresses lines) : state.Stand addresses.reverse lines.reverse :=
  List.forall₂_reverse_iff.mpr stand

omit [DecidableEq μ] in
/-- A change of a line leaves the lines at other addresses. -/
theorem Stand.updateLine {x : α} {addresses : List α} {lines : List XLine}
    (stand : state.Stand addresses lines) (absent : x ∉ addresses)
    (change : Object μ → Object μ) : (state.updateLine x change).Stand addresses lines :=
  stand.congr fun _ mem => lookup_modify_ne (ne_of_mem_of_not_mem mem absent) _ _

/-- A deletion leaves the lines at other addresses. -/
theorem Stand.without {manager : μ} {x : α} {line : Object μ} {addresses : List α}
    {lines : List XLine} (stand : state.Stand addresses lines) (absent : x ∉ addresses) :
    (state.without casemap manager x line).Stand addresses lines :=
  stand.congr fun _ mem => AList.lookup_erase_ne (ne_of_mem_of_not_mem mem absent)

end State

end Anope.Xline
