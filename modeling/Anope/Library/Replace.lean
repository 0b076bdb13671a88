import Mathlib.Data.List.Infix
import Mathlib.Tactic.Common

/-!
# Replacing all occurrences

A text is searched from the left for a pattern that is not empty, and the search
goes on behind what was found.  The parts between the occurrences say what
replacing them gives.
-/

namespace Library.Replace

universe u

variable {α : Type u} [DecidableEq α]

/-- What stands before and behind the first occurrence of a pattern. -/
def cutAt (pattern : List α) : List α → Option (List α × List α)
  | [] => if pattern = [] then some ([], []) else none
  | c :: text =>
      if pattern <+: c :: text then
        some ([], (c :: text).drop pattern.length)
      else
        (cutAt pattern text).map fun parts => (c :: parts.1, parts.2)

theorem append_of_cutAt {pattern text before after : List α}
    (found : cutAt pattern text = some (before, after)) : text = before ++ pattern ++ after := by
  induction text generalizing before with
  | nil =>
      rw [cutAt] at found
      split at found
      · rename_i empty
        cases found
        rw [empty]
        rfl
      · exact nomatch found
  | cons c text ih =>
      rw [cutAt] at found
      split at found
      · rename_i starts
        cases found
        rw [List.nil_append]
        exact (List.prefix_iff_eq_append.mp starts).symm
      · rcases Option.map_eq_some_iff.mp found with ⟨⟨first, rest⟩, isFound, is⟩
        cases is
        rw [List.cons_append, List.cons_append, ← ih isFound]

/-- The occurrence is the first one. -/
theorem not_prefix_of_cutAt {pattern text before after : List α}
    (found : cutAt pattern text = some (before, after)) {i : Nat} (earlier : i < before.length) :
    ¬pattern <+: text.drop i := by
  induction text generalizing before i with
  | nil =>
      have is := append_of_cutAt found
      rw [List.append_assoc] at is
      rw [(List.append_eq_nil_iff.mp is.symm).1] at earlier
      exact absurd earlier (Nat.not_lt_zero _)
  | cons c text ih =>
      rw [cutAt] at found
      split at found
      · cases found
        exact absurd earlier (Nat.not_lt_zero _)
      · rename_i starts
        rcases Option.map_eq_some_iff.mp found with ⟨⟨first, rest⟩, isFound, is⟩
        cases is
        cases i with
        | zero => exact starts
        | succ i => exact ih isFound (Nat.lt_of_succ_lt_succ earlier)

theorem cutAt_of_not_starts {pattern text : List α} {c : α} (none : ¬pattern <+: c :: text) :
    cutAt pattern (c :: text) =
      (cutAt pattern text).map fun parts => (c :: parts.1, parts.2) :=
  if_neg none

/-- A pattern is found exactly when it occurs. -/
theorem isSome_cutAt_iff {pattern text : List α} :
    (cutAt pattern text).isSome ↔ pattern <:+: text := by
  induction text with
  | nil =>
      rw [cutAt, List.infix_nil]
      split
      next empty => exact iff_of_true rfl empty
      next nonempty => exact iff_of_false Bool.false_ne_true nonempty
  | cons c text ih =>
      rw [cutAt, List.infix_cons_iff]
      split
      next starts => simp [starts]
      next starts => rw [Option.isSome_map, ih, or_iff_right starts]

/-- A pattern that is not empty is found where it starts the text. -/
theorem cutAt_starts {first : α} (more after : List α) :
    cutAt (first :: more) (first :: more ++ after) = some ([], after) := by
  rw [List.cons_append, cutAt, if_pos (show first :: more <+: first :: (more ++ after) from
    List.prefix_append (first :: more) after), ← List.cons_append, List.drop_left]

/-- What stands behind an occurrence is shorter than the text. -/
theorem length_of_cutAt {first : α} {more text before after : List α}
    (found : cutAt (first :: more) text = some (before, after)) : after.length < text.length := by
  rw [append_of_cutAt found, List.length_append, List.length_append, List.length_cons]
  omega

/-- Replace the occurrences of the pattern `first :: more`. -/
def replaceAll (first : α) (more replacement text : List α) : List α :=
  match _found : cutAt (first :: more) text with
  | none => text
  | some (before, after) => before ++ replacement ++ replaceAll first more replacement after
termination_by text.length
decreasing_by exact length_of_cutAt _found

/-- The parts between the occurrences of the pattern `first :: more`. -/
def parts (first : α) (more text : List α) : List (List α) :=
  match _found : cutAt (first :: more) text with
  | none => [text]
  | some (before, after) => before :: parts first more after
termination_by text.length
decreasing_by exact length_of_cutAt _found

section

variable {first : α} {more replacement text before after : List α}

theorem replaceAll_of_none (absent : cutAt (first :: more) text = none) :
    replaceAll first more replacement text = text := by
  rw [replaceAll]
  split
  · rfl
  · rename_i found
    exact nomatch absent.symm.trans found

theorem replaceAll_of_some (found : cutAt (first :: more) text = some (before, after)) :
    replaceAll first more replacement text =
      before ++ replacement ++ replaceAll first more replacement after := by
  rw [replaceAll]
  split
  · rename_i absent
    exact nomatch absent.symm.trans found
  · rename_i found'
    cases found.symm.trans found'
    rfl

theorem parts_of_none (absent : cutAt (first :: more) text = none) :
    parts first more text = [text] := by
  rw [parts]
  split
  · rfl
  · rename_i found
    exact nomatch absent.symm.trans found

theorem parts_of_some (found : cutAt (first :: more) text = some (before, after)) :
    parts first more text = before :: parts first more after := by
  rw [parts]
  split
  · rename_i absent
    exact nomatch absent.symm.trans found
  · rename_i found'
    cases found.symm.trans found'
    rfl

end

theorem parts_ne_nil (first : α) (more text : List α) : parts first more text ≠ [] := by
  rw [parts]
  split <;> exact List.cons_ne_nil _ _

/-- Texts that are joined by a replacement. -/
def join (replacement : List α) : List (List α) → List α
  | [] => []
  | [part] => part
  | part :: next :: rest => part ++ replacement ++ join replacement (next :: rest)

omit [DecidableEq α] in
theorem join_cons {replacement part : List α} {rest : List (List α)} (nonempty : rest ≠ []) :
    join replacement (part :: rest) = part ++ replacement ++ join replacement rest := by
  cases rest with
  | nil => exact absurd rfl nonempty
  | cons next rest => rfl

/-- Replacing puts the replacement between the parts. -/
theorem replaceAll_eq_join (first : α) (more replacement text : List α) :
    replaceAll first more replacement text = join replacement (parts first more text) := by
  fun_induction replaceAll first more replacement text with
  | case1 text absent =>
      rw [parts_of_none absent]
      rfl
  | case2 text before after found ih =>
      rw [parts_of_some found, ih, join_cons (parts_ne_nil first more after)]

end Library.Replace
