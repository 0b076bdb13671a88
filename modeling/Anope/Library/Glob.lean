import Mathlib.Data.List.Infix
import Mathlib.Tactic.Common

/-!
# Glob patterns and their languages

A glob pattern is a finite sequence of tokens.  A star stands for an arbitrary,
possibly empty run of characters; every other token stands for exactly one
character that passes its test.  The language of a pattern is defined by
recursion on the pattern alone, independently of any matching algorithm.
-/

namespace Library.Glob

universe u

/-- One position of a glob pattern. -/
inductive Token (α : Type u) where
  | star
  | one (accepts : α → Bool)

/-- A glob pattern over characters `α`. -/
abbrev Pattern (α : Type u) := List (Token α)

variable {α : Type u}

/-- The language of a pattern: a star gives up any prefix of the text, and a
single-character token gives up exactly one accepted character. -/
def Matches : Pattern α → List α → Prop
  | [], text => text = []
  | .star :: rest, text => ∃ tail, tail <:+ text ∧ Matches rest tail
  | .one accepts :: rest, text =>
      ∃ head tail, text = head :: tail ∧ accepts head = true ∧ Matches rest tail

@[simp]
theorem matches_nil_iff (text : List α) : Matches [] text ↔ text = [] :=
  Iff.rfl

theorem matches_star_iff (rest : Pattern α) (text : List α) :
    Matches (.star :: rest) text ↔ ∃ tail, tail <:+ text ∧ Matches rest tail :=
  Iff.rfl

@[simp]
theorem not_matches_one_nil (accepts : α → Bool) (rest : Pattern α) :
    ¬Matches (.one accepts :: rest) [] := by
  rintro ⟨head, tail, equal, _⟩
  contradiction

@[simp]
theorem matches_one_cons_iff (accepts : α → Bool) (rest : Pattern α)
    (head : α) (tail : List α) :
    Matches (.one accepts :: rest) (head :: tail) ↔
      accepts head = true ∧ Matches rest tail := by
  constructor
  · rintro ⟨_, _, equal, accepted, matched⟩
    cases equal
    exact ⟨accepted, matched⟩
  · rintro ⟨accepted, matched⟩
    exact ⟨head, tail, rfl, accepted, matched⟩

/-- The language of a concatenation is the concatenation of the languages. -/
theorem matches_append_iff (left right : Pattern α) (text : List α) :
    Matches (left ++ right) text ↔
      ∃ front back, text = front ++ back ∧ Matches left front ∧ Matches right back := by
  induction left generalizing text with
  | nil => simp
  | cons token left ih =>
      cases token with
      | star =>
          simp only [List.cons_append, matches_star_iff, ih]
          constructor
          · rintro ⟨_, ⟨skipped, rfl⟩, front, back, rfl, leftMatch, rightMatch⟩
            exact ⟨skipped ++ front, back, by simp, ⟨front, ⟨skipped, rfl⟩, leftMatch⟩,
              rightMatch⟩
          · rintro ⟨_, back, rfl, ⟨front, ⟨skipped, rfl⟩, leftMatch⟩, rightMatch⟩
            exact ⟨front ++ back, ⟨skipped, by simp⟩, front, back, rfl, leftMatch,
              rightMatch⟩
      | one accepts =>
          cases text with
          | nil =>
              simp only [List.cons_append, not_matches_one_nil, false_iff]
              rintro ⟨front, back, equal, leftMatch, _⟩
              rw [List.nil_eq_append_iff] at equal
              rw [equal.1] at leftMatch
              exact not_matches_one_nil accepts left leftMatch
          | cons head tail =>
              simp only [List.cons_append, matches_one_cons_iff, ih]
              constructor
              · rintro ⟨accepted, front, back, rfl, leftMatch, rightMatch⟩
                exact ⟨head :: front, back, rfl,
                  (matches_one_cons_iff ..).mpr ⟨accepted, leftMatch⟩, rightMatch⟩
              · rintro ⟨front, back, equal, leftMatch, rightMatch⟩
                obtain ⟨_, frontTail, rfl, accepted, tailMatch⟩ := leftMatch
                cases equal
                exact ⟨accepted, frontTail, back, rfl, tailMatch, rightMatch⟩

/-- A nonempty run of stars matches every text. -/
theorem matches_replicate_star (n : Nat) (text : List α) :
    Matches (List.replicate (n + 1) (.star : Token α)) text := by
  induction n with
  | zero => exact ⟨[], List.nil_suffix, rfl⟩
  | succ n ih => exact ⟨text, List.suffix_refl text, ih⟩

/-- Trailing stars give up an arbitrary end of the text. -/
theorem matches_append_stars_iff (core : Pattern α) (n : Nat) (text : List α) :
    Matches (core ++ List.replicate (n + 1) .star) text ↔
      ∃ front back, text = front ++ back ∧ Matches core front := by
  rw [matches_append_iff]
  constructor
  · rintro ⟨front, back, equal, matched, _⟩
    exact ⟨front, back, equal, matched⟩
  · rintro ⟨front, back, equal, matched⟩
    exact ⟨front, back, equal, matched, matches_replicate_star n back⟩

/-- Membership in a glob language is decided by trying every suffix at a star. -/
instance decidableMatches : (pattern : Pattern α) → (text : List α) →
    Decidable (Matches pattern text)
  | [], [] => isTrue rfl
  | [], _ :: _ => isFalse (by simp)
  | .star :: rest, text =>
      have := decidableMatches rest
      decidable_of_iff (∃ tail ∈ text.tails, Matches rest tail) (by
        simp only [List.mem_tails]
        rfl)
  | .one _ :: _, [] => isFalse (not_matches_one_nil _ _)
  | .one accepts :: rest, head :: tail =>
      have := decidableMatches rest tail
      decidable_of_iff (accepts head = true ∧ Matches rest tail)
        (matches_one_cons_iff accepts rest head tail).symm

end Library.Glob
