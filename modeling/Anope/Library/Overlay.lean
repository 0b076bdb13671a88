import Mathlib.Data.List.Induction
import Mathlib.Logic.Function.Basic
import Mathlib.Tactic.Common

/-!
# Sequences of writes

A state is a function from places to values, and a write replaces the value of
one place.  What a sequence of writes leaves at a place is what the last write
to that place has put there, so sequences with the same last writes have the
same effect.
-/

namespace Library.Overlay

universe u v

variable {σ : Type u} {α : Type v} [DecidableEq σ]

/-- Carry out a sequence of writes. -/
def overlay (state : σ → α) (writes : List (σ × α)) : σ → α :=
  writes.foldl (fun state write => Function.update state write.1 write.2) state

/-- The value that the last write to a place puts there. -/
def lastWrite (writes : List (σ × α)) (place : σ) : Option α :=
  ((writes.filter fun write => write.1 = place).getLast?).map Prod.snd

@[simp]
theorem overlay_nil (state : σ → α) : overlay state [] = state :=
  rfl

@[simp]
theorem overlay_concat (state : σ → α) (writes : List (σ × α)) (place : σ) (value : α) :
    overlay state (writes ++ [(place, value)]) =
      Function.update (overlay state writes) place value := by
  simp [overlay]

theorem lastWrite_concat (writes : List (σ × α)) (place other : σ) (value : α) :
    lastWrite (writes ++ [(place, value)]) other =
      if place = other then some value else lastWrite writes other := by
  unfold lastWrite
  by_cases same : place = other
  · simp [same]
  · simp [same]

/-- Only the last write to a place counts. -/
theorem overlay_apply (state : σ → α) (writes : List (σ × α)) (place : σ) :
    overlay state writes place = (lastWrite writes place).getD (state place) := by
  induction writes using List.reverseRecOn with
  | nil => rfl
  | append_singleton writes write ih =>
      obtain ⟨written, value⟩ := write
      rw [overlay_concat, lastWrite_concat, Function.update_apply]
      by_cases same : written = place
      · subst same
        simp
      · rw [if_neg (Ne.symm same), if_neg same, ih]

end Library.Overlay
