import Mathlib.Tactic.Common

/-!
# Places that events write and keep

A system with a clock that the events alone drive, and one place in its state.
An event writes a value into the place, keeps the value there or drops it,
depending on the time.  What a history leaves in the place is what was written
last, as long as every later event has kept it.
-/

namespace Library.Retention

universe u v w x

variable {σ : Type u} {τ : Type v} {α : Type w} {ν : Type x}

/-- Every event of a history keeps a value, each at the time it happens. -/
def Kept (advance : τ → α → τ) (keeps : τ → α → Prop) : τ → List α → Prop
  | _, [] => True
  | time, event :: events =>
      keeps time event ∧ Kept advance keeps (advance time event) events

/-- A place in the states of a system with a clock. -/
structure Place (σ : Type u) (τ : Type v) (α : Type w) (ν : Type x) where
  step : σ → α → σ
  time : σ → τ
  advance : τ → α → τ
  content : σ → Option ν
  writes : τ → α → ν → Prop
  keeps : ν → τ → α → Prop
  time_step : ∀ state event, time (step state event) = advance (time state) event
  content_step : ∀ state event value, content (step state event) = some value ↔
    writes (time state) event value ∨ content state = some value ∧ keeps value (time state) event

namespace Place

variable (place : Place σ τ α ν)

/-- An event of the history wrote the value at its time, and every later event
has kept it. -/
def WrittenAndKept (value : ν) (time : τ) (events : List α) : Prop :=
  ∃ before event mid, events = before ++ event :: mid ∧
    place.writes (before.foldl place.advance time) event value ∧
      Kept place.advance (place.keeps value)
        (place.advance (before.foldl place.advance time) event) mid

/-- The first event wrote the value, or a later one did. -/
theorem writtenAndKept_cons {value : ν} {time : τ} {event : α} {events : List α} :
    place.WrittenAndKept value time (event :: events) ↔
      place.writes time event value ∧
          Kept place.advance (place.keeps value) (place.advance time event) events ∨
        place.WrittenAndKept value (place.advance time event) events := by
  constructor
  · rintro ⟨before, writer, mid, split, written, kept⟩
    cases before with
    | nil =>
        cases split
        exact .inl ⟨written, kept⟩
    | cons first before =>
        cases split
        exact .inr ⟨before, writer, mid, rfl, written, kept⟩
  · rintro (⟨written, kept⟩ | ⟨before, writer, mid, rfl, written, kept⟩)
    · exact ⟨[], event, events, rfl, written, kept⟩
    · exact ⟨event :: before, writer, mid, rfl, written, kept⟩

/-- What a history leaves in the place. -/
theorem content_foldl (state : σ) (events : List α) (value : ν) :
    place.content (events.foldl place.step state) = some value ↔
      place.WrittenAndKept value (place.time state) events ∨
        place.content state = some value ∧
          Kept place.advance (place.keeps value) (place.time state) events := by
  induction events generalizing state with
  | nil => simp [WrittenAndKept, Kept]
  | cons event events ih =>
      rw [List.foldl_cons, ih, place.time_step, place.content_step, writtenAndKept_cons, Kept]
      tauto

end Place

end Library.Retention
