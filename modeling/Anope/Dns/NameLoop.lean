import Anope.Dns.Wire
import Anope.Library.While

/-!
# Reading a name ends

The loop of `Packet::UnpackName` as passes over its local variables.  A label moves
the pointer on and a compression pointer lowers the bound for the next one, so that
the number of passes is bounded whatever the buffer is.  The cursor is left behind
the labels that stand at the start, or behind the first compression pointer.
-/

namespace Anope.Dns

open Library.Scan
open Library.While

/-- The local variables of `Packet::UnpackName`. -/
structure NameState where
  posPtr : Nat
  lowestPtr : Nat
  pos : Nat
  compressed : Bool
  name : Str
  deriving DecidableEq, Repr

/-- A pass of the loop of `Packet::UnpackName`. -/
def namePass (input : Str) (state : NameState) : Pass NameState (Result (Str × Nat)) :=
  match input[state.posPtr]? with
  | none => .done (.error .outOfBounds)
  | some offset =>
      if offset = 0 then .done (.ok (state.name, state.pos + 1))
      else if offset &&& 0xC0 ≠ 0 then
        if offset &&& 0xC0 ≠ 0xC0 then
          .done (.error (.thrown "Unable to unpack name - bogus compression header"))
        else if state.posPtr + 1 ≥ input.length then
          .done (.error (.thrown "Unable to unpack name - bogus compression header"))
        else
          match input[state.posPtr + 1]? with
          | none => .done (.error .outOfBounds)
          | some low =>
              let pos := if state.compressed then state.pos else state.pos + 1
              if pointerTarget offset low ≥ state.lowestPtr then
                .done (.error (.thrown "Unable to unpack name - bogus compression pointer"))
              else
                .goOn ⟨pointerTarget offset low, pointerTarget offset low, pos, true, state.name⟩
      else if state.posPtr + offset.toNat + 1 ≥ input.length then
        .done (.error (.thrown "Unable to unpack name - offset too large"))
      else
        match readAt input (state.posPtr + 1) offset.toNat with
        | .error fault => .done (.error fault)
        | .ok label =>
            let next := state.posPtr + (offset.toNat + 1)
            .goOn ⟨next, state.lowestPtr, if state.compressed then state.pos else next,
              state.compressed, appendLabel state.name label⟩

/-! ## The passes -/

variable {input : Str}

/-- The loop ends with what `unpackNameLoop` gives. -/
theorem ends_namePass (posPtr lowestPtr pos : Nat) (compressed : Bool) (name : Str) :
    Ends (namePass input) ⟨posPtr, lowestPtr, pos, compressed, name⟩
      (unpackNameLoop input posPtr lowestPtr pos compressed name) := by
  fun_induction unpackNameLoop input posPtr lowestPtr pos compressed name
  case case7 first nonzero marked pointer short low second pos back ih =>
    refine ends_of_goOn ?_ ih
    simp only [namePass, first, second]
    rw [if_neg nonzero, if_pos marked, if_neg pointer, if_neg short, if_neg back]
    rfl
  case case10 first nonzero plain inside label read next ih =>
    refine ends_of_goOn ?_ ih
    simp only [namePass, first, read]
    rw [if_neg nonzero, if_neg plain, if_neg inside]
    rfl
  all_goals
    apply ends_of_done
    simp_all [namePass]

/-- What a pass that goes on does: the pointer moves on within the buffer, or its bound is
lowered. -/
theorem namePass_goOn {state next : NameState} (isNext : namePass input state = .goOn next) :
    next.lowestPtr = state.lowestPtr ∧ state.posPtr < next.posPtr ∧ next.posPtr < input.length ∨
      next.lowestPtr < state.lowestPtr := by
  revert isNext
  fun_cases namePass input state
  case case7 first nonzero marked pointer short low second pos back =>
    rintro ⟨⟩
    exact .inr (not_le.mp back)
  case case10 offset first nonzero plain inside label read next =>
    rintro ⟨⟩
    have bound : state.posPtr + (offset.toNat + 1) < input.length := by omega
    exact .inl ⟨rfl, Nat.lt_add_of_pos_right (Nat.succ_pos _), bound⟩
  all_goals exact fun isNext => by cases isNext

/-- What every pass makes smaller. -/
def NameState.size (input : Str) (state : NameState) : Nat :=
  state.lowestPtr * (input.length + 1) + (input.length - state.posPtr)

theorem size_lt_of_namePass {state next : NameState}
    (isNext : namePass input state = .goOn next) : next.size input < state.size input := by
  rcases namePass_goOn isNext with ⟨lowest, later, inside⟩ | lower
  · rw [NameState.size, NameState.size, lowest]
    omega
  · have product : (next.lowestPtr + 1) * (input.length + 1) ≤
        state.lowestPtr * (input.length + 1) := Nat.mul_le_mul_right _ lower
    rw [Nat.succ_mul] at product
    rw [NameState.size, NameState.size]
    omega

/-- The number of passes is bounded by the buffer alone. -/
theorem within_namePass (start : Nat) :
    within (namePass input) ((input.length + 1) * (input.length + 1))
        ⟨start, input.length, start, false, []⟩ =
      some (unpackNameLoop input start input.length start false []) := by
  have enough : NameState.size input ⟨start, input.length, start, false, []⟩ <
      (input.length + 1) * (input.length + 1) := by
    rw [NameState.size, Nat.succ_mul]
    dsimp only
    omega
  obtain ⟨result, reached⟩ := within_of_measure (fun _ => True) (NameState.size input)
    (fun _ isNext => ⟨trivial, size_lt_of_namePass isNext⟩) trivial enough
  rw [reached, Ends.unique ⟨_, reached⟩ (ends_namePass start input.length start false [])]

/-! ## The cursor -/

/-- Labels stand between two places, one behind the other. -/
inductive PlainLabels (input : Str) : Nat → Nat → Prop
  | none {pos : Nat} : PlainLabels input pos pos
  | label {pos stop : Nat} {offset : UInt8} (first : input[pos]? = some offset)
      (nonzero : offset ≠ 0) (plain : offset &&& 0xC0 = 0)
      (tail : PlainLabels input (pos + (offset.toNat + 1)) stop) : PlainLabels input pos stop

/-- The place behind what stands at a place where a name's own labels stop: the zero byte, or
the two bytes of a compression pointer. -/
def behindStop (input : Str) (stop : Nat) : Option Nat :=
  match input[stop]? with
  | some offset =>
      if offset = 0 then some (stop + 1)
      else if offset &&& 0xC0 = 0xC0 then some (stop + 2)
      else none
  | none => none

/-- A name is behind its own labels and what they stop at. -/
theorem LabelsAt.exists_plainLabels {pos limit next : Nat} {labels : List Str}
    (at_ : LabelsAt input pos limit labels next) :
    ∃ stop, PlainLabels input pos stop ∧ behindStop input stop = some next := by
  induction at_ with
  | root zero => exact ⟨_, .none, by simp [behindStop, zero]⟩
  | label first nonzero plain inside tail ih =>
      obtain ⟨stop, plainLabels, behind⟩ := ih
      exact ⟨stop, .label first nonzero plain plainLabels, behind⟩
  | @pointer pos limit next offset low labels first marked second back tail ih =>
      refine ⟨pos, .none, ?_⟩
      have nonzero : offset ≠ 0 := by
        rintro rfl
        exact absurd marked (by decide)
      rw [behindStop, first]
      simp only [nonzero, marked, if_false, if_true]

/-- For every buffer and every start the loop ends after a bounded number of passes.  When
the name is read, the cursor is behind the start and within the buffer, at the place behind
the labels that stand at the start and what they stop at. -/
theorem unpackName_ends (input : Str) (start : Nat) :
    within (namePass input) ((input.length + 1) * (input.length + 1))
        ⟨start, input.length, start, false, []⟩ =
      some (unpackNameLoop input start input.length start false []) ∧
    ∀ name next, unpackName input start = .ok (name, next) →
      start < next ∧ next ≤ input.length ∧
        ∃ stop, PlainLabels input start stop ∧ behindStop input stop = some next := by
  refine ⟨within_namePass start, fun name next read => ?_⟩
  obtain ⟨labels, at_, -⟩ := unpackName_eq_ok_iff.mp read
  exact ⟨at_.next_bounds.1, at_.next_bounds.2, at_.exists_plainLabels⟩

end Anope.Dns
