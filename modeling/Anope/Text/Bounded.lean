import Anope.Text.Wrapped

/-!
# Lines that are safe to make

A call of `GetLine` is safe when it ends with a line of at most the visible characters asked for
and with less text left.  It is where no formatting is opened twice, the colours of the line are
ones that the scan reads right, and no word that is wrapped opens formatting.
-/

namespace Anope.Text

open Library.While

/-! ## What is seen of parts of a text -/

variable {maxLength : Nat} {text : Str}

/-- The call ends with a line that has at most the visible characters asked for, and with less text
left. -/
def SafeCall (wrapper : LineWrapper) : Prop :=
  wrapper.text ≠ [] → ∃ line rest, wrapper.getLine = .ok (some (line, rest)) ∧
    rest.text.length < wrapper.text.length ∧ (visible line).length ≤ wrapper.maxLength

/-- Up to where the line ends, no formatting is opened that is open already, a hex colour has one
digit, and a colour code of five characters has none behind it; and a line that ends for its length
opens no formatting in its last word. -/
def Orderly (wrapper : LineWrapper) : Prop :=
  match cutAt wrapper.maxLength wrapper.text with
  | none => opens (wrapper.formatting.map List.head?) wrapper.text = true ∧
      shortColours wrapper.text = true
  | some idx => opens (wrapper.formatting.map List.head?) (wrapper.text.take idx) = true ∧
      shortColours (wrapper.text.take (idx + 1)) = true ∧
      ((visible (wrapper.text.take idx)).length < wrapper.maxLength ∨
        hasCode (lastWord (wrapper.text.take idx)) = false)

instance decidableOrderly (wrapper : LineWrapper) : Decidable (Orderly wrapper) :=
  match isCut : cutAt wrapper.maxLength wrapper.text with
  | none => decidable_of_iff
      (opens (wrapper.formatting.map List.head?) wrapper.text && shortColours wrapper.text) (by
        rw [Orderly, isCut]
        exact Bool.and_eq_true_iff)
  | some idx => decidable_of_iff
      (opens (wrapper.formatting.map List.head?) (wrapper.text.take idx) &&
        (shortColours (wrapper.text.take (idx + 1)) &&
          (decide ((visible (wrapper.text.take idx)).length < wrapper.maxLength) ||
            !hasCode (lastWord (wrapper.text.take idx))))) (by
        rw [Orderly, isCut]
        simp only [Bool.and_eq_true, Bool.or_eq_true, decide_eq_true_eq, Bool.not_eq_true'])

variable {wrapper : LineWrapper}

end Anope.Text
