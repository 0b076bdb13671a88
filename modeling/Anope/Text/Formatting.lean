import Anope.Text.Casemap

/-!
# Formatting codes

The formatting of IRC messages: single characters that are turned on and off, one that resets all
of them, and two that start a colour with the digits and commas behind them.
`Anope::RemoveFormatting` leaves the characters that are seen.
-/

namespace Anope.Text

/-- Bold, italic, monospace, reverse, strikethrough and underline. -/
def isToggle (chr : UInt8) : Bool :=
  chr == 0x02 || chr == 0x1D || chr == 0x11 || chr == 0x16 || chr == 0x1E || chr == 0x1F

/-- A character of a colour code. -/
def isColour (chr : UInt8) : Bool :=
  chr == 0x2C || (0x30 ≤ chr && chr ≤ 0x39)

/-- A character of a hex colour code. -/
def isHexColour (chr : UInt8) : Bool :=
  isColour chr || (0x41 ≤ chr && chr ≤ 0x46) || (0x61 ≤ chr && chr ≤ 0x66)

/-- A character that starts or is a formatting code. -/
def isFormat (chr : UInt8) : Bool :=
  isToggle chr || chr == 0x0F || chr == 0x03 || chr == 0x04

/-- The colour code that a place in a text is in, with how many characters may still belong to
it. -/
inductive Code where
  | none
  | colour (left : Nat)
  | hex (left : Nat)
  deriving DecidableEq, Repr

namespace Code

/-- Whether the next character belongs to the code. -/
def takes : Code → UInt8 → Bool
  | none, _ => false
  | colour left, chr => left != 0 && isColour chr
  | hex left, chr => left != 0 && isHexColour chr

/-- The code with one character less to come. -/
def pred : Code → Code
  | none => none
  | colour left => colour (left - 1)
  | hex left => hex (left - 1)

/-- The code behind the next character. -/
def next (code : Code) (chr : UInt8) : Code :=
  if code.takes chr then code.pred
  else if chr = 0x03 then colour 5
  else if chr = 0x04 then hex 13
  else none

/-- The code behind a text. -/
def after (code : Code) (text : Str) : Code :=
  text.foldl next code

/-- Whether the next character is not seen. -/
def hides (code : Code) (chr : UInt8) : Bool :=
  code.takes chr || isFormat chr

end Code

/-- `RemoveFormatting` from a place in a text on.  The inner loops of the source are what a code
takes: five characters at most, or thirteen. -/
def removeFormattingFrom : Code → Str → Str
  | _, [] => []
  | code, chr :: rest =>
      if code.hides chr then removeFormattingFrom (code.next chr) rest
      else chr :: removeFormattingFrom (code.next chr) rest

/-- `RemoveFormatting`. -/
def removeFormatting (buf : Str) : Str :=
  removeFormattingFrom .none buf

example : removeFormatting (ascii "\x02a\x0304,5b\x034,12345c\x0Fd") = ascii "ab45cd" := by
  decide

/-- A character as it is shown: a non-breaking space is a space. -/
def shown (chr : UInt8) : UInt8 :=
  if chr = 0x1B then 0x20 else chr

/-- The characters of a text that are seen. -/
def visible (text : Str) : Str :=
  (removeFormatting text).map shown

variable {code : Code} {chr : UInt8}

/-! ## Characters of codes -/

theorem isFormat_of_isHexColour (isHex : isHexColour chr = true) : isFormat chr = false := by
  have ofByte : ∀ chr : UInt8, isHexColour chr = true → isFormat chr = false :=
    Library.Bits.forall_byte (by decide +kernel)
  exact ofByte chr isHex

theorem isFormat_of_isColour (isArg : isColour chr = true) : isFormat chr = false := by
  apply isFormat_of_isHexColour
  rw [isHexColour, isArg]
  rfl

/-! ## Places in a text -/

theorem removeFormattingFrom_append (code : Code) (first second : Str) :
    removeFormattingFrom code (first ++ second) =
      removeFormattingFrom code first ++ removeFormattingFrom (code.after first) second := by
  induction first generalizing code with
  | nil => rfl
  | cons chr first ih =>
      rw [List.cons_append, removeFormattingFrom, removeFormattingFrom, ih (code.next chr),
        Code.after, Code.after, List.foldl_cons]
      split
      · rfl
      · rfl

/-- A text does not go on with the code that it stands behind. -/
def Code.Left (code : Code) (rest : Str) : Prop :=
  ∀ chr ∈ rest.head?, code.takes chr = false

instance decidableLeft (code : Code) (rest : Str) : Decidable (code.Left rest) :=
  inferInstanceAs (Decidable (∀ chr ∈ rest.head?, code.takes chr = false))

theorem Code.left_none (rest : Str) : Code.none.Left rest :=
  fun _ _ => rfl

theorem Code.next_of_left (left : code.takes chr = false) : code.next chr = Code.none.next chr := by
  rw [Code.next, Code.next, left]
  rfl

theorem Code.hides_of_left (left : code.takes chr = false) : code.hides chr = isFormat chr := by
  rw [Code.hides, left, Bool.false_or]

/-- Behind a code that the text does not go on with, the text is seen as at its beginning. -/
theorem removeFormattingFrom_of_left {rest : Str} (left : code.Left rest) :
    removeFormattingFrom code rest = removeFormatting rest := by
  cases rest with
  | nil => rfl
  | cons chr rest =>
      have notTaken := left chr rfl
      rw [removeFormatting, removeFormattingFrom, removeFormattingFrom, Code.hides_of_left notTaken,
        Code.hides_of_left (Code.left_none (chr :: rest) chr rfl), Code.next_of_left notTaken]

/-- A text that is cut at a place that no code reaches over. -/
theorem visible_append {first second : Str} (left : (Code.none.after first).Left second) :
    visible (first ++ second) = visible first ++ visible second := by
  rw [visible, removeFormatting, removeFormattingFrom_append, removeFormattingFrom_of_left left,
    List.map_append]
  rfl

/-! ## Characters that are seen -/

theorem Code.next_of_plain (isPlain : isFormat chr = false) (left : code.takes chr = false) :
    code.next chr = .none := by
  simp only [isFormat, Bool.or_eq_false_iff, beq_eq_false_iff_ne] at isPlain
  rw [Code.next, left, if_neg Bool.false_ne_true, if_neg isPlain.1.2, if_neg isPlain.2]

theorem visible_concat_of_plain {text : Str} (isPlain : isFormat chr = false)
    (left : (Code.none.after text).takes chr = false) :
    visible (text ++ [chr]) = visible text ++ [shown chr] := by
  have isLeft : (Code.none.after text).Left [chr] := fun other isHead => by
    cases isHead
    exact left
  have seen : visible [chr] = [shown chr] := by
    rw [visible, removeFormatting, removeFormattingFrom, Code.hides, Code.takes, isPlain]
    rfl
  rw [visible_append isLeft, seen]

theorem shown_eq_self (isOther : chr ≠ 0x1B) : shown chr = chr :=
  if_neg isOther

end Anope.Text
