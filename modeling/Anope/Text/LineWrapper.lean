import Anope.Library.While
import Anope.Text.Formatting
import Mathlib.Data.List.Basic

/-!
# Wrapping lines

`LineWrapper::GetLine` cuts a text into lines of at most so many visible characters, at spaces
where it can, and carries the formatting of a line over to the next.  The index of the last space
is one of the text, but cuts the line as well, which has the carried formatting in front; where
there is no space, the character at the break is erased from the text as if it were one.

What the source leaves undefined (the iterator of an erased element is read, and a vector grows
while it is gone over) is a failure here.
-/

namespace Anope.Text

open Library.While

/-! ## The code -/

/-- Why a call does not return. -/
inductive Failure where
  | undefined
  /-- `std::out_of_range`. -/
  | outOfRange
  deriving DecidableEq, Repr

/-- `LineWrapper`. -/
structure LineWrapper where
  maxLength : Nat
  formatting : List Str
  text : Str
  deriving DecidableEq, Repr

/-- The variables of `GetLine`, and the formatting. -/
structure Scan where
  idx : Nat
  out : Str
  currentLength : Nat
  lastSpace : Nat
  formatting : List Str
  uncertain : List Str
  deriving DecidableEq, Repr

namespace Scan

/-- `toggle_formatting`: what is turned off is read through the iterator that `erase` has
invalidated. -/
def toggleFormatting (fmt : Str) (scan : Scan) : Except Failure Scan :=
  if scan.formatting.any fun other => other.head? == fmt.head? then .error .undefined
  else .ok { scan with
    formatting := scan.formatting ++ [fmt]
    uncertain := scan.uncertain ++ [fmt] }

/-- Append to the line, and go on behind one character of the text. -/
def push (line : Str) (scan : Scan) : Scan :=
  { scan with out := scan.out ++ line, idx := scan.idx + 1 }

/-- A character that is seen. -/
def put (chr : UInt8) (scan : Scan) : Scan :=
  { scan.push [chr] with currentLength := scan.currentLength + 1 }

end Scan

/-- The colour code at a place, and how many characters behind the first the inner loop goes over:
behind a fifth character of the code it takes in one more. -/
def colourCode (rest : Str) : Str :=
  let digits := (rest.take 5).takeWhile isColour
  if digits.length = 5 then rest.take 6 else digits

/-- The hex colour code at a place: every character of it toggles and appends what there is of the
code, and a thirteenth lets the one behind it go. -/
def hexColour (digits : Str) : Nat → Scan → Except Failure Scan
  | 0, scan => .ok scan
  | count + 1, scan =>
      (hexColour digits count scan).bind fun scan =>
        let color := 0x04 :: digits.take (count + 1)
        (scan.toggleFormatting color).map fun scan => { scan with out := scan.out ++ color }

/-- The loop of `GetLine`, with the rest of the text; it has gone over the next `skip` characters
already.  The result tells whether a line break is forced. -/
def scanLine (maxLength : Nat) : Nat → Str → Scan → Except Failure (Bool × Scan)
  | _, [], scan => .ok (false, scan)
  | skip + 1, _ :: rest, scan => scanLine maxLength skip rest { scan with idx := scan.idx + 1 }
  | 0, chr :: rest, scan =>
      if maxLength ≤ scan.currentLength then
        -- `toggle_formatting` appends to the vector that the loop goes over
        if scan.uncertain = [] then .ok (true, scan) else .error .undefined
      else if isToggle chr then
        (scan.toggleFormatting [chr]).bind fun scan => scanLine maxLength 0 rest (scan.push [chr])
      else if chr = 0x03 then
        let color := chr :: colourCode rest
        (scan.toggleFormatting color).bind fun scan =>
          scanLine maxLength (color.length - 1) rest (scan.push color)
      else if chr = 0x04 then
        let digits := (rest.take 13).takeWhile isHexColour
        (hexColour digits digits.length scan).bind fun scan =>
          scanLine maxLength (if digits.length = 13 then 14 else digits.length) rest (scan.push [])
      else if chr = 0x0A ∨ chr = 0x0D then
        .ok (true, { scan with formatting := [], lastSpace := scan.idx })
      else if chr = 0x0F then
        scanLine maxLength 0 rest { scan.push [chr] with formatting := [] }
      else if chr = 0x1B then scanLine maxLength 0 rest (scan.put 0x20)
      else if chr = 0x20 then
        scanLine maxLength 0 rest { scan.put 0x20 with lastSpace := scan.idx, uncertain := [] }
      else scanLine maxLength 0 rest (scan.put chr)

/-- `GetLine`: the line and what is left, unless there is no text. -/
def LineWrapper.getLine (wrapper : LineWrapper) : Except Failure (Option (Str × LineWrapper)) :=
  if wrapper.text = [] then .ok none
  else
    (scanLine wrapper.maxLength 0 wrapper.text
      ⟨0, wrapper.formatting.flatten, 0, 0, wrapper.formatting, []⟩).bind fun (forced, scan) =>
        if forced then
          let lastSpace := if scan.lastSpace = 0 then scan.idx else scan.lastSpace
          if scan.out.length < lastSpace then .error .outOfRange
          else
            .ok (some (scan.out.take lastSpace, { wrapper with
              formatting := scan.formatting
              text := wrapper.text.drop (lastSpace + 1) }))
        else .ok (some (scan.out, { wrapper with formatting := scan.formatting, text := [] }))

/-- A turn of `for (Anope::string line; lw.GetLine(line); )`, with the lines before it. -/
def linePass (state : LineWrapper × List Str) :
    Pass (LineWrapper × List Str) (Except Failure (List Str)) :=
  match state.1.getLine with
  | .error failure => .done (.error failure)
  | .ok none => .done (.ok state.2)
  | .ok (some (line, wrapper)) => .goOn (wrapper, state.2 ++ [line])

/-- The wrapper of a text. -/
def LineWrapper.new (text : Str) (maxLength : Nat) : LineWrapper where
  maxLength := maxLength
  formatting := []
  text := text

example : within linePass 9 (.new (ascii "one \x1Dtwo\nthree four") 8, []) =
    some (.ok [ascii "one \x1Dtwo", ascii "three", ascii "four"]) := by
  decide +kernel

/-! ## Lines that keep the text -/

/-- A line feed or a carriage return. -/
def isLineBreak (chr : UInt8) : Bool :=
  chr == 0x0A || chr == 0x0D

/-- A character that a break may take away, as it is shown. -/
def isGap (chr : UInt8) : Bool :=
  chr == 0x20 || isLineBreak chr

/-- Lines are those of a text: their visible characters one after the other, with at most one
space or line break between one line and the next, or behind the last. -/
inductive Joined : Str → List Str → Prop
  | nil : Joined [] []
  | cons {line removed rest : Str} {lines : List Str} (few : removed.length ≤ 1)
      (gap : ∀ chr ∈ removed, isGap chr = true) (joined : Joined rest lines) :
      Joined (visible line ++ removed ++ rest) (line :: lines)

/-- Wrapping a text ends, and its lines are those of the text. -/
def Keeps (maxLength : Nat) (text : Str) : Prop :=
  ∃ lines, Ends linePass (.new text maxLength, []) (.ok lines) ∧ Joined (visible text) lines

/-! ## What a line needs to be cut well -/

/-- The first place of a text with so many visible characters before it, or with a line break. -/
def cutAt (maxLength : Nat) (text : Str) : Option Nat :=
  (List.range text.length).find? fun idx =>
    decide (maxLength ≤ (visible (text.take idx)).length) || text[idx]?.any isLineBreak

/-- No formatting is opened that is open already, up to a reset, and a hex colour has one digit. -/
def opens : List (Option UInt8) → Str → Bool
  | _, [] => true
  | active, chr :: rest =>
      if chr = 0x0F then opens [] rest
      else if isToggle chr || chr == 0x03 || chr == 0x04 then
        (chr != 0x04 || ((rest.take 13).takeWhile isHexColour).length == 1) &&
          !active.contains (some chr) && opens (active ++ [some chr]) rest
      else opens active rest

/-- No colour code of five characters has another character behind it. -/
def shortColours : Str → Bool
  | [] => true
  | chr :: rest =>
      (chr != 0x03 || ((rest.take 5).takeWhile isColour).length != 5 || decide (rest.length ≤ 5)) &&
        shortColours rest

/-- What is behind the last space. -/
def lastWord (text : Str) : Str :=
  (text.reverse.takeWhile fun chr => chr != 0x20).reverse

/-- The index of the last space, and 0 where there is none. -/
def lastSpaceOf (text : Str) : Nat :=
  text.length - 1 - (lastWord text).length

/-- Whether formatting is opened in a text. -/
def hasCode (text : Str) : Bool :=
  text.any fun chr => isToggle chr || chr == 0x03 || chr == 0x04

/-- Formatting that a line opens is not open already, and colour codes are short; a line that ends
before the text has no formatting carried into it, and one that ends for its length has no
formatting in its last word, and a space behind its first character or one at its end; a line that
does not has no digit behind a colour code that is carried into it. -/
def Whole (wrapper : LineWrapper) : Prop :=
  match cutAt wrapper.maxLength wrapper.text with
  | none => opens (wrapper.formatting.map List.head?) wrapper.text = true ∧
      shortColours wrapper.text = true ∧
      (Code.none.after wrapper.formatting.flatten).Left wrapper.text
  | some idx => wrapper.formatting = [] ∧ opens [] (wrapper.text.take idx) = true ∧
      shortColours (wrapper.text.take (idx + 1)) = true ∧
      ((visible (wrapper.text.take idx)).length < wrapper.maxLength ∨
        hasCode (lastWord (wrapper.text.take idx)) = false ∧
          (0 < lastSpaceOf (wrapper.text.take idx) ∨
            wrapper.text[idx]?.any (fun chr => isGap (shown chr)) = true))

instance decidableWhole (wrapper : LineWrapper) : Decidable (Whole wrapper) := by
  unfold Whole
  split <;> infer_instance

end Anope.Text
