import Anope.Library.Strip
import Anope.Text.Formatting
import Mathlib.Data.List.TakeWhile

/-!
# What formatting codes take with them

`RemoveFormatting` takes up to five digits and commas behind a colour byte, in any order.  The
colours of a code are up to two digits, and behind a comma one or two more.  Where there are other
digits and commas behind it, they are text, and lost.
-/

namespace Anope.Text

open Library.Strip

/-! ## Formatting codes -/

/-- A digit. -/
def isDigit (chr : UInt8) : Bool :=
  0x30 ≤ chr && chr ≤ 0x39

/-- Up to two digits at the start of a text. -/
def upToTwoDigits (text : Str) : Str :=
  (text.take 2).takeWhile isDigit

/-- The number of characters behind a colour byte that belong to its code: up to two digits, and a
comma and up to two digits when digits follow it. -/
def colourArgs (text : Str) : Nat :=
  let foreground := upToTwoDigits text
  match text.drop foreground.length with
  | 44 :: rest =>
      if upToTwoDigits rest = [] then foreground.length
      else foreground.length + 1 + (upToTwoDigits rest).length
  | _ => foreground.length

/-- The hex digits and commas behind a hex colour byte. -/
def hexColourArgs (text : Str) : Nat :=
  ((text.take 13).takeWhile isHexColour).length

/-- The characters behind a formatting byte that belong to its code. -/
def codeArgs (chr : UInt8) (rest : Str) : Nat :=
  if chr = 0x03 then colourArgs rest
  else if chr = 0x04 then hexColourArgs rest
  else 0

/-- The bytes outside formatting codes. -/
def outsideCodes (buf : Str) : Str :=
  strip isFormat codeArgs 0 buf

example : outsideCodes (ascii "a\x0304,5b\x03123,\x03,7") = ascii "ab3," := by
  decide

/-- The text that is seen is extracted: no formatting byte, part of the text, all of it that is
outside codes, and the same when it is done twice. -/
structure Extracts (buf : Str) : Prop where
  clean : ∀ chr ∈ removeFormatting buf, isFormat chr = false
  sublist : (removeFormatting buf).Sublist buf
  keeps : (outsideCodes buf).Sublist (removeFormatting buf)
  twice : removeFormatting (removeFormatting buf) = removeFormatting buf

/-- Behind each colour byte, all of the digits and commas that stand there, five at most, belong
to its code. -/
def PlainColours (buf : Str) : Prop :=
  ∀ before rest, buf = before ++ 0x03 :: rest →
    ((rest.take 5).takeWhile isColour).length = colourArgs rest

/-! ## What the code takes -/

/-- The characters that `RemoveFormatting` takes behind a formatting byte. -/
def takenArgs (chr : UInt8) (rest : Str) : Nat :=
  if chr = 0x03 then ((rest.take 5).takeWhile isColour).length
  else if chr = 0x04 then hexColourArgs rest
  else 0

/-- How far a code that has been begun reaches. -/
def Code.reach : Code → Str → Nat
  | none, _ => 0
  | colour left, text => ((text.take left).takeWhile isColour).length
  | hex left, text => ((text.take left).takeWhile isHexColour).length

theorem Code.reach_cons (code : Code) (chr : UInt8) (rest : Str) :
    code.reach (chr :: rest) = if code.takes chr then code.pred.reach rest + 1 else 0 := by
  cases code with
  | none => rfl
  | colour left =>
      cases left with
      | zero => rfl
      | succ left =>
          rw [reach, List.take_succ_cons, List.takeWhile_cons]
          cases isArg : isColour chr with
          | true => simp [takes, pred, reach, isArg]
          | false => simp [takes, isArg]
  | hex left =>
      cases left with
      | zero => rfl
      | succ left =>
          rw [reach, List.take_succ_cons, List.takeWhile_cons]
          cases isArg : isHexColour chr with
          | true => simp [takes, pred, reach, isArg]
          | false => simp [takes, isArg]

/-- Behind a formatting byte that is in no code, its own code reaches as far as it takes. -/
theorem Code.reach_next {code : Code} {chr : UInt8} (left : code.takes chr = false) (rest : Str) :
    (code.next chr).reach rest = takenArgs chr rest := by
  rw [next, left, if_neg Bool.false_ne_true, takenArgs]
  split
  · rfl
  · split <;> rfl

theorem removeFormattingFrom_eq_strip (code : Code) (text : Str) :
    removeFormattingFrom code text = strip isFormat takenArgs (code.reach text) text := by
  induction text generalizing code with
  | nil => rw [removeFormattingFrom, strip]
  | cons chr rest ih =>
      rw [removeFormattingFrom, Code.reach_cons, Code.hides, ih]
      cases taken : code.takes chr with
      | true =>
          rw [Code.next, taken]
          simp [strip]
      | false =>
          simp only [Bool.false_or, Bool.false_eq_true, if_false, strip]
          split
          · rw [Code.reach_next taken]
          next isPlain =>
            rw [Code.next_of_plain (Bool.eq_false_iff.mpr isPlain) taken]
            rfl

theorem removeFormatting_eq_strip (buf : Str) :
    removeFormatting buf = strip isFormat takenArgs 0 buf := by
  rw [removeFormatting, removeFormattingFrom_eq_strip]
  cases buf <;> rfl

/-! ## It takes at least what belongs to a code -/

theorem isColour_of_isDigit {chr : UInt8} (digit : isDigit chr = true) : isColour chr = true := by
  rw [isDigit] at digit
  rw [isColour, digit, Bool.or_true]

theorem upToTwoDigits_append (text : Str) :
    upToTwoDigits text ++ text.drop (upToTwoDigits text).length = text := by
  have isPrefix : upToTwoDigits text <+: text :=
    (List.takeWhile_prefix isDigit).trans (List.take_prefix 2 text)
  exact List.prefix_iff_eq_append.mp isPrefix

theorem isColour_of_mem_upToTwoDigits {text : Str} {chr : UInt8}
    (mem : chr ∈ upToTwoDigits text) : isColour chr = true :=
  isColour_of_isDigit (List.mem_takeWhile_imp mem)

theorem length_upToTwoDigits_le (text : Str) : (upToTwoDigits text).length ≤ 2 :=
  (List.takeWhile_prefix isDigit).length_le.trans (List.length_take_le 2 text)

/-- The arguments of a colour code are at most five digits and commas. -/
theorem colourArgs_spec (text : Str) :
    ∃ args rest, text = args ++ rest ∧ args.length = colourArgs text ∧ args.length ≤ 5 ∧
      ∀ chr ∈ args, isColour chr = true := by
  have short := length_upToTwoDigits_le text
  have split := upToTwoDigits_append text
  have foreground : ∃ args rest, text = args ++ rest ∧
      args.length = (upToTwoDigits text).length ∧ args.length ≤ 5 ∧
      ∀ chr ∈ args, isColour chr = true :=
    ⟨_, _, split.symm, rfl, short.trans (by decide),
      fun chr mem => isColour_of_mem_upToTwoDigits mem⟩
  rw [colourArgs]
  split
  next rest isComma =>
    split
    · exact foreground
    · have short' := length_upToTwoDigits_le rest
      have split' := upToTwoDigits_append rest
      refine ⟨upToTwoDigits text ++ 44 :: upToTwoDigits rest,
        rest.drop (upToTwoDigits rest).length, ?_, ?_, ?_, ?_⟩
      · rw [List.append_assoc, List.cons_append, split', ← isComma, split]
      · rw [List.length_append, List.length_cons]
        omega
      · rw [List.length_append, List.length_cons]
        omega
      · intro chr mem
        rw [List.mem_append, List.mem_cons] at mem
        rcases mem with mem | rfl | mem
        · exact isColour_of_mem_upToTwoDigits mem
        · rfl
        · exact isColour_of_mem_upToTwoDigits mem
  · exact foreground

theorem colourArgs_le (rest : Str) :
    colourArgs rest ≤ ((rest.take 5).takeWhile isColour).length := by
  obtain ⟨args, behind, split, length, short, areArgs⟩ := colourArgs_spec rest
  rw [← length, split, List.take_append, List.take_of_length_le short,
    List.takeWhile_append_of_pos areArgs, List.length_append]
  exact Nat.le_add_right _ _

/-- What is taken behind a formatting byte is no formatting. -/
theorem isFormat_of_mem_takenArgs {chr : UInt8} {rest : Str} {arg : UInt8}
    (mem : arg ∈ rest.take (takenArgs chr rest)) : isFormat arg = false := by
  have ofPrefix : ∀ (count : Nat) (takes : UInt8 → Bool),
      rest.take ((rest.take count).takeWhile takes).length = (rest.take count).takeWhile takes := by
    intro count takes
    have isPrefix := (List.takeWhile_prefix takes).trans (List.take_prefix count rest)
    exact (List.prefix_iff_eq_take.mp isPrefix).symm
  rw [takenArgs] at mem
  split at mem
  · rw [ofPrefix] at mem
    exact isFormat_of_isColour (List.mem_takeWhile_imp mem)
  · split at mem
    · rw [hexColourArgs, ofPrefix] at mem
      exact isFormat_of_isHexColour (List.mem_takeWhile_imp mem)
    · simp at mem

theorem takenArgs_le_length (chr : UInt8) (rest : Str) : takenArgs chr rest ≤ rest.length := by
  have ofPrefix : ∀ (count : Nat) (takes : UInt8 → Bool),
      ((rest.take count).takeWhile takes).length ≤ rest.length := fun count takes =>
    ((List.takeWhile_prefix takes).trans (List.take_prefix count rest)).length_le
  rw [takenArgs]
  split
  · exact ofPrefix 5 isColour
  · split
    · exact ofPrefix 13 isHexColour
    · exact Nat.zero_le _

theorem widens_takenArgs : Widens isFormat codeArgs takenArgs where
  le chr rest _ := by
    rw [codeArgs, takenArgs]
    split
    · exact colourArgs_le rest
    · exact Nat.le_refl _
  inside chr rest _ := takenArgs_le_length chr rest
  unmarked _ _ _ _ mem := isFormat_of_mem_takenArgs mem

theorem sameArgs_iff (buf : Str) : SameArgs isFormat codeArgs takenArgs buf ↔ PlainColours buf := by
  constructor
  · intro same before rest split
    have here := same before 0x03 rest split rfl
    rw [codeArgs, takenArgs, if_pos rfl, if_pos rfl] at here
    exact here.symm
  · intro plain before chr rest split _
    rw [codeArgs, takenArgs]
    split
    next isColour =>
      subst isColour
      exact (plain before rest split).symm
    · rfl

/-! ## The property -/

/-- Visible text is extracted exactly where no digit or comma behind a colour code is text. -/
theorem extracts_iff (buf : Str) : Extracts buf ↔ PlainColours buf := by
  rw [← sameArgs_iff, ← widens_takenArgs.sublist_iff, ← removeFormatting_eq_strip]
  constructor
  · exact Extracts.keeps
  · intro keeps
    refine ⟨?_, ?_, keeps, ?_⟩
    · intro chr mem
      rw [removeFormatting_eq_strip] at mem
      exact marks_of_mem_strip mem
    · rw [removeFormatting_eq_strip]
      exact strip_sublist 0 buf
    · rw [removeFormatting_eq_strip, removeFormatting_eq_strip, strip_strip]

/-- The third digit behind a colour is text. -/
theorem not_extracts_digits : ¬Extracts (ascii "\x0312345 apples") := by
  intro extracts
  exact absurd extracts.keeps (by decide)

end Anope.Text
