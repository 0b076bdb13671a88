import Anope.Library.Glob
import Anope.Text.Casemap

/-!
# The glob matcher

`Anope::Match` without the regular-expression form.  A first loop compares the
part of the mask before its first star; the main loop keeps two cursors and,
once a star has been passed, the pair of positions to resume from after a
mismatch.  A last rule then skips one star at the end of the mask.

The cursors are indices into the two strings, as in the source.  Reading the
mask at its length gives the terminator of the underlying `std::string`;
reading further has no defined result.
-/

namespace Anope.Text.Match

open Library.Glob

/-- The character `*`. -/
def star : UInt8 := 42

/-- The character `?`. -/
def question : UInt8 := 63

/-- How a call of the matcher ends. -/
inductive Outcome where
  /-- The function returns this value. -/
  | ret (result : Bool)
  /-- The mask is read beyond its terminator. -/
  | overrun
  /-- The step budget of the model is used up. -/
  | timeout
  deriving DecidableEq, Repr

/-- `Anope::string::operator[]`: the position just past the end holds the
terminator, and there is nothing to read beyond it. -/
def charAt (text : Str) (i : Nat) : Option UInt8 :=
  if i = text.length then some 0 else text[i]?

section Code

variable (casemap : Casemap) (caseSensitive : Bool)

/-- The comparison of one mask character with one character of the string. -/
def sameChar (wild string : UInt8) : Bool :=
  if caseSensitive then wild == string
  else casemap.tolower wild == casemap.tolower string

/-- The test that one character of the mask other than a star makes. -/
def accepts (wild string : UInt8) : Bool :=
  sameChar casemap caseSensitive wild string || wild == question

/-- The first loop.  Both cursors start at zero and advance together until the
string, the mask or the part before the first star ends; `none` is the early
`return false`. -/
def literalLoop : Str → Str → Nat → Option Nat
  | string :: str, wild :: mask, i =>
      if wild = star then some i
      else if !accepts casemap caseSensitive wild string then none
      else literalLoop str mask (i + 1)
  | [], _, i => some i
  | _ :: _, [], i => some i

/-- The rule after the main loop: skip one star, then require the end of the
mask. -/
def finish (mask : Str) (m : Nat) : Outcome :=
  let m := if m < mask.length ∧ mask[m]? = some star then m + 1 else m
  .ret (m = mask.length)

/-- The main loop.  `saved` is the pair `(sp, mp)`; before the first star both
are `npos`, so that resuming from them leaves the loop and fails. -/
def scan (str mask : Str) : Nat → Nat → Nat → Option (Nat × Nat) → Outcome
  | 0, _, _, _ => .timeout
  | fuel + 1, s, m, saved =>
      match str[s]? with
      | none => finish mask m
      | some string =>
          match charAt mask m with
          | none => .overrun
          | some wild =>
              if wild = star then
                if m + 1 = mask.length then .ret true
                else scan str mask fuel s (m + 1) (some (s + 1, m + 1))
              else if accepts casemap caseSensitive wild string then
                scan str mask fuel (s + 1) (m + 1) saved
              else
                match saved with
                | none => .ret false
                | some (sp, mp) => scan str mask fuel sp mp (some (sp + 1, mp))

/-- `Anope::Match(str, mask, case_sensitive, false)`. -/
def matchMask (str mask : Str) : Outcome :=
  match literalLoop casemap caseSensitive str mask 0 with
  | none => .ret false
  | some i =>
      scan casemap caseSensitive str mask
        ((mask.length + 2) * (str.length + 2)) i i none

/-- `Anope::Match(str, mask)` with its default arguments. -/
def globMatch (str mask : Str) : Bool :=
  matchMask casemap false str mask = .ret true

/-- The glob pattern a mask denotes. -/
def pattern (mask : Str) : Pattern UInt8 :=
  mask.map fun wild =>
    if wild = star then .star
    else .one (accepts casemap caseSensitive wild)

/-- The glob language of a mask. -/
def Language (mask str : Str) : Prop :=
  Matches (pattern casemap caseSensitive mask) str

instance (mask str : Str) : Decidable (Language casemap caseSensitive mask str) :=
  inferInstanceAs (Decidable (Matches _ _))

end Code

end Anope.Text.Match
