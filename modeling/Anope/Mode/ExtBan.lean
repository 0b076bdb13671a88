import Anope.Library.Split
import Anope.Mode.Core

/-!
# Extended bans of InspIRCd

The virtual list modes of `InspIRCdExtBan`.  A mask is an optional `!`, a name or
letter, a colon and a value; `Unwrap` leaves the value and `Wrap` puts the name or
letter of its mode in front of it again.
-/

namespace Anope.Mode

open Library

/-- The characters of the names of extbans. -/
def isExtBanLetter (c : UInt8) : Bool :=
  (65 ≤ c && c ≤ 90) || (97 ≤ c && c ≤ 122)

/-- Whether a text starts with `!`, and what is behind that. -/
def takeInversion : Str → Bool × Str
  | [] => (false, [])
  | c :: text => if c = 33 then (true, text) else (false, c :: text)

/-- `IsExtBan`: the inversion, the name and the value of a mask. -/
def isExtBan (str : Str) : Option (Bool × Str × Str) :=
  match Split.splitFirst (fun c => !isExtBanLetter c) (takeInversion str).2 with
  | none => none
  | some (name, separator, value) =>
      if separator = 58 ∧ value ≠ [] then some ((takeInversion str).1, name, value) else none

/-- `InspIRCdExtBan::Base`; the letter is zero where there is none. -/
structure ExtBan where
  xbchar : UInt8
  xbname : Str

namespace ExtBan

/-- The name or letter that `Wrap` writes. -/
def xbprefix (namedExtbans : Bool) (xb : ExtBan) : Str :=
  if namedExtbans || xb.xbchar == 0 then xb.xbname else [xb.xbchar]

/-- The text that `Base::Wrap` gives. -/
def wrap (namedExtbans : Bool) (xb : ExtBan) (param : Str) : Str :=
  xb.xbprefix namedExtbans ++ 58 :: param

/-- A name or letter is that of the mode. -/
def isNamed (xb : ExtBan) (name : Str) : Bool :=
  if name.length = 1 then name == [xb.xbchar] else name == xb.xbname

/-- `Base::Unwrap` of a mode of some type: the value, if the mode recognises the text. -/
def unwrap (xb : ExtBan) (type : ModeType) (param : Str) : Option Str :=
  if type ≠ .list then none
  else
    match isExtBan param with
    | none => none
    | some (_, name, value) => if xb.isNamed name then some value else none

end ExtBan

/-- A text before the colon as `IsExtBan` reads it. -/
def readName (text : Str) : Option (Bool × Str) :=
  if (takeInversion text).2.all isExtBanLetter then some (takeInversion text) else none

theorem takeInversion_append (text value : Str) :
    takeInversion (text ++ 58 :: value) =
      ((takeInversion text).1, (takeInversion text).2 ++ 58 :: value) := by
  cases text with
  | nil => rfl
  | cons c text =>
      rw [List.cons_append, takeInversion, takeInversion]
      split <;> rfl

theorem all_letters_iff {text : Str} :
    text.all isExtBanLetter = true ↔ ∀ c ∈ text, (!isExtBanLetter c) = false := by
  rw [List.all_eq_true]
  exact forall₂_congr fun c _ => by rw [Bool.not_eq_false']

theorem readName_eq_some_iff {text name : Str} {inverted : Bool} :
    readName text = some (inverted, name) ↔
      takeInversion text = (inverted, name) ∧ name.all isExtBanLetter = true := by
  rw [readName, Option.ite_none_right_eq_some, Option.some_inj, and_comm]
  refine and_congr_right fun is => ?_
  rw [is]

theorem isExtBan_eq_some_iff {str name value : Str} {inverted : Bool} :
    isExtBan str = some (inverted, name, value) ↔
      takeInversion str = (inverted, name ++ 58 :: value) ∧ name.all isExtBanLetter = true ∧
        value ≠ [] := by
  rw [isExtBan, all_letters_iff]
  cases is : Split.splitFirst (fun c => !isExtBanLetter c) (takeInversion str).2 with
  | none =>
      refine iff_of_false (fun same => nomatch same) fun ⟨reads, letters, _⟩ => ?_
      have found : Split.splitFirst (fun c => !isExtBanLetter c) (name ++ 58 :: value) =
          some (name, 58, value) := Split.splitFirst_append letters rfl
      rw [reads, found] at is
      exact nomatch is
  | some pieces =>
      obtain ⟨before, separator, after⟩ := pieces
      obtain ⟨text, _, letters⟩ := Split.splitFirst_eq_some_iff.mp is
      constructor
      · intro accepted
        obtain ⟨⟨colon, nonempty⟩, same⟩ := Option.ite_none_right_eq_some.mp accepted
        cases same
        exact ⟨Prod.ext rfl (colon ▸ text), letters, nonempty⟩
      · rintro ⟨reads, isLetters, nonempty⟩
        have found : Split.splitFirst (fun c => !isExtBanLetter c) (name ++ 58 :: value) =
            some (name, 58, value) := Split.splitFirst_append isLetters rfl
        rw [reads, found] at is
        cases is
        exact (if_pos ⟨rfl, nonempty⟩).trans (by rw [reads])

/-- A mask has the value behind its first colon exactly when what stands before reads as
a name. -/
theorem isExtBan_append_iff {text value name : Str} {inverted : Bool} :
    isExtBan (text ++ 58 :: value) = some (inverted, name, value) ↔
      value ≠ [] ∧ readName text = some (inverted, name) := by
  rw [isExtBan_eq_some_iff, readName_eq_some_iff, takeInversion_append, Prod.mk.injEq,
    List.append_cancel_right_eq, ← Prod.mk.injEq]
  tauto

namespace ExtBan

/-- A mask is an extban of the mode, inverted or not, with a value. -/
def Denotes (xb : ExtBan) (mask : Str) (inverted : Bool) (value : Str) : Prop :=
  ∃ name, isExtBan mask = some (inverted, name, value) ∧ xb.isNamed name = true

/-- What `Wrap` writes before the colon reads as a name or letter of the mode. -/
def Reads (namedExtbans : Bool) (xb : ExtBan) (inverted : Bool) : Prop :=
  ∃ name, readName (xb.xbprefix namedExtbans) = some (inverted, name) ∧ xb.isNamed name = true

variable {namedExtbans : Bool} {xb : ExtBan} {param value : Str}

/-- A mode recognises exactly the masks that are extbans of it, and leaves the value. -/
theorem unwrap_eq_some_iff :
    xb.unwrap .list param = some value ↔ ∃ inverted, xb.Denotes param inverted value := by
  rw [unwrap, if_neg (by simp)]
  cases is : isExtBan param with
  | none =>
      refine iff_of_false (fun same => nomatch same) ?_
      rintro ⟨_, _, found, _⟩
      exact nomatch is.symm.trans found
  | some parts =>
      obtain ⟨inverted, name, text⟩ := parts
      constructor
      · intro recognised
        obtain ⟨named, same⟩ := Option.ite_none_right_eq_some.mp recognised
        cases same
        exact ⟨inverted, name, is, named⟩
      · rintro ⟨_, _, found, named⟩
        cases is.symm.trans found
        exact if_pos named

/-- A wrapped value is an extban of the mode exactly when it is not empty and the mode
recognises what was written before it. -/
theorem denotes_wrap_iff {inverted : Bool} :
    xb.Denotes (xb.wrap namedExtbans value) inverted value ↔
      value ≠ [] ∧ xb.Reads namedExtbans inverted := by
  rw [Denotes, Reads, wrap, ← exists_and_left]
  refine exists_congr fun name => ?_
  rw [isExtBan_append_iff, and_assoc]

/-- The name or letter of a mode, when it consists of letters, is never inverted. -/
theorem reads_iff_of_letters
    (letters : (xb.xbprefix namedExtbans).all isExtBanLetter = true)
    (named : xb.isNamed (xb.xbprefix namedExtbans) = true) (inverted : Bool) :
    xb.Reads namedExtbans inverted ↔ inverted = false := by
  have plain : takeInversion (xb.xbprefix namedExtbans) =
      (false, xb.xbprefix namedExtbans) := by
    cases isPrefix : xb.xbprefix namedExtbans with
    | nil => rfl
    | cons c text =>
        rw [isPrefix, List.all_cons, Bool.and_eq_true] at letters
        refine if_neg fun isMark => ?_
        rw [isMark] at letters
        exact absurd letters.1 (by decide)
  simp only [Reads, readName_eq_some_iff, plain, Prod.mk.injEq]
  constructor
  · rintro ⟨_, ⟨⟨rfl, _⟩, _⟩, _⟩
    rfl
  · rintro rfl
    exact ⟨_, ⟨⟨rfl, rfl⟩, letters⟩, named⟩

/-- An extban survives unwrapping exactly when what `Wrap` writes reads as its mode with
the same inversion, and a value survives wrapping exactly when it is not empty and the
mode recognises what `Wrap` writes.  For names and letters as InspIRCd has them, that is
when the mask is not inverted. -/
theorem survives_iff (namedExtbans : Bool) (xb : ExtBan) (m : Str) (inverted : Bool) (value : Str)
    (denotes : xb.Denotes m inverted value) :
    ((∀ text, xb.unwrap .list m = some text →
          xb.Denotes (xb.wrap namedExtbans text) inverted value) ↔
        xb.Reads namedExtbans inverted) ∧
      (∀ text, xb.unwrap .list (xb.wrap namedExtbans text) = some text ↔
        text ≠ [] ∧ ∃ inverted, xb.Reads namedExtbans inverted) ∧
      ((xb.xbprefix namedExtbans).all isExtBanLetter = true →
        xb.isNamed (xb.xbprefix namedExtbans) = true →
          ∀ inverted, xb.Reads namedExtbans inverted ↔ inverted = false) := by
  have isValue : xb.unwrap .list m = some value := unwrap_eq_some_iff.mpr ⟨inverted, denotes⟩
  have nonempty : value ≠ [] := by
    obtain ⟨name, accepted, _⟩ := denotes
    exact (isExtBan_eq_some_iff.mp accepted).2.2
  refine ⟨?_, fun text => ?_, reads_iff_of_letters⟩
  · constructor
    · exact fun all => (denotes_wrap_iff.mp (all value isValue)).2
    · intro reads text isText
      cases isValue.symm.trans isText
      exact denotes_wrap_iff.mpr ⟨nonempty, reads⟩
  · rw [unwrap_eq_some_iff, ← exists_and_left]
    exact exists_congr fun _ => denotes_wrap_iff

/-- `acting:mute=m`. -/
def mute : ExtBan where
  xbchar := 109
  xbname := ascii "mute"

theorem survives_mute :
    mute.unwrap .list (ascii "m:nick!*@*") = some (ascii "nick!*@*") ∧
      mute.Denotes (mute.wrap true (ascii "nick!*@*")) false (ascii "nick!*@*") := by
  have survives := survives_iff true mute (ascii "m:nick!*@*") false (ascii "nick!*@*")
    ⟨ascii "m", by decide, by decide⟩
  have unwrapped : mute.unwrap .list (ascii "m:nick!*@*") = some (ascii "nick!*@*") := by decide
  have reads := (survives.2.2 (by decide) (by decide) false).mpr rfl
  exact ⟨unwrapped, survives.1.mpr reads _ unwrapped⟩

/-- An inverted extban loses its inversion. -/
theorem not_survives_inverted :
    mute.Denotes (ascii "!m:nick!*@*") true (ascii "nick!*@*") ∧
      ¬ ∀ text, mute.unwrap .list (ascii "!m:nick!*@*") = some text →
        mute.Denotes (mute.wrap true text) true (ascii "nick!*@*") := by
  refine ⟨⟨ascii "m", by decide, by decide⟩, fun all => ?_⟩
  obtain ⟨name, accepted, _⟩ := all (ascii "nick!*@*") (by decide)
  have actual : isExtBan (mute.wrap true (ascii "nick!*@*")) =
      some (false, ascii "mute", ascii "nick!*@*") := by
    decide
  exact nomatch actual.symm.trans accepted

end ExtBan

end Anope.Mode
