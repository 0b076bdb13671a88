import Anope.Library.Split
import Anope.Text.Casemap
import Mathlib.Data.List.TakeWhile

/-!
# CTCP messages

A CTCP message stands between two SOH octets: a name, and behind a space a body.  The parser does
without the second SOH, and passes over further spaces before the body.
-/

namespace Anope.Text

open Library.Split

/-- What a C string ends before. -/
def cStr (text : Str) : Str :=
  text.takeWhile (· ≠ 0)

theorem cStr_eq_self_iff {text : Str} : cStr text = text ↔ 0 ∉ text := by
  rw [cStr, List.takeWhile_eq_self_iff]
  constructor
  · intro other mem
    exact absurd rfl (of_decide_eq_true (other 0 mem))
  · intro noNul chr mem
    exact decide_eq_true (ne_of_mem_of_not_mem mem noNul)

/-- `Anope::FormatCTCP`. -/
def formatCtcp (name value : Str) : Str :=
  if value = [] then [1] ++ cStr name ++ [1]
  else [1] ++ cStr name ++ [32] ++ cStr value ++ [1]

/-- `Anope::ParseCTCP`: the name and the body, which are cleared where there is no CTCP. -/
def parseCtcp : Str → Option (Str × Str)
  | start :: first :: rest =>
      if start ≠ 1 ∨ first = 1 ∨ first = 32 then none
      else
        let text := start :: first :: rest
        let endOfCtcp := if text.getLast? = some 1 then 1 else 0
        -- the space is looked for behind the first two characters
        match cut 32 rest with
        | none => some ((first :: rest).take (text.length - 1 - endOfCtcp), [])
        | some (before, after) =>
            match after.dropWhile (· = 32) with
            | [] => some (first :: before, [])
            | chr :: body =>
                some (first :: before, (chr :: body).take ((chr :: body).length - endOfCtcp))
  | _ => none

example : parseCtcp (ascii "\x01ACTION  waves") = some (ascii "ACTION", ascii "waves") := by
  decide

/-- A name that can be sent: the parser ends it at a space, and takes no SOH for its start. -/
structure IsCtcpName (name : Str) : Prop where
  nonempty : name ≠ []
  noSpace : 32 ∉ name
  noNul : 0 ∉ name
  start : name.head? ≠ some 1

/-- A text that begins with SOH followed by a name: some octet other than SOH and a space. -/
def BeginsCtcp (text : Str) : Prop :=
  ∃ first rest, text = 1 :: first :: rest ∧ first ≠ 1 ∧ first ≠ 32

variable {name value : Str}

/-- A name without a body. -/
theorem parseCtcp_name {first : UInt8} {name : Str} (notSoh : first ≠ 1) (notSpace : first ≠ 32)
    (noSpace : 32 ∉ name) : parseCtcp (1 :: first :: (name ++ [1])) = some (first :: name, []) := by
  have absent : (32 : UInt8) ∉ name ++ [1] := by simpa using noSpace
  have last : (1 :: first :: (name ++ [1])).getLast? = some 1 := by
    rw [← List.cons_append, ← List.cons_append, List.getLast?_concat]
  rw [parseCtcp, if_neg (by simp [notSoh, notSpace])]
  simp only [cut_eq_none absent, last, if_true]
  simp

/-- A name and a body. -/
theorem parseCtcp_body {first chr : UInt8} {name body : Str} (notSoh : first ≠ 1)
    (notSpace : first ≠ 32) (noSpace : 32 ∉ name) (starts : chr ≠ 32) :
    parseCtcp (1 :: first :: (name ++ 32 :: (chr :: body ++ [1]))) =
      some (first :: name, chr :: body) := by
  have last : (1 :: first :: (name ++ 32 :: (chr :: body ++ [1]))).getLast? = some 1 := by
    have whole : 1 :: first :: (name ++ 32 :: (chr :: body ++ [1])) =
        (1 :: first :: (name ++ 32 :: (chr :: body))) ++ [1] := by simp
    rw [whole, List.getLast?_concat]
  have skipped : (chr :: body ++ [1]).dropWhile (· = 32) = chr :: (body ++ [1]) := by
    rw [List.cons_append, List.dropWhile_cons_of_neg (by simpa using starts)]
  rw [parseCtcp, if_neg (by simp [notSoh, notSpace])]
  simp only [cut_append noSpace, last, skipped, if_true]
  simp

theorem parseCtcp_formatCtcp (isName : IsCtcpName name) (noNul : 0 ∉ value)
    (start : value.head? ≠ some 32) : parseCtcp (formatCtcp name value) = some (name, value) := by
  rw [formatCtcp, cStr_eq_self_iff.mpr isName.noNul, cStr_eq_self_iff.mpr noNul]
  cases name with
  | nil => exact absurd rfl isName.nonempty
  | cons first name =>
      have notSoh : first ≠ 1 := fun same => isName.start (congrArg some same)
      have noSpace := isName.noSpace
      rw [List.mem_cons, not_or] at noSpace
      cases value with
      | nil =>
          rw [if_pos rfl]
          simpa using parseCtcp_name notSoh (Ne.symm noSpace.1) noSpace.2
      | cons chr body =>
          have starts : chr ≠ 32 := fun same => start (congrArg some same)
          rw [if_neg (List.cons_ne_nil chr body)]
          have read : parseCtcp (1 :: first :: (name ++ 32 :: (chr :: body ++ [1]))) =
              some (first :: name, chr :: body) :=
            parseCtcp_body notSoh (Ne.symm noSpace.1) noSpace.2 starts
          simpa using read

theorem parseCtcp_eq_none_iff (text : Str) : parseCtcp text = none ↔ ¬BeginsCtcp text := by
  constructor
  · rintro rejected ⟨first, rest, rfl, notSoh, notSpace⟩
    rw [parseCtcp, if_neg (by simp [notSoh, notSpace])] at rejected
    dsimp only at rejected
    split at rejected
    · contradiction
    · split at rejected <;> contradiction
  · intro noName
    match text with
    | [] => rfl
    | [_] => rfl
    | start :: first :: rest =>
        rw [parseCtcp, if_pos]
        by_contra isName
        simp only [not_or, not_not] at isName
        obtain ⟨rfl, notSoh, notSpace⟩ := isName
        exact noName ⟨first, rest, rfl, notSoh, notSpace⟩

/-- CTCP messages are read as they are written, and no other text is taken for one. -/
theorem ctcp_roundTrip :
    (∀ name value, IsCtcpName name → 0 ∉ value → value.head? ≠ some 32 →
      parseCtcp (formatCtcp name value) = some (name, value)) ∧
    ∀ text, parseCtcp text = none ↔ ¬BeginsCtcp text :=
  ⟨fun _ _ isName noNul start => parseCtcp_formatCtcp isName noNul start, parseCtcp_eq_none_iff⟩

/-- A body that ends with SOH itself. -/
theorem ctcp_roundTrip_action :
    parseCtcp (formatCtcp (ascii "ACTION") (ascii "waves \x01")) =
      some (ascii "ACTION", ascii "waves \x01") :=
  ctcp_roundTrip.1 _ _ ⟨by decide, by decide, by decide, by decide⟩ (by decide) (by decide)

end Anope.Text
