import Anope.Text.Casemap
import Mathlib.Data.List.TakeWhile
import Mathlib.Data.Nat.Digits.Defs

/-!
# Number conversion

`Anope::TryConvert<unsigned int>`: formatted extraction from a string stream in
the classic locale, which must leave nothing but white space.  A minus sign is
accepted by the extraction and negates modulo the width of the type.
-/

namespace Anope.Text.Convert

/-- `std::isspace` in the classic locale. -/
def isSpace (c : UInt8) : Bool :=
  c = 32 ∨ 9 ≤ c ∧ c ≤ 13

/-- The decimal digits. -/
def isDigit (c : UInt8) : Bool :=
  48 ≤ c ∧ c ≤ 57

/-- The number a run of decimal digits stands for. -/
def digitsValue (digits : Str) : Nat :=
  digits.foldl (fun value c => 10 * value + (c - 48).toNat) 0

/-- An optional sign: whether it is a minus, and what follows. -/
def takeSign : Str → Bool × Str
  | [] => (false, [])
  | c :: text =>
      if c = 45 then (true, text)
      else if c = 43 then (false, text)
      else (false, c :: text)

/-- `tmp >> out` for an unsigned type of the given width: the value and the
rest of the stream, or nothing when the extraction fails. -/
def extractUnsigned (width : Nat) (text : Str) : Option (Nat × Str) :=
  let (negative, text) := takeSign (text.dropWhile isSpace)
  let digits := text.takeWhile isDigit
  let value := digitsValue digits
  if digits = [] ∨ 2 ^ width ≤ value then none
  else some (if negative then (2 ^ width - value) % 2 ^ width else value, text.dropWhile isDigit)

/-- `Anope::TryConvert` without the `leftover` argument. -/
def tryConvertUnsigned (width : Nat) (text : Str) : Option Nat :=
  match extractUnsigned width text with
  | none => none
  | some (value, rest) =>
      -- `tmp >> extra` skips white space and succeeds on any other character
      if rest.dropWhile isSpace = [] then some value else none

/-- `Anope::Convert` without the `leftover` argument. -/
def convertUnsigned (width : Nat) (text : Str) (default : Nat) : Nat :=
  (tryConvertUnsigned width text).getD default

/-- What is extracted is a value of the type. -/
theorem extractUnsigned_lt {width : Nat} {text rest : Str} {value : Nat}
    (extracted : extractUnsigned width text = some (value, rest)) : value < 2 ^ width := by
  unfold extractUnsigned at extracted
  simp only at extracted
  split at extracted
  · contradiction
  · rename_i noOverflow
    cases extracted
    split
    · exact Nat.mod_lt _ (Nat.two_pow_pos width)
    · rw [not_or, Nat.not_le] at noOverflow
      exact noOverflow.2

theorem tryConvertUnsigned_lt {width : Nat} {text : Str} {value : Nat}
    (converted : tryConvertUnsigned width text = some value) : value < 2 ^ width := by
  unfold tryConvertUnsigned at converted
  split at converted
  · contradiction
  · rename_i extracted
    split at converted
    · cases converted
      exact extractUnsigned_lt extracted
    · contradiction

example : convertUnsigned 32 (ascii " 24 ") 32 = 24 := by decide +kernel

example : convertUnsigned 32 (ascii "24x") 32 = 32 := by decide +kernel

/-!
## Numbers in decimal

`std::to_string` of the integer types, the extraction of the other types that
`Anope::TryConvert` is used at, and what of a number is left when it is written
and extracted again.
-/

/-! ## Extraction -/

/-- `Anope::TryConvert` without the `leftover` argument, for any type with an
extraction. -/
def tryConvert {α : Type} (extract : Str → Option (α × Str)) (text : Str) : Option α :=
  match extract text with
  | none => none
  | some (value, rest) => if rest.dropWhile isSpace = [] then some value else none

/-- `Anope::TryConvert` with the `leftover` argument: the value, and what is left of its line. -/
def tryConvertRest {α : Type} (extract : Str → Option (α × Str)) (text : Str) :
    Option (α × Str) :=
  (extract text).map fun found => (found.1, found.2.takeWhile (· ≠ 10))

/-- `tmp >> out` for a signed type of the given width. -/
def extractSigned (width : Nat) (text : Str) : Option (Int × Str) :=
  let (negative, text) := takeSign (text.dropWhile isSpace)
  let digits := text.takeWhile isDigit
  let value := digitsValue digits
  -- the magnitude may be one greater on the negative side
  let overflows := if negative then 2 ^ width < 2 * value else 2 ^ width ≤ 2 * value
  if digits = [] ∨ overflows then none
  else some (if negative then -value else value, text.dropWhile isDigit)

/-- `tmp >> out` for `bool`: a `long` that must be zero or one. -/
def extractBool (text : Str) : Option (Bool × Str) :=
  match extractSigned 64 text with
  | some (0, rest) => some (false, rest)
  | some (1, rest) => some (true, rest)
  | _ => none

/-- `operator>>` for `Anope::string`, which takes a whole line and fails at the
end of the stream. -/
def extractLine : Str → Option (Str × Str)
  | [] => none
  | c :: text =>
      some ((c :: text).takeWhile (· ≠ 10), ((c :: text).dropWhile (· ≠ 10)).drop 1)

/-- `tmp >> out` for the character types. -/
def extractChar (text : Str) : Option (UInt8 × Str) :=
  match text.dropWhile isSpace with
  | [] => none
  | c :: rest => some (c, rest)

/-! ## Printing -/

/-- The character of a decimal digit. -/
def digit (d : Nat) : UInt8 :=
  48 + UInt8.ofNat d

/-- `std::to_string` of an unsigned number. -/
def decimal (n : Nat) : Str :=
  if n = 0 then [digit 0] else ((Nat.digits 10 n).map digit).reverse

/-- `std::to_string` of a signed number. -/
def signedDecimal (v : Int) : Str :=
  if v < 0 then 45 :: decimal v.natAbs else decimal v.natAbs

theorem isDigit_digit {d : Nat} (small : d < 10) : isDigit (digit d) = true := by
  revert d
  decide

theorem toNat_digit {d : Nat} (small : d < 10) : (digit d - 48).toNat = d := by
  revert d
  decide

theorem isDigit_of_mem_decimal {n : Nat} {c : UInt8} (mem : c ∈ decimal n) :
    isDigit c = true := by
  rw [decimal] at mem
  split at mem
  · rw [List.mem_singleton] at mem
    exact mem ▸ isDigit_digit (by omega)
  · rw [List.mem_reverse, List.mem_map] at mem
    rcases mem with ⟨d, memDigits, rfl⟩
    exact isDigit_digit (Nat.digits_lt_base (by omega) memDigits)

theorem decimal_ne_nil (n : Nat) : decimal n ≠ [] := by
  rw [decimal]
  split
  · exact List.cons_ne_nil _ _
  · rename_i positive
    rw [ne_eq, List.reverse_eq_nil_iff, List.map_eq_nil_iff, Nat.digits_eq_nil_iff_eq_zero]
    exact positive

theorem digitsValue_append (left : Str) (c : UInt8) :
    digitsValue (left ++ [c]) = 10 * digitsValue left + (c - 48).toNat := by
  rw [digitsValue, List.foldl_append]
  rfl

/-- The digits from the least significant on have the value of their number. -/
theorem digitsValue_reverse {ds : List Nat} (small : ∀ d ∈ ds, d < 10) :
    digitsValue (ds.map digit).reverse = Nat.ofDigits 10 ds := by
  induction ds with
  | nil => rfl
  | cons d ds ih =>
      rw [List.map_cons, List.reverse_cons, digitsValue_append,
        ih fun other mem => small other (List.mem_cons_of_mem d mem),
        toNat_digit (small d List.mem_cons_self), Nat.ofDigits_cons]
      exact Nat.add_comm _ _

@[simp]
theorem digitsValue_decimal (n : Nat) : digitsValue (decimal n) = n := by
  rw [decimal]
  split
  · rename_i zero
    rw [zero]
    rfl
  · rw [digitsValue_reverse fun d mem => Nat.digits_lt_base (by omega) mem, Nat.ofDigits_digits]

@[simp]
theorem takeWhile_decimal (n : Nat) : (decimal n).takeWhile isDigit = decimal n :=
  List.takeWhile_eq_self_iff.mpr fun _ mem => isDigit_of_mem_decimal mem

@[simp]
theorem dropWhile_decimal (n : Nat) : (decimal n).dropWhile isDigit = [] :=
  List.dropWhile_eq_nil_iff.mpr fun _ mem => isDigit_of_mem_decimal mem

/-- What the sign and the white space before a number leave of a text that starts with it. -/
theorem takeSign_signedDecimal_append (v : Int) (rest : Str) :
    takeSign ((signedDecimal v ++ rest).dropWhile isSpace) =
      (decide (v < 0), decimal v.natAbs ++ rest) := by
  rw [signedDecimal]
  split
  · rename_i negative
    rw [List.cons_append, List.dropWhile_cons_of_neg (by decide), takeSign, if_pos rfl,
      decide_eq_true negative]
  · rename_i positive
    rw [decide_eq_false positive]
    -- the text starts with a digit, which is neither white space nor a sign
    cases shape : decimal v.natAbs with
    | nil => exact absurd shape (decimal_ne_nil _)
    | cons c text =>
        have isDigit : isDigit c = true :=
          isDigit_of_mem_decimal (shape ▸ List.mem_cons_self)
        rw [Convert.isDigit, decide_eq_true_iff] at isDigit
        have notSpace : ¬isSpace c = true := by
          rw [isSpace, decide_eq_true_iff]
          grind
        rw [List.cons_append, List.dropWhile_cons_of_neg notSpace, takeSign, if_neg (by grind),
          if_neg (by grind)]

/-- What the sign and the white space before a number leave of its text. -/
@[simp]
theorem takeSign_signedDecimal (v : Int) :
    takeSign ((signedDecimal v).dropWhile isSpace) = (decide (v < 0), decimal v.natAbs) := by
  have whole := takeSign_signedDecimal_append v []
  rwa [List.append_nil, List.append_nil] at whole

theorem signedDecimal_natCast (n : Nat) : signedDecimal n = decimal n := by
  rw [signedDecimal, if_neg (by omega), Int.natAbs_natCast]

/-! ## Reading a number back -/

/-- The digits of a number that something else stands behind. -/
theorem digits_decimal_append (n : Nat) {rest : Str}
    (stops : ∀ c ∈ rest.head?, isDigit c = false) :
    (decimal n ++ rest).takeWhile isDigit = decimal n ∧
      (decimal n ++ rest).dropWhile isDigit = rest := by
  have digits : ∀ c ∈ decimal n, isDigit c = true := fun _ mem => isDigit_of_mem_decimal mem
  rw [List.takeWhile_append_of_pos digits, List.dropWhile_append_of_pos digits]
  cases rest with
  | nil => exact ⟨List.append_nil _, rfl⟩
  | cons c rest =>
      have stop : ¬isDigit c = true := ne_true_of_eq_false (stops c rfl)
      rw [List.takeWhile_cons_of_neg stop, List.dropWhile_cons_of_neg stop, List.append_nil]
      exact ⟨rfl, rfl⟩

/-- The extraction of a signed type from a text that starts with a number. -/
theorem extractSigned_signedDecimal_append (width : Nat) (v : Int) {rest : Str}
    (stops : ∀ c ∈ rest.head?, isDigit c = false) :
    extractSigned width (signedDecimal v ++ rest) =
      if -2 ^ width ≤ 2 * v ∧ 2 * v < 2 ^ width then some (v, rest) else none := by
  have power : ((2 ^ width : Nat) : Int) = 2 ^ width := by norm_cast
  obtain ⟨taken, dropped⟩ := digits_decimal_append v.natAbs stops
  rw [extractSigned]
  simp only [takeSign_signedDecimal_append, taken, dropped, digitsValue_decimal, decimal_ne_nil,
    false_or, decide_eq_true_eq]
  by_cases negative : v < 0
  · simp only [if_pos negative]
    by_cases fits : 2 ^ width < 2 * v.natAbs
    · rw [if_pos fits, if_neg (by omega)]
    · rw [if_neg fits, if_pos (by omega)]
      congr 2
      omega
  · simp only [if_neg negative]
    by_cases fits : 2 ^ width ≤ 2 * v.natAbs
    · rw [if_pos fits, if_neg (by omega)]
    · rw [if_neg fits, if_pos (by omega)]
      congr 2
      omega

/-- The extraction of an unsigned type from the text of a number: a negative one
comes out modulo the width. -/
theorem tryConvertUnsigned_signedDecimal (width : Nat) (v : Int) :
    tryConvertUnsigned width (signedDecimal v) =
      if v.natAbs < 2 ^ width then
        some (if v < 0 then (2 ^ width - v.natAbs) % 2 ^ width else v.natAbs)
      else none := by
  rw [tryConvertUnsigned, extractUnsigned]
  simp only [takeSign_signedDecimal, takeWhile_decimal, dropWhile_decimal, digitsValue_decimal,
    decimal_ne_nil, false_or, decide_eq_true_eq]
  by_cases fits : v.natAbs < 2 ^ width
  · simp only [if_pos fits, if_neg (Nat.not_le.mpr fits)]
    rfl
  · simp only [if_neg fits, if_pos (Nat.not_lt.mp fits)]

/-- The extraction of a signed type from the text of a number. -/
theorem tryConvert_signedDecimal (width : Nat) (v : Int) :
    tryConvert (extractSigned width) (signedDecimal v) =
      if -2 ^ width ≤ 2 * v ∧ 2 * v < 2 ^ width then some v else none := by
  have extracted := @extractSigned_signedDecimal_append width v [] fun _ isHead => by cases isHead
  rw [List.append_nil] at extracted
  rw [tryConvert, extracted]
  by_cases fits : -2 ^ width ≤ 2 * v ∧ 2 * v < 2 ^ width
  · rw [if_pos fits, if_pos fits]
    rfl
  · rw [if_neg fits, if_neg fits]

/-- `Anope::ToString(bool)`. -/
def boolText (b : Bool) : Str :=
  if b then ascii "1" else ascii "0"

@[simp]
theorem tryConvert_boolText (b : Bool) : tryConvert extractBool (boolText b) = some b := by
  cases b <;> decide

/-- What is read of a text, which is nothing if there is more behind its first
line. -/
def lineOf (text : Str) : Str :=
  (tryConvert extractLine text).getD []

theorem lineOf_subset {text : Str} {c : UInt8} (mem : c ∈ lineOf text) : c ∈ text := by
  cases text with
  | nil => cases mem
  | cons d rest =>
      rw [lineOf, tryConvert, extractLine] at mem
      simp only at mem
      split at mem
      · rw [Option.getD_some] at mem
        exact (List.takeWhile_prefix _).subset mem
      · cases mem

theorem lineOf_eq_self_iff (text : Str) : lineOf text = text ↔ 10 ∉ text := by
  cases text with
  | nil => decide
  | cons c rest =>
      rw [lineOf, tryConvert, extractLine]
      simp only
      constructor
      · intro same mem
        split at same
        · rw [Option.getD_some, List.takeWhile_eq_self_iff] at same
          exact absurd rfl (of_decide_eq_true (same 10 mem))
        · cases same
      · intro noBreak
        have whole : ∀ d ∈ c :: rest, decide (d ≠ 10) = true := fun d mem =>
          decide_eq_true fun is => noBreak (is ▸ mem)
        rw [List.dropWhile_eq_nil_iff.mpr whole, List.takeWhile_eq_self_iff.mpr whole]
        rfl

end Anope.Text.Convert
