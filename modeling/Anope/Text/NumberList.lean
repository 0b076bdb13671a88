import Anope.Library.Split
import Anope.Library.While
import Anope.Text.Convert
import Mathlib.Data.Finset.Sort
import Mathlib.Order.Interval.Finset.Nat

/-!
# Number lists

`NumberList` reads the numbers of a list such as `1-3,7`.  The loop over a range counts in
`unsigned` up to and including its end, so it never leaves a range that ends with the greatest
value of the type.  The text left over by both parts of a range is kept in one variable.
-/

namespace Anope.Text

/-- `NumberList`. -/
structure NumberList where
  isValid : Bool
  numbers : Finset Nat
  desc : Bool

namespace NumberList

open Library.While Library.Split Anope.Text.Convert

/-! ## The constructor -/

/-- A pass of the loop over a range, which starts with its test. -/
def rangePass (num2 : Nat) (state : Nat × Finset Nat) : Pass (Nat × Finset Nat) (Finset Nat) :=
  let (i, numbers) := state
  if i ≤ num2 then .goOn ((i + 1) % 2 ^ 32, insert i numbers) else .done numbers

/-- `Anope::TryConvert<unsigned>` with `error` for what is left over: a conversion that fails
leaves the variable as it was. -/
def tryConvertError (text error : Str) : Option Nat × Str :=
  match tryConvertRest (extractUnsigned 32) text with
  | none => (none, error)
  | some (value, leftover) => (some value, leftover)

/-- The body of the loop over the tokens, up to the test of `error`.  There is no result when so
many passes are not enough for the range of the token. -/
def readToken (passes : Nat) (token error : Str) (numbers : Finset Nat) :
    Option (Str × Finset Nat) :=
  match cut 45 token with
  | none =>
      match tryConvertError token error with
      | (some num, error) => some (error, if error = [] then insert num numbers else numbers)
      | (none, _) => some (ascii "1", numbers)
  | some (first, second) =>
      let (n1, error) := tryConvertError first error
      -- the second conversion is given `error` again, and nothing is given `error2`
      let (n2, error) := tryConvertError second error
      match n1, n2 with
      | some num1, some num2 =>
          if error = [] then (within (rangePass num2) passes (num1, numbers)).map (error, ·)
          else some (error, numbers)
      | _, _ => some (ascii "1", numbers)

/-- `NumberList::InvalidRange`: no other version of it is called while the object is built. -/
def invalidRange (_list : Str) : Bool :=
  true

/-- The loop over the tokens: `is_valid`, and the numbers. -/
def readTokens (passes : Nat) (list : Str) :
    List Str → Str → Finset Nat → Option (Bool × Finset Nat)
  | [], _, numbers => some (true, numbers)
  | token :: tokens, error, numbers =>
      (readToken passes token error numbers).bind fun (error, numbers) =>
        if error ≠ [] ∧ invalidRange list = false then some (false, numbers)
        else readTokens passes list tokens error numbers

/-- The tokens of the `commasepstream`; the whole list is taken for one if there are none. -/
def allTokens (list : Str) : List Str :=
  match tokens 44 list with
  | [] => [list]
  | token :: rest => token :: rest

/-- The constructor, when so many passes are enough for each range. -/
def construct (passes : Nat) (list : Str) (descending : Bool) : Option NumberList :=
  (readTokens passes list (allTokens list) [] ∅).map fun (isValid, numbers) =>
    ⟨isValid, numbers, descending⟩

/-- The constructor ends. -/
def Terminates (list : Str) (descending : Bool) : Prop :=
  ∃ passes, (construct passes list descending).isSome = true

/-- `NumberList::Process`: what `HandleNumber` is called with. -/
def process (list : NumberList) : List Nat :=
  if list.isValid = false then []
  else if list.desc then (list.numbers.sort (· ≤ ·)).reverse
  else list.numbers.sort (· ≤ ·)

/-! ## What a list says -/

/-- A part of a token that is the text of a number. -/
def IsNumber (part : Str) (num : Nat) : Prop :=
  extractUnsigned 32 part = some (num, [])

/-- A number of a well-formed token. -/
def Denotes (token : Str) (number : Nat) : Prop :=
  match cut 45 token with
  | none => IsNumber token number
  | some (first, second) =>
      ∃ num1 num2, IsNumber first num1 ∧ IsNumber second num2 ∧ num1 ≤ number ∧ number ≤ num2

/-- The list is delivered as it says: exactly the numbers of its well-formed tokens, each once,
in the order asked for. -/
def Delivers (list : Str) (descending : Bool) : Prop :=
  ∃ passes constructed, construct passes list descending = some constructed ∧
    constructed.process.Pairwise (if descending then (· > ·) else (· < ·)) ∧
    ∀ number, number ∈ constructed.process ↔ ∃ token ∈ tokens 44 list, Denotes token number

/-! ## What the code makes of it -/

/-- A conversion that leaves nothing of its line. -/
def Reads (part : Str) (num : Nat) : Prop :=
  tryConvertRest (extractUnsigned 32) part = some (num, [])

instance decidableReads (part : Str) (num : Nat) : Decidable (Reads part num) :=
  inferInstanceAs (Decidable (tryConvertRest (extractUnsigned 32) part = some (num, [])))

/-- A number that is read of a token. -/
def TokenReads (token : Str) (number : Nat) : Prop :=
  match cut 45 token with
  | none => Reads token number
  | some (first, second) =>
      ∃ num1 num2 leftover, tryConvertRest (extractUnsigned 32) first = some (num1, leftover) ∧
        Reads second num2 ∧ num1 ≤ number ∧ number ≤ num2

/-- A range up to the greatest value of `unsigned`. -/
def TopRange (token : Str) : Prop :=
  match cut 45 token with
  | none => False
  | some (first, second) =>
      (extractUnsigned 32 first).isSome = true ∧ Reads second (2 ^ 32 - 1)

/-- A token of which a conversion leaves text over. -/
def LeavesText (token : Str) : Prop :=
  match cut 45 token with
  | none => ∃ num rest, extractUnsigned 32 token = some (num, rest) ∧ rest ≠ []
  | some (first, second) =>
      ∃ num1 rest1 num2 rest2, extractUnsigned 32 first = some (num1, rest1) ∧
        extractUnsigned 32 second = some (num2, rest2) ∧ (rest1 ≠ [] ∨ rest2 ≠ [])

/-! ## The loop over a range -/

section Range

variable {num1 num2 : Nat} {numbers : Finset Nat}

/-- Below the greatest value of the type, a pass goes on with the next number. -/
theorem rangePass_of_le {i : Nat} (within : i ≤ num2) (below : num2 + 1 < 2 ^ 32) :
    rangePass num2 (i, numbers) = .goOn (i + 1, insert i numbers) := by
  rw [rangePass, if_pos within, Nat.mod_eq_of_lt (by omega)]

theorem rangePass_of_lt {i : Nat} (beyond : num2 < i) :
    rangePass num2 (i, numbers) = .done numbers := by
  rw [rangePass, if_neg (Nat.not_le.mpr beyond)]

/-- As many passes as `unsigned` has values, and the last test, are enough for each range that
ends below the greatest one. -/
theorem exists_within_rangePass (below : num2 + 1 < 2 ^ 32) :
    ∃ result, within (rangePass num2) (2 ^ 32) (num1, numbers) = some result := by
  apply within_of_measure (fun _ => True) (fun state => num2 + 1 - state.1)
  · rintro ⟨i, numbers⟩ next - isNext
    refine ⟨trivial, ?_⟩
    by_cases within : i ≤ num2
    · rw [rangePass_of_le within below] at isNext
      cases isNext
      dsimp only
      omega
    · rw [rangePass_of_lt (Nat.not_le.mp within)] at isNext
      cases isNext
  · trivial
  · dsimp only
    omega

/-- What the loop has inserted when it ends. -/
theorem mem_of_within_rangePass {passes : Nat} {result : Finset Nat} (below : num2 + 1 < 2 ^ 32)
    (reached : within (rangePass num2) passes (num1, numbers) = some result) (number : Nat) :
    number ∈ result ↔ number ∈ numbers ∨ num1 ≤ number ∧ number ≤ num2 := by
  induction passes generalizing num1 numbers with
  | zero => cases reached
  | succ passes ih =>
      by_cases inRange : num1 ≤ num2
      · rw [within_of_goOn (rangePass_of_le inRange below)] at reached
        rw [ih reached, Finset.mem_insert]
        constructor
        · rintro ((rfl | mem) | ⟨low, high⟩)
          · exact .inr ⟨Nat.le_refl _, inRange⟩
          · exact .inl mem
          · exact .inr ⟨Nat.le_of_succ_le low, high⟩
        · rintro (mem | ⟨low, high⟩)
          · exact .inl (.inr mem)
          · rcases Nat.eq_or_lt_of_le low with same | low
            · exact .inl (.inl same.symm)
            · exact .inr ⟨low, high⟩
      · rw [within_of_done (rangePass_of_lt (Nat.not_le.mp inRange))] at reached
        cases reached
        constructor
        · exact .inl
        · rintro (mem | ⟨low, high⟩)
          · exact mem
          · exact absurd (Nat.le_trans low high) inRange

/-- After the greatest value comes zero, which is in the range again. -/
theorem diverges_rangePass (num1 : Nat) (numbers : Finset Nat) (fits : num1 < 2 ^ 32) :
    Diverges (rangePass (2 ^ 32 - 1)) (num1, numbers) := by
  apply diverges_of_invariant fun state => state.1 < 2 ^ 32
  · rintro ⟨i, numbers⟩ fits
    refine ⟨((i + 1) % 2 ^ 32, insert i numbers), ?_, Nat.mod_lt _ (Nat.two_pow_pos 32)⟩
    dsimp only at fits
    rw [rangePass, if_pos (Nat.le_sub_one_of_lt fits)]
  · exact fits

end Range

/-! ## A token -/

section Token

variable {passes : Nat} {token text error : Str} {numbers : Finset Nat}

theorem tryConvertError_of_none (failed : tryConvertRest (extractUnsigned 32) text = none) :
    tryConvertError text error = (none, error) := by
  rw [tryConvertError, failed]

theorem tryConvertError_of_some {num : Nat} {leftover : Str}
    (converted : tryConvertRest (extractUnsigned 32) text = some (num, leftover)) :
    tryConvertError text error = (some num, leftover) := by
  rw [tryConvertError, converted]

theorem lt_of_tryConvertRest {num : Nat} {leftover : Str}
    (converted : tryConvertRest (extractUnsigned 32) text = some (num, leftover)) :
    num < 2 ^ 32 := by
  obtain ⟨⟨value, rest⟩, extracted, same⟩ := Option.map_eq_some_iff.mp converted
  cases same
  exact extractUnsigned_lt extracted

/-- A token that is not a range. -/
theorem readToken_of_none (noRange : cut 45 token = none) :
    readToken passes token error numbers =
      match tryConvertError token error with
      | (some num, error) => some (error, if error = [] then insert num numbers else numbers)
      | (none, _) => some (ascii "1", numbers) := by
  rw [readToken, noRange]

/-- A token that is a range, of which the first part is not a number. -/
theorem readToken_of_first {first second : Str} (range : cut 45 token = some (first, second))
    (failed : tryConvertRest (extractUnsigned 32) first = none) :
    readToken passes token error numbers = some (ascii "1", numbers) := by
  rw [readToken, range]
  simp only [tryConvertError_of_none failed]

/-- A token that is a range, of which the second part is not a number. -/
theorem readToken_of_second {first second : Str} (range : cut 45 token = some (first, second))
    (failed : tryConvertRest (extractUnsigned 32) second = none) :
    readToken passes token error numbers = some (ascii "1", numbers) := by
  rw [readToken, range]
  simp only [tryConvertError_of_none failed]
  cases (tryConvertError first error).1 with
  | none => rfl
  | some num1 => rfl

/-- A token that is a range of two numbers: what the first one leaves over is forgotten. -/
theorem readToken_of_range {first second leftover leftover2 : Str} {num1 num2 : Nat}
    (range : cut 45 token = some (first, second))
    (isFirst : tryConvertRest (extractUnsigned 32) first = some (num1, leftover))
    (isSecond : tryConvertRest (extractUnsigned 32) second = some (num2, leftover2)) :
    readToken passes token error numbers =
      if leftover2 = [] then
        (within (rangePass num2) passes (num1, numbers)).map (leftover2, ·)
      else some (leftover2, numbers) := by
  rw [readToken, range]
  simp only [tryConvertError_of_some isFirst, tryConvertError_of_some isSecond]

theorem readToken_eq_none (top : TopRange token) :
    readToken passes token error numbers = none := by
  rw [TopRange] at top
  cases range : cut 45 token with
  | none =>
      rw [range] at top
      exact top.elim
  | some parts =>
      obtain ⟨first, second⟩ := parts
      rw [range] at top
      obtain ⟨converts, isSecond⟩ := top
      obtain ⟨⟨num1, rest⟩, extracted⟩ := Option.isSome_iff_exists.mp converts
      have isFirst := congrArg
        (Option.map fun found : Nat × Str => (found.1, found.2.takeWhile (· ≠ 10))) extracted
      rw [readToken_of_range range isFirst isSecond, if_pos rfl,
        diverges_rangePass num1 numbers (extractUnsigned_lt extracted) passes]
      rfl

/-- A range ends below the greatest value, unless the code reads it as one that does not. -/
theorem lt_of_not_topRange {first second leftover : Str} {num1 num2 : Nat}
    (notTop : ¬TopRange token) (range : cut 45 token = some (first, second))
    (isFirst : tryConvertRest (extractUnsigned 32) first = some (num1, leftover))
    (isSecond : Reads second num2) : num2 + 1 < 2 ^ 32 := by
  rw [TopRange, range] at notTop
  have fits := lt_of_tryConvertRest isSecond
  by_contra top
  apply notTop
  constructor
  · obtain ⟨found, extracted, -⟩ := Option.map_eq_some_iff.mp isFirst
    rw [extracted]
    rfl
  · obtain rfl : num2 = 2 ^ 32 - 1 := by omega
    exact isSecond

/-- The body of the loop ends, unless the token is a range up to the greatest value. -/
theorem exists_readToken (notTop : ¬TopRange token) (error : Str) (numbers : Finset Nat) :
    ∃ result, readToken (2 ^ 32) token error numbers = some result := by
  cases range : cut 45 token with
  | none =>
      rw [readToken_of_none range]
      cases converted : tryConvertRest (extractUnsigned 32) token with
      | none =>
          rw [tryConvertError_of_none converted]
          exact ⟨_, rfl⟩
      | some found =>
          rw [tryConvertError_of_some converted]
          exact ⟨_, rfl⟩
  | some parts =>
      obtain ⟨first, second⟩ := parts
      cases isFirst : tryConvertRest (extractUnsigned 32) first with
      | none => exact ⟨_, readToken_of_first range isFirst⟩
      | some found1 =>
          cases isSecond : tryConvertRest (extractUnsigned 32) second with
          | none => exact ⟨_, readToken_of_second range isSecond⟩
          | some found2 =>
              obtain ⟨num2, leftover⟩ := found2
              rw [readToken_of_range range isFirst isSecond]
              split
              · rename_i clean
                subst clean
                obtain ⟨result, reached⟩ :=
                  @exists_within_rangePass found1.1 num2 numbers
                    (lt_of_not_topRange notTop range isFirst isSecond)
                exact ⟨_, congrArg (Option.map _) reached⟩
              · exact ⟨_, rfl⟩

/-- What the body of the loop adds to the numbers. -/
theorem mem_of_readToken {error' : Str} {numbers' : Finset Nat} (notTop : ¬TopRange token)
    (read : readToken passes token error numbers = some (error', numbers')) (number : Nat) :
    number ∈ numbers' ↔ number ∈ numbers ∨ TokenReads token number := by
  rw [TokenReads]
  cases range : cut 45 token with
  | none =>
      rw [readToken_of_none range] at read
      dsimp only
      rw [Reads]
      cases converted : tryConvertRest (extractUnsigned 32) token with
      | none =>
          rw [tryConvertError_of_none converted] at read
          cases read
          rw [or_iff_left (Option.some_ne_none _).symm]
      | some found =>
          rw [tryConvertError_of_some converted] at read
          cases read
          by_cases clean : found.2 = []
          · rw [if_pos clean, Finset.mem_insert, Option.some.injEq, Prod.ext_iff, and_iff_left clean,
              or_comm, eq_comm]
          · rw [if_neg clean, Option.some.injEq, Prod.ext_iff, or_iff_left fun is => clean is.2]
  | some parts =>
      obtain ⟨first, second⟩ := parts
      dsimp only
      cases isFirst : tryConvertRest (extractUnsigned 32) first with
      | none =>
          rw [readToken_of_first range isFirst] at read
          cases read
          rw [or_iff_left]
          rintro ⟨num1, num2, leftover, none, -⟩
          cases none
      | some found1 =>
          cases isSecond : tryConvertRest (extractUnsigned 32) second with
          | none =>
              rw [readToken_of_second range isSecond] at read
              cases read
              rw [or_iff_left]
              rintro ⟨num1, num2, leftover, -, reads, -⟩
              cases isSecond.symm.trans reads
          | some found2 =>
              obtain ⟨num1, leftover1⟩ := found1
              obtain ⟨num2, leftover2⟩ := found2
              rw [readToken_of_range range isFirst isSecond] at read
              by_cases clean : leftover2 = []
              · subst clean
                rw [if_pos rfl] at read
                obtain ⟨result, reached, same⟩ := Option.map_eq_some_iff.mp read
                cases same
                rw [mem_of_within_rangePass (lt_of_not_topRange notTop range isFirst isSecond)
                  reached]
                apply or_congr_right
                constructor
                · rintro ⟨low, high⟩
                  exact ⟨num1, num2, leftover1, rfl, isSecond, low, high⟩
                · rintro ⟨num1', num2', leftover, same, reads, bounds⟩
                  cases same
                  cases isSecond.symm.trans reads
                  exact bounds
              · rw [if_neg clean] at read
                cases read
                rw [or_iff_left]
                rintro ⟨num1', num2', leftover, -, reads, -⟩
                cases isSecond.symm.trans reads
                exact clean rfl

end Token

/-! ## All tokens -/

section Tokens

variable {passes : Nat} {list error : Str} {all : List Str} {numbers : Finset Nat}

/-- No test of `error` stops the loop. -/
theorem readTokens_cons (passes : Nat) (list token : Str) (all : List Str) (error : Str)
    (numbers : Finset Nat) :
    readTokens passes list (token :: all) error numbers =
      (readToken passes token error numbers).bind fun (error, numbers) =>
        readTokens passes list all error numbers := by
  rw [readTokens]
  congr 1
  funext ⟨error, numbers⟩
  exact if_neg fun stops => Bool.noConfusion stops.2

theorem not_topRange_of_readTokens {result : Bool × Finset Nat}
    (read : readTokens passes list all error numbers = some result) :
    ∀ token ∈ all, ¬TopRange token := by
  induction all generalizing error numbers with
  | nil =>
      rintro token mem
      cases mem
  | cons head all ih =>
      rw [readTokens_cons] at read
      obtain ⟨⟨error', numbers'⟩, readHead, read⟩ := Option.bind_eq_some_iff.mp read
      rintro token mem top
      rcases List.mem_cons.mp mem with rfl | mem
      · rw [readToken_eq_none top] at readHead
        cases readHead
      · exact ih read token mem top

theorem exists_readTokens (notTop : ∀ token ∈ all, ¬TopRange token) (error : Str)
    (numbers : Finset Nat) :
    ∃ result, readTokens (2 ^ 32) list all error numbers = some result := by
  induction all generalizing error numbers with
  | nil => exact ⟨_, rfl⟩
  | cons head all ih =>
      obtain ⟨⟨error', numbers'⟩, readHead⟩ :=
        exists_readToken (notTop head List.mem_cons_self) error numbers
      rw [readTokens_cons, readHead]
      exact ih (fun token mem => notTop token (List.mem_cons_of_mem head mem)) error' numbers'

/-- The object is valid, and has the numbers read of the tokens. -/
theorem mem_of_readTokens {isValid : Bool} {numbers' : Finset Nat}
    (read : readTokens passes list all error numbers = some (isValid, numbers')) :
    isValid = true ∧ ∀ number,
      number ∈ numbers' ↔ number ∈ numbers ∨ ∃ token ∈ all, TokenReads token number := by
  have notTop := not_topRange_of_readTokens read
  induction all generalizing error numbers with
  | nil =>
      cases read
      refine ⟨rfl, fun number => ?_⟩
      rw [or_iff_left]
      rintro ⟨token, mem, -⟩
      cases mem
  | cons head all ih =>
      rw [readTokens_cons] at read
      obtain ⟨⟨error', middle⟩, readHead, read⟩ := Option.bind_eq_some_iff.mp read
      obtain ⟨valid, ofRest⟩ := ih read fun token mem => notTop token (List.mem_cons_of_mem head mem)
      refine ⟨valid, fun number => ?_⟩
      rw [ofRest, mem_of_readToken (notTop head List.mem_cons_self) readHead,
        List.exists_mem_cons_iff, or_assoc]

end Tokens

/-! ## The whole list -/

section List

variable {list token : Str} {descending : Bool} {number : Nat}

/-- A part that says a number is read as that number. -/
theorem IsNumber.reads {part : Str} (isNumber : IsNumber part number) : Reads part number := by
  rw [Reads, tryConvertRest, isNumber]
  rfl

/-- What is read of a token that leaves no text over is what it says. -/
theorem tokenReads_iff_denotes (clean : ¬LeavesText token) :
    TokenReads token number ↔ Denotes token number := by
  rw [LeavesText] at clean
  rw [TokenReads, Denotes]
  cases range : cut 45 token with
  | none =>
      rw [range] at clean
      dsimp only at clean ⊢
      refine ⟨fun reads => ?_, IsNumber.reads⟩
      obtain ⟨⟨num, rest⟩, extracted, same⟩ := Option.map_eq_some_iff.mp reads
      obtain rfl : num = number := congrArg Prod.fst same
      have nothing : rest = [] := not_not.mp fun some => clean ⟨num, rest, extracted, some⟩
      rwa [nothing] at extracted
  | some parts =>
      obtain ⟨first, second⟩ := parts
      rw [range] at clean
      dsimp only at clean ⊢
      constructor
      · rintro ⟨num1, num2, leftover, isFirst, isSecond, bounds⟩
        obtain ⟨⟨_, rest1⟩, extracted1, same⟩ := Option.map_eq_some_iff.mp isFirst
        obtain rfl : _ = num1 := congrArg Prod.fst same
        obtain ⟨⟨_, rest2⟩, extracted2, same⟩ := Option.map_eq_some_iff.mp isSecond
        obtain rfl : _ = num2 := congrArg Prod.fst same
        have nothing : ¬(rest1 ≠ [] ∨ rest2 ≠ []) := fun some =>
          clean ⟨_, rest1, _, rest2, extracted1, extracted2, some⟩
        rw [not_or, not_not, not_not] at nothing
        obtain ⟨rfl, rfl⟩ := nothing
        exact ⟨_, _, extracted1, extracted2, bounds⟩
      · rintro ⟨num1, num2, isFirst, isSecond, bounds⟩
        exact ⟨num1, num2, [], isFirst.reads, isSecond.reads, bounds⟩

/-- What a token says is read of it. -/
theorem Denotes.tokenReads (denotes : Denotes token number) : TokenReads token number := by
  rw [Denotes] at denotes
  rw [TokenReads]
  cases range : cut 45 token with
  | none =>
      rw [range] at denotes
      exact IsNumber.reads denotes
  | some parts =>
      obtain ⟨first, second⟩ := parts
      rw [range] at denotes
      obtain ⟨num1, num2, isFirst, isSecond, bounds⟩ := denotes
      exact ⟨num1, num2, [], isFirst.reads, isSecond.reads, bounds⟩

/-- Nothing is read of a list without tokens. -/
theorem nothing_of_tokens_eq_nil (noTokens : tokens 44 list = []) :
    cut 45 list = none ∧ extractUnsigned 32 list = none := by
  have commas := eq_separator_of_tokens_eq_nil noTokens
  constructor
  · refine cut_eq_none fun mem => ?_
    cases commas 45 mem
  · cases list with
    | nil => rfl
    | cons c rest =>
        obtain rfl : c = 44 := commas c List.mem_cons_self
        rfl

theorem mem_allTokens_iff {property : Str → Prop}
    (onlyTokens : tokens 44 list = [] → ¬property list) :
    (∃ token ∈ allTokens list, property token) ↔ ∃ token ∈ tokens 44 list, property token := by
  rw [allTokens]
  cases all : tokens 44 list with
  | nil =>
      refine iff_of_false ?_ ?_
      · rintro ⟨token, mem, holds⟩
        cases List.mem_singleton.mp mem
        exact onlyTokens all holds
      · rintro ⟨token, mem, -⟩
        cases mem
  | cons token rest => rfl

theorem exists_topRange_iff :
    (∃ token ∈ allTokens list, TopRange token) ↔ ∃ token ∈ tokens 44 list, TopRange token := by
  refine mem_allTokens_iff fun noTokens top => ?_
  rw [TopRange, (nothing_of_tokens_eq_nil noTokens).1] at top
  exact top

theorem exists_tokenReads_iff :
    (∃ token ∈ allTokens list, TokenReads token number) ↔
      ∃ token ∈ tokens 44 list, TokenReads token number := by
  refine mem_allTokens_iff fun noTokens reads => ?_
  obtain ⟨noRange, noNumber⟩ := nothing_of_tokens_eq_nil noTokens
  rw [TokenReads, noRange] at reads
  dsimp only at reads
  rw [Reads, tryConvertRest, noNumber] at reads
  cases reads

theorem Terminates.notTop (terminates : Terminates list descending) :
    ∀ token ∈ tokens 44 list, ¬TopRange token := by
  obtain ⟨passes, isSome⟩ := terminates
  rw [construct, Option.isSome_map] at isSome
  obtain ⟨result, read⟩ := Option.isSome_iff_exists.mp isSome
  intro token mem top
  obtain ⟨other, memAll, isTop⟩ := exists_topRange_iff.mpr ⟨token, mem, top⟩
  exact not_topRange_of_readTokens read other memAll isTop

theorem terminates_of_notTop (notTop : ∀ token ∈ tokens 44 list, ¬TopRange token)
    (descending : Bool) : Terminates list descending := by
  have notTopAll : ∀ token ∈ allTokens list, ¬TopRange token := by
    intro token mem top
    obtain ⟨other, memTokens, isTop⟩ := exists_topRange_iff.mp ⟨token, mem, top⟩
    exact notTop other memTokens isTop
  obtain ⟨result, read⟩ := @exists_readTokens list _ notTopAll [] ∅
  refine ⟨2 ^ 32, ?_⟩
  rw [construct, Option.isSome_map, read]
  rfl

/-- Constructing a list ends exactly when no token is a range up to the greatest value of
`unsigned`. -/
theorem terminates_iff (list : Str) (descending : Bool) :
    Terminates list descending ↔ ∀ token ∈ tokens 44 list, ¬TopRange token :=
  ⟨Terminates.notTop, fun notTop => terminates_of_notTop notTop descending⟩

/-- The range up to the greatest value of `unsigned` is never finished. -/
theorem not_terminates_top :
    ¬∀ (list : Str) (descending : Bool), Terminates list descending := by
  intro terminates
  have isToken : ascii "1-4294967295" ∈ tokens 44 (ascii "1-4294967295") := by decide
  have range : cut 45 (ascii "1-4294967295") = some (ascii "1", ascii "4294967295") := by decide
  have top : TopRange (ascii "1-4294967295") := by
    rw [TopRange, range]
    exact ⟨by decide, by decide⟩
  exact (terminates (ascii "1-4294967295") false).notTop _ isToken top

/-- The numbers are delivered in order. -/
theorem pairwise_process (list : NumberList) :
    list.process.Pairwise (if list.desc then (· > ·) else (· < ·)) := by
  have ascending : (list.numbers.sort (· ≤ ·)).Pairwise (· < ·) :=
    (Finset.sortedLT_sort list.numbers).pairwise
  rw [process]
  by_cases invalid : list.isValid = false
  · rw [if_pos invalid]
    exact List.Pairwise.nil
  · rw [if_neg invalid]
    cases list.desc with
    | true => exact List.pairwise_reverse.mpr ascending
    | false => exact ascending

theorem mem_process {list : NumberList} (isValid : list.isValid = true) :
    number ∈ list.process ↔ number ∈ list.numbers := by
  rw [process, if_neg (ne_false_of_eq_true isValid)]
  split
  · rw [List.mem_reverse, Finset.mem_sort]
  · rw [Finset.mem_sort]

/-- What is delivered of a list. -/
theorem mem_process_construct {passes : Nat} {constructed : NumberList}
    (isBuilt : construct passes list descending = some constructed) :
    constructed.desc = descending ∧ ∀ number, number ∈ constructed.process ↔
      ∃ token ∈ tokens 44 list, TokenReads token number := by
  obtain ⟨⟨isValid, numbers⟩, read, same⟩ := Option.map_eq_some_iff.mp isBuilt
  cases same
  obtain ⟨valid, ofTokens⟩ := mem_of_readTokens read
  refine ⟨rfl, fun number => ?_⟩
  rw [mem_process valid]
  dsimp only
  rw [ofTokens, or_iff_right (Finset.notMem_empty number), exists_tokenReads_iff]

/-- A list is delivered as it says exactly when it can be constructed, and what is read of a token
that leaves text over is also said by a well-formed one. -/
theorem delivers_iff (list : Str) (descending : Bool) :
    Delivers list descending ↔
      (∀ token ∈ tokens 44 list, ¬TopRange token) ∧
        ∀ token ∈ tokens 44 list, LeavesText token → ∀ number, TokenReads token number →
          ∃ other ∈ tokens 44 list, Denotes other number := by
  constructor
  · rintro ⟨passes, constructed, isBuilt, -, exact⟩
    refine ⟨Terminates.notTop ⟨passes, Option.isSome_iff_exists.mpr ⟨_, isBuilt⟩⟩, ?_⟩
    rintro token mem - number reads
    have delivered := ((mem_process_construct isBuilt).2 number).mpr ⟨token, mem, reads⟩
    exact (exact number).mp delivered
  · rintro ⟨notTop, covered⟩
    obtain ⟨passes, isSome⟩ := terminates_of_notTop notTop descending
    obtain ⟨constructed, isBuilt⟩ := Option.isSome_iff_exists.mp isSome
    obtain ⟨isDesc, delivered⟩ := mem_process_construct isBuilt
    refine ⟨passes, constructed, isBuilt, isDesc ▸ pairwise_process constructed, fun number => ?_⟩
    rw [delivered]
    constructor
    · rintro ⟨token, mem, reads⟩
      by_cases leaves : LeavesText token
      · exact covered token mem leaves number reads
      · exact ⟨token, mem, (tokenReads_iff_denotes leaves).mp reads⟩
    · rintro ⟨token, mem, denotes⟩
      exact ⟨token, mem, denotes.tokenReads⟩

/-- The text left over by the first part of a range does not keep the range out. -/
theorem not_delivers_masked :
    ¬∀ (list : Str) (descending : Bool), Delivers list descending := by
  intro delivers
  obtain ⟨passes, constructed, isBuilt, -, exact⟩ := delivers (ascii "1x-3") false
  have range : cut 45 (ascii "1x-3") = some (ascii "1x", ascii "3") := by decide
  have reads : TokenReads (ascii "1x-3") 2 := by
    rw [TokenReads, range]
    exact ⟨1, 3, ascii "x", by decide, by decide, by decide, by decide⟩
  have delivered := ((mem_process_construct isBuilt).2 2).mpr ⟨_, by decide, reads⟩
  obtain ⟨token, mem, denotes⟩ := (exact 2).mp delivered
  obtain rfl : token = ascii "1x-3" := by
    have all : tokens 44 (ascii "1x-3") = [ascii "1x-3"] := by decide
    rw [all] at mem
    exact List.mem_singleton.mp mem
  rw [Denotes, range] at denotes
  obtain ⟨num1, num2, isFirst, -⟩ := denotes
  have leaves : extractUnsigned 32 (ascii "1x") = some (1, ascii "x") := by decide
  cases leaves.symm.trans isFirst

end List

end NumberList

end Anope.Text
