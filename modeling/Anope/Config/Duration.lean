import Anope.Config.Reload

/-!
# Durations

`Anope::DoTime` reads an amount and the letter of a unit.  The amount is an `int`, and so is its
product with the length of the unit, whatever the type of the result: a product that does not fit
overflows, which is undefined.
-/

namespace Anope.Config

open Anope.Text Anope.Text.Convert

/-- A value that an `int` can have. -/
def FitsInt (value : Int) : Prop :=
  -2 ^ 31 ≤ value ∧ value < 2 ^ 31

instance decidableFitsInt (value : Int) : Decidable (FitsInt value) :=
  inferInstanceAs (Decidable (-2 ^ 31 ≤ value ∧ value < 2 ^ 31))

/-- The product of two values of type `int`; nothing where it overflows. -/
def mulInt (left right : Int) : Option Int :=
  if FitsInt (left * right) then some (left * right) else none

/-- `Anope::DoTime`; nothing where the behaviour is undefined. -/
def doTime (s : Str) : Option Int :=
  if s = [] then some 0
  else
    let (amount, last) := (tryConvertRest (extractSigned 32) s).getD (-1, [])
    match last.head? with
    | some 115 => some amount
    | some 109 => mulInt amount 60
    | some 104 => mulInt amount 3600
    | some 100 => mulInt amount 86400
    | some 119 => (mulInt amount 86400).bind fun product => mulInt product 7
    | some 121 => (mulInt amount 86400).bind fun product => mulInt product 365
    | _ => some amount

/-- The units of a duration. -/
inductive TimeUnit where
  | second
  | minute
  | hour
  | day
  | week
  | year
  deriving DecidableEq, Repr

namespace TimeUnit

/-- The letter of a unit. -/
def letter : TimeUnit → UInt8
  | second => 115
  | minute => 109
  | hour => 104
  | day => 100
  | week => 119
  | year => 121

/-- The length of a unit in seconds. -/
def seconds : TimeUnit → Int
  | second => 1
  | minute => 60
  | hour => 60 * 60
  | day => 24 * 60 * 60
  | week => 7 * 24 * 60 * 60
  | year => 365 * 24 * 60 * 60

theorem isDigit_letter (unit : TimeUnit) : isDigit unit.letter = false := by
  cases unit <;> rfl

theorem letter_ne (unit : TimeUnit) : unit.letter ≠ 10 := by
  cases unit <;> decide

end TimeUnit

variable {left right amount : Int}

theorem mulInt_eq_some_iff {product : Int} :
    mulInt left right = some product ↔ product = left * right ∧ FitsInt (left * right) := by
  rw [mulInt]
  constructor
  · intro is
    obtain ⟨fits, same⟩ := Option.ite_none_right_eq_some.mp is
    exact ⟨(Option.some.inj same).symm, fits⟩
  · rintro ⟨rfl, fits⟩
    rw [if_pos fits]

/-- A product of three factors fits exactly when no product on the way to it overflows. -/
theorem mulInt_mulInt_eq_some_iff {factor : Int} (positive : 0 < factor) :
    ((mulInt amount right).bind fun product => mulInt product factor) =
        some (amount * right * factor) ↔ FitsInt (amount * right * factor) := by
  rw [Option.bind_eq_some_iff]
  constructor
  · rintro ⟨product, first, second⟩
    obtain ⟨rfl, -⟩ := mulInt_eq_some_iff.mp first
    exact (mulInt_eq_some_iff.mp second).2
  · intro fits
    have inner : FitsInt (amount * right) := by
      obtain ⟨low, high⟩ := fits
      constructor
      · nlinarith
      · nlinarith
    exact ⟨amount * right, mulInt_eq_some_iff.mpr ⟨rfl, inner⟩, mulInt_eq_some_iff.mpr ⟨rfl, fits⟩⟩

theorem mulInt_eq_some {product : Int} (defined : mulInt left right = some product) :
    left * right = product :=
  (mulInt_eq_some_iff.mp defined).1.symm

theorem mulInt_bind_eq_some {factor product : Int}
    (defined : ((mulInt left right).bind fun middle => mulInt middle factor) = some product) :
    left * (right * factor) = product := by
  obtain ⟨middle, first, second⟩ := Option.bind_eq_some_iff.mp defined
  rw [← Int.mul_assoc, mulInt_eq_some first, mulInt_eq_some second]

/-- The configuration reads a duration as `DoTime` does, where that is defined. -/
theorem doTime_of_eq_some {s : Str} {result : Int} (defined : doTime s = some result) :
    Block.doTime s = result := by
  rw [Block.doTime]
  rw [doTime] at defined
  by_cases isEmpty : s = []
  · rw [if_pos isEmpty] at defined
    rw [if_pos (List.isEmpty_iff.mpr isEmpty)]
    exact Option.some.inj defined
  · rw [if_neg isEmpty, tryConvertRest] at defined
    rw [if_neg fun none => isEmpty (List.isEmpty_iff.mp none)]
    cases extracted : extractSigned 32 s with
    | none =>
        rw [extracted] at defined
        exact Option.some.inj defined
    | some found =>
        obtain ⟨amount, rest⟩ := found
        rw [extracted] at defined
        dsimp only [Option.map_some, Option.getD_some] at defined ⊢
        rw [Block.secondsOf.eq_def]
        split at defined
        · rename_i isUnit
          rw [isUnit]
          exact (Int.mul_one _).trans (Option.some.inj defined)
        · rename_i isUnit
          rw [isUnit]
          exact mulInt_eq_some defined
        · rename_i isUnit
          rw [isUnit]
          exact mulInt_eq_some defined
        · rename_i isUnit
          rw [isUnit]
          exact mulInt_eq_some defined
        · rename_i isUnit
          rw [isUnit]
          exact mulInt_bind_eq_some defined
        · rename_i isUnit
          rw [isUnit]
          exact mulInt_bind_eq_some defined
        · rename_i noSecond noMinute noHour noDay noWeek noYear
          split
          · rename_i isUnit
            exact absurd isUnit noMinute
          · rename_i isUnit
            exact absurd isUnit noHour
          · rename_i isUnit
            exact absurd isUnit noDay
          · rename_i isUnit
            exact absurd isUnit noWeek
          · rename_i isUnit
            exact absurd isUnit noYear
          · rw [Int.mul_one]
            exact Option.some.inj defined

/-- What is read of an amount and a unit. -/
theorem tryConvertRest_duration (fits : FitsInt amount) (unit : TimeUnit) :
    tryConvertRest (extractSigned 32) (signedDecimal amount ++ [unit.letter]) =
      some (amount, [unit.letter]) := by
  have stops : ∀ c ∈ [unit.letter].head?, isDigit c = false := by
    rintro c isHead
    cases isHead
    exact unit.isDigit_letter
  have within : -2 ^ 32 ≤ 2 * amount ∧ 2 * amount < 2 ^ 32 := by
    obtain ⟨low, high⟩ := fits
    omega
  have line : [unit.letter].takeWhile (· ≠ 10) = [unit.letter] :=
    List.takeWhile_cons_of_pos (decide_eq_true unit.letter_ne)
  rw [tryConvertRest, extractSigned_signedDecimal_append 32 amount stops, if_pos within]
  exact congrArg (fun last => some (amount, last)) line

/-- A duration is read as its product exactly when the product fits in an `int`. -/
theorem doTime_eq_some_iff (fits : FitsInt amount) (unit : TimeUnit) :
    doTime (signedDecimal amount ++ [unit.letter]) = some (amount * unit.seconds) ↔
      FitsInt (amount * unit.seconds) := by
  have nonempty : signedDecimal amount ++ [unit.letter] ≠ [] :=
    List.append_ne_nil_of_right_ne_nil _ (List.cons_ne_nil _ _)
  rw [doTime, if_neg nonempty, tryConvertRest_duration fits]
  dsimp only [Option.getD_some, List.head?_cons]
  cases unit with
  | second =>
      refine iff_of_true ?_ ?_
      · exact congrArg some (Int.mul_one amount).symm
      · rwa [TimeUnit.seconds, Int.mul_one]
  | minute => exact mulInt_eq_some_iff.trans (and_iff_right rfl)
  | hour => exact mulInt_eq_some_iff.trans (and_iff_right rfl)
  | day => exact mulInt_eq_some_iff.trans (and_iff_right rfl)
  | week =>
      have product : amount * TimeUnit.week.seconds = amount * 86400 * 7 := by
        rw [Int.mul_assoc]
        rfl
      rw [product]
      exact mulInt_mulInt_eq_some_iff (by decide)
  | year =>
      have product : amount * TimeUnit.year.seconds = amount * 86400 * 365 := by
        rw [Int.mul_assoc]
        rfl
      rw [product]
      exact mulInt_mulInt_eq_some_iff (by decide)

/-- Two weeks. -/
theorem doTime_eq_some_iff_weeks :
    doTime (signedDecimal 2 ++ [TimeUnit.week.letter]) = some (2 * TimeUnit.week.seconds) :=
  (doTime_eq_some_iff (by decide) .week).mpr (by decide)

/-- A hundred years do not fit. -/
theorem not_doTime_century : ¬∀ (amount : Int), FitsInt amount → ∀ unit : TimeUnit,
    doTime (signedDecimal amount ++ [unit.letter]) = some (amount * unit.seconds) := by
  intro exact
  have century := exact 100 (by decide) .year
  revert century
  decide +kernel

end Anope.Config
