import Anope.Text.Convert

/-!
# Serialized fields

`Serialize::Data` keeps every field as text.  `Store` prints a value and
remembers the kind of its type, and `Load` extracts a value of the asked type
from the text again.  What comes back is exact for the types here.
-/

namespace Anope.Storage

open Anope.Text
open Anope.Text.Convert

/-- `Serialize::DataType`. -/
inductive DataType where
  | bool
  | float
  | int
  | text
  | uint
  deriving DecidableEq, Repr

/-- The types of fields.  Streams take the integers of one byte for characters,
so they are kinds of their own. -/
inductive FieldType where
  | bool
  /-- `int16_t`, `int32_t` and `int64_t`. -/
  | signed (width : Nat)
  /-- `uint16_t`, `uint32_t` and `uint64_t`. -/
  | unsigned (width : Nat)
  /-- `int8_t`. -/
  | signedChar
  /-- `uint8_t`. -/
  | unsignedChar
  | text
  deriving DecidableEq, Repr

namespace FieldType

/-- The values of a type. -/
abbrev Value : FieldType → Type
  | bool => Bool
  | signed width | unsigned width => BitVec width
  | signedChar => BitVec 8
  | unsignedChar => UInt8
  | text => Str

/-- The kind that `Serialize::Data::Store` sets; text is the default. -/
def dataType : FieldType → DataType
  | bool => .bool
  | signed _ | signedChar => .int
  | unsigned _ | unsignedChar => .uint
  | text => .text

/-- `Anope::ToString`. -/
def toText : (type : FieldType) → type.Value → Str
  | bool, b => boolText b
  | signed _, v | signedChar, v => signedDecimal v.toInt
  | unsigned _, v => decimal v.toNat
  | unsignedChar, c => [c]
  | text, line => line

/-- `Anope::TryConvert`. -/
def tryConvert : (type : FieldType) → Str → Option type.Value
  | bool, line => Convert.tryConvert extractBool line
  | signed width, line =>
      (Convert.tryConvert (extractSigned width) line).map (BitVec.ofInt width)
  | unsigned width, line => (tryConvertUnsigned width line).map (BitVec.ofNat width)
  | signedChar, line => (Convert.tryConvert extractChar line).map UInt8.toBitVec
  | unsignedChar, line => Convert.tryConvert extractChar line
  | text, line => Convert.tryConvert extractLine line

/-- `T()`. -/
def zero : (type : FieldType) → type.Value
  | bool => false
  | signed _ | unsigned _ | signedChar => 0
  | unsignedChar => 0
  | text => []

/-- `Serialize::Data::Load` without a default, from what `LoadInternal` finds. -/
def load (type : FieldType) (found : Option Str) : type.Value :=
  (found.bind type.tryConvert).getD type.zero

/-- The values that come back from their texts. -/
def Faithful : (type : FieldType) → type.Value → Prop
  | bool, _ | signed _, _ | unsigned _, _ => True
  | signedChar, _ => False
  | unsignedChar, c => isSpace c = false
  | text, line => 10 ∉ line

theorem load_some (type : FieldType) (line : Str) :
    type.load (some line) = (type.tryConvert line).getD type.zero := by
  rw [load, Option.bind_some]

/-- A signed number comes back from its text. -/
theorem tryConvert_toText_signed (width : Nat) (v : BitVec width) :
    (signed width).tryConvert ((signed width).toText v) = some v := by
  have lower := BitVec.le_two_mul_toInt (x := v)
  have upper := BitVec.two_mul_toInt_lt (x := v)
  rw [tryConvert, toText, tryConvert_signedDecimal, if_pos ⟨lower, upper⟩, Option.map_some,
    BitVec.ofInt_toInt]

/-- An unsigned number comes back from its text. -/
theorem tryConvert_toText_unsigned (width : Nat) (v : BitVec width) :
    (unsigned width).tryConvert ((unsigned width).toText v) = some v := by
  rw [tryConvert, toText, ← signedDecimal_natCast, tryConvertUnsigned_signedDecimal,
    Int.natAbs_natCast, if_pos v.isLt, if_neg (by omega), Option.map_some, BitVec.ofNat_toNat,
    BitVec.setWidth_eq]

/-- The text of an `int8_t` is its number, from which a character is read. -/
theorem load_toText_signedChar (v : BitVec 8) :
    signedChar.load (some (signedChar.toText v)) ≠ v := by
  revert v
  decide +kernel

/-- A byte is read back unless it is taken for white space. -/
theorem load_toText_unsignedChar (c : UInt8) :
    unsignedChar.load (some (unsignedChar.toText c)) = c ↔ isSpace c = false := by
  rw [load_some, tryConvert, toText, Convert.tryConvert, extractChar]
  cases space : isSpace c with
  | true =>
      rw [List.dropWhile_cons_of_pos space]
      have notZero : c ≠ 0 := fun isZero => by
        rw [isZero] at space
        cases space
      exact iff_of_false (fun same => notZero same.symm) Bool.true_eq_false.mp
  | false =>
      rw [List.dropWhile_cons_of_neg (space ▸ Bool.false_ne_true)]
      exact iff_of_true rfl rfl

/-- What is loaded from the text of a value. -/
theorem load_toText (type : FieldType) (v : type.Value) :
    type.load (some (type.toText v)) = v ↔ type.Faithful v := by
  cases type with
  | bool =>
      rw [load_some, tryConvert, toText, tryConvert_boolText]
      exact iff_of_true rfl trivial
  | signed width =>
      rw [load_some, tryConvert_toText_signed]
      exact iff_of_true rfl trivial
  | unsigned width =>
      rw [load_some, tryConvert_toText_unsigned]
      exact iff_of_true rfl trivial
  | signedChar => exact iff_of_false (load_toText_signedChar v) id
  | unsignedChar => exact load_toText_unsignedChar v
  | text => exact lineOf_eq_self_iff v

@[simp]
theorem load_text (line : Str) : text.load (some line) = lineOf line :=
  rfl

@[simp]
theorem load_signed (width : Nat) (v : BitVec width) :
    (signed width).load (some ((signed width).toText v)) = v :=
  (load_toText (signed width) v).mpr trivial

@[simp]
theorem load_unsigned (width : Nat) (v : BitVec width) :
    (unsigned width).load (some ((unsigned width).toText v)) = v :=
  (load_toText (unsigned width) v).mpr trivial

end FieldType

/-- What a backend keeps of an object: the text last stored under each key. -/
abbrev Fields := Str → Option Str

namespace Fields

/-- An object of which nothing is stored. -/
def empty : Fields :=
  fun _ => none

/-- `Serialize::Data::Store`. -/
def store (fields : Fields) (type : FieldType) (key : Str) (value : type.Value) : Fields :=
  Function.update fields key (some (type.toText value))

/-- `Serialize::Data::Load`. -/
def load (fields : Fields) (type : FieldType) (key : Str) : type.Value :=
  type.load (fields key)

section

variable (fields : Fields) (type stored : FieldType) (value : stored.Value) {key other : Str}

@[simp]
theorem load_empty : empty.load type key = type.zero :=
  rfl

theorem load_store_self :
    (fields.store stored key value).load stored key = stored.load (some (stored.toText value)) := by
  rw [load, store, Function.update_self]

theorem load_store_ne (different : key ≠ other) :
    (fields.store stored other value).load type key = fields.load type key := by
  rw [load, store, Function.update_of_ne different, load]

end

end Fields

end Anope.Storage
