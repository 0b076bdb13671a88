import Anope.Library.Keyed
import Anope.Storage.Data

/-!
# Rows of the JSON database

`Data` of `db_json`, whose keys are compared without case: the row that an
object is serialized to, the JSON object that `SaveType` makes of a row, and the
row that is read from a JSON object.
-/

namespace Anope.Storage.Json

open Library Anope.Text Anope.Text.Convert

/-- The conversions between `double` and text. -/
structure Floats (ρ : Type) where
  ofText : Str → ρ
  toText : ρ → Str
  terminated : ∀ r, 0 ∉ toText r

/-- A value that `yyjson` writes or reads; `real` are the doubles, and `ctn` stands
for an array or an object. -/
inductive Value (ρ : Type) where
  | null
  | bool (b : Bool)
  | sint (v : BitVec 64)
  | uint (v : BitVec 64)
  | real (r : ρ)
  | str (line : Str)
  | ctn

/-- A JSON object as the list of its members. -/
abbrev Element (ρ : Type) := List (Str × Value ρ)

namespace Value

variable {ρ : Type}

/-- `yyjson_get_uint`. -/
def getUint : Value ρ → BitVec 64
  | sint v | uint v => v
  | null | bool _ | real _ | str _ | ctn => 0

/-- `yyjson_is_ctn`. -/
def isCtn : Value ρ → Bool
  | ctn => true
  | null | bool _ | sint _ | uint _ | real _ | str _ => false

/-- The value that is read where a value was written: a file does not show
whether a number was signed. -/
def reread : Value ρ → Value ρ
  | sint v => if 0 ≤ v.toInt then uint v else sint v
  | null => null
  | bool b => bool b
  | uint v => uint v
  | real r => real r
  | str line => str line
  | ctn => ctn

end Value

/-- `yyjson_get_astr`, which takes a string up to its first terminator. -/
def astr (line : Str) : Str :=
  line.takeWhile (· ≠ 0)

/-- The reserved member. -/
def idKey : Str :=
  ascii "@id"

variable {ρ : Type} (casemap : Casemap) (floats : Floats ρ)

/-- What the keys of a row are compared by. -/
def entryKey (entry : Str × Str) : Str :=
  casemap.ciStr entry.1

/-- Change the text `data[key]`; an element keeps the spelling of its key. -/
def update (data : List (Str × Str)) (key : Str) (change : Option Str → Str) :
    List (Str × Str) :=
  Keyed.alter (entryKey casemap) (casemap.ciStr key)
    (fun found => some ((found.map Prod.fst).getD key, change (found.map Prod.snd))) data

/-- `Data`. -/
structure Row where
  id : BitVec 64
  data : List (Str × Str)
  types : Str → Option DataType

namespace Row

/-- A row before anything is stored. -/
def empty (id : BitVec 64) : Row where
  id := id
  data := []
  types _ := none

/-- `Serialize::Data::GetType`. -/
def getType (row : Row) (key : Str) : DataType :=
  (row.types key).getD .text

/-- `Serialize::Data::Store`; for text no type is set. -/
def store (row : Row) (type : FieldType) (key : Str) (value : type.Value) : Row where
  id := row.id
  data := update casemap row.data key fun _ => type.toText value
  types := if type = .text then row.types else Function.update row.types key (some type.dataType)

/-- `LoadInternal` and `Serialize::Data::Load`. -/
def load (row : Row) (type : FieldType) (key : Str) : type.Value :=
  type.load ((Keyed.find (entryKey casemap) (casemap.ciStr key) row.data).map Prod.snd)

/-- The value that `SaveType` makes of the text of a field. -/
def saveValue (type : DataType) (value : Str) : Value ρ :=
  match type with
  | .bool => .bool ((tryConvert extractBool value).getD false)
  | .float => .real (floats.ofText value)
  | .int => .sint (BitVec.ofInt 64 ((tryConvert (extractSigned 64) value).getD 0))
  | .text => if value = [] then .null else .str value
  | .uint => .uint (BitVec.ofNat 64 (convertUnsigned 64 value 0))

/-- `SaveType` for one row, whose elements are visited in the order of
`entries`. -/
def save (row : Row) (entries : List (Str × Str)) : Element ρ :=
  (if row.id ≠ 0 then [(idKey, .uint row.id)] else []) ++
    entries.map fun entry => (entry.1, saveValue floats (row.getType entry.1) entry.2)

/-- The text of a member with the text there was; a container has none.
`yyjson_is_int` holds of both kinds of integers, and `yyjson_get_int` returns an
`int`. -/
def readValue (value : Value ρ) (found : Option Str) : Str :=
  match value with
  | .bool b => boolText b
  | .sint v | .uint v => signedDecimal (v.setWidth 32).toInt
  | .null | .ctn => found.getD []
  | .real r => floats.toText r
  | .str line => astr line

/-- One turn of the loop of `Data::Data(yyjson_val *)`. -/
def readMember (row : Row) (member : Str × Value ρ) : Row :=
  let key := astr member.1
  if casemap.equalsCi key idKey then
    { row with id := member.2.getUint }
  else if member.2.isCtn then
    row
  else
    { row with data := update casemap row.data key (readValue floats member.2) }

/-- `Data::Data(yyjson_val *)`. -/
def read (element : Element ρ) : Row :=
  element.foldl (readMember casemap floats) (empty 0)

end Row

/-- The order in which an unordered map is visited. -/
structure Iteration where
  order : List (Str × Str) → List (Str × Str)
  perm : ∀ data, (order data).Perm data

/-- The row that is read after a row was saved. -/
def Row.reload (visit : Iteration) (row : Row) : Row :=
  Row.read casemap floats
    ((row.save floats (visit.order row.data)).map fun member => (member.1, member.2.reread))

/-- Saving and loading a row a number of times without its type. -/
def Row.rounds (visit : Nat → Iteration) (row : Row) : Nat → Row
  | 0 => row
  | n + 1 => (rounds visit row n).reload casemap floats (visit n)

/-- A field that an object stores. -/
structure Field where
  key : Str
  type : FieldType
  value : type.Value

/-- The integers have at most 64 bits. -/
def Standard : FieldType → Prop
  | .signed width | .unsigned width => width ≤ 64
  | .bool | .signedChar | .unsignedChar | .text => True

/-- An object and the fields that its `Serialize` stores: their names differ for
the backend, and they are C strings. -/
structure Object where
  id : BitVec 64
  fields : List Field
  distinct : (fields.map fun field => casemap.ciStr field.key).Nodup
  terminated : ∀ field ∈ fields, 0 ∉ field.key
  standard : ∀ field ∈ fields, Standard field.type

/-- `Data::Data(Serialize::Type *, Serializable *)`. -/
def Object.serialize {casemap : Casemap} (object : Object casemap) : Row :=
  object.fields.foldl (fun row field => row.store casemap field.type field.key field.value)
    (.empty object.id)

end Anope.Storage.Json

/-!
## Values in the JSON database

What is left of one value when its text is saved under the type of its field and
read again.
-/

namespace Anope.Storage.Json

open Library Anope.Text Anope.Text.Convert

variable {casemap : Casemap} {ρ : Type} {floats : Floats ρ}

/-- A C string is read whole. -/
theorem astr_eq_self {line : Str} (terminated : 0 ∉ line) : astr line = line :=
  List.takeWhile_eq_self_iff.mpr fun _ mem => decide_eq_true fun isZero => terminated (isZero ▸ mem)

theorem zero_notMem_astr (line : Str) : 0 ∉ astr line := fun mem =>
  absurd (List.mem_takeWhile_imp mem) (by decide)

/-- The text that is read where the text of a field was saved. -/
def resave (floats : Floats ρ) (type : DataType) (line : Str) : Str :=
  Row.readValue floats (Row.saveValue floats type line).reread none

/-- The values that come back from the database. -/
def InRange : (type : FieldType) → type.Value → Prop
  | .bool, _ => True
  | .signed _, v => -2 ^ 31 ≤ v.toInt ∧ v.toInt < 2 ^ 31
  | .unsigned width, v => v.toNat < 2 ^ 31 ∨ 2 ^ width ≤ v.toNat + 2 ^ 31
  | .signedChar, _ => False
  | .unsignedChar, c => isDigit c = true
  | .text, line => 0 ∉ line ∧ 10 ∉ line

/-- Both kinds of integers are read through an `int`. -/
theorem readValue_reread_sint (v : BitVec 64) (found : Option Str) :
    Row.readValue floats (Value.sint v).reread found = signedDecimal (v.setWidth 32).toInt := by
  rw [Value.reread]
  split <;> rfl

theorem toInt_setWidth_ofInt (x : Int) :
    ((BitVec.ofInt 64 x).setWidth 32).toInt = x.bmod (2 ^ 32) := by
  rw [BitVec.toInt_setWidth, BitVec.toNat_ofInt]
  simp only [Int.bmod_def]
  omega

theorem resave_int (line : Str) :
    resave floats .int line =
      signedDecimal (((tryConvert (extractSigned 64) line).getD 0).bmod (2 ^ 32)) := by
  rw [resave, Row.saveValue, readValue_reread_sint, toInt_setWidth_ofInt]

theorem resave_uint (line : Str) :
    resave floats .uint line =
      signedDecimal ((convertUnsigned 64 line 0 : Int).bmod (2 ^ 32)) := by
  rw [resave, Row.saveValue, Value.reread, Row.readValue, BitVec.setWidth_ofNat_of_le (by decide),
    BitVec.toInt_ofNat']

theorem resave_text (line : Str) : resave floats .text line = astr line := by
  rw [resave, Row.saveValue]
  split
  · rename_i empty
    rw [empty]
    rfl
  · rfl

theorem load_resave_bool (b : Bool) :
    FieldType.bool.load (some (resave floats .bool (boolText b))) = b := by
  rw [resave, Row.saveValue, tryConvert_boolText, Value.reread, Row.readValue]
  exact (FieldType.load_toText .bool b).mpr trivial

/-- The number that is left of a number of at most 64 bits. -/
theorem resave_signed {width : Nat} (small : width ≤ 64) (v : BitVec width) :
    resave floats .int (signedDecimal v.toInt) = signedDecimal (v.toInt.bmod (2 ^ 32)) := by
  have lower := BitVec.le_two_mul_toInt (x := v)
  have upper := BitVec.two_mul_toInt_lt (x := v)
  have power : (2 : Int) ^ width ≤ 2 ^ 64 := pow_le_pow_right₀ (by omega) small
  rw [resave_int, tryConvert_signedDecimal, if_pos ⟨by omega, by omega⟩, Option.getD_some]

theorem load_resave_signed {width : Nat} (small : width ≤ 64) (v : BitVec width) :
    (FieldType.signed width).load (some (resave floats .int (signedDecimal v.toInt))) = v ↔
      -2 ^ 31 ≤ v.toInt ∧ v.toInt < 2 ^ 31 := by
  rw [resave_signed small, FieldType.load_some, FieldType.tryConvert, tryConvert_signedDecimal]
  have lower := BitVec.le_two_mul_toInt (x := v)
  have upper := BitVec.two_mul_toInt_lt (x := v)
  constructor
  · intro same
    have least := @Int.le_bmod v.toInt (2 ^ 32) (by decide)
    have most := @Int.bmod_lt v.toInt (2 ^ 32) (by decide)
    generalize v.toInt.bmod (2 ^ 32) = kept at same least most
    split at same
    · rename_i fits
      rw [Option.map_some, Option.getD_some] at same
      have sameNumber : kept.bmod (2 ^ width) = v.toInt := by
        rw [← BitVec.toInt_ofInt]
        exact congrArg BitVec.toInt same
      rw [Int.bmod_eq_of_le_mul_two (by push_cast; omega) (by push_cast; omega)] at sameNumber
      omega
    · rw [Option.map_none, Option.getD_none] at same
      have isZero : v.toInt = 0 := by
        rw [← same]
        exact BitVec.toInt_zero
      omega
  · intro inRange
    have kept : v.toInt.bmod (2 ^ 32) = v.toInt := Int.bmod_eq_of_le (by omega) (by omega)
    rw [kept, if_pos ⟨lower, upper⟩]
    exact BitVec.ofInt_toInt

/-- The widths of at least 32 bits have moduli that 2 ^ 32 divides. -/
theorem two_pow_cases (width : Nat) :
    2 ^ width ≤ 2 ^ 31 ∨ ∃ q, 2 ^ width = 2 ^ 32 * q := by
  by_cases small : width ≤ 31
  · exact Or.inl (Nat.pow_le_pow_right (by omega) small)
  · refine Or.inr ⟨2 ^ (width - 32), ?_⟩
    rw [← Nat.pow_add]
    congr 1
    omega

/-- What a C `int` keeps of a number below a limit is below it, sign apart. -/
theorem natAbs_bmod_lt {n limit : Nat} (bound : n < limit)
    (modulus : limit ≤ 2 ^ 31 ∨ ∃ q, limit = 2 ^ 32 * q) :
    ((n : Int).bmod (2 ^ 32)).natAbs < limit := by
  rw [Int.bmod_def]
  rcases modulus with small | ⟨q, whole⟩
  · split <;> omega
  · split <;> omega

/-- The numbers that come back when what a C `int` keeps of them is extracted
modulo the limit: the small ones, and those which are negative numbers of an
`int` there. -/
theorem wrapped_bmod_eq_iff {n limit : Nat} (bound : n < limit)
    (modulus : limit ≤ 2 ^ 31 ∨ ∃ q, limit = 2 ^ 32 * q) :
    (if (n : Int).bmod (2 ^ 32) < 0 then (limit - ((n : Int).bmod (2 ^ 32)).natAbs) % limit
      else ((n : Int).bmod (2 ^ 32)).natAbs) = n ↔ n < 2 ^ 31 ∨ limit ≤ n + 2 ^ 31 := by
  have small := natAbs_bmod_lt bound modulus
  by_cases negative : (n : Int).bmod (2 ^ 32) < 0
  · rw [if_pos negative, Nat.mod_eq_of_lt (by omega)]
    rw [Int.bmod_def] at *
    rcases modulus with few | ⟨q, whole⟩
    · split at * <;> omega
    · split at * <;> omega
  · rw [if_neg negative]
    rw [Int.bmod_def] at *
    rcases modulus with few | ⟨q, whole⟩
    · split at * <;> omega
    · split at * <;> omega

theorem load_resave_unsigned {width : Nat} (small : width ≤ 64) (v : BitVec width) :
    (FieldType.unsigned width).load (some (resave floats .uint (decimal v.toNat))) = v ↔
      v.toNat < 2 ^ 31 ∨ 2 ^ width ≤ v.toNat + 2 ^ 31 := by
  have bound := v.isLt
  have power : 2 ^ width ≤ 2 ^ 64 := Nat.pow_le_pow_right (by omega) small
  have whole : convertUnsigned 64 (decimal v.toNat) 0 = v.toNat := by
    rw [convertUnsigned, ← signedDecimal_natCast, tryConvertUnsigned_signedDecimal,
      Int.natAbs_natCast, if_pos (by omega), if_neg (by omega), Option.getD_some]
  have modulus := two_pow_cases width
  rw [resave_uint, whole, FieldType.load_some, FieldType.tryConvert,
    tryConvertUnsigned_signedDecimal, if_pos (natAbs_bmod_lt bound modulus), Option.map_some,
    Option.getD_some, ← wrapped_bmod_eq_iff bound modulus]
  have small : (if (v.toNat : Int).bmod (2 ^ 32) < 0 then
      (2 ^ width - ((v.toNat : Int).bmod (2 ^ 32)).natAbs) % 2 ^ width
      else ((v.toNat : Int).bmod (2 ^ 32)).natAbs) < 2 ^ width := by
    split
    · exact Nat.mod_lt _ (by omega)
    · exact natAbs_bmod_lt bound modulus
  rw [← BitVec.toNat_inj, BitVec.toNat_ofNat, Nat.mod_eq_of_lt small]

theorem load_resave_unsignedChar (c : UInt8) :
    FieldType.unsignedChar.load (some (resave floats .uint [c])) = c ↔ isDigit c = true := by
  rw [resave_uint]
  revert c
  exact Library.Bits.forall_byte (by decide +kernel)

theorem load_resave_text (line : Str) :
    FieldType.text.load (some (resave floats .text line)) = line ↔ 0 ∉ line ∧ 10 ∉ line := by
  rw [resave_text]
  change lineOf (astr line) = line ↔ _
  constructor
  · intro same
    have terminated : 0 ∉ line := fun mem => by
      rw [← same] at mem
      exact zero_notMem_astr line (lineOf_subset mem)
    rw [astr_eq_self terminated] at same
    exact ⟨terminated, (lineOf_eq_self_iff line).mp same⟩
  · rintro ⟨terminated, noBreak⟩
    rw [astr_eq_self terminated]
    exact (lineOf_eq_self_iff line).mpr noBreak

/-- What is loaded where the text of a value was saved. -/
theorem load_resave_iff {type : FieldType} (standard : Standard type) (v : type.Value) :
    type.load (some (resave floats type.dataType (type.toText v))) = v ↔ InRange type v := by
  cases type with
  | bool => exact iff_of_true (load_resave_bool v) trivial
  | signed width => exact load_resave_signed standard v
  | unsigned width => exact load_resave_unsigned standard v
  | signedChar =>
      have lower := BitVec.le_two_mul_toInt (x := v)
      have upper := BitVec.two_mul_toInt_lt (x := v)
      have kept : resave floats .int (signedDecimal (BitVec.toInt v)) =
          FieldType.signedChar.toText v := by
        rw [resave_signed (by decide), Int.bmod_eq_of_le (by omega) (by omega)]
        rfl
      refine iff_of_false (fun same => ?_) id
      exact FieldType.load_toText_signedChar v (kept ▸ same)
  | unsignedChar => exact load_resave_unsignedChar v
  | text => exact load_resave_text v

end Anope.Storage.Json
