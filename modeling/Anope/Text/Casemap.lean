import Anope.Library.Bits

/-!
# Byte strings and case maps

`Anope::string` wraps a `std::string`, so a string here is a list of bytes.
Case-insensitive operations go through the tables that `CaseMapRebuild` fills
from the configured locale: the `ci::string` traits compare upper-cased bytes,
while `Anope::tolower` reads the lower-case table.
-/

namespace Anope

/-- The bytes held by an `Anope::string`. -/
abbrev Str := List UInt8

/-- The bytes of an ASCII literal of the source. -/
def ascii (literal : String) : Str :=
  literal.toList.map fun char => UInt8.ofNat char.toNat

namespace Text

open Library.Bits (forall_byte)

/-- The tables `case_map_upper` and `case_map_lower`.  Both directions identify
the same bytes, and only the terminator folds to the terminator. -/
structure Casemap where
  toupper : UInt8 → UInt8
  tolower : UInt8 → UInt8
  tolower_toupper : ∀ byte, tolower (toupper byte) = tolower byte
  toupper_tolower : ∀ byte, toupper (tolower byte) = toupper byte
  toupper_eq_zero : ∀ byte, toupper byte = 0 → byte = 0

/-- `ascii_ctype::do_toupper`. -/
def asciiToupper (c : UInt8) : UInt8 :=
  if 97 ≤ c ∧ c ≤ 122 then c - 32 else c

/-- `ascii_ctype::do_tolower`. -/
def asciiTolower (c : UInt8) : UInt8 :=
  if 65 ≤ c ∧ c ≤ 90 then c + 32 else c

/-- `rfc1459_ctype::do_toupper`: braces and the bar fold to brackets and the
backslash. -/
def rfc1459Toupper (c : UInt8) : UInt8 :=
  if c = 123 ∨ c = 125 ∨ c = 124 then c - 32 else asciiToupper c

/-- `rfc1459_ctype::do_tolower`. -/
def rfc1459Tolower (c : UInt8) : UInt8 :=
  if c = 91 ∨ c = 93 ∨ c = 92 then c + 32 else asciiTolower c

/-- The `ascii` case map, the default of the configuration. -/
def Casemap.ascii : Casemap where
  toupper := asciiToupper
  tolower := asciiTolower
  tolower_toupper := forall_byte (by decide +kernel)
  toupper_tolower := forall_byte (by decide +kernel)
  toupper_eq_zero := forall_byte (by decide +kernel)

/-- The `rfc1459` case map. -/
def Casemap.rfc1459 : Casemap where
  toupper := rfc1459Toupper
  tolower := rfc1459Tolower
  tolower_toupper := forall_byte (by decide +kernel)
  toupper_tolower := forall_byte (by decide +kernel)
  toupper_eq_zero := forall_byte (by decide +kernel)

namespace Casemap

/-- The upper-cased bytes before the first terminator, which is all that a
`ci::string` built from `c_str()` can see. -/
def ciStr (casemap : Casemap) (text : Str) : Str :=
  (text.takeWhile (· ≠ 0)).map casemap.toupper

/-- `Anope::string::equals_ci`. -/
def equalsCi (casemap : Casemap) (left right : Str) : Bool :=
  casemap.ciStr left = casemap.ciStr right

@[simp]
theorem equalsCi_iff (casemap : Casemap) (left right : Str) :
    casemap.equalsCi left right = true ↔ casemap.ciStr left = casemap.ciStr right := by
  simp [equalsCi]

end Casemap

end Text

end Anope
