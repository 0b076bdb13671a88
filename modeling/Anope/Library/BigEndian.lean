import Mathlib.Algebra.Group.Nat.Defs
import Mathlib.Data.List.Induction
import Mathlib.Tactic.Common

/-!
# Numbers in network order

A number as a fixed number of bytes, the most significant one first.
-/

namespace Library.BigEndian

/-- The number that bytes stand for. -/
def ofBytes (bytes : List UInt8) : Nat :=
  bytes.foldl (fun number byte => number * 256 + byte.toNat) 0

/-- The last bytes of a number. -/
def toBytes : Nat → Nat → List UInt8
  | 0, _ => []
  | count + 1, number => toBytes count (number / 256) ++ [UInt8.ofNat number]

@[simp]
theorem length_toBytes (count number : Nat) : (toBytes count number).length = count := by
  induction count generalizing number with
  | zero => rfl
  | succ count ih => rw [toBytes, List.length_append, ih, List.length_singleton]

theorem ofBytes_concat (bytes : List UInt8) (byte : UInt8) :
    ofBytes (bytes ++ [byte]) = ofBytes bytes * 256 + byte.toNat := by
  rw [ofBytes, List.foldl_append]
  rfl

/-- A number that fits is read back. -/
theorem ofBytes_toBytes {count number : Nat} (fits : number < 256 ^ count) :
    ofBytes (toBytes count number) = number := by
  induction count generalizing number with
  | zero =>
      rw [Nat.pow_zero, Nat.lt_one_iff] at fits
      rw [fits]
      rfl
  | succ count ih =>
      have quotient : number / 256 < 256 ^ count := by
        rw [Nat.div_lt_iff_lt_mul (by decide), ← Nat.pow_succ]
        exact fits
      have last : (UInt8.ofNat number).toNat = number % 256 := UInt8.toNat_ofNat'
      rw [toBytes, ofBytes_concat, ih quotient, last]
      exact Nat.div_add_mod' number 256

end Library.BigEndian
