import Anope.Text.Convert

/-!
# Base64

`Anope::B64Encode` and `Anope::B64Decode`.  The decoder skips whitespace, stops at the padding and
takes one NUL off the end, which is what the padding of a text leaves behind.
-/

namespace Anope.Text.Base64

open Anope.Text.Convert (isSpace)
open Library.Bits (forall_byte)

/-- `Base64`. -/
def base64 : Str :=
  ascii "ABCDEFGHIJKLMNOPQRSTUVWXYZabcdefghijklmnopqrstuvwxyz0123456789+/"

/-- `Pad64`. -/
def pad64 : UInt8 := 61

/-- One character of `Base64`. -/
def digit (value : Nat) : UInt8 :=
  base64.getD value 0

/-- The first of the characters for three bytes. -/
def digit1 (a : UInt8) : UInt8 :=
  digit (a.toNat >>> 2)

def digit2 (a b : UInt8) : UInt8 :=
  digit (((a.toNat &&& 3) <<< 4) + (b.toNat >>> 4))

def digit3 (b c : UInt8) : UInt8 :=
  digit (((b.toNat &&& 15) <<< 2) + (c.toNat >>> 6))

def digit4 (c : UInt8) : UInt8 :=
  digit (c.toNat &&& 63)

/-- `B64Encode`. -/
def b64Encode : Str → Str
  | a :: b :: c :: src => digit1 a :: digit2 a b :: digit3 b c :: digit4 c :: b64Encode src
  | [a, b] => [digit1 a, digit2 a b, digit3 b 0, pad64]
  | [a] => [digit1 a, digit2 a 0, pad64, pad64]
  | [] => []

/-- `target[target.length() - 1] |= bits`. -/
def orLast (target : Str) (bits : Nat) : Str :=
  target.dropLast ++ target.getLast?.toList.map fun last => last ||| UInt8.ofNat bits

/-- The loop of `B64Decode`; `none` is the early return at a character that is not of base64. -/
def decodeLoop : Str → Nat → Str → Option Str
  | [], _, target => some target
  | ch :: src, state, target =>
      if isSpace ch then decodeLoop src state target
      else if ch = pad64 then some target
      else
        match base64.idxOf? ch with
        | none => none
        | some pos =>
            match state with
            | 0 => decodeLoop src 1 (target ++ [UInt8.ofNat (pos <<< 2)])
            | 1 => decodeLoop src 2
                (orLast target (pos >>> 4) ++ [UInt8.ofNat ((pos &&& 15) <<< 4)])
            | 2 => decodeLoop src 3
                (orLast target (pos >>> 2) ++ [UInt8.ofNat ((pos &&& 3) <<< 6)])
            | _ => decodeLoop src 0 (orLast target pos)

/-- A NUL at the end goes. -/
def trimNul (target : Str) : Str :=
  if target.getLast? = some 0 then target.dropLast else target

/-- `B64Decode`. -/
def b64Decode (src : Str) : Str :=
  (decodeLoop src 0 []).elim [] trimNul

/-! ## The round trip -/

theorem orLast_concat (target : Str) (last : UInt8) (bits : Nat) :
    orLast (target ++ [last]) bits = target ++ [last ||| UInt8.ofNat bits] := by
  simp [orLast]

/-- What the decoder reads of a character that the encoder has written. -/
theorem digit_spec (value : Fin 64) : isSpace (digit value) = false ∧ digit value ≠ pad64 ∧
    base64.idxOf? (digit value) = some value.val := by
  revert value
  decide +kernel

/-- A character that the encoder has written is not skipped, and does not end the text. -/
theorem decodeLoop_digit {value : Nat} (isDigit : value < 64) (src : Str) (state : Nat)
    (target : Str) : decodeLoop (digit value :: src) state target =
      match state with
      | 0 => decodeLoop src 1 (target ++ [UInt8.ofNat (value <<< 2)])
      | 1 => decodeLoop src 2
          (orLast target (value >>> 4) ++ [UInt8.ofNat ((value &&& 15) <<< 4)])
      | 2 => decodeLoop src 3
          (orLast target (value >>> 2) ++ [UInt8.ofNat ((value &&& 3) <<< 6)])
      | _ => decodeLoop src 0 (orLast target value) := by
  obtain ⟨noSpace, noPad, found⟩ := digit_spec ⟨value, isDigit⟩
  rw [decodeLoop, if_neg (by simp [noSpace]), if_neg noPad, found]

theorem decodeLoop_pad (src : Str) (state : Nat) (target : Str) :
    decodeLoop (pad64 :: src) state target = some target := by
  rw [decodeLoop, if_neg (by decide), if_pos rfl]

/-- A number is its high bits and its low bits. -/
theorem shiftLeft_shiftRight_or_mod (n k : Nat) : (n >>> k) <<< k ||| n % 2 ^ k = n := by
  rw [← Nat.shiftLeft_add_eq_or_of_lt (Nat.mod_lt n (Nat.two_pow_pos k)), Nat.shiftLeft_eq,
    Nat.shiftRight_eq_div_pow, Nat.mul_comm]
  exact Nat.div_add_mod n (2 ^ k)

/-- A byte is put together from its two parts. -/
theorem byte_parts (byte : UInt8) :
    UInt8.ofNat ((byte.toNat >>> 2) <<< 2) ||| UInt8.ofNat (byte.toNat &&& 3) = byte ∧
      UInt8.ofNat ((byte.toNat >>> 4) <<< 4) ||| UInt8.ofNat (byte.toNat &&& 15) = byte ∧
      UInt8.ofNat ((byte.toNat >>> 6) <<< 6) ||| UInt8.ofNat (byte.toNat &&& 63) = byte := by
  have whole (k : Nat) :
      UInt8.ofNat ((byte.toNat >>> k) <<< k) ||| UInt8.ofNat (byte.toNat % 2 ^ k) = byte := by
    rw [← UInt8.ofNat_or, shiftLeft_shiftRight_or_mod, UInt8.ofNat_toNat]
  refine ⟨?_, ?_, ?_⟩
  · rw [Nat.and_two_pow_sub_one_eq_mod byte.toNat 2]
    exact whole 2
  · rw [Nat.and_two_pow_sub_one_eq_mod byte.toNat 4]
    exact whole 4
  · rw [Nat.and_two_pow_sub_one_eq_mod byte.toNat 6]
    exact whole 6

theorem decodeLoop_digit1 (a : UInt8) (src target : Str) :
    decodeLoop (digit1 a :: src) 0 target =
      decodeLoop src 1 (target ++ [UInt8.ofNat ((a.toNat >>> 2) <<< 2)]) := by
  have bound := a.toNat_lt
  exact decodeLoop_digit (by rw [Nat.shiftRight_eq_div_pow]; omega) src 0 target

theorem decodeLoop_digit2 (a b : UInt8) (src target : Str) :
    decodeLoop (digit2 a b :: src) 1 (target ++ [UInt8.ofNat ((a.toNat >>> 2) <<< 2)]) =
      decodeLoop src 2 (target ++ [a] ++ [UInt8.ofNat ((b.toNat >>> 4) <<< 4)]) := by
  have bound := b.toNat_lt
  have low : a.toNat &&& 3 = a.toNat % 4 := Nat.and_two_pow_sub_one_eq_mod _ 2
  have upper : (((a.toNat &&& 3) <<< 4) + (b.toNat >>> 4)) >>> 4 = a.toNat &&& 3 := by
    rw [low, Nat.shiftLeft_eq, Nat.shiftRight_eq_div_pow, Nat.shiftRight_eq_div_pow]
    omega
  have lower : (((a.toNat &&& 3) <<< 4) + (b.toNat >>> 4)) &&& 15 = b.toNat >>> 4 := by
    rw [low, Nat.shiftLeft_eq, Nat.shiftRight_eq_div_pow,
      show 15 = 2 ^ 4 - 1 from rfl, Nat.and_two_pow_sub_one_eq_mod]
    omega
  have isDigit : ((a.toNat &&& 3) <<< 4) + (b.toNat >>> 4) < 64 := by
    rw [low, Nat.shiftLeft_eq, Nat.shiftRight_eq_div_pow]
    omega
  rw [digit2, decodeLoop_digit isDigit]
  simp only [upper, lower]
  rw [orLast_concat, (byte_parts a).1]

theorem decodeLoop_digit3 (b c : UInt8) (src target : Str) :
    decodeLoop (digit3 b c :: src) 2 (target ++ [UInt8.ofNat ((b.toNat >>> 4) <<< 4)]) =
      decodeLoop src 3 (target ++ [b] ++ [UInt8.ofNat ((c.toNat >>> 6) <<< 6)]) := by
  have bound := c.toNat_lt
  have low : b.toNat &&& 15 = b.toNat % 16 := Nat.and_two_pow_sub_one_eq_mod _ 4
  have upper : (((b.toNat &&& 15) <<< 2) + (c.toNat >>> 6)) >>> 2 = b.toNat &&& 15 := by
    rw [low, Nat.shiftLeft_eq, Nat.shiftRight_eq_div_pow, Nat.shiftRight_eq_div_pow]
    omega
  have lower : (((b.toNat &&& 15) <<< 2) + (c.toNat >>> 6)) &&& 3 = c.toNat >>> 6 := by
    rw [low, Nat.shiftLeft_eq, Nat.shiftRight_eq_div_pow,
      show 3 = 2 ^ 2 - 1 from rfl, Nat.and_two_pow_sub_one_eq_mod]
    omega
  have isDigit : ((b.toNat &&& 15) <<< 2) + (c.toNat >>> 6) < 64 := by
    rw [low, Nat.shiftLeft_eq, Nat.shiftRight_eq_div_pow]
    omega
  rw [digit3, decodeLoop_digit isDigit]
  simp only [upper, lower]
  rw [orLast_concat, (byte_parts b).2.1]

theorem decodeLoop_digit4 (c : UInt8) (src target : Str) :
    decodeLoop (digit4 c :: src) 3 (target ++ [UInt8.ofNat ((c.toNat >>> 6) <<< 6)]) =
      decodeLoop src 0 (target ++ [c]) := by
  have isDigit : c.toNat &&& 63 < 64 := Nat.and_lt_two_pow _ (by decide : 63 < 2 ^ 6)
  refine (decodeLoop_digit isDigit src 3 _).trans ?_
  change decodeLoop src 0 (orLast _ _) = _
  rw [orLast_concat, (byte_parts c).2.2]

/-- The padding of a text leaves a NUL behind. -/
theorem decodeLoop_b64Encode (src target : Str) : decodeLoop (b64Encode src) 0 target =
    some (target ++ src ++ if src.length % 3 = 0 then [] else [0]) := by
  fun_induction b64Encode src generalizing target with
  | case1 a b c src ih =>
      rw [decodeLoop_digit1, decodeLoop_digit2, decodeLoop_digit3, decodeLoop_digit4, ih]
      have whole : (a :: b :: c :: src).length % 3 = src.length % 3 := by
        simp only [List.length_cons]
        omega
      rw [whole]
      simp only [List.append_assoc, List.cons_append, List.nil_append]
  | case2 a b =>
      rw [decodeLoop_digit1, decodeLoop_digit2, decodeLoop_digit3, decodeLoop_pad]
      simp
  | case3 a =>
      rw [decodeLoop_digit1, decodeLoop_digit2, decodeLoop_pad]
      simp
  | case4 => simp [decodeLoop]

theorem trimNul_of_not_mem {target : Str} (noNul : 0 ∉ target) : trimNul target = target := by
  rw [trimNul, if_neg]
  exact fun last => noNul (List.mem_of_getLast? last)

theorem trimNul_concat (target : Str) : trimNul (target ++ [0]) = target := by
  simp [trimNul]

theorem trimNul_eq_self_iff {target : Str} :
    trimNul target = target ↔ target.getLast? ≠ some 0 := by
  rw [trimNul]
  constructor
  · intro kept last
    rw [if_pos last] at kept
    have shorter := congrArg List.length kept
    have nonempty : target.length ≠ 0 := by
      rw [ne_eq, List.length_eq_zero_iff]
      rintro rfl
      cases last
    rw [List.length_dropLast] at shorter
    omega
  · intro other
    rw [if_neg other]

/-- What comes back of a text: the decoder takes the NUL that the padding has left, and without
padding it takes one of the text's own. -/
theorem b64Decode_of_b64Encode (src : Str) :
    b64Decode (b64Encode src) = if src.length % 3 = 0 then trimNul src else src := by
  rw [b64Decode, decodeLoop_b64Encode, List.nil_append, Option.elim_some]
  split
  · rw [List.append_nil]
  · exact trimNul_concat src

/-- A text without NUL is read back. -/
theorem b64Decode_b64Encode {src : Str} (noNul : 0 ∉ src) : b64Decode (b64Encode src) = src := by
  rw [b64Decode_of_b64Encode, trimNul_of_not_mem noNul, ite_self]

/-- A text is read back unless it has no padding and a NUL at its end. -/
theorem b64Decode_b64Encode_iff (src : Str) :
    b64Decode (b64Encode src) = src ↔ ¬(src.length % 3 = 0 ∧ src.getLast? = some 0) := by
  rw [b64Decode_of_b64Encode]
  split
  case isTrue whole => rw [trimNul_eq_self_iff, not_and, forall_prop_of_true whole]
  case isFalse padded => exact iff_of_true rfl fun both => padded both.1

/-- Three NULs come back as two. -/
theorem b64Decode_b64Encode_nuls : ¬∀ src : Str, b64Decode (b64Encode src) = src := by
  intro roundTrip
  have kept := roundTrip [0, 0, 0]
  rw [b64Decode_of_b64Encode] at kept
  revert kept
  decide

end Anope.Text.Base64
