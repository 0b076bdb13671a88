import Mathlib.Data.UInt
import Mathlib.Tactic.Common

/-!
# Bits of byte strings

A byte is read as its eight bits, most significant first, and a byte string as
the concatenation.  The main result compares a prefix of the bits of two byte
strings the way byte-wise code does it: whole bytes first, then the remaining
bits under a mask.
-/

namespace Library.Bits

/-- The eight bits of a byte, most significant first. -/
def byteBits (byte : UInt8) : List Bool :=
  (List.range 8).map fun i => byte.toNat.testBit (7 - i)

/-- The bits of a byte string. -/
def bits (bytes : List UInt8) : List Bool :=
  bytes.flatMap byteBits

/-- The mask that keeps the `count` most significant bits of a byte. -/
def highMask (count : Nat) : UInt8 :=
  UInt8.ofNat (256 - 2 ^ (8 - count))

theorem forall_byte {property : UInt8 → Prop}
    (all : ∀ n : Fin 256, property (UInt8.ofNat n)) (byte : UInt8) : property byte := by
  have atByte := all byte.toFin
  simpa using atByte

@[simp]
theorem length_byteBits (byte : UInt8) : (byteBits byte).length = 8 := by
  simp [byteBits]

@[simp]
theorem bits_cons (byte : UInt8) (bytes : List UInt8) :
    bits (byte :: bytes) = byteBits byte ++ bits bytes := by
  simp [bits]

theorem testBit_toNat_of_le (byte : UInt8) {i : Nat} (high : 8 ≤ i) :
    byte.toNat.testBit i = false :=
  Nat.testBit_lt_two_pow (byte.toNat_lt.trans_le (Nat.pow_le_pow_right Nat.two_pos high))

/-- The leading bits of two bytes agree when they agree one by one. -/
theorem take_byteBits_eq_iff_testBit (left right : UInt8) {count : Nat} (bound : count ≤ 8) :
    (byteBits left).take count = (byteBits right).take count ↔
      ∀ i < count, left.toNat.testBit (7 - i) = right.toNat.testBit (7 - i) := by
  simp only [byteBits, ← List.map_take, List.take_range, Nat.min_eq_left bound]
  rw [List.map_inj_left]
  simp

theorem byteBits_inj {left right : UInt8} : byteBits left = byteBits right ↔ left = right := by
  constructor
  · intro same
    have leading := (take_byteBits_eq_iff_testBit left right le_rfl).mp (by rw [same])
    rw [← UInt8.toNat_inj]
    refine Nat.eq_of_testBit_eq fun i => ?_
    by_cases high : 8 ≤ i
    · rw [testBit_toNat_of_le _ high, testBit_toNat_of_le _ high]
    · have at_i := leading (7 - i) (by omega)
      rwa [Nat.sub_sub_self (by omega)] at at_i
  · rintro rfl
    rfl

theorem testBit_highMask {count i : Nat} :
    count ≤ 8 → i < 8 → (highMask count).toNat.testBit i = decide (8 - count ≤ i) := by
  have all : ∀ (count : Fin 9) (i : Fin 8),
      (highMask count).toNat.testBit i = decide (8 - (count : Nat) ≤ i) := by
    decide
  intro countLe iLt
  exact all ⟨count, by omega⟩ ⟨i, iLt⟩

/-- Two bytes agree on their `count` leading bits exactly when they agree under
the mask of these bits. -/
theorem take_byteBits_eq_iff (left right : UInt8) {count : Nat} (bound : count ≤ 8) :
    (byteBits left).take count = (byteBits right).take count ↔
      left &&& highMask count = right &&& highMask count := by
  rw [take_byteBits_eq_iff_testBit left right bound, ← UInt8.toNat_inj, UInt8.toNat_and,
    UInt8.toNat_and]
  constructor
  · intro leading
    refine Nat.eq_of_testBit_eq fun i => ?_
    rw [Nat.testBit_and, Nat.testBit_and]
    by_cases high : 8 ≤ i
    · rw [testBit_toNat_of_le left high, testBit_toNat_of_le right high]
    · rw [testBit_highMask bound (by omega)]
      by_cases kept : 8 - count ≤ i
      · have at_i := leading (7 - i) (by omega)
        rw [Nat.sub_sub_self (by omega)] at at_i
        rw [at_i]
      · simp [kept]
  · intro masked i less
    have at_i := congrArg (fun n => n.testBit (7 - i)) masked
    simpa [Nat.testBit_and, testBit_highMask bound (show 7 - i < 8 by omega),
      show 8 - count ≤ 7 - i by omega] using at_i

theorem take_bits_cons (byte : UInt8) (bytes : List UInt8) (count : Nat) :
    (bits (byte :: bytes)).take (8 + count) = byteBits byte ++ (bits bytes).take count := by
  rw [bits_cons, ← length_byteBits byte, List.take_length_add_append]

theorem take_bits_cons_of_le (byte : UInt8) (bytes : List UInt8) {count : Nat}
    (bound : count ≤ 8) :
    (bits (byte :: bytes)).take count = (byteBits byte).take count := by
  rw [bits_cons, List.take_append_of_le_length (by simpa using bound)]

/-- Two byte strings of one length share their first `8 * count + rest` bits
exactly when they share `count` bytes and the bytes that follow agree under the
mask of `rest` bits. -/
theorem take_bits_eq_iff {left right : List UInt8} (sameLength : left.length = right.length)
    (count : Nat) {rest : Nat} (bound : rest ≤ 8) :
    (bits left).take (8 * count + rest) = (bits right).take (8 * count + rest) ↔
      left.take count = right.take count ∧
        ∀ x y, left[count]? = some x → right[count]? = some y →
          x &&& highMask rest = y &&& highMask rest := by
  induction count generalizing left right with
  | zero =>
      cases left with
      | nil =>
          rw [List.length_nil, eq_comm, List.length_eq_zero_iff] at sameLength
          simp [sameLength]
      | cons byte left =>
          cases right with
          | nil => simp at sameLength
          | cons byte' right =>
              rw [Nat.mul_zero, Nat.zero_add, take_bits_cons_of_le _ _ bound,
                take_bits_cons_of_le _ _ bound, take_byteBits_eq_iff _ _ bound]
              simp
  | succ count ih =>
      cases left with
      | nil =>
          rw [List.length_nil, eq_comm, List.length_eq_zero_iff] at sameLength
          simp [sameLength]
      | cons byte left =>
          cases right with
          | nil => simp at sameLength
          | cons byte' right =>
              have tailLength : left.length = right.length := by simpa using sameLength
              have offset : 8 * (count + 1) + rest = 8 + (8 * count + rest) := by omega
              have heads : byteBits byte ++ (bits left).take (8 * count + rest) =
                    byteBits byte' ++ (bits right).take (8 * count + rest) ↔
                  byte = byte' ∧
                    (bits left).take (8 * count + rest) =
                      (bits right).take (8 * count + rest) := by
                constructor
                · intro same
                  obtain ⟨head, tail⟩ := List.append_inj same (by simp)
                  exact ⟨byteBits_inj.mp head, tail⟩
                · rintro ⟨rfl, tail⟩
                  rw [tail]
              rw [offset, take_bits_cons, take_bits_cons, heads, ih tailLength]
              simp [and_assoc]

/-- The byte with the bit at `position` flipped, counted from the most
significant one. -/
def flipBit (byte : UInt8) (position : Nat) : UInt8 :=
  byte ^^^ UInt8.ofNat (2 ^ (7 - position))

theorem testBit_flipBit (byte : UInt8) {position i : Nat} (inByte : position < 8)
    (iLt : i < 8) :
    (flipBit byte position).toNat.testBit (7 - i) =
      (byte.toNat.testBit (7 - i) ^^ decide (position = i)) := by
  have power : (UInt8.ofNat (2 ^ (7 - position))).toNat = 2 ^ (7 - position) := by
    rw [UInt8.toNat_ofNat']
    exact Nat.mod_eq_of_lt (Nat.pow_lt_pow_right (by omega) (by omega))
  have sameBit : 7 - position = 7 - i ↔ position = i := by omega
  rw [flipBit, UInt8.toNat_xor, Nat.testBit_xor, power, Nat.testBit_two_pow]
  simp [sameBit]

theorem take_byteBits_flipBit (byte : UInt8) {position : Nat} (inByte : position < 8) :
    (byteBits (flipBit byte position)).take position = (byteBits byte).take position ∧
      (byteBits (flipBit byte position)).take (position + 1) ≠
        (byteBits byte).take (position + 1) := by
  rw [take_byteBits_eq_iff_testBit _ _ inByte.le, Ne, take_byteBits_eq_iff_testBit _ _ inByte]
  constructor
  · intro i less
    rw [testBit_flipBit byte inByte (by omega)]
    simp [Nat.ne_of_gt less]
  · intro same
    have atPosition := same position (Nat.lt_succ_self position)
    rw [testBit_flipBit byte inByte inByte] at atPosition
    simp at atPosition

/-- Some byte string shares exactly the first `short` bits with a given one. -/
theorem exists_take_bits_eq_ne {bytes : List UInt8} {short long : Nat} (less : short < long)
    (bound : short < 8 * bytes.length) :
    ∃ other : List UInt8, other.length = bytes.length ∧
      (bits other).take short = (bits bytes).take short ∧
      (bits other).take long ≠ (bits bytes).take long := by
  induction bytes generalizing short long with
  | nil => simp at bound
  | cons byte bytes ih =>
      by_cases inFirst : short < 8
      · obtain ⟨before, after⟩ := take_byteBits_flipBit byte inFirst
        refine ⟨flipBit byte short :: bytes, rfl, ?_, ?_⟩
        · rwa [take_bits_cons_of_le _ _ inFirst.le, take_bits_cons_of_le _ _ inFirst.le]
        · intro same
          have shorter := congrArg (List.take (short + 1)) same
          rw [List.take_take, List.take_take, Nat.min_eq_left less,
            take_bits_cons_of_le _ _ inFirst, take_bits_cons_of_le _ _ inFirst] at shorter
          exact after shorter
      · obtain ⟨more, rfl⟩ := Nat.exists_eq_add_of_le (Nat.le_of_not_lt inFirst)
        obtain ⟨longer, rfl⟩ := Nat.exists_eq_add_of_le (Nat.le_of_not_lt inFirst |>.trans less.le)
        have tailBound : more < 8 * bytes.length := by
          rw [List.length_cons] at bound
          omega
        obtain ⟨other, length, before, after⟩ := ih (Nat.lt_of_add_lt_add_left less) tailBound
        refine ⟨byte :: other, by simp [length], ?_, ?_⟩
        · rw [take_bits_cons, take_bits_cons, before]
        · rw [take_bits_cons, take_bits_cons]
          exact fun same => after (List.append_cancel_left same)

end Library.Bits
