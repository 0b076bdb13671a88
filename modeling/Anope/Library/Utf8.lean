import Anope.Library.Bits

/-!
# Texts in UTF-8

A byte tells whether it continues a sequence, and the first byte of a sequence tells how long
it is.  A position in a text stands in the sequence of one character.
-/

namespace Library.Utf8

open Library.Bits (forall_byte)

/-- The byte continues a sequence. -/
def continues (byte : UInt8) : Bool :=
  byte &&& 0xc0 == 0x80

/-- How long a sequence is that starts with this byte. -/
def width (lead : UInt8) : Nat :=
  if lead &&& 0xf8 = 0xf0 then 4
  else if lead &&& 0xf0 = 0xe0 then 3
  else if lead &&& 0xe0 = 0xc0 then 2
  else 1

theorem width_le_four (lead : UInt8) : width lead ≤ 4 := by
  rw [width]
  split_ifs <;> decide

/-- A first byte and the bytes that continue it. -/
structure IsSequence (lead : UInt8) (tail : List UInt8) : Prop where
  starts : continues lead = false
  continued : ∀ byte ∈ tail, continues byte = true
  complete : tail.length + 1 = width lead

section Masks

theorem continues_mask : ∀ byte : UInt8, continues (byte &&& 0x3f ||| 0x80) = true :=
  forall_byte (by decide +kernel)

theorem lead_two : ∀ byte : UInt8, continues (byte &&& 0x1f ||| 0xc0) = false ∧
    width (byte &&& 0x1f ||| 0xc0) = 2 :=
  forall_byte (by decide +kernel)

theorem lead_three : ∀ byte : UInt8, continues (byte &&& 0x0f ||| 0xe0) = false ∧
    width (byte &&& 0x0f ||| 0xe0) = 3 :=
  forall_byte (by decide +kernel)

theorem lead_four : ∀ byte : UInt8, continues (byte &&& 0x07 ||| 0xf0) = false ∧
    width (byte &&& 0x07 ||| 0xf0) = 4 :=
  forall_byte (by decide +kernel)

/-- The characters of ASCII are sequences of their own. -/
theorem lead_ascii : ∀ byte : UInt8, byte.toNat < 128 →
    continues byte = false ∧ width byte = 1 :=
  forall_byte (by decide +kernel)

end Masks

/-! ## Characters -/

/-- The encoding of a character is a sequence. -/
theorem exists_isSequence (chr : Char) :
    ∃ lead tail, String.utf8EncodeChar chr = lead :: tail ∧ IsSequence lead tail := by
  rcases Char.utf8Size_eq chr with size | size | size | size
  · refine ⟨_, _, String.utf8EncodeChar_eq_singleton size, ?_⟩
    have ascii : chr.val.toUInt8.toNat < 128 := by
      have le : chr.val.toNat ≤ 127 := Char.utf8Size_eq_one_iff.mp size
      rw [UInt32.toNat_toUInt8]
      omega
    rcases lead_ascii _ ascii with ⟨starts, one⟩
    exact ⟨starts, List.forall_mem_nil _, one.symm⟩
  · refine ⟨_, _, String.utf8EncodeChar_eq_cons_cons size, ?_⟩
    rcases lead_two (chr.val >>> 6).toUInt8 with ⟨starts, two⟩
    refine ⟨starts, ?_, two.symm⟩
    exact List.forall_mem_singleton.mpr (continues_mask _)
  · refine ⟨_, _, String.utf8EncodeChar_eq_cons_cons_cons size, ?_⟩
    rcases lead_three (chr.val >>> 12).toUInt8 with ⟨starts, three⟩
    refine ⟨starts, ?_, three.symm⟩
    rw [List.forall_mem_cons, List.forall_mem_singleton]
    exact ⟨continues_mask _, continues_mask _⟩
  · refine ⟨_, _, String.utf8EncodeChar_eq_cons_cons_cons_cons size, ?_⟩
    rcases lead_four (chr.val >>> 18).toUInt8 with ⟨starts, four⟩
    refine ⟨starts, ?_, four.symm⟩
    rw [List.forall_mem_cons, List.forall_mem_cons, List.forall_mem_singleton]
    exact ⟨continues_mask _, continues_mask _, continues_mask _⟩

/-- A character of ASCII stands in no longer sequence. -/
theorem utf8EncodeChar_of_mem {chr : Char} {byte : UInt8} (ascii : byte.toNat < 128)
    (mem : byte ∈ String.utf8EncodeChar chr) : String.utf8EncodeChar chr = [byte] := by
  rcases exists_isSequence chr with ⟨lead, tail, is, seq⟩
  rcases lead_ascii byte ascii with ⟨starts, one⟩
  rw [is] at mem ⊢
  rcases List.mem_cons.mp mem with rfl | inTail
  · have complete := seq.complete
    rw [one] at complete
    rw [List.eq_nil_of_length_eq_zero (Nat.succ.inj complete)]
  · have continued := seq.continued byte inTail
    rw [starts] at continued
    contradiction

/-! ## Texts -/

/-- The text of some characters. -/
def encode (chars : List Char) : List UInt8 :=
  chars.flatMap String.utf8EncodeChar

/-- The text is one of some characters. -/
def Valid (text : List UInt8) : Prop :=
  ∃ chars, encode chars = text

theorem encode_append (chars chars' : List Char) :
    encode (chars ++ chars') = encode chars ++ encode chars' :=
  List.flatMap_append

theorem encode_cons (chr : Char) (chars : List Char) :
    encode (chr :: chars) = String.utf8EncodeChar chr ++ encode chars :=
  List.flatMap_cons

theorem encode_singleton (chr : Char) : encode [chr] = String.utf8EncodeChar chr :=
  List.flatMap_singleton _ _

theorem valid_encode (chars : List Char) : Valid (encode chars) :=
  ⟨chars, rfl⟩

/-- A position in a text stands in the sequence of a character. -/
theorem exists_place {chars : List Char} {pos : Nat} (inside : pos < (encode chars).length) :
    ∃ before chr after, chars = before ++ chr :: after ∧ (encode before).length ≤ pos ∧
      pos < (encode before).length + (String.utf8EncodeChar chr).length := by
  induction chars generalizing pos with
  | nil => exact absurd inside (Nat.not_lt_zero _)
  | cons chr chars ih =>
      rw [encode_cons, List.length_append] at inside
      by_cases here : pos < (String.utf8EncodeChar chr).length
      · refine ⟨[], chr, chars, rfl, Nat.zero_le _, ?_⟩
        exact lt_of_lt_of_le here (Nat.le_add_left _ _)
      · have later : pos - (String.utf8EncodeChar chr).length < (encode chars).length := by omega
        rcases ih later with ⟨before, chr', after, rfl, ge, lt⟩
        refine ⟨chr :: before, chr', after, rfl, ?_, ?_⟩
        · rw [encode_cons, List.length_append]
          omega
        · rw [encode_cons, List.length_append]
          omega

/-- Two characters that start alike, in texts one of which begins with the other, are encoded
alike. -/
theorem utf8EncodeChar_eq_of_prefix {chr chr' : Char} {rest rest' : List UInt8}
    (starts : String.utf8EncodeChar chr' ++ rest' <+: String.utf8EncodeChar chr ++ rest) :
    String.utf8EncodeChar chr' = String.utf8EncodeChar chr := by
  rcases exists_isSequence chr with ⟨lead, tail, is, seq⟩
  rcases exists_isSequence chr' with ⟨lead', tail', is', seq'⟩
  rcases starts with ⟨more, same⟩
  rw [is, is', List.append_assoc, List.cons_append, List.cons_append, List.cons.injEq] at same
  rcases same with ⟨rfl, same⟩
  have length : tail'.length = tail.length := Nat.succ.inj (seq'.complete.trans seq.complete.symm)
  rw [is, is', (List.append_inj same length).1]

/-- A text at the beginning of another one does not end within a character. -/
theorem length_le_or_of_prefix {chars before after : List Char} {chr : Char}
    (starts : encode chars <+: encode (before ++ chr :: after)) :
    (encode chars).length ≤ (encode before).length ∨
      (encode before).length + (String.utf8EncodeChar chr).length ≤ (encode chars).length := by
  induction before generalizing chars with
  | nil =>
      cases chars with
      | nil => exact .inl (Nat.le_refl _)
      | cons first chars =>
          right
          rw [List.nil_append, encode_cons, encode_cons] at starts
          rw [encode_cons, utf8EncodeChar_eq_of_prefix starts, List.length_append]
          exact (Nat.zero_add _).trans_le (Nat.le_add_right _ _)
  | cons own before ih =>
      cases chars with
      | nil => exact .inl (Nat.zero_le _)
      | cons first chars =>
          rw [List.cons_append, encode_cons, encode_cons] at starts
          have alike := utf8EncodeChar_eq_of_prefix starts
          rw [alike, List.prefix_append_right_inj] at starts
          rw [encode_cons, encode_cons, alike, List.length_append, List.length_append]
          rcases ih starts with short | long
          · exact .inl (Nat.add_le_add_left short _)
          · right
            rw [Nat.add_assoc]
            exact Nat.add_le_add_left long _

/-- A text is cut at a character of ASCII into texts. -/
theorem Valid.of_cut {before after : List UInt8} {byte : UInt8} (ascii : byte.toNat < 128)
    (valid : Valid (before ++ byte :: after)) : Valid before ∧ Valid after := by
  rcases valid with ⟨chars, is⟩
  have inside : before.length < (encode chars).length := by
    rw [is, List.length_append, List.length_cons]
    omega
  rcases exists_place inside with ⟨front, chr, back, rfl, ge, lt⟩
  rw [encode_append, encode_cons] at is
  -- The byte is one of the character's, and so it is the whole sequence.
  have mem : byte ∈ String.utf8EncodeChar chr := by
    have at_ := congrArg (fun text => text[before.length]?) is
    rw [List.getElem?_append_right ge, List.getElem?_append_left (by omega),
      List.getElem?_append_right (le_refl _), Nat.sub_self] at at_
    exact List.mem_of_getElem? at_
  have alone := utf8EncodeChar_of_mem ascii mem
  rw [alone, List.length_singleton] at lt
  rw [alone] at is
  rcases List.append_inj is (by omega) with ⟨isBefore, isAfter⟩
  exact ⟨⟨front, isBefore⟩, ⟨back, (List.cons.inj isAfter).2⟩⟩

end Library.Utf8
