import Anope.Text.LineWrapper

/-!
# What the scan of a line has gone over

A line that is scanned is what is carried into it and then the text, character by character, up to
where the line ends, as long as no code of the text is one that the scan gets wrong.
-/

namespace Anope.Text

open Library.While

/-! ## Formatting codes -/

/-- A code as `formatting` keeps it. -/
def IsCode (fmt : Str) : Prop :=
  (∃ chr, isToggle chr = true ∧ fmt = [chr]) ∨
    (∃ digits, fmt = 0x03 :: digits ∧ digits.length ≤ 5 ∧ ∀ chr ∈ digits, isColour chr = true) ∨
    ∃ digit, fmt = [0x04, digit] ∧ isHexColour digit = true

theorem takes_of_isFormat (code : Code) {chr : UInt8} (format : isFormat chr = true) :
    code.takes chr = false := by
  rw [← Bool.not_eq_true]
  intro taken
  have plain : isFormat chr = false := by
    cases code with
    | none => cases taken
    | colour left =>
        rw [Code.takes, Bool.and_eq_true] at taken
        exact isFormat_of_isColour taken.2
    | hex left =>
        rw [Code.takes, Bool.and_eq_true] at taken
        exact isFormat_of_isHexColour taken.2
  rw [plain] at format
  cases format

theorem ne_of_isColour {chr : UInt8} (colour : isColour chr = true) : chr ≠ 0x1B ∧ chr ≠ 0x20 := by
  constructor
  · rintro rfl
    cases colour
  · rintro rfl
    cases colour

theorem isFormat_of_isToggle {chr : UInt8} (toggle : isToggle chr = true) :
    isFormat chr = true := by
  rw [isFormat, toggle]
  rfl

/-- A colour code goes on with its digits. -/
theorem after_digits {digits : Str} (colours : ∀ chr ∈ digits, isColour chr = true) {left : Nat}
    (few : digits.length ≤ left) :
    (Code.colour left).after digits = .colour (left - digits.length) ∧
      removeFormattingFrom (.colour left) digits = [] := by
  induction digits generalizing left with
  | nil => exact ⟨rfl, rfl⟩
  | cons chr digits ih =>
      obtain ⟨left, rfl⟩ : ∃ more, left = more + 1 := Nat.exists_eq_add_of_le' (Nat.le_trans
        (Nat.succ_pos _) few)
      have colour := colours chr List.mem_cons_self
      have taken : (Code.colour (left + 1)).takes chr = true := by
        rw [Code.takes, colour]
        rfl
      have next : (Code.colour (left + 1)).next chr = .colour left := by
        rw [Code.next, taken, if_pos rfl, Code.pred, Nat.add_sub_cancel]
      obtain ⟨isAfter, none⟩ := @ih (fun other mem => colours other (List.mem_cons_of_mem chr mem))
        left (Nat.le_of_succ_le_succ few)
      constructor
      · rw [Code.after, List.foldl_cons, next, List.length_cons, Nat.add_sub_add_right]
        exact isAfter
      · rw [removeFormattingFrom, Code.hides, taken, Bool.true_or, if_pos rfl, next, none]

theorem next_colour (code : Code) : code.next 0x03 = .colour 5 := by
  rw [Code.next, takes_of_isFormat code rfl]
  rfl

/-- The characters of a colour code, and the code behind it. -/
theorem colourCode_removed (code : Code) {digits : Str}
    (colours : ∀ chr ∈ digits, isColour chr = true) (few : digits.length ≤ 5) :
    code.after (0x03 :: digits) = .colour (5 - digits.length) ∧
      removeFormattingFrom code (0x03 :: digits) = [] := by
  obtain ⟨isAfter, none⟩ := after_digits colours few
  constructor
  · rw [Code.after, List.foldl_cons, next_colour]
    exact isAfter
  · rw [removeFormattingFrom, Code.hides, next_colour, none]
    exact if_pos (Bool.or_true _)

theorem toggle_removed (code : Code) {chr : UInt8} (toggle : isToggle chr = true) :
    code.after [chr] = .none ∧ removeFormattingFrom code [chr] = [] := by
  have format := isFormat_of_isToggle toggle
  have other : chr ≠ 0x03 ∧ chr ≠ 0x04 := by
    constructor
    · rintro rfl
      cases toggle
    · rintro rfl
      cases toggle
  constructor
  · rw [Code.after, List.foldl_cons, List.foldl_nil, Code.next, takes_of_isFormat code format,
      if_neg Bool.false_ne_true, if_neg other.1, if_neg other.2]
  · rw [removeFormattingFrom, Code.hides, format, Bool.or_true, if_pos rfl]
    rfl

theorem ne_of_isHexColour {chr : UInt8} (hexColour : isHexColour chr = true) :
    chr ≠ 0x1B ∧ chr ≠ 0x20 := by
  constructor
  · rintro rfl
    cases hexColour
  · rintro rfl
    cases hexColour

/-- The characters of a hex colour code of one digit, and the code behind it. -/
theorem hexColour_removed (code : Code) {digit : UInt8} (hexColour : isHexColour digit = true) :
    code.after [0x04, digit] = .hex 12 ∧ removeFormattingFrom code [0x04, digit] = [] := by
  have next : code.next 0x04 = .hex 13 := by
    rw [Code.next, takes_of_isFormat code rfl]
    rfl
  have taken : (Code.hex 13).takes digit = true := by
    rw [Code.takes, hexColour]
    rfl
  constructor
  · rw [Code.after, List.foldl_cons, List.foldl_cons, List.foldl_nil, next, Code.next, if_pos taken]
    rfl
  · rw [removeFormattingFrom, removeFormattingFrom, removeFormattingFrom, Code.hides, Code.hides,
      next, taken]
    exact if_pos (Bool.or_true _)

/-- A code holds no space. -/
theorem IsCode.ne {fmt : Str} (isCode : IsCode fmt) {chr : UInt8} (mem : chr ∈ fmt) :
    chr ≠ 0x1B ∧ chr ≠ 0x20 := by
  rcases isCode with ⟨toggled, toggle, rfl⟩ | ⟨digits, rfl, -, colours⟩ | ⟨digit, rfl, hexColour⟩
  · rw [List.mem_singleton.mp mem]
    constructor
    · rintro rfl
      cases toggle
    · rintro rfl
      cases toggle
  · rcases List.mem_cons.mp mem with rfl | mem
    · decide
    · exact ne_of_isColour (colours chr mem)
  · rcases List.mem_cons.mp mem with rfl | mem
    · decide
    · rw [List.mem_singleton.mp mem]
      exact ne_of_isHexColour hexColour

/-- A code is not seen. -/
theorem IsCode.removed {fmt : Str} (isCode : IsCode fmt) (code : Code) :
    removeFormattingFrom code fmt = [] := by
  rcases isCode with ⟨chr, toggle, rfl⟩ | ⟨digits, rfl, few, colours⟩ | ⟨digit, rfl, hexColour⟩
  · exact (toggle_removed code toggle).2
  · exact (colourCode_removed code colours few).2
  · exact (hexColour_removed code hexColour).2

theorem IsCode.hasCode {fmt : Str} (isCode : IsCode fmt) : ¬hasCode fmt = false := by
  rcases isCode with ⟨chr, toggle, rfl⟩ | ⟨digits, rfl, -, -⟩ | ⟨digit, rfl, -⟩
  · rw [Text.hasCode, List.any_cons, toggle]
    exact Bool.true_eq_false_eq_False
  · exact Bool.true_eq_false_eq_False
  · exact Bool.true_eq_false_eq_False

theorem lastWord_concat (text : Str) (chr : UInt8) :
    lastWord (text ++ [chr]) = if chr = 0x20 then [] else lastWord text ++ [chr] := by
  rw [lastWord, List.reverse_append, List.reverse_singleton, List.singleton_append,
    List.takeWhile_cons]
  by_cases isSpace : chr = 0x20
  · rw [if_pos isSpace, if_neg (by rw [isSpace]; decide)]
    rfl
  · rw [if_neg isSpace, if_pos (by simpa using isSpace), List.reverse_cons]
    rfl

theorem lastSpaceOf_space (text : Str) : lastSpaceOf (text ++ [0x20]) = text.length := by
  rw [lastSpaceOf, lastWord_concat, if_pos rfl, List.length_append, List.length_singleton]
  rfl

theorem lastSpaceOf_concat (text : Str) {chr : UInt8} (isOther : chr ≠ 0x20) :
    lastSpaceOf (text ++ [chr]) = lastSpaceOf text := by
  rw [lastSpaceOf, lastSpaceOf, lastWord_concat, if_neg isOther, List.length_append,
    List.length_append, List.length_singleton]
  omega

theorem lastWord_append (text : Str) {word : Str} (noSpace : ∀ chr ∈ word, chr ≠ 0x20) :
    lastWord (text ++ word) = lastWord text ++ word ∧
      lastSpaceOf (text ++ word) = lastSpaceOf text := by
  induction word using List.reverseRecOn with
  | nil =>
      rw [List.append_nil, List.append_nil]
      exact ⟨rfl, rfl⟩
  | append_singleton word chr ih =>
      obtain ⟨isWord, isSpace⟩ := ih fun other mem => noSpace other (List.mem_append_left _ mem)
      have isOther := noSpace chr (List.mem_append_right _ (List.mem_singleton.mpr rfl))
      rw [← List.append_assoc, lastWord_concat, if_neg isOther, lastSpaceOf_concat _ isOther,
        isWord, List.append_assoc]
      exact ⟨rfl, isSpace⟩

theorem hasCode_append {first second : Str} (none : hasCode (first ++ second) = false) :
    hasCode first = false ∧ hasCode second = false := by
  rw [hasCode, List.any_append] at none
  exact Bool.or_eq_false_iff.mp none

/-- A scan that has gone over the beginning of a text. -/
structure Scanned (start : List Str) (before : Str) (scan : Scan) : Prop where
  idx : scan.idx = before.length
  out : scan.out = start.flatten ++ before.map shown
  currentLength : scan.currentLength = (visible before).length
  lastSpace : scan.lastSpace = lastSpaceOf before
  codes : ∀ fmt ∈ scan.formatting, IsCode fmt
  uncertain : hasCode (lastWord before) = false → scan.uncertain = []
  formatting : start = [] → hasCode before = false → scan.formatting = []

variable {start : List Str} {before : Str} {scan : Scan} {chr : UInt8}

/-- A character that is seen, other than a space. -/
theorem Scanned.put (scanned : Scanned start before scan) (isPlain : isFormat chr = false)
    (isOther : chr ≠ 0x20) (left : (Code.none.after before).takes chr = false) :
    Scanned start (before ++ [chr]) (scan.put (shown chr)) where
  idx := by
    rw [List.length_append, ← scanned.idx]
    rfl
  out := by
    rw [List.map_append, ← List.append_assoc, ← scanned.out]
    rfl
  currentLength := by
    rw [visible_concat_of_plain isPlain left, List.length_append, ← scanned.currentLength]
    rfl
  lastSpace := by
    rw [lastSpaceOf_concat before isOther]
    exact scanned.lastSpace
  codes := scanned.codes
  uncertain := by
    rw [lastWord_concat, if_neg isOther, hasCode, List.any_append, Bool.or_eq_false_iff]
    exact fun none => scanned.uncertain none.1
  formatting := fun isNew none => scanned.formatting isNew (hasCode_append none).1

/-- A space. -/
theorem Scanned.space (scanned : Scanned start before scan)
    (left : (Code.none.after before).takes 0x20 = false) :
    Scanned start (before ++ [0x20])
      { scan.put 0x20 with lastSpace := scan.idx, uncertain := [] } where
  idx := by
    rw [List.length_append, ← scanned.idx]
    rfl
  out := by
    rw [List.map_append, ← List.append_assoc, ← scanned.out]
    rfl
  currentLength := by
    rw [visible_concat_of_plain rfl left, List.length_append, ← scanned.currentLength]
    rfl
  lastSpace := by
    rw [lastSpaceOf_space]
    exact scanned.idx
  codes := scanned.codes
  uncertain := fun _ => rfl
  formatting := fun isNew none => scanned.formatting isNew (hasCode_append none).1

/-- A code that is not seen and holds no space. -/
theorem Scanned.code (scanned : Scanned start before scan) (color : Str)
    (formatting uncertain : List Str) (same : color.map shown = color)
    (noSpace : ∀ chr ∈ color, chr ≠ 0x20)
    (removed : removeFormattingFrom (Code.none.after before) color = [])
    (codes : ∀ fmt ∈ formatting, IsCode fmt)
    (isUncertain : hasCode (lastWord before ++ color) = false → uncertain = [])
    (isFormatting : start = [] → hasCode (before ++ color) = false → formatting = []) :
    Scanned start (before ++ color)
      { scan with
        idx := scan.idx + color.length
        out := scan.out ++ color
        formatting
        uncertain } where
  idx := by
    rw [List.length_append, ← scanned.idx]
  out := by
    rw [List.map_append, ← List.append_assoc, ← scanned.out, same]
  currentLength := by
    rw [visible, removeFormatting, removeFormattingFrom_append, removed, List.append_nil]
    exact scanned.currentLength
  lastSpace := by
    rw [(lastWord_append before noSpace).2]
    exact scanned.lastSpace
  codes := codes
  uncertain := by
    rw [(lastWord_append before noSpace).1]
    exact isUncertain
  formatting := isFormatting

/-- Formatting that is turned on. -/
theorem Scanned.opened (scanned : Scanned start before scan) {fmt : Str} (isCode : IsCode fmt) :
    Scanned start (before ++ fmt)
      { scan with
        idx := scan.idx + fmt.length
        out := scan.out ++ fmt
        formatting := scan.formatting ++ [fmt]
        uncertain := scan.uncertain ++ [fmt] } := by
  have same : fmt.map shown = fmt.map id :=
    List.map_congr_left fun chr mem => shown_eq_self (isCode.ne mem).1
  rw [List.map_id] at same
  apply scanned.code fmt _ _ same
  · exact fun chr mem => (isCode.ne mem).2
  · exact isCode.removed _
  · intro other mem
    rcases List.mem_append.mp mem with old | new
    · exact scanned.codes other old
    · rw [List.mem_singleton.mp new]
      exact isCode
  · exact fun none => absurd (hasCode_append none).2 isCode.hasCode
  · exact fun _ none => absurd (hasCode_append none).2 isCode.hasCode

/-! ## The scan -/

theorem opens_of_plain {word rest : Str} {active : List (Option UInt8)}
    (plain : ∀ chr ∈ word, isFormat chr = false) :
    opens active (word ++ rest) = opens active rest := by
  induction word with
  | nil => rfl
  | cons chr word ih =>
      have isPlain := plain chr List.mem_cons_self
      simp only [isFormat, Bool.or_eq_false_iff, beq_eq_false_iff_ne] at isPlain
      obtain ⟨⟨⟨noToggle, noReset⟩, noColour⟩, noHex⟩ := isPlain
      rw [List.cons_append, opens, if_neg noReset, noToggle, beq_eq_false_iff_ne.mpr noColour,
        beq_eq_false_iff_ne.mpr noHex, Bool.or_false, Bool.or_false, if_neg Bool.false_ne_true]
      exact ih fun other mem => plain other (List.mem_cons_of_mem chr mem)

end Anope.Text
