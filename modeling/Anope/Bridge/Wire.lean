import Anope.Library.Split
import Anope.Library.Utf8
import Anope.Text.Casemap

/-!
# Lines on the wire

`Relay::SplitForWire`: the lines of a message are cut into chunks that fit on a line of IRC,
by `Text::TruncateUtf8`, and only so many of them are kept.
-/

namespace Anope.Bridge

open Library.Split (cut cut_eq_none_iff cut_eq_some_iff cut_append cut_eq_none cutInduction)
open Library.Utf8 (continues width encode Valid)

/-- The position behind the first byte of the sequence that the position is in. -/
def rewind (str : Str) : Nat → Nat
  | 0 => 0
  | lead + 1 => if continues (str.getD lead 0) then rewind str lead else lead + 1

/-- `Text::TruncateUtf8`. -/
def truncateUtf8 (str : Str) (maxbytes : Nat) : Str :=
  if str.length ≤ maxbytes then str
  else
    let lead := rewind str maxbytes
    -- The last sequence is dropped when it does not fit as a whole.
    if 0 < lead ∧ maxbytes - (lead - 1) < width (str.getD (lead - 1) 0) then str.take (lead - 1)
    else str.take maxbytes

/-- `Text::SplitRelayLines`. -/
def splitRelayLines (str : Str) : List Str :=
  match _eol : cut 10 str with
  | none => if str = [] then [] else [str]
  | some (line, rest) =>
      if line = [] then splitRelayLines rest else line :: splitRelayLines rest
termination_by str.length
decreasing_by
  all_goals
    rcases cut_eq_some_iff.mp _eol with ⟨rfl, _⟩
    rw [List.length_append, List.length_cons]
    omega

/-- `WireLines`. -/
structure WireLines where
  lines : List Str
  dropped : Nat
  deriving DecidableEq, Repr

/-- A chunk is kept or counted. -/
def WireLines.add (maxLines : Nat) (out : WireLines) (chunk : Str) : WireLines :=
  if out.lines.length < maxLines then { out with lines := out.lines ++ [chunk] }
  else { out with dropped := out.dropped + 1 }

/-- The loop over the rest of a line.  It ends at an empty chunk, where the budget cannot fit
even one character. -/
def splitLine (budget maxLines : Nat) (rest : Str) (out : WireLines) : WireLines :=
  if _more : rest ≠ [] ∧ truncateUtf8 rest budget ≠ [] then
    let chunk := truncateUtf8 rest budget
    splitLine budget maxLines (rest.drop chunk.length) (out.add maxLines chunk)
  else out
termination_by rest.length
decreasing_by
  rw [List.length_drop]
  have rest := List.length_pos_of_ne_nil _more.1
  have chunk := List.length_pos_of_ne_nil _more.2
  omega

/-- `Relay::SplitForWire`. -/
def splitForWire (text : Str) (budget maxLines : Nat) : WireLines :=
  (splitRelayLines text).foldl (fun out line => splitLine budget maxLines line out) ⟨[], 0⟩

/-! ## The cut of a line -/

section Truncate

variable {str : Str} {maxbytes : Nat}

theorem rewind_le (str : Str) (pos : Nat) : rewind str pos ≤ pos := by
  induction pos with
  | zero => exact Nat.le_refl _
  | succ pos ih =>
      rw [rewind]
      split_ifs
      · exact Nat.le_succ_of_le ih
      · exact Nat.le_refl _

/-- The position goes back over the bytes that continue a sequence, to its first byte. -/
theorem rewind_eq {start pos : Nat} (behind : start < pos)
    (starts : continues (str.getD start 0) = false)
    (continued : ∀ i, start < i → i < pos → continues (str.getD i 0) = true) :
    rewind str pos = start + 1 := by
  induction pos with
  | zero => exact absurd behind (Nat.not_lt_zero _)
  | succ pos ih =>
      rw [rewind]
      rcases Nat.lt_succ_iff_lt_or_eq.mp behind with earlier | rfl
      · rw [if_pos (continued pos earlier (Nat.lt_succ_self _))]
        exact ih earlier fun i after before => continued i after (Nat.lt_succ_of_lt before)
      · rw [starts]
        exact if_neg Bool.false_ne_true

theorem truncateUtf8_of_length_le (fits : str.length ≤ maxbytes) :
    truncateUtf8 str maxbytes = str :=
  if_pos fits

/-- The sequence that the cut is in does not fit. -/
def CutShort (str : Str) (maxbytes : Nat) : Prop :=
  0 < rewind str maxbytes ∧
    maxbytes - (rewind str maxbytes - 1) < width (str.getD (rewind str maxbytes - 1) 0)

theorem truncateUtf8_of_cutShort (long : ¬str.length ≤ maxbytes) (short : CutShort str maxbytes) :
    truncateUtf8 str maxbytes = str.take (rewind str maxbytes - 1) := by
  rw [truncateUtf8, if_neg long]
  exact if_pos short

theorem truncateUtf8_of_not_cutShort (long : ¬str.length ≤ maxbytes)
    (whole : ¬CutShort str maxbytes) : truncateUtf8 str maxbytes = str.take maxbytes := by
  rw [truncateUtf8, if_neg long]
  exact if_neg whole

/-- What is left of a text is its beginning. -/
theorem truncateUtf8_eq_take (str : Str) (maxbytes : Nat) :
    ∃ len ≤ maxbytes, truncateUtf8 str maxbytes = str.take len := by
  by_cases fits : str.length ≤ maxbytes
  · exact ⟨str.length, fits, (truncateUtf8_of_length_le fits).trans str.take_length.symm⟩
  · have le := rewind_le str maxbytes
    by_cases short : CutShort str maxbytes
    · exact ⟨rewind str maxbytes - 1, by omega, truncateUtf8_of_cutShort fits short⟩
    · exact ⟨maxbytes, Nat.le_refl _, truncateUtf8_of_not_cutShort fits short⟩

theorem length_truncateUtf8_le (str : Str) (maxbytes : Nat) :
    (truncateUtf8 str maxbytes).length ≤ maxbytes := by
  rcases truncateUtf8_eq_take str maxbytes with ⟨len, le, is⟩
  rw [is, List.length_take]
  exact Nat.le_trans (Nat.min_le_left _ _) le

theorem truncateUtf8_append_drop (str : Str) (maxbytes : Nat) :
    truncateUtf8 str maxbytes ++ str.drop (truncateUtf8 str maxbytes).length = str := by
  rcases truncateUtf8_eq_take str maxbytes with ⟨len, _, is⟩
  rw [is, List.length_take]
  rcases Nat.le_total len str.length with le | le
  · rw [Nat.min_eq_left le, List.take_append_drop]
  · rw [Nat.min_eq_right le, List.take_of_length_le le, List.drop_length, List.append_nil]

/-- A budget of four bytes fits any sequence. -/
theorem truncateUtf8_ne_nil (budget : 4 ≤ maxbytes) (some : str ≠ []) :
    truncateUtf8 str maxbytes ≠ [] := by
  have length := List.length_pos_of_ne_nil some
  by_cases fits : str.length ≤ maxbytes
  · rw [truncateUtf8_of_length_le fits]
    exact some
  · refine List.ne_nil_of_length_pos ?_
    by_cases short : CutShort str maxbytes
    · have width := Library.Utf8.width_le_four (str.getD (rewind str maxbytes - 1) 0)
      have cut := short.2
      rw [truncateUtf8_of_cutShort fits short, List.length_take]
      omega
    · rw [truncateUtf8_of_not_cutShort fits short, List.length_take]
      omega

/-- The first byte of a character in a text tells its width. -/
theorem exists_lead_encode (before : List Char) (chr : Char) (after : List Char) :
    ∃ lead tail rest, String.utf8EncodeChar chr = lead :: tail ∧
      Library.Utf8.IsSequence lead tail ∧
      encode (before ++ chr :: after) = encode before ++ lead :: (tail ++ rest) ∧
      (encode (before ++ chr :: after)).getD (encode before).length 0 = lead := by
  rcases Library.Utf8.exists_isSequence chr with ⟨lead, tail, is, seq⟩
  have text : encode (before ++ chr :: after) =
      encode before ++ lead :: (tail ++ encode after) := by
    rw [Library.Utf8.encode_append, Library.Utf8.encode_cons, is]
    rfl
  refine ⟨lead, tail, encode after, is, seq, text, ?_⟩
  rw [text, List.getD_eq_getElem?_getD, List.getElem?_append_right (Nat.le_refl _), Nat.sub_self]
  rfl

/-- From within a character the position goes back to its first byte. -/
theorem rewind_encode {before after : List Char} {chr : Char} {pos : Nat}
    (above : (encode before).length < pos)
    (below : pos ≤ (encode before).length + (String.utf8EncodeChar chr).length) :
    rewind (encode (before ++ chr :: after)) pos = (encode before).length + 1 := by
  rcases exists_lead_encode before chr after with ⟨lead, tail, rest, is, seq, text, atLead⟩
  rw [is, List.length_cons] at below
  apply rewind_eq above
  · rw [atLead]
    exact seq.starts
  · intro i later earlier
    obtain ⟨offset, rfl⟩ : ∃ offset, i = (encode before).length + (offset + 1) :=
      ⟨i - (encode before).length - 1, by omega⟩
    have inTail : offset < tail.length := by omega
    rw [text, List.getD_eq_getElem?_getD, List.getElem?_append_right (Nat.le_add_right _ _),
      Nat.add_sub_cancel_left, List.getElem?_cons_succ, List.getElem?_append_left inTail,
      List.getElem?_eq_getElem inTail]
    exact seq.continued _ (List.getElem_mem inTail)

/-- A text is cut between two of its characters, the second of which does not fit. -/
theorem truncateUtf8_encode (chars : List Char) (maxbytes : Nat) :
    ∃ before after, chars = before ++ after ∧
      truncateUtf8 (encode chars) maxbytes = encode before ∧
      ∀ chr ∈ after.head?,
        maxbytes < (encode before).length + (String.utf8EncodeChar chr).length := by
  by_cases fits : (encode chars).length ≤ maxbytes
  · exact ⟨chars, [], (List.append_nil _).symm, truncateUtf8_of_length_le fits, by simp⟩
  cases maxbytes with
  | zero =>
      refine ⟨[], chars, rfl, ?_, ?_⟩
      · exact List.eq_nil_of_length_eq_zero (Nat.le_zero.mp (length_truncateUtf8_le _ _))
      · intro chr _
        rw [String.length_utf8EncodeChar]
        exact Nat.lt_of_lt_of_le (Char.utf8Size_pos chr) (Nat.le_add_left _ _)
  | succ last =>
      -- The last byte that fits stands in the sequence of a character.
      rcases Library.Utf8.exists_place (show last < (encode chars).length by omega) with
        ⟨before, chr, after, rfl, ge, lt⟩
      have back : rewind (encode (before ++ chr :: after)) (last + 1) =
          (encode before).length + 1 := rewind_encode (by omega) (by omega)
      rcases exists_lead_encode before chr after with ⟨lead, tail, rest, is, seq, _, atLead⟩
      have complete := seq.complete
      rw [is, List.length_cons] at lt
      have short : CutShort (encode (before ++ chr :: after)) (last + 1) ↔
          last + 1 < (encode before).length + (tail.length + 1) := by
        rw [CutShort, back, Nat.add_sub_cancel, atLead, ← complete]
        omega
      by_cases whole : last + 1 = (encode before).length + (tail.length + 1)
      · have length : (encode (before ++ [chr])).length = last + 1 := by
          rw [Library.Utf8.encode_append, Library.Utf8.encode_singleton, is, List.length_append]
          exact whole.symm
        refine ⟨before ++ [chr], after, List.append_cons before chr after, ?_, ?_⟩
        · rw [truncateUtf8_of_not_cutShort fits (by rw [short]; omega), List.append_cons,
            Library.Utf8.encode_append (before ++ [chr])]
          exact List.take_left' length
        · intro following _
          rw [length, String.length_utf8EncodeChar]
          exact Nat.lt_add_of_pos_right (Char.utf8Size_pos following)
      · refine ⟨before, chr :: after, rfl, ?_, ?_⟩
        · rw [truncateUtf8_of_cutShort fits (short.mpr (by omega)), back,
            Library.Utf8.encode_append]
          exact List.take_left
        · rintro _ ⟨⟩
          rw [is, List.length_cons]
          omega

/-- What is left of a text in UTF-8 is its longest beginning that fits and is in UTF-8, and no
more than three bytes below the limit are left out. -/
theorem truncateUtf8_longest (valid : Valid str) (maxbytes : Nat) :
    truncateUtf8 str maxbytes <+: str ∧ (truncateUtf8 str maxbytes).length ≤ maxbytes ∧
      Valid (truncateUtf8 str maxbytes) ∧
      (∀ other, other <+: str → other.length ≤ maxbytes → Valid other →
        other <+: truncateUtf8 str maxbytes) ∧
      min maxbytes str.length ≤ (truncateUtf8 str maxbytes).length + 3 := by
  rcases valid with ⟨chars, rfl⟩
  rcases truncateUtf8_encode chars maxbytes with ⟨before, after, rfl, is, next⟩
  have starts : encode before <+: encode (before ++ after) := by
    rw [Library.Utf8.encode_append]
    exact List.prefix_append _ _
  have length := length_truncateUtf8_le (encode (before ++ after)) maxbytes
  rw [is] at length ⊢
  refine ⟨starts, length, Library.Utf8.valid_encode before, ?_, ?_⟩
  · rintro _ otherStarts fits ⟨other, rfl⟩
    apply List.prefix_of_prefix_length_le otherStarts starts
    cases after with
    | nil =>
        rw [List.append_nil] at otherStarts
        exact otherStarts.length_le
    | cons chr after =>
        rcases Library.Utf8.length_le_or_of_prefix otherStarts with short | long
        · exact short
        · exact absurd (Nat.le_trans long fits) (Nat.not_le.mpr (next chr rfl))
  · cases after with
    | nil =>
        rw [List.append_nil]
        omega
    | cons chr after =>
        have fourBytes := Char.utf8Size_le_four chr
        have beyond := next chr rfl
        rw [String.length_utf8EncodeChar] at beyond
        omega

/-- Of two characters of two bytes, one fits into three bytes. -/
theorem truncateUtf8_longest_twoBytes :
    Valid [195, 169, 195, 169] ∧ ∀ other, other <+: [195, 169, 195, 169] → other.length ≤ 3 →
      Valid other → other <+: [195, 169] := by
  have valid : Valid [195, 169, 195, 169] := ⟨['é', 'é'], by decide⟩
  have longest := (truncateUtf8_longest valid 3).2.2.2.1
  have is : truncateUtf8 [195, 169, 195, 169] 3 = [195, 169] := by decide
  rw [is] at longest
  exact ⟨valid, longest⟩

end Truncate

/-! ## The lines of a message -/

section Lines

theorem splitRelayLines_cut {line : Str} (absent : 10 ∉ line) (rest : Str) :
    splitRelayLines (line ++ 10 :: rest) =
      if line = [] then splitRelayLines rest else line :: splitRelayLines rest := by
  rw [splitRelayLines]
  split
  · rename_i none
    rw [cut_append absent] at none
    cases none
  · rename_i some
    rw [cut_append absent] at some
    cases some
    rfl

theorem splitRelayLines_last {line : Str} (absent : 10 ∉ line) :
    splitRelayLines line = if line = [] then [] else [line] := by
  rw [splitRelayLines]
  split
  · rfl
  · rename_i some
    rw [cut_eq_none absent] at some
    cases some

/-- The lines are the text without its line breaks. -/
theorem flatten_splitRelayLines (str : Str) :
    (splitRelayLines str).flatten = str.filter fun chr => chr ≠ 10 := by
  have kept {line : Str} (absent : 10 ∉ line) : (line.filter fun chr => chr ≠ 10) = line := by
    rw [List.filter_eq_self]
    exact fun chr mem => decide_eq_true (ne_of_mem_of_not_mem mem absent)
  induction str using @cutInduction _ _ (10 : UInt8) with
  | absent line absent =>
      rw [splitRelayLines_last absent, kept absent]
      split_ifs with empty
      · rw [empty]
        rfl
      · exact List.flatten_singleton
  | piece line rest absent ih =>
      rw [splitRelayLines_cut absent, List.filter_append, kept absent,
        List.filter_cons_of_neg (by decide)]
      split_ifs with empty
      · rw [ih, empty, List.nil_append]
      · rw [List.flatten_cons, ih]

/-- The lines of a text in UTF-8 are such texts. -/
theorem valid_of_mem_splitRelayLines {str : Str} (valid : Valid str) {line : Str}
    (mem : line ∈ splitRelayLines str) : Valid line := by
  induction str using @cutInduction _ _ (10 : UInt8) with
  | absent last absent =>
      rw [splitRelayLines_last absent] at mem
      split_ifs at mem
      · cases mem
      · rw [List.mem_singleton.mp mem]
        exact valid
  | piece first rest absent ih =>
      rcases valid.of_cut (by decide) with ⟨validFirst, validRest⟩
      rw [splitRelayLines_cut absent] at mem
      split_ifs at mem
      · exact ih validRest mem
      · rcases List.mem_cons.mp mem with rfl | mem
        · exact validFirst
        · exact ih validRest mem

end Lines

/-! ## The chunks of a line -/

/-- The chunks that the loop over a line comes to. -/
def chunks (budget : Nat) (rest : Str) : List Str :=
  if _more : rest ≠ [] ∧ truncateUtf8 rest budget ≠ [] then
    let chunk := truncateUtf8 rest budget
    chunk :: chunks budget (rest.drop chunk.length)
  else []
termination_by rest.length
decreasing_by
  rw [List.length_drop]
  have rest := List.length_pos_of_ne_nil _more.1
  have chunk := List.length_pos_of_ne_nil _more.2
  omega

/-- All chunks of a message. -/
def wireChunks (text : Str) (budget : Nat) : List Str :=
  (splitRelayLines text).flatMap (chunks budget)

section Chunks

variable {budget maxLines : Nat}

/-- The loop over a line keeps or counts its chunks. -/
theorem splitLine_eq (rest : Str) (out : WireLines) :
    splitLine budget maxLines rest out =
      (chunks budget rest).foldl (WireLines.add maxLines) out := by
  induction rest, out using splitLine.induct budget maxLines with
  | case1 rest out more chunk ih =>
      rw [splitLine, chunks, dif_pos more, dif_pos more]
      exact ih
  | case2 rest out done =>
      rw [splitLine, chunks, dif_neg done, dif_neg done]
      rfl

theorem splitForWire_eq (text : Str) :
    splitForWire text budget maxLines =
      (wireChunks text budget).foldl (WireLines.add maxLines) ⟨[], 0⟩ := by
  rw [splitForWire, wireChunks, List.foldl_flatMap]
  congr 1
  funext out line
  exact splitLine_eq line out

theorem flatten_chunks (fits : 4 ≤ budget) (rest : Str) : (chunks budget rest).flatten = rest := by
  induction rest using chunks.induct budget with
  | case1 rest more chunk ih =>
      rw [chunks, dif_pos more, List.flatten_cons, ih]
      exact truncateUtf8_append_drop rest budget
  | case2 rest done =>
      rw [chunks, dif_neg done]
      by_contra some
      exact done ⟨Ne.symm some, truncateUtf8_ne_nil fits (Ne.symm some)⟩

theorem of_mem_chunks {rest chunk : Str} (mem : chunk ∈ chunks budget rest) :
    chunk ≠ [] ∧ chunk.length ≤ budget := by
  induction rest using chunks.induct budget with
  | case1 rest more _ ih =>
      rw [chunks, dif_pos more] at mem
      rcases List.mem_cons.mp mem with rfl | mem
      · exact ⟨more.2, length_truncateUtf8_le rest budget⟩
      · exact ih mem
  | case2 rest done =>
      rw [chunks, dif_neg done] at mem
      cases mem

theorem valid_of_mem_chunks {rest chunk : Str} (valid : Valid rest)
    (mem : chunk ∈ chunks budget rest) : Valid chunk := by
  induction rest using chunks.induct budget with
  | case1 rest more first ih =>
      rcases valid with ⟨chars, rfl⟩
      rcases truncateUtf8_encode chars budget with ⟨before, after, rfl, is, _⟩
      have isFirst : first = encode before := is
      rw [chunks, dif_pos more] at mem
      rcases List.mem_cons.mp mem with rfl | mem
      · rw [is]
        exact Library.Utf8.valid_encode before
      · refine ih ?_ mem
        rw [isFirst, Library.Utf8.encode_append, List.drop_left]
        exact Library.Utf8.valid_encode after
  | case2 rest done =>
      rw [chunks, dif_neg done] at mem
      cases mem

/-- The first chunks are kept, and the others are counted. -/
theorem foldl_add (maxLines : Nat) (found : List Str) (out : WireLines)
    (within : out.lines.length ≤ maxLines) :
    found.foldl (WireLines.add maxLines) out =
      ⟨out.lines ++ found.take (maxLines - out.lines.length),
        out.dropped + (found.length - (maxLines - out.lines.length))⟩ := by
  induction found generalizing out with
  | nil =>
      rw [List.take_nil, List.append_nil, List.length_nil, Nat.zero_sub]
      rfl
  | cons chunk found ih =>
      rw [List.foldl_cons, WireLines.add]
      by_cases room : out.lines.length < maxLines
      · obtain ⟨left, some⟩ : ∃ left, maxLines - out.lines.length = left + 1 :=
          ⟨maxLines - out.lines.length - 1, by omega⟩
        have rest : maxLines - (out.lines ++ [chunk]).length = left := by
          rw [List.length_append, List.length_singleton]
          omega
        rw [if_pos room, ih _ (by rw [List.length_append]; exact room), rest, some,
          List.take_succ_cons, List.length_cons, Nat.add_sub_add_right, List.append_assoc]
        rfl
      · have full : maxLines - out.lines.length = 0 := by omega
        have rest := ih { out with dropped := out.dropped + 1 } within
        rw [if_neg room, rest, full, List.take_zero, List.take_zero, List.length_cons,
          Nat.sub_zero, Nat.sub_zero, Nat.add_assoc, Nat.add_comm 1]

end Chunks

/-- A message is cut into chunks of which no byte is lost and no character is cut, and what is
not kept of them is counted. -/
theorem splitForWire_exact {budget : Nat} (fits : 4 ≤ budget) (text : Str) (maxLines : Nat) :
    (∀ line ∈ (splitForWire text budget maxLines).lines, line ≠ [] ∧ line.length ≤ budget) ∧
      (splitForWire text budget maxLines).lines.length ≤ maxLines ∧
      (splitForWire text budget maxLines).lines = (wireChunks text budget).take maxLines ∧
      (splitForWire text budget maxLines).lines.length +
        (splitForWire text budget maxLines).dropped = (wireChunks text budget).length ∧
      (wireChunks text budget).flatten = (text.filter fun chr => chr ≠ 10) ∧
      (Valid text → ∀ line ∈ (splitForWire text budget maxLines).lines, Valid line) := by
  have kept := foldl_add maxLines (wireChunks text budget) ⟨[], 0⟩ (Nat.zero_le _)
  rw [← splitForWire_eq] at kept
  have lines : (splitForWire text budget maxLines).lines = (wireChunks text budget).take maxLines :=
    congrArg WireLines.lines kept
  have dropped : (splitForWire text budget maxLines).dropped =
      0 + ((wireChunks text budget).length - maxLines) := congrArg WireLines.dropped kept
  have ofMem {line : Str} (mem : line ∈ (splitForWire text budget maxLines).lines) :
      ∃ whole ∈ splitRelayLines text, line ∈ chunks budget whole :=
    List.mem_flatMap.mp (List.mem_of_mem_take (lines ▸ mem))
  refine ⟨?_, ?_, lines, ?_, ?_, ?_⟩
  · intro line mem
    rcases ofMem mem with ⟨whole, _, mem⟩
    exact of_mem_chunks mem
  · rw [lines, List.length_take]
    exact Nat.min_le_left _ _
  · rw [lines, dropped, List.length_take]
    omega
  · rw [← flatten_splitRelayLines, wireChunks, List.flatMap, List.flatten_flatten, List.map_map]
    congr 1
    conv_rhs => rw [← List.map_id (splitRelayLines text)]
    exact List.map_congr_left fun line _ => flatten_chunks fits line
  · intro valid line mem
    rcases ofMem mem with ⟨whole, inText, mem⟩
    exact valid_of_mem_chunks (valid_of_mem_splitRelayLines valid inText) mem

/-- No character is cut in the lines of a text with a character of two bytes. -/
theorem splitForWire_exact_twoBytes :
    4 ≤ 4 ∧ ∀ line ∈ (splitForWire [97, 98, 99, 195, 169, 10, 100] 4 2).lines,
      line ≠ [] ∧ line.length ≤ 4 ∧ Valid line := by
  have exact_ := splitForWire_exact (Nat.le_refl 4) [97, 98, 99, 195, 169, 10, 100] 2
  have valid : Valid [97, 98, 99, 195, 169, 10, 100] :=
    ⟨['a', 'b', 'c', 'é', '\n', 'd'], by decide⟩
  refine ⟨Nat.le_refl 4, fun line mem => ?_⟩
  exact ⟨(exact_.1 line mem).1, (exact_.1 line mem).2, exact_.2.2.2.2.2 valid line mem⟩

end Anope.Bridge
