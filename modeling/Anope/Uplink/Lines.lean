import Anope.Library.Split
import Anope.Text.Casemap
import Mathlib.Data.List.DropRight

/-!
# Lines from the uplink

`BufferedSocket::ProcessRead` and `GetLine`, and the loop of
`UplinkSocket::ProcessRead` that hands lines to `Anope::Process` until it gets
an empty one.
-/

namespace Anope.Uplink

open Library.Split

/-- The characters of `"\r\n"`. -/
def isLineEnd (c : UInt8) : Bool :=
  c = 13 ∨ c = 10

/-- `Anope::string::ltrim("\r\n")`. -/
def ltrim (text : Str) : Str :=
  text.dropWhile isLineEnd

/-- `Anope::string::rtrim("\r\n")`. -/
def rtrim (text : Str) : Str :=
  text.rdropWhile isLineEnd

/-- `Anope::string::trim("\r\n")`. -/
def trim (text : Str) : Str :=
  rtrim (ltrim text)

/-- `BufferedSocket::GetLine`, with what it leaves in `read_buffer`. -/
def getLine (readBuffer : Str) : Str × Str :=
  match cut 10 readBuffer with
  | none => ([], readBuffer)
  | some (before, after) => (trim (before ++ [10]), ltrim after)

theorem length_lt_of_getLine {readBuffer : Str} (line : (getLine readBuffer).1 ≠ []) :
    (getLine readBuffer).2.length < readBuffer.length := by
  rw [getLine] at line ⊢
  cases found : cut 10 readBuffer with
  | none =>
      rw [found] at line
      contradiction
  | some pieces =>
      obtain ⟨equal, _⟩ := cut_eq_some_iff.mp found
      have shorter := (List.dropWhile_sublist isLineEnd (l := pieces.2)).length_le
      rw [equal, List.length_append, List.length_cons]
      simp only [ltrim]
      omega

/-- The loop of `UplinkSocket::ProcessRead`: the lines it hands on, and what it
leaves in `read_buffer`. -/
def processLines (readBuffer : Str) : List Str × Str :=
  if _line : (getLine readBuffer).1 = [] then ([], (getLine readBuffer).2)
  else
    let (lines, rest) := processLines (getLine readBuffer).2
    ((getLine readBuffer).1 :: lines, rest)
termination_by readBuffer.length
decreasing_by exact length_lt_of_getLine _line

/-- The buffer of the socket, and the lines `Anope::Process` was given so far. -/
structure UplinkSocket where
  readBuffer : Str
  handed : List Str
deriving Repr, DecidableEq

/-- A socket that has received nothing. -/
def UplinkSocket.initial : UplinkSocket where
  readBuffer := []
  handed := []

/-- What `append(tbuffer)` takes of the bytes in `tbuffer`: the C string that they
start with. -/
def cString (tbuffer : Str) : Str :=
  tbuffer.takeWhile (· ≠ 0)

/-- `UplinkSocket::ProcessRead`.  A read that fails or ends the connection gives
no bytes, and the loop runs all the same. -/
def UplinkSocket.processRead (socket : UplinkSocket) (tbuffer : Str) : UplinkSocket :=
  let (lines, rest) := processLines (socket.readBuffer ++ cString tbuffer)
  { readBuffer := rest, handed := socket.handed ++ lines }

/-- What `Anope::Process` was given after all reads. -/
def handedLines (reads : List Str) : List Str :=
  (reads.foldl UplinkSocket.processRead .initial).handed

/-!
## Complete lines

The lines of a stream that a newline ends and that trimming does not empty, and
which of them the loop of `UplinkSocket::ProcessRead` gets out of a buffer.
-/

/-! ## Trimming -/

/-- A line of which trimming leaves nothing. -/
def blank (line : Str) : Bool :=
  line.all isLineEnd

theorem ltrim_eq_nil_iff {line : Str} : ltrim line = [] ↔ blank line = true := by
  rw [ltrim, List.dropWhile_eq_nil_iff, blank, List.all_eq_true]

theorem trim_eq_nil_iff {line : Str} : trim line = [] ↔ blank line = true := by
  rw [trim, rtrim, List.rdropWhile_eq_nil_iff, ← ltrim_eq_nil_iff]
  constructor
  · intro ends
    by_contra nonempty
    have notEnd : isLineEnd ((ltrim line).head nonempty) = false :=
      List.head_dropWhile_not isLineEnd nonempty
    rw [ends _ (List.head_mem nonempty)] at notEnd
    contradiction
  · intro none
    simp [none]

theorem ltrim_append (left right : Str) :
    ltrim (left ++ right) = if blank left then ltrim right else ltrim left ++ right := by
  have isEmpty : (ltrim left).isEmpty = blank left := by
    rw [Bool.eq_iff_iff, List.isEmpty_iff, ltrim_eq_nil_iff]
  rw [ltrim, List.dropWhile_append, ← isEmpty]
  rfl

@[simp]
theorem ltrim_ltrim (text : Str) : ltrim (ltrim text) = ltrim text :=
  List.dropWhile_idempotent _ text

theorem trim_ltrim (line : Str) : trim (ltrim line) = trim line := by
  rw [trim, ltrim_ltrim, trim]

theorem ltrim_append_congr {left left' : Str} (same : ltrim left = ltrim left') (right : Str) :
    ltrim (left ++ right) = ltrim (left' ++ right) := by
  have blanks : blank left = blank left' := by
    rw [Bool.eq_iff_iff, ← ltrim_eq_nil_iff, ← ltrim_eq_nil_iff, same]
  rw [ltrim_append, ltrim_append, same, blanks]

/-- The newline that ends a line is trimmed with the rest. -/
theorem trim_concat_newline (line : Str) : trim (line ++ [10]) = trim line := by
  rw [trim, ltrim_append]
  split
  · rename_i isBlank
    rw [trim_eq_nil_iff.mpr isBlank]
    rfl
  · exact List.rdropWhile_concat_pos _ _ _ rfl

/-! ## The lines of a stream -/

/-- The lines of a stream that are complete and not blank. -/
def completeLines (stream : Str) : List Str :=
  ((terminated 10 stream).map trim).filter fun line => line ≠ []

theorem completeLines_of_not_mem {text : Str} (absent : 10 ∉ text) : completeLines text = [] := by
  rw [completeLines, terminated_of_not_mem absent]
  rfl

theorem completeLines_cut {line : Str} (absent : 10 ∉ line) (rest : Str) :
    completeLines (line ++ 10 :: rest) =
      if blank line then completeLines rest else trim line :: completeLines rest := by
  rw [completeLines, terminated_cut absent, List.map_cons]
  split
  · rename_i isBlank
    rw [List.filter_cons_of_neg (by simp [trim_eq_nil_iff.mpr isBlank]), completeLines]
  · rename_i notBlank
    rw [List.filter_cons_of_pos (by simp [trim_eq_nil_iff, notBlank]), completeLines]

theorem completeLines_append (stream more : Str) :
    completeLines (stream ++ more) =
      completeLines stream ++ completeLines (unterminated 10 stream ++ more) := by
  rw [completeLines, terminated_append, List.map_append, List.filter_append, completeLines,
    completeLines]

/-! ## The loop -/

theorem processLines_of_not_mem {text : Str} (absent : 10 ∉ text) :
    processLines text = ([], text) := by
  have line : getLine text = ([], text) := by
    rw [getLine, cut_eq_none absent]
  rw [processLines, line]
  rfl

theorem processLines_cut_blank {line : Str} (absent : 10 ∉ line) (isBlank : blank line = true)
    (rest : Str) : processLines (line ++ 10 :: rest) = ([], ltrim rest) := by
  have got : getLine (line ++ 10 :: rest) = ([], ltrim rest) := by
    simp only [getLine, cut_append absent]
    rw [trim_concat_newline, trim_eq_nil_iff.mpr isBlank]
  rw [processLines, got]
  rfl

theorem processLines_cut {line : Str} (absent : 10 ∉ line) (notBlank : blank line = false)
    (rest : Str) :
    processLines (line ++ 10 :: rest) =
      (trim line :: (processLines (ltrim rest)).1, (processLines (ltrim rest)).2) := by
  have got : getLine (line ++ 10 :: rest) = (trim line, ltrim rest) := by
    simp only [getLine, cut_append absent]
    rw [trim_concat_newline]
  have nonempty : trim line ≠ [] := by
    rw [Ne, trim_eq_nil_iff, notBlank]
    exact Bool.false_ne_true
  rw [processLines, got, dif_neg nonempty]

/-- From a buffer that does not start with a line end the loop gets every complete
line. -/
theorem processLines_ltrim (text : Str) :
    processLines (ltrim text) = (completeLines text, ltrim (unterminated 10 text)) := by
  induction text using @cutInduction _ _ (10 : UInt8) with
  | absent text absent =>
      have absent' : 10 ∉ ltrim text := fun mem =>
        absent ((List.dropWhile_sublist isLineEnd).subset mem)
      rw [processLines_of_not_mem absent', completeLines_of_not_mem absent,
        unterminated_of_not_mem absent]
  | piece line rest absent ih =>
      rw [ltrim_append, completeLines_cut absent, unterminated_cut absent]
      cases isBlank : blank line with
      | true => simpa [ltrim, isLineEnd] using ih
      | false =>
          have absent' : 10 ∉ ltrim line := fun mem =>
            absent ((List.dropWhile_sublist isLineEnd).subset mem)
          have notBlank : blank (ltrim line) = false := by
            rw [← Bool.not_eq_true, ← ltrim_eq_nil_iff, ltrim_ltrim, ltrim_eq_nil_iff, isBlank]
            exact Bool.false_ne_true
          simp only [Bool.false_eq_true, if_false]
          rw [processLines_cut absent' notBlank, ih, trim_ltrim]

theorem completeLines_ltrim (text : Str) : completeLines (ltrim text) = completeLines text := by
  have loop := processLines_ltrim (ltrim text)
  rw [ltrim_ltrim, processLines_ltrim] at loop
  exact (congrArg Prod.fst loop).symm

theorem ltrim_unterminated_ltrim (text : Str) :
    ltrim (unterminated 10 (ltrim text)) = ltrim (unterminated 10 text) := by
  have loop := processLines_ltrim (ltrim text)
  rw [ltrim_ltrim, processLines_ltrim] at loop
  exact (congrArg Prod.snd loop).symm

/-- Behind line ends there is a line that is not blank, or no line at all. -/
theorem mem_ltrim_iff (text : Str) : 10 ∈ ltrim text ↔ completeLines text ≠ [] := by
  rw [← completeLines_ltrim]
  cases found : cut 10 (ltrim text) with
  | none =>
      have absent := cut_eq_none_iff.mp found
      simp [absent, completeLines_of_not_mem absent]
  | some pieces =>
      obtain ⟨equal, absent⟩ := cut_eq_some_iff.mp found
      have notBlank : blank pieces.1 = false := by
        rw [← Bool.not_eq_true]
        intro isBlank
        have again := ltrim_ltrim text
        rw [equal, ltrim_append, isBlank, if_pos rfl] at again
        have shorter := (List.dropWhile_sublist isLineEnd (l := 10 :: pieces.2)).length_le
        have kept : ltrim (10 :: pieces.2) = ltrim pieces.2 := rfl
        have shorter' := (List.dropWhile_sublist isLineEnd (l := pieces.2)).length_le
        have lengths := congrArg List.length again
        rw [kept, List.length_append, List.length_cons] at lengths
        rw [ltrim] at lengths
        omega
      rw [equal, completeLines_cut absent, notBlank]
      simp

end Anope.Uplink
