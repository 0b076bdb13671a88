import Anope.Text.Casemap
import Anope.Library.Split
import Mathlib.Data.List.TakeWhile

/-!
# Lines of a configuration file

`Configuration::File::Read`, which assembles a line from the pieces that `fgets`
reads into a buffer, and the lines that it returns until `End`.
-/

namespace Anope.Config

open Anope.Text

/-- A C stream: the bytes that are left, and its end-of-file indicator. -/
structure Stream where
  rest : Str
  eof : Bool

/-- `char buf[1024]`. -/
def bufferSize : Nat :=
  1024

/-- At most so many bytes up to a newline, what is left, and whether the end was
met. -/
def takeChunk : Nat → Str → Str × Str × Bool
  | 0, rest => ([], rest, false)
  | _ + 1, [] => ([], [], true)
  | n + 1, c :: rest =>
      if c = 10 then
        ([c], rest, false)
      else
        let chunk := takeChunk n rest
        (c :: chunk.1, chunk.2)

/-- `fgets`. -/
def fgets (size : Nat) (stream : Stream) : Option Str × Stream :=
  let chunk := takeChunk (size - 1) stream.rest
  (if chunk.1 = [] then none else some chunk.1, ⟨chunk.2.1, stream.eof || chunk.2.2⟩)

theorem takeChunk_append (n : Nat) (text : Str) :
    (takeChunk n text).1 ++ (takeChunk n text).2.1 = text := by
  induction n generalizing text with
  | zero => rfl
  | succ n ih =>
      cases text with
      | nil => rfl
      | cons c rest =>
          rw [takeChunk]
          split
          · rfl
          · exact congrArg (c :: ·) (ih rest)

/-- What was read is gone. -/
theorem length_fgets {size : Nat} {stream next : Stream} {chunk : Str}
    (read : fgets size stream = (some chunk, next)) :
    next.rest.length < stream.rest.length := by
  have whole := congrArg List.length (takeChunk_append (size - 1) stream.rest)
  rw [List.length_append] at whole
  rw [fgets] at read
  rcases Prod.mk.inj read with ⟨isChunk, rfl⟩
  have nonempty : (takeChunk (size - 1) stream.rest).1 ≠ [] := fun empty => by
    rw [if_pos empty] at isChunk
    exact nomatch isChunk
  have positive := List.length_pos_iff.mpr nonempty
  change (takeChunk (size - 1) stream.rest).2.1.length < stream.rest.length
  omega

/-- What a C string of these bytes shows. -/
def cString (bytes : Str) : Str :=
  bytes.takeWhile (· ≠ 0)

/-- The loop of `Configuration::File::Read`. -/
def readLoop (ret : Str) (stream : Stream) : Str × Stream :=
  match _read : fgets bufferSize stream with
  | (none, next) => (ret, next)
  | (some buf, next) =>
      if 10 ∈ cString buf then
        ((cString buf).takeWhile (· ≠ 10), next)
      else if next.eof then
        (cString buf, next)
      else
        readLoop (ret ++ cString buf) next
termination_by stream.rest.length
decreasing_by exact length_fgets _read

/-- `Configuration::File::Read`. -/
def Stream.read (stream : Stream) : Str × Stream :=
  readLoop [] stream

/-- The bytes that are left count down to the end of the file. -/
def Stream.left (stream : Stream) : Nat :=
  stream.rest.length + if stream.eof then 0 else 1

/-- `fgets` returns nothing only at the end of the file. -/
theorem fgets_eq_none_iff {stream next : Stream} :
    fgets bufferSize stream = (none, next) ↔ stream.rest = [] ∧ next = ⟨[], true⟩ := by
  rcases stream with ⟨rest, eof⟩
  cases rest with
  | nil =>
      have atEnd : fgets bufferSize ⟨[], eof⟩ = (none, ⟨[], true⟩) := by
        rw [← Bool.or_true eof]
        rfl
      rw [atEnd, Prod.mk.injEq]
      exact ⟨fun both => ⟨rfl, both.2.symm⟩, fun both => ⟨rfl, both.2.symm⟩⟩
  | cons c rest =>
      refine iff_of_false (fun read => ?_) fun both => nomatch both.1
      have nonempty : (takeChunk (bufferSize - 1) (c :: rest)).1 ≠ [] := by
        change (takeChunk (1022 + 1) (c :: rest)).1 ≠ []
        rw [takeChunk]
        split
        · exact List.cons_ne_nil _ _
        · exact List.cons_ne_nil _ _
      have isChunk := congrArg Prod.fst read
      rw [fgets, if_neg nonempty] at isChunk
      exact nomatch isChunk

/-- Every call takes bytes or meets the end. -/
theorem left_readLoop {stream : Stream} (isOpen : stream.eof = false) (ret : Str) :
    (readLoop ret stream).2.left < stream.left := by
  have left : stream.left = stream.rest.length + 1 := by
    rw [Stream.left, isOpen]
    rfl
  fun_induction readLoop ret stream with
  | case1 ret stream next read =>
      rw [(fgets_eq_none_iff.mp read).2, left]
      exact Nat.succ_pos _
  | case2 ret stream buf next read =>
      have shorter := length_fgets read
      rw [left]
      have atMost : next.left ≤ next.rest.length + 1 := by
        rw [Stream.left]
        split <;> omega
      change next.left < _
      omega
  | case3 ret stream buf next read =>
      have shorter := length_fgets read
      rw [left]
      have atMost : next.left ≤ next.rest.length + 1 := by
        rw [Stream.left]
        split <;> omega
      change next.left < _
      omega
  | case4 ret stream buf next read noNewline notEnd ih =>
      have shorter := length_fgets read
      have stillOpen : next.eof = false := Bool.eq_false_iff.mpr notEnd
      have leftNext : next.left = next.rest.length + 1 := by
        rw [Stream.left, stillOpen]
        rfl
      have rest := ih stillOpen leftNext
      omega

/-- What `Read` returns until `End`. -/
def Stream.reads (stream : Stream) : List Str :=
  if stream.eof then [] else stream.read.1 :: reads stream.read.2
termination_by stream.left
decreasing_by exact left_readLoop (Bool.eq_false_iff.mpr ‹_›) []

/-- The lines of a file: a newline ends a line, and bytes behind the last one are a
line as well. -/
def lines (content : Str) : List Str :=
  let pieces := content.splitOn 10
  if pieces.getLast? = some [] then pieces.dropLast else pieces

/-! ## Chunks -/

/-- A short line is read with its newline. -/
theorem takeChunk_line {line : Str} (absent : 10 ∉ line) {n : Nat} (short : line.length < n)
    (rest : Str) : takeChunk n (line ++ 10 :: rest) = (line ++ [10], rest, false) := by
  induction line generalizing n with
  | nil =>
      cases n with
      | zero => exact absurd short (Nat.not_lt_zero _)
      | succ n => exact if_pos rfl
  | cons c line ih =>
      rw [List.mem_cons, not_or] at absent
      cases n with
      | zero => exact absurd short (Nat.not_lt_zero _)
      | succ n =>
          rw [List.cons_append, takeChunk, if_neg (Ne.symm absent.1),
            ih absent.2 (Nat.lt_of_succ_lt_succ short)]
          rfl

/-- The end is met behind a short last line. -/
theorem takeChunk_last {line : Str} (absent : 10 ∉ line) {n : Nat} (short : line.length < n) :
    takeChunk n line = (line, [], true) := by
  induction line generalizing n with
  | nil =>
      cases n with
      | zero => exact absurd short (Nat.not_lt_zero _)
      | succ n => rfl
  | cons c line ih =>
      rw [List.mem_cons, not_or] at absent
      cases n with
      | zero => exact absurd short (Nat.not_lt_zero _)
      | succ n =>
          rw [takeChunk, if_neg (Ne.symm absent.1), ih absent.2 (Nat.lt_of_succ_lt_succ short)]

/-- A full buffer ends a piece. -/
theorem takeChunk_full {chunk : Str} (absent : 10 ∉ chunk) (rest : Str) :
    takeChunk chunk.length (chunk ++ rest) = (chunk, rest, false) := by
  induction chunk with
  | nil => rfl
  | cons c chunk ih =>
      rw [List.mem_cons, not_or] at absent
      rw [List.length_cons, List.cons_append, takeChunk, if_neg (Ne.symm absent.1), ih absent.2]

theorem cString_eq_self {bytes : Str} (terminated : 0 ∉ bytes) : cString bytes = bytes :=
  List.takeWhile_eq_self_iff.mpr fun _ mem => decide_eq_true fun isZero => terminated (isZero ▸ mem)

/-- The bytes that a buffer takes besides its terminator. -/
def chunkSize : Nat :=
  bufferSize - 1

theorem fgets_of_taken {rest chunk more : Str} {eof : Bool}
    (taken : takeChunk chunkSize rest = (chunk, more, eof)) (nonempty : chunk ≠ []) :
    fgets bufferSize ⟨rest, false⟩ = (some chunk, ⟨more, eof⟩) := by
  change (if (takeChunk chunkSize rest).1 = [] then none else some (takeChunk chunkSize rest).1,
    Stream.mk (takeChunk chunkSize rest).2.1 (takeChunk chunkSize rest).2.2) = _
  rw [taken, if_neg nonempty]

theorem fgets_full {chunk : Str} (full : chunk.length = chunkSize) (absent : 10 ∉ chunk)
    (rest : Str) : fgets bufferSize ⟨chunk ++ rest, false⟩ = (some chunk, ⟨rest, false⟩) := by
  have taken := takeChunk_full absent rest
  rw [full] at taken
  refine fgets_of_taken taken fun empty => ?_
  rw [empty] at full
  exact nomatch full

theorem readLoop_full {chunk : Str} (full : chunk.length = chunkSize) (absent : 10 ∉ chunk)
    (terminated : 0 ∉ chunk) (ret rest : Str) :
    readLoop ret ⟨chunk ++ rest, false⟩ = readLoop (ret ++ chunk) ⟨rest, false⟩ := by
  rw [readLoop]
  split
  · rename_i next read
    rw [fgets_full full absent] at read
    exact nomatch read
  · rename_i buf next read
    rw [fgets_full full absent] at read
    cases read
    rw [cString_eq_self terminated, if_neg absent, if_neg Bool.false_ne_true]

/-! ## Lines -/

/-- What `Read` returns of a line that ends in a newline: the last piece, as it was
cut by the buffer. -/
def kept (line : Str) : Str :=
  line.drop (chunkSize * (line.length / chunkSize))

/-- What `Read` returns of a last line without a newline, which is whole where it
fills the buffer exactly. -/
def keptLast (line : Str) : Str :=
  if chunkSize ∣ line.length then line else kept line

theorem kept_append {chunk : Str} (full : chunk.length = chunkSize) (line : Str) :
    kept (chunk ++ line) = kept line := by
  have positive : 0 < chunkSize := by decide
  rw [kept, List.length_append, full, Nat.add_div_left _ positive, Nat.mul_succ, Nat.add_comm,
    ← full, List.drop_append]
  rw [List.drop_of_length_le (Nat.le_add_right _ _), List.nil_append, Nat.add_sub_cancel_left, full,
    kept]

theorem kept_of_short {line : Str} (short : line.length < chunkSize) : kept line = line := by
  rw [kept, Nat.div_eq_of_lt short]
  rfl

/-- A text is short or starts with a full buffer. -/
theorem chunk_induction {motive : Str → Prop}
    (short : ∀ line : Str, line.length < chunkSize → motive line)
    (full : ∀ chunk line : Str, chunk.length = chunkSize → motive line → motive (chunk ++ line))
    (line : Str) : motive line := by
  by_cases isShort : line.length < chunkSize
  · exact short line isShort
  · have long := Nat.le_of_not_lt isShort
    have positive : 0 < chunkSize := by decide
    have shorter : (line.drop chunkSize).length < line.length := by
      rw [List.length_drop]
      omega
    rw [← List.take_append_drop chunkSize line]
    exact full _ _ (List.length_take_of_le long) (chunk_induction short full _)
termination_by line.length
decreasing_by exact shorter

theorem readLoop_line (line : Str) (absent : 10 ∉ line) (terminated : 0 ∉ line) (ret rest : Str) :
    readLoop ret ⟨line ++ 10 :: rest, false⟩ = (kept line, ⟨rest, false⟩) := by
  induction line using chunk_induction generalizing ret with
  | short line short =>
      have read := fgets_of_taken (takeChunk_line absent short rest)
        (List.append_ne_nil_of_right_ne_nil _ (List.cons_ne_nil _ _))
      have shown : cString (line ++ [10]) = line ++ [10] := by
        refine cString_eq_self fun mem => ?_
        rcases List.mem_append.mp mem with inLine | isNewline
        · exact terminated inLine
        · exact absurd (List.mem_singleton.mp isNewline) (by decide)
      have untilNewline : (line ++ [10]).takeWhile (· ≠ 10) = line := by
        have all : ∀ c ∈ line, decide (c ≠ 10) = true := fun c mem =>
          decide_eq_true (ne_of_mem_of_not_mem mem absent)
        rw [List.takeWhile_append_of_pos all, List.takeWhile_cons_of_neg (by decide),
          List.append_nil]
      rw [readLoop]
      split
      · rename_i next isRead
        rw [read] at isRead
        exact nomatch isRead
      · rename_i buf next isRead
        rw [read] at isRead
        cases isRead
        rw [shown, if_pos (List.mem_append_right _ List.mem_cons_self), untilNewline,
          kept_of_short short]
  | full chunk more full ih =>
      rw [List.mem_append, not_or] at absent terminated
      rw [List.append_assoc, readLoop_full full absent.1 terminated.1, kept_append full]
      exact ih absent.2 terminated.2 _

theorem readLoop_last (line : Str) (absent : 10 ∉ line) (terminated : 0 ∉ line) (ret : Str) :
    readLoop ret ⟨line, false⟩ =
      (if chunkSize ∣ line.length then ret ++ line else kept line, ⟨[], true⟩) := by
  induction line using chunk_induction generalizing ret with
  | short line short =>
      cases line with
      | nil =>
          have read : fgets bufferSize ⟨[], false⟩ = (none, ⟨[], true⟩) :=
            fgets_eq_none_iff.mpr ⟨rfl, rfl⟩
          rw [readLoop, List.append_nil, List.length_nil, if_pos (Nat.dvd_zero chunkSize)]
          split
          · rename_i next isRead
            rw [read] at isRead
            cases isRead
            rfl
          · rename_i buf next isRead
            rw [read] at isRead
            exact nomatch isRead
      | cons c line =>
          have read := fgets_of_taken (takeChunk_last absent short) (List.cons_ne_nil c line)
          have indivisible : ¬chunkSize ∣ (c :: line).length := fun divides =>
            absurd (Nat.le_of_dvd (Nat.succ_pos _) divides) (Nat.not_le_of_lt short)
          rw [readLoop, if_neg indivisible, kept_of_short short]
          split
          · rename_i next isRead
            rw [read] at isRead
            exact nomatch isRead
          · rename_i buf next isRead
            rw [read] at isRead
            cases isRead
            rw [cString_eq_self terminated, if_neg absent, if_pos rfl]
  | full chunk more full ih =>
      rw [List.mem_append, not_or] at absent terminated
      rw [readLoop_full full absent.1 terminated.1, ih absent.2 terminated.2, kept_append full,
        List.length_append, full, List.append_assoc]
      have divides : chunkSize ∣ chunkSize + more.length ↔ chunkSize ∣ more.length :=
        Nat.dvd_add_right (Nat.dvd_refl _)
      rw [if_congr divides rfl rfl]

/-! ## Files -/

/-- What `Read` returns of the pieces between newlines. -/
def readPieces : List Str → List Str
  | [] => []
  | [last] => [keptLast last]
  | line :: next :: pieces => kept line :: readPieces (next :: pieces)

theorem reads_of_eof (rest : Str) : Stream.reads ⟨rest, true⟩ = [] := by
  rw [Stream.reads, if_pos rfl]

theorem reads_line {line : Str} (absent : 10 ∉ line) (terminated : 0 ∉ line) (rest : Str) :
    Stream.reads ⟨line ++ 10 :: rest, false⟩ = kept line :: Stream.reads ⟨rest, false⟩ := by
  rw [Stream.reads, if_neg Bool.false_ne_true, Stream.read,
    readLoop_line line absent terminated [] rest]

theorem reads_last {line : Str} (absent : 10 ∉ line) (terminated : 0 ∉ line) :
    Stream.reads ⟨line, false⟩ = [keptLast line] := by
  rw [Stream.reads, if_neg Bool.false_ne_true, Stream.read, readLoop_last line absent terminated,
    reads_of_eof]
  rfl

/-- A text is one line or starts with a line and its newline. -/
theorem line_induction {motive : Str → Prop} (last : ∀ line : Str, 10 ∉ line → motive line)
    (line : ∀ line rest : Str, 10 ∉ line → motive rest → motive (line ++ 10 :: rest))
    (content : Str) : motive content := by
  cases found : Library.Split.cut 10 content with
  | none => exact last content (Library.Split.cut_eq_none_iff.mp found)
  | some pieces =>
      have isContent := (Library.Split.cut_eq_some_iff.mp found).1
      have shorter : pieces.2.length < content.length := by
        rw [isContent, List.length_append, List.length_cons]
        omega
      rw [isContent]
      exact line pieces.1 pieces.2 (Library.Split.cut_eq_some_iff.mp found).2
        (line_induction last line pieces.2)
termination_by content.length
decreasing_by exact shorter

/-- What is read of a file. -/
theorem reads_eq {content : Str} (terminated : 0 ∉ content) :
    Stream.reads ⟨content, false⟩ = readPieces (content.splitOn 10) := by
  induction content using line_induction with
  | last line absent =>
      rw [reads_last absent terminated, List.splitOn_eq_singleton absent]
      rfl
  | line line rest absent ih =>
      rw [List.mem_append, List.mem_cons, not_or, not_or] at terminated
      rw [reads_line absent terminated.1, List.splitOn_append_cons_self_of_not_mem absent,
        ih terminated.2.2]
      cases isSplit : rest.splitOn 10 with
      | nil => exact absurd isSplit (List.splitOn_ne_nil 10 rest)
      | cons next more => rfl

/-- Every line fits into the buffer with its newline; the last one may also fill it
a number of times. -/
def Fits (content : Str) : Prop :=
  (∀ line ∈ (content.splitOn 10).dropLast, line.length < chunkSize) ∧
    ∀ line ∈ (content.splitOn 10).getLast?, line.length < chunkSize ∨ chunkSize ∣ line.length

theorem kept_eq_self_iff {line : Str} : kept line = line ↔ line.length < chunkSize := by
  have positive : 0 < chunkSize := by decide
  constructor
  · intro same
    have lengths := congrArg List.length same
    rw [kept, List.length_drop] at lengths
    by_contra long
    have whole := Nat.div_pos (Nat.le_of_not_lt long) positive
    have taken := Nat.mul_pos positive whole
    have some : chunkSize ≤ line.length := Nat.le_of_not_lt long
    omega
  · exact kept_of_short

theorem keptLast_eq_self_iff {line : Str} :
    keptLast line = line ↔ line.length < chunkSize ∨ chunkSize ∣ line.length := by
  rw [keptLast]
  split
  · rename_i divides
    exact iff_of_true rfl (Or.inr divides)
  · rename_i indivisible
    rw [kept_eq_self_iff]
    exact (or_iff_left indivisible).symm

/-- Which pieces are read as they are. -/
theorem readPieces_eq_self_iff (pieces : List Str) :
    readPieces pieces = pieces ↔
      (∀ line ∈ pieces.dropLast, line.length < chunkSize) ∧
        ∀ line ∈ pieces.getLast?, line.length < chunkSize ∨ chunkSize ∣ line.length := by
  induction pieces with
  | nil => exact iff_of_true rfl ⟨fun _ mem => (nomatch mem), fun _ mem => (nomatch mem)⟩
  | cons line pieces ih =>
      cases pieces with
      | nil =>
          rw [readPieces, List.cons.injEq, keptLast_eq_self_iff]
          constructor
          · exact fun same => ⟨fun _ mem => (nomatch mem), fun _ is => Option.some.inj is ▸ same.1⟩
          · exact fun fits => ⟨fits.2 line rfl, rfl⟩
      | cons next pieces =>
          rw [readPieces, List.cons.injEq, kept_eq_self_iff, ih, List.dropLast_cons_cons,
            List.forall_mem_cons, List.getLast?_cons_cons, and_assoc]

theorem length_readPieces (pieces : List Str) : (readPieces pieces).length = pieces.length := by
  induction pieces with
  | nil => rfl
  | cons line pieces ih =>
      cases pieces with
      | nil => rfl
      | cons next pieces => exact congrArg Nat.succ ih

/-- An extra empty line aside, the lines of a file are its pieces. -/
theorem eq_lines_iff {content : Str} {found : List Str}
    (length : found.length = (content.splitOn 10).length) :
    found = lines content ∨ found = lines content ++ [[]] ↔ found = content.splitOn 10 := by
  rw [lines]
  split
  · rename_i isEmpty
    have whole : (content.splitOn 10).dropLast ++ [[]] = content.splitOn 10 :=
      List.dropLast_append_getLast? _ isEmpty
    rw [whole]
    refine or_iff_right fun same => ?_
    have nonempty := List.length_pos_iff.mpr (List.splitOn_ne_nil 10 content)
    rw [same, List.length_dropLast] at length
    omega
  · refine or_iff_left fun same => ?_
    rw [same, List.length_append] at length
    exact absurd length (Nat.succ_ne_self _)

/-- Which files are read line by line. -/
theorem reads_iff {content : Str} (terminated : 0 ∉ content) :
    (Stream.reads ⟨content, false⟩ = lines content ∨
        Stream.reads ⟨content, false⟩ = lines content ++ [[]]) ↔ Fits content := by
  rw [reads_eq terminated, eq_lines_iff (length_readPieces _), readPieces_eq_self_iff, Fits]

/-- A file of one line with a comment that does not fit. -/
theorem reads_comment :
    (Stream.reads ⟨[35], false⟩ = lines [35] ∨ Stream.reads ⟨[35], false⟩ = lines [35] ++ [[]]) ↔
      Fits [35] :=
  reads_iff (by decide)

/-- A line of 1023 bytes is read as an empty one. -/
theorem not_reads_long :
    ¬(Stream.reads ⟨List.replicate 1023 97 ++ [10], false⟩ =
          lines (List.replicate 1023 97 ++ [10]) ∨
        Stream.reads ⟨List.replicate 1023 97 ++ [10], false⟩ =
          lines (List.replicate 1023 97 ++ [10]) ++ [[]]) := by
  have absent : 10 ∉ List.replicate 1023 (97 : UInt8) := fun mem =>
    absurd (List.eq_of_mem_replicate mem) (by decide)
  have terminated : 0 ∉ List.replicate 1023 (97 : UInt8) ++ [10] := by
    intro mem
    rcases List.mem_append.mp mem with inLine | isNewline
    · exact absurd (List.eq_of_mem_replicate inLine) (by decide)
    · exact absurd (List.mem_singleton.mp isNewline) (by decide)
  have pieces : (List.replicate 1023 (97 : UInt8) ++ [10]).splitOn 10 =
      [List.replicate 1023 97, []] := by
    rw [List.splitOn_append_cons_self_of_not_mem absent]
    rfl
  have long : (List.replicate 1023 (97 : UInt8)).length = chunkSize := List.length_replicate
  rw [reads_eq terminated, eq_lines_iff (length_readPieces _), pieces, readPieces, List.cons.injEq,
    kept_eq_self_iff, long]
  exact fun same => absurd same.1 (Nat.lt_irrefl chunkSize)

end Anope.Config
