import Anope.Config.Loader

/-!
# Reading on

The parser goes on with the rest of a text: `readFrom` is where it stands within a line,
with the lines behind it.  Its equations say what one character does, whatever comes
after, and what the end of a line does.
-/

namespace Anope.Config

open Anope.Text.Convert

/-- What came last on a line: nothing, an iteration that reached the check at its end, or
one that did not. -/
inductive Mark where
  | start
  | checked
  | unchecked
  deriving DecidableEq, Repr

/-- How an iteration marks the line. -/
def Scanned.mark (scanned : Scanned) : Mark :=
  if scanned.checked then .checked else .unchecked

/-- What an iteration leaves of the text behind its character. -/
def Advance.drop : Advance → Str → Str
  | one, text => text
  | two, text => text.tail
  | line, text => text.dropWhile (· ≠ 10)

section ReadFrom

variable (env : LoadEnv)

/-- The end of a line. -/
def lineEnd (position : FilePosition) (mark : Mark) (reader : Reader) :
    Except LoadError Reader :=
  match mark with
  | .start => readLine env position reader []
  | .checked => reader.check env position 0 true
  | .unchecked => .ok reader

/-- The rest of a line, and the lines behind it. -/
def readFrom (position : FilePosition) (mark : Mark) (reader : Reader) (text : Str) :
    Except LoadError Reader :=
  match text.splitOn 10 with
  | [] => .ok reader
  | line :: lines => do
      let reader ←
        if line.isEmpty then lineEnd env position mark reader
        else if mark = .start then readLine env position reader line
        else readChars env position reader line
      readLines env position.name (position.line + 1) reader lines

variable {env} {position : FilePosition} {mark : Mark} {reader : Reader}

theorem splitOn_newline (text : Str) : (10 :: text).splitOn 10 = [] :: text.splitOn 10 := by
  rw [List.splitOn_cons_eq_if_modifyHead, if_pos (beq_self_eq_true _)]

/-- A character that ends no line belongs to the first line. -/
theorem splitOn_cons {c : UInt8} (inLine : c ≠ 10) {text line : Str} {lines : List Str}
    (pieces : text.splitOn 10 = line :: lines) :
    (c :: text).splitOn 10 = (c :: line) :: lines := by
  rw [List.splitOn_cons_eq_if_modifyHead, if_neg (mt eq_of_beq inLine), pieces]
  rfl

theorem readLine_nil (position : FilePosition) (reader : Reader) :
    readLine env position reader [] =
      .ok { reader with
        wordbuffer := if reader.inQuote then reader.wordbuffer ++ [10] else reader.wordbuffer } := by
  rw [readLine]
  cases quoted : reader.inQuote with
  | false =>
      rw [Bool.not_false, if_pos rfl, readChars]
      cases reader
      exact congrArg Except.ok (by cases quoted; rfl)
  | true => rfl

/-- From the start of a line, reading on is reading line by line. -/
theorem readLines_eq_readFrom (name : Str) (number : Nat) (reader : Reader) (text : Str) :
    readLines env name number reader (text.splitOn 10) =
      readFrom env ⟨name, number, 0⟩ .start reader text := by
  rw [readFrom]
  cases text.splitOn 10 with
  | nil => rfl
  | cons line lines =>
      rw [readLines]
      cases line with
      | nil => rfl
      | cons c line => rfl

theorem readFrom_nil : readFrom env position mark reader [] = lineEnd env position mark reader := by
  rw [readFrom, List.splitOn_nil]
  exact bind_pure (lineEnd env position mark reader)

theorem readFrom_newline (text : Str) :
    readFrom env position mark reader (10 :: text) =
      lineEnd env position mark reader >>= fun reader =>
        readFrom env ⟨position.name, position.line + 1, 0⟩ .start reader text := by
  rw [readFrom, splitOn_newline]
  simp only [List.isEmpty_nil, if_true, ← readLines_eq_readFrom]

/-! ### One character -/

theorem pop_spec (reader : Reader) :
    reader.pop.itemname = reader.itemname ∧ reader.pop.inWord = reader.inWord ∧
      reader.pop.inQuote = reader.inQuote ∧ reader.pop.inComment = reader.inComment ∧
      reader.pop.stack.length = reader.stack.length - 1 := by
  rw [Reader.pop]
  split <;> rename_i isStack <;> simp [isStack]

/-- After the end of an item there is none, and no word. -/
theorem finishItem_spec {next : Reader}
    (finished : reader.finishItem env position = .ok next) :
    next.itemname = [] ∧ next.inWord = false ∧ next.inQuote = reader.inQuote ∧
      next.inComment = reader.inComment ∧ next.stack.length = reader.stack.length := by
  rw [Reader.finishItem] at finished
  split at finished
  · rename_i isNil
    cases finished
    exact ⟨List.isEmpty_iff.mp isNil, rfl, rfl, rfl, rfl⟩
  · split at finished
    · exact nomatch finished
    · cases finished
      exact ⟨rfl, rfl, rfl, rfl, rfl⟩
    · rename_i frame stack isStack
      split at finished
      · exact nomatch finished
      · cases finished
        exact ⟨rfl, rfl, rfl, rfl, by rw [isStack]; rfl⟩

theorem finishItem_of_none (noItem : reader.itemname = []) (noWord : reader.inWord = false) :
    reader.finishItem env position = .ok reader := by
  obtain ⟨conf, stack, itemname, wordbuffer, inWord, inQuote, inComment⟩ := reader
  cases noItem
  cases noWord
  rfl

/-- In quotes, the check only sees the end of a line. -/
theorem check_of_inQuote (quoted : reader.inQuote = true) (ch : UInt8) (eol : Bool) :
    reader.check env position ch eol =
      .ok (if eol then { reader with wordbuffer := reader.wordbuffer ++ [10] } else reader) := by
  rw [Reader.check, quoted]
  cases eol with
  | false => simp
  | true => simp

theorem check_of_not_inQuote (unquoted : reader.inQuote = false) (ch : UInt8) (eol : Bool) :
    reader.check env position ch eol =
      if ch = 59 ∨ ch = 125 ∨ eol then
        reader.finishItem env position >>= fun reader =>
          if ch = 125 then reader.closeBlock position else .ok reader
      else .ok reader := by
  rw [Reader.check, unquoted]
  simp

theorem closeBlock_spec {next : Reader} (closed : reader.closeBlock position = .ok next) :
    reader.stack ≠ [] ∧ next = reader.pop := by
  rw [Reader.closeBlock] at closed
  split at closed
  · exact nomatch closed
  · rename_i nonempty
    exact ⟨by simpa using nonempty, (Except.ok.inj closed).symm⟩

/-- The end of a line behind an end of an item adds nothing. -/
theorem check_zero_of_none (unquoted : reader.inQuote = false) (noItem : reader.itemname = [])
    (noWord : reader.inWord = false) : reader.check env position 0 true = .ok reader := by
  rw [check_of_not_inQuote unquoted, if_pos (by simp), finishItem_of_none noItem noWord]
  rfl

/-- The check at the end of a line can be made in two steps: the one of the character, and
the one of the end. -/
theorem check_eol (ch : UInt8) :
    reader.check env position ch true =
      reader.check env position ch false >>= fun reader => reader.check env position 0 true := by
  cases quoted : reader.inQuote with
  | true =>
      rw [check_of_inQuote quoted, check_of_inQuote quoted]
      exact (check_of_inQuote quoted 0 true).symm
  | false =>
      rw [check_of_not_inQuote quoted, check_of_not_inQuote quoted]
      by_cases ends : ch = 59 ∨ ch = 125
      · rw [if_pos (by tauto), if_pos (by tauto)]
        cases finished : reader.finishItem env position with
        | error e => rfl
        | ok next =>
            obtain ⟨noItem, noWord, nextQuoted, _⟩ := finishItem_spec finished
            have unquoted : next.inQuote = false := nextQuoted.trans quoted
            change (if ch = 125 then next.closeBlock position else .ok next) =
              (if ch = 125 then next.closeBlock position else .ok next) >>= _
            by_cases brace : ch = 125
            · rw [if_pos brace]
              cases closed : next.closeBlock position with
              | error e => rfl
              | ok popped =>
                  obtain ⟨_, rfl⟩ := closeBlock_spec closed
                  obtain ⟨popItem, popWord, popQuote, _⟩ := pop_spec next
                  exact (check_zero_of_none (popQuote.trans unquoted) (popItem.trans noItem)
                    (popWord.trans noWord)).symm
            · rw [if_neg brace]
              exact (check_zero_of_none unquoted noItem noWord).symm
      · rw [if_pos (by simp), if_neg (by simpa using ends)]
        have notBrace : ch ≠ 125 := fun is => ends (.inr is)
        simp only [if_neg notBrace]
        exact (check_of_not_inQuote quoted 0 true).symm

/-- A pair is not read without its second character. -/
theorem pair_iff {first : Prop} {next : Option UInt8} {second : UInt8}
    (different : next ≠ some second) : (first ∧ next = some second) ↔ first ∧ none = some second :=
  iff_of_false (fun is => different is.2) fun is => nomatch is.2

theorem scanPlain_of_no_pair {ch : UInt8} {next : Option UInt8} (noSlash : next ≠ some 47)
    (noStar : next ≠ some 42) :
    scanPlain position reader ch next = scanPlain position reader ch none := by
  rw [scanPlain, scanPlain]
  exact if_congr (or_congr_right (pair_iff noSlash)) rfl (if_congr (pair_iff noStar) rfl rfl)

/-- The newline behind a line counts for no character. -/
theorem scan_newline (ch : UInt8) :
    scan position reader ch (some 10) = scan position reader ch none := by
  have quote : scanQuote reader ch (some 10) = scanQuote reader ch none :=
    if_congr (pair_iff (by decide)) rfl rfl
  have comment : scanComment reader ch (some 10) = scanComment reader ch none :=
    if_congr (pair_iff (by decide)) rfl rfl
  rw [scan, scan, quote, comment, scanPlain_of_no_pair (by decide) (by decide)]

/-- An iteration that reads two characters saw the second one on its line, and one that
reads the rest of the line comes to its check. -/
theorem scanPlain_spec {ch : UInt8} {next : Option UInt8} {scanned : Scanned}
    (isScanned : scanPlain position reader ch next = .ok scanned) :
    (scanned.advance = .two → next = some 42) ∧
      (scanned.advance = .line → scanned.checked = true) := by
  rw [scanPlain] at isScanned
  split at isScanned
  · cases isScanned
    exact ⟨fun is => (nomatch is), fun _ => rfl⟩
  · split at isScanned
    · rename_i pair
      cases isScanned
      exact ⟨fun _ => pair.2, fun is => (nomatch is)⟩
    · have one : scanned.advance = .one := by
        repeat' split at isScanned
        all_goals cases isScanned
        all_goals rfl
      rw [one]
      exact ⟨fun is => (nomatch is), fun is => (nomatch is)⟩

theorem scan_spec {ch : UInt8} {next : Option UInt8} {scanned : Scanned}
    (isScanned : scan position reader ch next = .ok scanned) :
    (scanned.advance = .two → ∃ c, next = some c ∧ c ≠ 10) ∧
      (scanned.advance = .line → scanned.checked = true) := by
  rw [scan] at isScanned
  split at isScanned
  · rw [scanQuote] at isScanned
    split at isScanned
    · rename_i pair
      cases isScanned
      exact ⟨fun _ => ⟨34, pair.2, by decide⟩, fun is => (nomatch is)⟩
    · have one : scanned.advance = .one := by
        repeat' split at isScanned
        all_goals cases isScanned
        all_goals rfl
      rw [one]
      exact ⟨fun is => (nomatch is), fun is => (nomatch is)⟩
  · split at isScanned
    · rw [scanComment] at isScanned
      split at isScanned
      · rename_i pair
        cases isScanned
        exact ⟨fun _ => ⟨47, pair.2, by decide⟩, fun is => (nomatch is)⟩
      · cases isScanned
        exact ⟨fun is => (nomatch is), fun is => (nomatch is)⟩
    · obtain ⟨two, line⟩ := scanPlain_spec isScanned
      exact ⟨fun is => ⟨42, two is, by decide⟩, line⟩

/-- Behind the rest of a line there is the end of the line. -/
theorem splitOn_dropWhile {text line : Str} {lines : List Str}
    (pieces : text.splitOn 10 = line :: lines) :
    (text.dropWhile (· ≠ 10)).splitOn 10 = [] :: lines := by
  induction text generalizing line with
  | nil =>
      cases pieces
      rfl
  | cons c text ih =>
      by_cases newline : c = 10
      · subst newline
        rw [splitOn_newline] at pieces
        cases pieces
        rw [List.dropWhile_cons_of_neg (by simp), splitOn_newline]
      · obtain ⟨rest, more, isPieces⟩ := List.exists_cons_of_ne_nil (List.splitOn_ne_nil 10 text)
        rw [splitOn_cons newline isPieces] at pieces
        cases pieces
        rw [List.dropWhile_cons_of_pos (by simpa using newline)]
        exact ih isPieces

/-- The first line of a text and the text agree in their first character, a newline aside. -/
theorem scan_head {text line : Str} {lines : List Str} (pieces : text.splitOn 10 = line :: lines)
    (ch : UInt8) :
    scan position reader ch text.head? = scan position reader ch line.head? := by
  cases text with
  | nil =>
      cases pieces
      rfl
  | cons c text =>
      by_cases newline : c = 10
      · subst newline
        rw [splitOn_newline] at pieces
        cases pieces
        exact scan_newline ch
      · obtain ⟨rest, more, isPieces⟩ := List.exists_cons_of_ne_nil (List.splitOn_ne_nil 10 text)
        rw [splitOn_cons newline isPieces] at pieces
        cases pieces
        rfl

theorem splitOn_tail {text line : Str} {lines : List Str} {c : UInt8}
    (pieces : text.splitOn 10 = (c :: line) :: lines) : text.tail.splitOn 10 = line :: lines := by
  cases text with
  | nil => exact nomatch pieces
  | cons first text =>
      by_cases newline : first = 10
      · subst newline
        rw [splitOn_newline] at pieces
        exact nomatch pieces
      · obtain ⟨rest, more, isPieces⟩ := List.exists_cons_of_ne_nil (List.splitOn_ne_nil 10 text)
        rw [splitOn_cons newline isPieces] at pieces
        cases pieces
        exact isPieces

/-- The check at the end of a line leaves what the end of the line does. -/
theorem finish_eol (scanned : Scanned) (c : UInt8) :
    scanned.finish env position c true =
      scanned.finish env position c false >>= lineEnd env position scanned.mark := by
  rw [Scanned.finish, Scanned.finish, Scanned.mark]
  cases scanned.checked with
  | true => exact check_eol c
  | false => rfl

/-- Behind an iteration, reading goes on in the rest of the line. -/
theorem readFrom_finish (scanned : Scanned) (c : UInt8) {text line : Str} {lines : List Str}
    (pieces : text.splitOn 10 = line :: lines) :
    (scanned.finish env position c line.isEmpty >>= fun reader =>
        readChars env position reader line >>= fun reader =>
          readLines env position.name (position.line + 1) reader lines) =
      scanned.finish env position c false >>= fun reader =>
        readFrom env position scanned.mark reader text := by
  simp only [readFrom, pieces]
  cases line with
  | nil =>
      rw [List.isEmpty_nil, finish_eol, bind_assoc]
      rfl
  | cons first line =>
      have notStart : scanned.mark ≠ .start := by
        rw [Scanned.mark]
        split <;> exact fun is => nomatch is
      simp only [List.isEmpty_cons, Bool.false_eq_true, if_false, if_neg notStart]

/-- Within a line: one character, with its check as if it were not the last one. -/
theorem readFrom_cons {c : UInt8} (inLine : c ≠ 10) (text : Str)
    (started : mark = .start → reader.inQuote = true → isSpace c = false) :
    readFrom env position mark reader (c :: text) =
      scan position.next reader c text.head? >>= fun scanned =>
        scanned.finish env position.next c false >>= fun reader =>
          readFrom env position.next scanned.mark reader (scanned.advance.drop text) := by
  obtain ⟨line, lines, pieces⟩ := List.exists_cons_of_ne_nil (List.splitOn_ne_nil 10 text)
  have enters : readFrom env position mark reader (c :: text) =
      readChars env position reader (c :: line) >>= fun reader =>
        readLines env position.name (position.line + 1) reader lines := by
    rw [readFrom, splitOn_cons inLine pieces]
    simp only [List.isEmpty_cons, Bool.false_eq_true, if_false]
    by_cases atStart : mark = .start
    · rw [if_pos atStart, readLine]
      cases quoted : reader.inQuote with
      | false => rfl
      | true =>
          have kept : (c :: line).dropWhile isSpace = c :: line :=
            List.dropWhile_cons_of_neg (ne_true_of_eq_false (started atStart quoted))
          simp only [kept]
          rfl
    · rw [if_neg atStart]
  rw [enters, readChars, scan_head pieces]
  cases isScanned : scan position.next reader c line.head? with
  | error e => rfl
  | ok scanned =>
      change (pure scanned >>= _) >>= _ = pure scanned >>= _
      rw [pure_bind, pure_bind]
      cases advance : scanned.advance with
      | one =>
          rw [bind_assoc]
          exact readFrom_finish scanned c pieces
      | two =>
          obtain ⟨second, isHead, _⟩ := (scan_spec isScanned).1 advance
          cases line with
          | nil => exact nomatch isHead
          | cons second line =>
              rw [bind_assoc]
              exact readFrom_finish scanned c (splitOn_tail pieces)
      | line =>
          refine Eq.trans ?_ (readFrom_finish scanned c (splitOn_dropWhile pieces))
          rfl

/-- An iteration that succeeds. -/
theorem readFrom_of_scan {c : UInt8} {scanned : Scanned} {next : Reader} (inLine : c ≠ 10)
    (text : Str) (started : mark = .start → reader.inQuote = true → isSpace c = false)
    (isScanned : scan position.next reader c text.head? = .ok scanned)
    (finished : scanned.finish env position.next c false = .ok next) :
    readFrom env position mark reader (c :: text) =
      readFrom env position.next scanned.mark next (scanned.advance.drop text) := by
  rw [readFrom_cons inLine text started, isScanned]
  change scanned.finish env position.next c false >>= _ = _
  rw [finished]
  rfl

/-- White space at the start of a line in quotes is left out, also before the end of the
line. -/
theorem readFrom_space {c : UInt8} (inLine : c ≠ 10) (quoted : reader.inQuote = true)
    (space : isSpace c = true) (text : Str) :
    readFrom env position .start reader (c :: text) =
      readFrom env position .start reader text := by
  obtain ⟨line, lines, pieces⟩ := List.exists_cons_of_ne_nil (List.splitOn_ne_nil 10 text)
  have stripped : (c :: line).dropWhile isSpace = line.dropWhile isSpace :=
    List.dropWhile_cons_of_pos space
  rw [readFrom, readFrom, splitOn_cons inLine pieces, pieces]
  simp only [List.isEmpty_cons, Bool.false_eq_true, if_false, if_true, readLine, quoted,
    Bool.not_true, stripped]
  cases line with
  | nil =>
      have scanned : scan position.next reader 0 none = .ok ⟨reader, .one, true⟩ := by
        rw [scan, if_pos quoted]
        rfl
      have zero : readChars env position reader [0] =
          .ok { reader with wordbuffer := reader.wordbuffer ++ [10] } := by
        rw [readChars, List.head?_nil, scanned]
        change reader.check env position.next 0 true >>= _ = _
        rw [check_of_inQuote quoted]
        rfl
      change readChars env position reader [0] >>= _ = lineEnd env position .start reader >>= _
      rw [zero, lineEnd, readLine_nil, if_pos quoted]
  | cons first line => rfl

end ReadFrom

end Anope.Config
