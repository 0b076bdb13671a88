import Anope.Config.Places

/-!
# Written configurations

Trees of blocks and items, the ways to write them, and that the parser reads every
written tree back.  An item ends with `;`, with the end of a line outside of comments or
with the brace of its block, and its value begins on the line of its name.
-/

namespace Anope.Config

open Anope.Text Anope.Text.Convert

/-! ## Trees and texts -/

/-- The body of a block: its items and blocks in order. -/
inductive Body where
  | done
  | item (name value : Str) (rest : Body)
  | block (name : Str) (inner rest : Body)

/-- A word that the parser takes as such: no character of another meaning, and no start of
a comment. -/
def isWordChar (c : UInt8) : Bool :=
  !(c = 34 || c = 61 || c = 123 || c = 125 || c = 59 || c = 35 || c = 32 || c = 13 || c = 9 ||
    c = 10)

/-- Every slash is followed by something that makes no comment of it. -/
def slashesPlain : Str → Bool
  | [] => true
  | c :: word =>
      (c ≠ 47 || word.head?.any fun d => d ≠ 47 && d ≠ 42) && slashesPlain word

/-- A word; `(`, `_` and `)` are skipped before one. -/
structure IsWord (word : Str) : Prop where
  nonempty : word ≠ []
  first : ∀ c ∈ word.head?, c ≠ 40 ∧ c ≠ 95 ∧ c ≠ 41
  chars : word.all isWordChar = true
  slashes : slashesPlain word = true

/-- No line but the first begins with white space. -/
def linesFlush : Str → Bool
  | [] => true
  | c :: value => (c ≠ 10 || value.head?.all fun d => d = 10 || !isSpace d) && linesFlush value

/-- A value that comes back: without variables, and with nothing that is left out. -/
structure IsValue (value : Str) : Prop where
  noVariable : 36 ∉ value
  noZero : 0 ∉ value
  last : value.getLast? ≠ some 92
  lines : linesFlush value = true

namespace Body

/-- The items of a body. -/
def items : Body → List (Str × Str)
  | done => []
  | item name value rest => (name, value) :: rest.items
  | block _ _ rest => rest.items

/-- The blocks of a body. -/
def blocks : Body → List Block
  | done => []
  | item _ _ rest => rest.blocks
  | block name inner rest => ⟨name, inner.items, inner.blocks⟩ :: rest.blocks

/-- Names are words, the items of a block have different names, and values come back. -/
def WellFormed (casemap : Casemap) : Body → Prop
  | done => True
  | item name value rest =>
      IsWord name ∧ IsValue value ∧
        (∀ other ∈ rest.items, casemap.equalsCi name other.1 = false) ∧ rest.WellFormed casemap
  | block name inner rest =>
      IsWord name ∧ inner.WellFormed casemap ∧ rest.WellFormed casemap

end Body

/-- Nothing in a comment closes it. -/
def closesNowhere : Str → Bool
  | [] => true
  | c :: body => !(c = 42 && body.head? = some 47) && closesNowhere body

/-- White space and comments between tokens; whether there is something in it that ends
an item. -/
inductive Gap : Bool → Str → Prop where
  | nil : Gap false []
  | blank {ends : Bool} {c : UInt8} {text : Str} (isBlank : c = 32 ∨ c = 13 ∨ c = 9)
      (rest : Gap ends text) : Gap ends (c :: text)
  | newline {ends : Bool} {text : Str} (rest : Gap ends text) : Gap true (10 :: text)
  | semicolon {ends : Bool} {text : Str} (rest : Gap ends text) : Gap true (59 :: text)
  | hash {ends : Bool} {body text : Str} (inLine : 10 ∉ body) (rest : Gap ends text) :
      Gap true (35 :: (body ++ 10 :: text))
  | slashes {ends : Bool} {body text : Str} (inLine : 10 ∉ body) (rest : Gap ends text) :
      Gap true (47 :: 47 :: (body ++ 10 :: text))
  | comment {ends : Bool} {body text : Str} (closes : closesNowhere body = true)
      (rest : Gap ends text) : Gap ends (47 :: 42 :: (body ++ 42 :: 47 :: text))

/-- A value between quotes. -/
def escape (value : Str) : Str :=
  value.flatMap fun c => if c = 34 then [92, 34] else [c]

/-- The texts of a body, behind an item that has not ended or not. -/
inductive Body.Writes : Bool → Body → Str → Prop where
  | done {pending ends : Bool} {gap : Str} (isGap : Gap ends gap) : Writes pending .done gap
  | item {pending ends endsName : Bool} {name value gap gapName gapValue text : Str} {rest : Body}
      (isGap : Gap ends gap) (ended : pending = true → ends = true)
      (afterName : Gap endsName gapName)
      (beforeValue : Gap false gapValue) (behind : Writes true rest text) :
      Writes pending (.item name value rest)
        (gap ++ (name ++ (gapName ++ 61 :: (gapValue ++ 34 :: (escape value ++ 34 :: text)))))
  | block {pending ends endsName : Bool} {name gap gapName inside text : Str} {inner rest : Body}
      (isGap : Gap ends gap) (ended : pending = true → ends = true)
      (afterName : Gap endsName gapName)
      (within : Writes false inner inside) (behind : Writes false rest text) :
      Writes pending (.block name inner rest)
        (gap ++ (name ++ (gapName ++ 123 :: (inside ++ 125 :: text))))

/-- The texts of a file; a comment on its last line needs no newline. -/
def Written (body : Body) (text : Str) : Prop :=
  ∃ whole, body.Writes false whole ∧ (text = whole ∨ text ++ [10] = whole)

/-! ## Reading pieces -/

/-- Reading goes over a piece of text to a place where the statement holds. -/
def Reads (env : LoadEnv) (mark : Mark) (reader : Reader) (text : Str)
    (post : Mark → Reader → Prop) : Prop :=
  ∀ position rest, ∃ position' mark' reader', post mark' reader' ∧
    readFrom env position mark reader (text ++ rest) = readFrom env position' mark' reader' rest

section Pieces

variable {env : LoadEnv} {mark : Mark} {reader next : Reader} {text more : Str}
  {post last : Mark → Reader → Prop}

theorem Reads.nil (here : post mark reader) : Reads env mark reader [] post :=
  fun position _ => ⟨position, mark, reader, here, rfl⟩

theorem Reads.append (first : Reads env mark reader text post)
    (second : ∀ mark' reader', post mark' reader' → Reads env mark' reader' more last) :
    Reads env mark reader (text ++ more) last := by
  intro position rest
  obtain ⟨position', mark', reader', here, read⟩ := first position (more ++ rest)
  obtain ⟨position'', mark'', reader'', there, readMore⟩ := second mark' reader' here position' rest
  exact ⟨position'', mark'', reader'', there, by rw [List.append_assoc, read, readMore]⟩

theorem Reads.mono (reads : Reads env mark reader text post)
    (weaker : ∀ mark' reader', post mark' reader' → last mark' reader') :
    Reads env mark reader text last := by
  intro position rest
  obtain ⟨position', mark', reader', here, read⟩ := reads position rest
  exact ⟨position', mark', reader', weaker _ _ here, read⟩

/-- One character, which is read without the next one. -/
theorem Reads.char {c : UInt8} {scanned : Scanned} (inLine : c ≠ 10)
    (started : mark = .start → reader.inQuote = true → isSpace c = false)
    (isScanned : ∀ position after, scan position reader c after = .ok scanned)
    (one : scanned.advance = .one)
    (finished : ∀ position, scanned.finish env position c false = .ok next)
    (here : post scanned.mark next) : Reads env mark reader [c] post := by
  intro position rest
  refine ⟨position.next, scanned.mark, next, here, ?_⟩
  rw [List.singleton_append, readFrom_of_scan inLine rest started (isScanned _ _) (finished _), one]
  rfl

/-- Reading comes to the same from another place. -/
theorem Reads.of_eq {mark' : Mark} {reader' : Reader}
    (same : ∀ position rest, ∃ position', readFrom env position mark reader (text ++ rest) =
      readFrom env position' mark' reader' (more ++ rest))
    (reads : Reads env mark' reader' more post) : Reads env mark reader text post := by
  intro position rest
  obtain ⟨position', read⟩ := same position rest
  obtain ⟨position'', mark'', reader'', here, readMore⟩ := reads position' rest
  exact ⟨position'', mark'', reader'', here, read.trans readMore⟩

/-! ### A value -/

theorem finish_of_inQuote {scanned : Scanned} (quoted : scanned.reader.inQuote = true)
    (position : FilePosition) (c : UInt8) :
    scanned.finish env position c false = .ok scanned.reader := by
  rw [Scanned.finish, check_of_inQuote quoted]
  exact ite_self _

/-- A character in quotes. -/
theorem readFrom_quoted {position : FilePosition} {c : UInt8} (quoted : reader.inQuote = true)
    (inLine : c ≠ 10) (noQuote : c ≠ 34) (noZero : c ≠ 0)
    (started : mark = .start → isSpace c = false) (noEscape : c = 92 → text.head? ≠ some 34) :
    readFrom env position mark reader (c :: text) =
      readFrom env position.next .checked { reader with wordbuffer := reader.wordbuffer ++ [c] }
        text := by
  have isScanned : scan position.next reader c text.head? =
      .ok ⟨{ reader with wordbuffer := reader.wordbuffer ++ [c] }, .one, true⟩ := by
    rw [scan, if_pos quoted, scanQuote, if_neg fun pair => noEscape pair.1 pair.2, if_neg noQuote,
      if_pos noZero]
  exact readFrom_of_scan inLine text (fun atStart _ => started atStart) isScanned
    (finish_of_inQuote quoted _ _)

/-- An escaped quote. -/
theorem readFrom_escaped {position : FilePosition} (quoted : reader.inQuote = true) (text : Str) :
    readFrom env position mark reader (92 :: 34 :: text) =
      readFrom env position.next .checked { reader with wordbuffer := reader.wordbuffer ++ [34] }
        text := by
  have isScanned : scan position.next reader 92 (34 :: text).head? =
      .ok ⟨{ reader with wordbuffer := reader.wordbuffer ++ [34] }, .two, true⟩ := by
    rw [scan, if_pos quoted, scanQuote, if_pos ⟨rfl, rfl⟩]
  exact readFrom_of_scan (by decide) _ (fun _ _ => by decide) isScanned
    (finish_of_inQuote quoted _ _)

/-- The quote that ends a value. -/
theorem readFrom_closing {position : FilePosition} (quoted : reader.inQuote = true) (text : Str) :
    readFrom env position mark reader (34 :: text) =
      readFrom env position.next .checked { reader with inQuote := false, inWord := false }
        text := by
  have isScanned : scan position.next reader 34 text.head? =
      .ok ⟨{ reader with inQuote := false, inWord := false }, .one, true⟩ := by
    rw [scan, if_pos quoted, scanQuote, if_neg (by simp), if_pos rfl]
  refine readFrom_of_scan (by decide) _ (fun _ _ => by decide) isScanned ?_
  rw [Scanned.finish, if_pos rfl, check_of_not_inQuote rfl, if_neg (by decide)]

/-- A newline in quotes. -/
theorem readFrom_quoted_newline {position : FilePosition} (quoted : reader.inQuote = true)
    (marked : mark ≠ .unchecked) (text : Str) :
    readFrom env position mark reader (10 :: text) =
      readFrom env ⟨position.name, position.line + 1, 0⟩ .start
        { reader with wordbuffer := reader.wordbuffer ++ [10] } text := by
  rw [readFrom_newline]
  cases mark with
  | start =>
      rw [lineEnd, readLine_nil, if_pos quoted]
      rfl
  | checked =>
      rw [lineEnd, check_of_inQuote quoted]
      rfl
  | unchecked => exact absurd rfl marked

theorem escape_cons (c : UInt8) (value : Str) :
    escape (c :: value) = (if c = 34 then [92, 34] else [c]) ++ escape value :=
  List.flatMap_cons

/-- A backslash in a value stands before no quote in its text. -/
theorem head_escape {value : Str} (nonempty : value ≠ []) (rest : Str) :
    (escape value ++ rest).head? ≠ some 34 := by
  obtain ⟨c, value, rfl⟩ := List.exists_cons_of_ne_nil nonempty
  rw [escape_cons]
  by_cases quote : c = 34
  · rw [if_pos quote]
    exact (by decide : some (92 : UInt8) ≠ some 34)
  · rw [if_neg quote]
    exact fun is => quote (Option.some.inj is)

/-- A value is read up to its closing quote. -/
theorem readFrom_value {value : Str} (quoted : reader.inQuote = true) (marked : mark ≠ .unchecked)
    (noZero : 0 ∉ value) (last : value.getLast? ≠ some 92) (lines : linesFlush value = true)
    (started : mark = .start → value.head?.all (fun d => d = 10 || !isSpace d) = true)
    (position : FilePosition) (rest : Str) :
    ∃ position', readFrom env position mark reader (escape value ++ 34 :: rest) =
      readFrom env position' .checked
        { reader with
          wordbuffer := reader.wordbuffer ++ value, inQuote := false, inWord := false } rest := by
  induction value generalizing position mark reader with
  | nil => exact ⟨position.next, by
      rw [List.append_nil]
      exact readFrom_closing quoted rest⟩
  | cons c value ih =>
      have noZeroRest : 0 ∉ value := fun mem => noZero (List.mem_cons_of_mem _ mem)
      rw [linesFlush, Bool.and_eq_true] at lines
      have lastRest : value.getLast? ≠ some 92 := by
        cases value with
        | nil => exact fun is => nomatch is
        | cons d value => rwa [List.getLast?_cons_cons] at last
      have pushed : reader.wordbuffer ++ c :: value = reader.wordbuffer ++ [c] ++ value := by
        rw [List.append_assoc, List.singleton_append]
      have stillQuoted : ({ reader with wordbuffer := reader.wordbuffer ++ [c] } : Reader).inQuote =
          true := quoted
      rw [escape_cons, pushed]
      by_cases newline : c = 10
      · subst newline
        obtain ⟨position', read⟩ := ih stillQuoted
          (by decide : Mark.start ≠ .unchecked) noZeroRest lastRest lines.2
          (fun _ => by simpa using lines.1) ⟨position.name, position.line + 1, 0⟩
        exact ⟨position', (readFrom_quoted_newline quoted marked _).trans read⟩
      · have notStart : Mark.checked = .start →
            value.head?.all (fun d => d = 10 || !isSpace d) = true := fun is => nomatch is
        by_cases quote : c = 34
        · subst quote
          obtain ⟨position', read⟩ := ih stillQuoted (by decide) noZeroRest lastRest lines.2
            notStart position.next
          exact ⟨position', (readFrom_escaped quoted _).trans read⟩
        · rw [if_neg quote]
          have zero : c ≠ 0 := fun is => noZero (is ▸ List.mem_cons_self)
          have startedHere : mark = .start → isSpace c = false := fun atStart => by
            simpa [newline] using started atStart
          have noEscape : c = 92 → (escape value ++ 34 :: rest).head? ≠ some 34 := by
            rintro rfl
            refine head_escape (fun isNil => ?_) _
            rw [isNil] at last
            exact last rfl
          obtain ⟨position', read⟩ := ih stillQuoted (by decide) noZeroRest lastRest lines.2
            notStart position.next
          exact ⟨position', (readFrom_quoted quoted newline quote zero startedHere noEscape).trans
            read⟩

theorem reads_value {value : Str} (quoted : reader.inQuote = true) (marked : mark = .checked)
    (isValue : IsValue value) :
    Reads env mark reader (escape value ++ [34]) fun mark' reader' => mark' = .checked ∧
      reader' = { reader with
        wordbuffer := reader.wordbuffer ++ value, inQuote := false, inWord := false } := by
  subst marked
  intro position rest
  obtain ⟨position', read⟩ := readFrom_value quoted (by decide : Mark.checked ≠ .unchecked)
    isValue.noZero isValue.last isValue.lines (fun is => nomatch is) position rest
  refine ⟨position', _, _, ⟨rfl, rfl⟩, ?_⟩
  rw [List.append_assoc]
  exact read

/-! ### Gaps -/

/-- The end of an item takes the parser from one state to another. -/
def Settles (env : LoadEnv) (reader settled : Reader) : Prop :=
  ∀ position, reader.finishItem env position = .ok settled

/-- The end of a line counts, or there is nothing that it would end. -/
def Tidy (mark : Mark) (reader : Reader) : Prop :=
  mark = .checked ∨ reader.itemname = [] ∧ reader.inWord = false

/-- Behind a gap, an item has ended or nothing has changed but the end of a word. -/
def BehindGap (ends : Bool) (reader settled : Reader) (mark' : Mark) (reader' : Reader) : Prop :=
  Tidy mark' reader' ∧
    if ends then reader' = settled
    else ∃ inWord, (inWord = true → reader.inWord = true) ∧
      reader' = { reader with inWord := inWord }

theorem Settles.none {settled : Reader} (settles : Settles env reader settled) :
    settled.itemname = [] ∧ settled.inWord = false ∧ settled.inQuote = reader.inQuote ∧
      settled.inComment = reader.inComment :=
  let spec := finishItem_spec (settles ⟨[], 0, 0⟩)
  ⟨spec.1, spec.2.1, spec.2.2.1, spec.2.2.2.1⟩

theorem Settles.self {settled : Reader} (settles : Settles env reader settled) :
    Settles env settled settled :=
  fun _ => finishItem_of_none settles.none.1 settles.none.2.1

theorem pop_inWord (reader : Reader) (inWord : Bool) :
    Reader.pop { reader with inWord := inWord } = { reader.pop with inWord := inWord } := by
  obtain ⟨conf, stack, itemname, wordbuffer, _, inQuote, inComment⟩ := reader
  rcases stack with _ | ⟨_ | frame, _ | ⟨_ | outer, stack⟩⟩ <;> rfl

theorem defines_inWord (reader : Reader) (inWord : Bool) :
    Reader.defines env { reader with inWord := inWord } = reader.defines env := by
  have iterate : ∀ n (reader : Reader),
      (Reader.pop^[n] { reader with inWord := inWord }).conf = (Reader.pop^[n] reader).conf := by
    intro n
    induction n with
    | zero => exact fun _ => rfl
    | succ n ih =>
        intro reader
        rw [Function.iterate_succ_apply, Function.iterate_succ_apply, pop_inWord, ih]
  rw [Reader.defines, Reader.defines, iterate]

/-- Whether a word has ended makes no difference to the end of an item. -/
theorem Settles.inWord {settled : Reader} (settles : Settles env reader settled) (inWord : Bool) :
    Settles env { reader with inWord := inWord } settled := by
  intro position
  rw [← settles position, Reader.finishItem, Reader.finishItem, defines_inWord]

theorem Settles.eq_of_none {settled : Reader} (settles : Settles env reader settled)
    (noItem : reader.itemname = []) : settled = { reader with inWord := false } := by
  have finished := settles ⟨[], 0, 0⟩
  rw [Reader.finishItem, noItem, if_pos List.isEmpty_nil] at finished
  rw [← noItem] at finished
  exact (Except.ok.inj finished).symm

/-- The end of a line ends an item. -/
theorem lineEnd_of_settles {settled : Reader} (settles : Settles env reader settled)
    (unquoted : reader.inQuote = false) (tidy : Tidy mark reader) (position : FilePosition) :
    lineEnd env position mark reader = .ok settled := by
  have same : reader.itemname = [] ∧ reader.inWord = false → reader = settled := by
    rintro ⟨noItem, noWord⟩
    have finished := settles position
    rw [finishItem_of_none noItem noWord] at finished
    exact Except.ok.inj finished
  have checked : reader.check env position 0 true = .ok settled := by
    rw [check_of_not_inQuote unquoted, if_pos (by simp), settles position]
    rfl
  cases mark with
  | start =>
      have unchanged : (if reader.inQuote then reader.wordbuffer ++ [10] else reader.wordbuffer) =
          reader.wordbuffer := by
        rw [unquoted, if_neg Bool.false_ne_true]
      rw [lineEnd, readLine_nil, unchanged]
      exact congrArg Except.ok (same (tidy.resolve_left Mark.noConfusion))
  | checked => exact checked
  | unchecked => exact congrArg Except.ok (same (tidy.resolve_left Mark.noConfusion))

/-- A newline outside of quotes. -/
theorem Reads.newline {settled : Reader} (settles : Settles env reader settled)
    (unquoted : reader.inQuote = false) (tidy : Tidy mark reader)
    (reads : Reads env .start settled text post) : Reads env mark reader (10 :: text) post := by
  refine Reads.of_eq (fun position rest => ⟨⟨position.name, position.line + 1, 0⟩, ?_⟩) reads
  rw [List.cons_append, readFrom_newline, lineEnd_of_settles settles unquoted tidy]
  rfl

/-- A check within a line that is for no end of an item. -/
theorem finish_of_plain {scanned : Scanned} {c : UInt8} (noSemicolon : c ≠ 59) (noBrace : c ≠ 125)
    (position : FilePosition) : scanned.finish env position c false = .ok scanned.reader := by
  have unchecked : scanned.reader.check env position c false = .ok scanned.reader := by
    rw [Reader.check, if_neg (by simp [noSemicolon, noBrace])]
  rw [Scanned.finish, unchecked]
  exact ite_self _

/-- A comment is left at its end. -/
theorem readFrom_comment {body : Str} (commented : reader.inComment = true)
    (unquoted : reader.inQuote = false) (marked : mark ≠ .checked)
    (closes : closesNowhere body = true) (position : FilePosition) (rest : Str) :
    ∃ position', readFrom env position mark reader (body ++ 42 :: 47 :: rest) =
      readFrom env position' .checked { reader with inComment := false } rest := by
  have isScan : ∀ position c after,
      scan position reader c after = .ok (scanComment reader c after) := by
    intro position c after
    rw [scan, unquoted, if_neg Bool.false_ne_true, if_pos commented]
  have notQuoted : ∀ c, mark = .start → reader.inQuote = true → isSpace c = false :=
    fun _ _ quoted => Bool.noConfusion (unquoted.symm.trans quoted)
  induction body generalizing position mark with
  | nil =>
      have scanned : scan position.next reader 42 (47 :: rest).head? =
          .ok ⟨{ reader with inComment := false }, .two, true⟩ := by
        rw [isScan, scanComment, if_pos ⟨rfl, rfl⟩]
      exact ⟨position.next, readFrom_of_scan (by decide) _ (notQuoted 42) scanned
        (finish_of_plain (by decide) (by decide) _)⟩
  | cons c body ih =>
      rw [closesNowhere, Bool.and_eq_true] at closes
      by_cases newline : c = 10
      · subst newline
        have ended : lineEnd env position mark reader = .ok reader := by
          cases mark with
          | start =>
              have unchanged : (if reader.inQuote then reader.wordbuffer ++ [10]
                  else reader.wordbuffer) = reader.wordbuffer := by
                rw [unquoted, if_neg Bool.false_ne_true]
              rw [lineEnd, readLine_nil, unchanged]
          | checked => exact absurd rfl marked
          | unchecked => rfl
        obtain ⟨position', read⟩ := ih (by decide : Mark.start ≠ .checked) closes.2
          ⟨position.name, position.line + 1, 0⟩
          fun _ _ quoted => Bool.noConfusion (unquoted.symm.trans quoted)
        refine ⟨position', ?_⟩
        rw [List.cons_append, readFrom_newline, ended]
        exact read
      · have noPair : ¬ (c = 42 ∧ (body ++ 42 :: 47 :: rest).head? = some 47) := by
          rintro ⟨rfl, slash⟩
          cases body with
          | nil => exact absurd slash (by simp)
          | cons d body => simp_all
        have scanned : scan position.next reader c (body ++ 42 :: 47 :: rest).head? =
            .ok ⟨reader, .one, false⟩ := by
          rw [isScan, scanComment, if_neg noPair]
        obtain ⟨position', read⟩ := ih (by decide : Mark.unchecked ≠ .checked) closes.2 position.next
          fun _ _ quoted => Bool.noConfusion (unquoted.symm.trans quoted)
        exact ⟨position', (readFrom_of_scan newline _ (notQuoted c) scanned rfl).trans read⟩

/-- Outside of quotes and comments. -/
structure Outside (reader : Reader) : Prop where
  unquoted : reader.inQuote = false
  uncommented : reader.inComment = false

theorem Outside.scan {reader : Reader} (outside : Outside reader) (position : FilePosition)
    (c : UInt8) (after : Option UInt8) :
    scan position reader c after = scanPlain position reader c after := by
  rw [Config.scan, outside.unquoted, if_neg Bool.false_ne_true, outside.uncommented,
    if_neg Bool.false_ne_true]

theorem Outside.started {reader : Reader} (outside : Outside reader) (c : UInt8) :
    mark = .start → reader.inQuote = true → isSpace c = false :=
  fun _ quoted => nomatch outside.unquoted.symm.trans quoted

theorem Outside.settled {settled : Reader} (outside : Outside reader)
    (settles : Settles env reader settled) : Outside settled :=
  ⟨settles.none.2.2.1.trans outside.unquoted, settles.none.2.2.2.trans outside.uncommented⟩

/-- A blank ends a word. -/
theorem scanPlain_blank {c : UInt8} (isBlank : c = 32 ∨ c = 13 ∨ c = 9) (position : FilePosition)
    (after : Option UInt8) :
    scanPlain position reader c after = .ok ⟨{ reader with inWord := false }, .one, true⟩ := by
  have line : ¬ (c = 35 ∨ c = 47 ∧ after = some 47) := by
    rcases isBlank with rfl | rfl | rfl <;> simp
  have comment : ¬ (c = 47 ∧ after = some 42) := by rcases isBlank with rfl | rfl | rfl <;> simp
  have skipped : ¬ ((!reader.inWord) = true ∧ (c = 40 ∨ c = 95 ∨ c = 41)) := by
    rcases isBlank with rfl | rfl | rfl <;> simp
  have others : c ≠ 34 ∧ c ≠ 61 ∧ c ≠ 123 := by rcases isBlank with rfl | rfl | rfl <;> decide
  rw [scanPlain, if_neg line, if_neg comment, if_neg skipped, if_neg others.1, if_neg others.2.1,
    if_neg others.2.2, if_pos isBlank]

theorem scanPlain_semicolon (position : FilePosition) (after : Option UInt8) :
    scanPlain position reader 59 after = .ok ⟨reader, .one, true⟩ := by
  rw [scanPlain, if_neg (by simp), if_neg (by simp), if_neg (by simp), if_neg (by decide),
    if_neg (by decide), if_neg (by decide), if_neg (by decide), if_pos (.inl rfl)]

theorem dropWhile_line {body : Str} (inLine : 10 ∉ body) (text : Str) :
    (body ++ 10 :: text).dropWhile (· ≠ 10) = 10 :: text := by
  induction body with
  | nil => exact List.dropWhile_cons_of_neg (by simp)
  | cons c body ih =>
      have different : c ≠ 10 := (List.ne_of_not_mem_cons inLine).symm
      rw [List.cons_append, List.dropWhile_cons_of_pos (by simpa using different)]
      exact ih (List.not_mem_of_not_mem_cons inLine)

/-- A comment to the end of the line. -/
theorem Reads.lineComment {c : UInt8} {body : Str} (outside : Outside reader) (inLine : 10 ∉ body)
    (comment : c = 35 ∨ c = 47 ∧ body.head? = some 47)
    (reads : Reads env .checked reader (10 :: text) post) :
    Reads env mark reader (c :: (body ++ 10 :: text)) post := by
  refine Reads.of_eq (fun position rest => ⟨position.next, ?_⟩) reads
  have others : c ≠ 10 ∧ c ≠ 59 ∧ c ≠ 125 := by rcases comment with rfl | ⟨rfl, _⟩ <;> decide
  have starts : c = 35 ∨ c = 47 ∧ (body ++ 10 :: (text ++ rest)).head? = some 47 := by
    refine comment.imp_right fun is => ⟨is.1, ?_⟩
    rw [List.head?_append, is.2]
    rfl
  have scanned : scan position.next reader c (body ++ 10 :: (text ++ rest)).head? =
      .ok ⟨reader, .line, true⟩ := by
    rw [outside.scan, scanPlain, if_pos starts]
  have read : readFrom env position mark reader (c :: (body ++ 10 :: (text ++ rest))) =
      readFrom env position.next .checked reader
        ((body ++ 10 :: (text ++ rest)).dropWhile (· ≠ 10)) :=
    readFrom_of_scan others.1 _ (outside.started c) scanned
      (finish_of_plain others.2.1 others.2.2 _)
  rw [List.cons_append, List.append_assoc, List.cons_append, read, dropWhile_line inLine]

/-- Once an item has ended, a gap changes nothing. -/
theorem BehindGap.settled {ends : Bool} {settled : Reader} (settles : Settles env reader settled)
    {mark' : Mark} {reader' : Reader} (behind : BehindGap ends settled settled mark' reader') :
    BehindGap true reader settled mark' reader' := by
  obtain ⟨tidy, same⟩ := behind
  refine ⟨tidy, ?_⟩
  cases ends with
  | true => exact same
  | false =>
      obtain ⟨inWord, noWord, rfl⟩ := same
      have isFalse : inWord = settled.inWord := by
        rw [settles.none.2.1, Bool.eq_false_iff]
        exact fun is => nomatch (noWord is).symm.trans settles.none.2.1
      rw [if_pos rfl, isFalse]

/-- Gaps are read over. -/
theorem reads_gap {ends : Bool} {settled : Reader} (gap : Gap ends text) (outside : Outside reader)
    (settles : Settles env reader settled) (tidy : Tidy mark reader) :
    Reads env mark reader text (BehindGap ends reader settled) := by
  induction gap generalizing mark reader with
  | nil => exact Reads.nil ⟨tidy, reader.inWord, id, rfl⟩
  | @blank ends c text isBlank _ ih =>
      have noEnd : c ≠ 10 ∧ c ≠ 59 ∧ c ≠ 125 := by rcases isBlank with rfl | rfl | rfl <;> decide
      have first : Reads env mark reader [c] fun mark' reader' =>
          mark' = .checked ∧ reader' = { reader with inWord := false } :=
        Reads.char noEnd.1 (outside.started c)
          (fun position after => (outside.scan position c after).trans
            (scanPlain_blank isBlank position after)) rfl
          (finish_of_plain noEnd.2.1 noEnd.2.2) ⟨rfl, rfl⟩
      refine first.append ?_
      rintro _ _ ⟨rfl, rfl⟩
      have stillOutside : Outside { reader with inWord := false } :=
        ⟨outside.unquoted, outside.uncommented⟩
      refine (ih stillOutside (settles.inWord false) (.inl rfl)).mono ?_
      rintro mark' reader' ⟨tidy', behind⟩
      refine ⟨tidy', ?_⟩
      cases ends with
      | true => exact behind
      | false =>
          obtain ⟨inWord, noWord, rfl⟩ := behind
          exact ⟨inWord, fun is => (nomatch noWord is), rfl⟩
  | newline _ ih =>
      refine Reads.newline settles outside.unquoted tidy ?_
      exact (ih (outside.settled settles) settles.self
        (.inr ⟨settles.none.1, settles.none.2.1⟩)).mono fun _ _ => .settled settles
  | @semicolon ends text _ ih =>
      have first : Reads env mark reader [59] fun mark' reader' =>
          mark' = .checked ∧ reader' = settled := by
        refine Reads.char (by decide) (outside.started 59)
          (fun position after => (outside.scan position 59 after).trans
            (scanPlain_semicolon position after)) rfl (fun position => ?_) ⟨rfl, rfl⟩
        rw [Scanned.finish, if_pos rfl, check_of_not_inQuote outside.unquoted, if_pos (.inl rfl),
          settles position]
        rfl
      refine first.append ?_
      rintro _ _ ⟨rfl, rfl⟩
      exact (ih (outside.settled settles) settles.self (.inl rfl)).mono fun _ _ => .settled settles
  | @hash ends body text inLine _ ih =>
      refine Reads.lineComment outside inLine (.inl rfl)
        (Reads.newline settles outside.unquoted (.inl rfl) ?_)
      exact (ih (outside.settled settles) settles.self
        (.inr ⟨settles.none.1, settles.none.2.1⟩)).mono fun _ _ => .settled settles
  | @slashes ends body text inLine _ ih =>
      have inLine' : 10 ∉ 47 :: body := fun mem =>
        inLine ((List.mem_cons.mp mem).resolve_left (by decide))
      refine Reads.lineComment outside inLine' (.inr ⟨rfl, rfl⟩)
        (Reads.newline settles outside.unquoted (.inl rfl) ?_)
      exact (ih (outside.settled settles) settles.self
        (.inr ⟨settles.none.1, settles.none.2.1⟩)).mono fun _ _ => .settled settles
  | @comment ends body text closes _ ih =>
      refine Reads.of_eq ?_ (ih outside settles (.inl rfl))
      intro position rest
      have scanned : scan position.next reader 47 (some 42) =
          .ok ⟨{ reader with inComment := true }, .two, false⟩ := by
        rw [outside.scan, scanPlain, if_neg (by simp), if_pos ⟨rfl, rfl⟩]
      have enters : readFrom env position mark reader
          (47 :: 42 :: (body ++ 42 :: 47 :: (text ++ rest))) =
          readFrom env position.next .unchecked { reader with inComment := true }
            (body ++ 42 :: 47 :: (text ++ rest)) := by
        refine (readFrom_of_scan (by decide) _ (outside.started 47) scanned
          (finish_of_plain (by decide) (by decide) _)).trans ?_
        rfl
      have inside : ({ reader with inComment := true } : Reader).inQuote = false := outside.unquoted
      have unmarked : Mark.unchecked ≠ .checked := by decide
      obtain ⟨position', leaves⟩ := readFrom_comment rfl inside unmarked closes position.next
        (text ++ rest)
      have left : { { reader with inComment := true } with inComment := false } = reader := by
        rw [← outside.uncommented]
      rw [left] at leaves
      refine ⟨position', ?_⟩
      rw [← leaves, ← enters, List.cons_append, List.cons_append, List.append_assoc,
        List.cons_append, List.cons_append]

/-! ### Tokens -/

/-- A character of a word. -/
theorem scanPlain_word {c : UInt8} {after : Option UInt8} (isChar : isWordChar c = true)
    (noComment : c = 47 → after ≠ some 47 ∧ after ≠ some 42)
    (entered : reader.inWord = true ∨ reader.wordbuffer = [] ∧ c ≠ 40 ∧ c ≠ 95 ∧ c ≠ 41)
    (position : FilePosition) :
    scanPlain position reader c after =
      .ok ⟨{ reader with wordbuffer := reader.wordbuffer ++ [c], inWord := true }, .one, true⟩ := by
  have others : c ≠ 34 ∧ c ≠ 61 ∧ c ≠ 123 ∧ c ≠ 125 ∧ c ≠ 59 ∧ c ≠ 35 ∧ c ≠ 32 ∧ c ≠ 13 ∧ c ≠ 9 ∧
      c ≠ 10 := by
    simpa [isWordChar, not_or, and_assoc] using isChar
  obtain ⟨noQuote, noEquals, noOpen, noClose, noEnd, noHash, noSpace, noReturn, noTab, -⟩ := others
  have line : ¬ (c = 35 ∨ c = 47 ∧ after = some 47) := by
    rintro (is | ⟨is, slash⟩)
    · exact noHash is
    · exact (noComment is).1 slash
  have comment : ¬ (c = 47 ∧ after = some 42) := fun is => (noComment is.1).2 is.2
  have blank : ¬ (c = 32 ∨ c = 13 ∨ c = 9) :=
    not_or.mpr ⟨noSpace, not_or.mpr ⟨noReturn, noTab⟩⟩
  have ends : ¬ (c = 59 ∨ c = 125) := not_or.mpr ⟨noEnd, noClose⟩
  have skipped : ¬ ((!reader.inWord) = true ∧ (c = 40 ∨ c = 95 ∨ c = 41)) := by
    rcases entered with inWord | ⟨_, noParen, noUnderscore, noParen'⟩
    · simp [inWord]
    · rintro ⟨-, is | is | is⟩
      · exact noParen is
      · exact noUnderscore is
      · exact noParen' is
  have second : ¬ ((!reader.inWord) = true ∧ (!reader.wordbuffer.isEmpty) = true) := by
    rcases entered with inWord | ⟨isNil, _⟩
    · simp [inWord]
    · simp [isNil]
  rw [scanPlain, if_neg line, if_neg comment, if_neg skipped, if_neg noQuote, if_neg noEquals,
    if_neg noOpen, if_neg blank, if_neg ends, if_neg second]

/-- A word is read to its end. -/
theorem reads_word {word : Str} (outside : Outside reader) (nonempty : word ≠ [])
    (chars : word.all isWordChar = true) (slashes : slashesPlain word = true)
    (entered : reader.inWord = true ∨
      reader.wordbuffer = [] ∧ ∀ c ∈ word.head?, c ≠ 40 ∧ c ≠ 95 ∧ c ≠ 41) :
    Reads env mark reader word fun mark' reader' => mark' = .checked ∧
      reader' = { reader with wordbuffer := reader.wordbuffer ++ word, inWord := true } := by
  induction word generalizing mark reader with
  | nil => exact absurd rfl nonempty
  | cons c word ih =>
      rw [List.all_cons, Bool.and_eq_true] at chars
      rw [slashesPlain, Bool.and_eq_true] at slashes
      have others : c ≠ 10 ∧ c ≠ 59 ∧ c ≠ 125 := by
        refine ⟨?_, ?_, ?_⟩ <;> rintro rfl <;> exact absurd chars.1 (by decide)
      have enteredHere : reader.inWord = true ∨ reader.wordbuffer = [] ∧ c ≠ 40 ∧ c ≠ 95 ∧ c ≠ 41 :=
        entered.imp_right fun is => ⟨is.1, is.2 c rfl⟩
      have first : ∀ position rest, readFrom env position mark reader (c :: (word ++ rest)) =
          readFrom env position.next .checked
            { reader with wordbuffer := reader.wordbuffer ++ [c], inWord := true }
            (word ++ rest) := by
        intro position rest
        have noComment : c = 47 →
            (word ++ rest).head? ≠ some 47 ∧ (word ++ rest).head? ≠ some 42 := by
          rintro rfl
          cases word with
          | nil => exact absurd slashes.1 (by decide)
          | cons d word => simpa using slashes.1
        exact readFrom_of_scan others.1 _ (outside.started c)
          ((outside.scan _ _ _).trans (scanPlain_word chars.1 noComment enteredHere _))
          (finish_of_plain others.2.1 others.2.2 _)
      have pushed : reader.wordbuffer ++ c :: word = reader.wordbuffer ++ [c] ++ word := by
        rw [List.append_assoc, List.singleton_append]
      cases isWord : word with
      | nil =>
          intro position rest
          rw [isWord] at first
          exact ⟨_, _, _, ⟨rfl, rfl⟩, first position rest⟩
      | cons d more =>
          rw [← isWord, pushed]
          have stillOutside : Outside { reader with
              wordbuffer := reader.wordbuffer ++ [c], inWord := true } :=
            ⟨outside.unquoted, outside.uncommented⟩
          exact Reads.of_eq (fun position rest => ⟨_, first position rest⟩)
            (ih stillOutside (by rw [isWord]; exact List.cons_ne_nil d more) chars.2 slashes.2
              (.inl rfl))

/-- The sign behind the name of an item. -/
theorem reads_equals (outside : Outside reader) (noItem : reader.itemname = [])
    (named : reader.wordbuffer ≠ []) (inBlock : reader.stack ≠ []) :
    Reads env mark reader [61] fun mark' reader' => mark' = .checked ∧
      reader' = { reader with
        inWord := false, itemname := reader.wordbuffer, wordbuffer := [] } := by
  have scanned : ∀ position after, scan position reader 61 after = .ok
      ⟨{ reader with inWord := false, itemname := reader.wordbuffer, wordbuffer := [] }, .one,
        true⟩ := by
    intro position after
    rw [outside.scan, scanPlain, if_neg (by simp), if_neg (by simp), if_neg (by simp),
      if_neg (by decide), if_pos rfl, if_neg (by simpa using inBlock),
      if_neg (by simpa [noItem] using named)]
  exact Reads.char (by decide) (outside.started 61) scanned rfl
    (finish_of_plain (by decide) (by decide)) ⟨rfl, rfl⟩

/-- The quote before a value. -/
theorem reads_quote (outside : Outside reader) (hasItem : reader.itemname ≠ [])
    (noWords : reader.wordbuffer = []) (noWord : reader.inWord = false)
    (inBlock : reader.stack ≠ []) :
    Reads env mark reader [34] fun mark' reader' => mark' = .checked ∧
      reader' = { reader with inQuote := true, inWord := true } := by
  have scanned : ∀ position after, scan position reader 34 after =
      .ok ⟨{ reader with inQuote := true, inWord := true }, .one, true⟩ := by
    intro position after
    rw [outside.scan, scanPlain, if_neg (by simp), if_neg (by simp), if_neg (by simp), if_pos rfl,
      if_neg (by simp [inBlock, hasItem]), if_neg (by simp [noWords, noWord])]
  exact Reads.char (by decide) (outside.started 34) scanned rfl
    (fun position => finish_of_inQuote rfl position 34) ⟨rfl, rfl⟩

/-- The brace behind the name of a block. -/
theorem reads_open (outside : Outside reader) (named : reader.wordbuffer ≠ [])
    (inNamed : ∀ stack, reader.stack ≠ none :: stack) :
    Reads env mark reader [123] fun mark' reader' => mark' = .unchecked ∧
      ∃ position, reader' = { reader with
        stack := some ⟨⟨reader.wordbuffer, [], []⟩, position⟩ :: reader.stack
        wordbuffer := []
        inWord := false } := by
  intro position rest
  have opened : reader.openBlock position.next = { reader with
      stack := some ⟨⟨reader.wordbuffer, [], []⟩, position.next⟩ :: reader.stack
      wordbuffer := []
      inWord := false } := by
    rw [Reader.openBlock, if_neg (by simpa using named)]
    split
    · rename_i stack isStack
      exact absurd isStack (inNamed stack)
    · rfl
  have scanned : scan position.next reader 123 rest.head? =
      .ok ⟨reader.openBlock position.next, .one, false⟩ := by
    rw [outside.scan, scanPlain, if_neg (by simp), if_neg (by simp), if_neg (by simp),
      if_neg (by decide), if_neg (by decide), if_pos rfl]
  refine ⟨position.next, .unchecked, _, ⟨rfl, position.next, opened⟩, ?_⟩
  refine (readFrom_of_scan (by decide) _ (outside.started 123) scanned
    (finish_of_plain (by decide) (by decide) _)).trans ?_
  rfl

/-- The brace that ends a block ends an item as well. -/
theorem reads_close {settled : Reader} (outside : Outside reader)
    (settles : Settles env reader settled) (inBlock : settled.stack ≠ []) :
    Reads env mark reader [125] fun mark' reader' => mark' = .checked ∧ reader' = settled.pop := by
  have scanned : ∀ position after, scan position reader 125 after = .ok ⟨reader, .one, true⟩ := by
    intro position after
    rw [outside.scan, scanPlain, if_neg (by simp), if_neg (by simp), if_neg (by simp),
      if_neg (by decide), if_neg (by decide), if_neg (by decide), if_neg (by decide),
      if_pos (.inr rfl)]
  refine Reads.char (by decide) (outside.started 125) scanned rfl (fun position => ?_) ⟨rfl, rfl⟩
  rw [Scanned.finish, if_pos rfl, check_of_not_inQuote outside.unquoted, if_pos (.inr (.inl rfl)),
    settles position]
  change (if (125 : UInt8) = 125 then settled.closeBlock position else .ok settled) = _
  rw [if_pos rfl, Reader.closeBlock, if_neg (by simpa using inBlock)]

end Pieces

end Anope.Config
