import Anope.Config.Reading

/-!
# Quotes, comments and blocks

Where a text ends: in quotes, in a comment, or inside of blocks, by a description of the
format of its own.  The parser throws for every text that ends in such a place.
-/

namespace Anope.Config

open Anope.Text.Convert

/-- Where in a text one is; `rest` is a comment to the end of the line. -/
inductive Place where
  | plain
  | quote
  | comment
  | rest
  deriving DecidableEq, Repr

/-- What a character does to the place and the number of open blocks, and whether it takes
the next one with it. -/
def Place.step (place : Place) (depth : Nat) (c : UInt8) (next : Option UInt8) :
    Place × Nat × Bool :=
  match place with
  | rest => (if c = 10 then plain else rest, depth, false)
  | quote =>
      if c = 92 ∧ next = some 34 then (quote, depth, true)
      else (if c = 34 then plain else quote, depth, false)
  | comment =>
      if c = 42 ∧ next = some 47 then (plain, depth, true) else (comment, depth, false)
  | plain =>
      if c = 35 ∨ c = 47 ∧ next = some 47 then (rest, depth, false)
      else if c = 47 ∧ next = some 42 then (comment, depth, true)
      else if c = 34 then (quote, depth, false)
      else if c = 123 then (plain, depth + 1, false)
      else if c = 125 then (plain, depth - 1, false)
      else (plain, depth, false)

/-- The place and the number of open blocks behind a text. -/
def placeBehind : Place → Nat → Str → Place × Nat
  | place, depth, [] => (place, depth)
  | place, depth, c :: text =>
      let (place, depth, two) := place.step depth c text.head?
      if two then
        match text with
        | [] => (place, depth)
        | _ :: text => placeBehind place depth text
      else placeBehind place depth text

/-- A text ends inside a quote, a comment or a block. -/
def EndsInside (text : Str) : Prop :=
  let (place, depth) := placeBehind .plain 0 text
  place = .quote ∨ place = .comment ∨ depth ≠ 0

instance decidableEndsInside (text : Str) : Decidable (EndsInside text) :=
  inferInstanceAs (Decidable (_ ∨ _ ∨ _))

/-- Where the parser is. -/
def Reader.place (reader : Reader) : Place :=
  if reader.inQuote then .quote else if reader.inComment then .comment else .plain

section Simulation

variable {env : LoadEnv} {position : FilePosition} {mark : Mark} {reader next : Reader}

theorem check_spec {ch : UInt8} {eol : Bool}
    (checked : reader.check env position ch eol = .ok next) :
    next.inQuote = reader.inQuote ∧ next.inComment = reader.inComment ∧
      next.stack.length =
        if ch = 125 ∧ reader.inQuote = false then reader.stack.length - 1
        else reader.stack.length := by
  cases quoted : reader.inQuote with
  | true =>
      rw [check_of_inQuote quoted] at checked
      cases checked
      cases eol <;> simp [quoted]
  | false =>
      rw [check_of_not_inQuote quoted] at checked
      split at checked
      · cases finished : reader.finishItem env position with
        | error e =>
            rw [finished] at checked
            exact nomatch checked
        | ok done =>
            obtain ⟨_, _, sameQuote, sameComment, sameStack⟩ := finishItem_spec finished
            rw [finished] at checked
            change (if ch = 125 then done.closeBlock position else .ok done) = .ok next at checked
            split at checked
            · rename_i brace
              obtain ⟨_, rfl⟩ := closeBlock_spec checked
              obtain ⟨_, _, popQuote, popComment, popStack⟩ := pop_spec done
              rw [popQuote, popComment, popStack, sameQuote, sameComment, sameStack,
                if_pos ⟨brace, rfl⟩]
              exact ⟨quoted, rfl, rfl⟩
            · rename_i noBrace
              cases checked
              rw [if_neg fun is => noBrace is.1]
              exact ⟨sameQuote.trans quoted, sameComment, sameStack⟩
      · rename_i noEnd
        cases checked
        rw [if_neg fun is => noEnd (.inr (.inl is.1))]
        exact ⟨quoted, rfl, rfl⟩

theorem openBlock_spec (position : FilePosition) (reader : Reader) :
    (reader.openBlock position).inQuote = reader.inQuote ∧
      (reader.openBlock position).inComment = reader.inComment ∧
      (reader.openBlock position).stack.length = reader.stack.length + 1 := by
  rw [Reader.openBlock]
  split <;> exact ⟨rfl, rfl, rfl⟩

/-- What a character does outside of quotes and comments. -/
theorem scanPlain_cases {ch : UInt8} {after : Option UInt8} {scanned : Scanned}
    (isScanned : scanPlain position reader ch after = .ok scanned) :
    (ch = 35 ∨ ch = 47 ∧ after = some 47) ∧ scanned = ⟨reader, .line, true⟩ ∨
      ¬ (ch = 35 ∨ ch = 47 ∧ after = some 47) ∧
        (ch = 47 ∧ after = some 42 ∧ scanned = ⟨{ reader with inComment := true }, .two, false⟩ ∨
          ¬ (ch = 47 ∧ after = some 42) ∧ scanned.advance = .one ∧
            (ch = 123 ∧ scanned = ⟨reader.openBlock position, .one, false⟩ ∨
              ch ≠ 123 ∧ scanned.checked = true ∧
                scanned.reader.inQuote = (reader.inQuote || ch == 34) ∧
                scanned.reader.inComment = reader.inComment ∧
                scanned.reader.stack = reader.stack)) := by
  rw [scanPlain] at isScanned
  by_cases line : ch = 35 ∨ ch = 47 ∧ after = some 47
  · rw [if_pos line] at isScanned
    exact .inl ⟨line, (Except.ok.inj isScanned).symm⟩
  · rw [if_neg line] at isScanned
    refine .inr ⟨line, ?_⟩
    by_cases comment : ch = 47 ∧ after = some 42
    · rw [if_pos comment] at isScanned
      exact .inl ⟨comment.1, comment.2, (Except.ok.inj isScanned).symm⟩
    · rw [if_neg comment] at isScanned
      refine .inr ⟨comment, ?_⟩
      by_cases brace : ch = 123
      · subst brace
        rw [if_neg (by simp), if_neg (by decide), if_neg (by decide), if_pos rfl] at isScanned
        cases isScanned
        exact ⟨rfl, .inl ⟨rfl, rfl⟩⟩
      · by_cases quote : ch = 34
        · subst quote
          rw [if_neg (by simp), if_pos rfl] at isScanned
          split at isScanned
          · cases isScanned
          · split at isScanned
            · cases isScanned
            · cases isScanned
              exact ⟨rfl, .inr ⟨brace, rfl, by simp, rfl, rfl⟩⟩
        · have noQuote : (reader.inQuote || ch == 34) = reader.inQuote := by simp [quote]
          rw [if_neg quote, if_neg brace] at isScanned
          rw [noQuote]
          repeat' split at isScanned
          all_goals cases isScanned
          all_goals exact ⟨rfl, .inr ⟨brace, rfl, rfl, rfl, rfl⟩⟩

/-- The check within a line, when it is reached. -/
theorem finish_spec {ch : UInt8} {scanned : Scanned}
    (finished : scanned.finish env position ch false = .ok next) :
    next.inQuote = scanned.reader.inQuote ∧ next.inComment = scanned.reader.inComment ∧
      next.stack.length =
        if scanned.checked = true ∧ ch = 125 ∧ scanned.reader.inQuote = false then
          scanned.reader.stack.length - 1
        else scanned.reader.stack.length := by
  rw [Scanned.finish] at finished
  split at finished
  · rename_i checked
    simpa only [checked, true_and] using check_spec finished
  · rename_i unchecked
    cases finished
    rw [if_neg fun is => unchecked is.1]
    exact ⟨rfl, rfl, rfl⟩

/-- The parser is never in quotes and in a comment at once, and an iteration follows the
description of the format. -/
theorem place_step {ch : UInt8} {after : Option UInt8} {scanned : Scanned}
    (one : ¬ (reader.inQuote = true ∧ reader.inComment = true))
    (isScanned : scan position reader ch after = .ok scanned)
    (finished : scanned.finish env position ch false = .ok next) :
    ¬ (next.inQuote = true ∧ next.inComment = true) ∧
      (scanned.advance = .line → next.place = .plain) ∧
        reader.place.step reader.stack.length ch after =
          (if scanned.advance = .line then .rest else next.place, next.stack.length,
            decide (scanned.advance = .two)) := by
  obtain ⟨isQuote, isComment, isStack⟩ := finish_spec finished
  have isNext : next.place = if scanned.reader.inQuote then .quote
      else if scanned.reader.inComment then .comment else .plain := by
    rw [Reader.place, isQuote, isComment]
  rw [isNext, isStack, isQuote, isComment]
  rw [scan] at isScanned
  cases quoted : reader.inQuote with
  | true =>
      have noComment : reader.inComment = false :=
        Bool.eq_false_iff.mpr fun is => one ⟨quoted, is⟩
      have isPlace : reader.place = .quote := by rw [Reader.place, if_pos quoted]
      rw [quoted, if_pos rfl] at isScanned
      cases isScanned
      rw [scanQuote, isPlace, Place.step]
      split
      · rename_i pair
        simp [quoted, noComment, pair]
      · split
        · rename_i closes
          subst closes
          simp [noComment]
        · split <;> simp [quoted, noComment]
  | false =>
      rw [quoted, if_neg Bool.false_ne_true] at isScanned
      cases commented : reader.inComment with
      | true =>
          have isPlace : reader.place = .comment := by
            rw [Reader.place, quoted, if_neg Bool.false_ne_true, if_pos commented]
          rw [commented, if_pos rfl] at isScanned
          cases isScanned
          rw [scanComment, isPlace, Place.step]
          split
          · rename_i pair
            simp [quoted, pair]
          · simp [quoted, commented]
      | false =>
          have isPlace : reader.place = .plain := by
            rw [Reader.place, quoted, commented]
            rfl
          rw [commented, if_neg Bool.false_ne_true] at isScanned
          rw [isPlace, Place.step]
          rcases scanPlain_cases isScanned with ⟨line, rfl⟩ | ⟨line, ⟨isSlash, isStar, rfl⟩ |
            ⟨comment, isOne,
              ⟨isBrace, rfl⟩ | ⟨noBrace, isChecked, sameQuote, sameComment, sameStack⟩⟩⟩
          · have noBrace : ch ≠ 125 := by
              rcases line with rfl | ⟨rfl, _⟩ <;> decide
            rw [if_pos line]
            simp [quoted, commented, noBrace]
          · rw [if_neg line, if_pos (And.intro isSlash isStar)]
            simp [quoted]
          · obtain ⟨openQuote, openComment, openStack⟩ := openBlock_spec position reader
            have noQuote : ch ≠ 34 := by rw [isBrace]; decide
            rw [if_neg line, if_neg comment, if_neg noQuote, if_pos isBrace]
            simp [openQuote, openComment, openStack, quoted, commented]
          · rw [if_neg line, if_neg comment, if_neg noBrace]
            simp only [isOne, isChecked, sameQuote, sameComment, sameStack, quoted, commented,
              Bool.false_or]
            by_cases quote : ch = 34
            · subst quote
              simp
            · by_cases brace : ch = 125
              · subst brace
                simp
              · simp [quote, brace]

theorem lineEnd_spec (ended : lineEnd env position mark reader = .ok next) :
    next.inQuote = reader.inQuote ∧ next.inComment = reader.inComment ∧
      next.stack.length = reader.stack.length := by
  cases mark with
  | start =>
      rw [lineEnd, readLine_nil] at ended
      cases ended
      exact ⟨rfl, rfl, rfl⟩
  | checked => simpa using check_spec ended
  | unchecked =>
      cases ended
      exact ⟨rfl, rfl, rfl⟩

/-! ## A whole text -/

theorem placeBehind_cons (place : Place) (depth : Nat) (c : UInt8) (text : Str) :
    placeBehind place depth (c :: text) =
      let step := place.step depth c text.head?
      placeBehind step.1 step.2.1 (if step.2.2 then text.tail else text) := by
  rw [placeBehind]
  dsimp only
  split
  · cases text <;> rfl
  · rfl

theorem placeBehind_newline (place : Place) (depth : Nat) (text : Str) :
    placeBehind place depth (10 :: text) =
      placeBehind (if place = .rest then .plain else place) depth text := by
  rw [placeBehind_cons]
  cases place <;> simp [Place.step]

/-- Two texts end in the same place; a comment to the end of a line is as good as none. -/
def SamePlace (left right : Place × Nat) : Prop :=
  (left.1 = .quote ↔ right.1 = .quote) ∧ (left.1 = .comment ↔ right.1 = .comment) ∧
    left.2 = right.2

/-- A comment to the end of the line goes to the end of the line. -/
theorem placeBehind_rest (depth : Nat) (text : Str) :
    SamePlace (placeBehind .rest depth text)
      (placeBehind .plain depth (text.dropWhile (· ≠ 10))) := by
  induction text with
  | nil => exact ⟨by simp [placeBehind], by simp [placeBehind], rfl⟩
  | cons c text ih =>
      by_cases newline : c = 10
      · subst newline
        rw [List.dropWhile_cons_of_neg (by simp), placeBehind_newline, placeBehind_newline]
        exact ⟨Iff.rfl, Iff.rfl, rfl⟩
      · rw [List.dropWhile_cons_of_pos (by simpa using newline), placeBehind_cons]
        simpa [Place.step, newline] using ih

theorem length_drop_le (advance : Advance) (text : Str) :
    (advance.drop text).length ≤ text.length := by
  cases advance with
  | one => exact Nat.le_refl _
  | two =>
      rw [Advance.drop, List.length_tail]
      exact Nat.sub_le _ _
  | line => exact (List.dropWhile_sublist _).length_le

/-- Where the parser is. -/
def Reader.behind (reader : Reader) : Place × Nat :=
  (reader.place, reader.stack.length)

/-- The parser follows the description of the format to the end of a text. -/
theorem placeBehind_of_readFrom {text : Str} {final : Reader}
    (one : ¬ (reader.inQuote = true ∧ reader.inComment = true))
    (read : readFrom env position mark reader text = .ok final) :
    SamePlace (placeBehind reader.place reader.stack.length text) final.behind := by
  induction size : text.length using Nat.strong_induction_on
    generalizing text position mark reader with
  | _ bound ih =>
  cases text with
  | nil =>
      rw [readFrom_nil] at read
      obtain ⟨sameQuote, sameComment, sameStack⟩ := lineEnd_spec read
      rw [placeBehind, Reader.behind, Reader.place, Reader.place, sameQuote, sameComment, sameStack]
      exact ⟨Iff.rfl, Iff.rfl, rfl⟩
  | cons c text =>
      by_cases newline : c = 10
      · subst newline
        rw [readFrom_newline] at read
        cases ended : lineEnd env position mark reader with
        | error e =>
            rw [ended] at read
            exact nomatch read
        | ok next =>
            rw [ended] at read
            obtain ⟨sameQuote, sameComment, sameStack⟩ := lineEnd_spec ended
            have samePlace : next.place = reader.place := by
              rw [Reader.place, Reader.place, sameQuote, sameComment]
            have behind := ih text.length (by simp [← size]) (by rwa [sameQuote, sameComment])
              read rfl
            have notRest : reader.place ≠ .rest := by
              rw [Reader.place]
              split <;> [skip; split] <;> exact fun is => nomatch is
            rw [placeBehind_newline, if_neg notRest, ← samePlace, ← sameStack]
            exact behind
      · by_cases skipped : mark = .start ∧ reader.inQuote = true ∧ isSpace c = true
        · obtain ⟨rfl, quoted, space⟩ := skipped
          have noEscape : c ≠ 92 := by
            rintro rfl
            exact absurd space (by decide)
          have noQuote : c ≠ 34 := by
            rintro rfl
            exact absurd space (by decide)
          have isPlace : reader.place = .quote := by rw [Reader.place, if_pos quoted]
          rw [readFrom_space newline quoted space] at read
          have behind := ih text.length (by simp [← size]) one read rfl
          rw [isPlace] at behind
          rw [isPlace, placeBehind_cons, Place.step, if_neg (by simp [noEscape]), if_neg noQuote]
          exact behind
        · have started : mark = .start → reader.inQuote = true → isSpace c = false :=
            fun atStart quoted => Bool.eq_false_iff.mpr fun space =>
              skipped ⟨atStart, quoted, space⟩
          rw [readFrom_cons newline text started] at read
          cases isScanned : scan position.next reader c text.head? with
          | error e =>
              rw [isScanned] at read
              exact nomatch read
          | ok scanned =>
              rw [isScanned] at read
              change scanned.finish env position.next c false >>= _ = _ at read
              cases finished : scanned.finish env position.next c false with
              | error e =>
                  rw [finished] at read
                  exact nomatch read
              | ok next =>
                  rw [finished] at read
                  obtain ⟨oneNext, plain, step⟩ := place_step one isScanned finished
                  have shorter : (scanned.advance.drop text).length < bound := by
                    have := length_drop_le scanned.advance text
                    simp only [← size, List.length_cons]
                    omega
                  have behind := ih _ shorter oneNext read rfl
                  rw [placeBehind_cons, step]
                  cases advance : scanned.advance with
                  | one =>
                      rw [advance] at behind
                      exact behind
                  | two =>
                      rw [advance] at behind
                      exact behind
                  | line =>
                      rw [advance, plain advance] at behind
                      obtain ⟨quote, comment, depth⟩ := placeBehind_rest next.stack.length text
                      exact ⟨quote.trans behind.1, comment.trans behind.2.1, depth.trans behind.2.2⟩

/-- What the end of the file asks for. -/
theorem finish_eq_ok_iff {name : Str} {block : Block} :
    reader.finish name = .ok block ↔
      reader.inQuote = false ∧ reader.inComment = false ∧ reader.itemname = [] ∧
        reader.wordbuffer = [] ∧ reader.stack = [] ∧ reader.conf = block := by
  rw [Reader.finish]
  cases reader.inComment with
  | true => simp
  | false =>
      cases reader.inQuote with
      | true => simp
      | false =>
          by_cases words : reader.itemname = [] ∧ reader.wordbuffer = []
          · rw [words.1, words.2]
            rcases reader.stack with _ | ⟨_ | frame, stack⟩ <;> simp
          · rw [if_neg Bool.false_ne_true, if_neg Bool.false_ne_true, if_pos]
            · refine iff_of_false (fun is => nomatch is) fun is => words ⟨is.2.2.1, is.2.2.2.1⟩
            · rw [Bool.not_eq_true', Bool.not_eq_true', List.isEmpty_eq_false_iff,
                List.isEmpty_eq_false_iff, ← not_and_or]
              exact words

/-- A text that ends inside a quote, a comment or a block is not read. -/
theorem loadConf_of_endsInside (env : LoadEnv) (conf : Block) (name : Str) {text : Str}
    (inside : EndsInside text) : ∃ e, loadConf env conf name (text.splitOn 10) = .error e := by
  cases loaded : loadConf env conf name (text.splitOn 10) with
  | error e => exact ⟨e, rfl⟩
  | ok block =>
      rw [loadConf, readLines_eq_readFrom] at loaded
      cases read : readFrom env ⟨name, 1, 0⟩ .start
          ⟨conf, [], [], [], false, false, false⟩ text with
      | error e =>
          rw [read] at loaded
          exact nomatch loaded
      | ok final =>
          rw [read] at loaded
          change final.finish name = .ok block at loaded
          have behind := placeBehind_of_readFrom (by simp) read
          obtain ⟨noQuote, noComment, _, _, closed, _⟩ := finish_eq_ok_iff.mp loaded
          have isBehind : final.behind = (.plain, 0) := by
            rw [Reader.behind, Reader.place, noQuote, noComment, closed]
            rfl
          rw [isBehind] at behind
          obtain ⟨quote, comment, depth⟩ := behind
          rcases inside with is | is | is
          · exact nomatch quote.mp is
          · exact nomatch comment.mp is
          · exact absurd depth is

end Simulation

end Anope.Config
