import Anope.Library.Split
import Anope.Text.Casemap
import Mathlib.Data.List.TakeWhile
import Mathlib.Logic.Function.Iterate

/-!
# Streams of tokens

`sepstream` gives the tokens of a string one by one.  It keeps the position behind the separator
of the last token; past the end of the string there are none left.
-/

namespace Anope.Text

open Library.Split

/-- `sepstream`. -/
structure Sepstream where
  tokens : Str
  sep : UInt8
  pos : Nat
  allowEmpty : Bool
  deriving DecidableEq, Repr

namespace Sepstream

/-! ## The stream -/

/-- The constructor. -/
def new (source : Str) (separator : UInt8) (allowEmpty : Bool) : Sepstream where
  tokens := source
  sep := separator
  pos := 0
  allowEmpty := allowEmpty

/-- `tokens.find(sep, pos)`. -/
def find (ss : Sepstream) (pos : Nat) : Option Nat :=
  ((ss.tokens.drop pos).findIdx? (· = ss.sep)).map (pos + ·)

/-- `tokens.find_first_not_of(sep, pos)`. -/
def findFirstNotOf (ss : Sepstream) (pos : Nat) : Option Nat :=
  ((ss.tokens.drop pos).findIdx? (· ≠ ss.sep)).map (pos + ·)

/-- `StreamEnd`. -/
def streamEnd (ss : Sepstream) : Bool :=
  ss.tokens.length < ss.pos

/-- The end of `GetToken`: the token from a place on, and the stream behind it. -/
def tokenFrom (ss : Sepstream) (pos : Nat) : Str × Sepstream :=
  let p := (ss.find pos).getD ss.tokens.length
  ((ss.tokens.drop pos).take (p - pos), { ss with pos := p + 1 })

/-- `GetToken`: the token that is fetched, and the stream behind it. -/
def getToken (ss : Sepstream) : Option Str × Sepstream :=
  if ss.streamEnd then (none, ss)
  else if ss.allowEmpty then (ss.tokenFrom ss.pos).map some id
  else
    match ss.findFirstNotOf ss.pos with
    | none => (none, { ss with pos := ss.tokens.length + 1 })
    | some pos => (ss.tokenFrom pos).map some id

/-- `GetRemaining`. -/
def getRemaining (ss : Sepstream) : Str :=
  if ss.streamEnd then [] else ss.tokens.drop ss.pos

/-- The stream after so many calls of `GetToken`. -/
def after (ss : Sepstream) (calls : Nat) : Sepstream :=
  (fun ss => ss.getToken.2)^[calls] ss

theorem lt_tokenFrom_pos {ss : Sepstream} {pos : Nat} (le : ss.pos ≤ pos)
    (inside : ss.pos ≤ ss.tokens.length) : ss.pos < (ss.tokenFrom pos).2.pos := by
  rw [tokenFrom, find]
  cases (ss.tokens.drop pos).findIdx? (· = ss.sep) with
  | none => exact Nat.lt_succ_of_le inside
  | some index => exact Nat.lt_succ_of_le (Nat.le_trans le (Nat.le_add_right pos index))

/-- A call that gives a token goes on in the same string. -/
theorem getToken_moves {ss behind : Sepstream} {token : Str}
    (got : ss.getToken = (some token, behind)) :
    behind.tokens = ss.tokens ∧ ss.pos ≤ ss.tokens.length ∧ ss.pos < behind.pos := by
  rw [getToken] at got
  split at got
  · cases got
  next goesOn =>
    have inside : ss.pos ≤ ss.tokens.length := by simpa [streamEnd] using goesOn
    split at got
    · cases got
      exact ⟨rfl, inside, lt_tokenFrom_pos (Nat.le_refl _) inside⟩
    · split at got
      · cases got
      next pos found =>
        cases got
        have le : ss.pos ≤ pos := by
          obtain ⟨index, _, rfl⟩ := Option.map_eq_some_iff.mp found
          exact Nat.le_add_right ss.pos index
        exact ⟨rfl, inside, lt_tokenFrom_pos le inside⟩

/-- `GetTokens`. -/
def getTokens (ss : Sepstream) : List Str :=
  match _got : ss.getToken with
  | (none, _) => []
  | (some token, behind) => token :: behind.getTokens
  termination_by ss.tokens.length + 1 - ss.pos
  decreasing_by
    obtain ⟨same, inside, moved⟩ := getToken_moves _got
    rw [same]
    omega

/-! ## What is left -/

/-- The text that the stream has not gone over yet; there is none past the end. -/
def rest (ss : Sepstream) : Option Str :=
  if ss.streamEnd then none else some (ss.tokens.drop ss.pos)

/-- The text before the first separator, and what is left behind it. -/
def piece (sep : UInt8) (text : Str) : Str × Option Str :=
  match cut sep text with
  | none => (text, none)
  | some (before, after) => (before, some after)

/-- The next token of a text, and what is left behind its separator. -/
def next (sep : UInt8) (allowEmpty : Bool) (text : Str) : Option (Str × Option Str) :=
  if allowEmpty then some (piece sep text)
  else
    match text.dropWhile (· = sep) with
    | [] => none
    | chr :: text => some (piece sep (chr :: text))

variable {ss : Sepstream} {text : Str}

theorem getRemaining_eq (ss : Sepstream) : ss.getRemaining = ss.rest.getD [] := by
  rw [getRemaining, rest]
  split <;> rfl

theorem rest_eq_some_iff : ss.rest = some text ↔
    ss.pos ≤ ss.tokens.length ∧ ss.tokens.drop ss.pos = text := by
  rw [rest, streamEnd]
  by_cases isEnd : ss.tokens.length < ss.pos
  · simp [isEnd]
  · simp [isEnd, Nat.not_lt.mp isEnd]

theorem rest_eq_none_iff : ss.rest = none ↔ ss.tokens.length < ss.pos := by
  rw [rest, streamEnd]
  by_cases isEnd : ss.tokens.length < ss.pos
  · simp [isEnd]
  · simp [isEnd]

theorem getToken_of_rest_eq_none (isEnd : ss.rest = none) : ss.getToken = (none, ss) := by
  rw [getToken, streamEnd, if_pos (decide_eq_true (rest_eq_none_iff.mp isEnd))]

theorem tokenFrom_eq {pos : Nat} (inside : pos ≤ ss.tokens.length) :
    (ss.tokenFrom pos).map id rest = piece ss.sep (ss.tokens.drop pos) := by
  rw [tokenFrom, find, piece, cut_eq_findIdx?]
  cases found : (ss.tokens.drop pos).findIdx? (· = ss.sep) with
  | none =>
      have whole : (ss.tokens.drop pos).take (ss.tokens.length - pos) = ss.tokens.drop pos :=
        List.take_of_length_le (List.length_drop ..).le
      have isEnd : { ss with pos := ss.tokens.length + 1 }.rest = none :=
        rest_eq_none_iff.mpr (Nat.lt_succ_self _)
      simp only [Option.map_none, Option.getD_none, whole, Prod.map_apply, id_eq, isEnd]
  | some index =>
      obtain ⟨isInside, _, _⟩ := List.findIdx?_eq_some_iff_getElem.mp found
      rw [List.length_drop] at isInside
      have isRest : { ss with pos := pos + index + 1 }.rest =
          some ((ss.tokens.drop pos).drop (index + 1)) := by
        apply rest_eq_some_iff.mpr
        constructor
        · change pos + index + 1 ≤ ss.tokens.length
          omega
        · rw [List.drop_drop, Nat.add_assoc]
      simp only [Option.map_some, Option.getD_some, Nat.add_sub_cancel_left, Prod.map_apply,
        id_eq, isRest]

/-- What a call of `GetToken` does, told by what is left. -/
theorem getToken_of_rest (isRest : ss.rest = some text) :
    ss.getToken.map id rest =
      match next ss.sep ss.allowEmpty text with
      | none => (none, none)
      | some (token, left) => (some token, left) := by
  obtain ⟨inside, isDrop⟩ := rest_eq_some_iff.mp isRest
  have goesOn : ss.streamEnd = false := decide_eq_false (Nat.not_lt.mpr inside)
  rw [getToken, goesOn, if_neg Bool.false_ne_true, next]
  by_cases mode : ss.allowEmpty = true
  · have token := tokenFrom_eq inside
    rw [isDrop] at token
    rw [if_pos mode, if_pos mode, ← token]
    rfl
  · rw [if_neg mode, if_neg mode, findFirstNotOf, isDrop, dropWhile_eq_findIdx?]
    cases found : text.findIdx? (· ≠ ss.sep) with
    | none =>
        have isEnd : { ss with pos := ss.tokens.length + 1 }.rest = none :=
          rest_eq_none_iff.mpr (Nat.lt_succ_self _)
        simp only [Option.map_none, Option.getD_none, Prod.map_apply, id_eq, isEnd]
    | some index =>
        obtain ⟨isInside, _, _⟩ := List.findIdx?_eq_some_iff_getElem.mp found
        have within : ss.pos + index ≤ ss.tokens.length := by
          rw [← isDrop, List.length_drop] at isInside
          omega
        have token := tokenFrom_eq within
        rw [← List.drop_drop, isDrop, List.drop_eq_getElem_cons isInside] at token
        simp only [Option.map_some, Option.getD_some]
        rw [List.drop_eq_getElem_cons isInside]
        dsimp only
        rw [← token]
        rfl

/-! ## Tokens of a text -/

/-- Separators that are passed over before a token. -/
structure Skipped (sep : UInt8) (allowEmpty : Bool) (seps : Str) : Prop where
  areSeps : ∀ chr ∈ seps, chr = sep
  none : allowEmpty = true → seps = []

/-- What can be a token. -/
structure IsToken (sep : UInt8) (allowEmpty : Bool) (token : Str) : Prop where
  noSep : sep ∉ token
  nonempty : allowEmpty = false → token ≠ []

/-- A text of tokens, each with its separator behind it, up to the next token. -/
inductive Passed (sep : UInt8) (allowEmpty : Bool) : Str → List Str → Prop
  | nil {seps : Str} : Skipped sep allowEmpty seps → Passed sep allowEmpty seps []
  | cons {seps token text : Str} {tokens : List Str} : Skipped sep allowEmpty seps →
      IsToken sep allowEmpty token → Passed sep allowEmpty text tokens →
      Passed sep allowEmpty (seps ++ (token ++ sep :: text)) (token :: tokens)

variable {sep : UInt8} {allowEmpty : Bool} {token : Str} {left : Option Str}

theorem next_eq_none (isNone : next sep allowEmpty text = none) :
    allowEmpty = false ∧ ∀ chr ∈ text, chr = sep := by
  rw [next] at isNone
  split at isNone
  · contradiction
  next mode =>
    refine ⟨Bool.eq_false_of_not_eq_true mode, ?_⟩
    split at isNone
    next noneLeft =>
      intro chr mem
      exact of_decide_eq_true (List.dropWhile_eq_nil_iff.mp noneLeft chr mem)
    · contradiction

/-- A token stands behind the separators that are passed over, and before a separator or the end
of the text. -/
theorem next_eq_some (isSome : next sep allowEmpty text = some (token, left)) :
    ∃ seps, Skipped sep allowEmpty seps ∧ IsToken sep allowEmpty token ∧
      match left with
      | none => text = seps ++ token
      | some after => text = seps ++ (token ++ sep :: after) := by
  have ofPiece : ∀ {text : Str}, piece sep text = (token, left) →
      sep ∉ token ∧ match left with
        | none => text = token
        | some after => text = token ++ sep :: after := by
    intro text isPiece
    rw [piece] at isPiece
    split at isPiece
    next absent =>
      cases isPiece
      exact ⟨cut_eq_none_iff.mp absent, rfl⟩
    next found =>
      cases isPiece
      obtain ⟨equal, absent⟩ := cut_eq_some_iff.mp found
      exact ⟨absent, equal⟩
  rw [next] at isSome
  split at isSome
  next mode =>
    obtain ⟨absent, equal⟩ := ofPiece (Option.some.inj isSome)
    refine ⟨[], ⟨by simp, fun _ => rfl⟩, ⟨absent, ?_⟩, equal⟩
    intro isFalse
    exact absurd (mode.symm.trans isFalse) Bool.true_eq_false.mp
  next mode =>
    have isFalse := Bool.eq_false_of_not_eq_true mode
    split at isSome
    · contradiction
    next chr rest isRest =>
      obtain ⟨absent, equal⟩ := ofPiece (Option.some.inj isSome)
      have whole : text.takeWhile (· = sep) ++ chr :: rest = text := by
        rw [← isRest, List.takeWhile_append_dropWhile]
      have different : chr ≠ sep := by
        have head := List.head?_dropWhile_not (· = sep) text
        rw [isRest] at head
        simpa using head
      refine ⟨text.takeWhile (· = sep), ⟨?_, ?_⟩, ⟨absent, ?_⟩, ?_⟩
      · intro other mem
        have passes := List.mem_takeWhile_imp mem
        exact of_decide_eq_true passes
      · intro isTrue
        exact absurd isTrue mode
      · rintro - rfl
        cases left with
        | none => contradiction
        | some after =>
            cases equal
            exact different rfl
      · cases left with
        | none => exact whole.symm.trans (congrArg _ equal)
        | some after => exact whole.symm.trans (congrArg _ equal)

/-! ## The tokens of a stream -/

/-- A call where some text is left. -/
theorem getToken_cases (isRest : ss.rest = some text) :
    (ss.getToken.1 = none ∧ ss.getToken.2.rest = none ∧ ss.allowEmpty = false ∧
      ∀ chr ∈ text, chr = ss.sep) ∨
    ∃ seps token, ss.getToken.1 = some token ∧ Skipped ss.sep ss.allowEmpty seps ∧
      IsToken ss.sep ss.allowEmpty token ∧
      (ss.getToken.2.rest = none ∧ text = seps ++ token ∨
        ∃ after, ss.getToken.2.rest = some after ∧ text = seps ++ (token ++ ss.sep :: after)) := by
  have call := getToken_of_rest isRest
  cases isNext : next ss.sep ss.allowEmpty text with
  | none =>
      rw [isNext] at call
      obtain ⟨mode, areSeps⟩ := next_eq_none isNext
      exact .inl ⟨congrArg Prod.fst call, congrArg Prod.snd call, mode, areSeps⟩
  | some found =>
      obtain ⟨token, left⟩ := found
      rw [isNext] at call
      obtain ⟨seps, skipped, isToken, split⟩ := next_eq_some isNext
      refine .inr ⟨seps, token, congrArg Prod.fst call, skipped, isToken, ?_⟩
      have isLeft : ss.getToken.2.rest = left := congrArg Prod.snd call
      cases left with
      | none => exact .inl ⟨isLeft, split⟩
      | some after => exact .inr ⟨after, isLeft, split⟩

theorem settings_getToken (ss : Sepstream) :
    ss.getToken.2.sep = ss.sep ∧ ss.getToken.2.allowEmpty = ss.allowEmpty := by
  rw [getToken]
  split
  · exact ⟨rfl, rfl⟩
  · split
    · exact ⟨rfl, rfl⟩
    · split <;> exact ⟨rfl, rfl⟩

theorem getTokens_of_none (noToken : ss.getToken.1 = none) : ss.getTokens = [] := by
  rw [getTokens]
  split
  · rfl
  next got =>
    rw [got] at noToken
    cases noToken

theorem getTokens_of_some (isToken : ss.getToken.1 = some token) :
    ss.getTokens = token :: ss.getToken.2.getTokens := by
  rw [getTokens]
  split
  next got =>
    rw [got] at isToken
    cases isToken
  next got =>
    rw [got] at isToken ⊢
    cases isToken
    rfl

theorem getTokens_of_rest_eq_none (isEnd : ss.rest = none) : ss.getTokens = [] :=
  getTokens_of_none (congrArg Prod.fst (getToken_of_rest_eq_none isEnd))

theorem rest_getToken_of_none (noToken : ss.getToken.1 = none) : ss.getToken.2.rest = none := by
  cases isRest : ss.rest with
  | none => rw [getToken_of_rest_eq_none isRest, isRest]
  | some text =>
      rcases getToken_cases isRest with ⟨_, isEnd, _⟩ | ⟨_, _, got, _⟩
      · exact isEnd
      · rw [noToken] at got
        cases got

/-- The tokens that a text is read as. -/
inductive Reads (sep : UInt8) (allowEmpty : Bool) : Str → List Str → Prop
  | none {text : Str} : allowEmpty = false → (∀ chr ∈ text, chr = sep) →
      Reads sep allowEmpty text []
  | last {seps token : Str} : Skipped sep allowEmpty seps → IsToken sep allowEmpty token →
      Reads sep allowEmpty (seps ++ token) [token]
  | cons {seps token after : Str} {tokens : List Str} : Skipped sep allowEmpty seps →
      IsToken sep allowEmpty token → Reads sep allowEmpty after tokens →
      Reads sep allowEmpty (seps ++ (token ++ sep :: after)) (token :: tokens)

theorem reads_getTokens (isRest : ss.rest = some text) :
    Reads ss.sep ss.allowEmpty text ss.getTokens := by
  induction ss using getTokens.induct generalizing text with
  | case1 ss behind got =>
      rcases getToken_cases isRest with ⟨isNone, _, mode, areSeps⟩ | ⟨_, _, isSome, _⟩
      · rw [getTokens_of_none isNone]
        exact .none mode areSeps
      · rw [got] at isSome
        cases isSome
  | case2 ss token behind got ih =>
      rcases getToken_cases isRest with ⟨isNone, _⟩ | ⟨seps, _, isSome, skipped, isToken, ends⟩
      · rw [got] at isNone
        cases isNone
      · rw [getTokens_of_some isSome]
        rcases ends with ⟨isEnd, rfl⟩ | ⟨after, isAfter, rfl⟩
        · rw [getTokens_of_rest_eq_none isEnd]
          exact .last skipped isToken
        · obtain ⟨sameSep, sameMode⟩ := settings_getToken ss
          rw [got] at isAfter sameSep sameMode ⊢
          have rest := ih isAfter
          rw [sameSep, sameMode] at rest
          exact .cons skipped isToken rest

variable {tokens : List Str}

theorem Reads.isToken (reads : Reads sep allowEmpty text tokens) (mem : token ∈ tokens) :
    IsToken sep allowEmpty token := by
  induction reads with
  | none => cases mem
  | last _ isToken =>
      rw [List.mem_singleton] at mem
      exact mem ▸ isToken
  | cons _ isToken _ ih =>
      rcases List.mem_cons.mp mem with rfl | mem
      · exact isToken
      · exact ih mem

/-- With empty tokens, the tokens joined by the separator are the text. -/
theorem Reads.intercalate_eq (reads : Reads sep true text tokens) :
    [sep].intercalate tokens = text ∧ tokens ≠ [] := by
  induction reads with
  | none mode => contradiction
  | last skipped =>
      refine ⟨?_, List.cons_ne_nil _ _⟩
      rw [skipped.none rfl]
      simp [List.intercalate]
  | @cons seps token after tokens skipped _ _ ih =>
      obtain ⟨joined, nonempty⟩ := ih
      refine ⟨?_, List.cons_ne_nil _ _⟩
      rw [skipped.none rfl, ← joined]
      cases tokens with
      | nil => exact absurd rfl nonempty
      | cons second tokens => simp [List.intercalate]

/-- Without them, the tokens are the runs of the text. -/
theorem Reads.runs (reads : Reads sep false text tokens) : Runs sep text tokens := by
  induction reads with
  | none _ areSeps => exact .nil areSeps
  | last skipped isToken => exact .last skipped.areSeps (isToken.nonempty rfl) isToken.noSep
  | cons skipped isToken _ ih =>
      exact .cons skipped.areSeps (isToken.nonempty rfl) isToken.noSep ih

theorem runs_getTokens_new (source : Str) (separator : UInt8) :
    Runs separator source (new source separator false).getTokens := by
  have whole : (new source separator false).rest = some source :=
    rest_eq_some_iff.mpr ⟨Nat.zero_le _, rfl⟩
  exact (reads_getTokens whole).runs

/-- A stream without empty tokens gives the pieces that are not empty. -/
theorem getTokens_new (source : Str) (separator : UInt8) :
    (new source separator false).getTokens = Library.Split.tokens separator source :=
  (runs_getTokens_new source separator).tokens_eq.symm

/-! ## What is left after some calls -/

theorem after_succ (ss : Sepstream) (calls : Nat) :
    ss.after (calls + 1) = ss.getToken.2.after calls :=
  rfl

/-- A call gives the token of its number. -/
theorem getTokens_getElem? (ss : Sepstream) (calls : Nat) :
    ss.getTokens[calls]? = (ss.after calls).getToken.1 := by
  induction calls generalizing ss with
  | zero =>
      cases first : ss.getToken.1 with
      | none =>
          rw [getTokens_of_none first]
          exact first.symm
      | some token =>
          rw [getTokens_of_some first]
          exact first.symm
  | succ calls ih =>
      rw [after_succ, ← ih]
      cases first : ss.getToken.1 with
      | none =>
          rw [getTokens_of_none first, getTokens_of_rest_eq_none (rest_getToken_of_none first)]
          rfl
      | some token => rw [getTokens_of_some first, List.getElem?_cons_succ]

example : ((new (ascii ",a,,b,") 44 false).after 1).getToken.1 = some (ascii "b") := by
  decide

/-- What is left behind the token of a call: the text behind its separator. -/
theorem remaining_of_token (isRest : ss.rest = some text) {calls : Nat}
    (got : (ss.after calls).getToken.1 = some token) :
    ∃ before, Passed ss.sep ss.allowEmpty before (ss.getTokens.take calls) ∧
      (text = before ++ (token ++ ss.sep :: (ss.after (calls + 1)).getRemaining) ∨
        text = before ++ token ∧ (ss.after (calls + 1)).getRemaining = []) := by
  induction calls generalizing ss text with
  | zero =>
      rcases getToken_cases isRest with ⟨isNone, _⟩ | ⟨seps, _, isSome, skipped, _, ends⟩
      · cases isNone.symm.trans got
      · cases isSome.symm.trans got
        refine ⟨seps, .nil skipped, ?_⟩
        change text = seps ++ (token ++ ss.sep :: ss.getToken.2.getRemaining) ∨
          text = seps ++ token ∧ ss.getToken.2.getRemaining = []
        rw [getRemaining_eq]
        rcases ends with ⟨isEnd, split⟩ | ⟨after, isAfter, split⟩
        · exact .inr ⟨split, by rw [isEnd, Option.getD_none]⟩
        · exact .inl (by rw [isAfter, Option.getD_some, split])
  | succ calls ih =>
      rw [after_succ] at got ⊢
      rcases getToken_cases isRest with
        ⟨_, isEnd, _⟩ | ⟨seps, first, isSome, skipped, isToken, ends⟩
      · have none := getTokens_getElem? ss.getToken.2 calls
        rw [got, getTokens_of_rest_eq_none isEnd] at none
        cases none
      · rcases ends with ⟨isEnd, _⟩ | ⟨after, isAfter, rfl⟩
        · have none := getTokens_getElem? ss.getToken.2 calls
          rw [got, getTokens_of_rest_eq_none isEnd] at none
          cases none
        · obtain ⟨before, passed, splits⟩ := ih isAfter got
          obtain ⟨sameSep, sameMode⟩ := settings_getToken ss
          rw [sameSep, sameMode] at passed
          rw [sameSep] at splits
          refine ⟨seps ++ (first ++ ss.sep :: before), ?_, ?_⟩
          · rw [getTokens_of_some isSome]
            exact .cons skipped isToken passed
          · rcases splits with split | ⟨split, isEmpty⟩
            · exact .inl (by rw [split]; simp)
            · exact .inr ⟨by rw [split]; simp, isEmpty⟩

/-- Tokenizing is exact. -/
theorem tokenizes (source : Str) (separator : UInt8) :
    ([separator].intercalate (new source separator true).getTokens = source ∧
      ∀ token ∈ (new source separator true).getTokens, separator ∉ token) ∧
    Runs separator source (new source separator false).getTokens ∧
    ∀ allowEmpty,
      (new source separator allowEmpty).getRemaining = source ∧
      ∀ calls,
        (new source separator allowEmpty).getTokens[calls]? =
          ((new source separator allowEmpty).after calls).getToken.1 ∧
        match ((new source separator allowEmpty).after calls).getToken.1 with
        | none => ((new source separator allowEmpty).after (calls + 1)).getRemaining = []
        | some token =>
            ∃ before,
              Passed separator allowEmpty before
                ((new source separator allowEmpty).getTokens.take calls) ∧
              (source = before ++ (token ++ separator ::
                  ((new source separator allowEmpty).after (calls + 1)).getRemaining) ∨
                source = before ++ token ∧
                  ((new source separator allowEmpty).after (calls + 1)).getRemaining = []) := by
  have whole : ∀ allowEmpty, (new source separator allowEmpty).rest = some source :=
    fun _ => rest_eq_some_iff.mpr ⟨Nat.zero_le _, rfl⟩
  have joined := reads_getTokens (whole true)
  have runs := reads_getTokens (whole false)
  refine ⟨⟨joined.intercalate_eq.1, fun token mem => (joined.isToken mem).noSep⟩, runs.runs, ?_⟩
  · intro allowEmpty
    refine ⟨by rw [getRemaining_eq, whole, Option.getD_some], fun calls => ?_⟩
    refine ⟨getTokens_getElem? _ calls, ?_⟩
    split
    next isNone =>
      have behind : (new source separator allowEmpty).after (calls + 1) =
          ((new source separator allowEmpty).after calls).getToken.2 :=
        Function.iterate_succ_apply' _ _ _
      rw [behind, getRemaining_eq, rest_getToken_of_none isNone, Option.getD_none]
    next token isSome => exact remaining_of_token (whole allowEmpty) isSome

end Sepstream

end Anope.Text
