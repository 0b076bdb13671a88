import Anope.Library.Split
import Anope.Text.Casemap

/-!
# Tokens of a message

`Text::ExpandTokens` replaces the tokens of a message of Discord, which stand in angle brackets, by
what a resolver answers.  Where the resolver gives no answer only the bracket is copied, and the
scan goes on inside the token.
-/

namespace Anope.Bridge

open Library.Split (append_cons_eq_cases cut cut_append cut_eq_none cut_eq_none_iff
  cut_eq_some_iff)

/-! ## The scan -/

/-- The arguments of the resolver. -/
structure Token where
  kind : UInt8
  id : Str
  name : Str
  deriving DecidableEq, Repr

/-- `numeric`. -/
def numeric (val : Str) : Bool :=
  !val.isEmpty && val.all fun chr => 48 ≤ chr && chr ≤ 57

/-- The kind, the identifier and the name that are read from the body of a token. -/
def readBody (body : Str) : Option Token :=
  if ascii "@&" <+: body then some ⟨38, body.drop 2, []⟩
  else if ascii "@!" <+: body then some ⟨64, body.drop 2, []⟩
  else if ascii "@" <+: body then some ⟨64, body.drop 1, []⟩
  else if ascii "#" <+: body then some ⟨35, body.drop 1, []⟩
  else if ascii "t:" <+: body then
    match cut 58 (body.drop 2) with
    | none => some ⟨116, body.drop 2, []⟩
    | some (id, name) => some ⟨116, id, name⟩
  else
    -- A custom emoji, which may be animated.
    let offset := if ascii "a:" <+: body then 2 else if ascii ":" <+: body then 1 else 0
    if offset = 0 then none
    else
      match cut 58 (body.drop offset) with
      | none => none
      | some (name, id) => some ⟨101, id, name⟩

/-- The token for which the resolver is called. -/
def readToken (body : Str) : Option Token :=
  match readBody body with
  | some token => if numeric token.id then some token else none
  | none => none

/-- What one pass of the loop does: it copies a character, maybe after it has asked the resolver
in vain, or it writes the answer of the resolver. -/
inductive Piece where
  | copied (chr : UInt8) (asked : Option Token)
  | replaced (body : Str) (token : Token)
  deriving DecidableEq, Repr

variable (resolve : Token → Str)

/-- The passes of the loop of `ExpandTokens`, from a place in the message on. -/
def pieces : Str → List Piece
  | [] => []
  | chr :: rest =>
      if chr ≠ 60 then .copied chr none :: pieces rest
      else
        match _closes : cut 62 rest with
        | none => (chr :: rest).map fun chr => .copied chr none
        | some (body, after) =>
            match readToken body with
            | none => .copied chr none :: pieces rest
            | some token =>
                if resolve token = [] then .copied chr (some token) :: pieces rest
                else .replaced body token :: pieces after
  termination_by str => str.length
  decreasing_by
    all_goals rw [List.length_cons]
    · exact Nat.lt_succ_self _
    · exact Nat.lt_succ_self _
    · exact Nat.lt_succ_self _
    · rw [(cut_eq_some_iff.mp _closes).1, List.length_append, List.length_cons]
      omega

/-- What a pass appends to the result. -/
def Piece.written : Piece → Str
  | .copied chr _ => [chr]
  | .replaced _ token => resolve token

/-- What a pass asks the resolver. -/
def Piece.asked : Piece → Option Token
  | .copied _ asked => asked
  | .replaced _ token => some token

/-- `Text::ExpandTokens`. -/
def expandTokens (str : Str) : Str :=
  (pieces resolve str).flatMap (Piece.written resolve)

/-- The calls of the resolver. -/
def resolverCalls (str : Str) : List Token :=
  (pieces resolve str).filterMap Piece.asked

/-! ## What a token is -/

/-- A number. -/
def IsNumber (id : Str) : Prop :=
  id ≠ [] ∧ ∀ chr ∈ id, 48 ≤ chr ∧ chr ≤ 57

/-- The bodies of tokens. -/
inductive IsToken : Str → Token → Prop
  | user {id} : IsNumber id → IsToken (ascii "@" ++ id) ⟨64, id, []⟩
  | nick {id} : IsNumber id → IsToken (ascii "@!" ++ id) ⟨64, id, []⟩
  | role {id} : IsNumber id → IsToken (ascii "@&" ++ id) ⟨38, id, []⟩
  | channel {id} : IsNumber id → IsToken (ascii "#" ++ id) ⟨35, id, []⟩
  | timestamp {id} : IsNumber id → IsToken (ascii "t:" ++ id) ⟨116, id, []⟩
  | styled {id style} : IsNumber id →
      IsToken (ascii "t:" ++ id ++ 58 :: style) ⟨116, id, style⟩
  | emoji {name id} : 58 ∉ name → IsNumber id →
      IsToken (ascii ":" ++ name ++ 58 :: id) ⟨101, id, name⟩
  | animated {name id} : 58 ∉ name → IsNumber id →
      IsToken (ascii "a:" ++ name ++ 58 :: id) ⟨101, id, name⟩

/-- No token starts at a place. -/
def Outside (str : Str) : Prop :=
  ∀ body after token, 62 ∉ body → str = 60 :: body ++ 62 :: after → ¬IsToken body token

/-- A body of a token for which the resolver has an answer. -/
def Answered (body : Str) : Prop :=
  ∃ token, IsToken body token ∧ resolve token ≠ []

/-- A body of a token for which the resolver has none. -/
def Unanswered (body : Str) : Prop :=
  ∃ token, IsToken body token ∧ resolve token = []

/-- A pass copies a character. -/
def Piece.Copies (piece : Piece) : Prop :=
  ∃ chr asked, piece = .copied chr asked

/-- A message is read in one pass: tokens with an answer are replaced, and everything else is left
as it is, whole tokens without an answer too. -/
inductive Reads : Str → List Piece → Prop
  | nil : Reads [] []
  | outside {chr rest passes} : Outside (chr :: rest) → Reads rest passes →
      Reads (chr :: rest) (.copied chr none :: passes)
  | answered {body token after passes} : 62 ∉ body → IsToken body token → resolve token ≠ [] →
      Reads after passes → Reads (60 :: body ++ 62 :: after) (.replaced body token :: passes)
  | unanswered {body token after passes copies} : 62 ∉ body → IsToken body token →
      resolve token = [] →
      (∀ piece ∈ copies, piece.Copies) →
      copies.flatMap (Piece.written resolve) = 60 :: body ++ [62] →
      Reads after passes → Reads (60 :: body ++ 62 :: after) (copies ++ passes)

/-- A token with an answer stands inside one without only where one with an answer is around
both. -/
def Clear (str : Str) : Prop :=
  ∀ before outer inner after, str = before ++ 60 :: outer ++ 60 :: inner ++ 62 :: after →
    62 ∉ outer → 62 ∉ inner → Unanswered resolve (outer ++ 60 :: inner) → Answered resolve inner →
    ∃ beyond front, before = beyond ++ 60 :: front ∧ 62 ∉ front ∧
      Answered resolve (front ++ 60 :: outer ++ 60 :: inner)

variable {resolve} {body after : Str} {token : Token}

theorem numeric_iff {id : Str} : numeric id = true ↔ IsNumber id := by
  rw [numeric, Bool.and_eq_true, Bool.not_eq_true', List.isEmpty_eq_false_iff, List.all_eq_true]
  simp [IsNumber]

theorem readToken_eq_some :
    readToken body = some token ↔ readBody body = some token ∧ IsNumber token.id := by
  rw [readToken, ← numeric_iff]
  split
  · rename_i read is
    rw [is, Option.ite_none_right_eq_some]
    constructor
    · rintro ⟨number, same⟩
      exact ⟨same, Option.some.inj same ▸ number⟩
    · rintro ⟨same, number⟩
      exact ⟨Option.some.inj same ▸ number, same⟩
  · rename_i none
    rw [none]
    constructor
    · intro impossible
      cases impossible
    · rintro ⟨impossible, _⟩
      cases impossible

theorem emoji_of_cut {text : Str}
    (read : (match cut 58 text with
      | none => none
      | some (name, id) => some (⟨101, id, name⟩ : Token)) = some token) :
    ∃ name id, text = name ++ 58 :: id ∧ 58 ∉ name ∧ token = ⟨101, id, name⟩ := by
  split at read
  · cases read
  · rename_i name id cuts
    cases read
    exact ⟨name, id, (cut_eq_some_iff.mp cuts).1, (cut_eq_some_iff.mp cuts).2, rfl⟩

/-- What is read is a token if its identifier is a number. -/
theorem isToken_of_readBody (read : readBody body = some token) (number : IsNumber token.id) :
    IsToken body token := by
  rw [readBody] at read
  split_ifs at read with role nick user channel timestamp animated emoji
  · obtain ⟨id, rfl⟩ := role
    cases read
    exact @IsToken.role id number
  · obtain ⟨id, rfl⟩ := nick
    cases read
    exact @IsToken.nick id number
  · obtain ⟨id, rfl⟩ := user
    cases read
    exact @IsToken.user id number
  · obtain ⟨id, rfl⟩ := channel
    cases read
    exact @IsToken.channel id number
  · obtain ⟨id, rfl⟩ := timestamp
    split at read
    · cases read
      exact @IsToken.timestamp id number
    · rename_i id' style cuts
      cases read
      rw [show id = id' ++ 58 :: style from (cut_eq_some_iff.mp cuts).1, ← List.append_assoc]
      exact .styled number
  · obtain ⟨rest, rfl⟩ := animated
    rcases emoji_of_cut read with ⟨name, id, isRest, noColon, rfl⟩
    rw [show rest = name ++ 58 :: id from isRest, ← List.append_assoc]
    exact .animated noColon number
  · obtain ⟨rest, rfl⟩ := emoji
    rcases emoji_of_cut read with ⟨name, id, isRest, noColon, rfl⟩
    rw [show rest = name ++ 58 :: id from isRest, ← List.append_assoc]
    exact .emoji noColon number
  · cases read

/-- No number has a character that is not a digit. -/
theorem IsNumber.not_mem {id : Str} (number : IsNumber id) {chr : UInt8}
    (notDigit : ¬(48 ≤ chr ∧ chr ≤ 57)) : chr ∉ id :=
  fun mem => notDigit (number.2 chr mem)

/-- The shapes of tokens are told apart by how they start. -/
theorem readBody_of_isToken (isToken : IsToken body token) : readBody body = some token := by
  cases isToken with
  | @user id number =>
      obtain ⟨chr, digits, rfl⟩ := List.exists_cons_of_ne_nil number.1
      have notRole : chr ≠ 38 := (List.ne_of_not_mem_cons (number.not_mem (by decide))).symm
      have notNick : chr ≠ 33 := (List.ne_of_not_mem_cons (number.not_mem (by decide))).symm
      simp [readBody, ascii, notRole.symm, notNick.symm]
  | nick number => simp [readBody, ascii]
  | role number => simp [readBody, ascii]
  | channel number => simp [readBody, ascii]
  | @timestamp id number =>
      have noColon : cut 58 id = none := cut_eq_none (number.not_mem (by decide))
      simp [readBody, ascii, noColon]
  | @styled id style number =>
      have cuts : cut 58 (id ++ 58 :: style) = some (id, style) :=
        cut_append (number.not_mem (by decide)) style
      simp [readBody, ascii, cuts]
  | @emoji name id noColon number =>
      have cuts : cut 58 (name ++ 58 :: id) = some (name, id) := cut_append noColon id
      simp [readBody, ascii, cuts]
  | @animated name id noColon number =>
      have cuts : cut 58 (name ++ 58 :: id) = some (name, id) := cut_append noColon id
      simp [readBody, ascii, cuts]

theorem IsToken.number (isToken : IsToken body token) : IsNumber token.id := by
  cases isToken <;> assumption

/-- The resolver is called for tokens, and for nothing else. -/
theorem readToken_iff : readToken body = some token ↔ IsToken body token := by
  rw [readToken_eq_some]
  constructor
  · rintro ⟨read, number⟩
    exact isToken_of_readBody read number
  · intro isToken
    exact ⟨readBody_of_isToken isToken, isToken.number⟩

theorem IsToken.unique {token' : Token} (isToken : IsToken body token)
    (isToken' : IsToken body token') : token = token' :=
  Option.some.inj ((readToken_iff.mpr isToken).symm.trans (readToken_iff.mpr isToken'))

/-! ## One pass -/

/-- A text is closed at one place. -/
theorem closed_unique {body' after' : Str} (noClose : 62 ∉ body) (noClose' : 62 ∉ body')
    (same : body ++ 62 :: after = body' ++ 62 :: after') : body = body' ∧ after = after' := by
  have cuts : cut 62 (body ++ 62 :: after) = some (body', after') := by
    rw [same]
    exact cut_append noClose' after'
  rw [cut_append noClose] at cuts
  cases cuts
  exact ⟨rfl, rfl⟩

theorem pieces_nil : pieces resolve [] = [] := by
  rw [pieces]

theorem pieces_of_ne {chr : UInt8} {rest : Str} (notOpen : chr ≠ 60) :
    pieces resolve (chr :: rest) = .copied chr none :: pieces resolve rest := by
  rw [pieces, if_pos notOpen]

theorem pieces_of_not_mem {rest : Str} (noClose : 62 ∉ rest) :
    pieces resolve rest = rest.map fun chr => .copied chr none := by
  induction rest with
  | nil => exact pieces_nil
  | cons chr rest ih =>
      by_cases opens : chr = 60
      · rw [pieces, if_neg (not_not.mpr opens)]
        split
        · rfl
        · rename_i closes
          rw [cut_eq_none (List.not_mem_of_not_mem_cons noClose)] at closes
          cases closes
      · rw [pieces_of_ne opens, ih (List.not_mem_of_not_mem_cons noClose)]
        rfl

theorem pieces_open (noClose : 62 ∉ body) :
    pieces resolve (60 :: body ++ 62 :: after) =
      match readToken body with
      | none => .copied 60 none :: pieces resolve (body ++ 62 :: after)
      | some token =>
          if resolve token = [] then
            .copied 60 (some token) :: pieces resolve (body ++ 62 :: after)
          else .replaced body token :: pieces resolve after := by
  rw [List.cons_append, pieces, if_neg (not_not.mpr rfl)]
  split
  · rename_i closes
    rw [cut_append noClose] at closes
    cases closes
  · rename_i closes
    rw [cut_append noClose] at closes
    cases closes
    rfl

theorem pieces_of_outside {chr : UInt8} {rest : Str} (outside : Outside (chr :: rest)) :
    pieces resolve (chr :: rest) = .copied chr none :: pieces resolve rest := by
  by_cases opens : chr = 60
  · subst opens
    cases closes : cut 62 rest with
    | none =>
        have noClose : 62 ∉ rest := cut_eq_none_iff.mp closes
        rw [pieces_of_not_mem noClose,
          pieces_of_not_mem fun mem => noClose ((List.mem_cons.mp mem).resolve_left (by decide))]
        rfl
    | some found =>
        rcases found with ⟨body, after⟩
        obtain ⟨rfl, noClose⟩ := cut_eq_some_iff.mp closes
        have notToken : readToken body = none := by
          refine Option.eq_none_iff_forall_ne_some.mpr fun token read => ?_
          exact outside body after token noClose rfl (readToken_iff.mp read)
        rw [← List.cons_append, pieces_open noClose, notToken]
  · exact pieces_of_ne opens

theorem pieces_unanswered (noClose : 62 ∉ body) (isToken : IsToken body token)
    (none : resolve token = []) :
    pieces resolve (60 :: body ++ 62 :: after) =
      .copied 60 (some token) :: pieces resolve (body ++ 62 :: after) := by
  rw [pieces_open noClose, readToken_iff.mpr isToken]
  exact if_pos none

theorem pieces_answered (noClose : 62 ∉ body) (isToken : IsToken body token)
    (answer : resolve token ≠ []) :
    pieces resolve (60 :: body ++ 62 :: after) =
      .replaced body token :: pieces resolve after := by
  rw [pieces_open noClose, readToken_iff.mpr isToken]
  exact if_neg answer

/-- A scan comes to a character outside, to a token with an answer, or to one without. -/
theorem scan_induct (resolve : Token → Str) {motive : Str → Prop} (nil : motive [])
    (outside : ∀ chr rest, Outside (chr :: rest) → motive rest → motive (chr :: rest))
    (answered : ∀ body token after, 62 ∉ body → IsToken body token → resolve token ≠ [] →
      motive after → motive (60 :: body ++ 62 :: after))
    (unanswered : ∀ body token after, 62 ∉ body → IsToken body token → resolve token = [] →
      motive (body ++ 62 :: after) → motive after → motive (60 :: body ++ 62 :: after))
    (str : Str) : motive str := by
  induction length : str.length using Nat.strong_induction_on generalizing str with
  | _ count ih =>
      subst length
      cases str with
      | nil => exact nil
      | cons chr rest =>
          by_cases none : Outside (chr :: rest)
          · exact outside chr rest none (ih _ (Nat.lt_succ_self _) rest rfl)
          · simp only [Outside, not_forall, not_not] at none
            obtain ⟨body, after, token, noClose, isStr, isToken⟩ := none
            rw [isStr] at ih ⊢
            have shorter : after.length < (60 :: body ++ 62 :: after).length := by
              rw [List.length_append, List.length_cons, List.length_cons]
              omega
            by_cases answer : resolve token = []
            · exact unanswered body token after noClose isToken answer
                (ih _ (Nat.lt_succ_self _) _ rfl) (ih _ shorter after rfl)
            · exact answered body token after noClose isToken answer (ih _ shorter after rfl)

/-! ## Inside a token -/

theorem length_written_of_copies {passes : List Piece}
    (copies : ∀ piece ∈ passes, piece.Copies) :
    (passes.flatMap (Piece.written resolve)).length = passes.length := by
  induction passes with
  | nil => rfl
  | cons piece passes ih =>
      obtain ⟨chr, asked, rfl⟩ := copies piece List.mem_cons_self
      rw [List.flatMap_cons, List.length_append,
        ih fun other mem => copies other (List.mem_cons_of_mem _ mem), List.length_cons]
      exact Nat.add_comm 1 _

/-- No token with an answer starts in a text and ends where the text does. -/
def NoneAnswered (resolve : Token → Str) (body : Str) : Prop :=
  ∀ outer inner, body = outer ++ 60 :: inner → ¬Answered resolve inner

/-- Where no token with an answer starts, a character is copied. -/
theorem pieces_cons {chr : UInt8} {rest : Str} (none : ∀ body after, 62 ∉ body →
      chr :: rest = 60 :: body ++ 62 :: after → ¬Answered resolve body) :
    ∃ asked, pieces resolve (chr :: rest) = .copied chr asked :: pieces resolve rest := by
  by_cases outside : Outside (chr :: rest)
  · exact ⟨_, pieces_of_outside outside⟩
  · simp only [Outside, not_forall, not_not] at outside
    obtain ⟨body, after, token, noClose, isStr, isToken⟩ := outside
    have noAnswer : resolve token = [] := by
      by_contra answer
      exact none body after noClose isStr ⟨token, isToken, answer⟩
    rw [isStr, pieces_unanswered noClose isToken noAnswer]
    cases isStr
    exact ⟨_, rfl⟩

theorem pieces_append_of_noneAnswered (noClose : 62 ∉ body)
    (none : NoneAnswered resolve body) (after : Str) :
    ∃ copies, pieces resolve (body ++ 62 :: after) = copies ++ pieces resolve after ∧
      (∀ piece ∈ copies, piece.Copies) ∧
      copies.flatMap (Piece.written resolve) = body ++ [62] := by
  induction body with
  | nil =>
      refine ⟨[.copied 62 Option.none], ?_, ?_, rfl⟩
      · exact pieces_of_ne (by decide)
      · exact List.forall_mem_singleton.mpr ⟨62, _, rfl⟩
  | cons chr body ih =>
      have noClose' := List.not_mem_of_not_mem_cons noClose
      obtain ⟨copies, isPieces, copied, written⟩ := ih noClose' fun outer inner isBody =>
        none (chr :: outer) inner (congrArg (chr :: ·) isBody)
      have one : ∃ asked, pieces resolve (chr :: (body ++ 62 :: after)) =
          .copied chr asked :: pieces resolve (body ++ 62 :: after) := by
        refine pieces_cons fun body' after' noClose'' isStr answered => ?_
        rw [List.cons_append] at isStr
        obtain ⟨rfl, isRest⟩ := List.cons.inj isStr
        obtain ⟨rfl, rfl⟩ := closed_unique noClose' noClose'' isRest
        exact none [] body rfl answered
      obtain ⟨asked, isCons⟩ := one
      refine ⟨.copied chr asked :: copies, ?_, ?_, ?_⟩
      · rw [List.cons_append, isCons, isPieces, List.cons_append]
      · exact List.forall_mem_cons.mpr ⟨⟨chr, asked, rfl⟩, copied⟩
      · rw [List.flatMap_cons, written]
        rfl

theorem pieces_append_of_answered {outer inner : Str} (noClose : 62 ∉ outer ++ 60 :: inner)
    (answered : Answered resolve inner) (after : Str) :
    ∃ copies body token passes,
      pieces resolve (outer ++ 60 :: inner ++ 62 :: after) =
        copies ++ .replaced body token :: passes ∧ copies.length ≤ outer.length := by
  induction outer with
  | nil =>
      obtain ⟨token, isToken, answer⟩ := answered
      refine ⟨[], inner, token, pieces resolve after, ?_, Nat.le_refl _⟩
      exact pieces_answered (List.not_mem_of_not_mem_cons noClose) isToken answer
  | cons chr outer ih =>
      by_cases first : ∃ body after', 62 ∉ body ∧
          chr :: (outer ++ 60 :: inner ++ 62 :: after) = 60 :: body ++ 62 :: after' ∧
          Answered resolve body
      · obtain ⟨body, after', noClose', isStr, token, isToken, answer⟩ := first
        refine ⟨[], body, token, pieces resolve after', ?_, Nat.zero_le _⟩
        rw [List.cons_append, List.cons_append, isStr, pieces_answered noClose' isToken answer]
        rfl
      · obtain ⟨copies, body, token, passes, isPieces, shorter⟩ :=
          ih (List.not_mem_of_not_mem_cons noClose)
        have one : ∃ asked, pieces resolve (chr :: (outer ++ 60 :: inner ++ 62 :: after)) =
            .copied chr asked :: pieces resolve (outer ++ 60 :: inner ++ 62 :: after) :=
          pieces_cons fun body after' noClose' isStr answered =>
            first ⟨body, after', noClose', isStr, answered⟩
        obtain ⟨asked, isCons⟩ := one
        refine ⟨.copied chr asked :: copies, body, token, passes, ?_, Nat.succ_le_succ shorter⟩
        rw [List.cons_append, List.cons_append, isCons, isPieces, List.cons_append]

/-- Where a whole text is copied, no token with an answer starts in it. -/
theorem noneAnswered_of_copies {copies passes : List Piece} (noClose : 62 ∉ body)
    (isPieces : pieces resolve (body ++ 62 :: after) = copies ++ passes)
    (copied : ∀ piece ∈ copies, piece.Copies) (length : copies.length = body.length + 1) :
    NoneAnswered resolve body ∧ passes = pieces resolve after := by
  have none : NoneAnswered resolve body := by
    rintro outer inner rfl answered
    obtain ⟨copies', body', token, passes', isPieces', shorter⟩ :=
      pieces_append_of_answered noClose answered after
    rw [List.length_append, List.length_cons] at length
    rcases List.append_eq_append_iff.mp (isPieces.symm.trans isPieces') with
      ⟨more, rfl, _⟩ | ⟨more, rfl, isRest⟩
    · rw [List.length_append] at shorter
      omega
    · cases more with
      | nil =>
          rw [List.append_nil] at length
          omega
      | cons piece more =>
          have mem : piece ∈ copies' ++ piece :: more :=
            List.mem_append_right _ List.mem_cons_self
          obtain ⟨chr, asked, rfl⟩ := copied piece mem
          cases isRest
  refine ⟨none, ?_⟩
  obtain ⟨copies', isPieces', copied', written⟩ :=
    pieces_append_of_noneAnswered noClose none after
  have length' := congrArg List.length written
  rw [length_written_of_copies copied', List.length_append, List.length_singleton] at length'
  exact (List.append_inj (isPieces.symm.trans isPieces') (length.trans length'.symm)).2

/-! ## What is read -/

theorem reads_outside_iff {chr : UInt8} {rest : Str} {passes : List Piece}
    (outside : Outside (chr :: rest)) :
    Reads resolve (chr :: rest) (.copied chr none :: passes) ↔ Reads resolve rest passes := by
  constructor
  · intro reads
    generalize isStr : chr :: rest = str at reads
    generalize isPasses : Piece.copied chr none :: passes = all at reads
    cases reads with
    | nil => cases isStr
    | outside _ reads =>
        cases isStr
        cases isPasses
        exact reads
    | answered noClose isToken => exact absurd isToken (outside _ _ _ noClose isStr)
    | unanswered noClose isToken => exact absurd isToken (outside _ _ _ noClose isStr)
  · exact .outside outside

theorem reads_answered_iff {passes : List Piece} (noClose : 62 ∉ body)
    (isToken : IsToken body token) (answer : resolve token ≠ []) :
    Reads resolve (60 :: body ++ 62 :: after) (.replaced body token :: passes) ↔
      Reads resolve after passes := by
  constructor
  · intro reads
    generalize isStr : 60 :: body ++ 62 :: after = str at reads
    generalize isPasses : Piece.replaced body token :: passes = all at reads
    cases reads with
    | nil => cases isStr
    | outside outside => cases isPasses
    | answered noClose' isToken' answer' reads =>
        cases isPasses
        rw [(closed_unique noClose noClose' (List.cons.inj isStr).2).2]
        exact reads
    | unanswered noClose' isToken' none =>
        obtain ⟨rfl, _⟩ := closed_unique noClose noClose' (List.cons.inj isStr).2
        rw [isToken.unique isToken'] at answer
        exact absurd none answer
  · exact .answered noClose isToken answer

/-- A token without an answer is left as it is where none with an answer is inside. -/
theorem reads_unanswered_iff (noClose : 62 ∉ body) (isToken : IsToken body token)
    (none : resolve token = []) :
    Reads resolve (60 :: body ++ 62 :: after)
        (pieces resolve (60 :: body ++ 62 :: after)) ↔
      NoneAnswered resolve body ∧ Reads resolve after (pieces resolve after) := by
  constructor
  · intro reads
    have isPieces : pieces resolve (60 :: body ++ 62 :: after) =
        .copied 60 (some token) :: pieces resolve (body ++ 62 :: after) :=
      pieces_unanswered noClose isToken none
    generalize isAll : pieces resolve (60 :: body ++ 62 :: after) = all at reads
    generalize isStr : 60 :: body ++ 62 :: after = str at reads
    cases reads with
    | nil => cases isStr
    | outside outside => exact absurd isToken (outside _ _ _ noClose isStr.symm)
    | answered noClose' isToken' answer =>
        obtain ⟨rfl, _⟩ := closed_unique noClose noClose' (List.cons.inj isStr).2
        rw [isToken.unique isToken'] at none
        exact absurd none answer
    | @unanswered body' token' after' passes copies noClose' isToken' none' copied written reads =>
        obtain ⟨rfl, rfl⟩ := closed_unique noClose noClose' (List.cons.inj isStr).2
        have length := congrArg List.length written
        rw [length_written_of_copies copied, List.length_append, List.length_cons,
          List.length_singleton] at length
        cases copies with
        | nil => cases length
        | cons piece copies =>
            rw [List.cons_append] at isAll isPieces
            obtain ⟨_, isRest⟩ := List.cons.inj (isPieces.symm.trans isAll)
            obtain ⟨noneAnswered, rfl⟩ := noneAnswered_of_copies noClose isRest
              (fun other mem => copied other (List.mem_cons_of_mem _ mem)) (Nat.succ.inj length)
            exact ⟨noneAnswered, reads⟩
  · rintro ⟨noneAnswered, reads⟩
    obtain ⟨copies, isPieces, copied, written⟩ :=
      pieces_append_of_noneAnswered noClose noneAnswered after
    rw [pieces_unanswered noClose isToken none, isPieces, ← List.cons_append]
    refine .unanswered noClose isToken none ?_ ?_ reads
    · exact List.forall_mem_cons.mpr ⟨⟨60, _, rfl⟩, copied⟩
    · rw [List.flatMap_cons, written]
      rfl

/-! ## Where tokens stand inside tokens -/

theorem Clear.nil : Clear resolve [] := by
  intro before outer inner after isStr
  cases before <;> cases isStr

theorem clear_outside_iff {chr : UInt8} {rest : Str} (outside : Outside (chr :: rest)) :
    Clear resolve (chr :: rest) ↔ Clear resolve rest := by
  constructor
  · intro clear before outer inner after isRest noClose noClose' unanswered answered
    obtain ⟨beyond, front, isBefore, noCloseFront, around⟩ := clear (chr :: before) outer inner
      after (congrArg (chr :: ·) isRest) noClose noClose' unanswered answered
    cases beyond with
    | nil =>
        obtain ⟨rfl, rfl⟩ := List.cons.inj isBefore
        obtain ⟨token, isToken, _⟩ := around
        refine absurd isToken (outside _ after token ?_ (congrArg (60 :: ·) isRest))
        simp [noClose, noClose', noCloseFront]
    | cons first beyond =>
        exact ⟨beyond, front, (List.cons.inj isBefore).2, noCloseFront, around⟩
  · intro clear before outer inner after isStr noClose noClose' unanswered answered
    cases before with
    | nil =>
        obtain ⟨token, isToken, _⟩ := unanswered
        refine absurd isToken (outside _ after token ?_ isStr)
        simp [noClose, noClose']
    | cons first before =>
        obtain ⟨beyond, front, rfl, noCloseFront, around⟩ := clear before outer inner after
          (List.cons.inj isStr).2 noClose noClose' unanswered answered
        exact ⟨first :: beyond, front, rfl, noCloseFront, around⟩

/-- Behind the end of a token a message is read anew. -/
theorem clear_append_iff {region : Str} (noClose : 62 ∉ region)
    (clearIn : ∀ before outer inner, region = before ++ 60 :: outer ++ 60 :: inner →
      Unanswered resolve (outer ++ 60 :: inner) → Answered resolve inner →
      ∃ beyond front, before = beyond ++ 60 :: front ∧
        Answered resolve (front ++ 60 :: outer ++ 60 :: inner)) :
    Clear resolve (region ++ 62 :: after) ↔ Clear resolve after := by
  constructor
  · intro clear before outer inner after' isAfter noCloseOuter noCloseInner unanswered answered
    have isStr : region ++ 62 :: after =
        region ++ 62 :: before ++ 60 :: outer ++ 60 :: inner ++ 62 :: after' := by
      simp [isAfter]
    obtain ⟨beyond, front, isBefore, noCloseFront, around⟩ :=
      clear _ outer inner after' isStr noCloseOuter noCloseInner unanswered answered
    rcases append_cons_eq_cases isBefore with
      ⟨_, impossible, _⟩ | ⟨between, _, isBefore'⟩ | ⟨between, _, isFront⟩
    · cases impossible
    · exact ⟨between, front, isBefore', noCloseFront, around⟩
    · rw [isFront] at noCloseFront
      exact absurd (List.mem_append_right between List.mem_cons_self) noCloseFront
  · intro clear before outer inner after' isStr noCloseOuter noCloseInner unanswered answered
    rcases append_cons_eq_cases isStr with
      ⟨isRegion, _, _⟩ | ⟨between, isFront, isAfter⟩ | ⟨between, isRegion, _⟩
    · obtain ⟨beyond, front, rfl, around⟩ := clearIn before outer inner isRegion unanswered answered
      refine ⟨beyond, front, rfl, fun mem => noClose ?_, around⟩
      rw [isRegion]
      simp [mem]
    · rw [List.append_assoc, List.cons_append] at isFront
      rcases append_cons_eq_cases isFront with
        ⟨_, impossible, _⟩ | ⟨between', _, isRest⟩ | ⟨between', isBetween, isRest⟩
      · cases impossible
      · have mem : 62 ∈ outer ++ 60 :: inner := by simp [isRest]
        simp [noCloseOuter, noCloseInner] at mem
      · obtain ⟨beyond, front, isBefore, noCloseFront, around⟩ := clear between' outer inner after'
          (by simp [isAfter, isRest]) noCloseOuter noCloseInner unanswered answered
        refine ⟨region ++ 62 :: beyond, front, ?_, noCloseFront, around⟩
        simp [isBetween, isBefore]
    · refine absurd ?_ noClose
      rw [isRegion]
      exact List.mem_append_right _ List.mem_cons_self

theorem clear_answered_iff (noClose : 62 ∉ body) (answered : Answered resolve body) :
    Clear resolve (60 :: body ++ 62 :: after) ↔ Clear resolve after := by
  refine clear_append_iff (by simp [noClose]) fun before outer inner isBody unanswered _ => ?_
  cases before with
  | nil =>
      obtain ⟨token, isToken, answer⟩ := answered
      obtain ⟨token', isToken', none⟩ := unanswered
      obtain rfl := (List.cons.inj isBody).2
      rw [isToken.unique isToken'] at answer
      exact absurd none answer
  | cons first front =>
      obtain ⟨rfl, rfl⟩ := List.cons.inj isBody
      exact ⟨[], front, rfl, answered⟩

theorem clear_unanswered_iff (noClose : 62 ∉ body) (unanswered : Unanswered resolve body) :
    Clear resolve (60 :: body ++ 62 :: after) ↔
      NoneAnswered resolve body ∧ Clear resolve after := by
  have behind (none : NoneAnswered resolve body) :
      Clear resolve (60 :: body ++ 62 :: after) ↔ Clear resolve after := by
    refine clear_append_iff (by simp [noClose]) fun before outer inner isBody _ answered => ?_
    cases before with
    | nil => exact absurd answered (none outer inner (List.cons.inj isBody).2)
    | cons first front =>
        refine absurd answered (none (front ++ 60 :: outer) inner ?_)
        exact (List.cons.inj isBody).2
  constructor
  · intro clear
    have none : NoneAnswered resolve body := by
      rintro outer inner rfl answered
      have noClose' : 62 ∉ outer ∧ 62 ∉ inner := by simpa using noClose
      obtain ⟨beyond, front, impossible, _⟩ :=
        clear [] outer inner after rfl noClose'.1 noClose'.2 unanswered answered
      cases beyond <;> cases impossible
    exact ⟨none, (behind none).mp clear⟩
  · rintro ⟨none, clear⟩
    exact (behind none).mpr clear

/-! ## Expansion -/

/-- The claims of the scan: the resolver is asked for numbers only, a message is read in one pass,
and what stands behind the first token is expanded on its own. -/
structure ExpandsOnce (resolve : Token → Str) (str : Str) : Prop where
  numbers : ∀ token ∈ resolverCalls resolve str, IsNumber token.id
  reads : Reads resolve str (pieces resolve str)
  append : ∀ before body token after, str = before ++ (60 :: body ++ 62 :: after) →
    60 ∉ before → 62 ∉ body → IsToken body token →
    expandTokens resolve str =
      before ++ (if resolve token = [] then 60 :: body ++ [62] else resolve token) ++
        expandTokens resolve after

theorem reads_pieces_iff (str : Str) :
    Reads resolve str (pieces resolve str) ↔ Clear resolve str := by
  induction str using scan_induct resolve with
  | nil =>
      rw [pieces_nil]
      exact ⟨fun _ => .nil, fun _ => .nil⟩
  | outside chr rest outside ih =>
      rw [pieces_of_outside outside, reads_outside_iff outside, clear_outside_iff outside, ih]
  | answered body token after noClose isToken answer ih =>
      rw [pieces_answered noClose isToken answer, reads_answered_iff noClose isToken answer,
        clear_answered_iff noClose ⟨token, isToken, answer⟩, ih]
  | unanswered body token after noClose isToken none _ ih =>
      rw [reads_unanswered_iff noClose isToken none,
        clear_unanswered_iff noClose ⟨token, isToken, none⟩, ih]

/-- Every call of the resolver is for a token. -/
theorem exists_isToken_of_mem_resolverCalls (str : Str) :
    ∀ token ∈ resolverCalls resolve str, ∃ body, IsToken body token := by
  induction str using scan_induct resolve with
  | nil =>
      rw [resolverCalls, pieces_nil]
      exact List.forall_mem_nil _
  | outside chr rest outside ih =>
      rw [resolverCalls, pieces_of_outside outside]
      exact ih
  | answered body token after noClose isToken answer ih =>
      rw [resolverCalls, pieces_answered noClose isToken answer]
      exact List.forall_mem_cons.mpr ⟨⟨body, isToken⟩, ih⟩
  | unanswered body token after noClose isToken none ih _ =>
      rw [resolverCalls, pieces_unanswered noClose isToken none]
      exact List.forall_mem_cons.mpr ⟨⟨body, isToken⟩, ih⟩

theorem expandTokens_append {before : Str} (noOpen : 60 ∉ before) (rest : Str) :
    expandTokens resolve (before ++ rest) = before ++ expandTokens resolve rest := by
  induction before with
  | nil => rfl
  | cons chr before ih =>
      rw [List.cons_append, expandTokens, pieces_of_ne (List.ne_of_not_mem_cons noOpen).symm,
        List.flatMap_cons]
      exact congrArg (chr :: ·) (ih (List.not_mem_of_not_mem_cons noOpen))

theorem expandTokens_answered (noClose : 62 ∉ body) (isToken : IsToken body token)
    (answer : resolve token ≠ []) (after : Str) :
    expandTokens resolve (60 :: body ++ 62 :: after) =
      resolve token ++ expandTokens resolve after := by
  rw [expandTokens, pieces_answered noClose isToken answer]
  rfl

theorem expandTokens_unanswered (noClose : 62 ∉ body) (isToken : IsToken body token)
    (none : resolve token = []) (noneAnswered : NoneAnswered resolve body) (after : Str) :
    expandTokens resolve (60 :: body ++ 62 :: after) =
      60 :: body ++ [62] ++ expandTokens resolve after := by
  obtain ⟨copies, isPieces, _, written⟩ :=
    pieces_append_of_noneAnswered noClose noneAnswered after
  rw [expandTokens, pieces_unanswered noClose isToken none, isPieces, List.flatMap_cons,
    List.flatMap_append, written]
  rfl

/-- Behind a text without brackets nothing is around a token. -/
theorem Clear.of_append {before rest : Str} (noOpen : 60 ∉ before)
    (clear : Clear resolve (before ++ rest)) : Clear resolve rest := by
  induction before with
  | nil => exact clear
  | cons chr before ih =>
      have outside : Outside (chr :: (before ++ rest)) := by
        rintro body after token - isStr
        exact absurd (List.cons.inj isStr).1.symm (List.ne_of_not_mem_cons noOpen)
      exact ih (List.not_mem_of_not_mem_cons noOpen) ((clear_outside_iff outside).mp clear)

/-- Tokens are expanded in one pass exactly where none with an answer stands inside one
without. -/
theorem expandsOnce_iff_clear (resolve : Token → Str) (str : Str) :
    ExpandsOnce resolve str ↔ Clear resolve str := by
  constructor
  · intro once
    exact (reads_pieces_iff str).mp once.reads
  · intro clear
    refine ⟨?_, (reads_pieces_iff str).mpr clear, ?_⟩
    · intro token mem
      obtain ⟨body, isToken⟩ := exists_isToken_of_mem_resolverCalls str token mem
      exact isToken.number
    · rintro before body token after rfl noOpen noClose isToken
      rw [expandTokens_append noOpen, List.append_assoc]
      by_cases none : resolve token = []
      · have noneAnswered :=
          ((clear_unanswered_iff noClose ⟨token, isToken, none⟩).mp (clear.of_append noOpen)).1
        rw [if_pos none, expandTokens_unanswered noClose isToken none noneAnswered]
      · rw [if_neg none, expandTokens_answered noClose isToken none]

/-- A resolver that knows users, and no time in so far a future. -/
def knowsUsers (token : Token) : Str :=
  if token.kind = 64 then ascii "@alice" else []

/-- The user is expanded inside the time that is not. -/
theorem not_expandsOnce_userInTime :
    expandTokens knowsUsers (ascii "<t:99999999999999999999:<@123>") =
        ascii "<t:99999999999999999999:@alice" ∧
      ¬ExpandsOnce knowsUsers (ascii "<t:99999999999999999999:<@123>") := by
  have expanded : expandTokens knowsUsers (ascii "<t:99999999999999999999:<@123>") =
      ascii "<t:99999999999999999999:@alice" := by
    decide +kernel
  refine ⟨expanded, fun once => ?_⟩
  have whole := once.append [] (ascii "t:99999999999999999999:<@123")
    ⟨116, ascii "99999999999999999999", ascii "<@123"⟩ [] (by decide) (by decide) (by decide)
    (readToken_iff.mp (by decide))
  rw [expanded] at whole
  exact absurd whole (by decide +kernel)

end Anope.Bridge
