import Anope.Bridge.Mentions
import Anope.Library.Utf8
import Anope.Text.Convert
import Anope.Text.Formatting

/-!
# Messages to Discord

`Relay` renders a line from IRC and sends it through a webhook, under the nickname of its author, or
from the account of the bot, with the nickname in front.  Discord rejects what has more than 2000
characters.  The line is cut for that, but without regard to the nickname.
-/

namespace Anope.Bridge

open Library.Utf8 (continues encode encode_cons exists_isSequence)
open Text (removeFormatting)
open Text.Convert (digitsValue isDigit)

/-! ## Escaping -/

/-- `md_state`. -/
inductive MdState where
  | normal
  | bigCodeBlock
  | smallCodeBlock
  deriving DecidableEq, Repr

/-- A delimiter opens a code block, or it ends the one that is open. -/
def MdState.delimit (block : MdState) : MdState → MdState
  | .normal => block
  | _ => .normal

/-- `markdown_chars`. -/
def markdownChars : Str :=
  ascii "\\*_|~[]()>"

/-- The loop of `markdown_escape`. -/
def markdownEscapeFrom (escapeCodeBlocks : Bool) (state : MdState) : Str → Str
  | [] => []
  | chr :: rest =>
      if ascii "```" <+: chr :: rest then
        (if escapeCodeBlocks then ascii "\\`\\`\\`" else ascii "```") ++
          markdownEscapeFrom escapeCodeBlocks (MdState.bigCodeBlock.delimit state) (rest.drop 2)
      else if chr = 96 ∧ (escapeCodeBlocks = true ∨ state ≠ .bigCodeBlock) then
        (if escapeCodeBlocks then ascii "\\`" else ascii "`") ++
          markdownEscapeFrom escapeCodeBlocks (MdState.smallCodeBlock.delimit state) rest
      else
        (if (escapeCodeBlocks = true ∨ state = .normal) ∧ markdownChars.contains chr then [92]
          else []) ++
          chr :: markdownEscapeFrom escapeCodeBlocks state rest
  termination_by text => text.length
  decreasing_by
    · rw [List.length_drop, List.length_cons]
      omega
    · exact Nat.lt_succ_self _
    · exact Nat.lt_succ_self _

/-- `dpp::utility::markdown_escape`. -/
def markdownEscape (text : Str) (escapeCodeBlocks : Bool) : Str :=
  markdownEscapeFrom escapeCodeBlocks .normal text

/-- A marker of a heading, of a list or of a numbered list. -/
def startsBlock : Str → Bool
  | [] => false
  | chr :: rest =>
      chr == 35 || chr == 45 || chr == 43 ||
        isDigit chr && (rest.dropWhile isDigit).head? == some 46

/-- `Text::EscapeLineStart`. -/
def escapeLineStart (str : Str) : Str :=
  if startsBlock str then 92 :: str else str

/-! ## Cutting -/

/-- The loop of `TruncateCodePoints`, behind a number of characters. -/
def truncateFrom (maxchars : Nat) : Nat → Str → Str
  | _, [] => []
  | chars, byte :: rest =>
      if continues byte then byte :: truncateFrom maxchars chars rest
      else if chars = maxchars then []
      else byte :: truncateFrom maxchars (chars + 1) rest

/-- `Text::TruncateCodePoints`. -/
def truncateCodePoints (str : Str) (maxchars : Nat) : Str :=
  truncateFrom maxchars 0 str

/-- `slashes`: the backslashes at the end of a text. -/
def slashes (text : Str) : Nat :=
  (text.reverse.takeWhile (· = 92)).length

/-- A trailing escape is dropped. -/
def dropEscape (text : Str) : Str :=
  if slashes text % 2 ≠ 0 then text.dropLast else text

/-! ## Rendering -/

/-- The snowflake of a text; zero if the text does not start with a number of 64 bits. -/
def snowflake (text : Str) : Nat :=
  let value := digitsValue (text.takeWhile isDigit)
  if value < 2 ^ 64 then value else 0

/-- What `QuotedMessage` tells of a message. -/
structure Quoted where
  author : Str
  excerpt : Str
  thread : Str

/-- What `Relay` asks the protocol and the core. -/
structure RelayView where
  /-- There is a cluster, and it is connected. -/
  online : Bool
  relayMentions : Bool
  remoteIdForNick : Str → Str
  remoteIdFor : Str → Str
  quotedMessage : Str → Option Quoted

/-- The fields of a bridge that `Relay` reads. -/
structure RelayBridge where
  foreignChannel : Str
  space : Str
  endpointId : Str

/-- `BridgeOutbound`, up to the id of the message. -/
structure BridgeOutbound where
  nick : Str
  text : Str
  action : Bool
  replyTo : Str

/-- The answer for a nickname that `RenderMentions` gives. -/
def resolveNick (view : RelayView) (nick : Str) : Str :=
  let id := view.remoteIdForNick nick
  if id = [] then [] else ascii "<@" ++ id ++ ascii ">"

/-- `RenderMentions`: the text, and who is pinged. -/
def renderMentions (view : RelayView) (text : Str) : Str × List Nat :=
  let escape (run : Str) : Str := markdownEscape run true
  if view.relayMentions then
    (expandMentions (resolveNick view) escape text,
      ((lookups (resolveNick view) escape text).filter fun nick =>
        !(view.remoteIdForNick nick).isEmpty).map fun nick => snowflake (view.remoteIdForNick nick))
  else (escape text, [])

/-- `RenderQuote`: the quote, and the thread of the message that is quoted. -/
def renderQuote (view : RelayView) (bridge : RelayBridge) (replyTo : Str) : Str × Nat :=
  let remoteId := view.remoteIdFor replyTo
  if remoteId = [] then ([], 0)
  else
    let quoted := view.quotedMessage remoteId
    let thread := match quoted with
      | some quoted => if quoted.thread = [] then 0 else snowflake quoted.thread
      | none => 0
    let place := match quoted with
      | some quoted => if thread ≠ 0 then quoted.thread else bridge.foreignChannel
      | none => bridge.foreignChannel
    let link := [91, 0xe2, 0x86, 0x97] ++ ascii "](https://discord.com/channels/" ++ bridge.space ++
      ascii "/" ++ place ++ ascii "/" ++ remoteId ++ ascii ")"
    match quoted with
    | none => (ascii "> " ++ link ++ [10], thread)
    | some quoted =>
        let plain := (removeFormatting quoted.excerpt).map fun chr => if chr = 10 then 32 else chr
        (ascii "> **" ++ markdownEscape quoted.author false ++ ascii "**: " ++
          markdownEscape plain false ++ ascii " " ++ link ++ [10], thread)

/-! ## Sending -/

/-- How a message is sent. -/
inductive RelayPath where
  | webhook
  | bot
  deriving DecidableEq, Repr

/-- A message that is sent. -/
structure RelayMessage where
  path : RelayPath
  channel : Nat
  thread : Nat
  content : Str
  pings : List Nat
  deriving DecidableEq, Repr

/-- `limit`. -/
def bodyLimit (action : Bool) : Nat :=
  if action then 1998 else 2000

/-- How many characters of the line are kept behind a quote. -/
def bodyRoom (quote : Str) (action : Bool) : Nat :=
  if quote.length < bodyLimit action then bodyLimit action - quote.length else 1

/-- The quote in front of a line. -/
def quoteOf (view : RelayView) (bridge : RelayBridge) (out : BridgeOutbound) : Str × Nat :=
  if out.replyTo = [] then ([], 0) else renderQuote view bridge out.replyTo

/-- The line as it is rendered, before it is cut. -/
def lineOf (view : RelayView) (out : BridgeOutbound) : Str :=
  escapeLineStart (renderMentions view out.text).1

/-- The line as it is cut. -/
def bodyOf (view : RelayView) (bridge : RelayBridge) (out : BridgeOutbound) : Str :=
  dropEscape (truncateCodePoints (lineOf view out) (bodyRoom (quoteOf view bridge out).1 out.action))

/-- An action stands between markers. -/
def markAction (action : Bool) (body : Str) : Str :=
  if action then ascii "*" ++ body ++ ascii "*" else body

/-- How a message is sent: by the webhook, unless there is none or it throws. -/
def pathOf (bridge : RelayBridge) (throws : Bool) : RelayPath :=
  if bridge.endpointId ≠ [] ∧ throws = false then .webhook else .bot

/-- The message of `Relay` on either path. -/
def messageOf (view : RelayView) (bridge : RelayBridge) (out : BridgeOutbound) :
    RelayPath → RelayMessage
  | .webhook =>
      { path := .webhook
        channel := snowflake bridge.foreignChannel
        thread := (quoteOf view bridge out).2
        content := (quoteOf view bridge out).1 ++ markAction out.action (bodyOf view bridge out)
        pings := (renderMentions view out.text).2 }
  | .bot =>
      let (quote, thread) := quoteOf view bridge out
      { path := .bot
        channel := if thread ≠ 0 then thread else snowflake bridge.foreignChannel
        thread := 0
        content := quote ++ ascii "<" ++ markdownEscape out.nick false ++ ascii "> " ++
          markAction out.action (bodyOf view bridge out)
        pings := (renderMentions view out.text).2 }

/-- `Relay`.  The webhook may throw. -/
def relay (view : RelayView) (bridge : RelayBridge) (throws : Bool) (out : BridgeOutbound) :
    Option RelayMessage :=
  if view.online = false then none
  else if bodyOf view bridge out = [] then none
  else some (messageOf view bridge out (pathOf bridge throws))

/-! ## What fits -/

/-- The characters of a text: the bytes that continue none. -/
def characters (text : Str) : Nat :=
  text.countP fun byte => !continues byte

/-- The characters in front of a line, and those around it. -/
def aroundLine (quote nick : Str) (action : Bool) : RelayPath → Nat
  | .webhook => characters quote + (if action then 2 else 0)
  | .bot =>
      characters quote + (characters (markdownEscape nick false) + 3) + (if action then 2 else 0)

/-- Where a line is cut a character is escaped. -/
def cutsEscape (line : Str) (room : Nat) : Bool :=
  decide (room < characters line) && slashes (truncateCodePoints line room) % 2 == 1

/-- There is room for the line: nothing is left of it, or what is left fits with what is put around
it. -/
def HasRoom (view : RelayView) (bridge : RelayBridge) (throws : Bool) (out : BridgeOutbound) :
    Prop :=
  let quote := (quoteOf view bridge out).1
  let line := lineOf view out
  let room := bodyRoom quote out.action
  view.online = false ∨ line = [] ∨ truncateCodePoints line room = [92] ∨
    aroundLine quote out.nick out.action (pathOf bridge throws) + min room (characters line) ≤
      2000 + (if cutsEscape line room then 1 else 0)

variable {view : RelayView} {bridge : RelayBridge} {throws : Bool} {out : BridgeOutbound}
  {text line : Str} {room : Nat}

/-! ## Escapes -/

/-- Whether the end of a text escapes what follows it. -/
def escapes (escaping : Bool) (text : Str) : Bool :=
  text.foldl (fun escaping chr => chr == 92 && !escaping) escaping

theorem escapes_append (escaping : Bool) (text text' : Str) :
    escapes escaping (text ++ text') = escapes (escapes escaping text) text' :=
  List.foldl_append

theorem escapes_cons (escaping : Bool) (chr : UInt8) (rest : Str) :
    escapes escaping (chr :: rest) = escapes (chr == 92 && !escaping) rest :=
  rfl

theorem slashes_append_singleton (text : Str) (chr : UInt8) :
    slashes (text ++ [chr]) = if chr = 92 then slashes text + 1 else 0 := by
  rw [slashes, List.reverse_append, List.reverse_singleton, List.singleton_append]
  by_cases slash : chr = 92
  · rw [List.takeWhile_cons_of_pos (by simpa using slash), if_pos slash, List.length_cons, slashes]
  · rw [List.takeWhile_cons_of_neg (by simpa using slash), if_neg slash]
    rfl

/-- A text escapes what follows it when the number of its last backslashes is odd. -/
theorem slashes_odd_iff (text : Str) : slashes text % 2 ≠ 0 ↔ escapes false text = true := by
  induction text using List.reverseRecOn with
  | nil => simp [slashes, escapes]
  | append_singleton text chr ih =>
      rw [slashes_append_singleton, escapes_append]
      by_cases slash : chr = 92
      · subst slash
        rw [if_pos rfl]
        cases escaping : escapes false text with
        | false =>
            rw [escaping] at ih
            have even : slashes text % 2 = 0 := not_not.mp fun odd => by cases ih.mp odd
            exact iff_of_true (by omega) rfl
        | true =>
            have odd := ih.mpr escaping
            exact iff_of_false (by omega) (by decide)
      · rw [if_neg slash]
        refine iff_of_false (by decide) ?_
        simp [escapes, slash]

/-- No text ends with an escape once it is escaped. -/
theorem escapes_markdownEscapeFrom (state : MdState) (text : Str) :
    escapes false (markdownEscapeFrom true state text) = false := by
  induction state, text using markdownEscapeFrom.induct true with
  | case1 state =>
      rw [markdownEscapeFrom]
      rfl
  | case2 state chr rest fence ih =>
      rw [markdownEscapeFrom, if_pos fence, escapes_append]
      exact ih
  | case3 state chr rest noFence tick ih =>
      rw [markdownEscapeFrom, if_neg noFence, if_pos tick, escapes_append]
      exact ih
  | case4 state chr rest noFence noTick ih =>
      rw [markdownEscapeFrom, if_neg noFence, if_neg noTick, escapes_append]
      by_cases special : markdownChars.contains chr = true
      · rw [if_pos ⟨.inl rfl, special⟩]
        have escaped : (chr == 92 && !escapes false [92]) = false := Bool.and_false _
        rw [escapes_cons, escaped]
        exact ih
      · have plain : (chr == 92) = false := by
          rw [beq_eq_false_iff_ne]
          rintro rfl
          exact special rfl
        rw [if_neg fun both => special both.2, escapes_cons, plain]
        exact ih

theorem escapes_rendered {resolve escape : Str → Str}
    (escaped : ∀ text, escapes false (escape text) = false)
    (resolved : ∀ nick, escapes false (resolve nick) = false) (literal : Str)
    (mentions : List Mention) (tail : Str) :
    escapes false (rendered resolve escape literal mentions tail) = false := by
  induction mentions generalizing literal with
  | nil => exact escaped _
  | cons mention mentions ih =>
      rw [rendered]
      split_ifs
      · exact ih _
      · rw [escapes_append, escapes_append, escaped, resolved]
        exact ih _

theorem escapes_resolveNick (view : RelayView) (nick : Str) :
    escapes false (resolveNick view nick) = false := by
  rw [resolveNick]
  split_ifs
  · rfl
  · rw [escapes_append]
    rfl

theorem escapes_renderMentions (view : RelayView) (text : Str) :
    escapes false (renderMentions view text).1 = false := by
  have escaped (run : Str) : escapes false (markdownEscape run true) = false :=
    escapes_markdownEscapeFrom .normal run
  rw [renderMentions]
  dsimp only
  split_ifs
  · obtain ⟨mentions, tail, _, _, isOut⟩ :=
      mentionLoop_spec (resolveNick view) (fun run => markdownEscape run true) .start text
    have isRendered : expandMentions (resolveNick view) (fun run => markdownEscape run true) text =
        rendered (resolveNick view) (fun run => markdownEscape run true) [] mentions tail := isOut
    rw [isRendered]
    exact escapes_rendered escaped (escapes_resolveNick view) [] mentions tail
  · exact escaped text

/-- A rendered line does not end with an escape. -/
theorem slashes_lineOf (view : RelayView) (out : BridgeOutbound) :
    ¬slashes (lineOf view out) % 2 ≠ 0 := by
  rw [slashes_odd_iff, lineOf, escapeLineStart, Bool.not_eq_true]
  have noEscape := escapes_renderMentions view out.text
  generalize (renderMentions view out.text).1 = text at noEscape
  split_ifs with block
  · cases text with
    | nil => cases block
    | cons chr rest =>
        have other : (chr == 92) = false := by
          rw [beq_eq_false_iff_ne]
          rintro rfl
          cases block
        rw [escapes_cons, other] at noEscape
        rw [escapes_cons, escapes_cons, other]
        exact noEscape
  · exact noEscape

/-! ## Characters -/

theorem characters_append (text text' : Str) :
    characters (text ++ text') = characters text + characters text' :=
  List.countP_append

theorem characters_cons (byte : UInt8) (rest : Str) :
    characters (byte :: rest) = characters rest + if continues byte then 0 else 1 := by
  rw [characters, List.countP_cons, ← characters]
  cases continues byte <;> rfl

/-- The characters of a text in UTF-8 are its code points. -/
theorem characters_encode (chars : List Char) : characters (encode chars) = chars.length := by
  induction chars with
  | nil => rfl
  | cons chr chars ih =>
      obtain ⟨lead, tail, isChr, sequence⟩ := exists_isSequence chr
      have continued : characters tail = 0 :=
        List.countP_eq_zero.mpr fun byte mem => by simp [sequence.continued byte mem]
      rw [encode_cons, characters_append, isChr, characters_cons, continued, sequence.starts, ih,
        List.length_cons]
      exact Nat.add_comm 1 _

theorem characters_truncateFrom {maxchars chars : Nat} (le : chars ≤ maxchars) (str : Str) :
    characters (truncateFrom maxchars chars str) = min (maxchars - chars) (characters str) := by
  induction str generalizing chars with
  | nil => simp [truncateFrom, characters]
  | cons byte rest ih =>
      rw [truncateFrom, characters_cons]
      split_ifs with more full
      · rw [characters_cons, ih le, if_pos more]
        omega
      · rw [full, Nat.sub_self, Nat.zero_min]
        rfl
      · rw [characters_cons, ih (by omega), if_neg more]
        omega

theorem characters_truncateCodePoints (str : Str) (maxchars : Nat) :
    characters (truncateCodePoints str maxchars) = min maxchars (characters str) :=
  characters_truncateFrom (Nat.zero_le maxchars) str

theorem truncateFrom_eq_self {maxchars chars : Nat} {str : Str}
    (fits : chars + characters str ≤ maxchars) : truncateFrom maxchars chars str = str := by
  induction str generalizing chars with
  | nil => rfl
  | cons byte rest ih =>
      rw [characters_cons] at fits
      rw [truncateFrom]
      split_ifs with more full
      · rw [if_pos more] at fits
        rw [ih fits]
      · rw [if_neg more] at fits
        omega
      · rw [if_neg more] at fits
        rw [ih (by omega)]

theorem truncateCodePoints_eq_nil_iff {str : Str} {maxchars : Nat} (positive : 0 < maxchars) :
    truncateCodePoints str maxchars = [] ↔ str = [] := by
  cases str with
  | nil => exact iff_of_true rfl rfl
  | cons byte rest =>
      refine iff_of_false ?_ (List.cons_ne_nil _ _)
      rw [truncateCodePoints, truncateFrom]
      split_ifs with more full
      · exact not_false
      · omega
      · exact not_false

/-- A text with an odd number of backslashes at its end ends with one. -/
theorem exists_append_slash (odd : slashes text % 2 ≠ 0) : ∃ front, text = front ++ [92] := by
  induction text using List.reverseRecOn with
  | nil => exact absurd rfl odd
  | append_singleton front chr _ =>
      rw [slashes_append_singleton] at odd
      split_ifs at odd with slash
      · exact ⟨front, slash ▸ rfl⟩
      · exact absurd rfl odd

theorem characters_dropEscape (text : Str) :
    characters (dropEscape text) =
      characters text - if slashes text % 2 ≠ 0 then 1 else 0 := by
  rw [dropEscape]
  split_ifs with odd
  · obtain ⟨front, rfl⟩ := exists_append_slash odd
    rw [List.dropLast_concat, characters_append]
    rfl
  · rfl

theorem dropEscape_eq_nil_iff (text : Str) : dropEscape text = [] ↔ text = [] ∨ text = [92] := by
  rw [dropEscape]
  split_ifs with odd
  · obtain ⟨front, rfl⟩ := exists_append_slash odd
    rw [List.dropLast_concat]
    cases front <;> simp
  · constructor
    · exact .inl
    · rintro (rfl | rfl)
      · rfl
      · exact absurd (by decide) odd

/-! ## Room for a line -/

theorem bodyRoom_pos (quote : Str) (action : Bool) : 0 < bodyRoom quote action := by
  rw [bodyRoom]
  split_ifs with short
  · exact Nat.sub_pos_of_lt short
  · exact Nat.one_pos

theorem bodyOf_eq_nil_iff :
    bodyOf view bridge out = [] ↔ lineOf view out = [] ∨
      truncateCodePoints (lineOf view out) (bodyRoom (quoteOf view bridge out).1 out.action) =
        [92] := by
  rw [bodyOf, dropEscape_eq_nil_iff, truncateCodePoints_eq_nil_iff (bodyRoom_pos _ _)]

/-- A line is cut to the room, and one character more is lost if that one escapes the next. -/
theorem characters_dropEscape_truncate (noEscape : ¬slashes line % 2 ≠ 0) :
    characters (dropEscape (truncateCodePoints line room)) =
      min room (characters line) - if cutsEscape line room then 1 else 0 := by
  rw [characters_dropEscape, characters_truncateCodePoints]
  by_cases fits : characters line ≤ room
  · have whole : truncateCodePoints line room = line :=
      truncateFrom_eq_self (by rwa [Nat.zero_add])
    have noCut : cutsEscape line room = false := by
      rw [cutsEscape, decide_eq_false (Nat.not_lt.mpr fits), Bool.false_and]
    rw [whole, if_neg noEscape, noCut]
    rfl
  · have isCut : cutsEscape line room = true ↔
        slashes (truncateCodePoints line room) % 2 ≠ 0 := by
      rw [cutsEscape, decide_eq_true (Nat.not_le.mp fits), Bool.true_and, beq_iff_eq]
      omega
    rw [if_congr isCut rfl rfl]

/-- Something is sent if something is left of the line. -/
theorem relay_eq_some_iff {message : RelayMessage} :
    relay view bridge throws out = some message ↔
      (¬view.online = false ∧ ¬bodyOf view bridge out = []) ∧
        messageOf view bridge out (pathOf bridge throws) = message := by
  rw [relay, Option.ite_none_left_eq_some, Option.ite_none_left_eq_some, Option.some_inj, and_assoc]

theorem characters_markAction (action : Bool) (body : Str) :
    characters (markAction action body) = characters body + if action then 2 else 0 := by
  rw [markAction]
  split_ifs
  · rw [characters_append, characters_append, show characters (ascii "*") = 1 from by decide]
    omega
  · rfl

theorem characters_messageOf (view : RelayView) (bridge : RelayBridge) (out : BridgeOutbound)
    (path : RelayPath) :
    characters (messageOf view bridge out path).content =
      aroundLine (quoteOf view bridge out).1 out.nick out.action path +
        characters (bodyOf view bridge out) := by
  cases path with
  | webhook =>
      rw [messageOf, characters_append, characters_markAction, aroundLine]
      omega
  | bot =>
      rw [messageOf, characters_append, characters_markAction, characters_append,
        characters_append, characters_append, aroundLine,
        show characters (ascii "<") = 1 from by decide,
        show characters (ascii "> ") = 2 from by decide]
      omega

/-- What is left of the line fits exactly when it fits as it is cut. -/
theorem fits_dropEscape_iff (around : Nat) (positive : 0 < room) :
    around + (min room (characters line) - if cutsEscape line room then 1 else 0) ≤ 2000 ↔
      around + min room (characters line) ≤ 2000 + if cutsEscape line room then 1 else 0 := by
  split_ifs with cuts
  · rw [cutsEscape, Bool.and_eq_true, decide_eq_true_eq] at cuts
    omega
  · rfl

/-- What is sent has at most 2000 characters exactly when there is room for it. -/
theorem relay_fits_iff (view : RelayView) (bridge : RelayBridge) (throws : Bool)
    (out : BridgeOutbound) :
    (∀ message, relay view bridge throws out = some message →
      characters message.content ≤ 2000) ↔ HasRoom view bridge throws out := by
  have isBody : characters (bodyOf view bridge out) = _ :=
    characters_dropEscape_truncate (slashes_lineOf view out)
  have sent : (∀ message, relay view bridge throws out = some message →
      characters message.content ≤ 2000) ↔
        view.online = false ∨ bodyOf view bridge out = [] ∨
          characters (messageOf view bridge out (pathOf bridge throws)).content ≤ 2000 := by
    simp only [relay_eq_some_iff]
    constructor
    · intro fits
      by_cases none : view.online = false ∨ bodyOf view bridge out = []
      · exact or_assoc.mp (.inl none)
      · exact .inr (.inr (fits _ ⟨not_or.mp none, rfl⟩))
    · rintro fits message ⟨⟨online, left⟩, rfl⟩
      exact (fits.resolve_left online).resolve_left left
  rw [sent, HasRoom, characters_messageOf, isBody, bodyOf_eq_nil_iff, or_assoc,
    fits_dropEscape_iff _ (bodyRoom_pos _ _)]

/-! ## A line of mentions -/

/-- A view in which one nickname belongs to a user of Discord. -/
def oneUser : RelayView where
  online := true
  relayMentions := true
  remoteIdForNick nick := if nick = ascii "bo" then ascii "123456789012345678" else []
  remoteIdFor _ := []
  quotedMessage _ := none

/-- A line of a hundred mentions. -/
def hundredMentions : BridgeOutbound where
  nick := ascii "alice"
  text := (List.replicate 100 (ascii "@bo ")).flatten
  action := false
  replyTo := []

/-- A bridge without a webhook. -/
def withoutWebhook : RelayBridge :=
  ⟨ascii "1", ascii "2", []⟩

/-- Mentions that are all answered in the same way, with blanks between them. -/
theorem mentionLoop_mentions {resolve escape : Str → Str}
    (answered : resolve (ascii "bo") ≠ []) (blank : escape [32] = [32]) (count : Nat)
    (state : MentionState) (apart : ∀ chr ∈ state.previous, nickChar chr = false) :
    let last := mentionLoop resolve escape state (List.replicate count (ascii "@bo ")).flatten
    last.out ++ escape last.literal =
      state.out ++ escape state.literal ++
        (List.replicate count (resolve (ascii "bo") ++ [32])).flatten := by
  induction count generalizing state with
  | zero => simp [mentionLoop_nil]
  | succ count ih =>
      have here : MentionAt state.previous
          (ascii "@bo " ++ (List.replicate count (ascii "@bo ")).flatten) [] (ascii "bo")
          (32 :: (List.replicate count (ascii "@bo ")).flatten) := by
        refine ⟨rfl, by decide, by decide +kernel, apart, fun chr isBlank => ?_⟩
        cases isBlank
        rfl
      rw [List.replicate_succ, List.flatten_cons, List.replicate_succ, List.flatten_cons,
        mentionLoop_mention here, if_neg answered, mentionLoop_of_ne (by decide)]
      refine (ih _ fun chr isBlank => ?_).trans ?_
      · cases isBlank
        rfl
      · simp [MentionState.replace, MentionState.pass, blank]

/-- What the nickname of the one user is rendered as. -/
def userMention : Str :=
  ascii "<@123456789012345678>"

theorem lineOf_hundredMentions :
    lineOf oneUser hundredMentions = (List.replicate 100 (userMention ++ [32])).flatten := by
  have blank : markdownEscape [32] true = [32] := by decide +kernel
  have isMention : resolveNick oneUser (ascii "bo") = userMention := by decide +kernel
  have rendered : (renderMentions oneUser hundredMentions.text).1 =
      markdownEscape [] true ++ (List.replicate 100 (userMention ++ [32])).flatten :=
    isMention ▸ mentionLoop_mentions (isMention ▸ List.cons_ne_nil _ _) blank 100 .start nofun
  have nothing : markdownEscape [] true = [] := by decide +kernel
  rw [lineOf, rendered, nothing, List.nil_append]
  exact if_neg Bool.false_ne_true

theorem characters_hundredMentions : characters (lineOf oneUser hundredMentions) = 2200 := by
  have one : (userMention ++ [32]).countP (fun byte => !continues byte) = 22 := by decide +kernel
  rw [lineOf_hundredMentions, characters, List.countP_flatten, List.map_replicate, one,
    List.sum_replicate_nat]

/-- The line is cut to 2000 characters before the nickname is put in front. -/
theorem not_relay_fits_hundredMentions :
    ¬∀ message, relay oneUser withoutWebhook false hundredMentions = some message →
      characters message.content ≤ 2000 := by
  intro fits
  have body : 1999 ≤ characters (bodyOf oneUser withoutWebhook hundredMentions) := by
    rw [bodyOf, characters_dropEscape, characters_truncateCodePoints, characters_hundredMentions]
    have room : bodyRoom (quoteOf oneUser withoutWebhook hundredMentions).1
        hundredMentions.action = 2000 := rfl
    rw [room]
    split_ifs <;> omega
  have left : ¬bodyOf oneUser withoutWebhook hundredMentions = [] := by
    intro none
    rw [none] at body
    exact absurd body (by decide)
  have around : aroundLine (quoteOf oneUser withoutWebhook hundredMentions).1 hundredMentions.nick
      hundredMentions.action (pathOf withoutWebhook false) = 8 := by
    decide +kernel
  have le := fits _ (relay_eq_some_iff.mpr ⟨⟨Bool.noConfusion, left⟩, rfl⟩)
  rw [characters_messageOf, around] at le
  omega

end Anope.Bridge
