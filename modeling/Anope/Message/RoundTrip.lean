import Anope.Library.SortedMap
import Anope.Library.Split
import Anope.Mode.Core
import Mathlib.Data.List.Lex

/-!
# Messages to and from the uplink

`IRCDProto::Format` and `IRCDProto::Parse`.  A message is optional tags, an
optional source, a command, and parameters of which the last may be any text.
-/

namespace Anope.Message

open Library (SortedMap)
open Library.Split (cut tokens)
open Text (Casemap)

/-! ## Tags -/

/-- The key of a tag in an `Anope::map`, which compares with `ci::less`. -/
def tagKey (casemap : Casemap) (tag : Str × Str) : Str :=
  casemap.ciStr tag.1

/-- The names and values of an `Anope::map<Anope::string>`. -/
abbrev Tags (casemap : Casemap) := SortedMap (tagKey casemap)

/-! ## Sources -/

/-- The fields of a `Server` that a message source is written from. -/
structure Server where
  name : Str
  sid : Str
  isMe : Bool
  isJuped : Bool
deriving Repr, DecidableEq

/-- The fields of a `User` that a message source is written from. -/
structure User where
  nick : Str
  uid : Str
  server : Server
deriving Repr, DecidableEq

/-- The field of a `BotInfo` that a message source is judged by. -/
structure BotInfo where
  introduced : Bool
deriving Repr, DecidableEq

/-- The results of `GetServer`, `GetUser` and `GetBot` on a `MessageSource`. -/
structure MessageSource where
  server : Option Server
  user : Option User
  bot : Option BotInfo
deriving Repr, DecidableEq

/-- `Server::GetSID`. -/
def Server.getSID (requiresID : Bool) (server : Server) : Str :=
  if server.sid ≠ [] ∧ requiresID then server.sid else server.name

/-- `User::GetUID`. -/
def User.getUID (requiresID : Bool) (user : User) : Str :=
  if user.uid ≠ [] ∧ requiresID then user.uid else user.nick

/-! ## Writing -/

/-- One round of the loop over the tags of `IRCDProto::Format`, with the buffer
and the separator for the next tag. -/
def formatTag (isTagValid : Str → Str → Bool) (written : Str × UInt8) (tag : Str × Str) :
    Str × UInt8 :=
  if isTagValid tag.1 tag.2 then
    (written.1 ++ written.2 :: tag.1 ++ if tag.2 = [] then [] else 61 :: tag.2, 59)
  else written

/-- The tags at the start of a message: `@` before the first, `;` between. -/
def formatTags {casemap : Casemap} (isTagValid : Str → Str → Bool) (tags : Tags casemap) : Str :=
  let written := tags.entries.foldl (formatTag isTagValid) ([], 64)
  if written.2 ≠ 64 then written.1 ++ [32] else written.1

/-- The source of a message, or nothing where it may not be sent. -/
def formatSource (requiresID : Bool) (source : MessageSource) : Option Str :=
  match source.server, source.user with
  | some server, _ =>
      if server.isMe = false ∧ server.isJuped = false then none
      else some (58 :: server.getSID requiresID ++ [32])
  | none, some user =>
      if user.server.isMe = false ∧ user.server.isJuped = false then none
      else if (source.bot.any fun bot => !bot.introduced) = true then none
      else some (58 :: user.getUID requiresID ++ [32])
  | none, none => some []

/-- The parameters, with a colon before the last one where it needs it. -/
def formatParams : List Str → Str
  | [] => []
  | [last] =>
      if last = [] ∨ last.head? = some 58 ∨ 32 ∈ last then 58 :: last else last
  | param :: params => param ++ 32 :: formatParams params

/-- `IRCDProto::Format`. -/
def format {casemap : Casemap} (isTagValid : Str → Str → Bool) (requiresID : Bool)
    (tags : Tags casemap) (source : MessageSource) (command : Str) (params : List Str) :
    Option Str :=
  (formatSource requiresID source).map fun from_ =>
    formatTags isTagValid tags ++ from_ ++ command ++
      if params = [] then [] else 32 :: formatParams params

/-! ## Reading -/

/-- `MessageTokenizer::GetMiddle`, with the text from `position` on. -/
def getMiddle (message : Str) : Option (Str × Str) :=
  if message = [] then none
  else
    match cut 32 message with
    | none => some (message, [])
    | some (token, rest) => some (token, rest.dropWhile (· = 32))

/-- `MessageTokenizer::GetTrailing`. -/
def getTrailing : Str → Option (Str × Str)
  | 58 :: token => some (token, [])
  | message => getMiddle message

theorem length_lt_of_getMiddle {message token rest : Str}
    (middle : getMiddle message = some (token, rest)) : rest.length < message.length := by
  rw [getMiddle] at middle
  split at middle
  · contradiction
  · rename_i nonempty
    cases found : cut 32 message with
    | none =>
        rw [found] at middle
        cases middle
        exact List.length_pos_of_ne_nil nonempty
    | some pieces =>
        rw [found] at middle
        cases middle
        obtain ⟨equal, _⟩ := Library.Split.cut_eq_some_iff.mp found
        have shorter := (List.dropWhile_sublist (fun byte : UInt8 => decide (byte = 32))
          (l := pieces.2)).length_le
        rw [equal, List.length_append, List.length_cons]
        omega

theorem length_lt_of_getTrailing {message token rest : Str}
    (trailing : getTrailing message = some (token, rest)) : rest.length < message.length := by
  unfold getTrailing at trailing
  split at trailing
  · cases trailing
    exact Nat.zero_lt_succ _
  · exact length_lt_of_getMiddle trailing

/-- The loop that collects the parameters. -/
def parseParams (message : Str) : List Str :=
  match _trailing : getTrailing message with
  | none => []
  | some (token, rest) => token :: parseParams rest
termination_by message.length
decreasing_by exact length_lt_of_getTrailing _trailing

/-- One round of the loop over the tags of `IRCDProto::Parse`. -/
def parseTag {casemap : Casemap} (tags : Tags casemap) (token : Str) : Tags casemap :=
  match cut 61 token with
  | none => tags.assign (token, []) id fun _ => rfl
  | some (name, value) => tags.assign (name, []) (fun tag => (tag.1, value)) fun _ => rfl

/-- What `IRCDProto::Parse` reads from a message. -/
structure Parsed (casemap : Casemap) where
  tags : Tags casemap
  source : Str
  command : Str
  params : List Str

/-- `IRCDProto::Parse` from the source on. -/
def parseSource {casemap : Casemap} (tags : Tags casemap) :
    Str × Str → Option (Parsed casemap)
  | (58 :: source, rest) =>
      (getMiddle rest).map fun (command, rest) => ⟨tags, source, command, parseParams rest⟩
  | (command, rest) => some ⟨tags, [], command, parseParams rest⟩

/-- `IRCDProto::Parse`, with nothing in what it writes to.  The result of the
first `GetMiddle` is not looked at: without one the token is empty. -/
def parse {casemap : Casemap} (buffer : Str) : Option (Parsed casemap) :=
  match (getMiddle buffer).getD ([], []) with
  | (64 :: token, rest) =>
      let tags := (tokens 59 token).foldl parseTag SortedMap.empty
      (getMiddle rest).bind (parseSource tags)
  | first => parseSource SortedMap.empty first

/-!
## Reading a written message

The formatter and the tokenizer agree on every boundary: what `Parse` reads
from a message of `Format` is what the message was written from.
-/

open Library.Split (cut cut_append cut_eq_none tokens tokens_append tokens_of_not_mem)

/-! ## Tokens -/

/-- A word can be read back: it is not empty and has no space. -/
def IsWord (text : Str) : Prop :=
  text ≠ [] ∧ 32 ∉ text

instance instDecidableIsWord (text : Str) : Decidable (IsWord text) :=
  inferInstanceAs (Decidable (_ ∧ _))

theorem IsWord.append_ne_nil {word : Str} (isWord : IsWord word) (rest : Str) :
    word ++ rest ≠ [] :=
  List.append_ne_nil_of_left_ne_nil isWord.1 rest

/-- A word ends at a space, and what follows must not start with another one. -/
theorem getMiddle_append {word rest : Str} (isWord : IsWord word)
    (next : rest.head? ≠ some 32) : getMiddle (word ++ 32 :: rest) = some (word, rest) := by
  have behind : rest.dropWhile (· = 32) = rest := by
    cases rest with
    | nil => rfl
    | cons first rest =>
        have notSpace : ¬ first = 32 := fun isSpace => next (congrArg some isSpace)
        simp [notSpace]
  rw [getMiddle, if_neg (isWord.append_ne_nil _), cut_append isWord.2]
  simp only [behind]

/-- A word ends with the message. -/
theorem getMiddle_of_isWord {word : Str} (isWord : IsWord word) :
    getMiddle word = some (word, []) := by
  rw [getMiddle, if_neg isWord.1, cut_eq_none isWord.2]

theorem getTrailing_of_head?_ne {message : Str} (notColon : message.head? ≠ some 58) :
    getTrailing message = getMiddle message := by
  unfold getTrailing
  split
  · exact absurd rfl notColon
  · rfl

theorem parseParams_of_none {message : Str} (trailing : getTrailing message = none) :
    parseParams message = [] := by
  rw [parseParams]
  split
  · rfl
  · simp_all

theorem parseParams_of_some {message token rest : Str}
    (trailing : getTrailing message = some (token, rest)) :
    parseParams message = token :: parseParams rest := by
  rw [parseParams]
  split <;> simp_all

@[simp]
theorem parseParams_nil : parseParams [] = [] :=
  parseParams_of_none rfl

/-! ## Parameters -/

/-- A parameter before the last one: a word that does not start with a colon. -/
def IsMiddle (param : Str) : Prop :=
  IsWord param ∧ param.head? ≠ some 58

instance instDecidableIsMiddle (param : Str) : Decidable (IsMiddle param) :=
  inferInstanceAs (Decidable (_ ∧ _))

theorem IsMiddle.head?_append {param : Str} (isMiddle : IsMiddle param) (rest : Str) :
    (param ++ rest).head? ≠ some 58 ∧ (param ++ rest).head? ≠ some 32 := by
  obtain ⟨⟨nonempty, noSpace⟩, notColon⟩ := isMiddle
  cases param with
  | nil => contradiction
  | cons first param =>
      refine ⟨notColon, fun isSpace => noSpace ?_⟩
      cases isSpace
      exact List.mem_cons_self

theorem formatParams_cons_cons (param next : Str) (params : List Str) :
    formatParams (param :: next :: params) = param ++ 32 :: formatParams (next :: params) :=
  rfl

/-- The last parameter is read back, whatever it is. -/
theorem parseParams_last (last : Str) : parseParams (formatParams [last]) = [last] := by
  rw [formatParams]
  split
  · exact (parseParams_of_some rfl).trans (by rw [parseParams_nil])
  · rename_i plain
    obtain ⟨nonempty, notColon, noSpace⟩ : last ≠ [] ∧ last.head? ≠ some 58 ∧ 32 ∉ last := by
      simpa only [not_or] using plain
    rw [parseParams_of_some ((getTrailing_of_head?_ne notColon).trans
      (getMiddle_of_isWord ⟨nonempty, noSpace⟩)), parseParams_nil]

/-- The written parameters do not start with a space. -/
theorem head?_formatParams {params : List Str}
    (middle : ∀ param ∈ params.dropLast, IsMiddle param) :
    (formatParams params).head? ≠ some 32 := by
  match params with
  | [] => simp [formatParams]
  | [last] =>
      rw [formatParams]
      split
      · simp
      · rename_i plain
        intro isSpace
        exact plain (.inr (.inr (List.mem_of_mem_head? isSpace)))
  | param :: next :: params =>
      rw [formatParams_cons_cons]
      exact ((middle param List.mem_cons_self).head?_append _).2

theorem parseParams_formatParams {params : List Str} (nonempty : params ≠ [])
    (middle : ∀ param ∈ params.dropLast, IsMiddle param) :
    parseParams (formatParams params) = params := by
  induction params with
  | nil => contradiction
  | cons param params ih =>
      cases params with
      | nil => exact parseParams_last param
      | cons next params =>
          have isMiddle : IsMiddle param := middle param List.mem_cons_self
          have rest : ∀ other ∈ (next :: params).dropLast, IsMiddle other := fun other mem =>
            middle other (List.mem_cons_of_mem _ mem)
          have read : getTrailing (formatParams (param :: next :: params)) =
              some (param, formatParams (next :: params)) := by
            rw [formatParams_cons_cons,
              getTrailing_of_head?_ne (isMiddle.head?_append _).1,
              getMiddle_append isMiddle.1 (head?_formatParams rest)]
          rw [parseParams_of_some read, ih (List.cons_ne_nil _ _) rest]

/-- The command and the parameters behind it. -/
theorem getMiddle_command {command : Str} (isWord : IsWord command) {params : List Str}
    (middle : ∀ param ∈ params.dropLast, IsMiddle param) :
    ∃ rest, getMiddle (command ++ if params = [] then [] else 32 :: formatParams params) =
        some (command, rest) ∧ parseParams rest = params := by
  by_cases none : params = []
  · rw [if_pos none, List.append_nil]
    exact ⟨[], getMiddle_of_isWord isWord, none ▸ parseParams_nil⟩
  · rw [if_neg none]
    exact ⟨formatParams params, getMiddle_append isWord (head?_formatParams middle),
      parseParams_formatParams none middle⟩

/-! ## Sources -/

/-- The identifier that a source is written with. -/
def MessageSource.id? (requiresID : Bool) (source : MessageSource) : Option Str :=
  match source.server, source.user with
  | some server, _ => some (server.getSID requiresID)
  | none, some user => some (user.getUID requiresID)
  | none, none => none

/-- A source is written as its identifier, or not at all. -/
theorem eq_of_formatSource {requiresID : Bool} {source : MessageSource} {written : Str}
    (formatted : formatSource requiresID source = some written) :
    written = match source.id? requiresID with
      | none => []
      | some id => 58 :: id ++ [32] := by
  rw [formatSource] at formatted
  rw [MessageSource.id?]
  cases ofServer : source.server with
  | some server =>
      rw [ofServer] at formatted
      exact (Option.some.inj (Option.ite_none_left_eq_some.mp formatted).2).symm
  | none =>
      rw [ofServer] at formatted
      cases ofUser : source.user with
      | some user =>
          rw [ofUser] at formatted
          have introduced := (Option.ite_none_left_eq_some.mp formatted).2
          exact (Option.some.inj (Option.ite_none_left_eq_some.mp introduced).2).symm
      | none =>
          rw [ofUser] at formatted
          exact (Option.some.inj formatted).symm

/-- What a command and its source must look like to be read back. -/
@[mk_iff]
structure IsCommand (command : Str) : Prop where
  isWord : IsWord command
  notColon : command.head? ≠ some 58
  notAt : command.head? ≠ some 64

instance instDecidableIsCommand (command : Str) : Decidable (IsCommand command) :=
  decidable_of_iff _ (isCommand_iff command).symm

section Source

variable {casemap : Casemap} {requiresID : Bool} {source : MessageSource} {written : Str}
  {command : Str} {params : List Str}

/-- The first token behind the tags is not taken for tags, and what `Parse` makes
of it and of the rest is the source, the command and the parameters. -/
theorem exists_parseSource (formatted : formatSource requiresID source = some written)
    (isId : ∀ id ∈ source.id? requiresID, IsWord id) (isCommand : IsCommand command)
    (middle : ∀ param ∈ params.dropLast, IsMiddle param) (tags : Tags casemap) :
    ∃ first, getMiddle (written ++ (command ++
        if params = [] then [] else 32 :: formatParams params)) = some first ∧
      first.1.head? ≠ some 64 ∧
      parseSource tags first =
        some ⟨tags, (source.id? requiresID).getD [], command, params⟩ := by
  obtain ⟨rest, read, readParams⟩ := getMiddle_command isCommand.isWord middle
  rw [eq_of_formatSource formatted]
  cases identifier : source.id? requiresID with
  | none =>
      refine ⟨(command, rest), read, isCommand.notAt, ?_⟩
      unfold parseSource
      split
      · rename_i equal
        cases equal
        exact absurd rfl isCommand.notColon
      · rename_i equal
        cases equal
        rw [readParams, Option.getD_none]
  | some id =>
      have isWord : IsWord (58 :: id) :=
        ⟨List.cons_ne_nil _ _, by simpa using (isId id identifier).2⟩
      obtain ⟨byte, tail, equal⟩ := List.exists_cons_of_ne_nil isCommand.isWord.1
      have notSpace : byte ≠ 32 := by
        rintro rfl
        exact isCommand.isWord.2 (equal ▸ List.mem_cons_self)
      refine ⟨(58 :: id, command ++ if params = [] then [] else 32 :: formatParams params),
        ?_, by simp, ?_⟩
      · rw [List.append_assoc, List.singleton_append]
        refine getMiddle_append isWord ?_
        rw [equal]
        simpa using notSpace
      · simp only [parseSource, read, Option.map_some, readParams, Option.getD_some]

/-- Neither a source nor a command starts with a space. -/
theorem head?_source (formatted : formatSource requiresID source = some written)
    (isCommand : IsCommand command) (rest : Str) :
    (written ++ (command ++ rest)).head? ≠ some 32 := by
  rw [eq_of_formatSource formatted]
  cases source.id? requiresID with
  | some id => simp
  | none =>
      obtain ⟨byte, tail, equal⟩ := List.exists_cons_of_ne_nil isCommand.isWord.1
      intro isSpace
      rw [equal] at isSpace
      cases isSpace
      exact isCommand.isWord.2 (equal ▸ List.mem_cons_self)

end Source

/-! ## Tags -/

/-- A tag can be read back: its name and its value have no separators. -/
@[mk_iff]
structure IsTag (tag : Str × Str) : Prop where
  nonempty : tag.1 ≠ []
  name : 61 ∉ tag.1 ∧ 59 ∉ tag.1 ∧ 32 ∉ tag.1
  value : 59 ∉ tag.2 ∧ 32 ∉ tag.2

instance instDecidableIsTag (tag : Str × Str) : Decidable (IsTag tag) :=
  decidable_of_iff _ (isTag_iff tag).symm

/-- A tag without the separator before it. -/
def tagToken (tag : Str × Str) : Str :=
  tag.1 ++ if tag.2 = [] then [] else 61 :: tag.2

/-- The tags without the `@` and the space around them. -/
def joinTags : List (Str × Str) → Str
  | [] => []
  | [tag] => tagToken tag
  | tag :: tags => tagToken tag ++ 59 :: joinTags tags

theorem joinTags_cons_cons (tag next : Str × Str) (tags : List (Str × Str)) :
    joinTags (tag :: next :: tags) = tagToken tag ++ 59 :: joinTags (next :: tags) :=
  rfl

theorem IsTag.tagToken_ne_nil {tag : Str × Str} (isTag : IsTag tag) : tagToken tag ≠ [] :=
  List.append_ne_nil_of_left_ne_nil isTag.nonempty _

theorem IsTag.not_mem_tagToken {tag : Str × Str} (isTag : IsTag tag) :
    59 ∉ tagToken tag ∧ 32 ∉ tagToken tag := by
  obtain ⟨_, noEnd, noSpace⟩ := isTag.name
  obtain ⟨noEnd', noSpace'⟩ := isTag.value
  rw [tagToken]
  split <;> simp [*]

/-- Tags that are all accepted are written one behind the other. -/
theorem foldl_formatTag {isTagValid : Str → Str → Bool} {tag : Str × Str}
    {tags : List (Str × Str)}
    (accepted : ∀ other ∈ tag :: tags, isTagValid other.1 other.2 = true)
    (buffer : Str) (separator : UInt8) :
    (tag :: tags).foldl (formatTag isTagValid) (buffer, separator) =
      (buffer ++ separator :: joinTags (tag :: tags), 59) := by
  induction tags generalizing tag buffer separator with
  | nil =>
      have valid := accepted tag List.mem_cons_self
      simp [formatTag, valid, joinTags, tagToken]
  | cons next tags ih =>
      obtain ⟨valid, rest⟩ := List.forall_mem_cons.mp accepted
      have first : formatTag isTagValid (buffer, separator) tag =
          (buffer ++ separator :: tagToken tag, 59) := by
        simp [formatTag, valid, tagToken]
      rw [List.foldl_cons, first, ih rest, joinTags_cons_cons]
      simp

theorem formatTags_of_accepted {casemap : Casemap} {isTagValid : Str → Str → Bool}
    {tags : Tags casemap} (accepted : ∀ tag ∈ tags.entries, isTagValid tag.1 tag.2 = true) :
    formatTags isTagValid tags =
      if tags.entries = [] then [] else 64 :: joinTags tags.entries ++ [32] := by
  rw [formatTags]
  cases entries : tags.entries with
  | nil => rfl
  | cons tag rest =>
      rw [entries] at accepted
      rw [foldl_formatTag accepted]
      rfl

theorem tokens_joinTags {tags : List (Str × Str)} (isTag : ∀ tag ∈ tags, IsTag tag) :
    tokens 59 (joinTags tags) = tags.map tagToken := by
  induction tags with
  | nil => rfl
  | cons tag tags ih =>
      obtain ⟨first, rest⟩ := List.forall_mem_cons.mp isTag
      cases tags with
      | nil => exact tokens_of_not_mem first.not_mem_tagToken.1 first.tagToken_ne_nil
      | cons next tags =>
          rw [joinTags_cons_cons,
            tokens_append first.not_mem_tagToken.1 first.tagToken_ne_nil, ih rest]
          rfl

/-- The tags are one word. -/
theorem not_mem_joinTags {tags : List (Str × Str)} (isTag : ∀ tag ∈ tags, IsTag tag) :
    32 ∉ joinTags tags := by
  induction tags with
  | nil => exact List.not_mem_nil
  | cons tag tags ih =>
      obtain ⟨first, rest⟩ := List.forall_mem_cons.mp isTag
      cases tags with
      | nil => exact first.not_mem_tagToken.2
      | cons next tags =>
          rw [joinTags_cons_cons]
          simp [first.not_mem_tagToken.2, ih rest]

/-- A tag whose key is behind all others is read back as it was written. -/
theorem entries_parseTag {casemap : Casemap} {tags : Tags casemap} {tag : Str × Str}
    (isTag : IsTag tag)
    (behind : ∀ other ∈ tags.entries, tagKey casemap other < tagKey casemap tag) :
    (parseTag tags (tagToken tag)).entries = tags.entries ++ [tag] := by
  obtain ⟨name, value⟩ := tag
  rw [tagToken]
  by_cases none : value = []
  · subst none
    rw [if_pos rfl, List.append_nil, parseTag, cut_eq_none isTag.name.1]
    exact @SortedMap.assignEntries_of_lt _ _ _ (tagKey casemap) (name, []) _ behind id
  · rw [if_neg none, parseTag, cut_append isTag.name.1]
    exact @SortedMap.assignEntries_of_lt _ _ _ (tagKey casemap) (name, []) _ behind
      fun tag => (tag.1, value)

/-- The tags that are read are the tags that were written. -/
theorem foldl_parseTag {casemap : Casemap} {tags : Tags casemap}
    (isTag : ∀ tag ∈ tags.entries, IsTag tag) :
    (tokens 59 (joinTags tags.entries)).foldl parseTag SortedMap.empty = tags := by
  rw [tokens_joinTags isTag, List.foldl_map]
  exact SortedMap.foldl_empty tags fun _ tag mem behind => entries_parseTag (isTag tag mem) behind

/-! ## The whole message -/

/-- `Parse` gives back what `Format` wrote: the same tags, source, command and
parameters. -/
theorem parse_format {casemap : Casemap} {isTagValid : Str → Str → Bool} {requiresID : Bool}
    {tags : Tags casemap} {source : MessageSource} {command : Str} {params : List Str}
    {message : Str} (accepted : ∀ tag ∈ tags.entries, isTagValid tag.1 tag.2 = true)
    (isTag : ∀ tag ∈ tags.entries, IsTag tag)
    (isId : ∀ id ∈ source.id? requiresID, IsWord id) (isCommand : IsCommand command)
    (middle : ∀ param ∈ params.dropLast, IsMiddle param)
    (formatted : format isTagValid requiresID tags source command params = some message) :
    parse message = some ⟨tags, (source.id? requiresID).getD [], command, params⟩ := by
  rw [format, Option.map_eq_some_iff] at formatted
  obtain ⟨written, from_, rfl⟩ := formatted
  rw [formatTags_of_accepted accepted, List.append_assoc, List.append_assoc]
  by_cases none : tags.entries = []
  · obtain ⟨⟨token, rest⟩, read, notAt, parsed⟩ :=
      exists_parseSource from_ isId isCommand middle (SortedMap.empty : Tags casemap)
    have noTags : SortedMap.empty = tags := SortedMap.ext none.symm
    rw [if_pos none, List.nil_append, parse, read, Option.getD_some]
    split
    · rename_i equal
      cases equal
      exact absurd rfl notAt
    · rw [parsed, noTags]
  · obtain ⟨first, read, _, parsed⟩ := exists_parseSource from_ isId isCommand middle tags
    have isWord : IsWord (64 :: joinTags tags.entries) :=
      ⟨List.cons_ne_nil _ _, by simpa using not_mem_joinTags isTag⟩
    have token := getMiddle_append isWord
      (head?_source from_ isCommand (if params = [] then [] else 32 :: formatParams params))
    rw [if_neg none, List.append_assoc, List.singleton_append, parse, token, Option.getD_some]
    simp only [read, foldl_parseTag isTag, Option.bind_some, parsed]

/-- A message from services with a tag that has no value. -/
theorem parse_format_privmsg :
    let tags : Tags Casemap.ascii :=
      ⟨[(ascii "account", ascii "user"), (ascii "msgid", [])], by decide⟩
    let params := [ascii "#chan", ascii ":-) hi"]
    parse (ascii "@account=user;msgid :00A PRIVMSG #chan ::-) hi") =
      some ⟨tags, ascii "00A", ascii "PRIVMSG", params⟩ :=
  @parse_format .ascii (fun _ _ => true) true _
    ⟨some ⟨ascii "services.example", ascii "00A", true, false⟩, none, none⟩ _ _ _
    (by decide) (by decide) (by decide) (by decide) (by decide) (by decide)

end Anope.Message
