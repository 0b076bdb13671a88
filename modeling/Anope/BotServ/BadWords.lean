import Anope.Library.Words
import Anope.Text.Ctcp
import Anope.Text.Formatting

/-!
# Bad words

The bad words kicker of `bs_kick` looks for each bad word of a channel in a message without its
formatting: anywhere, at the start or at the end of a word, or as a word.
-/

namespace Anope.BotServ

open Library Library.Split Anope.Text

/-- `BadWordType`. -/
inductive BadWordType where
  | bwAny
  | bwSingle
  | bwStart
  | bwEnd
  deriving DecidableEq, Repr

/-- `BadWord`. -/
structure BadWord where
  word : Str
  type : BadWordType
  deriving DecidableEq, Repr

/-! ## Searching -/

/-- `find` of a character: how much stands before the first one. -/
def findChr (text : Str) (chr : UInt8) : Option Nat :=
  (cut chr text).map fun parts => parts.1.length

/-- `rfind` of a character: how much stands before the last one. -/
def rfindChr (text : Str) (chr : UInt8) : Option Nat :=
  (cut chr text.reverse).map fun parts => parts.2.length

/-- `find`: how much stands before the first occurrence. -/
def find (text str : Str) : Option Nat :=
  (Replace.cutAt str text).map fun parts => parts.1.length

section Code

variable (casemap : Casemap) (casesensitive : Bool)

/-- `equals_cs` or `equals_ci`. -/
def equals (left right : Str) : Bool :=
  (casesensitive && left == right) || (!casesensitive && casemap.equalsCi left right)

/-- `find` or `find_ci`. -/
def findWord (text str : Str) : Option Nat :=
  if casesensitive then find text str else find (casemap.ciStr text) (casemap.ciStr str)

/-- The body of the loop over the bad words: what `mustkick` becomes. -/
def BadWord.mustKick (nbuf : Str) (bw : BadWord) : Bool :=
  let len := bw.word.length
  if bw.word = [] then false
  else if len > nbuf.length then false
  else
    match bw.type with
    | .bwAny => (findWord casemap casesensitive nbuf bw.word).isSome
    | .bwSingle =>
        if equals casemap casesensitive bw.word nbuf then true
        else if findChr nbuf 32 = some len ∧
            equals casemap casesensitive bw.word (nbuf.take len) then true
        else if len < nbuf.length ∧ rfindChr nbuf 32 = some (nbuf.length - len - 1) ∧
            findWord casemap casesensitive nbuf bw.word = some (nbuf.length - len) then true
        else (findWord casemap casesensitive nbuf ([32] ++ bw.word ++ [32])).isSome
    | .bwStart =>
        if equals casemap casesensitive (nbuf.take len) bw.word then true
        else (findWord casemap casesensitive nbuf ([32] ++ bw.word)).isSome
    | .bwEnd =>
        if equals casemap casesensitive (nbuf.drop (nbuf.length - len)) bw.word then true
        else (findWord casemap casesensitive nbuf (bw.word ++ [32])).isSome

/-- The bad words kicker: the first bad word that the user is kicked for. -/
def badWordsKicker (badwords : List BadWord) (realbuf : Str) : Option BadWord :=
  let nbuf := removeFormatting realbuf
  if nbuf = [] then none else badwords.find? (BadWord.mustKick casemap casesensitive nbuf)

/-! ## What the types say -/

/-- A text as it is compared. -/
def folded (text : Str) : Str :=
  if casesensitive then text else casemap.ciStr text

/-- A text has some word. -/
def HasWord (text word : Str) : Prop :=
  ∃ token ∈ tokens 32 text, folded casemap casesensitive token = folded casemap casesensitive word

/-- What the type of a bad word says about a message. -/
def BadWord.Occurs (nbuf : Str) (bw : BadWord) : Prop :=
  let word := folded casemap casesensitive bw.word
  match bw.type with
  | .bwAny => word <:+: folded casemap casesensitive nbuf
  | .bwSingle => HasWord casemap casesensitive nbuf bw.word
  | .bwStart => ∃ token ∈ tokens 32 nbuf, word <+: folded casemap casesensitive token
  | .bwEnd => ∃ token ∈ tokens 32 nbuf, word <:+ folded casemap casesensitive token

/-- If the word is the last one, behind a space, it does not occur before, or it does as a word. -/
def LastWordFound (nbuf word : Str) : Prop :=
  ∀ front last, nbuf = front ++ 32 :: last →
    folded casemap casesensitive last = folded casemap casesensitive word →
      folded casemap casesensitive word <:+: folded casemap casesensitive front →
        HasWord casemap casesensitive front word

end Code

/-- A word without spaces. -/
structure IsWord (word : Str) : Prop where
  nonempty : word ≠ []
  noSpace : 32 ∉ word
  noNul : 0 ∉ word

/-! ## Comparing -/

variable {casemap : Casemap} {casesensitive : Bool} {nbuf word : Str}

/-- A byte as it is compared. -/
def letter (casemap : Casemap) (casesensitive : Bool) (byte : UInt8) : UInt8 :=
  if casesensitive then byte else casemap.toupper byte

theorem folded_eq_map {text : Str} (noNul : 0 ∉ text) :
    folded casemap casesensitive text = text.map (letter casemap casesensitive) := by
  cases casesensitive with
  | true => exact (List.map_id text).symm
  | false =>
      change (cStr text).map casemap.toupper = text.map casemap.toupper
      rw [cStr_eq_self_iff.mpr noNul]

theorem letter_eq_space (onlySpace : ∀ byte, casemap.toupper byte = casemap.toupper 32 → byte = 32)
    (byte : UInt8)
    (same : letter casemap casesensitive byte = letter casemap casesensitive 32) : byte = 32 := by
  cases casesensitive with
  | true => exact same
  | false => exact onlySpace byte same

theorem equals_iff {left right : Str} :
    equals casemap casesensitive left right = true ↔
      folded casemap casesensitive left = folded casemap casesensitive right := by
  cases casesensitive with
  | true => simp [equals, folded]
  | false => simp [equals, folded]

theorem findWord_eq (text str : Str) :
    findWord casemap casesensitive text str =
      find (folded casemap casesensitive text) (folded casemap casesensitive str) := by
  cases casesensitive with
  | true => rfl
  | false => rfl

theorem isSome_findWord_iff {text str : Str} :
    (findWord casemap casesensitive text str).isSome ↔
      folded casemap casesensitive str <:+: folded casemap casesensitive text := by
  rw [findWord_eq, find, Option.isSome_map, Replace.isSome_cutAt_iff]

theorem findChr_eq_some_iff {text : Str} {chr : UInt8} {index : Nat} :
    findChr text chr = some index ↔
      ∃ front last, text = front ++ chr :: last ∧ front.length = index ∧ chr ∉ front := by
  rw [findChr, Option.map_eq_some_iff]
  constructor
  · rintro ⟨parts, found, isIndex⟩
    obtain ⟨same, absent⟩ := cut_eq_some_iff.mp found
    exact ⟨parts.1, parts.2, same, isIndex, absent⟩
  · rintro ⟨front, last, same, isIndex, absent⟩
    exact ⟨(front, last), cut_eq_some_iff.mpr ⟨same, absent⟩, isIndex⟩

theorem rfindChr_eq_some_iff {text : Str} {chr : UInt8} {index : Nat} :
    rfindChr text chr = some index ↔
      ∃ front last, text = front ++ chr :: last ∧ front.length = index ∧ chr ∉ last := by
  rw [rfindChr, Option.map_eq_some_iff]
  constructor
  · rintro ⟨parts, found, isIndex⟩
    obtain ⟨same, absent⟩ := cut_eq_some_iff.mp found
    refine ⟨parts.2.reverse, parts.1.reverse, ?_, ?_, ?_⟩
    · rw [← List.reverse_reverse text, same, List.reverse_append, List.reverse_cons,
        List.append_assoc, List.singleton_append]
    · rw [List.length_reverse, isIndex]
    · rwa [List.mem_reverse]
  · rintro ⟨front, last, rfl, isIndex, absent⟩
    refine ⟨(last.reverse, front.reverse), cut_eq_some_iff.mpr ⟨?_, ?_⟩, ?_⟩
    · rw [List.reverse_append, List.reverse_cons, List.append_assoc, List.singleton_append]
    · rwa [List.mem_reverse]
    · rw [List.length_reverse, isIndex]

/-! ## Words of a message -/

theorem not_mem_of_mem_tokens {text token : Str} (noNul : 0 ∉ text) (mem : token ∈ tokens 32 text) :
    0 ∉ token := by
  obtain ⟨_, _, before, after, _, _, rfl⟩ := exists_append_of_mem_tokens mem
  simp only [List.mem_append, not_or] at noNul
  exact noNul.2.1

theorem folded_ne_nil (casemap : Casemap) (casesensitive : Bool) (isWord : IsWord word) :
    folded casemap casesensitive word ≠ [] := by
  rw [folded_eq_map isWord.noNul]
  exact fun nil => isWord.nonempty (List.map_eq_nil_iff.mp nil)

theorem length_folded (casemap : Casemap) (casesensitive : Bool) {text : Str}
    (noNul : 0 ∉ text) :
    (folded casemap casesensitive text).length = text.length := by
  rw [folded_eq_map noNul, List.length_map]

theorem folded_append {left right : Str} (noNul : 0 ∉ left ++ right) :
    folded casemap casesensitive (left ++ right) =
      folded casemap casesensitive left ++ folded casemap casesensitive right := by
  have parts := noNul
  rw [List.mem_append, not_or] at parts
  rw [folded_eq_map noNul, folded_eq_map parts.1, folded_eq_map parts.2, List.map_append]

@[simp]
theorem folded_space : folded casemap casesensitive [32] = [letter casemap casesensitive 32] :=
  folded_eq_map (by decide)

section Word

variable (onlySpace : ∀ byte, casemap.toupper byte = casemap.toupper 32 → byte = 32)
  (isWord : IsWord word)

include onlySpace

/-- A property of some word of a text, as it is compared. -/
theorem exists_token_iff {text : Str} (noNul : 0 ∉ text) (property : Str → Prop) :
    (∃ token ∈ tokens 32 text, property (folded casemap casesensitive token)) ↔
      ∃ token ∈ tokens (letter casemap casesensitive 32) (folded casemap casesensitive text),
        property token := by
  rw [folded_eq_map noNul, tokens_map (letter_eq_space onlySpace)]
  constructor
  · rintro ⟨token, mem, holds⟩
    rw [folded_eq_map (not_mem_of_mem_tokens noNul mem)] at holds
    exact ⟨_, List.mem_map_of_mem mem, holds⟩
  · rintro ⟨_, mem, holds⟩
    obtain ⟨token, isToken, rfl⟩ := List.mem_map.mp mem
    rw [← folded_eq_map (not_mem_of_mem_tokens noNul isToken)] at holds
    exact ⟨token, isToken, holds⟩

theorem hasWord_iff {text : Str} (noNul : 0 ∉ text) :
    HasWord casemap casesensitive text word ↔
      folded casemap casesensitive word ∈
        tokens (letter casemap casesensitive 32) (folded casemap casesensitive text) := by
  rw [HasWord, exists_token_iff onlySpace noNul
    fun token => token = folded casemap casesensitive word]
  exact exists_eq_right

include isWord

theorem space_not_mem_folded (casesensitive : Bool) :
    letter casemap casesensitive 32 ∉ folded casemap casesensitive word := by
  rw [folded_eq_map isWord.noNul]
  intro mem
  obtain ⟨byte, isByte, same⟩ := List.mem_map.mp mem
  exact isWord.noSpace (letter_eq_space onlySpace byte same ▸ isByte)

end Word

/-! ## The tests -/

section Tests

variable (isWord : IsWord word) (noNul : 0 ∉ nbuf)

include isWord noNul

/-- The start of a message is compared with a word. -/
theorem equals_take_iff :
    equals casemap casesensitive (nbuf.take word.length) word = true ↔
      folded casemap casesensitive word <+: folded casemap casesensitive nbuf := by
  have noNulTake : 0 ∉ nbuf.take word.length := fun mem => noNul (List.mem_of_mem_take mem)
  rw [equals_iff, List.prefix_iff_eq_take, length_folded _ _ isWord.noNul, folded_eq_map noNulTake,
    folded_eq_map noNul, List.map_take, eq_comm]

/-- The end of a message is compared with a word. -/
theorem equals_drop_iff :
    equals casemap casesensitive (nbuf.drop (nbuf.length - word.length)) word = true ↔
      folded casemap casesensitive word <:+ folded casemap casesensitive nbuf := by
  have noNulDrop : 0 ∉ nbuf.drop (nbuf.length - word.length) :=
    fun mem => noNul (List.mem_of_mem_drop mem)
  rw [equals_iff, List.suffix_iff_eq_drop, length_folded _ _ isWord.noNul, length_folded _ _ noNul,
    folded_eq_map noNulDrop, folded_eq_map noNul, List.map_drop, eq_comm]

end Tests

section Positions

variable (onlySpace : ∀ byte, casemap.toupper byte = casemap.toupper 32 → byte = 32)
  (isWord : IsWord word) (noNul : 0 ∉ nbuf)

include onlySpace noNul

/-- Where a compared text is cut at a space, the text is. -/
theorem folded_eq_append_cons_iff {left right : Str} :
    folded casemap casesensitive nbuf = left ++ letter casemap casesensitive 32 :: right ↔
      ∃ front last, nbuf = front ++ 32 :: last ∧ folded casemap casesensitive front = left ∧
        folded casemap casesensitive last = right := by
  constructor
  · intro same
    rw [folded_eq_map noNul, List.map_eq_append_iff] at same
    obtain ⟨front, rest, rfl, rfl, isRest⟩ := same
    obtain ⟨byte, last, rfl, isSpace, rfl⟩ := List.map_eq_cons_iff.mp isRest
    cases letter_eq_space onlySpace byte isSpace
    simp only [List.mem_append, List.mem_cons, not_or] at noNul
    exact ⟨front, last, rfl, folded_eq_map noNul.1, folded_eq_map noNul.2.2⟩
  · rintro ⟨front, last, rfl, rfl, rfl⟩
    have parts := noNul
    simp only [List.mem_append, List.mem_cons, not_or] at parts
    rw [folded_eq_map noNul, folded_eq_map parts.1, folded_eq_map parts.2.2, List.map_append,
      List.map_cons]

/-- The last word is where the word is looked for, or is found elsewhere. -/
theorem lastWordFound_iff :
    LastWordFound casemap casesensitive nbuf word ↔
      ∀ front, folded casemap casesensitive nbuf =
          front ++ letter casemap casesensitive 32 :: folded casemap casesensitive word →
        folded casemap casesensitive word <:+: front →
          folded casemap casesensitive word ∈ tokens (letter casemap casesensitive 32) front := by
  constructor
  · intro found _ same occurs
    obtain ⟨front, last, rfl, rfl, isLast⟩ := (folded_eq_append_cons_iff onlySpace noNul).mp same
    have noNulFront : 0 ∉ front := fun mem => noNul (List.mem_append_left _ mem)
    exact (hasWord_iff onlySpace noNulFront).mp (found front last rfl isLast occurs)
  · intro found front last same isLast occurs
    have noNulFront : 0 ∉ front := fun mem => noNul (same ▸ List.mem_append_left _ mem)
    apply (hasWord_iff onlySpace noNulFront).mpr
    apply found _ _ occurs
    exact (folded_eq_append_cons_iff onlySpace noNul).mpr ⟨front, last, same, rfl, isLast⟩

include isWord

/-- The first word is compared. -/
theorem first_iff :
    findChr nbuf 32 = some word.length ∧
        equals casemap casesensitive word (nbuf.take word.length) = true ↔
      folded casemap casesensitive word ++ [letter casemap casesensitive 32] <+:
        folded casemap casesensitive nbuf := by
  rw [findChr_eq_some_iff, equals_iff]
  constructor
  · rintro ⟨⟨front, last, isCut, length, _⟩, same⟩
    have isFront : nbuf.take word.length = front := by
      rw [isCut, List.take_left' length]
    rw [isFront] at same
    refine ⟨folded casemap casesensitive last, ?_⟩
    rw [List.append_assoc, List.singleton_append, eq_comm]
    exact (folded_eq_append_cons_iff onlySpace noNul).mpr ⟨front, last, isCut, same.symm, rfl⟩
  · rintro ⟨rest, same⟩
    rw [List.append_assoc, List.singleton_append, eq_comm] at same
    obtain ⟨front, last, rfl, isFront, _⟩ := (folded_eq_append_cons_iff onlySpace noNul).mp same
    simp only [List.mem_append, List.mem_cons, not_or] at noNul
    have length : front.length = word.length := by
      rw [← length_folded casemap casesensitive noNul.1, isFront,
        length_folded casemap casesensitive isWord.noNul]
    have noSpace := space_not_mem_folded onlySpace isWord casesensitive
    rw [← isFront, folded_eq_map noNul.1] at noSpace
    refine ⟨⟨front, last, rfl, length, fun mem => noSpace (List.mem_map_of_mem mem)⟩, ?_⟩
    rw [List.take_left' length, isFront]

/-- The last word is compared, if it is where the word occurs first. -/
theorem last_iff :
    word.length < nbuf.length ∧ rfindChr nbuf 32 = some (nbuf.length - word.length - 1) ∧
        findWord casemap casesensitive nbuf word = some (nbuf.length - word.length) ↔
      ∃ front, folded casemap casesensitive nbuf =
          front ++ letter casemap casesensitive 32 :: folded casemap casesensitive word ∧
        ¬folded casemap casesensitive word <:+: front := by
  have nonempty := folded_ne_nil casemap casesensitive isWord
  have noSpace := space_not_mem_folded onlySpace isWord casesensitive
  have wordLength := length_folded casemap casesensitive isWord.noNul
  rw [rfindChr_eq_some_iff, findWord_eq, find]
  constructor
  · rintro ⟨shorter, ⟨front, last, rfl, length, _⟩, found⟩
    have cut : folded casemap casesensitive (front ++ 32 :: last) = _ :=
      (folded_eq_append_cons_iff onlySpace noNul).mpr ⟨front, last, rfl, rfl, rfl⟩
    simp only [List.mem_append, List.mem_cons, not_or] at noNul
    rw [List.length_append, List.length_cons] at shorter length found
    have frontLength := length_folded casemap casesensitive noNul.1
    have lastLength := length_folded casemap casesensitive noNul.2.2
    obtain ⟨⟨before, after⟩, isFound, index⟩ := Option.map_eq_some_iff.mp found
    have index : before.length =
      front.length + (last.length + 1) - word.length := index
    -- what is found starts behind the space, and is as long as what is there
    have whole : folded casemap casesensitive front ++ [letter casemap casesensitive 32] ++
        folded casemap casesensitive last =
          before ++ (folded casemap casesensitive word ++ after) := by
      rw [← List.append_assoc, ← Replace.append_of_cutAt isFound, cut, List.append_assoc,
        List.singleton_append]
    have behind := (List.append_inj whole (by
      rw [List.length_append, List.length_singleton]
      omega)).2
    have none : after = [] := by
      have lengths := congrArg List.length behind
      rw [List.length_append] at lengths
      exact List.eq_nil_of_length_eq_zero (by omega)
    rw [none, List.append_nil] at behind
    rw [cut, behind] at found ⊢
    refine ⟨_, rfl, (cutAt_append_cons_iff nonempty noSpace _).mp ?_⟩
    rw [found]
    exact congrArg some (by omega)
  · rintro ⟨_, same, absent⟩
    obtain ⟨front, last, rfl, rfl, isLast⟩ := (folded_eq_append_cons_iff onlySpace noNul).mp same
    have found := (cutAt_append_cons_iff nonempty noSpace _).mpr absent
    simp only [List.mem_append, List.mem_cons, not_or] at noNul
    have frontLength := length_folded casemap casesensitive noNul.1
    have lastLength := length_folded casemap casesensitive noNul.2.2
    rw [isLast, wordLength] at lastLength
    rw [List.length_append, List.length_cons]
    refine ⟨by omega, ⟨front, last, rfl, by omega, ?_⟩, ?_⟩
    · rw [← isLast, folded_eq_map noNul.2.2] at noSpace
      exact fun mem => noSpace (List.mem_map_of_mem mem)
    · rw [same, found]
      exact congrArg some (by omega)

/-- Words that start with a word. -/
theorem exists_prefix_iff :
    (∃ token ∈ tokens 32 nbuf,
        folded casemap casesensitive word <+: folded casemap casesensitive token) ↔
      equals casemap casesensitive (nbuf.take word.length) word = true ∨
        (findWord casemap casesensitive nbuf ([32] ++ word)).isSome := by
  have noNulAround : 0 ∉ [32] ++ word := by simp [isWord.noNul]
  rw [exists_token_iff onlySpace noNul fun token => folded casemap casesensitive word <+: token,
    exists_prefix_token_iff (folded_ne_nil casemap casesensitive isWord)
      (space_not_mem_folded onlySpace isWord casesensitive),
    equals_take_iff isWord noNul, isSome_findWord_iff, folded_append noNulAround, folded_space,
    List.singleton_append]

/-- Words that end with a word. -/
theorem exists_suffix_iff :
    (∃ token ∈ tokens 32 nbuf,
        folded casemap casesensitive word <:+ folded casemap casesensitive token) ↔
      equals casemap casesensitive (nbuf.drop (nbuf.length - word.length)) word = true ∨
        (findWord casemap casesensitive nbuf (word ++ [32])).isSome := by
  have noNulAround : 0 ∉ word ++ [32] := by simp [isWord.noNul]
  rw [exists_token_iff onlySpace noNul fun token => folded casemap casesensitive word <:+ token,
    exists_suffix_token_iff (folded_ne_nil casemap casesensitive isWord)
      (space_not_mem_folded onlySpace isWord casesensitive),
    equals_drop_iff isWord noNul, isSome_findWord_iff, folded_append noNulAround, folded_space]

/-- The tests for a single word find it, except for some last words. -/
theorem hasWord_and_lastWordFound_iff :
    HasWord casemap casesensitive nbuf word ∧ LastWordFound casemap casesensitive nbuf word ↔
      equals casemap casesensitive word nbuf = true ∨
        (findChr nbuf 32 = some word.length ∧
          equals casemap casesensitive word (nbuf.take word.length) = true) ∨
        (word.length < nbuf.length ∧ rfindChr nbuf 32 = some (nbuf.length - word.length - 1) ∧
          findWord casemap casesensitive nbuf word = some (nbuf.length - word.length)) ∨
        (findWord casemap casesensitive nbuf ([32] ++ word ++ [32])).isSome := by
  have nonempty := folded_ne_nil casemap casesensitive isWord
  have noSpace := space_not_mem_folded onlySpace isWord casesensitive
  have noNulAround : 0 ∉ [32] ++ word ++ [32] := by simp [isWord.noNul]
  have noNulFront : 0 ∉ [32] ++ word := by simp [isWord.noNul]
  rw [hasWord_iff onlySpace noNul, lastWordFound_iff onlySpace noNul, equals_iff,
    first_iff onlySpace isWord noNul, last_iff onlySpace isWord noNul, isSome_findWord_iff,
    folded_append noNulAround, folded_append noNulFront, folded_space, List.singleton_append]
  exact mem_tokens_and_front_iff nonempty noSpace

end Positions

/-! ## The types -/

section Types

variable {bw : BadWord} (onlySpace : ∀ byte, casemap.toupper byte = casemap.toupper 32 → byte = 32)
  (isWord : IsWord bw.word) (noNul : 0 ∉ nbuf)

include onlySpace isWord noNul

/-- A message is at least as long as a word that occurs in it. -/
theorem length_le_of_occurs (occurs : bw.Occurs casemap casesensitive nbuf) :
    bw.word.length ≤ nbuf.length := by
  have inside : folded casemap casesensitive bw.word <:+: folded casemap casesensitive nbuf := by
    rw [BadWord.Occurs] at occurs
    split at occurs
    · exact occurs
    · exact infix_of_mem_tokens ((hasWord_iff onlySpace noNul).mp occurs)
    · rw [exists_token_iff onlySpace noNul fun token =>
        folded casemap casesensitive bw.word <+: token] at occurs
      obtain ⟨token, mem, starts⟩ := occurs
      exact starts.isInfix.trans (infix_of_mem_tokens mem)
    · rw [exists_token_iff onlySpace noNul fun token =>
        folded casemap casesensitive bw.word <:+ token] at occurs
      obtain ⟨token, mem, ends⟩ := occurs
      exact ends.isInfix.trans (infix_of_mem_tokens mem)
  have lengths := inside.length_le
  rwa [length_folded _ _ isWord.noNul, length_folded _ _ noNul] at lengths

/-- A bad word is found where it occurs, but for some last words. -/
theorem mustKick_iff :
    bw.mustKick casemap casesensitive nbuf = true ↔
      bw.Occurs casemap casesensitive nbuf ∧
        (bw.type = .bwSingle → LastWordFound casemap casesensitive nbuf bw.word) := by
  have length_le : bw.Occurs casemap casesensitive nbuf → bw.word.length ≤ nbuf.length :=
    length_le_of_occurs onlySpace isWord noNul
  rw [BadWord.mustKick, if_neg isWord.nonempty]
  split
  next longer =>
    exact iff_of_false Bool.false_ne_true fun both =>
      absurd (length_le both.1) (Nat.not_le.mpr longer)
  · rw [BadWord.Occurs]
    cases bw.type with
    | bwAny => simp [isSome_findWord_iff]
    | bwSingle =>
        simp only [true_implies, Bool.if_true_left, Bool.or_eq_true, decide_eq_true_iff]
        exact (hasWord_and_lastWordFound_iff onlySpace isWord noNul).symm
    | bwStart =>
        simp only [exists_prefix_iff onlySpace isWord noNul, reduceCtorEq, false_implies, and_true,
          Bool.if_true_left, Bool.or_eq_true, decide_eq_true_iff]
    | bwEnd =>
        simp only [exists_suffix_iff onlySpace isWord noNul, reduceCtorEq, false_implies, and_true,
          Bool.if_true_left, Bool.or_eq_true, decide_eq_true_iff]

/-- A last word is a word. -/
theorem hasWord_of_append {front last : Str} (isCut : nbuf = front ++ 32 :: last)
    (isLast : folded casemap casesensitive last = folded casemap casesensitive bw.word) :
    HasWord casemap casesensitive nbuf bw.word := by
  rw [hasWord_iff onlySpace noNul, mem_tokens_iff (folded_ne_nil casemap casesensitive isWord)
    (space_not_mem_folded onlySpace isWord casesensitive)]
  have same := (folded_eq_append_cons_iff onlySpace noNul).mpr ⟨front, last, isCut, rfl, isLast⟩
  exact .inr (.inr (.inl ⟨_, same.symm⟩))

/-- The tests for a bad word mean what its type says, unless it is to be a word, is the last one,
and occurs before but not as a word. -/
theorem mustKick_exact_iff :
    (bw.mustKick casemap casesensitive nbuf = true ↔ bw.Occurs casemap casesensitive nbuf) ↔
      (bw.type = .bwSingle → LastWordFound casemap casesensitive nbuf bw.word) := by
  rw [mustKick_iff onlySpace isWord noNul, and_iff_left_iff_imp]
  constructor
  · intro found isSingle front last isCut isLast
    have occurs : bw.Occurs casemap casesensitive nbuf := by
      rw [BadWord.Occurs, isSingle]
      exact hasWord_of_append onlySpace isWord noNul isCut isLast
    exact found occurs isSingle front last isCut isLast
  · exact fun found _ => found

end Types

/-! ## The case maps -/

theorem ascii_onlySpace :
    ∀ byte, Casemap.ascii.toupper byte = Casemap.ascii.toupper 32 → byte = 32 :=
  Library.Bits.forall_byte (by decide +kernel)

theorem mustKick_exact_foo :
    ((BadWord.mk (ascii "foo") .bwSingle).mustKick .ascii false (ascii "a Foo") = true ↔
        (BadWord.mk (ascii "foo") .bwSingle).Occurs .ascii false (ascii "a Foo")) ↔
      ((BadWord.mk (ascii "foo") .bwSingle).type = .bwSingle →
        LastWordFound .ascii false (ascii "a Foo") (ascii "foo")) :=
  mustKick_exact_iff ascii_onlySpace ⟨by decide, by decide, by decide⟩ (by decide)

/-- A last word is not found when it is also the start of another one. -/
theorem not_mustKick_exact_fooing :
    ¬((BadWord.mk (ascii "foo") .bwSingle).mustKick .ascii false (ascii "fooing foo") = true ↔
      (BadWord.mk (ascii "foo") .bwSingle).Occurs .ascii false (ascii "fooing foo")) := by
  have missed : (BadWord.mk (ascii "foo") .bwSingle).mustKick .ascii false (ascii "fooing foo") =
      false := by decide
  have isWord : HasWord .ascii false (ascii "fooing foo") (ascii "foo") :=
    ⟨ascii "foo", by decide, rfl⟩
  rw [missed]
  exact fun same => Bool.false_ne_true (same.mpr isWord)

end Anope.BotServ
