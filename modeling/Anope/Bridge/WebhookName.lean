import Anope.Bridge.Wire
import Anope.Library.Breaking
import Mathlib.Data.List.GetD

/-!
# Names of webhooks

`Text::WebhookName` breaks the words that Discord does not accept in the name of a webhook, word by
word from the front, and goes on behind each occurrence.  So an occurrence that overlaps one before
it is passed over.
-/

namespace Anope.Bridge

open Library.Breaking
open Library.Utf8 (continues width)
open Text (asciiTolower)

/-- `std::tolower` in the classic locale. -/
def tolower (chr : UInt8) : UInt8 :=
  asciiTolower chr

/-- `banned`. -/
def banned : List Str :=
  [ascii "discord", ascii "clyde"]

/-- The loop of `WebhookName` for one word, from a place in the name on. -/
def breakWord (word : Str) : Str → Str
  | [] => []
  | chr :: rest =>
      if word <+: (chr :: rest).map tolower then
        chr :: 49 :: (rest.take (word.length - 1)).drop 1 ++
          breakWord word (rest.drop (word.length - 1))
      else chr :: breakWord word rest
  termination_by name => name.length
  decreasing_by
    · rw [List.length_drop]
      exact Nat.lt_succ_of_le (Nat.sub_le _ _)
    · exact Nat.lt_succ_self _

/-- `Text::WebhookName`. -/
def webhookName (nick suffix : Str) : Str :=
  let name := banned.foldl (fun name word => breakWord word name) nick
  truncateUtf8 (name ++ suffix) 80

/-- A word is in a name, in any letter case. -/
def Contains (word name : Str) : Prop :=
  word <:+: name.map tolower

instance decidableContains (word name : Str) : Decidable (Contains word name) :=
  inferInstanceAs (Decidable (_ <:+: _))

/-- A name that Discord accepts. -/
def Acceptable (name : Str) : Prop :=
  name.length ≤ 80 ∧ ∀ word ∈ banned, ¬Contains word name

/-- A letter. -/
def isAlpha (chr : UInt8) : Bool :=
  65 ≤ chr && chr ≤ 90 || 97 ≤ chr && chr ≤ 122

/-! ## Names in lower case -/

theorem map_breakWord (word name : Str) :
    (breakWord word name).map tolower = breakAll word 49 (name.map tolower) := by
  induction name using breakWord.induct word with
  | case1 =>
      rw [breakWord, List.map_nil, breakAll]
  | case2 chr rest starts ih =>
      have lowerStarts : word <+: tolower chr :: rest.map tolower := starts
      rw [breakWord, if_pos starts, List.map_append, ih, List.map_cons, List.map_cons,
        List.map_drop, List.map_take, List.map_drop]
      change _ = breakAll word 49 (tolower chr :: rest.map tolower)
      rw [breakAll, if_pos lowerStarts]
      rfl
  | case3 chr rest none ih =>
      rw [breakWord, if_neg none, List.map_cons, ih]
      exact (breakAll_cons_of_not none).symm

/-- The name before it is cut, in lower case. -/
def lowerName (nick : Str) : Str :=
  breakAll (ascii "clyde") 49 (breakAll (ascii "discord") 49 (nick.map tolower))

theorem map_foldl_breakWord (nick : Str) :
    (banned.foldl (fun name word => breakWord word name) nick).map tolower = lowerName nick := by
  rw [banned, List.foldl_cons, List.foldl_cons, List.foldl_nil, map_breakWord, map_breakWord]
  rfl

theorem isWord_discord : ascii "discord" = 100 :: 105 :: ([115, 99, 111, 114] ++ [100]) :=
  rfl

theorem isWord_clyde : ascii "clyde" = 99 :: 108 :: ([121, 100] ++ [101]) :=
  rfl

/-- `clyde` is not left, and `discord` where two of them overlap. -/
theorem contains_take_lowerName (nick : Str) (len : Nat) :
    ¬ascii "clyde" <:+: (lowerName nick).take len ∧
      (ascii "discord" <:+: (lowerName nick).take len ↔
        ascii "discordiscord" <:+: (nick.map tolower).take len) := by
  constructor
  · intro left
    rw [lowerName, infix_take_breakAll_iff isWord_clyde (by decide) (by decide)] at left
    exact absurd left.1 (by decide)
  · have marked : Marked 108 49 (breakAll (ascii "discord") 49 (nick.map tolower))
        (lowerName nick) := marked_breakAll isWord_clyde _
    rw [(marked.take len).infix_iff (by decide) (by decide),
      infix_take_breakAll_iff isWord_discord (by decide) (by decide)]
    exact and_iff_right rfl

/-! ## The cut -/

/-- A text with bytes of the same kinds is cut in the same place. -/
theorem length_truncateUtf8_congr {str str' : Str} (maxbytes : Nat)
    (sameContinues : str.map continues = str'.map continues)
    (sameWidth : str.map width = str'.map width) :
    (truncateUtf8 str maxbytes).length = (truncateUtf8 str' maxbytes).length := by
  have length : str.length = str'.length := by
    rw [← List.length_map continues, sameContinues, List.length_map]
  have continuesAt (pos : Nat) : continues (str.getD pos 0) = continues (str'.getD pos 0) := by
    rw [← List.getD_map _ _ continues, ← List.getD_map _ _ continues, sameContinues]
  have widthAt (pos : Nat) : width (str.getD pos 0) = width (str'.getD pos 0) := by
    rw [← List.getD_map _ _ width, ← List.getD_map _ _ width, sameWidth]
  have back (pos : Nat) : rewind str pos = rewind str' pos := by
    induction pos with
    | zero => rfl
    | succ pos ih => rw [rewind, rewind, continuesAt, ih]
  rw [truncateUtf8, truncateUtf8]
  simp only [back, widthAt, length]
  split
  · exact length
  · split
    · rw [List.length_take, List.length_take, length]
    · rw [List.length_take, List.length_take, length]

/-- A letter and the one in lower case are both characters of their own. -/
theorem sequence_tolower : ∀ chr : UInt8,
    continues (tolower chr) = continues chr ∧ width (tolower chr) = width chr :=
  Library.Bits.forall_byte (by decide +kernel)

/-- What does not tell a digit from a letter, or a letter from the one in lower case, is not
changed in a name. -/
theorem map_lowerName {β : Type} {f : UInt8 → β} (nick : Str) (fold : ∀ chr, f (tolower chr) = f chr)
    (sameI : f 49 = f 105) (sameL : f 49 = f 108) : (lowerName nick).map f = nick.map f := by
  rw [lowerName, (marked_breakAll isWord_clyde _).map_eq sameL,
    (marked_breakAll isWord_discord _).map_eq sameI, List.map_map]
  exact List.map_congr_left fun chr _ => fold chr

/-- A text is cut to its beginning. -/
theorem truncateUtf8_eq_take_length (str : Str) (maxbytes : Nat) :
    truncateUtf8 str maxbytes = str.take (truncateUtf8 str maxbytes).length := by
  rw [← List.prefix_iff_eq_take]
  exact ⟨_, truncateUtf8_append_drop str maxbytes⟩

/-- The name is cut where the nickname and the suffix would be. -/
theorem map_webhookName (nick suffix : Str) :
    (webhookName nick suffix).map tolower =
      (lowerName nick ++ suffix.map tolower).take (truncateUtf8 (nick ++ suffix) 80).length := by
  have lower := map_foldl_breakWord nick
  have kinds {β : Type} {f : UInt8 → β} (fold : ∀ chr, f (tolower chr) = f chr)
      (sameI : f 49 = f 105) (sameL : f 49 = f 108) :
      (banned.foldl (fun name word => breakWord word name) nick ++ suffix).map f =
        (nick ++ suffix).map f := by
    have folded : ∀ text : Str, (text.map tolower).map f = text.map f := by
      intro text
      rw [List.map_map]
      exact List.map_congr_left fun chr _ => fold chr
    rw [List.map_append, List.map_append, ← folded, lower, map_lowerName nick fold sameI sameL]
  have length := length_truncateUtf8_congr 80 (kinds (fun chr => (sequence_tolower chr).1) rfl rfl)
    (kinds (fun chr => (sequence_tolower chr).2) rfl rfl)
  rw [webhookName, truncateUtf8_eq_take_length, length, List.map_take, List.map_append, lower]

/-! ## The words in a name -/

theorem tolower_of_not_isAlpha {chr : UInt8} (other : isAlpha chr = false) : tolower chr = chr := by
  refine if_neg fun ⟨least, most⟩ => ?_
  rw [isAlpha, decide_eq_true least, decide_eq_true most] at other
  cases other

theorem tolower_notMem_of_not_isAlpha (chr : UInt8) (other : isAlpha chr = false) :
    ∀ word ∈ ascii "discordiscord" :: banned, tolower chr ∉ word := by
  have letters : (ascii "discordiscord" :: banned).all (List.all · isAlpha) = true := rfl
  intro word isWord mem
  rw [tolower_of_not_isAlpha other] at mem
  have letter := List.all_eq_true.mp (List.all_eq_true.mp letters word isWord) chr mem
  rw [other] at letter
  cases letter

/-- A word stands in the part that is cut off a nickname and a suffix when it does in that of the
nickname. -/
theorem infix_take_append_iff {word name suffix : Str}
    (apart : ∀ chr ∈ suffix.head?, chr ∉ word) (absent : ¬word <:+: suffix) (len : Nat) :
    word <:+: (name ++ suffix).take len ↔ word <:+: name.take len := by
  have absentTake : ¬word <:+: suffix.take (len - name.length) :=
    fun occurs => absent (occurs.trans (List.take_prefix _ _).isInfix)
  have apartTake : ∀ chr ∈ (suffix.take (len - name.length)).head?, chr ∉ word := by
    intro chr isHead
    cases suffix with
    | nil => simp at isHead
    | cons first suffix =>
        cases more : len - name.length with
        | zero => simp [more] at isHead
        | succ _ =>
            rw [more, List.take_succ_cons] at isHead
            exact apart chr isHead
  rw [List.take_append, infix_append_iff_of_apart apartTake, or_iff_left absentTake]

section Suffix

variable {nick suffix : Str} (apart : ∀ chr ∈ suffix.head?, isAlpha chr = false)
  (clean : ∀ word ∈ banned, ¬Contains word suffix)

include apart clean

/-- Neither a word nor two overlapping ones come from the suffix. -/
theorem infix_take_lower_iff {word name : Str} (isWord : word ∈ ascii "discordiscord" :: banned)
    (len : Nat) : word <:+: (name ++ suffix.map tolower).take len ↔ word <:+: name.take len := by
  apply infix_take_append_iff
  · intro chr isHead
    rw [List.head?_map] at isHead
    obtain ⟨first, isFirst, rfl⟩ := Option.map_eq_some_iff.mp isHead
    exact tolower_notMem_of_not_isAlpha first (apart first isFirst) word isWord
  · rcases List.mem_cons.mp isWord with rfl | isBanned
    · intro twice
      have once : ascii "discord" <:+: ascii "discordiscord" := by decide
      exact clean _ (by decide) (once.trans twice)
    · exact clean word isBanned

/-- Discord accepts the name exactly when no two occurrences of its own name overlap in what is
kept of the nickname. -/
theorem acceptable_webhookName_iff :
    Acceptable (webhookName nick suffix) ↔
      ¬Contains (ascii "discordiscord") (truncateUtf8 (nick ++ suffix) 80) := by
  have cut {word : Str} (isWord : word ∈ ascii "discordiscord" :: banned) :
      Contains word (webhookName nick suffix) ↔
        word <:+: (lowerName nick).take (truncateUtf8 (nick ++ suffix) 80).length := by
    rw [Contains, map_webhookName, infix_take_lower_iff apart clean isWord]
  have twice : Contains (ascii "discordiscord") (truncateUtf8 (nick ++ suffix) 80) ↔
      ascii "discordiscord" <:+:
        (nick.map tolower).take (truncateUtf8 (nick ++ suffix) 80).length := by
    rw [Contains, truncateUtf8_eq_take_length, List.map_take, List.map_append,
      infix_take_lower_iff apart clean (by decide), ← truncateUtf8_eq_take_length]
  have fits : (webhookName nick suffix).length ≤ 80 := length_truncateUtf8_le _ _
  obtain ⟨noClyde, discord⟩ :=
    contains_take_lowerName nick (truncateUtf8 (nick ++ suffix) 80).length
  rw [Acceptable, and_iff_right fits, twice, banned, List.forall_mem_cons,
    List.forall_mem_singleton, cut (by decide), cut (by decide), discord]
  exact and_iff_left noClyde

end Suffix

/-- The usual suffix does not start with a letter, and has no word in it. -/
theorem usual_suffix :
    (∀ chr ∈ (ascii " (IRC)").head?, isAlpha chr = false) ∧
      ∀ word ∈ banned, ¬Contains word (ascii " (IRC)") := by
  refine ⟨?_, by decide +kernel⟩
  rintro chr ⟨⟩
  rfl

/-- The usual suffix, behind a nickname with both words. -/
theorem acceptable_webhookName_both :
    (∀ chr ∈ (ascii " (IRC)").head?, isAlpha chr = false) ∧
      (∀ word ∈ banned, ¬Contains word (ascii " (IRC)")) ∧
      Acceptable (webhookName (ascii "ClydeDiscord") (ascii " (IRC)")) := by
  obtain ⟨apart, clean⟩ := usual_suffix
  exact ⟨apart, clean, (acceptable_webhookName_iff apart clean).mpr (by decide)⟩

theorem webhookName_discordiscord :
    webhookName (ascii "discordiscord") (ascii " (IRC)") = ascii "d1scordiscord (IRC)" := by
  simp [webhookName, banned, breakWord, ascii, tolower, asciiTolower, truncateUtf8]

/-- Two occurrences that overlap: the second one is left. -/
theorem not_acceptable_webhookName_discordiscord :
    (∀ chr ∈ (ascii " (IRC)").head?, isAlpha chr = false) ∧
      (∀ word ∈ banned, ¬Contains word (ascii " (IRC)")) ∧
      ¬Acceptable (webhookName (ascii "discordiscord") (ascii " (IRC)")) := by
  refine ⟨usual_suffix.1, usual_suffix.2, ?_⟩
  rw [webhookName_discordiscord]
  rintro ⟨_, clean⟩
  exact clean (ascii "discord") (by decide) (by decide)

end Anope.Bridge
