import Anope.Text.Casemap

/-!
# Values of message tags

`Relay::EscapeTagValue` and `Relay::UnescapeTagValue`, which put a text into the value of a
message tag and take it out again.
-/

namespace Anope.Bridge

/-- What `EscapeTagValue` writes for a character. -/
def escapeTagChar (chr : UInt8) : Str :=
  if chr = 59 then [92, 58]
  else if chr = 32 then [92, 115]
  else if chr = 92 then [92, 92]
  else if chr = 13 then [92, 114]
  else if chr = 10 then [92, 110]
  else [chr]

/-- `Relay::EscapeTagValue`. -/
def escapeTagValue (raw : Str) : Str :=
  raw.flatMap escapeTagChar

/-- What `UnescapeTagValue` makes of a character behind a backslash. -/
def unescapeTagChar (chr : UInt8) : UInt8 :=
  if chr = 58 then 59
  else if chr = 115 then 32
  else if chr = 114 then 13
  else if chr = 110 then 10
  else chr

/-- `Relay::UnescapeTagValue`. -/
def unescapeTagValue : Str → Str
  | [] => []
  | chr :: rest =>
      if chr ≠ 92 then chr :: unescapeTagValue rest
      else
        match rest with
        | [] => []
        | escaped :: rest => unescapeTagChar escaped :: unescapeTagValue rest

/-- The characters that end a value or the tag section. -/
def EndsTags (chr : UInt8) : Prop :=
  chr = 59 ∨ chr = 32 ∨ chr = 13 ∨ chr = 10

instance decidableEndsTags (chr : UInt8) : Decidable (EndsTags chr) :=
  inferInstanceAs (Decidable (_ ∨ _))

theorem unescapeTagValue_of_ne {chr : UInt8} (plain : chr ≠ 92) (rest : Str) :
    unescapeTagValue (chr :: rest) = chr :: unescapeTagValue rest := by
  rw [unescapeTagValue.eq_def]
  exact if_pos plain

/-- A character that is escaped is written as a backslash and another character, which stands
for it. -/
theorem escapeTagChar_cases (chr : UInt8) :
    escapeTagChar chr = [chr] ∧ chr ≠ 92 ∧ ¬EndsTags chr ∨
      ∃ escaped, escapeTagChar chr = [92, escaped] ∧ unescapeTagChar escaped = chr ∧
        ¬EndsTags escaped := by
  by_cases special : chr = 59 ∨ chr = 32 ∨ chr = 92 ∨ chr = 13 ∨ chr = 10
  · refine Or.inr ?_
    rcases special with rfl | rfl | rfl | rfl | rfl
    · exact ⟨58, rfl, rfl, by decide⟩
    · exact ⟨115, rfl, rfl, by decide⟩
    · exact ⟨92, rfl, rfl, by decide⟩
    · exact ⟨114, rfl, rfl, by decide⟩
    · exact ⟨110, rfl, rfl, by decide⟩
  · rw [not_or, not_or, not_or, not_or] at special
    rcases special with ⟨semicolon, space, backslash, cr, lf⟩
    refine Or.inl ⟨?_, backslash, ?_⟩
    · rw [escapeTagChar, if_neg semicolon, if_neg space, if_neg backslash, if_neg cr, if_neg lf]
    · rintro (is | is | is | is)
      · exact semicolon is
      · exact space is
      · exact cr is
      · exact lf is

/-- The escape of one character is taken back before the rest is read. -/
theorem unescapeTagValue_escapeTagChar (chr : UInt8) (rest : Str) :
    unescapeTagValue (escapeTagChar chr ++ rest) = chr :: unescapeTagValue rest := by
  rcases escapeTagChar_cases chr with ⟨is, plain, _⟩ | ⟨escaped, is, back, _⟩
  · rw [is]
    exact unescapeTagValue_of_ne plain rest
  · rw [is]
    change unescapeTagChar escaped :: unescapeTagValue rest = _
    rw [back]

theorem not_endsTags_of_mem_escapeTagChar {chr out : UInt8} (mem : out ∈ escapeTagChar chr) :
    ¬EndsTags out := by
  rcases escapeTagChar_cases chr with ⟨is, _, safe⟩ | ⟨escaped, is, _, safe⟩
  · rw [is, List.mem_singleton] at mem
    exact mem ▸ safe
  · rw [is, List.mem_pair] at mem
    rcases mem with rfl | rfl
    · decide
    · exact safe

/-- A text comes back from a tag, and nothing in the tag ends its value. -/
theorem unescapeTagValue_escapeTagValue (raw : Str) :
    unescapeTagValue (escapeTagValue raw) = raw ∧
      ∀ out ∈ escapeTagValue raw, ¬EndsTags out := by
  constructor
  · induction raw with
    | nil => rfl
    | cons chr raw ih =>
        change unescapeTagValue (escapeTagChar chr ++ escapeTagValue raw) = _
        rw [unescapeTagValue_escapeTagChar, ih]
  · intro out mem
    rcases List.mem_flatMap.mp mem with ⟨chr, _, inEscape⟩
    exact not_endsTags_of_mem_escapeTagChar inEscape

end Anope.Bridge
