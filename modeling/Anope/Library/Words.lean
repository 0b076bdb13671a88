import Anope.Library.Replace
import Anope.Library.Split
import Mathlib.Data.List.Infix

/-!
# Words of a text

The tokens of a text are its words: where one stands, there is a separator or an end of the text on
both sides.  A text therefore has a word, or one that starts or ends with a given text, exactly when
it has some text with the separators around it.
-/

namespace Library.Split

universe u

variable {α : Type u} {separator : α} {word text : List α}

/-- A word may start behind this. -/
def Opens (separator : α) (before : List α) : Prop :=
  before = [] ∨ ∃ front, before = front ++ [separator]

/-- A word may end before this. -/
def Closes (separator : α) (after : List α) : Prop :=
  after = [] ∨ ∃ rest, after = separator :: rest

theorem Opens.append {before : List α} (opens : Opens separator before) (first : List α) :
    Opens separator (first ++ separator :: before) := by
  rcases opens with rfl | ⟨front, rfl⟩
  · exact .inr ⟨first, rfl⟩
  · exact .inr ⟨first ++ separator :: front, by rw [List.append_assoc, List.cons_append]⟩

/-- A text that may stand before a word, with a separator in it, ends the same way behind it. -/
theorem Opens.of_append {first before : List α}
    (opens : Opens separator (first ++ separator :: before)) : Opens separator before := by
  rcases opens with nil | ⟨front, same⟩
  · exact absurd (List.append_eq_nil_iff.mp nil).2 (List.cons_ne_nil _ _)
  · rcases List.eq_nil_or_concat before with rfl | ⟨middle, last, rfl⟩
    · exact .inl rfl
    · rw [List.concat_eq_append, ← List.cons_append, ← List.append_assoc] at same
      have ends := (List.append_inj' same rfl).2
      rw [List.concat_eq_append, ends]
      exact .inr ⟨middle, rfl⟩

variable [DecidableEq α]

/-- A first piece that is not empty is a word. -/
theorem mem_tokens_cut {before : List α} (absent : separator ∉ before) (after : List α) :
    word ∈ tokens separator (before ++ separator :: after) ↔
      word ≠ [] ∧ word = before ∨ word ∈ tokens separator after := by
  rw [tokens, pieces_append absent, tokens, List.mem_filter, List.mem_filter, List.mem_cons,
    decide_eq_true_iff]
  tauto

theorem mem_tokens_of_not_mem (absent : separator ∉ text) :
    word ∈ tokens separator text ↔ word ≠ [] ∧ word = text := by
  rw [tokens, pieces_of_not_mem absent, List.mem_filter, List.mem_singleton, decide_eq_true_iff,
    and_comm]

/-- A word stands between separators or ends of the text. -/
theorem exists_append_of_mem_tokens (mem : word ∈ tokens separator text) :
    word ≠ [] ∧ separator ∉ word ∧ ∃ before after,
      Opens separator before ∧ Closes separator after ∧ text = before ++ (word ++ after) := by
  induction text using @cutInduction _ _ separator with
  | absent text absent =>
      obtain ⟨nonempty, rfl⟩ := (mem_tokens_of_not_mem absent).mp mem
      exact ⟨nonempty, absent, [], [], .inl rfl, .inl rfl, (List.append_nil _).symm⟩
  | piece first rest absent ih =>
      rcases (mem_tokens_cut absent rest).mp mem with ⟨nonempty, rfl⟩ | inRest
      · exact ⟨nonempty, absent, [], separator :: rest, .inl rfl, .inr ⟨rest, rfl⟩, rfl⟩
      · obtain ⟨nonempty, noSep, before, after, opens, closes, rfl⟩ := ih inRest
        refine
          ⟨nonempty, noSep, first ++ separator :: before, after, opens.append first, closes, ?_⟩
        rw [List.append_assoc, List.cons_append]

theorem infix_of_mem_tokens (mem : word ∈ tokens separator text) : word <:+: text := by
  obtain ⟨_, _, before, after, _, _, same⟩ := exists_append_of_mem_tokens mem
  exact ⟨before, after, by rw [same, List.append_assoc]⟩

/-- What stands between separators or ends of the text is a word. -/
theorem mem_tokens_of_append {before after : List α} (nonempty : word ≠ [])
    (noSep : separator ∉ word) (opens : Opens separator before) (closes : Closes separator after)
    (same : text = before ++ (word ++ after)) : word ∈ tokens separator text := by
  induction text using @cutInduction _ _ separator generalizing before with
  | absent text absent =>
      rw [mem_tokens_of_not_mem absent]
      rw [same, List.mem_append, List.mem_append, not_or, not_or] at absent
      obtain ⟨notBefore, _, notAfter⟩ := absent
      rcases opens with rfl | ⟨front, rfl⟩
      · rcases closes with rfl | ⟨rest, rfl⟩
        · exact ⟨nonempty, by rw [same, List.append_nil, List.nil_append]⟩
        · exact absurd List.mem_cons_self notAfter
      · exact absurd (List.mem_append_right _ List.mem_cons_self) notBefore
  | piece first rest absent ih =>
      rw [mem_tokens_cut absent]
      cases found : cut separator before with
      | none =>
          rw [cut_eq_none_iff] at found
          have isNil : before = [] := by
            rcases opens with nil | ⟨front, rfl⟩
            · exact nil
            · exact absurd (List.mem_append_right _ List.mem_cons_self) found
          subst isNil
          rcases closes with rfl | ⟨behind, rfl⟩
          · rw [List.nil_append, List.append_nil] at same
            exact absurd (same ▸ List.mem_append_right _ List.mem_cons_self) noSep
          · have pieces := (cut_append absent rest).symm.trans
              ((congrArg (cut separator) same).trans (cut_append noSep behind))
            cases pieces
            exact .inl ⟨nonempty, rfl⟩
      | some parts =>
          obtain ⟨isBefore, absentFirst⟩ := cut_eq_some_iff.mp found
          rw [isBefore, List.append_assoc, List.cons_append] at same
          have pieces := (cut_append absent rest).symm.trans
            ((congrArg (cut separator) same).trans (cut_append absentFirst _))
          rw [Option.some.injEq, Prod.mk.injEq] at pieces
          rw [isBefore] at opens
          exact .inr (ih opens.of_append pieces.2)

/-- A text may be cut where its last word starts. -/
theorem exists_opens_append (separator : α) (text : List α) :
    ∃ before run, text = before ++ run ∧ Opens separator before ∧ separator ∉ run := by
  induction text using @cutInduction _ _ separator with
  | absent text absent => exact ⟨[], text, rfl, .inl rfl, absent⟩
  | piece first rest _ ih =>
      obtain ⟨before, run, rfl, opens, absent⟩ := ih
      refine ⟨first ++ separator :: before, run, ?_, opens.append first, absent⟩
      rw [List.append_assoc, List.cons_append]

/-- A text may be cut where its first word ends. -/
theorem exists_append_closes (separator : α) (text : List α) :
    ∃ run after, text = run ++ after ∧ separator ∉ run ∧ Closes separator after := by
  cases found : cut separator text with
  | none =>
      exact ⟨text, [], (List.append_nil _).symm, cut_eq_none_iff.mp found, .inl rfl⟩
  | some parts =>
      obtain ⟨same, absent⟩ := cut_eq_some_iff.mp found
      exact ⟨parts.1, separator :: parts.2, same, absent, .inr ⟨parts.2, rfl⟩⟩

/-! ## Words under a map -/

section Map

variable {β : Type*} [DecidableEq β] {f : α → β} (only : ∀ element, f element = f separator →
  element = separator)

include only

theorem pieces_map (text : List α) :
    pieces (f separator) (text.map f) =
      ((pieces separator text).1.map f, (pieces separator text).2.map (List.map f)) := by
  induction text with
  | nil => rfl
  | cons head text ih =>
      rw [List.map_cons, pieces, pieces, ih]
      by_cases isSep : head = separator
      · simp [isSep]
      · simp [isSep, mt (only head) isSep]

/-- A map under which only the separator becomes the separator is applied to each word. -/
theorem tokens_map (text : List α) :
    tokens (f separator) (text.map f) = (tokens separator text).map (List.map f) := by
  have same : ((fun token : List β => decide (token ≠ [])) ∘ List.map f) =
      fun token => decide (token ≠ []) := by
    funext token
    simp
  simp only [tokens, pieces_map only, ← List.map_cons, List.filter_map, same]

end Map

/-! ## Where words stand -/

section Word

variable (nonempty : word ≠ []) (noSep : separator ∉ word)

include nonempty noSep

/-- Some word starts with a text where it starts the text or is behind a separator. -/
theorem exists_prefix_token_iff :
    (∃ token ∈ tokens separator text, word <+: token) ↔
      word <+: text ∨ separator :: word <:+: text := by
  constructor
  · rintro ⟨_, mem, more, rfl⟩
    obtain ⟨_, _, before, after, rfl | ⟨front, rfl⟩, _, rfl⟩ := exists_append_of_mem_tokens mem
    · exact .inl ⟨more ++ after, by simp⟩
    · exact .inr ⟨front, more ++ after, by simp⟩
  · intro stands
    have opened : ∃ before after, Opens separator before ∧ text = before ++ (word ++ after) := by
      rcases stands with ⟨after, rfl⟩ | ⟨front, after, rfl⟩
      · exact ⟨[], after, .inl rfl, rfl⟩
      · exact ⟨front ++ [separator], after, .inr ⟨front, rfl⟩, by simp⟩
    obtain ⟨before, after, opens, rfl⟩ := opened
    obtain ⟨run, rest, rfl, absent, closes⟩ := exists_append_closes separator after
    refine ⟨word ++ run,
      mem_tokens_of_append (fun nil => nonempty (List.append_eq_nil_iff.mp nil).1)
      ?_ opens closes (by simp), List.prefix_append _ _⟩
    rw [List.mem_append, not_or]
    exact ⟨noSep, absent⟩

/-- Some word ends with a text where it ends the text or is before a separator. -/
theorem exists_suffix_token_iff :
    (∃ token ∈ tokens separator text, word <:+ token) ↔
      word <:+ text ∨ word ++ [separator] <:+: text := by
  constructor
  · rintro ⟨_, mem, more, rfl⟩
    obtain ⟨_, _, before, after, _, rfl | ⟨rest, rfl⟩, rfl⟩ := exists_append_of_mem_tokens mem
    · exact .inl ⟨before ++ more, by simp⟩
    · exact .inr ⟨before ++ more, rest, by simp⟩
  · intro stands
    have closed : ∃ before after, Closes separator after ∧ text = before ++ (word ++ after) := by
      rcases stands with ⟨before, rfl⟩ | ⟨before, rest, rfl⟩
      · exact ⟨before, [], .inl rfl, by simp⟩
      · exact ⟨before, separator :: rest, .inr ⟨rest, rfl⟩, by simp⟩
    obtain ⟨before, after, closes, rfl⟩ := closed
    obtain ⟨front, run, rfl, opens, absent⟩ := exists_opens_append separator before
    refine ⟨run ++ word,
      mem_tokens_of_append (fun nil => nonempty (List.append_eq_nil_iff.mp nil).2)
      ?_ opens closes (by simp), List.suffix_append _ _⟩
    rw [List.mem_append, not_or]
    exact ⟨absent, noSep⟩

/-- A text is a word where it is the whole text, its start up to a separator, its end from a
separator on, or between two separators. -/
theorem mem_tokens_iff :
    word ∈ tokens separator text ↔
      word = text ∨ word ++ [separator] <+: text ∨ separator :: word <:+ text ∨
        separator :: word ++ [separator] <:+: text := by
  constructor
  · intro mem
    obtain ⟨_, _, before, after, rfl | ⟨front, rfl⟩, rfl | ⟨rest, rfl⟩, rfl⟩ :=
      exists_append_of_mem_tokens mem
    · exact .inl (by simp)
    · exact .inr (.inl ⟨rest, by simp⟩)
    · exact .inr (.inr (.inl ⟨front, by simp⟩))
    · exact .inr (.inr (.inr ⟨front, rest, by simp⟩))
  · have stands {before after : List α} (opens : Opens separator before)
        (closes : Closes separator after) (same : text = before ++ (word ++ after)) :=
      mem_tokens_of_append nonempty noSep opens closes same
    rintro (rfl | ⟨rest, rfl⟩ | ⟨front, rfl⟩ | ⟨front, rest, rfl⟩)
    · exact stands (.inl rfl) (.inl rfl) (by simp)
    · exact stands (.inl rfl) (.inr ⟨rest, rfl⟩) (by simp)
    · exact stands (.inr ⟨front, rfl⟩) (.inl rfl) (by simp)
    · exact stands (.inr ⟨front, rfl⟩) (.inr ⟨rest, rfl⟩) (by simp)

/-- A word that is not the last one is the start up to a separator, or between two separators. -/
theorem mem_tokens_front_iff {front last : List α} (absent : separator ∉ last) :
    word ∈ tokens separator front ↔
      word ++ [separator] <+: front ++ separator :: last ∨
        separator :: word ++ [separator] <:+: front ++ separator :: last := by
  rw [mem_tokens_iff nonempty noSep]
  constructor
  · rintro (rfl | ⟨rest, rfl⟩ | ⟨first, rfl⟩ | ⟨first, rest, rfl⟩)
    · exact .inl ⟨last, by simp⟩
    · exact .inl ⟨rest ++ separator :: last, by simp⟩
    · exact .inr ⟨first, last, by simp⟩
    · exact .inr ⟨first, rest ++ separator :: last, by simp⟩
  · rintro (⟨rest, same⟩ | ⟨first, rest, same⟩)
    · rw [List.append_assoc, List.singleton_append] at same
      rcases append_cons_eq_cases same with ⟨rfl, _, _⟩ | ⟨between, rfl, _⟩ | ⟨between, rfl, _⟩
      · exact .inl rfl
      · exact .inr (.inl ⟨between, by simp⟩)
      · exact absurd (List.mem_append_right _ List.mem_cons_self) noSep
    · rw [List.append_assoc, List.append_assoc, List.singleton_append, ← List.append_assoc] at same
      rcases append_cons_eq_cases same with ⟨rfl, _, _⟩ | ⟨between, rfl, _⟩ | ⟨between, _, rfl⟩
      · exact .inr (.inr (.inl ⟨first, rfl⟩))
      · exact .inr (.inr (.inr ⟨first, between, by simp⟩))
      · exact absurd (List.mem_append_right _ List.mem_cons_self) absent

/-- A word that is told to be the last one only where it does not occur before is found, unless it
occurs before but not as a word. -/
theorem mem_tokens_and_front_iff :
    word ∈ tokens separator text ∧
        (∀ front, text = front ++ separator :: word → word <:+: front →
          word ∈ tokens separator front) ↔
      word = text ∨ word ++ [separator] <+: text ∨
        (∃ front, text = front ++ separator :: word ∧ ¬word <:+: front) ∨
        separator :: word ++ [separator] <:+: text := by
  rw [mem_tokens_iff nonempty noSep]
  constructor
  · rintro ⟨whole | start | ⟨front, rfl⟩ | between, found⟩
    · exact .inl whole
    · exact .inr (.inl start)
    · by_cases occurs : word <:+: front
      · have isWord := found front rfl occurs
        rcases (mem_tokens_front_iff nonempty noSep noSep).mp isWord with start | between
        · exact .inr (.inl start)
        · exact .inr (.inr (.inr between))
      · exact .inr (.inr (.inl ⟨front, rfl, occurs⟩))
    · exact .inr (.inr (.inr between))
  · rintro (whole | start | ⟨front, rfl, absent⟩ | between)
    · refine ⟨.inl whole, fun front same _ => ?_⟩
      have lengths := congrArg List.length (whole.trans same)
      rw [List.length_append, List.length_cons] at lengths
      omega
    · refine ⟨.inr (.inl start), ?_⟩
      rintro front rfl _
      exact (mem_tokens_front_iff nonempty noSep noSep).mpr (.inl start)
    · refine ⟨.inr (.inr (.inl ⟨front, rfl⟩)), fun other same occurs => ?_⟩
      exact absurd (List.append_cancel_right same ▸ occurs) absent
    · refine ⟨.inr (.inr (.inr between)), ?_⟩
      rintro front rfl _
      exact (mem_tokens_front_iff nonempty noSep noSep).mpr (.inr between)

end Word

/-! ## The first occurrence -/

omit [DecidableEq α] in
/-- A text without separators starts another one before the first separator. -/
theorem prefix_append_cons_iff (noSep : separator ∉ word) {front rest : List α} :
    word <+: front ++ separator :: rest ↔ word <+: front := by
  constructor
  · rintro ⟨more, same⟩
    rcases List.append_eq_append_iff.mp same with ⟨left, rfl, _⟩ | ⟨left, rfl, isRest⟩
    · exact List.prefix_append _ _
    · cases left with
      | nil =>
          rw [List.append_nil]
      | cons _ left =>
          cases isRest
          exact absurd (List.mem_append_right _ List.mem_cons_self) noSep
  · intro starts
    exact starts.trans (List.prefix_append _ _)

/-- A text that is without separators and at the end, behind a separator, is first found there when
it does not occur before. -/
theorem cutAt_append_cons_iff (nonempty : word ≠ []) (noSep : separator ∉ word) (front : List α) :
    (Replace.cutAt word (front ++ separator :: word)).map (fun parts => parts.1.length) =
        some (front.length + 1) ↔
      ¬word <:+: front := by
  induction front with
  | nil =>
      have behind : ¬word <+: separator :: word := by
        intro starts
        rw [← List.nil_append (separator :: word), prefix_append_cons_iff noSep] at starts
        exact nonempty (List.prefix_nil.mp starts)
      have found : Replace.cutAt word word = some ([], []) := by
        obtain ⟨first, more, rfl⟩ := List.exists_cons_of_ne_nil nonempty
        have starts := @Replace.cutAt_starts _ _ first more []
        rwa [List.append_nil] at starts
      rw [List.nil_append, Replace.cutAt_of_not_starts behind, found, List.infix_nil]
      exact iff_of_true rfl nonempty
  | cons c front ih =>
      rw [List.infix_cons_iff, List.cons_append]
      by_cases starts : word <+: c :: front
      · have found := starts.trans (List.prefix_append (c :: front) (separator :: word))
        rw [List.cons_append] at found
        rw [Replace.cutAt, if_pos found]
        simp [starts]
      · have behind : ¬word <+: c :: (front ++ separator :: word) := by
          rwa [← List.cons_append, prefix_append_cons_iff noSep]
        rw [Replace.cutAt_of_not_starts behind, or_iff_right starts, ← ih, Option.map_map]
        cases Replace.cutAt word (front ++ separator :: word) with
        | none => simp
        | some parts => simp

end Library.Split
