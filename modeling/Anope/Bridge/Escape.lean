import Anope.Bridge.Rendering

/-!
# Escaped text

Text that is escaped comes out of rendering as it was.  Between two delimiters it does so
unless the closing delimiter is found too early: `Span` looks for it without regard to the
escapes, which are read later.
-/

namespace Anope.Bridge

open Library.Replace (cutAt append_of_cutAt cutAt_of_not_starts cutAt_starts)

theorem escapeMarkdownChar_cases (chr : UInt8) :
    escapeMarkdownChar chr = [92, chr] ∧ chr ∈ escapedChars ∨
      escapeMarkdownChar chr = [chr] ∧ chr ∉ escapedChars := by
  by_cases escaped : chr ∈ escapedChars
  · exact Or.inl ⟨if_pos escaped, escaped⟩
  · exact Or.inr ⟨if_neg escaped, escaped⟩

theorem escapeMarkdown_cons (chr : UInt8) (str : Str) :
    escapeMarkdown (chr :: str) = escapeMarkdownChar chr ++ escapeMarkdown str :=
  List.flatMap_cons

theorem escapeMarkdown_append (str str' : Str) :
    escapeMarkdown (str ++ str') = escapeMarkdown str ++ escapeMarkdown str' :=
  List.flatMap_append

/-! ## Rendering of escaped text -/

section Render

variable {chr : UInt8} {tail : Str} {len : Nat} {lineStart : Bool}

theorem lineSkip_of_ne (notQuote : chr ≠ 62) (notHeading : chr ≠ 35) :
    lineSkip (chr :: tail) len = 0 := by
  have marker : blockMarker (chr :: tail) len = 0 := by
    have noHash : hashCount (chr :: tail) len = 0 := by
      rw [hashCount]
      cases len with
      | zero => rfl
      | succ len =>
          rw [List.take_succ_cons, List.takeWhile_cons_of_neg (by simpa using notHeading)]
          rfl
    rw [blockMarker, if_neg fun starts => notQuote (List.cons_prefix_cons.mp starts).1.symm,
      if_neg fun starts => notQuote (List.cons_prefix_cons.mp starts).1.symm, noHash]
    exact if_neg fun heading => Nat.lt_irrefl 0 heading.1
  rw [lineSkip, marker]
  rfl

theorem pass_of_plain (plain : chr ∉ escapedChars) :
    pass chr tail len lineStart = .write [chr] 1 (decide (chr = 10)) := by
  have notIn (other : UInt8) (mem : other ∈ escapedChars) : chr ≠ other :=
    fun same => plain (same ▸ mem)
  have notSpecial : chr ∉ specials := by
    have each : ∀ other ∈ specials, other ∈ escapedChars := forall_mem_of_all rfl
    exact fun mem => plain (each chr mem)
  rw [pass, lineSkip_of_ne (notIn 62 (by decide)) (notIn 35 (by decide)),
    if_neg fun skip => skip.2 rfl]
  by_cases newline : chr = 10
  · rw [if_pos newline, newline]
    rfl
  · rw [if_neg newline, if_pos notSpecial, decide_eq_false newline]

theorem SpanKind.size?_of_other {kind : SpanKind} {rest : Str}
    (opens : ¬kind.delim <+: rest) : kind.size? rest len = none :=
  if_neg fun both => opens both.2

/-- No span starts with a backslash. -/
theorem firstSpan_backslash (tail : Str) (len : Nat) : firstSpan (92 :: tail) len = none := by
  refine List.findSome?_eq_none_iff.mpr fun kind mem => ?_
  have each : ∀ kind ∈ SpanKind.all, kind.delim.head? ≠ some 92 ∧ kind.delim ≠ [] := by decide
  rcases each kind mem with ⟨notBackslash, nonempty⟩
  rw [SpanKind.size?_of_other]
  · rfl
  · intro starts
    cases isDelim : kind.delim with
    | nil => exact nonempty isDelim
    | cons first more =>
        rw [isDelim] at starts notBackslash
        exact notBackslash (congrArg some (List.cons_prefix_cons.mp starts).1)

theorem pass_backslash (tail : Str) (len : Nat) (lineStart : Bool) :
    pass 92 tail len lineStart = escapePass 92 tail len := by
  rw [pass, lineSkip_of_ne (by decide) (by decide), if_neg fun skip => skip.2 rfl,
    if_neg (by decide), if_neg (by decide), specialPass.eq_def, firstSpan_backslash]

theorem pass_of_escaped (escaped : chr ∈ escapedChars) (inside : 1 < len) :
    pass 92 (chr :: tail) len lineStart = .write [chr] 2 false := by
  have each : ∀ chr ∈ escapedChars, isAlnum chr = false := forall_mem_of_all rfl
  rw [pass_backslash]
  exact if_pos ⟨rfl, inside, each chr escaped⟩

/-- Behind escaped text rendering goes on as it would have started there. -/
theorem render_escapeMarkdown_append (str rest more : Str) (lineStart : Bool) :
    ∃ next, render (escapeMarkdown str ++ rest ++ more) (escapeMarkdown str ++ rest).length
      lineStart = str ++ render (rest ++ more) rest.length next := by
  induction str generalizing lineStart with
  | nil => exact ⟨lineStart, rfl⟩
  | cons chr str ih =>
      rcases escapeMarkdownChar_cases chr with ⟨is, escaped⟩ | ⟨is, plain⟩
      · rcases ih false with ⟨next, ih⟩
        refine ⟨next, ?_⟩
        rw [escapeMarkdown_cons, is]
        have isPass : pass 92 (chr :: (escapeMarkdown str ++ rest) ++ more)
            ((chr :: (escapeMarkdown str ++ rest)).length + 1) lineStart =
              .write [chr] [92, chr].length false :=
          pass_of_escaped escaped (by rw [List.length_cons]; omega)
        exact (render_of_used isPass rfl).trans (congrArg (chr :: ·) ih)
      · rcases ih (decide (chr = 10)) with ⟨next, ih⟩
        refine ⟨next, ?_⟩
        rw [escapeMarkdown_cons, is]
        have isPass : pass chr (escapeMarkdown str ++ rest ++ more)
            ((escapeMarkdown str ++ rest).length + 1) lineStart =
              .write [chr] [chr].length (decide (chr = 10)) := pass_of_plain plain
        exact (render_of_used isPass rfl).trans (congrArg (chr :: ·) ih)

theorem render_escapeMarkdown (str more : Str) (lineStart : Bool) :
    render (escapeMarkdown str ++ more) (escapeMarkdown str).length lineStart = str := by
  rcases render_escapeMarkdown_append str [] more lineStart with ⟨next, is⟩
  rw [List.append_nil, List.length_nil, render_zero, List.append_nil] at is
  exact is

end Render

/-- Escaped text is literal. -/
theorem markdownToIrc_escapeMarkdown (str : Str) :
    markdownToIrc (escapeMarkdown str) = str := by
  have whole := render_escapeMarkdown str [] true
  rwa [List.append_nil] at whole

/-! ## Escaped text between delimiters -/

/-- The spans of emphasis. -/
def SpanKind.emphases : List SpanKind :=
  [.spoiler, .bold, .underline, .strikethrough, .star, .underscore]

/-- The character of a delimiter. -/
def SpanKind.chr (kind : SpanKind) : UInt8 :=
  kind.delim.headD 0

/-- The text does not let the span be closed early: a delimiter of one character is not in the
text, and the text does not end with the character of a longer one. -/
def ClosesLast (kind : SpanKind) (str : Str) : Prop :=
  if kind.delim.length = 1 then kind.chr ∉ str else kind.chr ∉ str.getLast?

section Emphasis

variable {kind : SpanKind} {str : Str}

/-- The delimiter of an emphasis is one character or two of it. -/
theorem delim_of_emphasis (mem : kind ∈ SpanKind.emphases) :
    (kind.delim = [kind.chr] ∨ kind.delim = [kind.chr, kind.chr]) ∧
      kind.chr ∈ escapedChars ∧ kind.chr ≠ 92 ∧ kind.parseInner = true ∧ kind ∈ SpanKind.all := by
  have each : ∀ kind ∈ SpanKind.emphases,
      (kind.delim = [kind.chr] ∨ kind.delim = [kind.chr, kind.chr]) ∧
        kind.chr ∈ escapedChars ∧ kind.chr ≠ 92 ∧ kind.parseInner = true ∧
        kind ∈ SpanKind.all := by
    decide
  exact each kind mem

theorem mem_escapeMarkdown {chr : UInt8} (mem : chr ∈ escapeMarkdown str) :
    chr = 92 ∨ chr ∈ str := by
  rcases List.mem_flatMap.mp mem with ⟨chr', inStr, mem⟩
  rcases escapeMarkdownChar_cases chr' with ⟨is, _⟩ | ⟨is, _⟩
  · rw [is, List.mem_pair] at mem
    rcases mem with rfl | rfl
    · exact Or.inl rfl
    · exact Or.inr inStr
  · rw [is, List.mem_singleton] at mem
    exact Or.inr (mem ▸ inStr)

/-- Escaped text does not start with a character that is escaped, but with its escape. -/
theorem exists_escapeMarkdown_cons (first : UInt8) (str : Str) :
    ∃ head tail, escapeMarkdown (first :: str) = head :: tail ∧
      ∀ chr ∈ escapedChars, chr ≠ 92 → chr ≠ head := by
  rw [escapeMarkdown_cons]
  rcases escapeMarkdownChar_cases first with ⟨is, _⟩ | ⟨is, plain⟩
  · rw [is]
    exact ⟨92, first :: escapeMarkdown str, rfl, fun _ _ not92 => not92⟩
  · rw [is]
    exact ⟨first, escapeMarkdown str, rfl, fun _ escaped _ same => plain (same ▸ escaped)⟩

theorem cutAt_singleton_append {chr : UInt8} {before : Str} (absent : chr ∉ before)
    (rest : Str) : cutAt [chr] (before ++ rest) =
      (cutAt [chr] rest).map fun parts => (before ++ parts.1, parts.2) := by
  induction before with
  | nil => exact Option.map_id'.symm
  | cons first before ih =>
      rw [List.mem_cons, not_or] at absent
      rw [List.cons_append,
        cutAt_of_not_starts fun starts => absent.1 (List.cons_prefix_cons.mp starts).1,
        ih absent.2, Option.map_map]
      rfl

/-- Two of an escaped character do not stand next to each other in escaped text. -/
theorem cutAt_pair_append {chr : UInt8} (escaped : chr ∈ escapedChars) (not92 : chr ≠ 92)
    {rest : Str} (apart : chr ∈ str.getLast? → ¬[chr] <+: rest) :
    cutAt [chr, chr] (escapeMarkdown str ++ rest) =
      (cutAt [chr, chr] rest).map fun parts => (escapeMarkdown str ++ parts.1, parts.2) := by
  induction str with
  | nil => exact Option.map_id'.symm
  | cons first str ih =>
      have tail := ih fun last => apart (by rw [List.getLast?_cons, last]; rfl)
      rcases escapeMarkdownChar_cases first with ⟨is, _⟩ | ⟨is, plain⟩
      · have notBackslash : ¬[chr, chr] <+: 92 :: first :: (escapeMarkdown str ++ rest) :=
          fun starts => not92 (List.cons_prefix_cons.mp starts).1
        have noPair : ¬[chr, chr] <+: first :: (escapeMarkdown str ++ rest) := by
          intro starts
          rcases List.cons_prefix_cons.mp starts with ⟨same, starts⟩
          cases str with
          | nil => exact apart (congrArg some same.symm) starts
          | cons second str =>
              rcases exists_escapeMarkdown_cons second str with ⟨head, after, isCons, other⟩
              rw [isCons] at starts
              exact other chr escaped not92 (List.cons_prefix_cons.mp starts).1
        rw [escapeMarkdown_cons, is]
        change cutAt [chr, chr] (92 :: first :: (escapeMarkdown str ++ rest)) = _
        rw [cutAt_of_not_starts notBackslash, cutAt_of_not_starts noPair, tail, Option.map_map,
          Option.map_map]
        rfl
      · have notFirst : ¬[chr, chr] <+: first :: (escapeMarkdown str ++ rest) := fun starts =>
          plain ((List.cons_prefix_cons.mp starts).1 ▸ escaped)
        rw [escapeMarkdown_cons, is]
        change cutAt [chr, chr] (first :: (escapeMarkdown str ++ rest)) = _
        rw [cutAt_of_not_starts notFirst, tail, Option.map_map]
        rfl

theorem closesLast_of_one (one : kind.delim = [kind.chr]) :
    ClosesLast kind str ↔ kind.chr ∉ str := by
  have length : kind.delim.length = 1 := congrArg List.length one
  rw [ClosesLast, if_pos length]

theorem closesLast_of_two (two : kind.delim = [kind.chr, kind.chr]) :
    ClosesLast kind str ↔ kind.chr ∉ str.getLast? := by
  have length : kind.delim.length = 2 := congrArg List.length two
  rw [ClosesLast, if_neg (by omega)]

theorem escapeMarkdown_cons_of_escaped {chr : UInt8} (escaped : chr ∈ escapedChars) (str : Str) :
    escapeMarkdown (chr :: str) = 92 :: chr :: escapeMarkdown str := by
  rw [escapeMarkdown_cons, escapeMarkdownChar, if_pos escaped]
  rfl

/-- The closing delimiter is found at the end exactly when the text does not let the span be
closed early.  Else it is found behind a backslash, at a character of the text. -/
theorem cutAt_escapeMarkdown (mem : kind ∈ SpanKind.emphases) (str : Str) :
    ClosesLast kind str ∧
        cutAt kind.delim (escapeMarkdown str ++ kind.delim) = some (escapeMarkdown str, []) ∨
      ¬ClosesLast kind str ∧ ∃ before after rest, str = before ++ kind.chr :: after ∧
        cutAt kind.delim (escapeMarkdown str ++ kind.delim) =
          some (escapeMarkdown before ++ [92], rest) := by
  rcases delim_of_emphasis mem with ⟨one | two, escaped, not92, _, _⟩
  · have found (rest : Str) : cutAt [kind.chr] (kind.chr :: rest) = some ([], rest) :=
      cutAt_starts [] rest
    rw [closesLast_of_one one, one]
    by_cases inside : kind.chr ∈ str
    · rcases List.eq_append_cons_of_mem inside with ⟨before, after, rfl, absent⟩
      refine Or.inr ⟨not_not_intro inside, before, after, escapeMarkdown after ++ [kind.chr],
        rfl, ?_⟩
      have notBefore : kind.chr ∉ escapeMarkdown before ++ [92] := by
        rw [List.mem_append, List.mem_singleton]
        rintro (inBefore | backslash)
        · exact (mem_escapeMarkdown inBefore).elim not92 absent
        · exact not92 backslash
      rw [escapeMarkdown_append, escapeMarkdown_cons_of_escaped escaped, List.append_assoc,
        List.cons_append, List.append_cons, cutAt_singleton_append notBefore, List.cons_append,
        found, Option.map_some, List.append_nil]
    · have absent : kind.chr ∉ escapeMarkdown str := fun mem =>
        (mem_escapeMarkdown mem).elim not92 inside
      refine Or.inl ⟨inside, ?_⟩
      rw [cutAt_singleton_append absent, found, Option.map_some, List.append_nil]
  · have found (rest : Str) :
        cutAt [kind.chr, kind.chr] (kind.chr :: kind.chr :: rest) = some ([], rest) :=
      cutAt_starts [kind.chr] rest
    rw [closesLast_of_two two, two]
    by_cases last : kind.chr ∈ str.getLast?
    · rcases List.getLast?_eq_some_iff.mp last with ⟨before, rfl⟩
      refine Or.inr ⟨not_not_intro last, before, [], [kind.chr], rfl, ?_⟩
      have notBackslash (rest : Str) : ¬[kind.chr, kind.chr] <+: 92 :: rest := fun starts =>
        not92 (List.cons_prefix_cons.mp starts).1
      rw [escapeMarkdown_append, escapeMarkdown_cons_of_escaped escaped, List.append_assoc]
      change cutAt _ (escapeMarkdown before ++ 92 :: kind.chr :: kind.chr :: [kind.chr]) = _
      rw [cutAt_pair_append escaped not92, cutAt_of_not_starts (notBackslash _), found]
      · rfl
      · exact fun _ starts => not92 (List.cons_prefix_cons.mp starts).1
    · refine Or.inl ⟨last, ?_⟩
      rw [cutAt_pair_append escaped not92 fun isLast => absurd isLast last, found,
        Option.map_some, List.append_nil]

/-- The spans that are tried before an emphasis have another character or a longer delimiter. -/
theorem earlier_of_emphasis (mem : kind ∈ SpanKind.emphases) :
    ∃ earlier later, SpanKind.all = earlier ++ kind :: later ∧
      ∀ kind' ∈ earlier, (∃ first more, kind'.delim = first :: more ∧ first ≠ kind.chr) ∨
        kind.delim ++ [kind.chr] <+: kind'.delim := by
  have each : ∀ kind ∈ SpanKind.emphases,
      SpanKind.all = SpanKind.all.take (SpanKind.all.idxOf kind) ++
        kind :: SpanKind.all.drop (SpanKind.all.idxOf kind + 1) ∧
      ∀ kind' ∈ SpanKind.all.take (SpanKind.all.idxOf kind),
        (kind'.delim = kind'.chr :: kind'.delim.tail ∧ kind'.chr ≠ kind.chr) ∨
          kind.delim ++ [kind.chr] <+: kind'.delim := by
    decide
  rcases each kind mem with ⟨all, before⟩
  exact ⟨_, _, all, fun kind' mem => (before kind' mem).imp_left fun first => ⟨_, _, first⟩⟩

/-- Before escaped text the emphasis is the first span that is tried. -/
theorem firstSpan_of_emphasis (mem : kind ∈ SpanKind.emphases) {head : UInt8} {tail : Str}
    {len size : Nat} (other : kind.chr ≠ head)
    (is : kind.size? (kind.delim ++ head :: tail) len = some size) :
    firstSpan (kind.delim ++ head :: tail) len = some (kind, size) := by
  rcases earlier_of_emphasis mem with ⟨earlier, later, all, before⟩
  have starts : ∃ more, kind.delim ++ head :: tail = kind.chr :: more := by
    rcases (delim_of_emphasis mem).1 with one | two
    · exact ⟨head :: tail, by rw [one]; rfl⟩
    · exact ⟨kind.chr :: head :: tail, by rw [two]; rfl⟩
  rw [firstSpan, List.findSome?_eq_some_iff]
  refine ⟨earlier, kind, later, all, ?_, fun kind' isEarlier => ?_⟩
  · rw [is]
    rfl
  · rw [SpanKind.size?_of_other]
    · rfl
    · intro opens
      rcases before kind' isEarlier with ⟨first, more, isDelim, differs⟩ | longer
      · rcases starts with ⟨behind, isText⟩
        rw [isDelim, isText] at opens
        exact differs (List.cons_prefix_cons.mp opens).1
      · have beyond := (List.prefix_append_right_inj kind.delim).mp (longer.trans opens)
        exact other (List.cons_prefix_cons.mp beyond).1

/-- A pass comes to a span at a character that starts no line and no block. -/
theorem pass_of_firstSpan {chr : UInt8} {tail : Str} {len size : Nat} {lineStart : Bool}
    (special : chr ∈ specials) (is : firstSpan (chr :: tail) len = some (kind, size)) :
    pass chr tail len lineStart = .span kind size := by
  have each : ∀ chr ∈ specials, chr ≠ 62 ∧ chr ≠ 35 ∧ chr ≠ 10 := forall_mem_of_all rfl
  rcases each chr special with ⟨notQuote, notHeading, notNewline⟩
  rw [pass, lineSkip_of_ne notQuote notHeading, if_neg fun skip => skip.2 rfl, if_neg notNewline,
    if_neg (not_not_intro special), specialPass.eq_def, is]

/-- The emphasis is rendered up to where its closing delimiter is found. -/
theorem markdownToIrc_emphasis (mem : kind ∈ SpanKind.emphases) (nonempty : str ≠ [])
    {inner after : Str}
    (found : cutAt kind.delim (escapeMarkdown str ++ kind.delim) = some (inner, after)) :
    markdownToIrc (kind.delim ++ (escapeMarkdown str ++ kind.delim)) =
      kind.control :: (render (inner ++ (kind.delim ++ after)) inner.length false ++
        kind.control :: render after after.length false) := by
  rcases delim_of_emphasis mem with ⟨_, escaped, not92, parsed, inAll⟩
  rcases exists_delim_eq_replicate inAll with ⟨chr, count, isDelim, special⟩
  have isChr : kind.chr = chr := by
    rw [SpanKind.chr, isDelim]
    rfl
  have text : escapeMarkdown str ++ kind.delim = inner ++ (kind.delim ++ after) := by
    rw [append_of_cutAt found, List.append_assoc]
  have length := congrArg List.length text
  rw [List.length_append, List.length_append, List.length_append] at length
  have some := length_delim_pos inAll
  cases str with
  | nil => exact absurd rfl nonempty
  | cons first str =>
      rcases exists_escapeMarkdown_cons first str with ⟨head, tail, isCons, other⟩
      have notHead := other kind.chr escaped not92
      have notEmpty : inner ≠ [] := by
        rintro rfl
        rw [isCons, isDelim, List.replicate_succ, List.cons_append, List.nil_append] at text
        exact notHead (isChr.trans (List.cons.inj text).1.symm)
      have isSize : kind.size? (kind.delim ++ head :: (tail ++ kind.delim))
          (kind.delim ++ head :: (tail ++ kind.delim)).length = Option.some inner.length := by
        rw [SpanKind.size?, if_pos ⟨by rw [List.length_append]; omega, List.prefix_append _ _⟩,
          List.drop_left, ← List.cons_append, ← isCons, found]
        refine if_pos ⟨notEmpty, ?_⟩
        rw [List.length_append, text, List.length_append, List.length_append]
        omega
      have span := firstSpan_of_emphasis mem notHead isSize
      rw [← List.cons_append, ← isCons, text] at span
      obtain ⟨behind, whole⟩ : ∃ behind,
          kind.delim ++ (inner ++ (kind.delim ++ after)) = chr :: behind := by
        rw [isDelim]
        exact ⟨_, rfl⟩
      rw [whole, List.length_cons] at span
      have isPass : pass chr (behind ++ []) (behind.length + 1) true = .span kind inner.length := by
        rw [List.append_nil]
        exact pass_of_firstSpan special span
      have written := render_of_delimited isPass whole.symm
      rw [parsed, if_pos rfl, List.append_nil, List.append_nil] at written
      rw [markdownToIrc, text, whole, List.length_cons]
      exact written

/-- A backslash at the end of a range is written. -/
theorem render_backslash (more : Str) (lineStart : Bool) :
    render (92 :: more) 1 lineStart = [92] := by
  have isPass : pass 92 more (0 + 1) lineStart = .write [92] 1 false := by
    rw [pass_backslash, escapePass.eq_def]
    cases more with
    | nil => rfl
    | cons escaped more => exact if_neg fun escapes => Nat.lt_irrefl 1 escapes.2.1
  rw [render_of_write isPass, Nat.sub_self, render_zero]
  rfl

theorem literal_of_closesLast (mem : kind ∈ SpanKind.emphases) (nonempty : str ≠ [])
    (closes : ClosesLast kind str) :
    markdownToIrc (kind.delim ++ escapeMarkdown str ++ kind.delim) =
      kind.control :: (str ++ [kind.control]) := by
  rw [List.append_assoc]
  rcases cutAt_escapeMarkdown mem str with ⟨_, found⟩ | ⟨early, _⟩
  · rw [markdownToIrc_emphasis mem nonempty found, render_escapeMarkdown, render_nil]
  · exact absurd closes early

/-- A span that is closed early ends with the backslash of the character that closes it. -/
theorem not_literal_of_closed_early (mem : kind ∈ SpanKind.emphases) (nonempty : str ≠ [])
    (early : ¬ClosesLast kind str) :
    markdownToIrc (kind.delim ++ escapeMarkdown str ++ kind.delim) ≠
      kind.control :: (str ++ [kind.control]) := by
  rw [List.append_assoc]
  rcases cutAt_escapeMarkdown mem str with ⟨closes, _⟩ | ⟨_, before, after, rest, rfl, found⟩
  · exact absurd closes early
  · rcases render_escapeMarkdown_append before [92] (kind.delim ++ rest) false with ⟨next, is⟩
    have backslash : render ([92] ++ (kind.delim ++ rest)) [(92 : UInt8)].length next = [92] :=
      render_backslash (kind.delim ++ rest) next
    rw [markdownToIrc_emphasis mem nonempty found, is, backslash]
    intro same
    have tails := (List.cons.inj same).2
    rw [List.append_assoc, List.append_assoc] at tails
    have not92 := (delim_of_emphasis mem).2.2.1
    exact not92 (List.cons.inj (List.append_cancel_left tails)).1.symm

/-- Escaped text stays literal in an emphasis exactly when the text does not let the span be
closed early. -/
theorem markdownToIrc_emphasis_iff (mem : kind ∈ SpanKind.emphases) (nonempty : str ≠ []) :
    markdownToIrc (kind.delim ++ escapeMarkdown str ++ kind.delim) =
        kind.control :: (str ++ [kind.control]) ↔ ClosesLast kind str := by
  constructor
  · intro literal
    by_contra early
    exact not_literal_of_closed_early mem nonempty early literal
  · exact literal_of_closesLast mem nonempty

/-- An underscore in underscores closes the span, and one in bold does not. -/
theorem markdownToIrc_emphasis_iff_underscore :
    (markdownToIrc (SpanKind.underscore.delim ++ escapeMarkdown [97, 95, 98] ++
        SpanKind.underscore.delim) = 29 :: ([97, 95, 98] ++ [29]) ↔
      ClosesLast .underscore [97, 95, 98]) ∧
    (markdownToIrc (SpanKind.bold.delim ++ escapeMarkdown [97, 95, 98] ++ SpanKind.bold.delim) =
        2 :: ([97, 95, 98] ++ [2]) ↔ ClosesLast .bold [97, 95, 98]) :=
  ⟨markdownToIrc_emphasis_iff (by decide) (by decide),
    markdownToIrc_emphasis_iff (by decide) (by decide)⟩

end Emphasis

/-- `*a\*b*`: the span is closed at the star that is escaped. -/
theorem not_literal_in_star :
    ¬∀ kind ∈ SpanKind.emphases, ∀ str : Str, str ≠ [] →
      (∀ chr ∈ str, isControl chr = false) → 32 ∉ str.head? → 32 ∉ str.getLast? →
        markdownToIrc (kind.delim ++ escapeMarkdown str ++ kind.delim) =
          kind.control :: (str ++ [kind.control]) := by
  intro literal
  have early : ¬ClosesLast .star [97, 42, 98] := by
    rw [closesLast_of_one rfl]
    decide
  exact not_literal_of_closed_early (by decide) (by decide) early
    (literal .star (by decide) [97, 42, 98] (by decide) (forall_mem_of_all rfl) (by decide)
      (by decide))

end Anope.Bridge
