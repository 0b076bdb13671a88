import Anope.Library.Replace
import Anope.Text.Casemap

/-!
# Markdown

`Text::MarkdownToIrc`, which makes IRC formatting of Markdown, and `Text::EscapeMarkdown`.  A
position in a text is given by what stands from it on, and the end of a range by how many
characters are left of the range.
-/

namespace Anope.Bridge

open Library.Replace (cutAt append_of_cutAt not_prefix_of_cutAt)

/-- The arguments of `Span`: a delimiter, its control code, and whether the text inside is
parsed. -/
structure SpanKind where
  delim : Str
  control : UInt8
  parseInner : Bool
  deriving DecidableEq, Repr

namespace SpanKind

def codeBlock : SpanKind := ⟨[96, 96, 96], 0x11, false⟩

def longCode : SpanKind := ⟨[96, 96], 0x11, false⟩

def code : SpanKind := ⟨[96], 0x11, false⟩

def spoiler : SpanKind := ⟨[124, 124], 0x16, true⟩

def boldItalic : SpanKind := ⟨[42, 42, 42], 0x02, true⟩

def bold : SpanKind := ⟨[42, 42], 0x02, true⟩

def underline : SpanKind := ⟨[95, 95], 0x1f, true⟩

def strikethrough : SpanKind := ⟨[126, 126], 0x1e, true⟩

def star : SpanKind := ⟨[42], 0x1d, true⟩

def underscore : SpanKind := ⟨[95], 0x1d, true⟩

/-- The spans in the order in which they are tried. -/
def all : List SpanKind :=
  [codeBlock, longCode, code, spoiler, boldItalic, bold, underline, strikethrough, star,
    underscore]

/-- `Span`, up to what it writes: the size of the text inside, if the span is closed within the
range and there is a text inside. -/
def size? (kind : SpanKind) (rest : Str) (len : Nat) : Option Nat :=
  if kind.delim.length ≤ len ∧ kind.delim <+: rest then
    match cutAt kind.delim (rest.drop kind.delim.length) with
    | none => none
    | some (inner, _) =>
        if inner ≠ [] ∧ kind.delim.length + inner.length < len then some inner.length else none
  else none

end SpanKind

/-- The first kind of span that the text starts with. -/
def firstSpan (rest : Str) (len : Nat) : Option (SpanKind × Nat) :=
  SpanKind.all.findSome? fun kind => (kind.size? rest len).map fun size => (kind, size)

/-- The characters that can open a span or an escape. -/
def specials : Str :=
  [96, 124, 42, 95, 126, 92]

/-- `std::isalnum`. -/
def isAlnum (chr : UInt8) : Bool :=
  48 ≤ chr && chr ≤ 57 || 65 ≤ chr && chr ≤ 90 || 97 ≤ chr && chr ≤ 122

/-- How many `#` a heading could start with. -/
def hashCount (rest : Str) (len : Nat) : Nat :=
  min (((rest.take len).takeWhile fun chr => chr == 35).length) 6

/-- The size of the marker of a block quote or a heading, without a space. -/
def blockMarker (rest : Str) (len : Nat) : Nat :=
  if [62, 62, 62, 32] <+: rest then 3
  else if [62, 32] <+: rest then 1
  else if 0 < hashCount rest len ∧ hashCount rest len < len ∧
      rest[hashCount rest len]? = some 32 then hashCount rest len
  else 0

/-- How much is skipped at the start of a line. -/
def lineSkip (rest : Str) (len : Nat) : Nat :=
  let skip := blockMarker rest len
  if skip = 0 then 0
  else skip + (((rest.take len).drop skip).takeWhile fun chr => chr == 32).length

/-- What a pass of the loop of `Render` does. -/
inductive Pass where
  /-- Characters are written, and so many are gone over. -/
  | write (out : Str) (size : Nat) (lineStart : Bool)
  /-- A span is rendered whose text inside is of this size. -/
  | span (kind : SpanKind) (size : Nat)
  deriving DecidableEq, Repr

/-- An escaped markdown character is written without its escape. -/
def escapePass (chr : UInt8) (tail : Str) (len : Nat) : Pass :=
  match tail with
  | [] => .write [chr] 1 false
  | escaped :: _ =>
      if chr = 92 ∧ 1 < len ∧ isAlnum escaped = false then .write [escaped] 2 false
      else .write [chr] 1 false

/-- A pass at a character that can open a span or an escape. -/
def specialPass (chr : UInt8) (tail : Str) (len : Nat) : Pass :=
  match firstSpan (chr :: tail) len with
  | some (kind, size) => .span kind size
  | none => escapePass chr tail len

/-- A pass of the loop of `Render`, with the character at its position. -/
def pass (chr : UInt8) (tail : Str) (len : Nat) (lineStart : Bool) : Pass :=
  if lineStart ∧ lineSkip (chr :: tail) len ≠ 0 then
    .write [] (lineSkip (chr :: tail) len) false
  else if chr = 10 then .write [10] 1 true
  else if chr ∉ specials then .write [chr] 1 false
  else specialPass chr tail len

/-- The pass goes on, and a span has its text within the range. -/
def Pass.Progresses (len : Nat) : Pass → Prop
  | .write _ size _ => 0 < size
  | .span kind size => 0 < size ∧ kind.delim.length + size < len

theorem SpanKind.lt_of_size? {kind : SpanKind} {rest : Str} {len size : Nat}
    (is : kind.size? rest len = some size) : 0 < size ∧ kind.delim.length + size < len := by
  rw [size?] at is
  split at is
  · split at is
    · cases is
    · split at is
      · rename_i _ inner _ _ within
        cases is
        exact ⟨List.length_pos_of_ne_nil within.1, within.2⟩
      · cases is
  · cases is

theorem exists_of_firstSpan {rest : Str} {len size : Nat} {kind : SpanKind}
    (is : firstSpan rest len = some (kind, size)) :
    kind ∈ SpanKind.all ∧ kind.size? rest len = some size := by
  rcases List.exists_of_findSome?_eq_some is with ⟨kind', mem, found⟩
  rcases Option.map_eq_some_iff.mp found with ⟨size', isSize, same⟩
  cases same
  exact ⟨mem, isSize⟩

theorem pass_progresses (chr : UInt8) (tail : Str) (len : Nat) (lineStart : Bool) :
    (pass chr tail len lineStart).Progresses len := by
  rw [pass]
  split_ifs with skip newline special
  · exact Nat.pos_of_ne_zero skip.2
  · exact Nat.one_pos
  · rw [specialPass.eq_def]
    cases found : firstSpan (chr :: tail) len with
    | some span => exact SpanKind.lt_of_size? (exists_of_firstSpan found).2
    | none =>
        cases tail with
        | nil => exact Nat.one_pos
        | cons escaped tail =>
            dsimp only [escapePass]
            split_ifs
            · exact Nat.two_pos
            · exact Nat.one_pos
  · exact Nat.one_pos

/-- `Render`, from a position on. -/
def render (rest : Str) (len : Nat) (lineStart : Bool) : Str :=
  match rest with
  | [] => []
  | chr :: tail =>
      if len = 0 then []
      else
        match _is : pass chr tail len lineStart with
        | .write out size next => out ++ render ((chr :: tail).drop size) (len - size) next
        | .span kind size =>
            let inner := (chr :: tail).drop kind.delim.length
            let written := if kind.parseInner then render inner size false else inner.take size
            let skip := kind.delim.length + size + kind.delim.length
            kind.control :: (written ++
              kind.control :: render ((chr :: tail).drop skip) (len - skip) false)
termination_by len
decreasing_by
  all_goals
    have progress := pass_progresses chr tail len lineStart
    rw [_is] at progress
    dsimp only [Pass.Progresses] at progress
    omega

/-- `Text::MarkdownToIrc`. -/
def markdownToIrc (str : Str) : Str :=
  render str str.length true

section Render

variable {chr : UInt8} {tail : Str} {len : Nat} {lineStart : Bool}

@[simp]
theorem render_nil (len : Nat) (lineStart : Bool) : render [] len lineStart = [] := by
  rw [render]

@[simp]
theorem render_zero (rest : Str) (lineStart : Bool) : render rest 0 lineStart = [] := by
  cases rest with
  | nil => exact render_nil 0 lineStart
  | cons chr tail => rw [render, if_pos rfl]

theorem render_of_write {out : Str} {size : Nat} {next : Bool}
    (is : pass chr tail (len + 1) lineStart = .write out size next) :
    render (chr :: tail) (len + 1) lineStart =
      out ++ render ((chr :: tail).drop size) (len + 1 - size) next := by
  rw [render, if_neg (Nat.succ_ne_zero len)]
  split
  · rename_i is'
    rw [is] at is'
    cases is'
    rfl
  · rename_i is'
    rw [is] at is'
    cases is'

theorem render_of_span {kind : SpanKind} {size : Nat}
    (is : pass chr tail (len + 1) lineStart = .span kind size) :
    render (chr :: tail) (len + 1) lineStart =
      kind.control :: ((if kind.parseInner then
          render ((chr :: tail).drop kind.delim.length) size false
        else ((chr :: tail).drop kind.delim.length).take size) ++
        kind.control :: render
          ((chr :: tail).drop (kind.delim.length + size + kind.delim.length))
          (len + 1 - (kind.delim.length + size + kind.delim.length)) false) := by
  rw [render, if_neg (Nat.succ_ne_zero len)]
  split
  · rename_i is'
    rw [is] at is'
    cases is'
  · rename_i is'
    rw [is] at is'
    cases is'
    rfl

end Render

/-- The characters that are escaped. -/
def escapedChars : Str :=
  [42, 95, 96, 126, 124, 62, 35, 92]

/-- What `EscapeMarkdown` writes for a character. -/
def escapeMarkdownChar (chr : UInt8) : Str :=
  if chr ∈ escapedChars then [92, chr] else [chr]

/-- `Text::EscapeMarkdown`. -/
def escapeMarkdown (str : Str) : Str :=
  str.flatMap escapeMarkdownChar

end Anope.Bridge
