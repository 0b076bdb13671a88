import Anope.Bridge.Markdown
import Anope.Library.Markup
import Mathlib.Data.List.TakeWhile

/-!
# What rendering keeps

A delimiter is a run of one character, and a span ends at the first place where its delimiter
is found.  So no delimiter that is found within a range goes on behind the end of the range,
and what is rendered inside and behind a span are two parts of the text.
-/

namespace Anope.Bridge

open Library.Markup (Rendering)
open Library.Replace (cutAt append_of_cutAt not_prefix_of_cutAt)

/-- The characters that rendering may drop. -/
def isMark (chr : UInt8) : Bool :=
  chr ∈ [96, 124, 42, 95, 126, 92, 62, 35, 32]

/-- The control codes of the spans. -/
def isControl (chr : UInt8) : Bool :=
  chr ∈ SpanKind.all.map SpanKind.control

/-- No delimiter goes on from a range into what stands behind it. -/
def Bounded (region more : Str) : Prop :=
  ∀ chr ∈ more.head?, chr ∈ specials ∧ chr ∉ region.getLast?

/-! ## Delimiters -/

section Delimiters

variable {kind : SpanKind} {region more : Str}

/-- A delimiter is a run of a character that can open a span. -/
theorem exists_delim_eq_replicate (mem : kind ∈ SpanKind.all) :
    ∃ chr count, kind.delim = List.replicate (count + 1) chr ∧ chr ∈ specials := by
  have each : ∀ kind ∈ SpanKind.all,
      kind.delim = List.replicate (kind.delim.length - 1 + 1) (kind.delim.headD 0) ∧
        kind.delim.headD 0 ∈ specials := by
    decide
  exact ⟨_, _, each kind mem⟩

theorem length_delim_pos (mem : kind ∈ SpanKind.all) : 0 < kind.delim.length := by
  rcases exists_delim_eq_replicate mem with ⟨chr, count, is, _⟩
  rw [is, List.length_replicate]
  exact Nat.succ_pos count

/-- What is checked for each item of a list holds for all of them. -/
theorem forall_mem_of_all {α : Type} {list : List α} {p : α → Prop} [DecidablePred p]
    (all : (list.all fun item => decide (p item)) = true) : ∀ item ∈ list, p item :=
  fun item mem => of_decide_eq_true (List.all_eq_true.mp all item mem)

theorem isMark_of_mem_delim (mem : kind ∈ SpanKind.all) :
    ∀ chr ∈ kind.delim, isMark chr = true := by
  have each : ∀ kind ∈ SpanKind.all, kind.delim.all isMark = true := by
    decide
  exact List.all_eq_true.mp (each kind mem)

theorem bounded_nil (region : Str) : Bounded region [] :=
  fun _ mem => by cases mem

/-- The end of a range bounds its last part. -/
theorem Bounded.of_append {front : Str} (bounded : Bounded (front ++ region) more) :
    Bounded region more := by
  intro chr mem
  rcases bounded chr mem with ⟨special, notLast⟩
  refine ⟨special, fun last => notLast ?_⟩
  rw [List.getLast?_append, last]
  rfl

/-- A run that starts in a range ends in it. -/
theorem Bounded.prefix_of_replicate {front after : Str} {count : Nat} {chr : UInt8}
    (bounded : Bounded region more) (nonempty : front ≠ []) (isTail : front <:+ region)
    (is : front ++ more = List.replicate count chr ++ after) :
    ∃ rest, front = List.replicate count chr ++ rest := by
  rcases List.append_eq_append_iff.mp is with ⟨beyond, isRun, isMore⟩ | ⟨rest, isFront, _⟩
  · cases beyond with
    | nil => exact ⟨[], by rw [isRun, List.append_nil, List.append_nil]⟩
    | cons next beyond =>
        -- The run would go on from the last character of the range.
        have isNext : next = chr := by
          refine List.eq_of_mem_replicate (n := count) ?_
          rw [isRun]
          exact List.mem_append_right _ List.mem_cons_self
        rcases List.eq_nil_or_concat' front with empty | ⟨init, last, isFront⟩
        · exact absurd empty nonempty
        · have isLast : last = chr := by
            refine List.eq_of_mem_replicate (n := count) ?_
            rw [isRun, isFront]
            exact List.mem_append_left _ (List.mem_append_right _ List.mem_cons_self)
          rcases isTail with ⟨before, rfl⟩
          refine absurd ?_ (bounded next ?_).2
          · rw [isFront, ← List.append_assoc, List.getLast?_concat, isLast, isNext]
            rfl
          · rw [isMore]
            rfl
  · exact ⟨rest, isFront⟩

/-- The place where a delimiter is found first bounds the text in front of it. -/
theorem bounded_of_cutAt (mem : kind ∈ SpanKind.all) {text inner after : Str}
    (found : cutAt kind.delim text = some (inner, after)) (behind : Str) :
    Bounded inner (kind.delim ++ behind) := by
  rcases exists_delim_eq_replicate mem with ⟨chr, count, isDelim, special⟩
  intro next isNext
  rw [isDelim, List.replicate_succ] at isNext
  cases isNext
  refine ⟨special, fun isLast => ?_⟩
  rcases List.getLast?_eq_some_iff.mp isLast with ⟨init, rfl⟩
  refine not_prefix_of_cutAt found (i := init.length) ?_ ⟨chr :: after, ?_⟩
  · rw [List.length_append, List.length_singleton]
    exact Nat.lt_succ_self _
  · rw [append_of_cutAt found, List.append_assoc, List.append_assoc, List.drop_left, isDelim]
    calc
      List.replicate (count + 1) chr ++ chr :: after =
          List.replicate (count + 1 + 1) chr ++ after := by
        rw [List.append_cons, ← List.replicate_succ']
      _ = [chr] ++ (List.replicate (count + 1) chr ++ after) := by
        rw [List.replicate_succ]
        rfl

/-- A span within a range is a part of it, and its delimiter bounds the text inside. -/
theorem exists_of_size? (mem : kind ∈ SpanKind.all) {size : Nat} (bounded : Bounded region more)
    (is : kind.size? (region ++ more) region.length = some size) :
    ∃ inner rest, region = kind.delim ++ (inner ++ (kind.delim ++ rest)) ∧
      inner.length = size ∧ Bounded inner (kind.delim ++ (rest ++ more)) := by
  rw [SpanKind.size?] at is
  split at is
  · rename_i opens
    rcases List.prefix_of_prefix_length_le opens.2 (List.prefix_append region more) opens.1 with
      ⟨tail, rfl⟩
    rw [List.append_assoc, List.drop_left] at is
    split at is
    · cases is
    · rename_i inner after found
      split at is
      · rename_i within
        cases is
        have isText := append_of_cutAt found
        rw [List.length_append] at within
        have inTail : inner <+: tail := by
          refine List.prefix_of_prefix_length_le ?_ (List.prefix_append tail more) (by omega)
          rw [isText, List.append_assoc]
          exact List.prefix_append _ _
        rcases inTail with ⟨front, rfl⟩
        rw [List.length_append] at within
        rcases exists_delim_eq_replicate mem with ⟨chr, count, isDelim, _⟩
        rw [List.append_assoc, List.append_assoc, List.append_cancel_left_eq, isDelim] at isText
        have nonempty : front ≠ [] := fun empty => by
          rw [empty, List.length_nil] at within
          omega
        rcases bounded.prefix_of_replicate nonempty
          ⟨kind.delim ++ inner, List.append_assoc _ _ _⟩ isText with ⟨rest, isFront⟩
        exact ⟨inner, rest, by rw [isFront, isDelim], rfl, bounded_of_cutAt mem found _⟩
      · cases is
  · cases is

end Delimiters

/-! ## Passes -/

section Passes

variable {region more : Str}

/-- A marker of a line starts and ends in a range. -/
theorem Bounded.prefix_of_plain {pattern : Str} (bounded : Bounded region more)
    (plain : ∀ chr ∈ pattern, chr ∉ specials) (starts : pattern <+: region ++ more) :
    pattern <+: region := by
  rcases starts with ⟨after, is⟩
  rcases List.append_eq_append_iff.mp is with ⟨rest, isRegion, _⟩ | ⟨beyond, isPattern, isMore⟩
  · exact ⟨rest, isRegion.symm⟩
  · cases beyond with
    | nil =>
        rw [List.append_nil] at isPattern
        rw [isPattern]
    | cons next beyond =>
        refine absurd (bounded next ?_).1 (plain next ?_)
        · rw [isMore]
          rfl
        · rw [isPattern]
          exact List.mem_append_right _ List.mem_cons_self

theorem isMark_of_mem_takeWhile {mark : UInt8} (isMark_ : isMark mark = true) (text : Str) :
    ∀ chr ∈ text.takeWhile fun chr => chr == mark, isMark chr = true := by
  intro chr mem
  have same : chr = mark := eq_of_beq (List.mem_takeWhile_imp (p := fun chr => chr == mark) mem)
  exact same ▸ isMark_

/-- What a block marker takes of a line are marks. -/
theorem exists_of_blockMarker (bounded : Bounded region more) :
    ∃ used rest, region = used ++ rest ∧
      used.length = blockMarker (region ++ more) region.length ∧
      ∀ chr ∈ used, isMark chr = true := by
  rw [blockMarker]
  split_ifs with quotes quote heading
  · rcases bounded.prefix_of_plain (forall_mem_of_all rfl) quotes with ⟨rest, rfl⟩
    exact ⟨[62, 62, 62], 32 :: rest, rfl, rfl, forall_mem_of_all rfl⟩
  · rcases bounded.prefix_of_plain (forall_mem_of_all rfl) quote with ⟨rest, rfl⟩
    exact ⟨[62], 32 :: rest, rfl, rfl, forall_mem_of_all rfl⟩
  · rw [hashCount, List.take_left]
    refine ⟨(region.takeWhile fun chr => chr == 35).take 6,
      (region.takeWhile fun chr => chr == 35).drop 6 ++ region.dropWhile fun chr => chr == 35,
      ?_, ?_, ?_⟩
    · rw [← List.append_assoc, List.take_append_drop, List.takeWhile_append_dropWhile]
    · rw [List.length_take, Nat.min_comm]
    · exact fun chr mem => isMark_of_mem_takeWhile (by decide) region chr (List.mem_of_mem_take mem)
  · exact ⟨[], region, rfl, rfl, List.forall_mem_nil _⟩

/-- What is skipped at the start of a line are marks. -/
theorem exists_of_lineSkip (bounded : Bounded region more) :
    ∃ used rest, region = used ++ rest ∧
      used.length = lineSkip (region ++ more) region.length ∧
      ∀ chr ∈ used, isMark chr = true := by
  rcases exists_of_blockMarker bounded with ⟨marker, rest, is, length, areMarks⟩
  rw [lineSkip]
  split_ifs with none
  · exact ⟨[], region, rfl, rfl, List.forall_mem_nil _⟩
  · refine ⟨marker ++ rest.takeWhile fun chr => chr == 32, rest.dropWhile fun chr => chr == 32,
      ?_, ?_, ?_⟩
    · rw [List.append_assoc, List.takeWhile_append_dropWhile, is]
    · rw [← length, List.take_left, List.length_append]
      conv_rhs => rw [is, List.drop_left]
    · intro chr mem
      rcases List.mem_append.mp mem with mem | mem
      · exact areMarks chr mem
      · exact isMark_of_mem_takeWhile (by decide) rest chr mem

/-- The loop writes a part of a range as a rendering of it, or it comes to a span. -/
theorem pass_cases {chr : UInt8} {tail : Str} (bounded : Bounded (chr :: tail) more)
    (lineStart : Bool) :
    (∃ used out rest next, pass chr (tail ++ more) (tail.length + 1) lineStart =
        .write out used.length next ∧
      chr :: tail = used ++ rest ∧ used ≠ [] ∧ Rendering isMark isControl used out) ∨
    ∃ kind ∈ SpanKind.all, ∃ inner rest,
      pass chr (tail ++ more) (tail.length + 1) lineStart = .span kind inner.length ∧
      chr :: tail = kind.delim ++ (inner ++ (kind.delim ++ rest)) ∧
      Bounded inner (kind.delim ++ (rest ++ more)) := by
  have one : Rendering isMark isControl [chr] [chr] := .refl _
  rw [pass]
  split_ifs with skip newline special
  · rcases exists_of_lineSkip bounded with ⟨used, rest, is, length, areMarks⟩
    have skips := skip.2
    have same : lineSkip (chr :: (tail ++ more)) (tail.length + 1) = used.length := length.symm
    rw [same] at skips ⊢
    refine Or.inl ⟨used, [], rest, false, rfl, is, List.ne_nil_of_length_pos (by omega), ?_⟩
    have dropped : Rendering isMark isControl (used ++ []) [] :=
      Rendering.drop_append areMarks .nil
    rwa [List.append_nil] at dropped
  · exact Or.inl ⟨[chr], [10], tail, true, rfl, rfl, List.cons_ne_nil _ _, newline ▸ one⟩
  · rw [specialPass.eq_def]
    cases found : firstSpan (chr :: (tail ++ more)) (tail.length + 1) with
    | some span =>
        rcases exists_of_firstSpan found with ⟨mem, isSize⟩
        rcases exists_of_size? mem bounded isSize with ⟨inner, rest, is, length, inside⟩
        refine Or.inr ⟨span.1, mem, inner, rest, ?_, is, inside⟩
        rw [length]
    | none =>
        refine Or.inl ?_
        have plain : ∃ used out rest next, Pass.write [chr] 1 false = .write out used.length next ∧
            chr :: tail = used ++ rest ∧ used ≠ [] ∧ Rendering isMark isControl used out :=
          ⟨[chr], [chr], tail, false, rfl, rfl, List.cons_ne_nil _ _, one⟩
        rw [escapePass.eq_def]
        cases tail with
        | nil =>
            cases more with
            | nil => exact plain
            | cons escaped more =>
                dsimp only [List.nil_append]
                rw [if_neg fun escapes => absurd escapes.2.1 (Nat.lt_irrefl 1)]
                exact plain
        | cons escaped tail =>
            dsimp only [List.cons_append]
            split_ifs with escapes
            · refine ⟨[chr, escaped], [escaped], tail, false, rfl, rfl, List.cons_ne_nil _ _, ?_⟩
              exact (Rendering.refl [escaped]).drop (by rw [escapes.1]; decide)
            · exact plain
  · exact Or.inl ⟨[chr], [chr], tail, false, rfl, rfl, List.cons_ne_nil _ _, one⟩

/-- What is written behind characters that are written. -/
theorem render_of_used {chr : UInt8} {tail used out rest : Str} {lineStart next : Bool}
    (is : pass chr (tail ++ more) (tail.length + 1) lineStart = .write out used.length next)
    (split : chr :: tail = used ++ rest) :
    render (chr :: (tail ++ more)) (tail.length + 1) lineStart =
      out ++ render (rest ++ more) rest.length next := by
  have text : chr :: (tail ++ more) = used ++ (rest ++ more) := by
    rw [← List.cons_append, split, List.append_assoc]
  have length : tail.length + 1 = used.length + rest.length := by
    rw [← List.length_append, ← split, List.length_cons]
  rw [render_of_write is, text, length, List.drop_left, Nat.add_sub_cancel_left]

/-- What is written for a span and behind it. -/
theorem render_of_delimited {chr : UInt8} {tail inner rest : Str} {lineStart : Bool}
    {kind : SpanKind}
    (is : pass chr (tail ++ more) (tail.length + 1) lineStart = .span kind inner.length)
    (split : chr :: tail = kind.delim ++ (inner ++ (kind.delim ++ rest))) :
    render (chr :: (tail ++ more)) (tail.length + 1) lineStart =
      kind.control :: ((if kind.parseInner then
          render (inner ++ (kind.delim ++ (rest ++ more))) inner.length false
        else inner) ++ kind.control :: render (rest ++ more) rest.length false) := by
  have text : chr :: (tail ++ more) =
      kind.delim ++ (inner ++ (kind.delim ++ (rest ++ more))) := by
    rw [← List.cons_append, split, List.append_assoc, List.append_assoc, List.append_assoc]
  have length : tail.length + 1 =
      kind.delim.length + inner.length + kind.delim.length + rest.length := by
    rw [← List.length_cons, split, List.length_append, List.length_append, List.length_append]
    omega
  rw [render_of_span is, text, length, ← List.drop_drop, ← List.drop_drop, List.drop_left,
    List.drop_left, List.drop_left, List.take_left, Nat.add_sub_cancel_left]

end Passes

/-! ## The whole text -/

theorem isControl_of_mem {kind : SpanKind} (mem : kind ∈ SpanKind.all) :
    isControl kind.control = true :=
  decide_eq_true (List.mem_map_of_mem mem)

/-- What is written for a range is a rendering of the range. -/
theorem rendering_render {region more : Str} (bounded : Bounded region more) (lineStart : Bool) :
    Rendering isMark isControl region (render (region ++ more) region.length lineStart) := by
  induction size : region.length using Nat.strongRecOn generalizing region more lineStart with
  | ind size ih =>
      cases region with
      | nil =>
          rw [← size, List.length_nil, render_zero]
          exact .nil
      | cons chr tail =>
          subst size
          rcases pass_cases bounded lineStart with
            ⟨used, out, rest, next, is, split, nonempty, rendering⟩ |
              ⟨kind, mem, inner, rest, is, split, inside⟩
          · have length := congrArg List.length split
            rw [List.length_append] at length
            have some := List.length_pos_of_ne_nil nonempty
            have behind : Bounded rest more := Bounded.of_append (split ▸ bounded)
            rw [List.cons_append, List.length_cons, render_of_used is split, split]
            exact rendering.append (ih rest.length (by omega) behind next rfl)
          · have length := congrArg List.length split
            rw [List.length_append, List.length_append, List.length_append] at length
            have some := length_delim_pos mem
            have behind : Bounded rest more := by
              rw [split] at bounded
              exact bounded.of_append.of_append.of_append
            rw [List.cons_append, List.length_cons, render_of_delimited is split, split]
            refine Rendering.enclose_delimited (isControl_of_mem mem) (isMark_of_mem_delim mem) ?_
              (ih rest.length (by omega) behind false rfl)
            split_ifs
            · exact ih inner.length (by omega) inside false rfl
            · exact .refl inner

/-- Rendering loses and doubles nothing but marks, and every control code it writes comes in
pairs. -/
theorem markdownToIrc_keeps {str : Str} (plain : ∀ chr ∈ str, isControl chr = false) :
    List.Sublist ((markdownToIrc str).filter fun chr => !isControl chr) str ∧
      ((markdownToIrc str).filter fun chr => !isControl chr && !isMark chr) =
        str.filter (fun chr => !isMark chr) ∧
      ∀ code, isControl code = true → Even ((markdownToIrc str).count code) := by
  have rendering : Rendering isMark isControl str (markdownToIrc str) := by
    have whole := rendering_render (bounded_nil str) true
    rwa [List.append_nil] at whole
  refine ⟨rendering.sublist, ?_, ?_⟩
  · rw [rendering.filter_eq]
    refine List.filter_congr fun chr mem => ?_
    rw [plain chr mem]
    rfl
  · intro code isCode
    refine rendering.even_count fun mem => ?_
    rw [plain code mem] at isCode
    contradiction

/-- A span in bold, with an escape in it. -/
theorem markdownToIrc_keeps_bold :
    (∀ chr ∈ ([42, 42, 97, 92, 42, 42, 42] : Str), isControl chr = false) ∧
      Even ((markdownToIrc [42, 42, 97, 92, 42, 42, 42]).count 2) := by
  have plain : ∀ chr ∈ ([42, 42, 97, 92, 42, 42, 42] : Str), isControl chr = false :=
    forall_mem_of_all rfl
  exact ⟨plain, (markdownToIrc_keeps plain).2.2 2 (by decide)⟩

end Anope.Bridge
