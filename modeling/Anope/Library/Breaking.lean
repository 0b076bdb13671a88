import Mathlib.Data.List.Forall2
import Mathlib.Data.List.Infix
import Mathlib.Tactic.Common

/-!
# Breaking the occurrences of a word

One pass over a text replaces the second element of each occurrence of a word that it comes to, and
goes on behind the occurrence.  What overlaps an occurrence is passed over.  For a word whose first
element can occur again only as its last one, this is exactly what is left of the word.
-/

namespace Library.Breaking

universe u

variable {α : Type u} [DecidableEq α]

/-- Break each occurrence of a word that the pass comes to. -/
def breakAll (word : List α) (mark : α) : List α → List α
  | [] => []
  | chr :: rest =>
      if word <+: chr :: rest then
        chr :: mark :: (rest.take (word.length - 1)).drop 1 ++
          breakAll word mark (rest.drop (word.length - 1))
      else chr :: breakAll word mark rest
  termination_by text => text.length
  decreasing_by
    · rw [List.length_drop]
      exact Nat.lt_succ_of_le (Nat.sub_le _ _)
    · exact Nat.lt_succ_self _

variable {word text inp out : List α} {mark first second last : α} {middle : List α}

theorem breakAll_cons_of_not {chr : α} {rest : List α} (none : ¬word <+: chr :: rest) :
    breakAll word mark (chr :: rest) = chr :: breakAll word mark rest := by
  rw [breakAll, if_neg none]

/-- An occurrence is broken at its second element. -/
theorem breakAll_append (isWord : word = first :: second :: middle) (after : List α) :
    breakAll word mark (word ++ after) = first :: mark :: (middle ++ breakAll word mark after) := by
  subst isWord
  have starts : first :: second :: middle <+: first :: (second :: middle ++ after) :=
    List.prefix_append (first :: second :: middle) after
  rw [List.cons_append, breakAll, if_pos starts]
  simp only [List.length_cons, Nat.add_sub_cancel]
  rw [show middle.length + 1 = (second :: middle).length from rfl, List.take_left, List.drop_left]
  rfl

/-! ## What is changed -/

/-- A text in which some occurrences of an element are replaced. -/
def Marked (second mark : α) : List α → List α → Prop :=
  List.Forall₂ fun before after => after = before ∨ before = second ∧ after = mark

omit [DecidableEq α] in
theorem Marked.refl (text : List α) : Marked second mark text text :=
  List.forall₂_same.mpr fun _ _ => .inl rfl

omit [DecidableEq α] in
theorem Marked.take (marked : Marked second mark inp out) (len : Nat) :
    Marked second mark (inp.take len) (out.take len) :=
  List.forall₂_take len marked

theorem marked_breakAll (isWord : word = first :: second :: middle) (text : List α) :
    Marked second mark text (breakAll word mark text) := by
  induction text using breakAll.induct word with
  | case1 =>
      rw [breakAll]
      exact .nil
  | case2 chr rest starts ih =>
      obtain ⟨after, split⟩ := starts
      have behind : rest.drop (word.length - 1) = after := by
        rw [isWord, List.cons_append, List.cons.injEq] at split
        rw [isWord, ← split.2]
        exact List.drop_left
      rw [behind] at ih
      have rest : Marked second mark (middle ++ after) (middle ++ breakAll word mark after) :=
        List.rel_append (Marked.refl middle) ih
      rw [← split, breakAll_append isWord]
      nth_rewrite 1 [isWord]
      exact .cons (.inl rfl) (.cons (.inr ⟨rfl, rfl⟩) rest)
  | case3 chr rest none ih =>
      rw [breakAll_cons_of_not none]
      exact .cons (.inl rfl) ih

omit [DecidableEq α] in
theorem Marked.prefix_left {word : List α} (marked : Marked second mark inp out)
    (noMark : mark ∉ word) (starts : word <+: out) : word <+: inp := by
  induction marked generalizing word with
  | nil => exact starts
  | @cons before after inp out same _ ih =>
      cases word with
      | nil => exact List.nil_prefix
      | cons chr word =>
          rw [List.mem_cons, not_or] at noMark
          rw [List.cons_prefix_cons] at starts ⊢
          rcases same with rfl | ⟨_, rfl⟩
          · exact ⟨starts.1, ih noMark.2 starts.2⟩
          · exact absurd starts.1.symm noMark.1

omit [DecidableEq α] in
theorem Marked.prefix_right {word : List α} (marked : Marked second mark inp out)
    (noSecond : second ∉ word) (starts : word <+: inp) : word <+: out := by
  induction marked generalizing word with
  | nil => exact starts
  | @cons before after inp out same _ ih =>
      cases word with
      | nil => exact List.nil_prefix
      | cons chr word =>
          rw [List.mem_cons, not_or] at noSecond
          rw [List.cons_prefix_cons] at starts ⊢
          rcases same with rfl | ⟨rfl, _⟩
          · exact ⟨starts.1, ih noSecond.2 starts.2⟩
          · exact absurd starts.1.symm noSecond.1

omit [DecidableEq α] in
/-- A word without either element occurs in the same places. -/
theorem Marked.infix_iff {word : List α} (marked : Marked second mark inp out)
    (noSecond : second ∉ word) (noMark : mark ∉ word) : word <:+: out ↔ word <:+: inp := by
  induction marked with
  | nil => exact Iff.rfl
  | @cons before after inp out same rest ih =>
      have whole : Marked second mark (before :: inp) (after :: out) := .cons same rest
      rw [List.infix_cons_iff, List.infix_cons_iff, ih]
      exact or_congr_left ⟨whole.prefix_left noMark, whole.prefix_right noSecond⟩

omit [DecidableEq α] in
/-- What does not tell the elements apart does not tell the texts apart. -/
theorem Marked.map_eq {β : Type*} {f : α → β} (marked : Marked second mark inp out)
    (same : f mark = f second) : out.map f = inp.map f := by
  induction marked with
  | nil => rfl
  | cons either _ ih =>
      rw [List.map_cons, List.map_cons, ih]
      rcases either with rfl | ⟨rfl, rfl⟩
      · rfl
      · rw [same]

/-! ## What is left of the word -/

omit [DecidableEq α] in
/-- A word does not occur across a place behind which there is an element that it does not have. -/
theorem infix_append_iff_of_apart {word front rest : List α}
    (apart : ∀ chr ∈ rest.head?, chr ∉ word) :
    word <:+: front ++ rest ↔ word <:+: front ∨ word <:+: rest := by
  rw [List.infix_append_iff_ne_nil]
  constructor
  · rintro (left | right | ⟨before, after, _, some, isWord, _, starts⟩)
    · exact .inl left
    · exact .inr right
    · obtain ⟨chr, after, rfl⟩ := List.exists_cons_of_ne_nil some
      obtain ⟨more, rfl⟩ := starts
      refine absurd ?_ (apart chr rfl)
      rw [isWord]
      exact List.mem_append_right _ List.mem_cons_self
  · rintro (left | right)
    · exact .inl left
    · exact .inr (.inl right)

omit [DecidableEq α] in
theorem infix_append_iff_of_notMem {chr : α} {word front : List α} (absent : chr ∉ front)
    (rest : List α) : chr :: word <:+: front ++ rest ↔ chr :: word <:+: rest := by
  induction front with
  | nil => rfl
  | cons other front ih =>
      rw [List.mem_cons, not_or] at absent
      rw [List.cons_append, List.infix_cons_iff, ih absent.2, List.cons_prefix_cons]
      exact or_iff_right fun starts => absent.1 starts.1

/-- What is without the first element of the word up to its last one is not changed at the start
of a text. -/
theorem prefix_breakAll {front : List α} (isWord : word = first :: second :: middle)
    (absent : first ∉ front) (starts : front ++ [last] <+: text) :
    front ++ [last] <+: breakAll word mark text := by
  induction front generalizing text with
  | nil =>
      obtain ⟨rest, rfl⟩ := starts
      rw [List.nil_append, List.singleton_append, breakAll]
      split
      · exact ⟨_, rfl⟩
      · exact ⟨_, rfl⟩
  | cons chr front ih =>
      rw [List.mem_cons, not_or] at absent
      cases text with
      | nil => exact absurd starts.length_le (by simp)
      | cons other rest =>
          rw [List.cons_append, List.cons_prefix_cons] at starts
          obtain ⟨rfl, starts⟩ := starts
          have none : ¬word <+: chr :: rest := by
            rw [isWord, List.cons_prefix_cons]
            exact fun both => absent.1 both.1
          rw [breakAll_cons_of_not none, List.cons_append, List.cons_prefix_cons]
          exact ⟨rfl, ih absent.2 starts⟩

section Left

variable (isWord : word = first :: second :: (middle ++ [last])) (absent : first ∉ second :: middle)
  (noMark : mark ∉ word)

include isWord absent noMark

/-- The rest of the word stands in a text and in what is made of it alike. -/
theorem tail_prefix_take_breakAll_iff (text : List α) (len : Nat) :
    word.tail <+: (breakAll word mark text).take len ↔ word.tail <+: text.take len := by
  constructor
  · exact ((marked_breakAll isWord text).take len).prefix_left (mt List.mem_of_mem_tail noMark)
  · rw [List.prefix_take_iff, List.prefix_take_iff]
    rintro ⟨starts, fits⟩
    refine ⟨?_, fits⟩
    subst isWord
    exact prefix_breakAll rfl absent starts

omit [DecidableEq α] in
/-- At the start of a text that begins with the word, it is left where another one overlaps it. -/
theorem infix_broken_iff (rest : List α) :
    word <:+: first :: mark :: (middle ++ last :: rest) ↔
      last = first ∧ word.tail <+: rest ∨ word <:+: rest := by
  rw [isWord, List.mem_cons, List.mem_cons, not_or, not_or] at noMark
  rw [List.mem_cons, not_or] at absent
  have noStart : ¬word <+: first :: mark :: (middle ++ last :: rest) := by
    rw [isWord, List.cons_prefix_cons, List.cons_prefix_cons]
    exact fun both => noMark.2.1 both.2.1.symm
  have noFirst : first ∉ mark :: middle := by
    rw [List.mem_cons, not_or]
    exact ⟨Ne.symm noMark.1, absent.2⟩
  have behind : word <:+: mark :: (middle ++ last :: rest) ↔ word <:+: last :: rest := by
    rw [isWord]
    exact infix_append_iff_of_notMem noFirst (last :: rest)
  have starts : word <+: last :: rest ↔ last = first ∧ word.tail <+: rest := by
    rw [isWord, List.cons_prefix_cons, List.tail_cons, eq_comm]
  rw [List.infix_cons_iff, or_iff_right noStart, behind, List.infix_cons_iff, starts]

omit [DecidableEq α] noMark in
theorem infix_twice_iff (rest : List α) :
    word ++ word.tail <:+: word ++ rest ↔
      word.tail <+: rest ∨ word ++ word.tail <+: last :: rest ∨ word ++ word.tail <:+: rest := by
  have split : word ++ rest = first :: (second :: middle ++ last :: rest) := by
    rw [isWord]
    simp
  have starts : word ++ word.tail <+: first :: (second :: middle ++ last :: rest) ↔
      word.tail <+: rest := by
    rw [← split, List.prefix_append_right_inj]
  rw [split, List.infix_cons_iff, starts]
  nth_rewrite 2 [isWord]
  rw [List.cons_append, infix_append_iff_of_notMem absent, ← List.cons_append, ← isWord,
    List.infix_cons_iff]

/-- The word is left exactly where an occurrence of it overlaps another one. -/
theorem infix_take_breakAll_iff (text : List α) (len : Nat) :
    word <:+: (breakAll word mark text).take len ↔
      last = first ∧ word ++ word.tail <:+: text.take len := by
  have short {list : List α} (shorter : list.length < word.length) :
      ¬word <:+: list ∧ ¬(last = first ∧ word ++ word.tail <:+: list) := by
    have noWord : ¬word <:+: list :=
      fun occurs => absurd occurs.length_le (Nat.not_le.mpr shorter)
    exact ⟨noWord, fun both =>
      noWord ((List.prefix_append word word.tail).isInfix.trans both.2)⟩
  have positive : 0 < word.length := by
    rw [isWord]
    exact Nat.zero_lt_succ _
  induction text using breakAll.induct word generalizing len with
  | case1 =>
      rw [breakAll, List.take_nil]
      exact iff_of_false (@short [] positive).1 (@short [] positive).2
  | case2 chr rest starts ih =>
      obtain ⟨after, split⟩ := starts
      have behind : rest.drop (word.length - 1) = after := by
        rw [isWord, List.cons_append, List.cons.injEq] at split
        rw [isWord, ← split.2]
        exact List.drop_left
      rw [behind] at ih
      rw [← split]
      by_cases room : word.length ≤ len
      · obtain ⟨more, rfl⟩ := Nat.exists_eq_add_of_le room
        have broken : (breakAll word mark (word ++ after)).take (word.length + more) =
            first :: mark :: (middle ++ last :: (breakAll word mark after).take more) := by
          have whole : first :: mark :: (middle ++ [last] ++ breakAll word mark after) =
              first :: mark :: (middle ++ [last]) ++ breakAll word mark after := rfl
          have length : word.length = (first :: mark :: (middle ++ [last])).length :=
            (congrArg List.length isWord).trans rfl
          rw [breakAll_append isWord, whole, length, List.take_length_add_append]
          simp
        have left : word <:+: (breakAll word mark after).take more ↔
            last = first ∧ word ++ word.tail <:+: after.take more := ih more
        rw [broken, infix_broken_iff isWord absent noMark, left,
          tail_prefix_take_breakAll_iff isWord absent noMark, List.take_length_add_append,
          infix_twice_iff isWord absent, ← and_or_left]
        refine and_congr_right fun same => ?_
        have absorbed : word ++ word.tail <+: last :: after.take more →
            word.tail <+: after.take more := by
          intro starts
          have isTail : word ++ word.tail = first :: (word.tail ++ word.tail) := by rw [isWord]; rfl
          rw [isTail, List.cons_prefix_cons] at starts
          exact (List.prefix_append _ _).trans starts.2
        rw [← or_assoc, or_iff_left_of_imp absorbed]
      · have shorter {list : List α} : (list.take len).length < word.length :=
          Nat.lt_of_le_of_lt (List.length_take_le _ _) (Nat.not_le.mp room)
        exact iff_of_false (short shorter).1 (short shorter).2
  | case3 chr rest none ih =>
      rw [breakAll_cons_of_not none]
      cases len with
      | zero => exact iff_of_false (@short [] positive).1 (@short [] positive).2
      | succ len =>
          have whole : Marked second mark (chr :: rest) (chr :: breakAll word mark rest) :=
            .cons (.inl rfl) (marked_breakAll isWord rest)
          have noStart : ¬word <+: chr :: rest.take len :=
            fun starts => none (starts.trans (List.take_prefix (len + 1) (chr :: rest)))
          have noStart' : ¬word <+: chr :: (breakAll word mark rest).take len :=
            fun starts => noStart ((whole.take (len + 1)).prefix_left noMark starts)
          have noTwice : ¬word ++ word.tail <+: chr :: rest.take len :=
            fun starts => noStart ((List.prefix_append word word.tail).trans starts)
          have left : word <:+: (breakAll word mark rest).take len ↔
              last = first ∧ word ++ word.tail <:+: rest.take len := ih len
          rw [List.take_succ_cons, List.take_succ_cons, List.infix_cons_iff, List.infix_cons_iff,
            or_iff_right noStart', or_iff_right noTwice, left]

end Left

end Library.Breaking
