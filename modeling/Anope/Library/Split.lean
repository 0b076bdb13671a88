import Mathlib.Data.Option.Basic
import Mathlib.Tactic.Common

/-!
# Splitting at a separator

`find` and `find_first_of` followed by `substr`: a list is cut at the first
element that is a separator.  The two exact characterizations say when there is
a cut and what the pieces are, so that no index arithmetic is left.
-/

namespace Library.Split

universe u

variable {α : Type u}

/-- What stands before the first separator, the separator, and what follows. -/
def splitFirst (sep : α → Bool) : List α → Option (List α × α × List α)
  | [] => none
  | head :: tail =>
      if sep head then some ([], head, tail)
      else (splitFirst sep tail).map fun pieces => (head :: pieces.1, pieces.2)

/-- There is no cut exactly when there is no separator. -/
theorem splitFirst_eq_none_iff {sep : α → Bool} {text : List α} :
    splitFirst sep text = none ↔ ∀ element ∈ text, sep element = false := by
  induction text with
  | nil => simp [splitFirst]
  | cons head tail ih =>
      by_cases cut : sep head = true
      · simp [splitFirst, cut]
      · simp [splitFirst, cut, ih]

/-- The pieces of a cut: the separator is the first one. -/
theorem splitFirst_eq_some_iff {sep : α → Bool} {text before after : List α} {separator : α} :
    splitFirst sep text = some (before, separator, after) ↔
      text = before ++ separator :: after ∧ sep separator = true ∧
        ∀ element ∈ before, sep element = false := by
  induction text generalizing before with
  | nil => simp [splitFirst]
  | cons head tail ih =>
      by_cases cut : sep head = true
      · rw [splitFirst, if_pos cut]
        constructor
        · rintro ⟨⟩
          exact ⟨rfl, cut, by simp⟩
        · rintro ⟨equal, _, none⟩
          cases before with
          | nil =>
              cases equal
              rfl
          | cons first before =>
              cases equal
              have notCut := none head List.mem_cons_self
              rw [cut] at notCut
              contradiction
      · rw [splitFirst, if_neg cut, Option.map_eq_some_iff]
        constructor
        · rintro ⟨⟨before', pieces⟩, split, equal⟩
          cases equal
          obtain ⟨rfl, isSep, none⟩ := ih.mp split
          refine ⟨rfl, isSep, ?_⟩
          simpa [cut] using none
        · rintro ⟨equal, isSep, none⟩
          cases before with
          | nil =>
              cases equal
              contradiction
          | cons first before =>
              cases equal
              exact ⟨(before, separator, after),
                ih.mpr ⟨rfl, isSep, fun element mem => none element (List.mem_cons_of_mem _ mem)⟩,
                rfl⟩

/-- A text put together from pieces is cut where they meet. -/
theorem splitFirst_append {sep : α → Bool} {before after : List α} {separator : α}
    (none : ∀ element ∈ before, sep element = false) (isSep : sep separator = true) :
    splitFirst sep (before ++ separator :: after) = some (before, separator, after) :=
  splitFirst_eq_some_iff.mpr ⟨rfl, isSep, none⟩

/-- Two places in a list are the same, or one stands before the other. -/
theorem append_cons_eq_cases {before after before' after' : List α} {element element' : α}
    (equal : before ++ element :: after = before' ++ element' :: after') :
    (before = before' ∧ element = element' ∧ after = after') ∨
      (∃ between, before' = before ++ element :: between ∧
        after = between ++ element' :: after') ∨
      ∃ between, before = before' ++ element' :: between ∧
        after' = between ++ element :: after := by
  rcases List.append_eq_append_iff.mp equal with ⟨between, rfl, tail⟩ | ⟨between, rfl, tail⟩
  · cases between with
    | nil =>
        cases tail
        exact .inl ⟨by simp, rfl, rfl⟩
    | cons _ between =>
        cases tail
        exact .inr (.inl ⟨between, rfl, rfl⟩)
  · cases between with
    | nil =>
        cases tail
        exact .inl ⟨by simp, rfl, rfl⟩
    | cons _ between =>
        cases tail
        exact .inr (.inr ⟨between, rfl, rfl⟩)

variable [DecidableEq α]

/-- What stands before and after the first occurrence of an element. -/
def cut (separator : α) (text : List α) : Option (List α × List α) :=
  (splitFirst (fun element => decide (element = separator)) text).map fun pieces =>
    (pieces.1, pieces.2.2)

theorem cut_eq_none_iff {separator : α} {text : List α} :
    cut separator text = none ↔ separator ∉ text := by
  rw [cut, Option.map_eq_none_iff, splitFirst_eq_none_iff]
  constructor
  · intro none mem
    exact of_decide_eq_false (none separator mem) rfl
  · intro absent element mem
    exact decide_eq_false (ne_of_mem_of_not_mem mem absent)

theorem cut_eq_some_iff {separator : α} {text before after : List α} :
    cut separator text = some (before, after) ↔
      text = before ++ separator :: after ∧ separator ∉ before := by
  rw [cut, Option.map_eq_some_iff]
  constructor
  · rintro ⟨⟨_, found, _⟩, split, equal⟩
    cases equal
    obtain ⟨rfl, isSep, none⟩ := splitFirst_eq_some_iff.mp split
    rw [decide_eq_true_eq] at isSep
    subst isSep
    exact ⟨rfl, fun mem => of_decide_eq_false (none _ mem) rfl⟩
  · rintro ⟨rfl, absent⟩
    refine ⟨(before, separator, after), splitFirst_append ?_ (decide_eq_true rfl), rfl⟩
    exact fun element mem => decide_eq_false (ne_of_mem_of_not_mem mem absent)

theorem cut_append {separator : α} {before : List α} (absent : separator ∉ before)
    (after : List α) : cut separator (before ++ separator :: after) = some (before, after) :=
  cut_eq_some_iff.mpr ⟨rfl, absent⟩

theorem cut_eq_none {separator : α} {text : List α} (absent : separator ∉ text) :
    cut separator text = none :=
  cut_eq_none_iff.mpr absent

/-! ## Tokens -/

/-- The first piece between separators, and the pieces behind it. -/
def pieces (separator : α) : List α → List α × List (List α)
  | [] => ([], [])
  | head :: tail =>
      let (first, rest) := pieces separator tail
      if head = separator then ([], first :: rest) else (head :: first, rest)

/-- The pieces between separators that are not empty. -/
def tokens (separator : α) (text : List α) : List (List α) :=
  let (first, rest) := pieces separator text
  (first :: rest).filter fun token => token ≠ []

theorem pieces_append {separator : α} {before : List α} (absent : separator ∉ before)
    (after : List α) :
    pieces separator (before ++ separator :: after) =
      (before, (pieces separator after).1 :: (pieces separator after).2) := by
  induction before with
  | nil => simp [pieces]
  | cons head before ih =>
      rw [List.mem_cons, not_or] at absent
      rw [List.cons_append, pieces, ih absent.2]
      simp [Ne.symm absent.1]

theorem pieces_of_not_mem {separator : α} {text : List α} (absent : separator ∉ text) :
    pieces separator text = (text, []) := by
  induction text with
  | nil => rfl
  | cons head text ih =>
      rw [List.mem_cons, not_or] at absent
      rw [pieces, ih absent.2]
      simp [Ne.symm absent.1]

/-- A token ends at the first separator. -/
theorem tokens_append {separator : α} {token : List α} (absent : separator ∉ token)
    (nonempty : token ≠ []) (rest : List α) :
    tokens separator (token ++ separator :: rest) = token :: tokens separator rest := by
  rw [tokens, pieces_append absent]
  simp [tokens, nonempty]

/-- The last token ends with the text. -/
theorem tokens_of_not_mem {separator : α} {token : List α} (absent : separator ∉ token)
    (nonempty : token ≠ []) : tokens separator token = [token] := by
  rw [tokens, pieces_of_not_mem absent]
  simp [nonempty]

/-- A text without tokens has nothing but separators. -/
theorem eq_separator_of_tokens_eq_nil {separator : α} {text : List α}
    (none : tokens separator text = []) : ∀ element ∈ text, element = separator := by
  induction text with
  | nil => exact List.forall_mem_nil _
  | cons head text ih =>
      rw [tokens, pieces] at none
      by_cases isSep : head = separator
      · simp only [if_pos isSep] at none
        rw [List.forall_mem_cons]
        exact ⟨isSep, ih none⟩
      · simp only [if_neg isSep] at none
        cases none

/-! ## Terminated pieces -/

/-- A text has no separator, or it is a piece, a separator, and a shorter text. -/
theorem cutInduction {separator : α} {motive : List α → Prop}
    (absent : ∀ text, separator ∉ text → motive text)
    (piece : ∀ before after, separator ∉ before → motive after →
      motive (before ++ separator :: after)) (text : List α) : motive text := by
  induction hlength : text.length using Nat.strongRecOn generalizing text with
  | ind length ih =>
      cases found : cut separator text with
      | none => exact absent text (cut_eq_none_iff.mp found)
      | some pieces =>
          obtain ⟨equal, none⟩ := cut_eq_some_iff.mp found
          have shorter : pieces.2.length < length := by
            rw [← hlength, equal, List.length_append, List.length_cons]
            omega
          rw [equal]
          exact piece _ _ none (ih _ shorter _ rfl)

/-- The pieces that a separator ends. -/
def terminated (separator : α) (text : List α) : List (List α) :=
  ((pieces separator text).1 :: (pieces separator text).2).dropLast

/-- What follows the last separator. -/
def unterminated (separator : α) (text : List α) : List α :=
  ((pieces separator text).1 :: (pieces separator text).2).getLast (List.cons_ne_nil _ _)

variable {separator : α}

theorem terminated_of_not_mem {text : List α} (absent : separator ∉ text) :
    terminated separator text = [] := by
  rw [terminated, pieces_of_not_mem absent]
  rfl

theorem unterminated_of_not_mem {text : List α} (absent : separator ∉ text) :
    unterminated separator text = text := by
  simp only [unterminated, pieces_of_not_mem absent, List.getLast_singleton]

theorem terminated_cut {before : List α} (absent : separator ∉ before) (after : List α) :
    terminated separator (before ++ separator :: after) = before :: terminated separator after := by
  rw [terminated, pieces_append absent]
  rfl

theorem unterminated_cut {before : List α} (absent : separator ∉ before) (after : List α) :
    unterminated separator (before ++ separator :: after) = unterminated separator after := by
  simp only [unterminated, pieces_append absent, List.getLast_cons_cons]

theorem not_mem_unterminated (separator : α) (text : List α) :
    separator ∉ unterminated separator text := by
  induction text using cutInduction with
  | absent text absent => rwa [unterminated_of_not_mem absent]
  | piece before after absent ih => rwa [unterminated_cut absent]

/-- A longer text goes on where the shorter one had no end yet. -/
theorem terminated_append (text more : List α) :
    terminated separator (text ++ more) =
      terminated separator text ++ terminated separator (unterminated separator text ++ more) := by
  induction text using @cutInduction _ _ separator with
  | absent text absent =>
      rw [terminated_of_not_mem absent, unterminated_of_not_mem absent, List.nil_append]
  | piece before after absent ih =>
      rw [List.append_assoc, List.cons_append, terminated_cut absent, terminated_cut absent,
        unterminated_cut absent, ih, List.cons_append]

theorem unterminated_append (text more : List α) :
    unterminated separator (text ++ more) =
      unterminated separator (unterminated separator text ++ more) := by
  induction text using @cutInduction _ _ separator with
  | absent text absent => rw [unterminated_of_not_mem absent]
  | piece before after absent ih =>
      rw [List.append_assoc, List.cons_append, unterminated_cut absent, unterminated_cut absent, ih]

end Library.Split

/-!
## Runs between separators

The maximal runs of a text without a separator, and where a text is cut by the indices that
`find` and `find_first_not_of` give.
-/

namespace Library.Split

universe u

variable {α : Type u}

/-- The maximal runs of elements other than the separator, none of them empty, in order: each
stands between separators, or at an end of the text. -/
inductive Runs (separator : α) : List α → List (List α) → Prop
  | nil {text : List α} : (∀ element ∈ text, element = separator) → Runs separator text []
  | last {seps run : List α} : (∀ element ∈ seps, element = separator) → run ≠ [] →
      separator ∉ run → Runs separator (seps ++ run) [run]
  | cons {seps run rest : List α} {runs : List (List α)} :
      (∀ element ∈ seps, element = separator) → run ≠ [] → separator ∉ run →
      Runs separator rest runs → Runs separator (seps ++ (run ++ separator :: rest)) (run :: runs)

variable [DecidableEq α] {separator : α}

/-- Separators before a text are in no token. -/
theorem tokens_separators {seps : List α} (areSeps : ∀ element ∈ seps, element = separator)
    (rest : List α) : tokens separator (seps ++ rest) = tokens separator rest := by
  induction seps with
  | nil => rfl
  | cons head seps ih =>
      rw [List.forall_mem_cons] at areSeps
      have skipped : tokens separator (separator :: (seps ++ rest)) =
          tokens separator (seps ++ rest) := by simp [tokens, pieces]
      rw [areSeps.1, List.cons_append, skipped, ih areSeps.2]

theorem tokens_eq_nil {text : List α} (areSeps : ∀ element ∈ text, element = separator) :
    tokens separator text = [] := by
  rw [← List.append_nil text, tokens_separators areSeps]
  rfl

/-- The tokens are the runs. -/
theorem Runs.tokens_eq {text : List α} {runs : List (List α)} (isRuns : Runs separator text runs) :
    tokens separator text = runs := by
  induction isRuns with
  | nil areSeps => exact tokens_eq_nil areSeps
  | last areSeps nonempty absent =>
      rw [tokens_separators areSeps, tokens_of_not_mem absent nonempty]
  | cons areSeps nonempty absent _ ih =>
      rw [tokens_separators areSeps, tokens_append absent nonempty, ih]

/-! ## Indices -/

/-- A text is cut at the index of the first separator. -/
theorem cut_eq_findIdx? (separator : α) (text : List α) :
    cut separator text = (text.findIdx? (· = separator)).map fun index =>
      (text.take index, text.drop (index + 1)) := by
  cases found : text.findIdx? (· = separator) with
  | none =>
      rw [List.findIdx?_eq_none_iff] at found
      apply cut_eq_none
      intro mem
      exact of_decide_eq_false (found separator mem) rfl
  | some index =>
      obtain ⟨inside, isSep, before⟩ := List.findIdx?_eq_some_iff_getElem.mp found
      apply cut_eq_some_iff.mpr
      constructor
      · rw [← of_decide_eq_true isSep, List.getElem_cons_drop, List.take_append_drop]
      · intro mem
        obtain ⟨other, isOther, same⟩ := List.mem_take_iff_getElem.mp mem
        exact before other (by omega) (decide_eq_true same)

/-- What is left behind leading separators begins at the index of the first other element. -/
theorem dropWhile_eq_findIdx? (separator : α) (text : List α) :
    text.dropWhile (· = separator) =
      ((text.findIdx? (· ≠ separator)).map fun index => text.drop index).getD [] := by
  induction text with
  | nil => rfl
  | cons head text ih =>
      by_cases same : head = separator
      · rw [List.dropWhile_cons, List.findIdx?_cons, if_pos (decide_eq_true same), ih]
        simp [same, Function.comp_def]
      · rw [List.dropWhile_cons, List.findIdx?_cons]
        simp [same]

end Library.Split
