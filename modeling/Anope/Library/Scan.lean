import Mathlib.Tactic.Common

/-!
# Scanning a buffer

Readers that take a position and give a value and the next position.  Reading
stops when the reader throws, and it is undefined when the reader looks outside
the buffer.
-/

namespace Library.Scan

universe u v

/-- Why there is no result. -/
inductive Fault where
  | thrown (reason : String)
  | outOfBounds
  deriving DecidableEq, Repr

/-- The result of reading. -/
abbrev Result (α : Type u) := Except Fault α

/-- No position outside the buffer was read. -/
def InBounds {α : Type u} (result : Result α) : Prop :=
  result ≠ .error .outOfBounds

section Result

variable {α β : Type u}

@[simp]
theorem inBounds_ok (value : α) : InBounds (.ok value : Result α) :=
  fun equal => by cases equal

@[simp]
theorem inBounds_thrown (reason : String) : InBounds (.error (.thrown reason) : Result α) :=
  fun equal => by cases equal

@[simp]
theorem not_inBounds : ¬InBounds (.error .outOfBounds : Result α) :=
  fun inBounds => inBounds rfl

theorem bind_eq_ok_iff {result : Result α} {next : α → Result β} {value : β} :
    result >>= next = .ok value ↔ ∃ middle, result = .ok middle ∧ next middle = .ok value := by
  cases result with
  | error fault => exact ⟨fun equal => (by cases equal), fun ⟨_, equal, _⟩ => (by cases equal)⟩
  | ok middle =>
      constructor
      · exact fun equal => ⟨middle, rfl, equal⟩
      · rintro ⟨_, ⟨rfl⟩, equal⟩
        exact equal

theorem inBounds_bind_iff {result : Result α} {next : α → Result β} :
    InBounds (result >>= next) ↔
      InBounds result ∧ ∀ middle, result = .ok middle → InBounds (next middle) := by
  cases result with
  | error fault =>
      constructor
      · exact fun inBounds => ⟨fun equal => inBounds (by cases equal; rfl),
          fun _ equal => by cases equal⟩
      · exact fun inBounds equal => inBounds.1 (by cases equal; rfl)
  | ok middle =>
      constructor
      · exact fun inBounds => ⟨inBounds_ok _, fun _ equal => (by cases equal; exact inBounds)⟩
      · exact fun inBounds => inBounds.2 middle rfl

end Result

/-- Throw unless a condition holds. -/
def require (condition : Prop) [Decidable condition] (reason : String) : Result Unit :=
  if condition then .ok () else .error (.thrown reason)

section Require

variable {condition : Prop} [Decidable condition] {reason : String}

@[simp]
theorem require_eq_ok_iff {value : Unit} : require condition reason = .ok value ↔ condition := by
  by_cases holds : condition <;> simp [require, holds]

@[simp]
theorem inBounds_require : InBounds (require condition reason) := by
  by_cases holds : condition <;> simp [require, holds]

end Require

/-- The elements from a position on, each of which is read. -/
def readAt {α : Type u} (buffer : List α) (pos count : Nat) : Result (List α) :=
  if count = 0 ∨ pos + count ≤ buffer.length then .ok ((buffer.drop pos).take count)
  else .error .outOfBounds

section ReadAt

variable {α : Type u} {buffer : List α} {pos count : Nat}

theorem readAt_eq_ok (bound : pos + count ≤ buffer.length) :
    readAt buffer pos count = .ok ((buffer.drop pos).take count) :=
  if_pos (.inr bound)

theorem readAt_eq_ok_iff (bound : pos + count ≤ buffer.length) {elements : List α} :
    readAt buffer pos count = .ok elements ↔ elements = (buffer.drop pos).take count := by
  rw [readAt_eq_ok bound, Except.ok.injEq, eq_comm]

theorem inBounds_readAt (bound : pos + count ≤ buffer.length) :
    InBounds (readAt buffer pos count) := by
  rw [readAt_eq_ok bound]
  exact inBounds_ok _

theorem inBounds_readAt_one_iff : InBounds (readAt buffer pos 1) ↔ pos < buffer.length := by
  by_cases bound : pos + 1 ≤ buffer.length
  · exact iff_of_true (inBounds_readAt bound) bound
  · refine iff_of_false ?_ bound
    rw [readAt, if_neg (by simpa using bound)]
    exact not_inBounds

end ReadAt

/-! ## Writing -/

/-- Elements are written one behind the other, when each can be as long as the
output stays within a limit. -/
theorem foldlM_write {α : Type u} {β : Type v} {write : List β → α → Result (List β)}
    {encode : α → List β} {limit : Nat} {elements : List α}
    (writes : ∀ element ∈ elements, ∀ output : List β,
      output.length + (encode element).length ≤ limit →
        write output element = .ok (output ++ encode element)) {output : List β}
    (fits : output.length + (elements.flatMap encode).length ≤ limit) :
    elements.foldlM write output = .ok (output ++ elements.flatMap encode) := by
  induction elements generalizing output with
  | nil => simp [pure, Except.pure]
  | cons element elements ih =>
      obtain ⟨first, rest⟩ := List.forall_mem_cons.mp writes
      rw [List.flatMap_cons, List.length_append] at fits
      rw [List.foldlM_cons, first output (by omega), List.flatMap_cons, ← List.append_assoc]
      refine ih rest ?_
      rw [List.length_append]
      omega

/-! ## Several elements -/

variable {α : Type u}

/-- Read a number of elements, one behind the other. -/
def many (read : Nat → Result (α × Nat)) : Nat → Nat → Result (List α × Nat)
  | 0, pos => .ok ([], pos)
  | count + 1, pos => do
      let (first, pos) ← read pos
      let (rest, pos) ← many read count pos
      return (first :: rest, pos)

/-- Read a number of elements inside a `try`: what was read before an exception
is kept, and there is no next position after one. -/
def manyCaught (read : Nat → Result (α × Nat)) : Nat → Nat → Result (List α × Option Nat)
  | 0, pos => .ok ([], some pos)
  | count + 1, pos =>
      match read pos with
      | .error (.thrown _) => .ok ([], none)
      | .error .outOfBounds => .error .outOfBounds
      | .ok (first, pos) => do
          let (rest, pos) ← manyCaught read count pos
          return (first :: rest, pos)

/-- Elements that stand one behind the other, with the place of each given by a
relation. -/
inductive Chain (at_ : Nat → α → Nat → Prop) : Nat → List α → Nat → Prop
  | nil (pos : Nat) : Chain at_ pos [] pos
  | cons {pos middle next : Nat} {first : α} {rest : List α} (head : at_ pos first middle)
      (tail : Chain at_ middle rest next) : Chain at_ pos (first :: rest) next

theorem chain_append_iff {at_ : Nat → α → Nat → Prop} {pos next : Nat} {front back : List α} :
    Chain at_ pos (front ++ back) next ↔
      ∃ middle, Chain at_ pos front middle ∧ Chain at_ middle back next := by
  induction front generalizing pos with
  | nil =>
      constructor
      · exact fun chain => ⟨pos, .nil pos, chain⟩
      · rintro ⟨middle, empty, chain⟩
        cases empty
        exact chain
  | cons first front ih =>
      constructor
      · intro chain
        cases chain with
        | cons head tail =>
            obtain ⟨middle, chain, rest⟩ := ih.mp tail
            exact ⟨middle, .cons head chain, rest⟩
      · rintro ⟨middle, chain, rest⟩
        cases chain with
        | cons head tail => exact .cons head (ih.mpr ⟨middle, tail, rest⟩)

/-- Elements whose encodings stand one behind the other are a chain, when each is
found where its encoding stands; `view` is what is read of an element. -/
theorem chain_flatMap {β : Type v} {encode : α → List β} {view : α → α}
    {at_ : List β → Nat → α → Nat → Prop} {elements : List α}
    (placed : ∀ element ∈ elements, ∀ before after,
      at_ (before ++ (encode element ++ after)) before.length (view element)
        (before.length + (encode element).length)) (before after : List β) :
    Chain (at_ (before ++ (elements.flatMap encode ++ after))) before.length (elements.map view)
      (before.length + (elements.flatMap encode).length) := by
  induction elements generalizing before with
  | nil => exact .nil _
  | cons element elements ih =>
      obtain ⟨head, rest⟩ := List.forall_mem_cons.mp placed
      have tail := ih rest (before ++ encode element)
      rw [List.flatMap_cons, List.map_cons]
      simp only [List.append_assoc, List.length_append, Nat.add_assoc] at tail ⊢
      exact .cons (head before _) tail

/-- What holds wherever a chain of two parts comes to holds wherever the first part
comes to, and wherever the second part comes to behind it. -/
theorem forall_chain_add_iff {at_ : Nat → α → Nat → Prop} {holds : Nat → Prop}
    {pos count more : Nat} :
    (∀ elements middle, elements.length < count + more → Chain at_ pos elements middle →
        holds middle) ↔
      (∀ elements middle, elements.length < count → Chain at_ pos elements middle →
        holds middle) ∧
      ∀ elements middle, elements.length = count → Chain at_ pos elements middle →
        ∀ elements' middle', elements'.length < more → Chain at_ middle elements' middle' →
          holds middle' := by
  constructor
  · intro each
    refine ⟨fun elements middle shorter => each elements middle (by omega), ?_⟩
    intro elements middle length chain elements' middle' shorter chain'
    refine each (elements ++ elements') middle' ?_ (chain_append_iff.mpr ⟨middle, chain, chain'⟩)
    rw [List.length_append]
    omega
  · rintro ⟨first, second⟩ elements middle shorter chain
    by_cases short : elements.length < count
    · exact first elements middle short chain
    · rw [← List.take_append_drop count elements, chain_append_iff] at chain
      obtain ⟨between, front, back⟩ := chain
      refine second _ between ?_ front _ middle ?_ back
      · rw [List.length_take]
        omega
      · rw [List.length_drop]
        omega

section Chain

variable {read : Nat → Result (α × Nat)} {at_ : Nat → α → Nat → Prop}
  (exact_ : ∀ {pos element next}, read pos = .ok (element, next) ↔ at_ pos element next)

include exact_ in
theorem many_eq_ok_iff {count pos next : Nat} {elements : List α} :
    many read count pos = .ok (elements, next) ↔
      elements.length = count ∧ Chain at_ pos elements next := by
  induction count generalizing pos elements with
  | zero =>
      constructor
      · rintro ⟨⟩
        exact ⟨rfl, .nil _⟩
      · rintro ⟨none, chain⟩
        cases chain with
        | nil => rfl
        | cons => contradiction
  | succ count ih =>
      rw [many, bind_eq_ok_iff]
      constructor
      · rintro ⟨⟨first, middle⟩, head, tail⟩
        obtain ⟨⟨rest, last⟩, tail, equal⟩ := bind_eq_ok_iff.mp tail
        cases equal
        obtain ⟨length, chain⟩ := ih.mp tail
        exact ⟨congrArg (· + 1) length, .cons (exact_.mp head) chain⟩
      · rintro ⟨length, chain⟩
        cases chain with
        | nil => contradiction
        | cons head tail =>
            refine ⟨_, exact_.mpr head, bind_eq_ok_iff.mpr ⟨_, ih.mpr ⟨?_, tail⟩, rfl⟩⟩
            exact Nat.succ.inj length

include exact_ in
/-- Several elements are read in bounds exactly when each is whose predecessors
could be read. -/
theorem inBounds_many_iff {count pos : Nat} :
    InBounds (many read count pos) ↔
      ∀ elements middle, elements.length < count → Chain at_ pos elements middle →
        InBounds (read middle) := by
  induction count generalizing pos with
  | zero => simp [many]
  | succ count ih =>
      rw [many, inBounds_bind_iff]
      constructor
      · rintro ⟨inBounds, rest⟩ elements middle shorter chain
        cases chain with
        | nil => exact inBounds
        | cons head tail =>
            obtain ⟨inBounds, _⟩ := inBounds_bind_iff.mp (rest _ (exact_.mpr head))
            exact ih.mp inBounds _ _ (Nat.lt_of_succ_lt_succ shorter) tail
      · intro each
        refine ⟨each [] pos (Nat.zero_lt_succ _) (.nil pos), ?_⟩
        rintro ⟨first, middle⟩ head
        refine inBounds_bind_iff.mpr ⟨ih.mpr fun elements next shorter chain => ?_, ?_⟩
        · exact each (first :: elements) next (Nat.succ_lt_succ shorter)
            (.cons (exact_.mp head) chain)
        · exact fun _ _ => inBounds_ok _

include exact_ in
theorem manyCaught_eq_ok_some_iff {count pos next : Nat} {elements : List α} :
    manyCaught read count pos = .ok (elements, some next) ↔
      elements.length = count ∧ Chain at_ pos elements next := by
  induction count generalizing pos elements with
  | zero =>
      constructor
      · rintro ⟨⟩
        exact ⟨rfl, .nil _⟩
      · rintro ⟨none, chain⟩
        cases chain with
        | nil => rfl
        | cons => contradiction
  | succ count ih =>
      rw [manyCaught]
      constructor
      · intro caught
        cases head : read pos with
        | error fault =>
            rw [head] at caught
            cases fault <;> cases caught
        | ok value =>
            rw [head] at caught
            obtain ⟨⟨rest, last⟩, tail, equal⟩ := bind_eq_ok_iff.mp caught
            cases equal
            obtain ⟨length, chain⟩ := ih.mp tail
            exact ⟨congrArg (· + 1) length, .cons (exact_.mp head) chain⟩
      · rintro ⟨length, chain⟩
        cases chain with
        | nil => contradiction
        | cons head tail =>
            rw [exact_.mpr head]
            exact bind_eq_ok_iff.mpr ⟨_, ih.mpr ⟨Nat.succ.inj length, tail⟩, rfl⟩

include exact_ in
theorem inBounds_manyCaught_iff {count pos : Nat} :
    InBounds (manyCaught read count pos) ↔
      ∀ elements middle, elements.length < count → Chain at_ pos elements middle →
        InBounds (read middle) := by
  induction count generalizing pos with
  | zero => simp [manyCaught]
  | succ count ih =>
      rw [manyCaught]
      constructor
      · intro caught elements middle shorter chain
        cases chain with
        | nil =>
            intro undefined
            rw [undefined] at caught
            exact not_inBounds caught
        | cons head tail =>
            rw [exact_.mpr head] at caught
            exact ih.mp (inBounds_bind_iff.mp caught).1 _ _ (Nat.lt_of_succ_lt_succ shorter) tail
      · intro each
        have inBounds := each [] pos (Nat.zero_lt_succ _) (.nil pos)
        cases head : read pos with
        | error fault =>
            cases fault with
            | thrown reason => exact inBounds_ok _
            | outOfBounds => exact absurd head inBounds
        | ok value =>
            refine inBounds_bind_iff.mpr ⟨ih.mpr fun elements next shorter chain => ?_, ?_⟩
            · exact each (value.1 :: elements) next (Nat.succ_lt_succ shorter)
                (.cons (exact_.mp head) chain)
            · exact fun _ _ => inBounds_ok _

end Chain

end Library.Scan
