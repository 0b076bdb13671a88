import Anope.Library.Split
import Anope.Text.Match.Core

/-!
# X-lines and the list of a manager

`XLine` and the part of `XLineManager` that works on the manager's own list.
Before a line is added, `CanAdd` compares the request with every line from the
newest to the oldest: it may refuse the request, and it removes the lines that
the request makes redundant.  An expiry of zero means that a line is permanent.
-/

namespace Anope.Xline

open Anope.Text
open Anope.Text.Match

/-- `XLine`; times are seconds, which the commands keep from being negative. -/
structure XLine where
  mask : Str
  by_ : Str
  created : Nat
  expires : Nat
  reason : Str
  id : Str
  deriving DecidableEq, Repr

/-- What `CanAdd` replies. -/
inductive Reply where
  /-- `Reason for %s updated.` -/
  | reasonUpdated (mask : Str)
  /-- `%s already exists.` -/
  | alreadyExists (mask : Str)
  /-- `Expiry and reason updated for %s.` -/
  | expiryAndReasonUpdated (mask : Str)
  /-- `Expiry for %s updated.` -/
  | expiryUpdated (mask : Str)
  /-- `%s is already covered by %s.` -/
  | alreadyCovered (mask cover : Str)
  /-- `Removing %s because %s covers it.` -/
  | removing (mask cover : Str)
  deriving DecidableEq, Repr

/-- How an existing line stands to a request. -/
inductive Judgement where
  /-- It has the same mask. -/
  | equal
  /-- It covers the request. -/
  | covering
  /-- The request covers it. -/
  | redundant
  | unrelated
  deriving DecidableEq, Repr

/-- What is asked of `CanAdd`. -/
structure Request where
  mask : Str
  expires : Nat
  reason : Str
  deriving DecidableEq, Repr

namespace Request

/-- The conditions of the branches of `CanAdd`. -/
def judge (casemap : Casemap) (request : Request) (x : XLine) : Judgement :=
  if casemap.equalsCi x.mask request.mask then .equal
  else if globMatch casemap request.mask x.mask ∧ (x.expires = 0 ∨ request.expires ≤ x.expires) then
    .covering
  else if globMatch casemap x.mask request.mask ∧
      (request.expires = 0 ∨ x.expires ≤ request.expires) then
    .redundant
  else .unrelated

/-- The branch for a line with the same mask: the reason is replaced, and the
expiry where the line would run out first. -/
def update (request : Request) (x : XLine) : XLine × Reply :=
  if x.expires = 0 ∨ request.expires ≤ x.expires then
    if x.reason ≠ request.reason then
      ({ x with reason := request.reason }, .reasonUpdated x.mask)
    else (x, .alreadyExists request.mask)
  else
    let x := { x with expires := request.expires }
    if x.reason ≠ request.reason then
      ({ x with reason := request.reason }, .expiryAndReasonUpdated x.mask)
    else (x, .expiryUpdated x.mask)

end Request

/-- What a call of `CanAdd` returns, replies and leaves in the list. -/
structure Answer where
  allowed : Bool
  replies : List Reply
  lines : List XLine
  deriving DecidableEq, Repr

/-- The loop of `CanAdd` over the lines not yet compared, the newest first;
`later` are the compared lines that stay. -/
def canAddLoop (casemap : Casemap) (request : Request) : List XLine → List XLine → Answer
  | [], later => ⟨true, [], later⟩
  | x :: earlier, later =>
      match request.judge casemap x with
      | .equal =>
          let (x, reply) := request.update x
          ⟨false, [reply], earlier.reverse ++ x :: later⟩
      | .covering =>
          ⟨false, [.alreadyCovered request.mask x.mask], earlier.reverse ++ x :: later⟩
      | .redundant =>
          let answer := canAddLoop casemap request earlier later
          { answer with replies := .removing x.mask request.mask :: answer.replies }
      | .unrelated => canAddLoop casemap request earlier (x :: later)

/-- `XLineManager::CanAdd`. -/
def canAdd (casemap : Casemap) (request : Request) (lines : List XLine) : Answer :=
  canAddLoop casemap request lines.reverse []

/-- `CanAdd`, and `AddXLine` when it allows the request. -/
def add (casemap : Casemap) (request : Request) (creator id : Str) (now : Nat)
    (lines : List XLine) : List XLine :=
  let answer := canAdd casemap request lines
  if answer.allowed then
    answer.lines ++
      [{ mask := request.mask, by_ := creator, created := now, expires := request.expires,
         reason := request.reason, id := id }]
  else answer.lines

/-- `!x->expires || x->expires >= t`: a line is gone once its expiry lies behind. -/
def Lasts (expires t : Nat) : Prop :=
  expires = 0 ∨ t ≤ expires

/-- An expiry is no earlier than another, where zero is never. -/
def Outlasts (expires other : Nat) : Prop :=
  expires = 0 ∨ other ≠ 0 ∧ other ≤ expires

theorem Outlasts.lasts {expires other t : Nat} (outlasts : Outlasts expires other)
    (lasts : Lasts other t) : Lasts expires t := by
  rcases outlasts with permanent | ⟨temporary, le⟩
  · exact .inl permanent
  · rcases lasts with permanent | before
    · contradiction
    · exact .inr (before.trans le)

/-!
## What `CanAdd` does to a list

What `CanAdd` removes and where it stops is a matter of positions in the list:
it looks at the lines behind the last one that refuses the request, and removes
those of them that the request makes redundant.
-/

open Library.Split

section CanAdd

variable (casemap : Casemap) (request : Request)

/-- A line with the mask of the request, or one that covers it, ends the loop. -/
def Refuses (x : XLine) : Prop :=
  request.judge casemap x = .equal ∨ request.judge casemap x = .covering

/-- The line at which the loop ends: the last one that refuses the request. -/
def Decides (lines : List XLine) (x : XLine) : Prop :=
  ∃ earlier later, lines = earlier ++ x :: later ∧ Refuses casemap request x ∧
    ∀ y ∈ later, ¬Refuses casemap request y

/-- A redundant line behind the last one that refuses the request is removed. -/
def Removed (lines : List XLine) (x : XLine) : Prop :=
  ∃ earlier later, lines = earlier ++ x :: later ∧ request.judge casemap x = .redundant ∧
    ∀ y ∈ later, ¬Refuses casemap request y

/-- Every other line is kept. -/
def Kept (lines : List XLine) (x : XLine) : Prop :=
  ∃ earlier later, lines = earlier ++ x :: later ∧
    (request.judge casemap x ≠ .redundant ∨ ∃ y ∈ later, Refuses casemap request y)

/-- The lines that the loop leaves behind. -/
def stay (lines : List XLine) : List XLine :=
  lines.filter fun x => request.judge casemap x ≠ .redundant

/-- What becomes of the line that refuses the request. -/
def settle (x : XLine) : XLine :=
  if request.judge casemap x = .equal then (request.update x).1 else x

end CanAdd

section Spec

variable {casemap : Casemap} {request : Request}

theorem mem_stay_iff {lines : List XLine} {x : XLine} :
    x ∈ stay casemap request lines ↔
      x ∈ lines ∧ request.judge casemap x ≠ .redundant := by
  simp [stay]

/-- The loop runs through lines that do not refuse the request. -/
theorem canAddLoop_append {newer : List XLine} (pass : ∀ x ∈ newer, ¬Refuses casemap request x)
    (older later : List XLine) :
    (canAddLoop casemap request (newer ++ older) later).allowed =
        (canAddLoop casemap request older
          (stay casemap request newer.reverse ++ later)).allowed ∧
      (canAddLoop casemap request (newer ++ older) later).lines =
        (canAddLoop casemap request older
          (stay casemap request newer.reverse ++ later)).lines := by
  induction newer generalizing later with
  | nil => exact ⟨rfl, rfl⟩
  | cons x newer ih =>
      obtain ⟨first, rest⟩ := List.forall_mem_cons.mp pass
      rw [List.cons_append, canAddLoop]
      cases judged : request.judge casemap x with
      | equal => exact absurd (.inl judged) first
      | covering => exact absurd (.inr judged) first
      | redundant =>
          have removed : stay casemap request (x :: newer).reverse =
              stay casemap request newer.reverse := by
            simp [stay, judged]
          rw [removed]
          exact ih rest later
      | unrelated =>
          have left : stay casemap request (x :: newer).reverse ++ later =
              stay casemap request newer.reverse ++ x :: later := by
            simp [stay, judged]
          rw [left]
          exact ih rest (x :: later)

/-- Without a line that refuses it the request is allowed. -/
theorem canAdd_of_pass {lines : List XLine} (pass : ∀ x ∈ lines, ¬Refuses casemap request x) :
    (canAdd casemap request lines).allowed = true ∧
      (canAdd casemap request lines).lines = stay casemap request lines := by
  have looped := @canAddLoop_append casemap request lines.reverse
    (fun x mem => pass x (List.mem_reverse.mp mem)) [] []
  rw [List.append_nil, List.reverse_reverse, List.append_nil] at looped
  exact looped

/-- A line that refuses the request ends the loop. -/
theorem canAdd_of_decides {earlier later : List XLine} {x : XLine}
    (refuses : Refuses casemap request x) (pass : ∀ y ∈ later, ¬Refuses casemap request y) :
    (canAdd casemap request (earlier ++ x :: later)).allowed = false ∧
      (canAdd casemap request (earlier ++ x :: later)).lines =
        earlier ++ settle casemap request x :: stay casemap request later := by
  have reversed : (earlier ++ x :: later).reverse = later.reverse ++ x :: earlier.reverse := by
    simp
  obtain ⟨allowed, lines⟩ := @canAddLoop_append casemap request later.reverse
    (fun y mem => pass y (List.mem_reverse.mp mem)) (x :: earlier.reverse) []
  rw [← reversed, List.reverse_reverse, List.append_nil] at allowed lines
  rw [canAdd, allowed, lines, canAddLoop]
  rcases refuses with judged | judged
  · simp [judged, settle]
  · simp [judged, settle]

/-- Either no line refuses the request, or there is a last one that does. -/
theorem pass_or_decides (casemap : Casemap) (request : Request) (lines : List XLine) :
    (∀ x ∈ lines, ¬Refuses casemap request x) ∨ ∃ x, Decides casemap request lines x := by
  induction lines with
  | nil => exact .inl fun x mem => absurd mem List.not_mem_nil
  | cons x lines ih =>
      rcases ih with pass | ⟨y, earlier, later, rfl, refuses, pass⟩
      · by_cases refuses : Refuses casemap request x
        · exact .inr ⟨x, [], lines, rfl, refuses, pass⟩
        · exact .inl (List.forall_mem_cons.mpr ⟨refuses, pass⟩)
      · exact .inr ⟨y, x :: earlier, later, rfl, refuses, pass⟩

/-- A line is kept or removed at each place where it stands. -/
theorem kept_or_removed {lines : List XLine} {x : XLine} (mem : x ∈ lines) :
    Kept casemap request lines x ∨ Removed casemap request lines x := by
  obtain ⟨earlier, later, equal⟩ := List.append_of_mem mem
  by_cases redundant : request.judge casemap x = .redundant
  · by_cases pass : ∀ y ∈ later, ¬Refuses casemap request y
    · exact .inr ⟨earlier, later, equal, redundant, pass⟩
    · push Not at pass
      exact .inl ⟨earlier, later, equal, .inr pass⟩
  · exact .inl ⟨earlier, later, equal, .inl redundant⟩

theorem kept_iff_of_pass {lines : List XLine} (pass : ∀ x ∈ lines, ¬Refuses casemap request x)
    {x : XLine} : Kept casemap request lines x ↔ x ∈ stay casemap request lines := by
  rw [mem_stay_iff]
  constructor
  · rintro ⟨earlier, later, rfl, stays | ⟨y, mem, refuses⟩⟩
    · exact ⟨by simp, stays⟩
    · exact absurd refuses (pass y (by simp [mem]))
  · rintro ⟨mem, stays⟩
    obtain ⟨earlier, later, equal⟩ := List.append_of_mem mem
    exact ⟨earlier, later, equal, .inl stays⟩

theorem kept_iff_of_decides {earlier later : List XLine} {x : XLine}
    (refuses : Refuses casemap request x) (pass : ∀ y ∈ later, ¬Refuses casemap request y)
    {y : XLine} :
    Kept casemap request (earlier ++ x :: later) y ↔
      y ∈ earlier ∨ y = x ∨ y ∈ stay casemap request later := by
  constructor
  · rintro ⟨before, after, equal, kept⟩
    rcases append_cons_eq_cases equal with
      ⟨_, rfl, _⟩ | ⟨between, rfl, rfl⟩ | ⟨between, rfl, _⟩
    · exact .inr (.inl rfl)
    · refine .inr (.inr (mem_stay_iff.mpr ⟨by simp, ?_⟩))
      rcases kept with stays | ⟨z, mem, zRefuses⟩
      · exact stays
      · exact absurd zRefuses (pass z (by simp [mem]))
    · exact .inl (by simp)
  · rintro (mem | rfl | mem)
    · obtain ⟨before, between, rfl⟩ := List.append_of_mem mem
      exact ⟨before, between ++ x :: later, by simp, .inr ⟨x, by simp, refuses⟩⟩
    · have notRedundant : request.judge casemap y ≠ .redundant := by
        rcases refuses with judged | judged <;> simp [judged]
      exact ⟨earlier, later, rfl, .inl notRedundant⟩
    · obtain ⟨mem, stays⟩ := mem_stay_iff.mp mem
      obtain ⟨between, after, rfl⟩ := List.append_of_mem mem
      exact ⟨earlier ++ x :: between, after, by simp, .inl stays⟩

theorem decides_iff_of_decides {earlier later : List XLine} {x : XLine}
    (refuses : Refuses casemap request x) (pass : ∀ y ∈ later, ¬Refuses casemap request y)
    {y : XLine} : Decides casemap request (earlier ++ x :: later) y ↔ y = x := by
  constructor
  · rintro ⟨before, after, equal, yRefuses, afterPass⟩
    rcases append_cons_eq_cases equal with
      ⟨_, rfl, _⟩ | ⟨between, _, rfl⟩ | ⟨between, _, rfl⟩
    · rfl
    · exact absurd yRefuses (pass y (by simp))
    · exact absurd refuses (afterPass x (by simp))
  · rintro rfl
    exact ⟨earlier, later, rfl, refuses, pass⟩

/-- A temporary request is compared with the expiry of what it makes redundant,
also when that is zero. -/
theorem le_of_redundant {x : XLine} (redundant : request.judge casemap x = .redundant) :
    request.expires = 0 ∨ x.expires ≤ request.expires := by
  unfold Request.judge at redundant
  grind

theorem update_mask (x : XLine) : (request.update x).1.mask = x.mask := by
  unfold Request.update
  dsimp only
  split <;> split <;> rfl

theorem update_expires (x : XLine) :
    (request.update x).1.expires =
      if x.expires = 0 ∨ request.expires ≤ x.expires then x.expires else request.expires := by
  unfold Request.update
  dsimp only
  split <;> split <;> rfl

theorem settle_mask (x : XLine) : (settle casemap request x).mask = x.mask := by
  unfold settle
  split
  · exact update_mask x
  · rfl

/-- The line that refuses a request is extended when it has the same mask and
runs out first. -/
theorem settle_expires (x : XLine) :
    (settle casemap request x).expires =
      if request.judge casemap x = .equal ∧ x.expires ≠ 0 ∧ x.expires < request.expires then
        request.expires
      else x.expires := by
  unfold settle
  split
  · rename_i equal
    rw [update_expires]
    by_cases lasts : x.expires = 0 ∨ request.expires ≤ x.expires
    · rw [if_pos lasts, if_neg (by omega)]
    · rw [if_neg lasts, if_pos ⟨equal, by omega⟩]
  · rename_i different
    rw [if_neg fun extended => different extended.1]

end Spec

end Anope.Xline
