import Anope.Channel.Core

/-!
# The mode stacker

`StackerInfo` keeps the changes to one object that have not been sent: a list of
modes to add and a list of modes to delete.  A new change first removes itself
from its own list; when the opposite change is pending it only cancels that
one.  `BuildModeMap` sorts what is left by mode, additions before deletions.
-/

namespace Anope.Mode

open Library

/-- A pending change: a mode and its data. -/
abbrev Pending (μ : Type) := μ × ModeData

/-- `StackerInfo`. -/
structure StackerInfo (μ : Type) where
  addModes : List (Pending μ)
  delModes : List (Pending μ)

/-- `ModeManager::Change`: a multimap from modes to a direction and data. -/
abbrev Change (μ : Type) [LinearOrder μ] := Multimap μ (Bool × ModeData)

section

variable {μ : Type} [DecidableEq μ]

/-- The test of `AddMode` on an entry of a list: the mode must be the same and,
unless it is a parameter mode, so must the text. -/
def sameChange (manager : ModeManager μ) (mode : μ) (value : Str) (entry : Pending μ) : Bool :=
  entry.1 = mode ∧ ((manager.mode mode).type = .param ∨ value = entry.2.value)

namespace StackerInfo

/-- A stacker with nothing pending. -/
def empty : StackerInfo μ where
  addModes := []
  delModes := []

/-- `StackerInfo::AddMode`. -/
def addMode (manager : ModeManager μ) (info : StackerInfo μ) (mode : μ) (set : Bool)
    (data : ModeData) : StackerInfo μ :=
  let same := sameChange manager mode data.value
  let list := if set then info.addModes else info.delModes
  let otherlist := if set then info.delModes else info.addModes
  let (list, otherlist) :=
    if otherlist.any same then (list.eraseP same, otherlist.eraseP same)
    else (list.eraseP same ++ [(mode, data)], otherlist)
  if set then ⟨list, otherlist⟩ else ⟨otherlist, list⟩

/-- The pending changes in one direction. -/
def pending (info : StackerInfo μ) (set : Bool) : List (Pending μ) :=
  if set then info.addModes else info.delModes

/-- No list holds one change twice. -/
def Distinct (manager : ModeManager μ) (info : StackerInfo μ) : Prop :=
  ∀ set, (info.pending set).Pairwise fun entry entry' =>
    sameChange manager entry'.1 entry'.2.value entry = false

end StackerInfo

end

/-- `BuildModeMap`. -/
def buildModeMap {μ : Type} [LinearOrder μ] (info : StackerInfo μ) : Change μ :=
  let change := info.addModes.foldl (fun change entry => change.emplace entry.1 (true, entry.2))
    (Multimap.empty : Change μ)
  info.delModes.foldl (fun change entry => change.emplace entry.1 (false, entry.2)) change

/-! ## What a change does to the lists -/

section Lists

variable {μ : Type} [DecidableEq μ] {manager : ModeManager μ}

theorem sameChange_iff {mode : μ} {value : Str} {entry : Pending μ} :
    sameChange manager mode value entry = true ↔
      entry.1 = mode ∧ ((manager.mode mode).type = .param ∨ value = entry.2.value) := by
  simp [sameChange]

theorem sameChange_trans {mode : μ} {value : Str} {entry entry' : Pending μ}
    (same : sameChange manager mode value entry = true)
    (same' : sameChange manager mode value entry' = true) :
    sameChange manager entry'.1 entry'.2.value entry = true := by
  rw [sameChange_iff] at *
  obtain ⟨rfl, text⟩ := same
  obtain ⟨sameMode, text'⟩ := same'
  rw [sameMode]
  refine ⟨rfl, ?_⟩
  rcases text with isParam | text
  · exact .inl isParam
  · rcases text' with isParam | text'
    · exact .inl isParam
    · exact .inr (text'.symm.trans text)

/-- In a list without repetitions, erasing the first matching change erases all
of them. -/
theorem eraseP_sameChange {list : List (Pending μ)}
    (distinct : list.Pairwise fun entry entry' =>
      sameChange manager entry'.1 entry'.2.value entry = false) (mode : μ) (value : Str) :
    list.eraseP (sameChange manager mode value) =
      list.filter fun entry => !sameChange manager mode value entry := by
  refine Library.eraseP_eq_filter (distinct.imp fun {entry entry'} differ same => ?_)
  by_contra same'
  rw [Bool.not_eq_false] at same'
  exact Bool.false_ne_true (differ.symm.trans (sameChange_trans same same'))

namespace StackerInfo

variable {info : StackerInfo μ}

/-- The list of the direction of a change after it. -/
theorem pending_addMode_same (distinct : info.Distinct manager) (mode : μ) (set : Bool)
    (data : ModeData) :
    (info.addMode manager mode set data).pending set =
      (info.pending set).filter (fun entry => !sameChange manager mode data.value entry) ++
        if (info.pending !set).any (sameChange manager mode data.value) then []
        else [(mode, data)] := by
  have erased := eraseP_sameChange (distinct set) mode data.value
  cases set with
  | true =>
      simp only [pending, if_true, Bool.not_true, Bool.false_eq_true, if_false] at erased ⊢
      simp only [addMode, if_true, erased]
      split <;> simp
  | false =>
      simp only [pending, if_true, Bool.not_false, Bool.false_eq_true, if_false] at erased ⊢
      simp only [addMode, Bool.false_eq_true, if_false, erased]
      split <;> simp

/-- The list of the opposite direction after a change. -/
theorem pending_addMode_other (distinct : info.Distinct manager) (mode : μ) (set : Bool)
    (data : ModeData) :
    (info.addMode manager mode set data).pending (!set) =
      (info.pending !set).filter fun entry => !sameChange manager mode data.value entry := by
  have erased := eraseP_sameChange (distinct !set) mode data.value
  have unchanged : ∀ list : List (Pending μ), ¬list.any (sameChange manager mode data.value) = true →
      list.filter (fun entry => !sameChange manager mode data.value entry) = list := by
    intro list none
    rw [List.filter_eq_self]
    intro entry mem
    by_contra same
    rw [Bool.not_eq_true, Bool.not_eq_false'] at same
    exact none (List.any_eq_true.mpr ⟨entry, mem, same⟩)
  cases set with
  | true =>
      simp only [pending, Bool.not_true, Bool.false_eq_true, if_false] at erased ⊢
      simp only [addMode, if_true, erased]
      split
      · rfl
      · rename_i none
        exact (unchanged _ none).symm
  | false =>
      simp only [pending, if_true, Bool.not_false] at erased ⊢
      simp only [addMode, Bool.false_eq_true, if_false, erased]
      split
      · rfl
      · rename_i none
        exact (unchanged _ none).symm

theorem distinct_empty : (empty : StackerInfo μ).Distinct manager := by
  intro set
  cases set <;> exact .nil

/-- A change never occurs twice in a list. -/
theorem distinct_addMode (distinct : info.Distinct manager) (mode : μ) (set : Bool)
    (data : ModeData) : (info.addMode manager mode set data).Distinct manager := by
  intro direction
  by_cases sameDirection : direction = set
  · subst sameDirection
    rw [pending_addMode_same distinct, List.pairwise_append]
    refine ⟨(distinct direction).filter _, ?_, ?_⟩
    · split
      · exact .nil
      · exact List.pairwise_singleton _ _
    · intro entry kept added addedMem
      split at addedMem
      · contradiction
      · rw [List.mem_singleton] at addedMem
        subst addedMem
        simpa using (List.mem_filter.mp kept).2
  · obtain rfl : direction = !set := by
      cases direction <;> cases set <;> simp_all
    rw [pending_addMode_other distinct]
    exact (distinct _).filter _

end StackerInfo

end Lists

/-! ## The order of the changes sent -/

section Order

variable {μ : Type} [LinearOrder μ]

theorem equalRange_foldl_emplace (change : Change μ) (set : Bool) (list : List (Pending μ))
    (mode : μ) :
    (list.foldl (fun change entry => change.emplace entry.1 (set, entry.2)) change).equalRange
        mode =
      change.equalRange mode ++
        (list.filter fun entry => entry.1 = mode).map fun entry => (set, entry.2) := by
  induction list generalizing change with
  | nil => simp
  | cons entry list ih =>
      rw [List.foldl_cons, ih]
      by_cases sameMode : entry.1 = mode
      · subst sameMode
        simp
      · rw [Multimap.equalRange_emplace_of_ne _ _ sameMode,
          List.filter_cons_of_neg (by simpa using sameMode)]

/-- The changes of one mode are sent additions first, each direction in the
order of its list. -/
theorem equalRange_buildModeMap (info : StackerInfo μ) (mode : μ) :
    (buildModeMap info).equalRange mode =
      ((info.pending true).filter fun entry => entry.1 = mode).map (fun entry => (true, entry.2)) ++
        ((info.pending false).filter fun entry => entry.1 = mode).map
          fun entry => (false, entry.2) := by
  rw [buildModeMap, equalRange_foldl_emplace, equalRange_foldl_emplace]
  rfl

end Order

end Anope.Mode
