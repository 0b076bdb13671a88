import Anope.Channel.Core

/-!
# Rejected mode changes

`SetModeInternal` with the places it returns from.  It checks the parameter of a status
mode and the masks of a list before it changes anything, and the parameter of the other
modes after it has put the mode in the store.
-/

namespace Anope.Channel

open Library Anope.Text Anope.Mode

variable {μ υ : Type} [DecidableEq μ] [DecidableEq υ]

/-- How `SetModeInternal` returns. -/
inductive SetReturn where
  /-- There is no mode. -/
  | noMode
  /-- A status mode without a parameter. -/
  | noParameter
  /-- A status mode for a user that does not exist. -/
  | unknownUser
  /-- A mask that is on the list. -/
  | onList
  /-- A mode other than a regular one without a parameter. -/
  | emptyValue
  /-- At the end, with the events that follow a change. -/
  | set
  deriving DecidableEq, Repr

section Returning

variable (casemap : Casemap) (manager : ModeManager μ) (context : Context υ) (setter : Str)
  (channel : Channel μ υ)

/-- `Channel::SetModeInternal` with the place it returns from. -/
def setModeReturning (ocm : Option μ) (data : ModeData) : Channel μ υ × SetReturn :=
  match ocm with
  | none => (channel, .noMode)
  | some ocm =>
      let (cm, value) := manager.unwrap ocm data.value
      let mdata := { data.complete setter context.curTime with value := value }
      let name := (manager.mode cm).name
      if (manager.mode cm).type = .status then
        if value = [] then (channel, .noParameter)
        else
          match context.findUser value with
          | none => (channel, .unknownUser)
          | some u => (updateStatus channel u (insert cm), .set)
      else if (manager.mode cm).type = .list ∧ hasMode casemap channel.modes name value ≠ 0 then
        (channel, .onList)
      else
        let erased := if (manager.mode cm).type ≠ .list then channel.modes.eraseKey name
          else channel.modes
        let stored := { channel with modes := erased.emplace name mdata }
        if value = [] ∧ (manager.mode cm).type ≠ .regular then (stored, .emptyValue)
        else (stored, .set)

/-- The change is rejected: `SetModeInternal` returns before its end. -/
def Rejects (ocm : Option μ) (data : ModeData) : Prop :=
  (setModeReturning casemap manager context setter channel ocm data).2 ≠ .set

/-- What is stored before the parameter is found to be missing: a mask on an empty list, or a
value of a parameter mode in the place of what is stored. -/
def StoresEmpty (ocm : Option μ) (data : ModeData) : Prop :=
  ∃ raw cm, ocm = some raw ∧ manager.unwrap raw data.value = (cm, []) ∧
    ((manager.mode cm).type = .list ∧ channel.modes.equalRange (manager.mode cm).name = [] ∨
      (manager.mode cm).type = .param ∧
        channel.modes.equalRange (manager.mode cm).name ≠
          [{ data.complete setter context.curTime with value := [] }])

end Returning

variable {casemap : Casemap} {manager : ModeManager μ} {context : Context υ} {setter : Str}
  {channel : Channel μ υ} {ocm cm : μ} {data : ModeData} {value : Str}

/-- The channel is the one that `setModeInternal` gives. -/
theorem setModeReturning_fst :
    (setModeReturning casemap manager context setter channel (some ocm) data).1 =
      setModeInternal casemap manager context setter channel ocm data := by
  rw [setModeReturning, setModeInternal]
  dsimp only
  cases type : (manager.mode (manager.unwrap ocm data.value).1).type with
  | status =>
      rw [if_pos rfl]
      split
      · rfl
      · cases context.findUser (manager.unwrap ocm data.value).2 <;> rfl
  | list =>
      rw [if_neg (by decide)]
      by_cases found : hasMode casemap channel.modes
          (manager.mode (manager.unwrap ocm data.value).1).name
          (manager.unwrap ocm data.value).2 = 0
      · simp only [found, ne_eq, not_true_eq_false, and_false, if_false]
        split <;> rfl
      · simp only [found, ne_eq, not_false_eq_true, and_true, if_true]
  | regular | param =>
      simp only [reduceCtorEq, if_false, false_and, ne_eq, not_false_eq_true, if_true]
      split <;> rfl

/-- A status mode is rejected before anything has changed. -/
theorem setModeReturning_of_status (unwrapped : manager.unwrap ocm data.value = (cm, value))
    (isStatus : (manager.mode cm).type = .status)
    (rejects : Rejects casemap manager context setter channel (some ocm) data) :
    (setModeReturning casemap manager context setter channel (some ocm) data).1 = channel := by
  revert rejects
  rw [Rejects, setModeReturning]
  simp only [unwrapped, isStatus, if_true]
  split
  · exact fun _ => rfl
  · cases context.findUser value with
    | none => exact fun _ => rfl
    | some u => exact fun rejects => absurd rfl rejects

/-- A mask is rejected when it is on the list, or when it is empty. -/
theorem setModeReturning_of_list (unwrapped : manager.unwrap ocm data.value = (cm, value))
    (isList : (manager.mode cm).type = .list) :
    setModeReturning casemap manager context setter channel (some ocm) data =
      if hasMode casemap channel.modes (manager.mode cm).name value ≠ 0 then (channel, .onList)
      else
        ({ channel with
            modes := channel.modes.emplace (manager.mode cm).name
              { data.complete setter context.curTime with value := value } },
          if value = [] then .emptyValue else .set) := by
  rw [setModeReturning]
  simp only [unwrapped, isList, reduceCtorEq, if_false, true_and, ne_eq, not_true_eq_false,
    not_false_eq_true, and_true]
  by_cases isEmpty : value = []
  · simp only [isEmpty, if_true]
  · simp only [isEmpty, if_false]

/-- A regular mode is not rejected, and a parameter mode only when its value is empty. -/
theorem setModeReturning_of_single (unwrapped : manager.unwrap ocm data.value = (cm, value))
    (notList : (manager.mode cm).type ≠ .list) (notStatus : (manager.mode cm).type ≠ .status) :
    setModeReturning casemap manager context setter channel (some ocm) data =
      ({ channel with
          modes := (channel.modes.eraseKey (manager.mode cm).name).emplace (manager.mode cm).name
            { data.complete setter context.curTime with value := value } },
        if value = [] ∧ (manager.mode cm).type = .param then .emptyValue else .set) := by
  rw [setModeReturning]
  cases type : (manager.mode cm).type with
  | list => exact absurd type notList
  | status => exact absurd type notStatus
  | regular => simp [unwrapped, type]
  | param =>
      simp only [unwrapped, type, reduceCtorEq, if_false, false_and, ne_eq, not_false_eq_true,
        if_true, and_true]
      split <;> rfl

/-- A rejected change leaves the modes and the statuses as they were, unless an empty value
was stored before it was found to be missing. -/
theorem rejects_unchanged_iff (casemap : Casemap) (manager : ModeManager μ)
    (context : Context υ) (setter : Str) (channel : Channel μ υ) (ocm : Option μ)
    (data : ModeData) :
    (Rejects casemap manager context setter channel ocm data →
      (setModeReturning casemap manager context setter channel ocm data).1.modes =
          channel.modes ∧
        (setModeReturning casemap manager context setter channel ocm data).1.users =
          channel.users) ↔
      ¬StoresEmpty manager context setter channel ocm data := by
  cases ocm with
  | none => exact iff_of_true (fun _ => ⟨rfl, rfl⟩) fun ⟨raw, cm, isRaw, _⟩ => by cases isRaw
  | some raw =>
      rcases unwrapped : manager.unwrap raw data.value with ⟨cm, value⟩
      have stores_iff : StoresEmpty manager context setter channel (some raw) data ↔ value = [] ∧
          ((manager.mode cm).type = .list ∧
              channel.modes.equalRange (manager.mode cm).name = [] ∨
            (manager.mode cm).type = .param ∧
              channel.modes.equalRange (manager.mode cm).name ≠
                [{ data.complete setter context.curTime with value := [] }]) := by
        constructor
        · rintro ⟨other, otherCm, isRaw, otherUnwrapped, stores⟩
          cases isRaw
          cases unwrapped.symm.trans otherUnwrapped
          exact ⟨rfl, stores⟩
        · rintro ⟨rfl, stores⟩
          exact ⟨raw, cm, rfl, unwrapped, stores⟩
      rw [stores_iff]
      by_cases isStatus : (manager.mode cm).type = .status
      · refine iff_of_true (fun rejects => ?_) ?_
        · rw [setModeReturning_of_status unwrapped isStatus rejects]
          exact ⟨rfl, rfl⟩
        · rw [isStatus]
          simp
      by_cases isList : (manager.mode cm).type = .list
      · rw [Rejects, setModeReturning_of_list unwrapped isList, isList]
        by_cases isEmpty : value = []
        · subst isEmpty
          have count : hasMode casemap channel.modes (manager.mode cm).name [] ≠ 0 ↔
              channel.modes.equalRange (manager.mode cm).name ≠ [] := by
            rw [hasMode, if_pos rfl, Multimap.count, ne_eq, List.length_eq_zero_iff]
          by_cases noMask : channel.modes.equalRange (manager.mode cm).name = []
          · rw [if_neg fun found => count.mp found noMask]
            simp [noMask, Multimap.emplace_ne_self]
          · rw [if_pos (count.mpr noMask)]
            simp [noMask]
        · split <;> simp [isEmpty]
      · rw [Rejects, setModeReturning_of_single unwrapped isList isStatus]
        by_cases missing : value = [] ∧ (manager.mode cm).type = .param
        · obtain ⟨rfl, isParam⟩ := missing
          simp [isParam, Multimap.emplace_eraseKey_eq_self_iff]
        · rw [if_neg missing]
          refine iff_of_true (fun rejects => absurd rfl rejects) ?_
          rintro ⟨isEmpty, isList' | isParam⟩
          · exact isList isList'.1
          · exact missing ⟨isEmpty, isParam.1⟩

/-! ## A key without a value -/

/-- A manager of the mode `KEY`. -/
def keyOnly : ModeManager Unit where
  mode _ := ⟨ascii "KEY", 107, .param, false, none⟩
  listeners _ := []
  wrapParam _ value := value
  unwrapParam _ _ _ := none
  isValid _ value := some value
  name_inj _ := rfl

/-- A channel with the key `secret`. -/
def keyed : Channel Unit Unit where
  created := 100
  modes := Multimap.empty.emplace (ascii "KEY") ⟨ascii "secret", ascii "alice", 100⟩
  users := ∅

/-- A key without a value is rejected, and the key is gone. -/
theorem rejects_keyed_changed :
    ¬∀ (channel : Channel Unit Unit) (ocm : Option Unit) (data : ModeData),
      Rejects .ascii keyOnly ⟨200, ascii "services", fun _ => none, fun _ => none⟩
          (ascii "hub") channel ocm data →
        (setModeReturning .ascii keyOnly ⟨200, ascii "services", fun _ => none, fun _ => none⟩
          (ascii "hub") channel ocm data).1.modes = channel.modes := by
  intro unchanged
  have same := unchanged keyed (some ()) ⟨[], [], 0⟩ (by unfold Rejects; decide +kernel)
  have values := congrArg (fun modes => getModeList modes (ascii "KEY")) same
  exact absurd values (by decide +kernel)

end Anope.Channel
