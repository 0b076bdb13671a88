import Anope.Channel.Change
import Anope.Channel.View
import Anope.Library.Enforce
import Anope.Mode.Lock

/-!
# Enforcing mode locks

`CSMode::OnCheckModes` goes over the mode locks of a channel and calls `SetMode` and
`RemoveMode` where a mode is not as its lock wants it.

A lock is a demand on the mode state: it looks at one place and writes one.  The places differ
for a list entry that an extended ban recognises, since `SetMode` does not unwrap the text that
it compares, and for the status of a user who is not on the channel.
-/

namespace Anope.Channel

open Library.Enforce Anope.Text Anope.Mode Anope.Mode.Lock

variable {μ υ : Type} [DecidableEq μ] [DecidableEq υ]

/-- The modes by name, and how the modes of a protocol module behave: only list modes are
virtual, a listener recognises text that is not empty once it is unwrapped, and it recognises
what it has wrapped. -/
structure Names (manager : ModeManager μ) where
  /-- `FindChannelModeByName`. -/
  findChannelModeByName : Str → Option μ
  find_iff : ∀ {name cm}, findChannelModeByName name = some cm ↔ (manager.mode cm).name = name
  perm_regular : ∀ {cm}, (manager.mode cm).name = ascii "PERM" →
    (manager.mode cm).type = .regular
  base_list : ∀ {cm base}, (manager.mode cm).base = some base →
    (manager.mode cm).type = .list ∧ (manager.mode base).base = none
  listeners_base : ∀ {cm listener}, listener ∈ manager.listeners cm →
    (manager.mode listener).base = some cm
  unwrapParam_list : ∀ {cm listener param text}, listener ∈ manager.listeners cm →
    manager.unwrapParam listener cm param = some text → (manager.mode cm).type = .list ∧ text ≠ []
  unwrap_wrap : ∀ {cm base param}, (manager.mode cm).base = some base → param ≠ [] →
    manager.unwrap (manager.wrap cm param).1 (manager.wrap cm param).2 = (cm, param)

section Code

variable (casemap : Casemap)

/-- The call that `OnCheckModes` makes for a lock of a mode. -/
def enforceCall (manager : ModeManager μ) (channel : Channel μ υ) (ml : ModeLock) (cm : μ) :
    Option (Call μ) :=
  let has := hasMode casemap channel.modes (manager.mode cm).name [] ≠ 0
  match (manager.mode cm).type with
  | .regular =>
      if ¬has ∧ ml.set then some (.set none cm ⟨[], [], 0⟩)
      else if has ∧ ¬ml.set then some (.remove none cm [])
      else none
  | .param =>
      if ml.set then
        let param := (getParam channel.modes (manager.mode cm).name).getD []
        if ¬has ∨ (param ≠ [] ∧ ml.param ≠ [] ∧ param ≠ ml.param) then
          some (.set none cm ⟨ml.param, [], 0⟩)
        else none
      else if has then some (.remove none cm [])
      else none
  | .list | .status =>
      if ml.set then some (.set none cm ⟨ml.param, [], 0⟩) else some (.remove none cm ml.param)

variable {manager : ModeManager μ} (context : Context υ) (names : Names manager)

/-- The call for a lock; a lock of an unknown mode is skipped. -/
def lockCall (channel : Channel μ υ) (ml : ModeLock) : Option (Call μ) :=
  (names.findChannelModeByName ml.name).bind (enforceCall casemap manager channel ml)

/-- The mode change that the call makes. -/
def lockChange (channel : Channel μ υ) (ml : ModeLock) : Option (ModeChange μ) :=
  (lockCall casemap names channel ml).bind (Call.change casemap manager context channel)

/-- The end of `RemoveModeInternal`: whether the channel, empty and no longer permanent, is
destroyed.  A channel that is syncing is not checked. -/
def destroys (manager : ModeManager μ) (vetoDelete : Bool) (after : Channel μ υ) :
    ModeChange μ → Bool
  | (true, _) => false
  | (false, raw, value) =>
      let removed := manager.mode (manager.unwrap raw value).1
      removed.type ≠ .status && removed.name = ascii "PERM" &&
        hasMode casemap after.modes (ascii "PERM") [] = 0 && !vetoDelete &&
        after.users.keys.isEmpty

/-- The body of the loop: what is left, with the changes made, unless the channel is destroyed. -/
def checkLock (vetoDelete : Bool) (services : Services μ υ) (ml : ModeLock) :
    Option (Services μ υ × List (ModeChange μ)) :=
  match lockCall casemap names services.channel ml with
  | none => some (services, [])
  | some call =>
      let after := call.apply casemap manager context services
      match call.change casemap manager context services.channel with
      | none => some (after, [])
      | some change =>
          if destroys casemap manager vetoDelete after.channel change then none
          else some (after, [change])

/-- `OnCheckModes`. -/
def checkModes (vetoDelete : Bool) (services : Services μ υ) :
    List ModeLock → Option (Services μ υ × List (ModeChange μ))
  | [] => some (services, [])
  | ml :: locks => do
      let (services, changes) ← checkLock casemap context names vetoDelete services ml
      let (services, more) ← checkModes vetoDelete services locks
      some (services, changes ++ more)

/-- A regular or parameter mode is as its lock wants it. -/
def Holds (channel : Channel μ υ) (ml : ModeLock) : Prop :=
  ∀ cm, names.findChannelModeByName ml.name = some cm →
    match (manager.mode cm).type with
    | .regular => hasMode casemap channel.modes (manager.mode cm).name [] ≠ 0 ↔ ml.set = true
    | .param =>
        if ml.set then getParam channel.modes (manager.mode cm).name = some ml.param
        else hasMode casemap channel.modes (manager.mode cm).name [] = 0
    | .list | .status => True

/-- One pass makes the locks hold, and a second one makes no change. -/
def ReachesFixedPoint (vetoDelete : Bool) (services : Services μ υ) (locks : List ModeLock) :
    Prop :=
  ∃ after sent,
    checkModes casemap context names vetoDelete services locks = some (after, sent) ∧
    (∀ ml ∈ locks, Holds casemap names after.channel ml) ∧
    checkModes casemap context names vetoDelete after locks = some (after, [])

/-- A parameter that the mode of a lock accepts. -/
def ValidParam (ml : ModeLock) : Prop :=
  ∀ cm, names.findChannelModeByName ml.name = some cm →
    match (manager.mode cm).type with
    | .regular => True
    | .param => ml.set = true → manager.isValid cm ml.param = some ml.param
    | .list => ml.param ≠ [] ∧
        (ml.set = true → ∃ value, manager.isValid cm ml.param = some value ∧ value ≠ [])
    | .status => ml.param ≠ []

/-! ## What a lock is about -/

/-- The place that the guards of the call look at. -/
def asks (ml : ModeLock) : Option (Slot μ υ) := do
  let cm ← names.findChannelModeByName ml.name
  match (manager.mode cm).type with
  | .regular | .param => some (.mode cm)
  | .list =>
      if ml.set then
        (manager.isValid cm ml.param).map fun value => .mask cm (casemap.ciStr value)
      else
        let (cm, param) := manager.unwrap cm ml.param
        some (.mask cm (casemap.ciStr param))
  | .status => (context.findUser ml.param).map (.status cm)

/-- The place that the change of the call is about. -/
def writes (member : υ → Bool) (ml : ModeLock) : Option (Slot μ υ) := do
  let cm ← names.findChannelModeByName ml.name
  match (manager.mode cm).type with
  | .regular | .param => some (.mode cm)
  | .list =>
      let (cm, param) ←
        if ml.set then (manager.isValid cm ml.param).map (cm, ·)
        else some (manager.unwrap cm ml.param)
      let (raw, param) := manager.wrap cm param
      slotOf casemap manager context.findUser member raw param
  | .status => slotOf casemap manager context.findUser member cm ml.param

/-- The change of a lock would not be made where its guards look. -/
def Misses (channel : Channel μ υ) (ml : ModeLock) : Prop :=
  writes casemap context names (isMember channel) ml ≠ asks casemap context names ml

/-- The place that a lock looks at is as the lock wants it. -/
def Met (channel : Channel μ υ) (ml : ModeLock) : Prop :=
  ∀ slot, asks casemap context names ml = some slot →
    (view casemap manager channel slot).isSome = ml.set

/-- The locks of lists and statuses get along. -/
structure Concordant (channel : Channel μ υ) (locks : List ModeLock) : Prop where
  /-- No two locks want one place in opposite ways. -/
  agree : ∀ ml ∈ locks, ∀ ml' ∈ locks, ∀ slot, asks casemap context names ml = some slot →
    asks casemap context names ml' = some slot → ml.set = ml'.set
  /-- What a lock cannot change itself is right already or changed by another lock. -/
  reached : ∀ ml ∈ locks, Misses casemap context names channel ml →
    Met casemap context names channel ml ∨
      ∃ ml' ∈ locks, ¬Misses casemap context names channel ml' ∧
        asks casemap context names ml' = asks casemap context names ml
  /-- What such a lock changes elsewhere suits the locks there, or one of them comes later. -/
  undisturbed : ∀ before ml after, locks = before ++ ml :: after →
    Misses casemap context names channel ml → ¬Met casemap context names channel ml →
    (∀ ml' ∈ before, ¬Misses casemap context names channel ml' →
      asks casemap context names ml' ≠ asks casemap context names ml) →
    ∀ slot, writes casemap context names (isMember channel) ml = some slot →
    ∀ ml' ∈ locks, ¬Misses casemap context names channel ml' →
      asks casemap context names ml' = some slot →
        ml'.set = ml.set ∨ ∃ later ∈ after, ¬Misses casemap context names channel later ∧
          asks casemap context names later = some slot

/-- When a pass over the locks of a channel settles them. -/
structure Settleable (vetoDelete : Bool) (channel : Channel μ υ) (locks : List ModeLock) :
    Prop where
  /-- The channel is not destroyed with its permanent mode. -/
  stays : vetoDelete = true ∨ channel.users.keys ≠ [] ∨
    ∀ ml ∈ locks, ∀ cm, names.findChannelModeByName ml.name = some cm →
      (manager.mode cm).name = ascii "PERM" → ml.set = false →
      hasMode casemap channel.modes (ascii "PERM") [] = 0
  /-- A wrong parameter and the locked one are not empty. -/
  corrects : ∀ ml ∈ locks, ∀ cm, names.findChannelModeByName ml.name = some cm →
    (manager.mode cm).type = .param → ml.set = true →
    ∀ value, getParam channel.modes (manager.mode cm).name = some value →
      value = ml.param ∨ (value ≠ [] ∧ ml.param ≠ [])
  concordant : Concordant casemap context names channel locks

end Code

/-! ## Locks as demands -/

section Demands

variable (casemap : Casemap) {manager : ModeManager μ} (context : Context υ)
  (names : Names manager)

/-- The lock is on the parameter of a mode. -/
def locksParam (ml : ModeLock) : Bool :=
  ml.set && (names.findChannelModeByName ml.name).any fun cm => (manager.mode cm).type = .param

/-- A lock as a demand on the mode state. -/
def demandOf (member : υ → Bool) (ml : ModeLock) : Demand (Slot μ υ) (Option Str) where
  place := asks casemap context names ml
  accepts found :=
    if locksParam names ml then
      found.any fun value => value = [] || ml.param = [] || value = ml.param
    else found.isSome = ml.set
  target := writes casemap context names member ml
  value := if ml.set then some (if locksParam names ml then ml.param else []) else none

variable {casemap context names} {member : υ → Bool} {ml : ModeLock}

omit [DecidableEq μ] [DecidableEq υ] in
theorem demandOf_target : (demandOf casemap context names member ml).target =
    writes casemap context names member ml :=
  rfl

omit [DecidableEq μ] [DecidableEq υ] in
/-- A lock accepts what its change writes. -/
theorem accepts_value :
    (demandOf casemap context names member ml).accepts
      (demandOf casemap context names member ml).value = true := by
  cases set : ml.set with
  | false => simp [demandOf, locksParam, set]
  | true =>
      cases isParam : locksParam names ml with
      | true => simp [demandOf, set, isParam]
      | false => simp [demandOf, set, isParam]

omit [DecidableEq μ] [DecidableEq υ] in
theorem own_iff : (demandOf casemap context names member ml).Own ↔
    writes casemap context names member ml = asks casemap context names ml :=
  ⟨Demand.Own.target, fun target => ⟨target, accepts_value⟩⟩

end Demands

/-! ## Wrapping and unwrapping -/

section Wrapping

variable {manager : ModeManager μ} (names : Names manager)

omit [DecidableEq μ] in
include names in
/-- Only text of a list is unwrapped, to text that is not empty of a mode whose base the list
is. -/
theorem unwrap_or (raw : μ) (value : Str) :
    manager.unwrap raw value = (raw, value) ∨
      (manager.mode raw).type = .list ∧ (manager.unwrap raw value).2 ≠ [] ∧
        (manager.mode (manager.unwrap raw value).1).base = some raw := by
  unfold ModeManager.unwrap
  cases found : (manager.listeners raw).findSome? fun listener =>
      (manager.unwrapParam listener raw value).map fun text => (listener, text) with
  | none => exact .inl rfl
  | some result =>
      obtain ⟨listener, mem, recognised⟩ := List.exists_of_findSome?_eq_some found
      obtain ⟨text, byListener, rfl⟩ := Option.map_eq_some_iff.mp recognised
      obtain ⟨isList, nonempty⟩ := names.unwrapParam_list mem byListener
      exact .inr ⟨isList, nonempty, names.listeners_base mem⟩

omit [DecidableEq μ] in
include names in
theorem unwrap_of_not_list {cm : μ} (notList : (manager.mode cm).type ≠ .list) (value : Str) :
    manager.unwrap cm value = (cm, value) := by
  rcases unwrap_or names cm value with same | ⟨isList, _, _⟩
  · exact same
  · exact absurd isList notList

omit [DecidableEq μ] in
include names in
theorem wrap_of_not_list {cm : μ} (notList : (manager.mode cm).type ≠ .list) (value : Str) :
    manager.wrap cm value = (cm, value) := by
  unfold ModeManager.wrap
  cases base : (manager.mode cm).base with
  | none => rfl
  | some raw => exact absurd (names.base_list base).1 notList

omit [DecidableEq μ] in
include names in
/-- The text of a list stays one that is not empty. -/
theorem unwrap_list {cm : μ} (isList : (manager.mode cm).type = .list) {value : Str}
    (nonempty : value ≠ []) :
    (manager.mode (manager.unwrap cm value).1).type = .list ∧ (manager.unwrap cm value).2 ≠ [] := by
  rcases unwrap_or names cm value with same | ⟨_, text, base⟩
  · rw [same]
    exact ⟨isList, nonempty⟩
  · exact ⟨(names.base_list base).1, text⟩

omit [DecidableEq μ] in
include names in
/-- Wrapped text is unwrapped to itself, unless it is text of a base that a listener
recognises. -/
theorem unwrap_wrap_or (cm : μ) {value : Str} (nonempty : value ≠ []) :
    manager.unwrap (manager.wrap cm value).1 (manager.wrap cm value).2 = (cm, value) ∨
      (manager.mode cm).base = none ∧ manager.wrap cm value = (cm, value) ∧
        (manager.unwrap cm value).2 ≠ [] ∧
        (manager.mode (manager.unwrap cm value).1).base = some cm := by
  cases base : (manager.mode cm).base with
  | some raw => exact .inl (names.unwrap_wrap base nonempty)
  | none =>
      have wrapped : manager.wrap cm value = (cm, value) := by
        unfold ModeManager.wrap
        rw [base]
      rw [wrapped]
      rcases unwrap_or names cm value with same | ⟨_, text, isBase⟩
      · exact .inl same
      · exact .inr ⟨rfl, rfl, text, isBase⟩

omit [DecidableEq μ] in
include names in
/-- What was unwrapped once is wrapped and unwrapped to itself. -/
theorem unwrap_wrap_unwrap (cm : μ) {value : Str} (nonempty : value ≠ []) :
    manager.unwrap
        (manager.wrap (manager.unwrap cm value).1 (manager.unwrap cm value).2).1
        (manager.wrap (manager.unwrap cm value).1 (manager.unwrap cm value).2).2 =
      manager.unwrap cm value := by
  rcases unwrap_or names cm value with same | ⟨_, text, base⟩
  · rw [same]
    rcases unwrap_wrap_or names cm nonempty with back | ⟨_, wrapped, _, _⟩
    · exact back
    · rw [wrapped, same]
  · exact names.unwrap_wrap base text

end Wrapping

/-! ## What the guards see -/

section Guards

variable {casemap : Casemap} {manager : ModeManager μ} {context : Context υ}
  {channel : Channel μ υ} {cm : μ}

/-- The place of a regular or parameter mode is set when the mode is. -/
theorem view_mode_isSome (notList : (manager.mode cm).type ≠ .list)
    (notStatus : (manager.mode cm).type ≠ .status) :
    (view casemap manager channel (.mode cm)).isSome =
      decide (hasMode casemap channel.modes (manager.mode cm).name [] ≠ 0) := by
  rw [hasMode, if_pos rfl, Library.Multimap.count, view, modeView]
  cases entries : channel.modes.equalRange (manager.mode cm).name with
  | nil => cases type : (manager.mode cm).type <;> simp_all
  | cons entry rest => cases type : (manager.mode cm).type <;> simp_all

/-- The place of a parameter mode holds its parameter. -/
theorem view_mode_of_param (isParam : (manager.mode cm).type = .param) :
    view casemap manager channel (.mode cm) =
      getParam channel.modes (manager.mode cm).name := by
  rw [view, modeView, getParam]
  simp only [isParam]

omit [DecidableEq μ] [DecidableEq υ] in
theorem hasMode_eq_zero_iff (casemap : Casemap) (modes : ModeList) (name : Str) :
    hasMode casemap modes name [] = 0 ↔ getParam modes name = none := by
  rw [hasMode, if_pos rfl, Library.Multimap.count, List.length_eq_zero_iff, getParam,
    Option.map_eq_none_iff, List.head?_eq_none_iff]

theorem view_mask_isSome (isList : (manager.mode cm).type = .list) {param : Str}
    (nonempty : param ≠ []) :
    (view casemap manager channel (.mask cm (casemap.ciStr param))).isSome =
      decide (hasMode casemap channel.modes (manager.mode cm).name param ≠ 0) := by
  rw [decide_eq_decide.mpr (hasMode_ne_zero_iff casemap channel.modes _ nonempty), view, maskView]
  by_cases found : ∃ entry ∈ channel.modes.equalRange (manager.mode cm).name,
      casemap.ciStr entry.value = casemap.ciStr param
  · rw [if_pos ⟨isList, found⟩, decide_eq_true found]
    rfl
  · rw [if_neg fun both => found both.2, decide_eq_false found]
    rfl

theorem view_status_isSome (user : υ) :
    (view casemap manager channel (.status cm user)).isSome = hasUserStatus channel user cm := by
  rw [view]
  cases hasUserStatus channel user cm <;> rfl

end Guards

/-! ## One lock -/

section Step

variable {casemap : Casemap} {manager : ModeManager μ} {context : Context υ}
  {names : Names manager} {channel : Channel μ υ} {ml : ModeLock}

/-- A change does to the mode state what a lock demands. -/
structure Carries (casemap : Casemap) (context : Context υ) (names : Names manager)
    (channel : Channel μ υ) (ml : ModeLock) (raw : μ) (value : Str) : Prop where
  slot : slotOf casemap manager context.findUser (isMember channel) raw value =
    writes casemap context names (isMember channel) ml
  content : (if ml.set then some (contentOf manager raw value) else none) =
    (demandOf casemap context names (isMember channel) ml).value
  meaningful : Meaningful manager context raw value

/-- A lock makes no change where its demand is met, and else one that carries the demand out. -/
def Answers (casemap : Casemap) (context : Context υ) (names : Names manager)
    (channel : Channel μ υ) (ml : ModeLock) : Prop :=
  match lockChange casemap context names channel ml with
  | none =>
      (demandOf casemap context names (isMember channel) ml).met (view casemap manager channel) =
        true
  | some (set, raw, value) =>
      (demandOf casemap context names (isMember channel) ml).met (view casemap manager channel) =
          false ∧
        set = ml.set ∧ Carries casemap context names channel ml raw value

omit [DecidableEq μ] [DecidableEq υ] in
theorem met_demandOf {slot : Slot μ υ} (place : asks casemap context names ml = some slot)
    {member : υ → Bool} (state : ModeState μ υ) :
    (demandOf casemap context names member ml).met state =
      (demandOf casemap context names member ml).accepts (state slot) :=
  Demand.met_of_place place

omit [DecidableEq μ] [DecidableEq υ] in
theorem accepts_of_not_param (notParam : locksParam names ml = false) {member : υ → Bool}
    (found : Option Str) :
    (demandOf casemap context names member ml).accepts found = decide (found.isSome = ml.set) := by
  simp [demandOf, notParam]

/-- A lock that looks at one place answers there. -/
theorem answers_of_place {slot : Slot μ υ} (raw : μ) (value : Str)
    (place : asks casemap context names ml = some slot) (notParam : locksParam names ml = false)
    (change : lockChange casemap context names channel ml =
      if (view casemap manager channel slot).isSome = ml.set then none
      else some (ml.set, raw, value))
    (carries : Carries casemap context names channel ml raw value) :
    Answers casemap context names channel ml := by
  rw [Answers, change, met_demandOf place, accepts_of_not_param notParam]
  by_cases met : (view casemap manager channel slot).isSome = ml.set
  · rw [if_pos met]
    exact decide_eq_true met
  · rw [if_neg met]
    exact ⟨decide_eq_false met, rfl, carries⟩

theorem answers_of_nowhere (nowhere : asks casemap context names ml = none)
    (change : lockChange casemap context names channel ml = none) :
    Answers casemap context names channel ml := by
  rw [Answers, change]
  exact Demand.met_of_place_eq_none nowhere

theorem answers_of_unknown (unknown : names.findChannelModeByName ml.name = none) :
    Answers casemap context names channel ml := by
  apply answers_of_nowhere
  · simp [asks, unknown]
  · simp [lockChange, lockCall, unknown]

section Known

variable {cm : μ} (found : names.findChannelModeByName ml.name = some cm)
include found

theorem lockChange_of_found : lockChange casemap context names channel ml =
    (enforceCall casemap manager channel ml cm).bind
      (Call.change casemap manager context channel) := by
  rw [lockChange, lockCall, found, Option.bind_some]

omit [DecidableEq μ] in
theorem locksParam_of_found :
    locksParam names ml = (ml.set && decide ((manager.mode cm).type = .param)) := by
  simp [locksParam, found]

theorem answers_of_regular (isRegular : (manager.mode cm).type = .regular) :
    Answers casemap context names channel ml := by
  have notList : (manager.mode cm).type ≠ .list := by simp [isRegular]
  have notStatus : (manager.mode cm).type ≠ .status := by simp [isRegular]
  have notParam : locksParam names ml = false := by
    simp [locksParam_of_found found, isRegular]
  have unwrapped := unwrap_of_not_list names notList []
  have wrapped := wrap_of_not_list names notList []
  have place : asks casemap context names ml = some (.mode cm) := by
    simp [asks, found, isRegular]
  apply answers_of_place cm [] place notParam
  · rw [lockChange_of_found found, view_mode_isSome notList notStatus]
    by_cases has : hasMode casemap channel.modes (manager.mode cm).name [] = 0
    · cases set : ml.set with
      | false => simp [enforceCall, isRegular, has, set]
      | true => simp [enforceCall, isRegular, has, set, Call.change, acceptSet, wrapped]
    · cases set : ml.set with
      | true => simp [enforceCall, isRegular, has, set]
      | false =>
          simp [enforceCall, isRegular, has, set, Call.change, acceptRemove, wrapped, unwrapped]
  · refine ⟨?_, ?_, ?_, ?_⟩
    · simp [slotOf, unwrapped, isRegular, writes, found]
    · simp [contentOf, unwrapped, isRegular, demandOf, notParam]
    · simp [unwrapped, isRegular]
    · simp [unwrapped, isRegular]

/-- The set of a parameter mode answers: its guards leave an empty parameter alone. -/
theorem answers_of_param_set (isParam : (manager.mode cm).type = .param) (set : ml.set = true)
    (isValid : manager.isValid cm ml.param = some ml.param) :
    Answers casemap context names channel ml := by
  have notList : (manager.mode cm).type ≠ .list := by simp [isParam]
  have locked : locksParam names ml = true := by
    simp [locksParam_of_found found, isParam, set]
  have unwrapped := unwrap_of_not_list names notList ml.param
  have wrapped := wrap_of_not_list names notList ml.param
  have place : asks casemap context names ml = some (.mode cm) := by
    simp [asks, found, isParam]
  have carries : Carries casemap context names channel ml cm ml.param := by
    refine ⟨?_, ?_, ?_, ?_⟩
    · simp [slotOf, unwrapped, isParam, writes, found]
    · simp [contentOf, unwrapped, isParam, demandOf, locked]
    · simp [unwrapped, isParam]
    · simp [unwrapped, isParam]
  have has_iff := hasMode_eq_zero_iff casemap channel.modes (manager.mode cm).name
  rw [Answers, lockChange_of_found found, met_demandOf place, view_mode_of_param isParam]
  cases param : getParam channel.modes (manager.mode cm).name with
  | none =>
      have absent := has_iff.mpr param
      simp [enforceCall, isParam, set, absent, Call.change, acceptSet, isValid, param, wrapped,
        demandOf, locked, carries]
  | some value =>
      have present : hasMode casemap channel.modes (manager.mode cm).name [] ≠ 0 := fun absent => by
        rw [has_iff, param] at absent
        contradiction
      by_cases wrong : value ≠ [] ∧ ml.param ≠ [] ∧ value ≠ ml.param
      · simp [enforceCall, isParam, set, present, Call.change, acceptSet, isValid, param, wrapped,
          demandOf, locked, carries, wrong]
      · have accepted : value = [] ∨ ml.param = [] ∨ value = ml.param := by tauto
        have noCall : enforceCall casemap manager channel ml cm = none := by
          simp only [enforceCall, isParam, set, if_true, param, Option.getD_some]
          exact if_neg (by simpa [present] using wrong)
        rw [noCall]
        simpa [demandOf, locked, or_assoc] using accepted

theorem answers_of_param_unset (isParam : (manager.mode cm).type = .param)
    (unset : ml.set = false) : Answers casemap context names channel ml := by
  have notList : (manager.mode cm).type ≠ .list := by simp [isParam]
  have notStatus : (manager.mode cm).type ≠ .status := by simp [isParam]
  have notParam : locksParam names ml = false := by
    simp [locksParam_of_found found, unset]
  have unwrapped := unwrap_of_not_list names notList
  have wrapped := wrap_of_not_list names notList
  have place : asks casemap context names ml = some (.mode cm) := by
    simp [asks, found, isParam]
  apply answers_of_place cm (if (manager.mode cm).minusNoArg then []
    else (getParam channel.modes (manager.mode cm).name).getD []) place notParam
  · rw [lockChange_of_found found, view_mode_isSome notList notStatus]
    by_cases has : hasMode casemap channel.modes (manager.mode cm).name [] = 0
    · simp [enforceCall, isParam, has, unset]
    · simp [enforceCall, isParam, has, unset, Call.change, acceptRemove, wrapped, unwrapped]
  · refine ⟨?_, ?_, ?_, ?_⟩
    · simp [slotOf, unwrapped, isParam, writes, found]
    · simp [demandOf, unset]
    · simp [unwrapped, isParam]
    · simp [unwrapped, isParam]

/-- The set of a list entry answers; its text is compared before it is unwrapped. -/
theorem answers_of_list_set (isList : (manager.mode cm).type = .list) (set : ml.set = true)
    {value : Str} (isValid : manager.isValid cm ml.param = some value) (nonempty : value ≠ []) :
    Answers casemap context names channel ml := by
  have notParam : locksParam names ml = false := by
    simp [locksParam_of_found found, isList]
  rcases wrapped : manager.wrap cm value with ⟨raw, param⟩
  have unwrapped : (manager.mode (manager.unwrap raw param).1).type = .list ∧
      (manager.unwrap raw param).2 ≠ [] := by
    have back := unwrap_wrap_or names cm nonempty
    rw [wrapped] at back
    rcases back with same | ⟨_, same, _, _⟩
    · rw [same]
      exact ⟨isList, nonempty⟩
    · rw [Prod.mk.injEq] at same
      rw [same.1, same.2]
      exact unwrap_list names isList nonempty
  have place : asks casemap context names ml = some (.mask cm (casemap.ciStr value)) := by
    simp [asks, found, isList, set, isValid]
  apply answers_of_place raw param place notParam
  · rw [lockChange_of_found found, view_mask_isSome isList nonempty]
    by_cases has : hasMode casemap channel.modes (manager.mode cm).name value = 0
    · simp [enforceCall, isList, has, set, Call.change, acceptSet, isValid, wrapped]
    · simp [enforceCall, isList, has, set, Call.change, acceptSet, isValid]
  · refine ⟨?_, ?_, ?_, ?_⟩
    · simp [writes, found, isList, set, isValid, wrapped]
    · simp [contentOf, unwrapped.1, demandOf, notParam]
    · exact fun _ => unwrapped.2
    · simp [unwrapped.1]

/-- The removal of a list entry answers; its text is unwrapped first. -/
theorem answers_of_list_unset (isList : (manager.mode cm).type = .list) (unset : ml.set = false)
    (nonempty : ml.param ≠ []) : Answers casemap context names channel ml := by
  have notParam : locksParam names ml = false := by
    simp [locksParam_of_found found, isList]
  have back := unwrap_wrap_unwrap names cm nonempty
  have text := unwrap_list names isList nonempty
  rcases unwrapped : manager.unwrap cm ml.param with ⟨internal, value⟩
  rw [unwrapped] at back text
  rcases wrapped : manager.wrap internal value with ⟨raw, param⟩
  rw [wrapped] at back
  have place : asks casemap context names ml = some (.mask internal (casemap.ciStr value)) := by
    simp [asks, found, isList, unset, unwrapped]
  apply answers_of_place raw param place notParam
  · rw [lockChange_of_found found, view_mask_isSome text.1 text.2]
    by_cases has : hasMode casemap channel.modes (manager.mode internal).name value = 0
    · simp [enforceCall, isList, has, unset, Call.change, acceptRemove, unwrapped, text.1]
    · simp [enforceCall, isList, has, unset, Call.change, acceptRemove, unwrapped, text.1, wrapped]
  · refine ⟨?_, ?_, ?_, ?_⟩
    · simp [writes, found, isList, unset, unwrapped, wrapped]
    · simp [demandOf, unset]
    · simp [back, text.2]
    · simp [back, text.1]

/-- A status of a known user answers. -/
theorem answers_of_status (isStatus : (manager.mode cm).type = .status)
    (nonempty : ml.param ≠ [])
    (bots : ∀ param user, context.findBot param = some user → context.findUser param = some user) :
    Answers casemap context names channel ml := by
  have notList : (manager.mode cm).type ≠ .list := by simp [isStatus]
  have notParam : locksParam names ml = false := by
    simp [locksParam_of_found found, isStatus]
  have unwrapped := unwrap_of_not_list names notList ml.param
  have wrapped := wrap_of_not_list names notList ml.param
  cases known : context.findUser ml.param with
  | none =>
      apply answers_of_nowhere
      · simp [asks, found, isStatus, known]
      · rw [lockChange_of_found found]
        cases set : ml.set with
        | true => simp [enforceCall, isStatus, set, Call.change, acceptSet, known]
        | false => simp [enforceCall, isStatus, set, Call.change, acceptRemove, unwrapped, known]
  | some user =>
      have place : asks casemap context names ml = some (.status cm user) := by
        simp [asks, found, isStatus, known]
      apply answers_of_place cm ml.param place notParam
      · rw [lockChange_of_found found, view_status_isSome]
        cases has : hasUserStatus channel user cm with
        | true =>
            cases set : ml.set with
            | true => simp [enforceCall, isStatus, set, Call.change, acceptSet, known, has]
            | false =>
                simp [enforceCall, isStatus, set, Call.change, acceptRemove, unwrapped, known, has,
                  wrapped]
        | false =>
            cases set : ml.set with
            | true => simp [enforceCall, isStatus, set, Call.change, acceptSet, known, has, wrapped]
            | false =>
                simp [enforceCall, isStatus, set, Call.change, acceptRemove, unwrapped, known, has]
      · refine ⟨?_, ?_, ?_, ?_⟩
        · simp [writes, found, isStatus]
        · simp [contentOf, unwrapped, isStatus, demandOf, notParam]
        · simp [unwrapped, nonempty]
        · intro _
          rw [unwrapped, known]
          cases bot : context.findBot ml.param with
          | none => rfl
          | some user' => rw [← known, bots _ _ bot, Option.some_or]

end Known

/-- Step lemma: every lock with a valid parameter answers. -/
theorem answers_of_validParam (valid : ValidParam names ml)
    (bots : ∀ param user, context.findBot param = some user → context.findUser param = some user) :
    Answers casemap context names channel ml := by
  cases found : names.findChannelModeByName ml.name with
  | none => exact answers_of_unknown found
  | some cm =>
      have valid := valid cm found
      cases type : (manager.mode cm).type with
      | regular => exact answers_of_regular found type
      | param =>
          rw [type] at valid
          cases set : ml.set with
          | true => exact answers_of_param_set found type set (valid set)
          | false => exact answers_of_param_unset found type set
      | list =>
          rw [type] at valid
          cases set : ml.set with
          | true =>
              obtain ⟨value, isValid, nonempty⟩ := valid.2 set
              exact answers_of_list_set found type set isValid nonempty
          | false => exact answers_of_list_unset found type set valid.1
      | status =>
          rw [type] at valid
          exact answers_of_status found type valid bots

end Step

end Anope.Channel
