import Anope.Library.Multimap
import Anope.Mode.Core
import Mathlib.Data.List.AList
import Mathlib.Data.Finset.Insert
import Mathlib.Data.Finset.Erase

/-!
# The mode state of a channel

A `Channel` with its creation time, its mode multimap and the status modes of
its members, and the internal mode changes `SetModeInternal` and
`RemoveModeInternal`.  Event handlers and `CheckModes` run after the state has
changed and act through the same functions, so they are further calls.
-/

namespace Anope

open Library Anope.Text Anope.Mode

/-- `ModeData`. -/
structure ModeData where
  value : Str
  setBy : Str
  setAt : Int
  deriving DecidableEq, Repr

/-- `Channel::ModeList`. -/
abbrev ModeList := Multimap Str ModeData

/-- A channel as far as its modes are concerned: `users` maps a member to the
modes of its `ChannelStatus`. -/
structure Channel (μ υ : Type) where
  created : Int
  modes : ModeList
  users : AList fun _ : υ => Finset μ

/-- What a call reads from the rest of the program: the clock, the name of this
server and the lookup of users and of bots. -/
structure Context (υ : Type) where
  curTime : Int
  me : Str
  /-- `User::Find`. -/
  findUser : Str → Option υ
  /-- `BotInfo::Find`; a bot is a user. -/
  findBot : Str → Option υ

/-- The mode data built from what a caller gives. -/
def ModeData.complete (data : ModeData) (setter : Str) (curTime : Int) : ModeData where
  value := data.value
  setBy := if data.setBy = [] then setter else data.setBy
  setAt := if data.setAt ≠ 0 then data.setAt else curTime

namespace Channel

/-- `Channel::GetModeList`. -/
def getModeList (modes : ModeList) (name : Str) : List Str :=
  (modes.equalRange name).map ModeData.value

/-- `Channel::HasMode`. -/
def hasMode (casemap : Casemap) (modes : ModeList) (name param : Str) : Nat :=
  if param = [] then modes.count name
  else if (getModeList modes name).any (casemap.equalsCi · param) then 1 else 0

/-- `Channel::GetParam`. -/
def getParam (modes : ModeList) (name : Str) : Option Str :=
  (modes.equalRange name).head?.map ModeData.value

variable {μ υ : Type} [DecidableEq μ] [DecidableEq υ]

/-- Change the status of a member; other users have none to change. -/
def updateStatus (channel : Channel μ υ) (user : υ) (update : Finset μ → Finset μ) :
    Channel μ υ :=
  match channel.users.lookup user with
  | none => channel
  | some status => { channel with users := channel.users.insert user (update status) }

/-- `Channel::HasUserStatus` with a status mode. -/
def hasUserStatus (channel : Channel μ υ) (user : υ) (cm : μ) : Bool :=
  match channel.users.lookup user with
  | none => false
  | some status => cm ∈ status

section Internal

variable (casemap : Casemap) (manager : ModeManager μ)

/-- `Channel::SetModeInternal`; `setter` is the name of the message source. -/
def setModeInternal (context : Context υ) (setter : Str) (channel : Channel μ υ) (ocm : μ)
    (data : ModeData) : Channel μ υ :=
  let (cm, value) := manager.unwrap ocm data.value
  let mdata := { data.complete setter context.curTime with value := value }
  let name := (manager.mode cm).name
  match (manager.mode cm).type with
  | .status =>
      if value = [] then channel
      else
        match context.findUser value with
        | none => channel
        | some u => updateStatus channel u (insert cm)
  | .list =>
      if hasMode casemap channel.modes name value ≠ 0 then channel
      else { channel with modes := channel.modes.emplace name mdata }
  | .regular | .param =>
      { channel with modes := (channel.modes.eraseKey name).emplace name mdata }

/-- `Channel::RemoveModeInternal`.  The destruction of an empty channel that
loses its permanent mode is not part of the mode state. -/
def removeModeInternal (context : Context υ) (channel : Channel μ υ) (ocm : μ) (oparam : Str) :
    Channel μ υ :=
  let (cm, param) := manager.unwrap ocm oparam
  let name := (manager.mode cm).name
  match (manager.mode cm).type with
  | .status =>
      if param = [] then channel
      else
        match (context.findBot param).or (context.findUser param) with
        | none => channel
        | some u => updateStatus channel u (·.erase cm)
  | .list =>
      { channel with
        modes := channel.modes.eraseFirst name fun data => casemap.equalsCi param data.value }
  | .regular | .param => { channel with modes := channel.modes.eraseKey name }

end Internal

/-! ## The internal changes by type of mode -/

section Spec

variable {casemap : Casemap} {manager : ModeManager μ} {context : Context υ} {setter : Str}
  {channel : Channel μ υ} {ocm cm : μ} {data : ModeData} {oparam value : Str}

theorem setModeInternal_of_single (unwrapped : manager.unwrap ocm data.value = (cm, value))
    (notList : (manager.mode cm).type ≠ .list) (notStatus : (manager.mode cm).type ≠ .status) :
    setModeInternal casemap manager context setter channel ocm data =
      { channel with
        modes := (channel.modes.eraseKey (manager.mode cm).name).emplace (manager.mode cm).name
          { data.complete setter context.curTime with value := value } } := by
  unfold setModeInternal
  rw [unwrapped]
  cases type : (manager.mode cm).type <;> simp_all

theorem setModeInternal_of_list (unwrapped : manager.unwrap ocm data.value = (cm, value))
    (isList : (manager.mode cm).type = .list) :
    setModeInternal casemap manager context setter channel ocm data =
      if hasMode casemap channel.modes (manager.mode cm).name value ≠ 0 then channel
      else
        { channel with
          modes := channel.modes.emplace (manager.mode cm).name
            { data.complete setter context.curTime with value := value } } := by
  unfold setModeInternal
  rw [unwrapped]
  simp only [isList]

theorem setModeInternal_of_status (unwrapped : manager.unwrap ocm data.value = (cm, value))
    (isStatus : (manager.mode cm).type = .status) :
    setModeInternal casemap manager context setter channel ocm data =
      if value = [] then channel
      else
        match context.findUser value with
        | none => channel
        | some u => updateStatus channel u (insert cm) := by
  unfold setModeInternal
  rw [unwrapped]
  simp only [isStatus]

theorem removeModeInternal_of_single (unwrapped : manager.unwrap ocm oparam = (cm, value))
    (notList : (manager.mode cm).type ≠ .list) (notStatus : (manager.mode cm).type ≠ .status) :
    removeModeInternal casemap manager context channel ocm oparam =
      { channel with modes := channel.modes.eraseKey (manager.mode cm).name } := by
  unfold removeModeInternal
  rw [unwrapped]
  cases type : (manager.mode cm).type <;> simp_all

theorem removeModeInternal_of_list (unwrapped : manager.unwrap ocm oparam = (cm, value))
    (isList : (manager.mode cm).type = .list) :
    removeModeInternal casemap manager context channel ocm oparam =
      { channel with
        modes := channel.modes.eraseFirst (manager.mode cm).name fun data =>
          casemap.equalsCi value data.value } := by
  unfold removeModeInternal
  rw [unwrapped]
  simp only [isList]

theorem removeModeInternal_of_status (unwrapped : manager.unwrap ocm oparam = (cm, value))
    (isStatus : (manager.mode cm).type = .status) :
    removeModeInternal casemap manager context channel ocm oparam =
      if value = [] then channel
      else
        match (context.findBot value).or (context.findUser value) with
        | none => channel
        | some u => updateStatus channel u (·.erase cm) := by
  unfold removeModeInternal
  rw [unwrapped]
  simp only [isStatus]

/-- A mode that is set changes the modes of the channel or the statuses of one user. -/
theorem setModeInternal_cases (context : Context υ) (setter : Str) (channel : Channel μ υ)
    (ocm : μ) (data : ModeData) :
    (∃ modes, setModeInternal casemap manager context setter channel ocm data =
      { channel with modes := modes }) ∨
    ∃ user update, setModeInternal casemap manager context setter channel ocm data =
      updateStatus channel user update := by
  unfold setModeInternal
  dsimp only
  split
  · split
    · exact .inl ⟨channel.modes, rfl⟩
    · split
      · exact .inl ⟨channel.modes, rfl⟩
      · exact .inr ⟨_, _, rfl⟩
  · split
    · exact .inl ⟨channel.modes, rfl⟩
    · exact .inl ⟨_, rfl⟩
  all_goals exact .inl ⟨_, rfl⟩

/-- A mode that is removed changes the modes of the channel or the statuses of one user. -/
theorem removeModeInternal_cases (context : Context υ) (channel : Channel μ υ) (ocm : μ)
    (oparam : Str) :
    (∃ modes, removeModeInternal casemap manager context channel ocm oparam =
      { channel with modes := modes }) ∨
    ∃ user update, removeModeInternal casemap manager context channel ocm oparam =
      updateStatus channel user update := by
  unfold removeModeInternal
  dsimp only
  split
  · split
    · exact .inl ⟨channel.modes, rfl⟩
    · split
      · exact .inl ⟨channel.modes, rfl⟩
      · exact .inr ⟨_, _, rfl⟩
  all_goals exact .inl ⟨_, rfl⟩

omit [DecidableEq μ] in
@[simp]
theorem updateStatus_modes (channel : Channel μ υ) (user : υ) (update : Finset μ → Finset μ) :
    (updateStatus channel user update).modes = channel.modes := by
  unfold updateStatus
  split <;> rfl

end Spec

end Channel

end Anope
