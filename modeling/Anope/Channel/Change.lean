import Anope.Mode.Change

/-!
# Mode changes made by services

`Channel::SetMode` and `Channel::RemoveMode`: a change that passes the guards is
wrapped, added to the stacker of the channel and applied to the channel at once.
The stacker is sent later by `ModeManager::ProcessModes`.
-/

namespace Anope.Channel

open Anope.Text Anope.Mode

/-- A channel and the changes to it that services have not sent yet. -/
structure Services (μ υ : Type) where
  channel : Channel μ υ
  stacker : StackerInfo μ

section

variable {μ υ : Type} [DecidableEq μ] [DecidableEq υ]
variable (casemap : Casemap) (manager : ModeManager μ) (context : Context υ)

/-- The guards of `SetMode`: the value to set, unless the mode is already set,
the value is not valid or the user is unknown. -/
def acceptSet (channel : Channel μ υ) (cm : μ) (value : Str) : Option Str :=
  let name := (manager.mode cm).name
  match (manager.mode cm).type with
  | .regular => if hasMode casemap channel.modes name [] ≠ 0 then none else some value
  | .param => do
      let value ← manager.isValid cm value
      if getParam channel.modes name = some value then none else some value
  | .status => do
      let u ← context.findUser value
      if hasUserStatus channel u cm then none else some value
  | .list => do
      let value ← manager.isValid cm value
      if hasMode casemap channel.modes name value ≠ 0 then none else some value

/-- The guards of `RemoveMode`: the unwrapped mode with the parameter to send,
unless it is not set. -/
def acceptRemove (channel : Channel μ υ) (cm : μ) (wparam : Str) : Option (μ × Str) :=
  if ((manager.mode cm).type = .regular ∨ (manager.mode cm).type = .param) ∧
      hasMode casemap channel.modes (manager.mode cm).name [] = 0 then none
  else
    let (cm, param) := manager.unwrap cm wparam
    let name := (manager.mode cm).name
    match (manager.mode cm).type with
    | .regular => some (cm, param)
    | .param =>
        some (cm, if (manager.mode cm).minusNoArg then [] else (getParam channel.modes name).getD [])
    | .status => do
        let u ← context.findUser param
        if hasUserStatus channel u cm then some (cm, param) else none
    | .list => if hasMode casemap channel.modes name param = 0 then none else some (cm, param)

/-- `Channel::SetMode`; `bi` is the nick of the sending bot, if there is one. -/
def setMode (bi : Option Str) (services : Services μ υ) (cm : μ) (data : ModeData) :
    Services μ υ :=
  let mdata := data.complete (bi.getD context.me) context.curTime
  match acceptSet casemap manager context services.channel cm mdata.value with
  | none => services
  | some value =>
      let (wcm, value) := manager.wrap cm value
      let mdata := { mdata with value := value }
      { stacker := services.stacker.addMode manager wcm true mdata
        channel :=
          setModeInternal casemap manager context (bi.getD []) services.channel wcm mdata }

/-- `Channel::RemoveMode`. -/
def removeMode (services : Services μ υ) (cm : μ) (wparam : Str) : Services μ υ :=
  match acceptRemove casemap manager context services.channel cm wparam with
  | none => services
  | some (cm, param) =>
      let (wcm, param) := manager.wrap cm param
      { stacker := services.stacker.addMode manager wcm false ⟨param, [], 0⟩
        channel := removeModeInternal casemap manager context services.channel wcm param }

/-- A call of `SetMode` or `RemoveMode`. -/
inductive Call (μ : Type) where
  | set (bi : Option Str) (cm : μ) (data : ModeData)
  | remove (bi : Option Str) (cm : μ) (wparam : Str)

/-- The effect of a call. -/
def Call.apply (services : Services μ υ) : Call μ → Services μ υ
  | .set bi cm data => setMode casemap manager context bi services cm data
  | .remove _ cm wparam => removeMode casemap manager context services cm wparam

/-- The change that a call makes: direction, mode and value as they are sent. -/
def Call.change (channel : Channel μ υ) : Call μ → Option (ModeChange μ)
  | .set _ cm data =>
      (acceptSet casemap manager context channel cm data.value).map fun value =>
        (true, manager.wrap cm value)
  | .remove _ cm wparam =>
      (acceptRemove casemap manager context channel cm wparam).map fun accepted =>
        (false, manager.wrap accepted.1 accepted.2)

end

/-- `ModeManager::ProcessModes` for one channel: the lines sent. -/
def processModes {μ : Type} [LinearOrder μ] {manager : ModeManager μ} (ircd : Ircd manager)
    (stacker : StackerInfo μ) : List ModeLine :=
  buildModeChange ircd (buildModeMap stacker).entries

section Spec

variable {μ υ : Type} [DecidableEq μ] [DecidableEq υ] {casemap : Casemap}
  {manager : ModeManager μ} {context : Context υ}

/-- A call without a change does nothing. -/
theorem Call.apply_of_change_eq_none {services : Services μ υ} {call : Call μ}
    (noChange : call.change casemap manager context services.channel = none) :
    call.apply casemap manager context services = services := by
  cases call with
  | set bi cm data =>
      rw [Call.change, Option.map_eq_none_iff] at noChange
      simp only [Call.apply, setMode, ModeData.complete, noChange]
  | remove bi cm wparam =>
      rw [Call.change, Option.map_eq_none_iff] at noChange
      simp only [Call.apply, removeMode, noChange]

/-- A call with a change adds it to the stacker and applies it to the
channel. -/
theorem Call.apply_of_change_eq_some {services : Services μ υ} {call : Call μ} {set : Bool}
    {raw : μ} {value : Str}
    (change : call.change casemap manager context services.channel = some (set, raw, value)) :
    ∃ (data : ModeData) (setter : Str), data.value = value ∧
      (call.apply casemap manager context services).stacker =
        services.stacker.addMode manager raw set data ∧
      (call.apply casemap manager context services).channel =
        if set then setModeInternal casemap manager context setter services.channel raw data
        else removeModeInternal casemap manager context services.channel raw value := by
  cases call with
  | set bi cm data =>
      rw [Call.change, Option.map_eq_some_iff] at change
      obtain ⟨accepted, accept, sent⟩ := change
      rw [Prod.mk.injEq] at sent
      obtain ⟨rfl, wrapped⟩ := sent
      refine ⟨{ data.complete (bi.getD context.me) context.curTime with value := value },
        bi.getD [], rfl, ?_, ?_⟩
      · simp only [Call.apply, setMode, ModeData.complete, accept, wrapped]
      · simp only [Call.apply, setMode, ModeData.complete, accept, wrapped, if_true]
  | remove bi cm wparam =>
      rw [Call.change, Option.map_eq_some_iff] at change
      obtain ⟨accepted, accept, sent⟩ := change
      rw [Prod.mk.injEq] at sent
      obtain ⟨rfl, wrapped⟩ := sent
      refine ⟨⟨value, [], 0⟩, [], rfl, ?_, ?_⟩
      · simp only [Call.apply, removeMode, accept, wrapped]
      · simp only [Call.apply, removeMode, accept, wrapped, Bool.false_eq_true, if_false]

end Spec

end Anope.Channel
