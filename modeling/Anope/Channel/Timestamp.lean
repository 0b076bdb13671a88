import Anope.Channel.Core
import Anope.Library.Table
import Mathlib.Data.List.Sort

/-!
# Bursts and timestamped mode changes

`Message::Join::SJoin`, `Channel::SetModesInternal` and `Channel::Reset`.  What
the handlers of an event do to the channel is given by the message that caused
the event: the list of their calls, with those that these calls cause in turn.
A channel that a handler or a message destroys is gone.
-/

namespace Anope.Channel

open Library.Table Anope.Text Anope.Mode

/-- What the protocol module provides for reading mode changes. -/
structure Protocol (μ : Type) where
  casemap : Casemap
  manager : ModeManager μ
  /-- `ModeManager::FindChannelModeByChar`. -/
  findModeByChar : UInt8 → Option μ

/-- A channel of `ChannelList` with its `syncing` flag. -/
structure Registered (μ υ : Type) where
  channel : Channel μ υ
  syncing : Bool

/-- A point at which handlers run. -/
inductive Event (υ : Type) where
  /-- `OnChannelCreate`. -/
  | create
  /-- `OnChannelModeSet`, when `Reset` gives a client of this server its modes
  back. -/
  | restored (user : υ)
  /-- `SetCorrectModes` in `Reset`. -/
  | corrected (user : υ)
  /-- `OnChannelModeSet` and `OnChannelModeUnset` for the mode at a position. -/
  | modeChange (position : Nat)
  /-- `CheckModes` or `SetCorrectModes` behind the change at a position. -/
  | enforced (position : Nat)
  /-- `CheckModes` behind all changes. -/
  | checkModes
  /-- `CheckKick` and, unless that kicks, `SetCorrectModes` and `OnJoinChannel`
  for the user at a position. -/
  | joined (position : Nat)
  /-- `Sync` at the end of `Reset`. -/
  | resetSync
  /-- `Sync` at the end of a burst. -/
  | sync

/-- A call of a handler as far as it changes the channel. -/
inductive Effect (μ υ : Type) where
  | set (cm : μ) (data : ModeData)
  | remove (cm : μ) (param : Str) (vetoDelete : Bool)
  | join (user : υ) (status : Finset μ)
  | leave (user : υ)
  /-- A channel newer than its registration is made as old as that and reset. -/
  | lowerTs (registered : Int)

/-- The handlers during one message: their calls at each event, and whether
`OnCheckDelete` objects to the deletion. -/
structure Handlers (μ υ : Type) where
  calls : Event υ → List (Effect μ υ)
  vetoDelete : Event υ → Bool

/-- What is known where a message is received. -/
structure Receipt (μ υ : Type) where
  context : Context υ
  /-- `source.GetName()`. -/
  source : Str
  /-- Whether the server of the source, or this one without it, is synced. -/
  sourceSynced : Bool
  /-- The clients of this server. -/
  own : υ → Bool
  handlers : Handlers μ υ

variable {μ υ : Type}

/-- A channel without its modes, and without the statuses of the members that
are not kept. -/
def forget (kept : υ → Bool) (channel : Channel μ υ) : Channel μ υ :=
  { channel with
    modes := .empty
    users := mapValues (fun user status => if kept user then status else ∅) channel.users }

section Burst

variable [DecidableEq μ] [LinearOrder υ]

/-- Give one member a status. -/
def assignStatus (channel : Channel μ υ) (user : υ) (status : Finset μ) : Channel μ υ :=
  { channel with
    users := mapValues (fun member old => if member = user then status else old) channel.users }

/-- `Channel::users` in the order of the addresses. -/
def members (channel : Channel μ υ) : List υ :=
  channel.users.keys.insertionSort (· ≤ ·)

namespace Registered

/-- `Channel::CheckDelete`. -/
def checkDelete (casemap : Casemap) (vetoDelete : Bool) (state : Registered μ υ) : Bool :=
  !state.syncing && hasMode casemap state.channel.modes (ascii "PERM") [] = 0 && !vetoDelete &&
    state.channel.users.keys.isEmpty

end Registered

variable (protocol : Protocol μ) (receipt : Receipt μ υ)

/-- The end of `RemoveModeInternal`: an empty channel that loses its permanent
mode is destroyed. -/
def afterRemove (vetoDelete : Bool) (cm : μ) (param : Str) (state : Registered μ υ) :
    Option (Registered μ υ) :=
  let removed := protocol.manager.mode (protocol.manager.unwrap cm param).1
  if removed.type ≠ .status ∧ removed.name = ascii "PERM" ∧
      state.checkDelete protocol.casemap vetoDelete then none
  else some state

/-- The effect of a call of a handler. -/
def Effect.apply (state : Registered μ υ) : Effect μ υ → Option (Registered μ υ)
  | .set cm data =>
      some { state with
        channel := setModeInternal protocol.casemap protocol.manager receipt.context
          receipt.context.me state.channel cm data }
  | .remove cm param vetoDelete =>
      afterRemove protocol vetoDelete cm param { state with
        channel := removeModeInternal protocol.casemap protocol.manager receipt.context
          state.channel cm param }
  | .join user status =>
      if user ∈ state.channel.users.keys then some state
      else some { state with
        channel := { state.channel with users := state.channel.users.insert user status } }
  | .leave user =>
      some { state with
        channel := { state.channel with users := state.channel.users.erase user } }
  | .lowerTs registered =>
      if registered < state.channel.created then
        some { state with
          channel := { state.channel.forget receipt.own with created := registered } }
      else some state

/-- Run the handlers of an event. -/
def fire (event : Event υ) (state : Registered μ υ) : Option (Registered μ υ) :=
  (receipt.handlers.calls event).foldlM (Effect.apply protocol receipt) state

/-! ## `Channel::Reset` -/

/-- The first loop of `Reset` at one member: the status is cleared, and a client
of this server gets it back.  `SetMode` announces the modes given back; what it
does to the status is overwritten. -/
def resetStatus (state : Registered μ υ) (user : υ) : Option (Registered μ υ) :=
  match state.channel.users.lookup user with
  | none => some state
  | some status => do
      let cleared := { state with channel := state.channel.assignStatus user ∅ }
      if receipt.own user then
        let restored ← fire protocol receipt (.restored user) cleared
        return { restored with channel := restored.channel.assignStatus user status }
      else return cleared

/-- `Channel::Reset`. -/
def reset (state : Registered μ υ) : Option (Registered μ υ) := do
  let state := { state with channel := { state.channel with modes := .empty } }
  let state ← state.channel.members.foldlM (resetStatus protocol receipt) state
  let state ← state.channel.members.foldlM
    (fun state user => fire protocol receipt (.corrected user) state) state
  if state.syncing then return state else fire protocol receipt .resetSync state

/-! ## `Channel::SetModesInternal` -/

/-- The parameter that a mode of the message takes and the parameters left.  A
regular mode takes none, and a parameter mode may not need one to be unset. -/
def takeParam (cm : ChannelMode μ) (add : Bool) (params : List Str) : Option (Str × List Str) :=
  if cm.type = .regular ∨ (cm.type = .param ∧ !add ∧ cm.minusNoArg) then some ([], params)
  else
    match params with
    | [] => none
    | token :: rest => some (token, rest)

/-- One mode of the message is set or removed. -/
def changeMode (ts : Int) (position : Nat) (add : Bool) (cm : μ) (value : Str)
    (state : Registered μ υ) : Option (Registered μ υ) :=
  if add then do
    let data : ModeData :=
      { value, setBy := receipt.source, setAt := if ts ≠ 0 then ts else receipt.context.curTime }
    let channel := setModeInternal protocol.casemap protocol.manager receipt.context
      receipt.source state.channel cm data
    let state ← fire protocol receipt (.modeChange position) { state with channel }
    fire protocol receipt (.enforced position) state
  else do
    let channel := removeModeInternal protocol.casemap protocol.manager receipt.context
      state.channel cm value
    let state ← fire protocol receipt (.modeChange position) { state with channel }
    let state ← afterRemove protocol (receipt.handlers.vetoDelete (.modeChange position)) cm value
      state
    fire protocol receipt (.enforced position) state

/-- The loop of `SetModesInternal` over the mode characters; `add` is unknown
until the first sign. -/
def changeModes (ts : Int) (position : Nat) (add : Option Bool) (params : List Str) :
    Str → Registered μ υ → Option (Registered μ υ)
  | [], state => some state
  | mchar :: modes, state =>
      if mchar = 43 then changeModes ts (position + 1) (some true) params modes state
      else if mchar = 45 then changeModes ts (position + 1) (some false) params modes state
      else
        match add, protocol.findModeByChar mchar with
        | some sign, some cm =>
            match takeParam (protocol.manager.mode cm) sign params with
            | none => changeModes ts (position + 1) add params modes state
            | some (value, params) =>
                (changeMode protocol receipt ts position sign cm value state).bind
                  (changeModes ts (position + 1) add params modes)
        | _, _ => changeModes ts (position + 1) add params modes state

/-- `Channel::SetModesInternal`. -/
def setModesInternal (modes : Str) (params : List Str) (ts : Int) (enforceMlock : Bool)
    (state : Registered μ υ) : Option (Registered μ υ) :=
  if ts ≠ 0 ∧ state.channel.created < ts then some state
  else
    (if ts ≠ 0 ∧ ts < state.channel.created then
      reset protocol receipt { state with channel := { state.channel with created := ts } }
    else some state).bind fun state =>
      (changeModes protocol receipt ts 0 none params modes state).bind fun state =>
        if enforceMlock then fire protocol receipt .checkModes state else some state

/-! ## `Message::Join::SJoin` -/

/-- The loop of `SJoin` over the users. -/
def joinUsers (ts : Int) (position : Nat) :
    List (Finset μ × υ) → Registered μ υ → Option (Registered μ υ)
  | [], state => some state
  | (status, user) :: users, state =>
      if user ∈ state.channel.users.keys then joinUsers ts (position + 1) users state
      else
        let memb := if ts ≤ state.channel.created then status else ∅
        (fire protocol receipt (.joined position) { state with
          channel := { state.channel with users := state.channel.users.insert user memb } }).bind
          (joinUsers ts (position + 1) users)

/-- `SJoin` before the modes: the channel, and whether their modes are kept. -/
def arrive (ts : Int) :
    Option (Registered μ υ) → Option (Registered μ υ × Bool)
  | none => do
      let channel : Channel μ υ :=
        { created := if ts ≠ 0 then ts else receipt.context.curTime, modes := .empty, users := ∅ }
      let state ← fire protocol receipt .create { channel, syncing := false }
      return ({ state with syncing := true }, true)
  | some state =>
      if ts = 0 then some (state, true)
      else if ts < state.channel.created then do
        let state ← reset protocol receipt
          { state with channel := { state.channel with created := ts } }
        return (state, true)
      else if state.channel.created < ts then some (state, false)
      else some (state, true)

/-- `SJoin` from the modes on. -/
def acceptBurst (ts : Int) (modes : Str) (params : List Str) (users : List (Finset μ × υ))
    (keepTheirModes : Bool) (state : Registered μ υ) : Option (Registered μ υ) :=
  (if keepTheirModes ∧ modes ≠ [] then
    setModesInternal protocol receipt modes params ts (!state.syncing) state
  else some state).bind fun state =>
    (joinUsers protocol receipt ts 0 users state).bind fun state =>
      if state.syncing ∧ receipt.sourceSynced then
        fire protocol receipt .sync { state with syncing := false }
      else some state

/-- `Message::Join::SJoin`. -/
def sjoin (ts : Int) (modes : Str) (params : List Str) (users : List (Finset μ × υ))
    (state : Option (Registered μ υ)) : Option (Registered μ υ) :=
  (arrive protocol receipt ts state).bind fun arrived =>
    acceptBurst protocol receipt ts modes params users arrived.2 arrived.1

/-! ## Messages -/

/-- A message about one channel. -/
inductive Message (μ υ : Type) where
  | sjoin (ts : Int) (modes : Str) (params : List Str) (users : List (Finset μ × υ))
  | mode (ts : Int) (modes : Str) (params : List Str) (enforceMlock : Bool)

/-- The timestamp of a message; zero when it carries none. -/
def Message.ts : Message μ υ → Int
  | .sjoin ts _ _ _ => ts
  | .mode ts _ _ _ => ts

/-- A message without its modes and statuses. -/
def Message.bare : Message μ υ → Message μ υ
  | .sjoin ts _ _ users => .sjoin ts [] [] (users.map fun entry => (∅, entry.2))
  | .mode ts _ _ enforceMlock => .mode ts [] [] enforceMlock

/-- What a message does to the channel, if it exists; a mode message for no
channel is ignored. -/
def receive (state : Option (Registered μ υ)) : Message μ υ → Option (Registered μ υ)
  | .sjoin ts modes params users => sjoin protocol receipt ts modes params users state
  | .mode ts modes params enforceMlock =>
      state.bind (setModesInternal protocol receipt modes params ts enforceMlock)

end Burst

end Anope.Channel
