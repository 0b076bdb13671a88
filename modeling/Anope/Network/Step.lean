import Anope.Channel.Core
import Anope.Library.Table

/-!
# The state of the network

Users, channels and memberships in the heap, with the tables that refer to
them.  Objects are known by their addresses, and an address may be used again
after its object is destroyed.
-/

namespace Anope.Network

open Library.Table Anope.Text Anope.Mode

/-- How far the life of a user has got: its constructor runs, it is in use, or
its destructor runs. -/
inductive Phase where
  | constructing
  | live
  | dying
  deriving DecidableEq, Repr

/-- `User`; `γ` are the addresses of channels and `ε` those of memberships. -/
structure User (γ ε : Type) where
  nick : Str
  /-- `server == Me`. -/
  own : Bool
  /-- Whether it is a `BotInfo`. -/
  bot : Bool
  quit : Bool
  phase : Phase
  modes : AList fun _ : Str => ModeData
  chans : AList fun _ : γ => ε

/-- `Channel`; `υ` are the addresses of users. -/
structure Chan (υ ε : Type) where
  name : Str
  syncing : Bool
  modes : ModeList
  users : AList fun _ : υ => ε

/-- `Membership`. -/
structure Membership (υ γ : Type) where
  user : υ
  chan : γ
  deriving DecidableEq

/-- The heap, the global tables and the lists of what is to be destroyed. -/
structure State (υ γ ε : Type) where
  users : AList fun _ : υ => User γ ε
  chans : AList fun _ : γ => Chan υ ε
  memberships : AList fun _ : ε => Membership υ γ
  /-- `UserListByNick`; names are equal up to case. -/
  userListByNick : AList fun _ : Str => υ
  /-- `ChannelList`. -/
  channelList : AList fun _ : Str => γ
  /-- `User::quitting_users`. -/
  quittingUsers : List υ
  /-- `Channel::deleting`. -/
  deleting : List γ
  /-- The channels on which a `RemoveModeInternal` of the permanent mode has not
  returned, the innermost call first. -/
  unsetting : List γ
  /-- `OperCount`, a `size_t`. -/
  operCount : UInt64

/-- What does not change while the program runs. -/
structure Config (μ : Type) where
  casemap : Casemap
  /-- The channel modes. -/
  manager : ModeManager μ
  /-- Whether `SendSVSKill` of the protocol module calls `KillInternal`. -/
  svsKillQuits : Bool

/-- A program without channel modes, whose protocol module kills at once. -/
def noChannelModes : Config Empty where
  casemap := .ascii
  manager :=
    { mode cm := nomatch cm
      listeners _ := []
      wrapParam _ value := value
      unwrapParam _ _ _ := none
      isValid _ value := some value
      name_inj {cm} := nomatch cm }
  svsKillQuits := true

variable {υ γ ε : Type}

/-- `User::HasMode`. -/
def User.hasMode (user : User γ ε) (mname : Str) : Bool :=
  (user.modes.lookup mname).isSome

/-- Whether a user holds the mode `OPER`. -/
def User.isOper (user : User γ ε) : Bool :=
  user.hasMode (ascii "OPER")

/-- Whether `CollideKill` makes a user quit: a bot is introduced again, and a
client of another server depends on the protocol module. -/
def User.killQuits (svsKillQuits : Bool) (user : User γ ε) : Bool :=
  if user.own then !user.bot else svsKillQuits

/-- `Channel::CheckDelete`; `vetoDelete` is the answer of `OnCheckDelete`. -/
def Chan.checkDelete (casemap : Casemap) (vetoDelete : Bool) (chan : Chan υ ε) : Bool :=
  !chan.syncing && Channel.hasMode casemap chan.modes (ascii "PERM") [] = 0 && !vetoDelete &&
    chan.users.keys.isEmpty

/-- The state in which the program starts. -/
def State.initial : State υ γ ε where
  users := ∅
  chans := ∅
  memberships := ∅
  userListByNick := ∅
  channelList := ∅
  quittingUsers := []
  deleting := []
  unsetting := []
  operCount := 0

namespace State

/-- Change a user of the heap. -/
def updateUser [DecidableEq υ] (state : State υ γ ε) (user : υ)
    (change : User γ ε → User γ ε) : State υ γ ε :=
  { state with users := modify user change state.users }

/-- Change a channel of the heap. -/
def updateChan [DecidableEq γ] (state : State υ γ ε) (chan : γ)
    (change : Chan υ ε → Chan υ ε) : State υ γ ε :=
  { state with chans := modify chan change state.chans }

end State

end Anope.Network

/-!
## The steps of the network

Each action is what a function does between two points at which handlers run,
so a call is a sequence of actions with those of its handlers in between:
`User::User` is `construct`, its mode changes and `register`; `User::~User` is
`logoff`, `deleteUser` for each channel and `release`; `User::QuitUsers` destroys
the users in the queue and ends with `clearQuitting`.  A step without a result is
not possible, or touches a destroyed object.
-/

namespace Anope.Network

open Library.Table Anope.Text Anope.Mode

variable {υ γ ε μ : Type} [DecidableEq υ] [DecidableEq γ] [DecidableEq ε] [DecidableEq μ]

namespace State

/-! ## Users -/

/-- The constructor of `User` up to the modes.  Users have different addresses,
so there are fewer of them than addresses. -/
def construct (state : State υ γ ε) (user : υ) (snick : Str) (own bot : Bool) :
    Option (State υ γ ε) :=
  if user ∈ state.users ∨ snick = [] ∨ UInt64.size ≤ state.users.keys.length + 1 then none
  else
    some { state with
      users := state.users.insert user
        { nick := snick, own, bot, quit := false, phase := .constructing, modes := ∅, chans := ∅ } }

/-- The constructor of `User` behind the modes. -/
def register (casemap : Casemap) (state : State υ γ ε) (user : υ) : Option (State υ γ ε) :=
  match state.users.lookup user with
  | none => none
  | some record =>
      if record.phase ≠ .constructing then none
      else
        some { state.updateUser user fun record => { record with phase := .live } with
          userListByNick := state.userListByNick.insert (casemap.ciStr record.nick) user }

/-- `User::Quit` behind its handlers. -/
def quitUser (state : State υ γ ε) (user : υ) : Option (State υ γ ε) :=
  match state.users.lookup user with
  | none => none
  | some record =>
      if record.quit then some state
      else
        some { state.updateUser user fun record => { record with quit := true } with
          quittingUsers := state.quittingUsers ++ [user] }

/-- `CollideKill`. -/
def collideKill (svsKillQuits : Bool) (state : State υ γ ε) (target : υ) :
    Option (State υ γ ε) :=
  match state.users.lookup target with
  | none => none
  | some record =>
      if !record.own then if svsKillQuits then state.quitUser target else some state
      -- `OnKill` introduces a bot again.
      else if record.bot then some state
      else state.quitUser target

/-- `User::ChangeNick`. -/
def changeNick (config : Config μ) (state : State υ γ ε) (user : υ) (newnick : Str) :
    Option (State υ γ ε) :=
  match state.users.lookup user with
  | none => none
  | some record =>
      let renamed := state.updateUser user fun record => { record with nick := newnick }
      if record.phase ≠ .live ∨ newnick = [] then none
      else if config.casemap.equalsCi record.nick newnick then some renamed
      else
        let userListByNick := state.userListByNick.erase (config.casemap.ciStr record.nick)
        match userListByNick.lookup (config.casemap.ciStr newnick) with
        | some other => do
            let state ← { renamed with userListByNick }.collideKill config.svsKillQuits user
            state.collideKill config.svsKillQuits other
        | none =>
            some { renamed with
              userListByNick := userListByNick.insert (config.casemap.ciStr newnick) user }

/-- `User::SetModeInternal`; the modes of an oper type are set by further
steps. -/
def setUserModeInternal (state : State υ γ ε) (user : υ) (mname : Str) (data : ModeData) :
    Option (State υ γ ε) :=
  match state.users.lookup user with
  | none => none
  | some record =>
      if record.phase = .dying then none
      else
        some { state.updateUser user fun record =>
            { record with modes := record.modes.insert mname data } with
          operCount := if mname = ascii "OPER" then state.operCount + 1 else state.operCount }

/-- `User::RemoveModeInternal`. -/
def removeUserModeInternal (state : State υ γ ε) (user : υ) (mname : Str) :
    Option (State υ γ ε) :=
  match state.users.lookup user with
  | none => none
  | some record =>
      if record.phase = .dying then none
      else
        some { state.updateUser user fun record =>
            { record with modes := record.modes.erase mname } with
          operCount := if mname = ascii "OPER" then state.operCount - 1 else state.operCount }

/-- `User::SetMode`. -/
def setUserMode (state : State υ γ ε) (user : υ) (mname : Str) (data : ModeData) :
    Option (State υ γ ε) :=
  match state.users.lookup user with
  | none => none
  | some record =>
      if record.hasMode mname then some state else state.setUserModeInternal user mname data

/-- `User::RemoveMode`. -/
def removeUserMode (state : State υ γ ε) (user : υ) (mname : Str) : Option (State υ γ ε) :=
  match state.users.lookup user with
  | none => none
  | some record =>
      if record.hasMode mname then state.removeUserModeInternal user mname else some state

/-- The destructor of `User` up to the channels. -/
def logoff (state : State υ γ ε) (user : υ) : Option (State υ γ ε) :=
  match state.users.lookup user with
  | none => none
  | some record =>
      if record.phase ≠ .live then none
      else
        some { state.updateUser user fun record => { record with phase := .dying } with
          operCount := if record.isOper then state.operCount - 1 else state.operCount }

/-- The destructor of `User` behind the channels. -/
def release (casemap : Casemap) (state : State υ γ ε) (user : υ) : Option (State υ γ ε) :=
  match state.users.lookup user with
  | none => none
  | some record =>
      if record.phase ≠ .dying ∨ record.chans.keys ≠ [] then none
      else
        some { state with
          users := state.users.erase user
          userListByNick := state.userListByNick.erase (casemap.ciStr record.nick) }

/-! ## Channels -/

/-- `Channel::FindOrCreate` for a name that is not in use. -/
def createChannel (casemap : Casemap) (state : State υ γ ε) (chan : γ) (name : Str) :
    Option (State υ γ ε) :=
  if chan ∈ state.chans ∨ name = [] ∨ casemap.ciStr name ∈ state.channelList then none
  else
    some { state with
      chans := state.chans.insert chan { name, syncing := false, modes := .empty, users := ∅ }
      channelList := state.channelList.insert (casemap.ciStr name) chan }

/-- The destructor of `Channel`. -/
def destroyChannel (casemap : Casemap) (state : State υ γ ε) (chan : γ) : State υ γ ε :=
  match state.chans.lookup chan with
  | none => state
  | some record =>
      { state with
        chans := state.chans.erase chan
        channelList := state.channelList.erase (casemap.ciStr record.name) }

/-- A netburst begins or ends: `Channel::Sync` and the assignments to
`syncing`. -/
def setSyncing (state : State υ γ ε) (chan : γ) (syncing : Bool) : Option (State υ γ ε) :=
  if chan ∈ state.chans then some (state.updateChan chan fun record => { record with syncing })
  else none

/-- `Channel::JoinUser`. -/
def joinUser (state : State υ γ ε) (chan : γ) (user : υ) (memb : ε) : Option (State υ γ ε) :=
  if chan ∈ state.chans ∧ user ∈ state.users ∧ memb ∉ state.memberships then
    some { state with
      memberships := state.memberships.insert memb ⟨user, chan⟩
      users := modify user
        (fun record => { record with chans := record.chans.insert chan memb }) state.users
      chans := modify chan
        (fun record => { record with users := record.users.insert user memb }) state.chans }
  else none

/-- `Channel::QueueForDeletion`. -/
def queueForDeletion (state : State υ γ ε) (chan : γ) : State υ γ ε :=
  if chan ∈ state.deleting then state else { state with deleting := state.deleting ++ [chan] }

/-- `Channel::DeleteUser` behind its handlers. -/
def deleteUser (state : State υ γ ε) (chan : γ) (user : υ) : Option (State υ γ ε) :=
  match state.users.lookup user with
  | none => none
  | some record =>
      if chan ∉ state.chans then none
      else
        let memberships :=
          match record.chans.lookup chan with
          | none => state.memberships
          | some memb => state.memberships.erase memb
        let left : State υ γ ε := { state with
          memberships
          users := modify user
            (fun record => { record with chans := record.chans.erase chan }) state.users
          chans := modify chan
            (fun record => { record with users := record.users.erase user }) state.chans }
        some (left.queueForDeletion chan)

/-- What the callers of `QueueForDeletion` outside `DeleteUser` do. -/
def checkAndQueue (casemap : Casemap) (state : State υ γ ε) (chan : γ) (vetoDelete : Bool) :
    Option (State υ γ ε) :=
  match state.chans.lookup chan with
  | none => none
  | some record =>
      if record.checkDelete casemap vetoDelete then some (state.queueForDeletion chan)
      else some state

/-- A mode change without the statuses of members. -/
def withoutMembers (record : Chan υ ε) : Channel μ υ where
  created := 0
  modes := record.modes
  users := ∅

/-- `Channel::SetModeInternal`. -/
def setChannelModeInternal (config : Config μ) (context : Context υ) (setter : Str)
    (state : State υ γ ε) (chan : γ) (cm : μ) (data : ModeData) : Option (State υ γ ε) :=
  if chan ∈ state.chans then
    some (state.updateChan chan fun record =>
      { record with
        modes := (Channel.setModeInternal config.casemap config.manager context setter
          (withoutMembers record) cm data).modes })
  else none

/-- `Channel::RemoveModeInternal` up to its handlers. -/
def removeChannelModeInternal (config : Config μ) (context : Context υ) (state : State υ γ ε)
    (chan : γ) (cm : μ) (param : Str) : Option (State υ γ ε) :=
  if chan ∈ state.chans then
    let removed := config.manager.mode (config.manager.unwrap cm param).1
    some { state.updateChan chan fun record =>
        { record with
          modes := (Channel.removeModeInternal config.casemap config.manager context
            (withoutMembers record) cm param).modes } with
      unsetting :=
        if removed.type ≠ .status ∧ removed.name = ascii "PERM" then chan :: state.unsetting
        else state.unsetting }
  else none

/-- `Channel::RemoveModeInternal` behind the handlers of a permanent mode: the
channel may delete itself. -/
def lostPerm (casemap : Casemap) (state : State υ γ ε) (chan : γ) (vetoDelete : Bool) :
    Option (State υ γ ε) :=
  match state.unsetting with
  | [] => none
  | innermost :: outer =>
      if innermost ≠ chan then none
      else
        match state.chans.lookup chan with
        | none => none
        | some record =>
            let returned := { state with unsetting := outer }
            if record.checkDelete casemap vetoDelete then
              some (returned.destroyChannel casemap chan)
            else some returned

/-- The loop of `Channel::DeleteChannels`. -/
def sweep (casemap : Casemap) (vetoDelete : γ → Bool) (state : State υ γ ε) (chan : γ) :
    Option (State υ γ ε) :=
  match state.chans.lookup chan with
  | none => none
  | some record =>
      if record.checkDelete casemap (vetoDelete chan) then
        some (state.destroyChannel casemap chan)
      else some state

/-- `Channel::DeleteChannels`. -/
def deleteChannels (casemap : Casemap) (vetoDelete : γ → Bool) (state : State υ γ ε) :
    Option (State υ γ ε) :=
  (state.deleting.foldlM (sweep casemap vetoDelete) state).map fun state =>
    { state with deleting := [] }

end State

/-! ## Actions -/

/-- A step of the program. -/
inductive Action (υ γ ε μ : Type) where
  | construct (user : υ) (snick : Str) (own bot : Bool)
  | register (user : υ)
  | changeNick (user : υ) (newnick : Str)
  | setUserModeInternal (user : υ) (mname : Str) (data : ModeData)
  | removeUserModeInternal (user : υ) (mname : Str)
  | setUserMode (user : υ) (mname : Str) (data : ModeData)
  | removeUserMode (user : υ) (mname : Str)
  | quit (user : υ)
  | logoff (user : υ)
  | release (user : υ)
  | clearQuitting
  | createChannel (chan : γ) (name : Str)
  | setSyncing (chan : γ) (syncing : Bool)
  | joinUser (chan : γ) (user : υ) (memb : ε)
  | deleteUser (chan : γ) (user : υ)
  | checkAndQueue (chan : γ) (vetoDelete : Bool)
  | setChannelModeInternal (context : Context υ) (setter : Str) (chan : γ) (cm : μ)
      (data : ModeData)
  | removeChannelModeInternal (context : Context υ) (chan : γ) (cm : μ) (param : Str)
  | lostPerm (chan : γ) (vetoDelete : Bool)
  | deleteChannels (vetoDelete : γ → Bool)

/-- `UserMode`. -/
structure UserMode where
  name : Str
  type : ModeType

/-- `User::SetModesInternal`: the steps for the mode characters; `add` is unknown
until the first sign. -/
def setUserModesInternal (findUserModeByChar : UInt8 → Option UserMode) (user : υ)
    (add : Option Bool) (params : List Str) : Str → List (Action υ γ ε μ)
  | [] => []
  | mode :: umodes =>
      if mode = 43 then
        setUserModesInternal findUserModeByChar user (some true) params umodes
      else if mode = 45 then
        setUserModesInternal findUserModeByChar user (some false) params umodes
      else
        match add, findUserModeByChar mode with
        | some true, some um =>
            match um.type, params with
            | .param, param :: params =>
                .setUserModeInternal user um.name ⟨param, [], 0⟩ ::
                  setUserModesInternal findUserModeByChar user add params umodes
            | _, _ =>
                .setUserModeInternal user um.name ⟨[], [], 0⟩ ::
                  setUserModesInternal findUserModeByChar user add params umodes
        | some false, some um =>
            .removeUserModeInternal user um.name ::
              setUserModesInternal findUserModeByChar user add params umodes
        | _, _ => setUserModesInternal findUserModeByChar user add params umodes

/-- The state behind a step. -/
def step (config : Config μ) (state : State υ γ ε) :
    Action υ γ ε μ → Option (State υ γ ε)
  | .construct user snick own bot => state.construct user snick own bot
  | .register user => state.register config.casemap user
  | .changeNick user newnick => state.changeNick config user newnick
  | .setUserModeInternal user mname data => state.setUserModeInternal user mname data
  | .removeUserModeInternal user mname => state.removeUserModeInternal user mname
  | .setUserMode user mname data => state.setUserMode user mname data
  | .removeUserMode user mname => state.removeUserMode user mname
  | .quit user => state.quitUser user
  | .logoff user => state.logoff user
  | .release user => state.release config.casemap user
  | .clearQuitting => some { state with quittingUsers := [] }
  | .createChannel chan name => state.createChannel config.casemap chan name
  | .setSyncing chan syncing => state.setSyncing chan syncing
  | .joinUser chan user memb => state.joinUser chan user memb
  | .deleteUser chan user => state.deleteUser chan user
  | .checkAndQueue chan vetoDelete => state.checkAndQueue config.casemap chan vetoDelete
  | .setChannelModeInternal context setter chan cm data =>
      state.setChannelModeInternal config context setter chan cm data
  | .removeChannelModeInternal context chan cm param =>
      state.removeChannelModeInternal config context chan cm param
  | .lostPerm chan vetoDelete => state.lostPerm config.casemap chan vetoDelete
  | .deleteChannels vetoDelete => state.deleteChannels config.casemap vetoDelete

end Anope.Network
