import Anope.Library.Run
import Anope.Library.Table
import Anope.Text.Casemap

/-!
# The bridge service

`ModuleBridgeServ`: the bridges, the pseudo clients that stand in for the users of bridged
networks, the channels that these clients are in, and the nicknames that are reserved for them.

What the service does not decide is given with an action: the nickname that `MakeNick` comes to,
whether there is a link, and whether a client collides when it is introduced.
-/

namespace Anope.BridgeServ

open Anope.Text

/-- `Bridge`, with the fields that decide about clients and nicknames.  The number tells the
objects apart, as their addresses do. -/
structure Bridge where
  id : Nat
  protocol : Str
  ircChannel : Str
  space : Str
  foreignChannel : Str
  nickSuffix : Str
  /-- The nicknames of a `std::set`. -/
  reserved : List Str
  deriving DecidableEq, Repr

/-- The user of a pseudo client. -/
structure User where
  id : Nat
  nick : Str
  deriving DecidableEq, Repr

/-- `User::ChangeNick`. -/
def User.changeNick (nick : Str) (user : User) : User :=
  { user with nick }

/-- `BridgeClient`, without its times. -/
structure BridgeClient where
  key : Str
  userId : Str
  display : Str
  user : Option User
  /-- The names of a `std::set`. -/
  chans : List Str
  away : Bool
  deriving DecidableEq, Repr

/-- A channel on IRC, with the pseudo clients in it. -/
structure Channel where
  name : Str
  users : List Nat
  deriving DecidableEq, Repr

/-- What the service sends to the IRCd about a nickname. -/
inductive Reservation where
  | add (nick : Str)
  | remove (nick : Str)
  deriving DecidableEq, Repr

/-- What the service is configured with. -/
structure Env where
  casemap : Casemap
  /-- `FindBridgeProtocol`: the name of the protocol that is found. -/
  findProtocol : Str → Option Str
  defaultProtocol : Str
  isValidId : Str → Bool
  isChannelValid : Str → Bool
  isSuffixValid : Str → Bool
  canSQLine : Bool

/-- A service with one protocol, on an IRCd that takes everything. -/
def Env.lenient : Env where
  casemap := .ascii
  findProtocol := some
  defaultProtocol := ascii "discord"
  isValidId := fun _ => true
  isChannelValid := fun _ => true
  isSuffixValid := fun _ => true
  canSQLine := true

/-- The state of the service, with the side of IRC that it looks at. -/
structure State where
  bridges : List Bridge
  nextBridge : Nat
  clients : AList fun _ : Str => BridgeClient
  /-- The channels by their folded names. -/
  channels : AList fun _ : Str => Channel
  nextUser : Nat
  /-- Whether services have synchronised with their uplink. -/
  synced : Bool
  /-- What the last action sent about nicknames. -/
  sent : List Reservation

namespace State

def initial : State where
  bridges := []
  nextBridge := 0
  clients := ∅
  channels := ∅
  nextUser := 0
  synced := false
  sent := []

/-- Change the bridge of this number. -/
def modifyBridge (state : State) (id : Nat) (change : Bridge → Bridge) : State :=
  { state with
    bridges := state.bridges.map fun bridge => if bridge.id = id then change bridge else bridge }

/-- Change the client of this key. -/
def modifyClient (state : State) (key : Str) (change : BridgeClient → BridgeClient) : State :=
  { state with clients := Library.Table.modify key change state.clients }

end State

/-! ## Keys -/

/-- `LinkKey`. -/
def linkKey (protocol space : Str) : Str :=
  protocol ++ ascii "/" ++ space

/-- What the keys of the clients of a bridge start with, if its protocol is known. -/
def keyPrefix (env : Env) (bridge : Bridge) : Option Str :=
  (env.findProtocol bridge.protocol).map fun protocol =>
    linkKey protocol bridge.space ++ ascii "/" ++ bridge.nickSuffix ++ ascii "/"

/-- The key of a client. -/
def clientKey (env : Env) (bridge : Bridge) (userId : Str) : Option Str :=
  (keyPrefix env bridge).map fun front => front ++ userId

/-- `FindClient`. -/
def findClient (env : Env) (state : State) (bridge : Bridge) (userId : Str) :
    Option BridgeClient :=
  (clientKey env bridge userId).bind fun key => state.clients.lookup key

/-- `FindIrc`. -/
def findIrc (env : Env) (state : State) (ircChannel : Str) : Option Bridge :=
  state.bridges.find? fun bridge => env.casemap.equalsCi bridge.ircChannel ircChannel

/-- `FindRemote`. -/
def findRemote (env : Env) (state : State) (protocol channel : Str) : Option Bridge :=
  state.bridges.find? fun bridge =>
    env.casemap.equalsCi bridge.protocol protocol &&
      env.casemap.equalsCi bridge.foreignChannel channel

/-! ## Reserved nicknames -/

/-- `SendReservation`. -/
def sendReservation (env : Env) (reservation : Reservation) (state : State) : State :=
  if env.canSQLine ∧ state.synced then { state with sent := state.sent ++ [reservation] }
  else state

/-- `ReserveNick`. -/
def reserveNick (env : Env) (id : Nat) (nick : Str) (state : State) : State :=
  sendReservation env (.add nick)
    (state.modifyBridge id fun bridge =>
      { bridge with
        reserved := if bridge.reserved.contains nick then bridge.reserved
          else bridge.reserved ++ [nick] })

/-- `HeldElsewhere`. -/
def heldElsewhere (state : State) (id : Nat) (nick : Str) : Bool :=
  state.bridges.any fun other => other.id ≠ id && other.reserved.contains nick

/-- A reservation is removed unless another bridge holds the nickname. -/
def releaseNick (env : Env) (id : Nat) (state : State) (nick : Str) : State :=
  if heldElsewhere state id nick then state else sendReservation env (.remove nick) state

/-- `ReleaseNicks`. -/
def releaseNicks (env : Env) (bridge : Bridge) (state : State) : State :=
  bridge.reserved.foldl (releaseNick env bridge.id) state

/-! ## Channels -/

/-- Whether a user is in a channel. -/
def isIn (env : Env) (state : State) (user : Nat) (name : Str) : Bool :=
  match state.channels.lookup (env.casemap.ciStr name) with
  | none => false
  | some channel => channel.users.contains user

/-- `EnsureJoin`. -/
def ensureJoin (env : Env) (key name : Str) (state : State) : State :=
  match (state.clients.lookup key).bind BridgeClient.user with
  | none => state
  | some user =>
      if isIn env state user.id name then state
      else
        -- `FindOrCreate` finds the channel by its folded name.
        let channel := (state.channels.lookup (env.casemap.ciStr name)).getD ⟨name, []⟩
        { state with
          channels := state.channels.insert (env.casemap.ciStr name)
            { channel with users := channel.users ++ [user.id] }
          clients := Library.Table.modify key (fun client =>
            { client with
              chans := if client.chans.contains channel.name then client.chans
                else client.chans ++ [channel.name] }) state.clients }

/-- A user is no longer in a channel. -/
def leaveChannel (env : Env) (user : Nat) (name : Str) (state : State) : State :=
  { state with
    channels := Library.Table.modify (env.casemap.ciStr name) (fun channel =>
      { channel with users := channel.users.filter fun other => other ≠ user }) state.channels }

/-- `PartClient`. -/
def partClient (env : Env) (client : BridgeClient) (name : Str) (state : State) : State :=
  State.modifyClient
    (match client.user with
      | none => state
      | some user => leaveChannel env user.id name state)
    client.key fun client => { client with chans := client.chans.filter fun chan => chan ≠ name }

/-! ## Clients -/

/-- `OnUserQuit`: the first client of the user is forgotten. -/
def onUserQuit (user : Nat) (state : State) : State :=
  match state.clients.entries.find? fun entry => entry.2.user.map User.id = some user with
  | none => state
  | some entry => { state with clients := state.clients.erase entry.1 }

/-- `User::Quit`, and the end of the user. -/
def quitUser (user : Nat) (state : State) : State :=
  { onUserQuit user state with
    channels := Library.Table.mapValues (fun _ channel =>
      { channel with users := channel.users.filter fun other => other ≠ user }) state.channels }

/-- `RemoveClient`. -/
def removeClient (client : BridgeClient) (state : State) : State :=
  match client.user with
  | none => { state with clients := state.clients.erase client.key }
  | some user => quitUser user.id state

/-- What is not the service's to decide when a client gets its nickname. -/
structure Naming where
  /-- What `EnsureLink` comes to. -/
  linked : Bool
  /-- What `MakeNick` comes to. -/
  nick : Option Str
  /-- Whether the nickname or the UID collides in `User::OnIntroduce`. -/
  collides : Bool
  deriving DecidableEq, Repr

/-- The end of `EnsureClient`, where there is no client of the key. -/
def introduce (env : Env) (bridge : Bridge) (key userId display : Str) (naming : Naming)
    (state : State) : State × Bool :=
  match (if naming.linked then naming.nick else none) with
  | none => (state, false)
  | some nick =>
      let state := reserveNick env bridge.id nick state
      if naming.collides then
        -- The reservation is rolled back.
        let state := state.modifyBridge bridge.id fun bridge =>
          { bridge with reserved := bridge.reserved.filter fun other => other ≠ nick }
        (releaseNick env bridge.id state nick, false)
      else
        ({ state with
            clients := state.clients.insert key
              { key, userId, display, user := some ⟨state.nextUser, nick⟩, chans := []
                away := false }
            nextUser := state.nextUser + 1 }, true)

/-- A client whose display name changed is renamed in place. -/
def rename (env : Env) (bridge : Bridge) (key : Str) (user : User) (display : Str)
    (naming : Naming) (state : State) : State :=
  let renamed :=
    match naming.nick with
    | none => state
    | some nick =>
        if env.casemap.equalsCi nick user.nick then state
        else (reserveNick env bridge.id nick state).modifyClient key fun client =>
          { client with user := client.user.map (User.changeNick nick) }
  renamed.modifyClient key fun client => { client with display }

/-- `EnsureClient`, with whether there is a client behind it. -/
def ensureClient (env : Env) (bridge : Bridge) (key userId display : Str) (naming : Naming)
    (state : State) : State × Bool :=
  match state.clients.lookup key with
  | none => introduce env bridge key userId display naming state
  | some client =>
      if client.display = display then (state, true)
      else
        match client.user with
        | none => introduce env bridge key userId display naming (removeClient client state)
        | some user => (rename env bridge key user display naming state, true)

/-- `SetClientAway`. -/
def setClientAway (client : BridgeClient) (away : Bool) (state : State) : State :=
  if client.user.isNone ∨ client.away = away then state
  else state.modifyClient client.key fun client => { client with away }

/-- `RemoveAllClients`, with the users of the clients. -/
def removeAllClients (state : State) : State :=
  { state.clients.entries.foldl (fun state entry => removeClient entry.2 state) state with
    clients := ∅ }

/-! ## Bridges -/

/-- `PruneChannels`. -/
def pruneChannels (env : Env) (state : State) : State :=
  state.clients.entries.foldl (fun state entry =>
    (entry.2.chans.filter fun chan => (findIrc env state chan).isNone).foldl
      (fun state chan => partClient env entry.2 chan state) state) state

/-- A client is taken out of the channel of a bridge, and off the network if that was its only
channel. -/
def retireClient (env : Env) (bridge : Bridge) (state : State) (client : BridgeClient) : State :=
  let parted := partClient env client bridge.ircChannel state
  if (client.chans.filter fun chan => chan ≠ bridge.ircChannel) = [] then
    removeClient client parted
  else parted

/-- `RetireClients`. -/
def retireClients (env : Env) (bridge : Bridge) (state : State) : State :=
  (state.clients.entries.filterMap fun entry =>
    if entry.2.chans.contains bridge.ircChannel then some entry.2 else none).foldl
      (retireClient env bridge) state

/-- `AddBridge`. -/
def addBridge (bridge : Bridge) (state : State) : State :=
  { state with
    bridges := state.bridges ++ [{ bridge with id := state.nextBridge }]
    nextBridge := state.nextBridge + 1 }

/-- `DropBridge`. -/
def dropBridge (env : Env) (bridge : Bridge) (state : State) : State :=
  pruneChannels env
    (releaseNicks env bridge
      { state with bridges := state.bridges.filter fun other => other.id ≠ bridge.id })

/-- `CheckBridgeArgs`: the protocol of a bridge that may be made. -/
def checkBridgeArgs (env : Env) (space channel suffix : Str) : Option Str :=
  (env.findProtocol env.defaultProtocol).filter fun _ =>
    env.isValidId space && env.isValidId channel && env.isSuffixValid suffix

/-- The bridge that `CommandBSAdd` makes. -/
def newBridge (protocol ircChannel space foreignChannel suffix : Str) : Bridge where
  id := 0
  protocol := protocol
  ircChannel := ircChannel
  space := space
  foreignChannel := foreignChannel
  nickSuffix := suffix
  reserved := []

/-- What `CommandBSSet` writes to a bridge. -/
def pointed (protocol space foreignChannel suffix : Str) (bridge : Bridge) : Bridge :=
  { bridge with protocol, space, foreignChannel, nickSuffix := suffix }

/-! ## Actions -/

/-- What calls the service, and what happens on IRC without it. -/
inductive Action where
  /-- `CommandBSAdd`. -/
  | add (ircChannel space foreignChannel suffix : Str)
  /-- `CommandBSSet`. -/
  | set (ircChannel space foreignChannel suffix : Str)
  /-- `CommandBSDel`. -/
  | del (ircChannel : Str)
  /-- `BridgeType::Unserialize` of a bridge that is not loaded yet. -/
  | load (row : Bridge)
  /-- `BridgeType::Unserialize` of a bridge that is loaded. -/
  | update (row : Bridge)
  /-- A message or a reaction of a remote user, or its place in the roster: `EnsureClient` and
  `EnsureJoin`. -/
  | arrive (bridge : Nat) (userId display : Str) (naming : Naming)
  /-- Typing, or a reaction that is taken back: `FindClient` and `EnsureJoin`. -/
  | appear (bridge : Nat) (userId : Str)
  /-- `RemoveMember`, for a bridge of the space. -/
  | leave (bridge : Nat) (userId : Str)
  /-- `SetPresence`, for a bridge of the space. -/
  | presence (bridge : Nat) (userId : Str) (away : Bool)
  /-- The domain of a protocol changed: `RemoveAllClients`. -/
  | removeAll
  /-- A user quits: idle, killed, or with its server. -/
  | quit (user : Nat)
  /-- A user is taken out of a channel by IRC. -/
  | part (user : Nat) (name : Str)
  /-- IRC changes the nickname of a user. -/
  | nick (user : Nat) (nick : Str)
  /-- Somebody on IRC makes a channel. -/
  | create (name : Str)
  /-- A channel goes away with the last of its users. -/
  | destroy (name : Str)
  /-- The uplink is lost. -/
  | split
  /-- `OnUplinkSync`. -/
  | sync
  deriving DecidableEq, Repr

/-- A bridge of the service by its number. -/
def findBridge (state : State) (id : Nat) : Option Bridge :=
  state.bridges.find? fun bridge => bridge.id = id

/-- What a remote user does on a bridge: `EnsureClient`, and `EnsureJoin` for its client. -/
def arrive (env : Env) (bridge : Bridge) (userId display : Str) (naming : Naming)
    (state : State) : State :=
  match clientKey env bridge userId with
  | none => state
  | some key =>
      let ensured := ensureClient env bridge key userId display naming state
      if ensured.2 then ensureJoin env key bridge.ircChannel ensured.1 else ensured.1

/-- What is done with the client of a remote user, if there is one. -/
def withClient (env : Env) (state : State) (bridge : Bridge) (userId : Str)
    (change : BridgeClient → State) : State :=
  match findClient env state bridge userId with
  | none => state
  | some client => change client

/-- What an action does.  A command that is refused does nothing. -/
def act (env : Env) (state : State) : Action → Option State
  | .add ircChannel space foreignChannel suffix =>
      match checkBridgeArgs env space foreignChannel suffix with
      | none => some state
      | some protocol =>
          if env.isChannelValid ircChannel ∧ (findIrc env state ircChannel).isNone ∧
              (findRemote env state protocol foreignChannel).isNone then
            some (addBridge (newBridge protocol ircChannel space foreignChannel suffix) state)
          else some state
  | .set ircChannel space foreignChannel suffix =>
      match findIrc env state ircChannel, checkBridgeArgs env space foreignChannel suffix with
      | some bridge, some protocol =>
          if ((findRemote env state protocol foreignChannel).all fun other =>
              other.id = bridge.id) = true then
            some (retireClients env bridge
              (state.modifyBridge bridge.id (pointed protocol space foreignChannel suffix)))
          else some state
      | _, _ => some state
  | .del ircChannel =>
      match findIrc env state ircChannel with
      | none => some state
      | some bridge => some (dropBridge env bridge state)
  | .load row =>
      if row.ircChannel = [] ∨ row.space = [] ∨ row.foreignChannel = [] ∨
          (findIrc env state row.ircChannel).isSome then some state
      else some (addBridge row state)
  | .update row =>
      if row.ircChannel = [] ∨ row.space = [] ∨ row.foreignChannel = [] then some state
      else some (state.modifyBridge row.id fun _ => row)
  | .arrive id userId display naming =>
      (findBridge state id).map fun bridge => arrive env bridge userId display naming state
  | .appear id userId =>
      (findBridge state id).map fun bridge =>
        withClient env state bridge userId fun client =>
          ensureJoin env client.key bridge.ircChannel state
  | .leave id userId =>
      (findBridge state id).map fun bridge =>
        withClient env state bridge userId fun client => removeClient client state
  | .presence id userId away =>
      (findBridge state id).map fun bridge =>
        withClient env state bridge userId fun client => setClientAway client away state
  | .removeAll => some (removeAllClients state)
  | .quit user => some (quitUser user state)
  | .part user name => some (leaveChannel env user name state)
  | .nick user nick =>
      some { state with
        clients := Library.Table.mapValues (fun _ client =>
          { client with
            user := client.user.map fun held =>
              if held.id = user then held.changeNick nick else held }) state.clients }
  | .create name =>
      if (state.channels.lookup (env.casemap.ciStr name)).isNone then
        some { state with channels := state.channels.insert (env.casemap.ciStr name) ⟨name, []⟩ }
      else none
  | .destroy name =>
      if (state.channels.lookup (env.casemap.ciStr name)).all fun channel => channel.users = []
      then some { state with channels := state.channels.erase (env.casemap.ciStr name) }
      else none
  | .split => some { state with synced := false }
  | .sync =>
      some (state.bridges.foldl (fun state bridge =>
        bridge.reserved.foldl (fun state nick => sendReservation env (.add nick) state) state)
          { state with synced := true })

/-- An action starts with nothing sent. -/
def step (env : Env) (state : State) (action : Action) : Option State :=
  act env { state with sent := [] } action

end Anope.BridgeServ
