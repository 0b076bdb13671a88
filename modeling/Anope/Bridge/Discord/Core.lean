import Anope.Bridge.Mailbox
import Anope.Library.Run
import Anope.Text.Casemap

/-!
# The Discord side of a bridge

`DiscordProtocol`: the webhooks that bridges post through, the calls of the API that set them up,
and the mailbox through which the Discord thread hands the results over.  Both threads are here,
and so are the calls under way and the messages that Discord has made of them, so that an
interleaving is a list of events.

What neither thread decides is given with an event: the answer to a call, the text that a message
comes to when it is rendered, and whether a message from Discord has a client on IRC.
-/

namespace Anope.Discord

open Anope.Text

/-- `Bridge`, with its endpoint.  The number tells the objects apart, as their addresses do. -/
structure Bridge where
  id : Nat
  protocol : Str
  ircChannel : Str
  space : Str
  foreignChannel : Str
  endpointId : Str
  endpointToken : Str
  endpointPending : Bool
  /-- The number of the request that `endpointPending` was set for. -/
  endpointRequest : Nat
  endpointRetryAt : Int
  endpointFailedAt : Int
  endpointFailures : Nat
  deriving DecidableEq, Repr

/-- `dpp::webhook`. -/
structure Webhook where
  id : Str
  token : Str
  name : Str
  deriving DecidableEq, Repr

/-- `dpp::message`. -/
structure Message where
  id : Str
  webhookId : Str
  authorId : Str
  channelId : Str
  /-- The parent of the channel, when it is cached and has one. -/
  parentId : Str
  guildId : Str
  /-- What `RenderMessage` makes of it. -/
  text : Str
  /-- Whether services posted it. -/
  own : Bool
  deriving DecidableEq, Repr

/-- A call of the API, with what its callback has captured.  Calls are numbered; creating a
webhook goes on with the number of the listing. -/
inductive Request where
  | getChannelWebhooks (number : Nat) (key channel wanted : Str)
  | createWebhook (number : Nat) (key channel : Str) (hookChannel hookName : Str)
  | deleteWebhook (number : Nat) (key hook : Str)
  | executeWebhook (number : Nat) (key : Str) (hook token text ircMsgid : Str)
  | messageCreate (number : Nat) (channel text ircMsgid : Str)
  deriving DecidableEq, Repr

/-- What a callback is given. -/
inductive Reply where
  | error (status : UInt16)
  /-- A body that is not what was asked for. -/
  | malformed
  | webhooks (hooks : List Webhook)
  | webhook (hook : Webhook)
  | message
  deriving DecidableEq, Repr

/-- `Mailbox::Job`, with what the function has captured.  Texts that are only logged are left
out. -/
inductive Job where
  | onWebhookReady (number : Nat) (key channel id token : Str)
  | onWebhookFailed (number : Nat) (key : Str)
  | createWebhook (number : Nat) (key channel : Str)
  /-- `OnWebhookSendFailed`, and the webhook that was posted through. -/
  | onWebhookSendFailed (key : Str) (status : UInt16) (through : Str)
  | relayToIrc (message : Message) (channel : Str) (edit : Bool)
  | onReady
  | onStopped
  /-- A job that does not look at endpoints: a line of the log, a link, a roster. -/
  | other
  deriving DecidableEq, Repr

/-- What does not change. -/
structure Env where
  casemap : Casemap
  /-- The user that a token logs in as. -/
  account : Str → Str
  /-- Whether a call of the API throws. -/
  throws : Request → Bool
  isChannelValid : Str → Bool
  /-- Whether `CheckBridgeArgs` takes this space and this channel. -/
  checkBridgeArgs : Str → Str → Bool
  relayEdits : Bool

/-- An API that never throws, with commands that take everything. -/
def Env.lenient : Env where
  casemap := .ascii
  account := id
  throws := fun _ => false
  isChannelValid := fun _ => true
  checkBridgeArgs := fun _ _ => true
  relayEdits := true

/-! ## The filter -/

/-- `DiscordFilter`, with its sets as lists. -/
structure Filter where
  bridgedChannels : List Str
  ownWebhookIds : List Str
  ownUserId : Str
  deriving DecidableEq, Repr

namespace Filter

/-- `IsBridged`. -/
def isBridged (filter : Filter) (channelId : Str) : Bool :=
  filter.bridgedChannels.contains channelId

/-- `IsOwnWebhook`. -/
def isOwnWebhook (filter : Filter) (webhookId : Str) : Bool :=
  if webhookId = [] ∨ webhookId = ascii "0" then false
  else filter.ownWebhookIds.contains webhookId

/-- `AddOwnWebhook`. -/
def addOwnWebhook (webhookId : Str) (filter : Filter) : Filter :=
  if webhookId = [] ∨ webhookId = ascii "0" then filter
  else { filter with ownWebhookIds := webhookId :: filter.ownWebhookIds }

/-- `DelOwnWebhook`. -/
def delOwnWebhook (webhookId : Str) (filter : Filter) : Filter :=
  { filter with ownWebhookIds := filter.ownWebhookIds.filter fun other => other ≠ webhookId }

/-- `IsSelf`. -/
def isSelf (filter : Filter) (userId : Str) : Bool :=
  if userId = [] ∨ userId = ascii "0" then false else decide (filter.ownUserId = userId)

/-- `BridgedChannel`. -/
def bridgedChannel (filter : Filter) (message : Message) : Str :=
  if filter.isBridged message.channelId then message.channelId
  else if message.parentId ≠ [] ∧ filter.isBridged message.parentId = true then message.parentId
  else []

/-- `HandleMessage`, as the job that it posts. -/
def handleMessage (filter : Filter) (message : Message) (edit : Bool) : Option Job :=
  let channelId := filter.bridgedChannel message
  if channelId = [] then none
  else if filter.isOwnWebhook message.webhookId || filter.isSelf message.authorId then none
  else if message.text = [] then none
  else some (.relayToIrc message channelId edit)

end Filter

/-! ## The state -/

/-- Services and Discord. -/
structure State where
  curTime : Int
  bridges : List Bridge
  nextBridge : Nat
  nextRequest : Nat
  token : Str
  usePresence : Bool
  webhookName : Str
  /-- `cluster`, as the user that it is logged in as. -/
  cluster : Option Str
  connected : Bool
  mailbox : Anope.Bridge.Mailbox Job
  filter : Filter
  /-- The calls of the API that have not been answered. -/
  inFlight : List Request
  /-- The messages that Discord has made for services. -/
  posted : List Message
  /-- The messages that `RelayToIrc` has sent to IRC. -/
  relayed : List Message

namespace State

/-- `DiscordProtocol`, as it is constructed. -/
def initial (curTime : Int) : State where
  curTime := curTime
  bridges := []
  nextBridge := 0
  nextRequest := 0
  token := []
  usePresence := false
  webhookName := []
  cluster := none
  connected := false
  mailbox := .new true 4096
  filter := ⟨[], [], []⟩
  inFlight := []
  posted := []
  relayed := []

/-- The bridge of this number. -/
def findBridge (state : State) (id : Nat) : Option Bridge :=
  state.bridges.find? fun bridge => bridge.id = id

/-- Change the bridge of this number. -/
def modifyBridge (id : Nat) (change : Bridge → Bridge) (state : State) : State :=
  { state with
    bridges := state.bridges.map fun bridge => if bridge.id = id then change bridge else bridge }

/-- `Post`. -/
def post (job : Job) (state : State) : State :=
  { state with mailbox := (state.mailbox.post job).2 }

/-- A call of the API that does not throw. -/
def send (request : Request) (state : State) : State :=
  { state with inFlight := state.inFlight ++ [request], nextRequest := state.nextRequest + 1 }

/-- `this->cluster && this->connected`. -/
def isUp (state : State) : Bool :=
  state.cluster.isSome && state.connected

end State

/-- `FindIrc`. -/
def findIrc (env : Env) (state : State) (ircChannel : Str) : Option Bridge :=
  state.bridges.find? fun bridge => env.casemap.equalsCi bridge.ircChannel ircChannel

/-- `FindRemote`. -/
def findRemote (env : Env) (state : State) (protocol channel : Str) : Option Bridge :=
  state.bridges.find? fun bridge =>
    env.casemap.equalsCi bridge.protocol protocol &&
      env.casemap.equalsCi bridge.foreignChannel channel

/-- `bridge->protocol.equals_ci(this->GetName())`. -/
def isDiscord (env : Env) (bridge : Bridge) : Bool :=
  env.casemap.equalsCi bridge.protocol (ascii "discord")

/-- Run something for each bridge of the protocol. -/
def forBridges (env : Env) (body : Bridge → State → State) (state : State) : State :=
  (state.bridges.map Bridge.id).foldl (fun state id =>
    match state.findBridge id with
    | none => state
    | some bridge => if isDiscord env bridge then body bridge state else state) state

/-! ## Webhooks -/

/-- `OnWebhookFailed`. -/
def onWebhookFailed (env : Env) (key : Str) (state : State) : State :=
  match findIrc env state key with
  | none => state
  | some bridge =>
      state.modifyBridge bridge.id fun bridge =>
        { bridge with endpointPending := false, endpointRetryAt := state.curTime + 60 }

/-- `EnsureWebhook`, after its checks. -/
def requestWebhook (env : Env) (bridge : Bridge) (state : State) : State :=
  let marked := state.modifyBridge bridge.id fun bridge =>
    { bridge with endpointPending := true, endpointRequest := state.nextRequest }
  let request := .getChannelWebhooks state.nextRequest bridge.ircChannel bridge.foreignChannel
    state.webhookName
  if env.throws request then onWebhookFailed env bridge.ircChannel marked
  else marked.send request

/-- `EnsureWebhook`. -/
def ensureWebhook (env : Env) (id : Nat) (state : State) : State :=
  match state.findBridge id with
  | none => state
  | some bridge =>
      if !state.isUp then state
      else if bridge.endpointId ≠ [] ∨ bridge.endpointPending = true then state
      else if state.curTime < bridge.endpointRetryAt then state
      else requestWebhook env bridge state

/-- The pending guard is released, so that the channel that the bridge points at now is set up. -/
def releaseWebhook (env : Env) (id : Nat) (state : State) : State :=
  ensureWebhook env id
    (state.modifyBridge id fun bridge => { bridge with endpointPending := false })

/-- `CreateWebhook`. -/
def createWebhook (env : Env) (number : Nat) (key channel : Str) (state : State) : State :=
  match findIrc env state key with
  | none => state
  | some bridge =>
      if !env.casemap.equalsCi bridge.foreignChannel channel then
        releaseWebhook env bridge.id state
      else if !state.isUp then onWebhookFailed env key state
      else
        let request := .createWebhook number key channel bridge.foreignChannel state.webhookName
        if env.throws request then onWebhookFailed env key state else state.send request

/-- `OnWebhookReady`. -/
def onWebhookReady (env : Env) (key channel id token : Str) (state : State) : State :=
  match findIrc env state key with
  | none => state
  | some bridge =>
      if !env.casemap.equalsCi bridge.foreignChannel channel then
        releaseWebhook env bridge.id state
      else
        let ready := state.modifyBridge bridge.id fun bridge =>
          { bridge with
            endpointPending := false
            endpointRetryAt := 0
            endpointId := id
            endpointToken := token }
        { ready with filter := ready.filter.addOwnWebhook id }

/-- Whether a post fails because the webhook is gone or its token is revoked. -/
def isUnusable (status : UInt16) : Bool :=
  status == 401 || status == 403 || status == 404

/-- What `OnWebhookSendFailed` makes of the bridge. -/
def discarded (curTime : Int) (bridge : Bridge) : Bridge :=
  let failures := (if 300 < curTime - bridge.endpointFailedAt then 0
    else bridge.endpointFailures) + 1
  { bridge with
    endpointFailures := failures
    endpointFailedAt := curTime
    endpointId := []
    endpointToken := []
    endpointPending := false
    endpointRetryAt := if 1 < failures then curTime + 60 else 0 }

/-- `OnWebhookSendFailed`. -/
def onWebhookSendFailed (env : Env) (key : Str) (status : UInt16) (state : State) : State :=
  match findIrc env state key with
  | none => state
  | some bridge =>
      if isUnusable status then
        ensureWebhook env bridge.id
          { state.modifyBridge bridge.id (discarded state.curTime) with
            filter := state.filter.delOwnWebhook bridge.endpointId }
      else state

/-- `OnReady`. -/
def onReady (env : Env) (state : State) : State :=
  forBridges env (fun bridge state =>
    ensureWebhook env bridge.id
      (state.modifyBridge bridge.id fun bridge => { bridge with endpointRetryAt := 0 }))
    { state with connected := true }

/-- `OnStopped`. -/
def onStopped (state : State) : State :=
  { state with connected := false }

/-! ## Bridges -/

/-- The call that deletes a webhook; an exception is only logged. -/
def deleteWebhook (env : Env) (bridge : Bridge) (state : State) : State :=
  let request := .deleteWebhook state.nextRequest bridge.ircChannel bridge.endpointId
  if env.throws request then state else state.send request

/-- `OnBridgeRemoved`. -/
def onBridgeRemoved (env : Env) (bridge : Bridge) (state : State) : State :=
  if bridge.endpointId = [] then state
  else
    let forgotten := { state with filter := state.filter.delOwnWebhook bridge.endpointId }
    (if forgotten.isUp then deleteWebhook env bridge forgotten
      else forgotten).modifyBridge bridge.id
      fun bridge =>
        { bridge with
          endpointId := []
          endpointToken := []
          endpointPending := false
          endpointRetryAt := 0 }

/-- The filter that `OnBridgesChanged` sets. -/
def refreshFilter (env : Env) (state : State) : State :=
  let own := state.bridges.filter (isDiscord env)
  { state with
    filter := { state.filter with
      bridgedChannels := own.map Bridge.foreignChannel
      ownWebhookIds := (own.map Bridge.endpointId).filter fun id => id ≠ [] } }

/-- `OnBridgesChanged`. -/
def onBridgesChanged (env : Env) (state : State) : State :=
  let refreshed := refreshFilter env state
  if refreshed.connected then
    forBridges env (fun bridge state => ensureWebhook env bridge.id state) refreshed
  else refreshed

/-- `AddBridge`. -/
def addBridge (env : Env) (bridge : Bridge) (state : State) : State :=
  onBridgesChanged env { state with
    bridges := state.bridges ++ [{ bridge with id := state.nextBridge }]
    nextBridge := state.nextBridge + 1 }

/-- `DropBridge`. -/
def dropBridge (env : Env) (bridge : Bridge) (state : State) : State :=
  let erased := { state with bridges := state.bridges.filter fun other => other.id ≠ bridge.id }
  onBridgesChanged env (if isDiscord env bridge then onBridgeRemoved env bridge erased else erased)

/-- A `Bridge` as it is constructed. -/
def newBridge (protocol ircChannel space foreignChannel : Str) : Bridge where
  id := 0
  protocol := protocol
  ircChannel := ircChannel
  space := space
  foreignChannel := foreignChannel
  endpointId := []
  endpointToken := []
  endpointPending := false
  endpointRequest := 0
  endpointRetryAt := 0
  endpointFailedAt := 0
  endpointFailures := 0

/-- `CommandBSAdd::Execute`. -/
def add (env : Env) (ircChannel space foreignChannel : Str) (state : State) : State :=
  if env.isChannelValid ircChannel && env.checkBridgeArgs space foreignChannel &&
      (findIrc env state ircChannel).isNone &&
      (findRemote env state (ascii "discord") foreignChannel).isNone then
    addBridge env (newBridge (ascii "discord") ircChannel space foreignChannel) state
  else state

/-- `CommandBSSet::Execute` of the bridge that it finds. -/
def point (env : Env) (bridge : Bridge) (space foreignChannel : Str) (state : State) : State :=
  let freed :=
    if !env.casemap.equalsCi bridge.foreignChannel foreignChannel && isDiscord env bridge then
      onBridgeRemoved env bridge state
    else state
  onBridgesChanged env (freed.modifyBridge bridge.id fun bridge =>
    { bridge with protocol := ascii "discord", space, foreignChannel })

/-- `CommandBSSet::Execute`. -/
def set (env : Env) (ircChannel space foreignChannel : Str) (state : State) : State :=
  match findIrc env state ircChannel with
  | none => state
  | some bridge =>
      if env.checkBridgeArgs space foreignChannel &&
          (findRemote env state (ascii "discord") foreignChannel).all fun other =>
            other.id = bridge.id then
        point env bridge space foreignChannel state
      else state

/-- `CommandBSDel::Execute`. -/
def del (env : Env) (ircChannel : Str) (state : State) : State :=
  match findIrc env state ircChannel with
  | none => state
  | some bridge => dropBridge env bridge state

/-- The columns of a row. -/
structure Row where
  protocol : Str
  space : Str
  foreignChannel : Str
  endpointId : Str
  endpointToken : Str
  deriving DecidableEq, Repr

/-- What `Unserialize` writes over a bridge; a row without a protocol is of this one. -/
def Row.fill (row : Row) (bridge : Bridge) : Bridge :=
  { bridge with
    protocol := if row.protocol = [] then ascii "discord" else row.protocol
    space := row.space
    foreignChannel := row.foreignChannel
    endpointId := row.endpointId
    endpointToken := row.endpointToken }

/-- `Unserialize` of a row that has no bridge yet. -/
def load (env : Env) (ircChannel : Str) (row : Row) (state : State) : State :=
  if ircChannel = [] ∨ row.space = [] ∨ row.foreignChannel = [] then state
  else if (findIrc env state ircChannel).isSome then state
  else addBridge env (row.fill (newBridge [] ircChannel [] [])) state

/-- `Unserialize` of the row of a bridge.  Services wrote the row, and no bridge changes its
channel on IRC. -/
def update (env : Env) (id : Nat) (row : Row) (state : State) : State :=
  if row.space = [] ∨ row.foreignChannel = [] then state
  else onBridgesChanged env (state.modifyBridge id row.fill)

/-! ## The connection -/

/-- `StopCluster`: a completion that was in flight never arrives. -/
def stopCluster (state : State) : State :=
  { state with connected := false, cluster := none, inFlight := [] }

/-- `StartCluster`. -/
def startCluster (env : Env) (state : State) : State :=
  if state.cluster.isSome then state
  else if state.token = [] then state
  else
    { state with
      bridges := state.bridges.map fun bridge =>
        if isDiscord env bridge then { bridge with endpointPending := false } else bridge
      cluster := some (env.account state.token) }

/-- Whether `Configure` starts the cluster anew. -/
def restarts (state : State) (token : Str) (usePresence : Bool) : Bool :=
  token ≠ state.token || usePresence != state.usePresence || state.cluster.isNone

/-- `Configure` replaces the webhooks that carry the old name. -/
def replaceWebhooks (env : Env) (state : State) : State :=
  forBridges env (fun bridge state =>
    if bridge.endpointId = [] then state
    else ensureWebhook env bridge.id (onBridgeRemoved env bridge state)) state

/-- `Configure`, and the `BridgesChanged` at the end of a reload.  The name is not empty. -/
def configure (env : Env) (token name : Str) (usePresence : Bool) (state : State) : State :=
  let named := { state with webhookName := name }
  let started :=
    if restarts named token usePresence then
      startCluster env { stopCluster named with token := token, usePresence := usePresence }
    else named
  onBridgesChanged env <|
    if state.webhookName ≠ [] && state.webhookName ≠ name && started.isUp then
      replaceWebhooks env started
    else started

/-! ## Messages -/

/-- `Relay`, with what the line is rendered to. -/
def relay (env : Env) (bridge : Bridge) (text ircMsgid : Str) (state : State) : State :=
  if !state.isUp then state
  else if text = [] then state
  else
    let hooked := .executeWebhook state.nextRequest bridge.ircChannel bridge.endpointId
      bridge.endpointToken text ircMsgid
    if bridge.endpointId ≠ [] ∧ env.throws hooked = false then state.send hooked
    else
      -- no usable webhook: the bot account posts it, and a webhook is set up for the next one
      let fallback := .messageCreate state.nextRequest bridge.foreignChannel text ircMsgid
      ensureWebhook env bridge.id (if env.throws fallback then state else state.send fallback)

/-- `Notice`, with what the event is rendered to; nothing waits for the message. -/
def notice (env : Env) (bridge : Bridge) (text : Str) (state : State) : State :=
  if !state.isUp then state
  else if text = [] then state
  else
    let request := .messageCreate state.nextRequest bridge.foreignChannel text []
    if env.throws request then state else state.send request

/-- `RelayToIrc`, which needs a client for the author, and for an edit the message before it. -/
def relayToIrc (env : Env) (message : Message) (channel : Str) (edit delivered : Bool)
    (state : State) : State :=
  match findRemote env state (ascii "discord") channel with
  | none => state
  | some bridge =>
      if bridge.ircChannel = [] then state
      else if message.guildId ≠ [] ∧ message.guildId ≠ ascii "0" ∧
          env.casemap.equalsCi bridge.space message.guildId = false then state
      else if message.text = [] ∨ (edit = true ∧ env.relayEdits = false) then state
      else if delivered then { state with relayed := state.relayed ++ [message] }
      else state

/-- A job. -/
def runJob (env : Env) (delivered : Bool) (job : Job) (state : State) : State :=
  match job with
  | .onWebhookReady _ key channel id token => onWebhookReady env key channel id token state
  | .onWebhookFailed _ key => onWebhookFailed env key state
  | .createWebhook number key channel => createWebhook env number key channel state
  | .onWebhookSendFailed key status _ => onWebhookSendFailed env key status state
  | .relayToIrc message channel edit => relayToIrc env message channel edit delivered state
  | .onReady => onReady env state
  | .onStopped => onStopped state
  | .other => state

/-! ## What Discord does -/

/-- The job that the callback of a call posts. -/
def Request.completed : Request → Reply → Option Job
  | .getChannelWebhooks number key channel wanted, .webhooks hooks =>
      match hooks.find? fun hook => hook.name = wanted ∧ hook.token ≠ [] with
      | none => some (.createWebhook number key channel)
      | some hook =>
          if hook.id = [] then some (.createWebhook number key channel)
          else some (.onWebhookReady number key channel hook.id hook.token)
  | .getChannelWebhooks number key _ _, _ => some (.onWebhookFailed number key)
  | .createWebhook number key channel _ _, .webhook hook =>
      some (.onWebhookReady number key channel hook.id hook.token)
  | .createWebhook number key _ _ _, _ => some (.onWebhookFailed number key)
  | .deleteWebhook _ _ _, .error _ => some .other
  | .deleteWebhook _ _ _, _ => none
  | .executeWebhook _ key hook _ _ _, .error status => some (.onWebhookSendFailed key status hook)
  | .executeWebhook _ _ _ _ _ ircMsgid, .message => if ircMsgid = [] then none else some .other
  | .executeWebhook _ _ _ _ _ _, _ => none
  | .messageCreate _ _ _ ircMsgid, .message => if ircMsgid = [] then none else some .other
  | .messageCreate _ _ _ _, _ => none

theorem Request.completed_webhooks (number : Nat) (key channel wanted : Str)
    (hooks : List Webhook) :
    (Request.getChannelWebhooks number key channel wanted).completed (.webhooks hooks) =
      match hooks.find? fun hook => hook.name = wanted ∧ hook.token ≠ [] with
      | none => some (.createWebhook number key channel)
      | some hook =>
          if hook.id = [] then some (.createWebhook number key channel)
          else some (.onWebhookReady number key channel hook.id hook.token) :=
  rfl

theorem Request.completed_executeWebhook (number : Nat) (key hook token text ircMsgid : Str) :
    (Request.executeWebhook number key hook token text ircMsgid).completed .message =
      if ircMsgid = [] then none else some .other :=
  rfl

theorem Request.completed_messageCreate (number : Nat) (channel text ircMsgid : Str) :
    (Request.messageCreate number channel text ircMsgid).completed .message =
      if ircMsgid = [] then none else some .other :=
  rfl

/-- Where Discord puts a message. -/
structure Place where
  id : Str
  channelId : Str
  parentId : Str
  guildId : Str
  deriving DecidableEq, Repr

/-- The message that Discord makes of a call: the author of one through a webhook is the webhook,
and of another the user that is logged in. -/
def Request.message (account : Str) (place : Place) : Request → Option Message
  | .executeWebhook _ _ hook _ text _ =>
      some ⟨place.id, hook, hook, place.channelId, place.parentId, place.guildId, text, true⟩
  | .messageCreate _ _ text _ =>
      some ⟨place.id, ascii "0", account, place.channelId, place.parentId, place.guildId, text,
        true⟩
  | _ => none

/-- What happens on the Discord thread. -/
inductive Signal where
  /-- The answer to a call. -/
  | answer (index : Nat) (reply : Reply)
  /-- Discord makes a message of a call. -/
  | accept (index : Nat) (place : Place)
  /-- The gateway tells of a message that services posted. -/
  | echo (index : Nat) (edit : Bool)
  /-- The gateway tells of a message of somebody else. -/
  | message (message : Message) (edit : Bool)
  /-- The gateway says hello; its event may lack the bot account. -/
  | ready (owner : Bool)
  /-- `start` throws. -/
  | stopped
  /-- Anything else that posts a job. -/
  | other
  deriving DecidableEq, Repr

/-- The state after a signal, but for the job that it posts. -/
def receive (state : State) : Signal → Option (State × Option Job)
  | .answer index reply =>
      (state.inFlight[index]?).map fun request =>
        ({ state with inFlight := state.inFlight.eraseIdx index }, request.completed reply)
  | .accept index place =>
      state.cluster.bind fun account =>
        (state.inFlight[index]?).bind fun request =>
          (request.message account place).map fun message =>
            ({ state with posted := state.posted ++ [message] }, none)
  | .echo index edit =>
      state.cluster.bind fun _ =>
        (state.posted[index]?).map fun message =>
          (state, state.filter.handleMessage message edit)
  | .message message edit =>
      state.cluster.map fun _ =>
        (state, state.filter.handleMessage { message with own := false } edit)
  | .ready owner =>
      state.cluster.map fun account =>
        (if owner then { state with filter := { state.filter with ownUserId := account } }
          else state, some .onReady)
  | .stopped => state.cluster.map fun _ => (state, some .onStopped)
  | .other => state.cluster.map fun _ => (state, some .other)

/-! ## Events -/

/-- What either thread does. -/
inductive Event where
  /-- A turn of the loop of `OnNotify`. -/
  | notify (delivered : Bool)
  /-- A line that `OnPrivmsg` takes from IRC. -/
  | relay (ircChannel text ircMsgid : Str)
  /-- An event on IRC that `RelayEvent` tells of. -/
  | relayEvent (ircChannel text : Str)
  | add (ircChannel space foreignChannel : Str)
  | set (ircChannel space foreignChannel : Str)
  | del (ircChannel : Str)
  | load (ircChannel : Str) (row : Row)
  | update (id : Nat) (row : Row)
  | configure (token name : Str) (usePresence : Bool)
  /-- `BridgesChanged` alone, as after a synchronisation. -/
  | bridgesChanged
  | setTime (curTime : Int)
  | discord (signal : Signal)
  deriving DecidableEq, Repr

/-- Something for the protocol to do with the bridge of a channel on IRC. -/
def withProtocol (env : Env) (ircChannel : Str) (body : Bridge → State → State) (state : State) :
    State :=
  match findIrc env state ircChannel with
  | none => state
  | some bridge => if isDiscord env bridge then body bridge state else state

/-- A job that may not be there. -/
def State.postAny (job : Option Job) (state : State) : State :=
  match job with
  | none => state
  | some job => state.post job

/-- A turn of the loop of `OnNotify`. -/
def notify (env : Env) (delivered : Bool) (state : State) : State :=
  match state.mailbox.pop with
  | (none, mailbox) => { state with mailbox := mailbox.takeDropped.2 }
  | (some job, mailbox) => runJob env delivered job { state with mailbox }

/-- One event; there is none where Discord has nothing to tell of. -/
def step (env : Env) (state : State) : Event → Option State
  | .notify delivered => some (notify env delivered state)
  | .relay ircChannel text ircMsgid =>
      some (withProtocol env ircChannel (fun bridge => relay env bridge text ircMsgid) state)
  | .relayEvent ircChannel text =>
      some (withProtocol env ircChannel (fun bridge => notice env bridge text) state)
  | .add ircChannel space foreignChannel => some (add env ircChannel space foreignChannel state)
  | .set ircChannel space foreignChannel => some (set env ircChannel space foreignChannel state)
  | .del ircChannel => some (del env ircChannel state)
  | .load ircChannel row => some (load env ircChannel row state)
  | .update id row => some (update env id row state)
  | .configure token name usePresence => some (configure env token name usePresence state)
  | .bridgesChanged => some (onBridgesChanged env state)
  | .setTime curTime => some { state with curTime }
  | .discord signal => (receive state signal).map fun (after, job) => after.postAny job

/-- A bridge is added, the cluster is started, and the webhooks of the channel are asked for. -/
def opening : List Event :=
  [.add (ascii "#a") (ascii "1") (ascii "2"), .configure (ascii "t") (ascii "n") false,
    .discord (.ready true), .notify true]

end Anope.Discord
