import Anope.Inspircd.Core

/-!
# The handlers of the InspIRCd module

`Run` of every message handler that the module defines.
-/

namespace Anope.Inspircd

open Anope.Text
open Anope.Text.Convert
open Anope.Text.Match (globMatch)
open Library.Scan
open Library.Split (tokens)

section Handlers

variable {υ σ χ κ : Type} (env : Env υ σ χ κ) (source : Source υ σ) (params : List Str)
  (tags : Str → Option Str)

/-- `params.size() > index ? params[index] : ""`. -/
def optional (index : Nat) : Result Str :=
  if index < params.length then param params index else return []

/-! ## Users -/

/-- `IRCDMessageAway::Run`. -/
def away : Result (List (Call υ σ χ κ)) := do
  let u ← deref source.user
  if params.length = 2 then
    let message ← param params 1
    let text ← param params 0
    let ts ← extractTimestamp text
    return [.setAway u (some (message, ts))]
  else return [.setAway u none]

/-- What `CHGHOST`, `CHGIDENT` and `CHGNAME` do with a user of ours. -/
def change (calls : υ → Str → List (Call υ σ χ κ)) : Result (List (Call υ σ χ κ)) := do
  let target ← param params 0
  match env.findUser target with
  | none => return []
  | some u =>
      if env.isMine u then
        let value ← param params 1
        return calls u value
      else return []

/-- `IRCDMessageChgHost::Run`. -/
def chgHost : Result (List (Call υ σ χ κ)) :=
  change env params fun u host => [.setDisplayedHost u host, .sendOf u (ascii "FHOST")]

/-- `IRCDMessageChgIdent::Run`. -/
def chgIdent : Result (List (Call υ σ χ κ)) :=
  change env params fun u ident => [.setIdent u ident, .sendOf u (ascii "FIDENT")]

/-- `IRCDMessageChgName::Run`. -/
def chgName : Result (List (Call υ σ χ κ)) :=
  change env params fun u realname => [.setRealname u realname, .sendOf u (ascii "FNAME")]

/-- The part of `FHOST` that is about the displayed host. -/
def showHost (host : Str) : Result (List (Call υ σ χ κ)) :=
  if host = ascii "*" then return []
  else do
    let u ← deref source.user
    if env.hasMode u (ascii "CLOAK") then
      return [.removeModeInternal u (ascii "CLOAK"), .setDisplayedHost u host]
    else return [.setDisplayedHost u host]

/-- `IRCDMessageFHost::Run`. -/
def fHost : Result (List (Call υ σ χ κ)) := do
  let host ← param params 0
  let displayed ← showHost env source host
  if 1 < params.length then
    let real ← param params 1
    if real = ascii "*" then return displayed
    else
      let u ← deref source.user
      return displayed ++ [.setHost u real]
  else return displayed

/-- `IRCDMessageFIdent::Run`. -/
def fIdent : Result (List (Call υ σ χ κ)) := do
  let ident ← param params 0
  if ident = ascii "*" then return []
  else
    let u ← deref source.user
    return [.setIdent u ident]

/-- `IRCDMessageFName::Run`. -/
def fName : Result (List (Call υ σ χ κ)) := do
  let u ← deref source.user
  let realname ← param params 0
  return [.setRealname u realname]

/-- `IRCDMessageNick::Run`. -/
def nick : Result (List (Call υ σ χ κ)) := do
  let u ← deref source.user
  let newNick ← param params 0
  return [.changeNick u newNick]

/-- `IRCDMessageOperType::Run`. -/
def operType : Result (List (Call υ σ χ κ)) := do
  let u ← deref source.user
  let opers := if env.hasMode u (ascii "OPER") then [] else [Call.setUserModesInternal u (ascii "+o")]
  let type ← param params 0
  return opers ++ [.setOper u type (tags (ascii "~name"))]

/-- `IRCDMessageSave::Run`. -/
def save : Result (List (Call υ σ χ κ)) := do
  let target ← param params 0
  let text ← param params 1
  let ts ← extractTimestamp text
  match env.findUser target with
  | none => return []
  | some targ =>
      if ts = 0 ∨ env.timestamp targ ≠ ts then return []
      else if env.isMine targ ∧ env.isBot targ then
        require (env.lastCollide ≠ env.curTime)
          ("Nick collision fight on " ++ textOf (env.nick targ))
        return [.sendKill targ, .sendNickChange targ]
      else return [.changeNick targ (env.uid targ)]

/-- What `UID` finds of a user who logs in while connecting. -/
def saslAccount (uid : Str) : Option κ :=
  env.saslUsers.foldl (fun na u =>
    if u.created + 30 < env.curTime then na
    else if u.uid = uid then env.findAccount u.acc
    else na) none

/-- The part of `UID` that follows `OnIntroduce`. -/
def signonOf (nick id : Str) : Result (Option Int) :=
  if env.introduces nick id then do
    let text ← param params 8
    let signon ← extractTimestamp text
    return some signon
  else return none

/-- `IRCDMessageUID::Run`. -/
def uid : Result (List (Call υ σ χ κ)) := do
  let text ← param params 1
  let ts ← extractTimestamp text
  let id ← param params 0
  let account := if env.saslService then saslAccount env id else none
  let nick ← param params 2
  let ident ← param params 6
  let host ← param params 3
  let vhost ← param params 4
  let ip ← param params 7
  let realname ← param params (params.length - 1)
  let modes ← param params 9
  let modeParams ← range params 10 1
  let signon ← signonOf env params nick id
  return [.onIntroduce source.server nick ident host vhost ip realname ts modes id account modeParams
    signon]

/-! ## Servers -/

/-- `IRCDMessageEndburst::Run`. -/
def endburst : Result (List (Call υ σ χ κ)) := do
  let s ← deref source.server
  return [.sync s]

/-- `IRCDMessagePing::Run`. -/
def ping : Result (List (Call υ σ χ κ)) := do
  let who ← param params 0
  if who = env.sid env.me then
    let s ← deref source.server
    return [.sendPong who (env.sid s)]
  else return []

/-- `IRCDMessageRSQuit::Run`. -/
def rSQuit : Result (List (Call υ σ χ κ)) := do
  let name ← param params 0
  let reason ← optional params 1
  match env.findServer name with
  | none => return []
  | some s => return [.sendSQuit s reason, .deleteServer s]

/-- `IRCDMessageServer::Run`. -/
def server : Result (List (Call υ σ χ κ)) :=
  match source.server with
  | none =>
      if params.length = 4 then do
        let name ← param params 0
        let description ← param params (params.length - 1)
        let sid ← param params 2
        return [.newServer env.me name description sid]
      else return []
  | some s => do
      let name ← param params 0
      let description ← param params (params.length - 1)
      let sid ← param params 1
      return [.newServer s name description sid]

/-- `IRCDMessageSQuit::Run`, and `Message::SQuit::Run`. -/
def sQuit : Result (List (Call υ σ χ κ)) := do
  let name ← param params 0
  if name = env.rsquitId ∨ name = env.rsquitServer then
    match env.findServer env.rsquitServer with
    | none => return [.clearRSQuit]
    | some s => return .clearRSQuit :: if env.isJuped s then [.sendServer (some s)] else []
  else
    match env.findServer name with
    | none => return []
    | some s =>
        if env.isMe s then return (env.links.head?.map Call.deleteServer).toList
        else return [.deleteServer s]

/-! ## Channels -/

/-- `IRCDMessageKick::Run`. -/
def kick : Result (List (Call υ σ χ κ)) := do
  let channel ← param params 0
  match env.findChannel channel with
  | none => return []
  | some c =>
      let reason ← (if 3 < params.length then param params 3 else param params 2)
      let who ← param params 1
      return [.kickInternal c who reason]

/-- One member of an `FJOIN`: the modes before the comma, and the id up to a colon. -/
def parseMember (member : Str) : Str × Str :=
  let status := member.takeWhile fun c => c ≠ 44 ∧ c ≠ 0
  (status, ((member.drop status.length).drop 1).takeWhile (· ≠ 58))

/-- The members of an `FJOIN` that are users. -/
def parseMembers (members : Str) : List (SJoinUser υ) :=
  (tokens 32 members).filterMap fun member =>
    (env.findUser (parseMember member).2).map fun u => ⟨(parseMember member).1, u⟩

/-- `IRCDMessageFJoin::Run`. -/
def fJoin : Result (List (Call υ σ χ κ)) := do
  let members ← param params (params.length - 1)
  let channel ← param params 0
  let text ← param params 1
  let ts ← extractTimestamp text
  let modes ← param params 2
  let modeParams ← range params 3 1
  return [.sJoin channel ts modes modeParams (parseMembers env members)]

/-- `IRCDMessageFMode::Run`. -/
def fMode : Result (List (Call υ σ χ κ)) := do
  let channel ← param params 0
  let text ← param params 1
  let ts ← extractTimestamp text
  match env.findChannel channel with
  | none => return []
  | some c =>
      let modes ← param params 2
      let modeParams ← range params 3 0
      return [.setModesInternal c modes modeParams (some ts)]

/-- `IRCDMessageFTopic::Run`. -/
def fTopic : Result (List (Call υ σ χ κ)) := do
  let text ← param params 2
  let ts ← extractTimestamp text
  let setBy ← (if 4 < params.length then param params 3 else return source.getName env)
  let topic ← (if 4 < params.length then param params 4 else param params 3)
  let channel ← param params 0
  match env.findChannel channel with
  | none => return []
  | some c => return [.changeTopicInternal c setBy topic ts]

/-- `IRCDMessageIdle::Run`. -/
def idle : Result (List (Call υ σ χ κ)) := do
  let who ← param params 0
  match env.findBot who with
  | some bi => return [.sendIdle bi source.source]
  | none =>
      match env.findUser who with
      | none => return []
      | some u => return if env.isMine u then [.sendIdle u source.source] else []

/-- `IRCDMessageIJoin::Run`. -/
def iJoin : Result (List (Call υ σ χ κ)) := do
  let channel ← param params 0
  match env.findChannel channel with
  | none => return [.sendResync channel]
  | some _ =>
      let u ← deref source.user
      if 4 ≤ params.length then
        let text ← param params 2
        let chants ← extractTimestamp text
        let status ← param params 3
        return [.sJoin channel chants [] [] [⟨status, u⟩]]
      else return [.sJoin channel env.curTime [] [] [⟨[], u⟩]]

/-- The loop of `LMODE`, which takes three parameters at a time until it is at their end. -/
def lModeLoop (c : χ) (mode : UInt8) : List Str → Result (List (Call υ σ χ κ))
  | [] => .ok []
  | value :: setBy :: setAt :: params => do
      let calls ← lModeLoop c mode params
      return .setModeInternal c mode value setBy ((tryConvert (extractSigned 32) setAt).getD 0) ::
        calls
  | _ => .error .outOfBounds

/-- `IRCDMessageLMode::Run`. -/
def lMode : Result (List (Call υ σ χ κ)) := do
  let channel ← param params 0
  match env.findChannel channel with
  | none => return []
  | some chan =>
      let text ← param params 1
      let chants ← extractTimestamp text
      if env.created chan < chants then return []
      else
        let modes ← param params 2
        if env.findChannelModeByChar (first modes) ≠ some true then return []
        else if params.length % 3 ≠ 0 then return []
        else
          let changes ← range params 3 0
          lModeLoop chan (first modes) changes

/-- `IRCDMessageMode::Run`. -/
def mode : Result (List (Call υ σ χ κ)) := do
  let target ← param params 0
  if isChannelValid env target then
    match env.findChannel target with
    | none => return []
    | some c =>
        let modes ← param params 2
        let modeParams ← range params 3 0
        return [.setModesInternal c modes modeParams none]
  else
    match env.findUser target with
    | none => return []
    | some u =>
        let modes ← param params 1
        return [.setUserModesInternal u modes]

/-! ## The others -/

/-- The version of `CAPAB START`. -/
def capabVersion : Result Nat :=
  if 2 ≤ params.length then do
    let text ← param params 1
    return convertUnsigned 64 text 0
  else return 0

/-- The first chain of branches of `CAPAB`. -/
def capabStart (what : Str) : Result (List (Call υ σ χ κ)) :=
  if what = ascii "START" then do
    let version ← capabVersion params
    require (1206 ≤ version)
      "Protocol mismatch, no or invalid protocol version given in CAPAB START."
    return [.capabStart]
  else if what = ascii "CHANMODES" ∧ 1 < params.length then do
    let text ← param params 1
    return [.capabChanModes text]
  else return []

/-- The second chain of branches of `CAPAB`. -/
def capabRest (what : Str) : Result (List (Call υ σ χ κ)) :=
  if what = ascii "USERMODES" ∧ 1 < params.length then do
    let text ← param params 1
    return [.capabUserModes text]
  else if what = ascii "EXTBANS" then do
    let text ← param params 1
    return [.capabExtBans text]
  else if (what = ascii "MODULES" ∨ what = ascii "MODSUPPORT") ∧ 1 < params.length then do
    let text ← param params 1
    return [.capabModules text]
  else if what = ascii "CAPABILITIES" ∧ 1 < params.length then do
    let text ← param params 1
    return [.capabCapabilities text]
  else if what = ascii "END" then do
    require (env.hasCapab (ascii "ACCOUNT"))
      "The account module is not loaded. This is required by Anope."
    require (env.hasCapab (ascii "SERVICES"))
      "The services module is not loaded. This is required by Anope."
    require (env.hasUserMode (ascii "PRIV"))
      "The hidechans module is not loaded. This is required by Anope."
    return [.sendServer none]
  else return []

/-- `IRCDMessageCapab::Run`. -/
def capab : Result (List (Call υ σ χ κ)) := do
  let what ← param params 0
  let start ← capabStart params what
  let rest ← capabRest env params what
  return start ++ rest

/-- `IRCDMessageEncap::Run`, which gives the message inside to `ProcessInternal`. -/
def encap (processInternal : Str → List Str → Result (List (Call υ σ χ κ))) :
    Result (List (Call υ σ χ κ)) := do
  let mask ← param params 0
  if !globMatch env.casemap (env.sid env.me) mask ∧
      !globMatch env.casemap (env.serverName env.me) mask then return []
  else
    let newParams ← range params 2 0
    let command ← param params 1
    processInternal command newParams

/-- `IRCDMessageMetadata::Run`; a target that is not known is logged with a parameter. -/
def metadata : Result (List (Call υ σ χ κ)) := do
  let target ← param params 0
  if first target = 35 then
    if params.length < 3 then return []
    else
      let s ← deref source.server
      if env.isSynced s then return []
      else
        match env.findChannel target with
        | none =>
            let _ ← param params 2
            return []
        | some c =>
            let value ← optional params 3
            let key ← param params 1
            if env.casemap.equalsCi key (ascii "maxlist") then return [.handleMaxList c value]
            else if env.casemap.equalsCi key (ascii "mlock") then return [.handleMLock c value]
            else return []
  else if isDigit (first target) then
    match env.findUser target with
    | none =>
        let _ ← param params 1
        return []
    | some u =>
        let value ← optional params 2
        let key ← param params 1
        if env.casemap.equalsCi key (ascii "accountname") then return [.handleAccountName u value]
        else if env.casemap.equalsCi key (ascii "ssl_cert") then return [.handleSslCert u value]
        else return []
  else if target = ascii "*" then
    match source.server with
    | none =>
        let _ ← param params 1
        return []
    | some s =>
        let value ← optional params 2
        let key ← param params 1
        if env.casemap.equalsCi key (ascii "cloakmethods") then
          return [.handleCloakMethods s value]
        else if env.casemap.equalsCi key (ascii "modules") then return [.handleModules s value]
        else return []
  else return []

/-- `IRCDMessageSASL::Run`. -/
def sasl : Result (List (Call υ σ χ κ)) :=
  if env.saslService then do
    let agent ← param params 0
    let target ← param params 1
    let type ← param params 2
    let data ← range params 3 0
    return [.processSasl agent target type data]
  else return []

/-- `IRCDMessageTagmsg::Run`. -/
def tagmsg : Result (List (Call υ σ χ κ)) :=
  return []

end Handlers

end Anope.Inspircd
