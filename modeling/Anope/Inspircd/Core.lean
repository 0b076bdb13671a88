import Anope.Library.Scan
import Anope.Library.Split
import Anope.Text.Convert
import Anope.Text.Match.Core

/-!
# What the InspIRCd handlers work with

The parameters of a message, its source, what a handler looks up, and what it calls.  A read of a
parameter that is not there, a range whose start lies behind its end and a use of a source that
is not there have no result.
-/

namespace Anope.Inspircd

open Anope.Text
open Anope.Text.Convert
open Library.Scan

/-! ## Reading -/

/-- `params[index]`. -/
def param (params : List Str) (index : Nat) : Result Str :=
  match params[index]? with
  | none => .error .outOfBounds
  | some text => .ok text

/-- `{ params.begin() + first, params.end() - behind }`. -/
def range (params : List Str) (first behind : Nat) : Result (List Str) :=
  if first + behind ≤ params.length then
    .ok ((params.drop first).take (params.length - behind - first))
  else .error .outOfBounds

/-- The use of what a pointer points to. -/
def deref {α : Type} (pointer : Option α) : Result α :=
  match pointer with
  | none => .error .outOfBounds
  | some object => .ok object

/-- The characters of a text in a message. -/
def textOf (text : Str) : String :=
  String.ofList (text.map fun c => Char.ofNat c.toNat)

/-- `IRCD->ExtractTimestamp`, without the exception. -/
def timestampOf (text : Str) : Option Int :=
  tryConvert (extractSigned 64) text

/-- `IRCD->ExtractTimestamp`. -/
def extractTimestamp (text : Str) : Result Int :=
  match timestampOf text with
  | none => .error (.thrown ("Invalid timestamp: " ++ textOf text))
  | some ts => .ok ts

/-- `text[0]`, which is the terminator of an empty text. -/
def first (text : Str) : UInt8 :=
  text.headD 0

/-! ## The program around the handlers -/

/-- `SASLUser`. -/
structure SaslUser where
  uid : Str
  acc : Str
  created : Int

/-- What the handlers look up.  Users, servers, channels and accounts are what they are. -/
structure Env (υ σ χ κ : Type) where
  casemap : Casemap
  curTime : Int
  me : σ
  /-- `Servers::GetUplink()`. -/
  uplink : Option σ
  findServer : Str → Option σ
  serverName : σ → Str
  sid : σ → Str
  isSynced : σ → Bool
  isJuped : σ → Bool
  isMe : σ → Bool
  /-- `Me->GetLinks()`. -/
  links : List σ
  findUser : Str → Option υ
  /-- `u->server == Me`. -/
  isMine : υ → Bool
  /-- Whether a user is a `BotInfo`. -/
  isBot : υ → Bool
  findBot : Str → Option υ
  nick : υ → Str
  uid : υ → Str
  timestamp : υ → Int
  hasMode : υ → Str → Bool
  findChannel : Str → Option χ
  created : χ → Int
  /-- `IRCD->MaxChannel`. -/
  maxChannel : Nat
  /-- Whether `FindChannelModeByChar` finds a mode, and whether it is a list. -/
  findChannelModeByChar : UInt8 → Option Bool
  /-- Whether `Servers::Capab` has a capability. -/
  hasCapab : Str → Bool
  hasUserMode : Str → Bool
  /-- Whether there is a `SASL::service`. -/
  saslService : Bool
  saslUsers : List SaslUser
  /-- `NickAlias::Find`, and the account of the nick. -/
  findAccount : Str → Option κ
  /-- Whether `User::OnIntroduce` makes a user of this nick and this id. -/
  introduces : Str → Str → Bool
  rsquitId : Str
  rsquitServer : Str
  lastCollide : Int

/-- `MessageSource`. -/
structure Source (υ σ : Type) where
  source : Str
  server : Option σ
  user : Option υ

/-- A member of an `FJOIN`, with the modes it has. -/
structure SJoinUser (υ : Type) where
  status : Str
  user : υ

/-- What the handlers call.  What these do with the texts is not part of the handlers. -/
inductive Call (υ σ χ κ : Type) where
  | setAway (u : υ) (away : Option (Str × Int))
  | capabStart
  | capabChanModes (tokens : Str)
  | capabUserModes (tokens : Str)
  | capabExtBans (tokens : Str)
  | capabModules (tokens : Str)
  | capabCapabilities (tokens : Str)
  | sendServer (s : Option σ)
  | setDisplayedHost (u : υ) (host : Str)
  | setIdent (u : υ) (ident : Str)
  | setRealname (u : υ) (realname : Str)
  | sendOf (u : υ) (command : Str)
  | setHost (u : υ) (host : Str)
  | removeModeInternal (u : υ) (mode : Str)
  | kickInternal (c : χ) (nick reason : Str)
  | processSasl (source target type : Str) (data : List Str)
  | sendKill (u : υ)
  | sendNickChange (u : υ)
  | changeNick (u : υ) (nick : Str)
  | handleMaxList (c : χ) (value : Str)
  | handleMLock (c : χ) (value : Str)
  | handleAccountName (u : υ) (value : Str)
  | handleSslCert (u : υ) (value : Str)
  | handleCloakMethods (s : σ) (value : Str)
  | handleModules (s : σ) (value : Str)
  | sync (s : σ)
  | sJoin (channel : Str) (ts : Int) (modes : Str) (modeParams : List Str)
      (users : List (SJoinUser υ))
  | setModesInternal (c : χ) (modes : Str) (modeParams : List Str) (ts : Option Int)
  | setUserModesInternal (u : υ) (modes : Str)
  | setModeInternal (c : χ) (mode : UInt8) (value setBy : Str) (setAt : Int)
  | changeTopicInternal (c : χ) (setBy topic : Str) (ts : Int)
  | sendIdle (u : υ) (target : Str)
  | sendResync (channel : Str)
  | setOper (u : υ) (type : Str) (name : Option Str)
  | sendPong (who sid : Str)
  | sendSQuit (s : σ) (reason : Str)
  | deleteServer (s : σ)
  | newServer (uplink : σ) (name description sid : Str)
  | clearRSQuit
  | onIntroduce (server : Option σ) (nick ident host vhost ip realname : Str) (ts : Int)
      (modes uid : Str) (account : Option κ) (modeParams : List Str) (signon : Option Int)
  | sendError (reason : String)

section Source

variable {υ σ χ κ : Type} (env : Env υ σ χ κ)

/-- The constructor of `MessageSource` for a message; InspIRCd requires ids. -/
def messageSource (source : Str) : Source υ σ :=
  let server := if source.isEmpty then env.uplink else env.findServer source
  { source := source
    server := server
    user := if server.isNone then env.findUser source else none }

/-- `MessageSource::GetName`. -/
def Source.getName (source : Source υ σ) : Str :=
  match source.server, source.user with
  | some s, _ => env.serverName s
  | none, some u => env.nick u
  | none, none => source.source

/-- `IRCD->IsChannelValid`. -/
def isChannelValid (channel : Str) : Bool :=
  first channel = 35 ∧ channel.length ≤ env.maxChannel ∧ 32 ∉ channel ∧ 44 ∉ channel

end Source

end Anope.Inspircd
