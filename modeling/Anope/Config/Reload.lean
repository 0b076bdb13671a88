import Anope.Config.Loader
import Anope.Library.Attempt
import Anope.Library.Split
import Anope.Text.Convert
import Mathlib.Logic.Function.Basic

/-!
# Loading a configuration into running services

The constructor of `Configuration::Conf`.  It reads the files, validates their blocks, and on
its way works on the bots, the privileges and the accounts that are there; an exception
leaves these as they are when it is thrown.  Maps of the services are functions of the folded
key.  Of the channels only the presence of the bots in them is here, not their modes.
-/

namespace Anope.Config

open Anope.Text Anope.Text.Convert Library.Attempt

/-! ## Items of a block -/

namespace Block

/-- `Block::Get` of a text, with a default. -/
def getD (casemap : Casemap) (block : Block) (tag default : Str) : Str :=
  ((block.items.find? fun item => casemap.equalsCi item.1 tag).map Prod.snd).getD default

/-- `Block::GetBlock`. -/
def getBlock (casemap : Casemap) (block : Block) (name : Str) : Block :=
  (block.getBlocks casemap name).head?.getD ⟨[], [], []⟩

/-- `Conf::GetModule`.  The names found before are remembered in `modules`. -/
def getModule (casemap : Casemap) (conf : Block) (mname : Str) : Block :=
  ((conf.getBlocks casemap (ascii "module")).find? fun block =>
    block.get casemap (ascii "name") = mname).getD ⟨[], [], []⟩

/-- The specialisation of `Block::Get` for `bool`. -/
def getBool (casemap : Casemap) (block : Block) (tag default : Str) : Bool :=
  let str := block.getD casemap tag default
  !str.isEmpty && !casemap.equalsCi str (ascii "no") && !casemap.equalsCi str (ascii "off") &&
    !casemap.equalsCi str (ascii "false") && !casemap.equalsCi str (ascii "0")

/-- `Block::Get` of an `int`. -/
def getInt (casemap : Casemap) (block : Block) (tag : Str) : Int :=
  (tryConvert (extractSigned 32) (block.get casemap tag)).getD 0

/-- `Block::Get` of an `unsigned`. -/
def getUnsigned (casemap : Casemap) (block : Block) (tag default : Str) : Nat :=
  convertUnsigned 32 (block.getD casemap tag default) 0

/-- The seconds of a unit of `Anope::DoTime`. -/
def secondsOf : Option UInt8 → Int
  | some 109 => 60
  | some 104 => 3600
  | some 100 => 86400
  | some 119 => 86400 * 7
  | some 121 => 86400 * 365
  | _ => 1

/-- `Anope::DoTime`, for amounts whose seconds fit in an `int`. -/
def doTime (text : Str) : Int :=
  if text.isEmpty then 0
  else
    match extractSigned 32 text with
    | none => -1
    | some (amount, rest) => amount * secondsOf (rest.takeWhile (· ≠ 10)).head?

/-- The specialisation of `Block::Get` for `time_t`. -/
def getTime (casemap : Casemap) (block : Block) (tag : Str) : Int :=
  doTime (block.get casemap tag)

end Block

/-- The tokens of a `spacesepstream`. -/
def spaceTokens (text : Str) : List Str :=
  Library.Split.tokens 32 text

/-- The tokens of a `commasepstream`. -/
def commaTokens (text : Str) : List Str :=
  Library.Split.tokens 44 text

/-! ## Validation -/

/-- `ConfigException`. -/
inductive ConfigException where
  | load (error : LoadError)
  /-- A file that could not be opened. -/
  | unopened (name : Str)
  | message (text : Str)
  deriving DecidableEq, Repr

/-- `throw ConfigException(text)` where a test fails. -/
def throwIf (fails : Bool) (text : Str) : Except ConfigException Unit :=
  if fails then .error (.message text) else .ok ⟨⟩

/-- The start of what the validators throw. -/
def theValueFor (block name : Str) : Str :=
  ascii "The value for <" ++ block ++ ascii ":" ++ name ++ ascii ">"

/-- `ValidateNotEmpty`. -/
def validateNotEmpty (block name value : Str) : Except ConfigException Unit :=
  throwIf value.isEmpty
    (theValueFor block name ++ ascii " (" ++ value ++ ascii ") cannot be empty!")

/-- `ValidateNoSpaces`. -/
def validateNoSpaces (block name value : Str) : Except ConfigException Unit :=
  throwIf (value.contains 32)
    (theValueFor block name ++ ascii " (" ++ value ++ ascii ") may not contain spaces!")

/-- `ValidateNotEmptyOrSpaces`. -/
def validateNotEmptyOrSpaces (block name value : Str) : Except ConfigException Unit := do
  validateNotEmpty block name value
  validateNoSpaces block name value

/-- `ValidateNotZero`. -/
def validateNotZero (block name : Str) (value : Int) : Except ConfigException Unit :=
  throwIf (value = 0) (theValueFor block name ++ ascii " cannot be zero!")

/-! ## The tables of the services -/

/-- `CommandInfo`. -/
structure CommandInfo where
  name : Str
  permission : Str
  group : Str
  hide : Bool
  prependChannel : Bool
  requirePrivilege : Bool
  deriving DecidableEq, Repr

/-- `CommandInfo::map`: a command with the spelling its name was put in with. -/
abbrev CommandMap := Str → Option (Str × CommandInfo)

/-- `map[name] = info`. -/
def CommandMap.set (casemap : Casemap) (commands : CommandMap) (name : Str) (info : CommandInfo) :
    CommandMap :=
  let key := casemap.ciStr name
  Function.update commands key (some (((commands key).map Prod.fst).getD name, info))

/-- `BotInfo`. -/
structure Bot where
  nick : Str
  user : Str
  host : Str
  realname : Str
  botmodes : Str
  botalias : Str
  /-- Bot is defined in the configuration file. -/
  conf : Bool
  /-- Channels the bot should be in as configured. -/
  botchannels : List Str
  /-- Whether the bot is in a channel. -/
  chans : Str → Bool
  commands : CommandMap

/-- `BotInfo::BotInfo`. -/
def Bot.new (nick user host realname botmodes : Str) : Bot where
  nick := nick
  user := user
  host := host
  realname := realname
  botmodes := botmodes
  botalias := []
  conf := false
  botchannels := []
  chans := fun _ => false
  commands := fun _ => none

/-- `Privilege`. -/
structure Privilege where
  name : Str
  desc : Str
  rank : Int
  deriving DecidableEq, Repr

/-- An `Oper *` of an account: one of the operators of the configuration, or another. -/
inductive OperRef where
  | conf (index : Nat)
  | other (number : Nat)
  deriving DecidableEq, Repr

/-- What a configuration is loaded into. -/
structure World where
  /-- The blocks of `Config`, if there is a configuration. -/
  config : Option Block
  /-- `BotListByNick`. -/
  bots : Str → Option Bot
  privileges : List Privilege
  /-- `NickAliasList`: the account of a nickname, by its folded display. -/
  aliases : Str → Option (Option Str)
  /-- `NickCore::o` of the accounts. -/
  opers : Str → Option OperRef

/-- What the constructor depends on besides the tables. -/
structure ReloadEnv extends LoadEnv where
  /-- The lines of a file, by its name and whether it is executed. -/
  files : Str → Bool → Option (List Str)
  /-- The modules that have `OnReload`. -/
  onReload : World → Block → Except ConfigException Block
  /-- `std::locale` by name. -/
  locale : Str → Option Casemap

/-- A part of the constructor, which may throw. -/
abbrev Reload := EStateM ConfigException World

/-! ## The files -/

/-- `LoadConf`. -/
def loadFile (env : ReloadEnv) (conf : Block) (name : Str) (executable : Bool) :
    Except ConfigException Block :=
  if name.isEmpty then .ok conf
  else
    match env.files name executable with
    | none => .error (.unopened name)
    | some lines => (loadConf env.toLoadEnv conf name lines).mapError .load

/-- The loop over the blocks `include`, which sees the blocks of included files as well.  It
does not end when a file includes itself. -/
def loadIncludes (env : ReloadEnv) :
    Nat → Nat → Block → Option (Except ConfigException Block)
  | 0, _, _ => none
  | fuel + 1, index, conf =>
      match (conf.getBlocks env.casemap (ascii "include"))[index]? with
      | none => some (.ok conf)
      | some block =>
          let type := block.get env.casemap (ascii "type")
          let file := block.get env.casemap (ascii "name")
          match loadFile env conf file (type = ascii "executable") with
          | .error exception => some (.error exception)
          | .ok conf => loadIncludes env fuel (index + 1) conf

/-- `ServicesConf` and the files it includes. -/
def readFiles (env : ReloadEnv) (fuel : Nat) : Option (Except ConfigException Block) :=
  match loadFile env ⟨[], [], []⟩ (ascii "anope.conf") false with
  | .error exception => some (.error exception)
  | .ok conf => loadIncludes env fuel 0 conf

/-! ## What is read before the tables are touched -/

/-- The items that can not be modified once set. -/
def noreload : List (Str × Str) :=
  [(ascii "serverinfo", ascii "name"), (ascii "serverinfo", ascii "description"),
    (ascii "serverinfo", ascii "localhost"), (ascii "serverinfo", ascii "id"),
    (ascii "serverinfo", ascii "pid"), (ascii "networkinfo", ascii "nicklen"),
    (ascii "networkinfo", ascii "userlen"), (ascii "networkinfo", ascii "hostlen"),
    (ascii "networkinfo", ascii "chanlen")]

/-- The check for modified values that aren't allowed to be modified. -/
def checkNoreload (casemap : Casemap) (config : Option Block) (conf : Block) :
    Except ConfigException Unit :=
  match config with
  | none => .ok ⟨⟩
  | some config =>
      noreload.forM fun (block, name) =>
        let new := (conf.getBlock casemap block).get casemap name
        let old := (config.getBlock casemap block).get casemap name
        throwIf (new ≠ old)
          (ascii "<" ++ block ++ ascii ":" ++ name ++ ascii "> can not be modified once set")

/-- The values of the blocks that occur once. -/
structure Settings where
  servername : Str
  ulines : List Str
  readTimeout : Int
  serviceAlias : Bool
  defPrivmsg : Bool
  defLanguage : Str
  timeoutCheck : Int
  nickChars : Str
  deriving DecidableEq, Repr

/-- The blocks `serverinfo`, `options`, `mail` and `networkinfo`. -/
def readSettings (casemap : Casemap) (conf : Block) : Except ConfigException Settings := do
  let serverinfo := conf.getBlock casemap (ascii "serverinfo")
  let options := conf.getBlock casemap (ascii "options")
  let mail := conf.getBlock casemap (ascii "mail")
  let networkinfo := conf.getBlock casemap (ascii "networkinfo")
  let servername := serverinfo.get casemap (ascii "name")
  validateNotEmptyOrSpaces (ascii "serverinfo") (ascii "name") servername
  throwIf (servername.contains 32 || !servername.contains 46)
    (ascii "serverinfo:name is not a valid server name")
  [ascii "description", ascii "pid", ascii "motd"].forM fun name =>
    validateNotEmpty (ascii "serverinfo") name (serverinfo.get casemap name)
  validateNotZero (ascii "options") (ascii "readtimeout")
    (options.getTime casemap (ascii "readtimeout"))
  [ascii "nicklen", ascii "userlen", ascii "hostlen", ascii "chanlen"].forM fun name =>
    validateNotZero (ascii "networkinfo") name (networkinfo.getUnsigned casemap name (ascii "1"))
  if mail.getBool casemap (ascii "usemail") [] then
    validateNotEmpty (ascii "mail") (ascii "sendfrom") (mail.get casemap (ascii "sendfrom"))
  let defaults := (conf.getModule casemap (ascii "nickserv")).get casemap (ascii "defaults")
  return {
    servername := servername
    ulines := spaceTokens (options.get casemap (ascii "ulineservers"))
    readTimeout := options.getTime casemap (ascii "readtimeout")
    serviceAlias := options.getBool casemap (ascii "servicealias") []
    defPrivmsg := (spaceTokens defaults).any fun token => token = ascii "msg"
    defLanguage := options.get casemap (ascii "defaultlanguage")
    timeoutCheck := options.getTime casemap (ascii "timeoutcheck")
    nickChars := networkinfo.get casemap (ascii "nick_chars") }

/-- The protocol of an uplink. -/
inductive Protocol where
  | inet
  | inet6
  | unix
  deriving DecidableEq, Repr

/-- `Uplink`. -/
structure Uplink where
  host : Str
  port : Nat
  password : Str
  protocol : Protocol
  deriving DecidableEq, Repr

/-- The protocol of a block `uplink`. -/
def readProtocol (protocolstr : Str) : Except ConfigException Protocol :=
  if protocolstr = ascii "ipv4" then .ok .inet
  else if protocolstr = ascii "ipv6" then .ok .inet6
  else if protocolstr = ascii "unix" then .ok .unix
  else .error (.message (ascii "uplink:protocol must be set to ipv4, ipv6, or unix"))

/-- A block `uplink`. -/
def readUplink (casemap : Casemap) (uplink : Block) : Except ConfigException Uplink := do
  let protocol ← readProtocol (uplink.getD casemap (ascii "protocol") (ascii "ipv4"))
  let host := uplink.get casemap (ascii "host")
  validateNotEmptyOrSpaces (ascii "uplink") (ascii "host") host
  let port := if protocol = .unix then 0 else uplink.getInt casemap (ascii "port")
  if protocol ≠ .unix then validateNotZero (ascii "uplink") (ascii "port") port
  let password := uplink.get casemap (ascii "password")
  validateNotEmptyOrSpaces (ascii "uplink") (ascii "password") password
  throwIf (password.head? = some 58) (ascii "uplink:password is not valid")
  return ⟨host, (port % 2 ^ 32).toNat, password, protocol⟩

/-- A block `module`. -/
def readModule (casemap : Casemap) (module : Block) : Except ConfigException Str := do
  let modname := module.get casemap (ascii "name")
  validateNotEmptyOrSpaces (ascii "module") (ascii "name") modname
  return modname

/-- `OperType`, with the places of the types it inherits from. -/
structure OperType where
  name : Str
  modes : Str
  commands : List Str
  privs : List Str
  inherits : List Nat
  deriving DecidableEq, Repr

/-- The leading space after a comma is stripped. -/
def stripSpace : Str → Str
  | 32 :: c :: rest => c :: rest
  | str => str

/-- A block `opertype`, behind the types read before. -/
def readOperType (casemap : Casemap) (types : List OperType) (opertype : Block) :
    Except ConfigException (List OperType) := do
  let oname := opertype.get casemap (ascii "name")
  validateNotEmpty (ascii "opertype") (ascii "name") oname
  let inherited := (commaTokens (opertype.get casemap (ascii "inherits"))).filterMap fun str =>
    types.findIdx? fun ot2 => casemap.equalsCi ot2.name (stripSpace str)
  return types ++ [{
    name := oname
    modes := opertype.get casemap (ascii "modes")
    commands := spaceTokens (opertype.get casemap (ascii "commands"))
    privs := spaceTokens (opertype.get casemap (ascii "privs"))
    inherits := inherited.dedup }]

/-- `Oper`, with the place of its type. -/
structure Oper where
  name : Str
  ot : Nat
  requireLogin : Bool
  requireOper : Bool
  password : Str
  passwordHash : Str
  certfp : List Str
  hosts : List Str
  vhost : Str
  deriving DecidableEq, Repr

/-- The last type of a name. -/
def lastOfName (types : List OperType) (type : Str) : Option Nat :=
  (types.reverse.findIdx? fun ot => ot.name = type).map fun index => types.length - 1 - index

/-- A block `oper`. -/
def readOper (casemap : Casemap) (types : List OperType) (oper : Block) :
    Except ConfigException Oper := do
  let nname := oper.get casemap (ascii "name")
  let type := oper.get casemap (ascii "type")
  validateNotEmptyOrSpaces (ascii "oper") (ascii "name") nname
  validateNotEmpty (ascii "oper") (ascii "type") type
  match lastOfName types type with
  | none =>
      .error (.message
        (ascii "Oper block for " ++ nname ++ ascii " has invalid oper type " ++ type))
  | some ot =>
      return {
        name := nname
        ot := ot
        requireLogin := oper.getBool casemap (ascii "require_login") []
        requireOper := oper.getBool casemap (ascii "require_oper") []
        password := oper.get casemap (ascii "password")
        passwordHash := oper.get casemap (ascii "password_hash")
        certfp := spaceTokens (oper.get casemap (ascii "certfp"))
        hosts := spaceTokens (oper.get casemap (ascii "host"))
        vhost := oper.get casemap (ascii "vhost") }

/-- What the constructor has made when it starts to work on the tables. -/
structure Head where
  block : Block
  settings : Settings
  uplinks : List Uplink
  modulesAutoLoad : List Str
  operTypes : List OperType
  opers : List Oper

/-- The constructor up to the flags of the bots. -/
def readHead (env : ReloadEnv) (reading : Except ConfigException Block) (world : World) :
    Except ConfigException Head := do
  let conf ← reading
  let conf ← env.onReload world conf
  checkNoreload env.casemap world.config conf
  let settings ← readSettings env.casemap conf
  let uplinks ← (conf.getBlocks env.casemap (ascii "uplink")).mapM (readUplink env.casemap)
  let modules ← (conf.getBlocks env.casemap (ascii "module")).mapM (readModule env.casemap)
  let operTypes ← (conf.getBlocks env.casemap (ascii "opertype")).foldlM
    (readOperType env.casemap) []
  let opers ← (conf.getBlocks env.casemap (ascii "oper")).mapM (readOper env.casemap operTypes)
  return ⟨conf, settings, uplinks, modules, operTypes, opers⟩

/-! ## Bots -/

/-- The channel that a token of `service:channels` names, behind the modes. -/
def channelName (token : Str) : Str :=
  if token.contains 35 then token.dropWhile (· ≠ 35) else token

/-- `Join` of the channels of a list. -/
def joinAll (casemap : Casemap) (chans : Str → Bool) (tokens : List Str) : Str → Bool :=
  tokens.foldl
    (fun chans token => Function.update chans (casemap.ciStr (channelName token)) true) chans

/-- The loop over `oldchannels`, which parts those that are not found in `botchannels`. -/
def partOld (casemap : Casemap) (botchannels : List Str) (chans : Str → Bool)
    (oldchannels : List Str) : Str → Bool :=
  oldchannels.foldl (fun chans oldchannel =>
    let chname := channelName oldchannel
    let found := botchannels.any fun botchannel => casemap.equalsCi chname (channelName botchannel)
    if found then chans else Function.update chans (casemap.ciStr chname) false) chans

/-- What a block makes of its bot. -/
def Bot.configure (casemap : Casemap) (botalias channels : Str) (bot : Bot) : Bot :=
  let botchannels := commaTokens channels
  { bot with
    botalias := botalias
    conf := true
    botchannels := botchannels
    chans := partOld casemap botchannels (joinAll casemap bot.chans botchannels) bot.botchannels }

/-- The checks of a block `service`. -/
def validateService (casemap : Casemap) (servername : Str) (service : Block) :
    Except ConfigException Unit := do
  let nick := service.get casemap (ascii "nick")
  let user := service.getD casemap (ascii "user") (nick.map casemap.tolower)
  let host := service.getD casemap (ascii "host") servername
  let real := service.getD casemap (ascii "real") nick
  let channels := service.get casemap (ascii "channels")
  validateNotEmptyOrSpaces (ascii "service") (ascii "nick") nick
  validateNotEmptyOrSpaces (ascii "service") (ascii "user") user
  validateNotEmptyOrSpaces (ascii "service") (ascii "host") host
  validateNotEmpty (ascii "service") (ascii "real") real
  validateNoSpaces (ascii "service") (ascii "channels") channels

/-- The key of the bot of a block `service`. -/
def nickKey (casemap : Casemap) (service : Block) : Str :=
  casemap.ciStr (service.get casemap (ascii "nick"))

/-- The bot of a block `service`, found or new, and then configured. -/
def serviceBot (casemap : Casemap) (servername : Str) (service : Block) (found : Option Bot) :
    Option Bot :=
  let nick := service.get casemap (ascii "nick")
  let user := service.getD casemap (ascii "user") (nick.map casemap.tolower)
  let host := service.getD casemap (ascii "host") servername
  let real := service.getD casemap (ascii "real") nick
  let modes := service.get casemap (ascii "modes")
  let channels := service.get casemap (ascii "channels")
  let botalias := service.getD casemap (ascii "alias") (nick.map casemap.toupper)
  some ((found.getD (Bot.new nick user host real modes)).configure casemap botalias channels)

/-- What a block `service` that validates does. -/
def applyService (casemap : Casemap) (servername : Str) (service : Block) (world : World) :
    World :=
  let key := nickKey casemap service
  { world with
    bots := Function.update world.bots key
      (serviceBot casemap servername service (world.bots key)) }

/-- `LogInfo`, with the key of its bot. -/
structure LogInfo where
  bot : Option Str
  logage : Int
  rawio : Bool
  debug : Bool
  targets : List Str
  sources : List Str
  admin : List Str
  override : List Str
  commands : List Str
  servers : List Str
  channels : List Str
  users : List Str
  normal : List Str
  deriving DecidableEq, Repr

/-- A block `log`. -/
def readLog (casemap : Casemap) (world : World) (log : Block) : LogInfo :=
  let key := casemap.ciStr (log.getD casemap (ascii "bot") (ascii "Global"))
  let tokens (tag : String) := spaceTokens (log.get casemap (ascii tag))
  { bot := (world.bots key).map fun _ => key
    logage := log.getInt casemap (ascii "logage")
    rawio := log.getBool casemap (ascii "rawio") []
    debug := log.getBool casemap (ascii "debug") []
    targets := tokens "target"
    sources := tokens "source"
    admin := tokens "admin"
    override := tokens "override"
    commands := tokens "commands"
    servers := tokens "servers"
    channels := tokens "channels"
    users := tokens "users"
    normal := tokens "other" }

/-! ## Commands and privileges -/

/-- The checks of a block `command`. -/
def validateCommand (casemap : Casemap) (command : Block) : Except ConfigException Unit := do
  validateNotEmptyOrSpaces (ascii "command") (ascii "service")
    (command.get casemap (ascii "service"))
  validateNotEmpty (ascii "command") (ascii "name") (command.get casemap (ascii "name"))
  validateNotEmptyOrSpaces (ascii "command") (ascii "command")
    (command.get casemap (ascii "command"))

/-- The key of `GetClient` for the service of a block `command`. -/
def clientKey (casemap : Casemap) (conf command : Block) : Str :=
  let cname := command.get casemap (ascii "service")
  let module := conf.getModule casemap (cname.map casemap.tolower)
  let client := module.get casemap (ascii "client")
  casemap.ciStr (if client.isEmpty then cname else client)

/-- The command that a block `command` links. -/
def commandInfo (casemap : Casemap) (command : Block) : CommandInfo where
  name := command.get casemap (ascii "command")
  permission := command.get casemap (ascii "permission")
  group := command.get casemap (ascii "group")
  hide := command.getBool casemap (ascii "hide") []
  prependChannel := false
  requirePrivilege := true

/-- `SetCommand` with a block `command`. -/
def Bot.setCommand (casemap : Casemap) (command : Block) (bot : Bot) : Bot :=
  { bot with
    commands := bot.commands.set casemap (command.get casemap (ascii "name"))
      (commandInfo casemap command) }

/-- What a block `command` that validates does. -/
def applyCommand (casemap : Casemap) (conf command : Block) (world : World) : World :=
  let key := clientKey casemap conf command
  { world with
    bots := Function.update world.bots key ((world.bots key).map (Bot.setCommand casemap command)) }

/-- `PrivilegeManager::AddPrivilege`. -/
def addPrivilege (privileges : List Privilege) (p : Privilege) : List Privilege :=
  privileges.takeWhile (fun priv => priv.rank ≤ p.rank) ++
    p :: privileges.dropWhile (fun priv => priv.rank ≤ p.rank)

/-- A block `privilege`. -/
def readPrivilege (casemap : Casemap) (privilege : Block) : Privilege where
  name := privilege.get casemap (ascii "name")
  desc := privilege.get casemap (ascii "desc")
  rank := privilege.getInt casemap (ascii "rank")

/-- The privileges of a configuration. -/
def declaredPrivileges (casemap : Casemap) (conf : Block) : List Privilege :=
  ((conf.getBlocks casemap (ascii "privilege")).map (readPrivilege casemap)).foldl addPrivilege []

/-- The checks of a block `fantasy`. -/
def validateFantasy (casemap : Casemap) (fantasy : Block) : Except ConfigException Unit := do
  validateNotEmpty (ascii "fantasy") (ascii "name") (fantasy.get casemap (ascii "name"))
  validateNotEmptyOrSpaces (ascii "fantasy") (ascii "command")
    (fantasy.get casemap (ascii "command"))

/-- The command that a block `fantasy` links. -/
def fantasyInfo (casemap : Casemap) (fantasy : Block) : CommandInfo where
  name := fantasy.get casemap (ascii "command")
  permission := fantasy.get casemap (ascii "permission")
  group := fantasy.get casemap (ascii "group")
  hide := fantasy.getBool casemap (ascii "hide") []
  prependChannel := fantasy.getBool casemap (ascii "prepend_channel") (ascii "yes")
  requirePrivilege := fantasy.getBool casemap (ascii "require_privilege") (ascii "yes")

/-- `Conf::Fantasy`. -/
def readFantasy (casemap : Casemap) (fantasies : List Block) : CommandMap :=
  fantasies.foldl (fun commands fantasy =>
    commands.set casemap (fantasy.get casemap (ascii "name")) (fantasyInfo casemap fantasy))
    fun _ => none

/-! ## The constructor -/

/-- `bi->conf = false`. -/
def Bot.clearConf (bot : Bot) : Bot :=
  { bot with conf := false }

/-- `bi->commands.clear()`. -/
def Bot.clearCommands (bot : Bot) : Bot :=
  { bot with commands := fun _ => none }

/-- The loop over `BotListByNick` that clears the flags. -/
def World.clearConf (world : World) : World :=
  { world with bots := fun key => (world.bots key).map Bot.clearConf }

/-- The loop over `BotListByNick` that clears the commands. -/
def World.clearCommands (world : World) : World :=
  { world with bots := fun key => (world.bots key).map Bot.clearCommands }

/-- Clear existing conf opers. -/
def clearOpers (opers : Str → Option OperRef) : Str → Option OperRef := fun account =>
  match opers account with
  | some (.other number) => some (.other number)
  | some (.conf _) => none
  | none => none

/-- Apply a new oper. -/
def tieOper (casemap : Casemap) (aliases : Str → Option (Option Str))
    (opers : Str → Option OperRef) (index : Nat) (o : Oper) : Str → Option OperRef :=
  match (aliases (casemap.ciStr o.name)).join with
  | none => opers
  | some account =>
      if (opers account).isSome then opers
      else Function.update opers account (some (.conf index))

/-- Apply new opers. -/
def World.tieOpers (casemap : Casemap) (new : List Oper) (world : World) : World :=
  { world with
    opers := new.zipIdx.foldl
      (fun opers (o, index) => tieOper casemap world.aliases opers index o)
      (if world.config.isSome then clearOpers world.opers else world.opers) }

/-- `options:casemap`. -/
def chooseCasemap (env : ReloadEnv) (conf : Block) : Casemap :=
  let options := conf.getBlock env.casemap (ascii "options")
  if options.getD env.casemap (ascii "casemap") (ascii "ascii") = ascii "ascii" then Casemap.ascii
  else if options.get env.casemap (ascii "casemap") = ascii "rfc1459" then Casemap.rfc1459
  else (env.locale (options.get env.casemap (ascii "casemap"))).getD env.casemap

/-- `Configuration::Conf`, with the case map that is in use then. -/
structure Conf where
  head : Head
  logInfos : List LogInfo
  fantasy : CommandMap
  /-- The names and the descriptions. -/
  commandGroups : List (Str × Str)
  casemap : Casemap

/-- A block `command_group`. -/
def readCommandGroup (casemap : Casemap) (group : Block) : Str × Str :=
  (group.get casemap (ascii "name"), group.get casemap (ascii "description"))

/-- The part of the constructor from the flags of the bots to the blocks `log`. -/
def loadServices (env : ReloadEnv) (head : Head) : Reload (List LogInfo) := do
  let casemap := env.casemap
  let servername := head.settings.servername
  modify World.clearConf
  (head.block.getBlocks casemap (ascii "service")).forM
    (step (validateService casemap servername) (applyService casemap servername))
  let world ← get
  return (head.block.getBlocks casemap (ascii "log")).map (readLog casemap world)

/-- The part from the commands of the bots to the privileges. -/
def loadCommands (env : ReloadEnv) (head : Head) : Reload Unit := do
  let casemap := env.casemap
  modify World.clearCommands
  (head.block.getBlocks casemap (ascii "command")).forM
    (step (validateCommand casemap) (applyCommand casemap head.block))
  modify fun world => { world with privileges := declaredPrivileges casemap head.block }

/-- The part with the blocks `fantasy`. -/
def loadFantasy (env : ReloadEnv) (head : Head) : Reload CommandMap := do
  let fantasies := head.block.getBlocks env.casemap (ascii "fantasy")
  fantasies.forM (step (validateFantasy env.casemap) fun _ world => world)
  return readFantasy env.casemap fantasies

/-- `Conf::Conf`. -/
def construct (env : ReloadEnv) (reading : Except ConfigException Block) : Reload Conf := do
  let world ← get
  let head ← attempt (readHead env reading world)
  let logInfos ← loadServices env head
  loadCommands env head
  let fantasy ← loadFantasy env head
  let commandGroups := (head.block.getBlocks env.casemap (ascii "command_group")).map
    (readCommandGroup env.casemap)
  -- Below here can't throw
  modify (World.tieOpers env.casemap head.opers)
  return ⟨head, logInfos, fantasy, commandGroups, chooseCasemap env head.block⟩

/-- A reload from the files. -/
def reload (env : ReloadEnv) (fuel : Nat) (world : World) :
    Option (EStateM.Result ConfigException World Conf) :=
  (readFiles env fuel).map fun reading => construct env reading world

end Anope.Config
