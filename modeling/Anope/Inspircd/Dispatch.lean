import Anope.Inspircd.Handlers

/-!
# Which handler runs

What the constructors of the handlers declare, and `Anope::ProcessInternal`, which checks it.
-/

namespace Anope.Inspircd

open Anope.Text
open Anope.Text.Match (globMatch)
open Library.Scan

/-- The messages of the module. -/
inductive Message where
  | away | capab | chgHost | chgIdent | chgName | encap | endburst | fHost | fIdent | fName
  | fJoin | fMode | fTopic | idle | iJoin | kick | lMode | metadata | mode | nick | operType
  | ping | rSQuit | sasl | save | server | sQuit | tagmsg | uid
  deriving DecidableEq, Repr

/-- What the constructor of a handler declares. -/
structure Declared where
  name : Str
  /-- `param_count`. -/
  paramCount : Nat := 0
  /-- `FLAG_SOFT_LIMIT`. -/
  softLimit : Bool := false
  /-- `FLAG_REQUIRE_SERVER`. -/
  requireServer : Bool := false
  /-- `FLAG_REQUIRE_USER`. -/
  requireUser : Bool := false

namespace Message

def all : List Message :=
  [away, capab, chgHost, chgIdent, chgName, encap, endburst, fHost, fIdent, fName, fJoin, fMode,
    fTopic, idle, iJoin, kick, lMode, metadata, mode, nick, operType, ping, rSQuit, sasl, save,
    server, sQuit, tagmsg, uid]

def declared : Message → Declared
  | away => { name := ascii "AWAY", requireUser := true, softLimit := true }
  | capab => { name := ascii "CAPAB", paramCount := 1, softLimit := true }
  | chgHost => { name := ascii "CHGHOST", paramCount := 2, requireUser := true }
  | chgIdent => { name := ascii "CHGIDENT", paramCount := 2, requireUser := true }
  | chgName => { name := ascii "CHGNAME", paramCount := 2, requireUser := true }
  | encap => { name := ascii "ENCAP", paramCount := 2, softLimit := true }
  | endburst => { name := ascii "ENDBURST", requireServer := true }
  | fHost => { name := ascii "FHOST", paramCount := 1, requireUser := true, softLimit := true }
  | fIdent => { name := ascii "FIDENT", paramCount := 1, requireUser := true, softLimit := true }
  | fName => { name := ascii "FNAME", paramCount := 1, requireUser := true }
  | fJoin => { name := ascii "FJOIN", paramCount := 2, requireServer := true, softLimit := true }
  | fMode => { name := ascii "FMODE", paramCount := 3, softLimit := true }
  | fTopic => { name := ascii "FTOPIC", paramCount := 4, softLimit := true }
  | idle => { name := ascii "IDLE", paramCount := 1 }
  | iJoin => { name := ascii "IJOIN", paramCount := 2, requireUser := true, softLimit := true }
  | kick => { name := ascii "KICK", paramCount := 3, softLimit := true }
  | lMode => { name := ascii "LMODE", paramCount := 3, softLimit := true }
  | metadata =>
      { name := ascii "METADATA", paramCount := 2, requireServer := true, softLimit := true }
  | mode => { name := ascii "MODE", paramCount := 2, softLimit := true }
  | nick => { name := ascii "NICK", paramCount := 2, requireUser := true }
  | operType => { name := ascii "OPERTYPE", paramCount := 1, requireUser := true }
  | ping => { name := ascii "PING", paramCount := 1, softLimit := true, requireServer := true }
  | rSQuit => { name := ascii "RSQUIT", paramCount := 1, softLimit := true }
  | sasl => { name := ascii "SASL", paramCount := 4, softLimit := true }
  | save => { name := ascii "SAVE", paramCount := 2 }
  | server => { name := ascii "SERVER", paramCount := 3, requireServer := true, softLimit := true }
  | sQuit => { name := ascii "SQUIT", paramCount := 2 }
  | tagmsg => { name := ascii "TAGMSG", paramCount := 1, requireUser := true }
  | uid => { name := ascii "UID", paramCount := 8, requireServer := true, softLimit := true }

end Message

section Process

variable {υ σ χ κ : Type} (env : Env υ σ χ κ) (source : Source υ σ) (tags : Str → Option Str)

/-- `Run` of the handler of a message. -/
def Message.run (processInternal : Str → List Str → Result (List (Call υ σ χ κ)))
    (params : List Str) : Message → Result (List (Call υ σ χ κ))
  | away => Inspircd.away source params
  | capab => Inspircd.capab env params
  | chgHost => Inspircd.chgHost env params
  | chgIdent => Inspircd.chgIdent env params
  | chgName => Inspircd.chgName env params
  | encap => Inspircd.encap env params processInternal
  | endburst => Inspircd.endburst source
  | fHost => Inspircd.fHost env source params
  | fIdent => Inspircd.fIdent source params
  | fName => Inspircd.fName source params
  | fJoin => Inspircd.fJoin env params
  | fMode => Inspircd.fMode env params
  | fTopic => Inspircd.fTopic env source params
  | idle => Inspircd.idle env source params
  | iJoin => Inspircd.iJoin env source params
  | kick => Inspircd.kick env params
  | lMode => Inspircd.lMode env params
  | metadata => Inspircd.metadata env source params
  | mode => Inspircd.mode env params
  | nick => Inspircd.nick source params
  | operType => Inspircd.operType env source params tags
  | ping => Inspircd.ping env source params
  | rSQuit => Inspircd.rSQuit env params
  | sasl => Inspircd.sasl env params
  | save => Inspircd.save env params
  | server => Inspircd.server env source params
  | sQuit => Inspircd.sQuit env params
  | tagmsg => Inspircd.tagmsg
  | uid => Inspircd.uid env source params

/-- The handler that `ProcessInternal` finds, if it is one of this module. -/
def findMessage (command : Str) : Option Message :=
  Message.all.find? fun m =>
    m.declared.name.map env.casemap.tolower = command.map env.casemap.tolower

/-- The checks of `ProcessInternal`. -/
def Message.accepts (m : Message) (params : List Str) : Bool :=
  (if m.declared.softLimit then m.declared.paramCount ≤ params.length
    else params.length = m.declared.paramCount) ∧
  (m.declared.requireUser → source.user.isSome) ∧
  (m.declared.requireServer → source.source ≠ [] → source.server.isSome)

/-- The `catch` of `ProcessInternal`. -/
def caught : Result (List (Call υ σ χ κ)) → Result (List (Call υ σ χ κ))
  | .error (.thrown reason) => .ok [.sendError reason]
  | result => result

/-- `ProcessInternal`, by how deep a message may stand in others. -/
def processInternal : Nat → Str → List Str → Result (List (Call υ σ χ κ))
  | 0, _, _ => .error .outOfBounds
  | depth + 1, command, params =>
      match findMessage env command with
      | none => .ok []
      | some m =>
          if m.accepts source params then
            caught (m.run env source tags (processInternal depth) params)
          else .ok []

/-- What follows the parsing of a line; every `ENCAP` takes two parameters. -/
def process (text command : Str) (params : List Str) : Result (List (Call υ σ χ κ)) :=
  processInternal env (messageSource env text) tags (params.length + 1) command params

/-! ## The messages that reach too far -/

/-- The message that is left of one for us when every `ENCAP` around it is opened. -/
def opened : Str → List Str → Str × List Str
  | command, mask :: inner :: params =>
      if findMessage env command = some .encap ∧
          (globMatch env.casemap (env.sid env.me) mask ∨
            globMatch env.casemap (env.serverName env.me) mask) then opened inner params
      else (command, mask :: inner :: params)
  | command, params => (command, params)

/-- A parameter that is a timestamp. -/
def HasTimestamp (params : List Str) (index : Nat) : Prop :=
  ∃ text, params[index]? = some text ∧ (timestampOf text).isSome

/-- What a handler is not prepared for although it is accepted. -/
def Message.Exceeds (params : List Str) : Message → Prop
  | capab => params = [ascii "EXTBANS"]
  | fJoin => params.length < 4 ∧ HasTimestamp params 1
  | uid => params.length < 11 ∧ HasTimestamp params 1
  | mode => params.length = 2 ∧ ∃ target, params[0]? = some target ∧
      isChannelValid env target = true ∧ (env.findChannel target).isSome
  | metadata => 3 ≤ params.length ∧ source.server = none ∧
      ∃ target, params[0]? = some target ∧ first target = 35
  | endburst => source.server = none
  | ping => source.server = none ∧ params[0]? = some (env.sid env.me)
  | _ => False

/-- Whether a message is accepted although it exceeds what its handler is prepared for. -/
def ExceedsAt (message : Str × List Str) : Prop :=
  ∃ m, findMessage env message.1 = some m ∧ m.accepts source message.2 = true ∧
    m.Exceeds env source message.2

/-- Whether the message that a line carries does. -/
def Exceeds (text command : Str) (params : List Str) : Prop :=
  ExceedsAt env (messageSource env text) (opened env command params)

end Process

end Anope.Inspircd
