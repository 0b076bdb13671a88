import Anope.Mode.Core
import Anope.Text.Casemap
import Anope.Library.Counter
import Anope.Library.Run
import Mathlib.Data.List.Lex
import Mathlib.Order.Defs.LinearOrder

/-!
# Channel references

An account counts for every channel the places in which the channel refers to
it: as founder or successor, in access entries and in akicks.  A channel counts
the access entries of other channels that name it.  The counts say where to look
when an account or a channel goes away.
-/

namespace Anope.Reference

open Anope.Text Library.Counter

/-- `ChanAccess`: for an account, or for a mask.  `data` is what the access
provider keeps. -/
structure ChanAccess (ν δ : Type) where
  mask : Str
  nc : Option ν
  data : δ

/-- `ChanServ::AutoKick`. -/
structure AutoKick (ν : Type) where
  mask : Str
  nc : Option ν

/-- `ChannelInfo`; `references` has the names of channels up to case. -/
structure ChannelInfo (ν δ : Type) where
  name : Str
  founder : Option ν
  successor : Option ν
  access : List (ChanAccess ν δ)
  akicks : List (AutoKick ν)
  references : AList fun _ : Str => Int

/-- `NickCore`. -/
structure NickCore (χ : Type) where
  display : Str
  isServicesOper : Bool
  channelcount : UInt16
  chanaccess : AList fun _ : χ => Int

/-- The accounts and channels by address, and the tables that find them by a
name up to case.  A `Serialize::Reference` to a destroyed account is `none`. -/
structure State (χ ν δ : Type) where
  cores : ν → Option (NickCore χ)
  channels : χ → Option (ChannelInfo ν δ)
  registeredChannelList : AList fun _ : Str => χ
  nickAliasList : AList fun _ : Str => ν

/-- What the hooks depend on: the case map, `maxregistered`, the privileges in
the order of their ranks, `HasPriv` of the access providers, and whether
`cs_akick` was loaded before `chanserv`. -/
structure Env (δ : Type) where
  casemap : Casemap
  maxRegistered : UInt16
  privileges : List Str
  hasPriv : δ → Str → Bool
  akickFirst : Bool

variable {χ ν δ : Type}

/-- `ChanAccess::operator>`. -/
def ChanAccess.gt (env : Env δ) (this other : ChanAccess ν δ) : Bool :=
  match env.privileges.reverse.find? fun priv =>
      env.hasPriv this.data priv || env.hasPriv other.data priv with
  | some priv => env.hasPriv this.data priv && !env.hasPriv other.data priv
  | none => false

/-- The state in which nothing is registered. -/
def State.empty : State χ ν δ where
  cores := fun _ => none
  channels := fun _ => none
  registeredChannelList := ∅
  nickAliasList := ∅

/-- `ChannelInfo::Find`. -/
def State.find (env : Env δ) (s : State χ ν δ) (name : Str) : Option χ :=
  s.registeredChannelList.lookup (env.casemap.ciStr name)

/-- `ChanAccess::Mask`. -/
def ChanAccess.getMask (s : State χ ν δ) (a : ChanAccess ν δ) : Str :=
  match a.nc.bind s.cores with
  | some nc => nc.display
  | none => a.mask

variable [LinearOrder χ] [DecidableEq ν]

/-- Write to an account, when there is one. -/
def State.modifyCore (s : State χ ν δ) (nc : Option ν) (write : NickCore χ → NickCore χ) :
    State χ ν δ :=
  match nc with
  | some nc => { s with cores := Function.update s.cores nc ((s.cores nc).map write) }
  | none => s

/-- Write to a channel. -/
def State.modifyChannel (s : State χ ν δ) (ci : χ)
    (write : ChannelInfo ν δ → ChannelInfo ν δ) : State χ ν δ :=
  { s with channels := Function.update s.channels ci ((s.channels ci).map write) }

/-- Write to the channel registered under a name, when there is one. -/
def State.modifyNamed (env : Env δ) (s : State χ ν δ) (name : Str)
    (write : ChannelInfo ν δ → ChannelInfo ν δ) : State χ ν δ :=
  match s.find env name with
  | some ci => s.modifyChannel ci write
  | none => s

/-- `NickCore::AddChannelReference`. -/
def NickCore.addChannelReference (ci : χ) (nc : NickCore χ) : NickCore χ :=
  { nc with chanaccess := increment nc.chanaccess ci }

/-- `NickCore::RemoveChannelReference`. -/
def NickCore.removeChannelReference (ci : χ) (nc : NickCore χ) : NickCore χ :=
  { nc with chanaccess := decrement nc.chanaccess ci }

/-- `ChannelInfo::AddChannelReference`. -/
def ChannelInfo.addChannelReference (env : Env δ) (what : Str) (ci : ChannelInfo ν δ) :
    ChannelInfo ν δ :=
  { ci with references := increment ci.references (env.casemap.ciStr what) }

/-- `ChannelInfo::RemoveChannelReference`. -/
def ChannelInfo.removeChannelReference (env : Env δ) (what : Str) (ci : ChannelInfo ν δ) :
    ChannelInfo ν δ :=
  { ci with references := decrement ci.references (env.casemap.ciStr what) }

namespace State

/-- `ChannelInfo::SetFounder`. -/
def setFounder (ci : χ) (nc : Option ν) (s : State χ ν δ) : State χ ν δ :=
  let released := s.modifyCore ((s.channels ci).bind ChannelInfo.founder) fun core =>
    { core with channelcount := core.channelcount - 1 }.removeChannelReference ci
  (released.modifyChannel ci fun info => { info with founder := nc }).modifyCore nc fun core =>
    { core with channelcount := core.channelcount + 1 }.addChannelReference ci

/-- `ChannelInfo::SetSuccessor`. -/
def setSuccessor (ci : χ) (nc : Option ν) (s : State χ ν δ) : State χ ν δ :=
  let released := s.modifyCore ((s.channels ci).bind ChannelInfo.successor)
    (·.removeChannelReference ci)
  (released.modifyChannel ci fun info => { info with successor := nc }).modifyCore nc
    (·.addChannelReference ci)

variable (env : Env δ)

/-- What an entry of the channel `ci`, with the name `what`, referred to is
told that it no longer does. -/
def releaseAccess (ci : χ) (what : Str) (a : ChanAccess ν δ) (s : State χ ν δ) : State χ ν δ :=
  match a.nc with
  | some nc => s.modifyCore (some nc) (·.removeChannelReference ci)
  | none => s.modifyNamed env a.mask (·.removeChannelReference env what)

/-- The first part of `ChanAccess::SetMask`; a new entry refers to nothing yet. -/
def releaseMask (ci : χ) (what : Str) (a : ChanAccess ν δ) (s : State χ ν δ) : State χ ν δ :=
  if a.nc = none ∧ a.mask = [] then s else s.releaseAccess env ci what a

/-- The second part of `ChanAccess::SetMask`: the entry and the state after it. -/
def assignMask (ci : χ) (what m : Str) (a : ChanAccess ν δ) (s : State χ ν δ) :
    ChanAccess ν δ × State χ ν δ :=
  match s.nickAliasList.lookup (env.casemap.ciStr m) with
  | some nc =>
      ({ a with mask := [], nc := some nc }, s.modifyCore (some nc) (·.addChannelReference ci))
  | none =>
      ({ a with mask := m, nc := none }, s.modifyNamed env m (·.addChannelReference env what))

/-- `ChanAccess::SetMask` on an entry of the channel `ci` with the name `what`. -/
def setMask (ci : χ) (what m : Str) (a : ChanAccess ν δ) (s : State χ ν δ) :
    ChanAccess ν δ × State χ ν δ :=
  (s.releaseMask env ci what a).assignMask env ci what m a

/-- An access provider's entry: `Create`, `SetMask` and `AddAccess`. -/
def addAccess (ci : χ) (m : Str) (data : δ) (s : State χ ν δ) : State χ ν δ :=
  match s.channels ci with
  | some info =>
      match s.setMask env ci info.name m { mask := [], nc := none, data } with
      | (a, s) => s.modifyChannel ci fun info => { info with access := info.access ++ [a] }
  | none => s

/-- `SetMask` on the entry at an index of the access list. -/
def resetMask (ci : χ) (index : Nat) (m : Str) (s : State χ ν δ) : State χ ν δ :=
  match s.channels ci with
  | some info =>
      match info.access[index]? with
      | some a =>
          match s.setMask env ci info.name m a with
          | (a, s) => s.modifyChannel ci fun info => { info with access := info.access.set index a }
      | none => s
  | none => s

/-- `delete ci->EraseAccess(index)`; `~ChanAccess` looks up again what the entry
referred to. -/
def deleteAccess (ci : χ) (index : Nat) (s : State χ ν δ) : State χ ν δ :=
  match s.channels ci with
  | some info =>
      match info.access[index]? with
      | some a =>
          (s.modifyChannel ci fun info =>
            { info with access := info.access.eraseIdx index }).releaseAccess env ci info.name a
      | none => s
  | none => s

/-- The loop of `ChannelInfo::ClearAccess` from the index `size` down. -/
def clearAccess (ci : χ) : Nat → State χ ν δ → State χ ν δ
  | 0, s => s
  | size + 1, s => clearAccess ci size (s.deleteAccess env ci size)

end State

/-- `AKickService::AddAKick`, for an account. -/
def State.addAKick (ci : χ) (akicknc : ν) (s : State χ ν δ) : State χ ν δ :=
  (s.modifyChannel ci fun info =>
    { info with akicks := info.akicks ++ [{ mask := [], nc := some akicknc }] }).modifyCore
      (some akicknc) (·.addChannelReference ci)

/-- `AKickService::AddAKick`, for a mask. -/
def State.addAKickMask (ci : χ) (mask : Str) (s : State χ ν δ) : State χ ν δ :=
  s.modifyChannel ci fun info =>
    { info with akicks := info.akicks ++ [{ mask := mask, nc := none }] }

/-- `AKickService::EraseAKick`, with `~AutoKick`. -/
def State.eraseAKick (ci : χ) (index : Nat) (s : State χ ν δ) : State χ ν δ :=
  match (s.channels ci).bind fun info => info.akicks[index]? with
  | some akick =>
      (s.modifyChannel ci fun info =>
        { info with akicks := info.akicks.eraseIdx index }).modifyCore akick.nc
          (·.removeChannelReference ci)
  | none => s

/-- The loop of `AKickService::ClearAKick`. -/
def State.clearAKick (ci : χ) : Nat → State χ ν δ → State χ ν δ
  | 0, s => s
  | size + 1, s => State.clearAKick ci size (s.eraseAKick ci size)

/-! ## What goes with a channel or an account -/

namespace State

/-- `chanserv`'s handler of `OnDelChan`: in every channel that counts as one that
refers to `ci`, the first entry for `ci` is removed. -/
def delChanEntries (env : Env δ) (ci : χ) (s : State χ ν δ) : State χ ν δ :=
  match s.channels ci with
  | some info =>
      (info.references.keys.mergeSort (· ≤ ·)).foldl
        (fun s chan =>
          match s.registeredChannelList.lookup chan with
          | some c =>
              match (s.channels c).bind fun other =>
                  other.access.findIdx? fun a =>
                    env.casemap.equalsCi (a.getMask s) info.name with
              | some j => s.deleteAccess env c j
              | none => s
          | none => s)
        s
  | none => s

/-- `cs_akick`'s handler of `OnDelChan`. -/
def delChanAKicks (ci : χ) (s : State χ ν δ) : State χ ν δ :=
  match s.channels ci with
  | some info => s.clearAKick ci info.akicks.length
  | none => s

/-- `OnDelChan`, for the modules in the order in which they were loaded. -/
def onDelChan (env : Env δ) (ci : χ) (s : State χ ν δ) : State χ ν δ :=
  if env.akickFirst then (s.delChanAKicks ci).delChanEntries env ci
  else (s.delChanEntries env ci).delChanAKicks ci

/-- What `~ChannelInfo` does once the channel is not registered any more. -/
def releaseAll (env : Env δ) (ci : χ) (s : State χ ν δ) : State χ ν δ :=
  let released := (s.setFounder ci none).setSuccessor ci none
  released.clearAccess env ci ((released.channels ci).elim 0 fun info => info.access.length)

/-- `ChannelInfo::~ChannelInfo`. -/
def deleteChannel (env : Env δ) (ci : χ) (s : State χ ν δ) : State χ ν δ :=
  match s.channels ci with
  | some info =>
      let handled := s.onDelChan env ci
      let unlisted := { handled with
        registeredChannelList :=
          handled.registeredChannelList.erase (env.casemap.ciStr info.name) }
      let released := unlisted.releaseAll env ci
      { released with channels := Function.update released.channels ci none }
  | none => s

/-- Whether an account may own one more channel. -/
def mayOwn (env : Env δ) (s : State χ ν δ) (nc : ν) : Bool :=
  (s.cores nc).any fun core =>
    core.isServicesOper || env.maxRegistered = 0 || core.channelcount < env.maxRegistered

/-- The highest access entry for another account that may own the channel. -/
def highestAccess (env : Env δ) (s : State χ ν δ) (nc : ν) (access : List (ChanAccess ν δ)) :
    Option (ChanAccess ν δ) :=
  access.foldl
    (fun highest ca =>
      if ca.nc.any fun anc => s.mayOwn env anc && anc ≠ nc then
        if highest.all fun high => ca.gt env high then some ca else highest
      else highest)
    none

/-- The account that a channel of the deleted account `nc` goes to. -/
def newOwner (env : Env δ) (s : State χ ν δ) (nc : ν) (ci : ChannelInfo ν δ) : Option ν :=
  match ci.successor.filter fun successor => successor ≠ nc && s.mayOwn env successor with
  | some successor => some successor
  | none => (s.highestAccess env nc ci.access).bind ChanAccess.nc

/-- What goes from a channel that stays: the successor `nc` and the first entry
for `nc`. -/
def leaveChannel (env : Env δ) (nc : ν) (ci : χ) (s : State χ ν δ) : State χ ν δ :=
  let left := if (s.channels ci).bind ChannelInfo.successor = some nc then s.setSuccessor ci none
    else s
  match (left.channels ci).bind fun info => info.access.findIdx? fun a => a.nc = some nc with
  | some j => left.deleteAccess env ci j
  | none => left

/-- One round of `chanserv`'s handler of `OnDelCore`. -/
def delCoreChannel (env : Env δ) (nc : ν) (s : State χ ν δ) (ci : χ) : State χ ν δ :=
  match s.channels ci with
  | some info =>
      if info.founder = some nc then
        match s.newOwner env nc info with
        | some newowner =>
            ((s.setFounder ci (some newowner)).setSuccessor ci none).leaveChannel env nc ci
        | none => s.deleteChannel env ci
      else s.leaveChannel env nc ci
  | none => s

/-- One round of `cs_akick`'s handler of `OnDelCore`. -/
def delCoreAKick (nc : ν) (s : State χ ν δ) (ci : χ) : State χ ν δ :=
  match (s.channels ci).bind fun info => info.akicks.findIdx? fun akick => akick.nc = some nc with
  | some j => s.eraseAKick ci j
  | none => s

/-- `GetChannelReferences` of an account; the map is in the order of addresses. -/
def getChannelReferences (s : State χ ν δ) (nc : ν) : List χ :=
  (s.cores nc).elim [] fun core => core.chanaccess.keys.mergeSort (· ≤ ·)

/-- `OnDelCore`, for the modules in the order in which they were loaded. -/
def onDelCore (env : Env δ) (nc : ν) (s : State χ ν δ) : State χ ν δ :=
  let chanserv := fun s : State χ ν δ =>
    (s.getChannelReferences nc).foldl (State.delCoreChannel env nc) s
  let akick := fun s : State χ ν δ => (s.getChannelReferences nc).foldl (State.delCoreAKick nc) s
  if env.akickFirst then chanserv (akick s) else akick (chanserv s)

/-- A `Serialize::Reference` after `nc` was destroyed. -/
def invalidate (nc : ν) (reference : Option ν) : Option ν :=
  reference.filter (· ≠ nc)

/-- The references of a channel after `nc` was destroyed. -/
def invalidateChannel (nc : ν) (ci : ChannelInfo ν δ) : ChannelInfo ν δ :=
  { ci with
    founder := invalidate nc ci.founder
    successor := invalidate nc ci.successor
    access := ci.access.map fun a => { a with nc := invalidate nc a.nc }
    akicks := ci.akicks.map fun akick => { akick with nc := invalidate nc akick.nc } }

/-- `NickCore::~NickCore`. -/
def deleteCore (env : Env δ) (nc : ν) (s : State χ ν δ) : State χ ν δ :=
  let handled := s.onDelCore env nc
  { handled with
    cores := Function.update handled.cores nc none
    channels := fun ci => (handled.channels ci).map (invalidateChannel nc) }

end State

/-! ## Transitions -/

/-- What may happen to the accounts and channels.  An account goes with its last
nick. -/
inductive Action (χ ν δ : Type) where
  | createCore (nc : ν) (display : Str) (isServicesOper : Bool)
  | createNick (nick : Str) (nc : ν)
  | deleteNick (nick : Str)
  | createChannel (ci : χ) (chname : Str)
  | deleteChannel (ci : χ)
  | setFounder (ci : χ) (nc : Option ν)
  | setSuccessor (ci : χ) (nc : Option ν)
  | addAccess (ci : χ) (mask : Str) (data : δ)
  | setMask (ci : χ) (index : Nat) (mask : Str)
  | deleteAccess (ci : χ) (index : Nat)
  | addAKick (ci : χ) (akicknc : ν)
  | addAKickMask (ci : χ) (mask : Str)
  | eraseAKick (ci : χ) (index : Nat)

/-- `NickCore::NickCore`. -/
def NickCore.create (display : Str) (isServicesOper : Bool) : NickCore χ where
  display := display
  isServicesOper := isServicesOper
  channelcount := 0
  chanaccess := ∅

/-- `ChannelInfo::ChannelInfo`. -/
def ChannelInfo.create (chname : Str) : ChannelInfo ν δ where
  name := chname
  founder := none
  successor := none
  access := []
  akicks := []
  references := ∅

namespace State

/-- `NickAlias::~NickAlias`. -/
def deleteNick (env : Env δ) (nick : Str) (nc : ν) (s : State χ ν δ) : State χ ν δ :=
  let rest := s.nickAliasList.erase (env.casemap.ciStr nick)
  let left := if rest.entries.any fun entry => entry.2 = nc then s else s.deleteCore env nc
  { left with nickAliasList := left.nickAliasList.erase (env.casemap.ciStr nick) }

/-- `ChannelInfo::ChannelInfo(chname)` at the address `ci`. -/
def createChannel (env : Env δ) (ci : χ) (chname : Str) (s : State χ ν δ) : State χ ν δ :=
  { s with
    channels := Function.update s.channels ci (some (.create chname))
    registeredChannelList := s.registeredChannelList.insert (env.casemap.ciStr chname) ci }

/-- `NickCore::NickCore(display)` at the address `nc`. -/
def createCore (nc : ν) (display : Str) (isServicesOper : Bool) (s : State χ ν δ) :
    State χ ν δ :=
  { s with cores := Function.update s.cores nc (some (.create display isServicesOper)) }

/-- Whether an account or no account at all was given. -/
def isLive (s : State χ ν δ) (nc : Option ν) : Bool :=
  nc.all fun nc => (s.cores nc).isSome

end State

/-- The transitions.  New objects are at addresses that are not in use, and only
a name that is not registered and starts with `#` can be registered. -/
def step (env : Env δ) (s : State χ ν δ) : Action χ ν δ → Option (State χ ν δ)
  | .createCore nc display oper =>
      if s.cores nc = none then some (s.createCore nc display oper) else none
  | .createNick nick nc =>
      if (s.cores nc).isSome ∧ s.nickAliasList.lookup (env.casemap.ciStr nick) = none then
        some { s with nickAliasList := s.nickAliasList.insert (env.casemap.ciStr nick) nc }
      else none
  | .deleteNick nick =>
      (s.nickAliasList.lookup (env.casemap.ciStr nick)).map fun nc => s.deleteNick env nick nc
  | .createChannel ci chname =>
      if s.channels ci = none ∧ s.find env chname = none ∧ chname.head? = some 35 then
        some (s.createChannel env ci chname)
      else none
  | .deleteChannel ci => if (s.channels ci).isSome then some (s.deleteChannel env ci) else none
  | .setFounder ci nc =>
      if (s.channels ci).isSome ∧ s.isLive nc then some (s.setFounder ci nc) else none
  | .setSuccessor ci nc =>
      if (s.channels ci).isSome ∧ s.isLive nc then some (s.setSuccessor ci nc) else none
  | .addAccess ci mask data =>
      if (s.channels ci).isSome then some (s.addAccess env ci mask data) else none
  | .setMask ci index mask =>
      if (s.channels ci).isSome then some (s.resetMask env ci index mask) else none
  | .deleteAccess ci index =>
      if (s.channels ci).isSome then some (s.deleteAccess env ci index) else none
  | .addAKick ci akicknc =>
      if (s.channels ci).isSome ∧ s.isLive (some akicknc) then some (s.addAKick ci akicknc)
      else none
  | .addAKickMask ci mask =>
      if (s.channels ci).isSome then some (s.addAKickMask ci mask) else none
  | .eraseAKick ci index =>
      if (s.channels ci).isSome then some (s.eraseAKick ci index) else none

end Anope.Reference
