import Anope.Mode.Entry
import Mathlib.Data.List.AList

/-!
# Channel access

Access lists of registered channels.  An entry is for an account, for a mask, or
for a channel, whose own access list then counts as well.  `AccessFor` collects
the paths of entries that match a user or an account.
-/

namespace Anope.Access

open Anope.Text Anope.Text.Match

/-- `ChanAccess`.  Without an account the entry is for its mask. -/
structure ChanAccess (ν : Type) where
  mask : Str
  nc : Option ν
  lastSeen : Int

/-- `ChannelInfo`; the entries of a level are found up to case. -/
structure ChannelInfo (α ν : Type) where
  access : List α
  founder : Option ν
  levels : AList fun _ : Str => Int
  lastUsed : Int

/-- The registered channels `χ`, the access entries `α` and the accounts `ν`.
`registeredChannelList` has the names up to case. -/
structure Registry (χ α ν : Type) where
  channel : χ → ChannelInfo α ν
  access : α → ChanAccess ν
  aliases : ν → List Str
  registeredChannelList : AList fun _ : Str => χ

/-- `User`, as far as access depends on it. -/
structure User (ν : Type) extends Mode.User where
  superAdmin : Bool
  account : Option ν

/-- `EventReturn`. -/
inductive EventReturn where
  | stop
  | continue
  | allow
  deriving DecidableEq, Repr

/-- `AccessGroup`. -/
structure AccessGroup (χ α ν : Type) where
  paths : List (List α)
  ci : Option χ
  nc : Option ν
  superAdmin : Bool
  founder : Bool

/-- What access depends on besides the registry: the case map, the length of
channel names, the names of the privileges, `ChanAccess::HasPriv` of the access
providers, and the modules that handle the two events. -/
structure Env (χ α ν : Type) where
  casemap : Casemap
  maxChannel : Nat
  privileges : List Str
  grants : α → Str → Bool
  onCheckPriv : α → Str → EventReturn
  onGroupCheckPriv : AccessGroup χ α ν → Str → EventReturn

/-- `ChanAccess::MAX_DEPTH`. -/
def maxDepth : Nat := 4

/-- `ACCESS_INVALID`. -/
def accessInvalid : Int := -10000

/-- `User::GetDisplayedMask`. -/
def User.getDisplayedMask {ν : Type} (u : User ν) : Str :=
  u.nick ++ 33 :: u.getVIdent ++ 64 :: u.getDisplayedHost

variable {χ α ν : Type}

/-- `IRCDProto::IsChannelValid`. -/
def Env.isChannelValid (env : Env χ α ν) (chan : Str) : Bool :=
  chan.head? = some 35 && chan.length ≤ env.maxChannel && !chan.any fun c => c = 32 ∨ c = 44

/-- `ChannelInfo::Find`. -/
def Registry.find (env : Env χ α ν) (registry : Registry χ α ν) (name : Str) : Option χ :=
  registry.registeredChannelList.lookup (env.casemap.ciStr name)

/-- `ChannelInfo::GetLevel`. -/
def Env.getLevel (env : Env χ α ν) (ci : ChannelInfo α ν) (priv : Str) : Int :=
  if env.privileges.any (env.casemap.equalsCi · priv) then
    (ci.levels.lookup (env.casemap.ciStr priv)).getD 0
  else accessInvalid

/-- Whether a mask has one of the characters `!@?*`. -/
def isMask (mask : Str) : Bool :=
  mask.any fun c => c = 33 ∨ c = 64 ∨ c = 63 ∨ c = 42

section Matches

variable [DecidableEq ν] (env : Env χ α ν) (registry : Registry χ α ν)

/-- `ChanAccess::Matches`: the result, and the channel `next`. -/
def ChanAccess.matches (a : ChanAccess ν) (u : Option (User ν)) (acc : Option ν) :
    Bool × Option χ :=
  match a.nc with
  | some nc => (some nc = acc, none)
  | none =>
      let matchesUser := u.any fun u =>
        (isMask a.mask && globMatch env.casemap u.nick a.mask) ||
          globMatch env.casemap u.getDisplayedMask a.mask
      let matchesAlias := acc.any fun nc =>
        (registry.aliases nc).any fun nick => globMatch env.casemap nick a.mask
      if matchesUser || matchesAlias then (true, none)
      else (false, if env.isChannelValid a.mask then registry.find env a.mask else none)

/-- `FindMatchesRecurse`; the loop adds to `paths`. -/
def findMatchesRecurse (u : Option (User ν)) (account : Option ν) (ci : χ) (depth : Nat)
    (paths : List (List α)) (path : List α) : List (List α) :=
  if depth > maxDepth then paths
  else
    (registry.channel ci).access.foldl
      (fun paths a =>
        match (registry.access a).matches env registry u account with
        | (true, _) => paths ++ [path ++ [a]]
        | (false, some next) =>
            findMatchesRecurse u account next (depth + 1) paths (path ++ [a])
        | (false, none) => paths)
      paths
termination_by maxDepth + 1 - depth

/-- `FindMatches`. -/
def findMatches (ci : χ) (u : Option (User ν)) (account : Option ν) : List (List α) :=
  findMatchesRecurse env registry u account ci 0 [] []

/-- `IsFounder`. -/
def isFounder (u : User ν) (ci : ChannelInfo α ν) : Bool :=
  u.superAdmin || (u.account.isSome && u.account = ci.founder)

/-- The default `AccessGroup`. -/
def AccessGroup.empty : AccessGroup χ α ν where
  paths := []
  ci := none
  nc := none
  superAdmin := false
  founder := false

/-- `ChannelInfo::AccessFor(const User *, bool)`: the group. -/
def accessForUser (ci : χ) : Option (User ν) → AccessGroup χ α ν
  | none => .empty
  | some u =>
      { paths := findMatches env registry ci (some u) u.account
        ci := some ci
        nc := u.account
        superAdmin := u.superAdmin
        founder := isFounder u (registry.channel ci) }

/-- `ChannelInfo::AccessFor(const NickCore *, bool)`: the group. -/
def accessForAccount (ci : χ) (nc : Option ν) : AccessGroup χ α ν where
  paths := findMatches env registry ci none nc
  ci := some ci
  nc := nc
  superAdmin := false
  founder := (registry.channel ci).founder.isSome && (registry.channel ci).founder = nc

end Matches

section Touch

variable [DecidableEq χ] [DecidableEq α] (registry : Registry χ α ν) (curTime : Int)

/-- The channel of a group was used, when the group has anybody in it. -/
def touchChannel (group : AccessGroup χ α ν) : Registry χ α ν :=
  if group.founder ∨ group.paths ≠ [] then
    { registry with
      channel := fun ci =>
        if group.ci = some ci then { registry.channel ci with lastUsed := curTime }
        else registry.channel ci }
  else registry

/-- What `AccessFor` updates for a user: every entry on a path was seen. -/
def touchForUser (group : AccessGroup χ α ν) (updateLastUsed : Bool) : Registry χ α ν :=
  let used := if updateLastUsed then touchChannel registry curTime group else registry
  { used with
    access := fun a =>
      if a ∈ group.paths.flatten then { used.access a with lastSeen := curTime }
      else used.access a }

/-- What `AccessFor` updates for an account. -/
def touchForAccount (group : AccessGroup χ α ν) (updateLastUsed : Bool) : Registry χ α ν :=
  if updateLastUsed then touchChannel registry curTime group else registry

end Touch

/-- `::HasPriv(path, name)`. -/
def pathHasPriv (env : Env χ α ν) (path : List α) (name : Str) : Bool :=
  !path.isEmpty && path.all fun access =>
    env.onCheckPriv access name = .allow || env.grants access name

/-- `AccessGroup::HasPriv`. -/
def AccessGroup.hasPriv (env : Env χ α ν) (registry : Registry χ α ν)
    (group : AccessGroup χ α ν) (name : Str) : Bool :=
  if group.superAdmin then true
  else if group.ci.all fun ci => env.getLevel (registry.channel ci) name = accessInvalid then false
  -- A founder without an entry has the automatic privileges as well.
  else if (!(ascii "AUTO").isPrefixOf name || group.paths.isEmpty) && group.founder then true
  else
    match env.onGroupCheckPriv group name with
    | .allow => true
    | .stop => false
    | .continue => group.paths.reverse.any fun path => pathHasPriv env path name

end Anope.Access

/-!
## Entries of the access systems

The entries that `cs_access`, `cs_xop` and `cs_flags` put on access lists, the
privileges they give and how they compare.  Where entries of two systems are
compared, the highest privilege that only one of them gives decides.
-/

namespace Anope.Access

/-- What an entry of an access system stores. -/
inductive Grant where
  /-- `AccessChanAccess`. -/
  | access (level : Int)
  /-- `XOPChanAccess`. -/
  | xop (type : Str)
  /-- `FlagsChanAccess`; the order of the flags is not kept. -/
  | flags (flags : List UInt8)
  deriving DecidableEq, Repr

/-- A `ChanAccess` with the data of its provider. -/
structure Entry (ν : Type) where
  mask : Str
  nc : Option ν
  grant : Grant
  creator : Str
  description : Str
  lastSeen : Int
  created : Int
  deriving DecidableEq, Repr

/-- The privileges, from the lowest to the highest, the levels of a channel and the
tables of the access systems. -/
structure Systems where
  privileges : List Str
  getLevel : Str → Int
  /-- `defaultLevels` of `cs_access`. -/
  defaultLevels : List (Str × Int)
  /-- `order` of `cs_xop`. -/
  order : List Str
  /-- `permissions` of `cs_xop`, in the order of the names. -/
  permissions : List (Str × List Str)
  /-- `defaultFlags` of `cs_flags`, in the order of the names. -/
  defaultFlags : List (Str × UInt8)
  distinct : (defaultFlags.map Prod.fst).Nodup

/-- `ACCESS_FOUNDER`. -/
def accessFounder : Int := 10001

/-- One side has the highest privilege that the sides do not both lack, and the other
side lacks it. -/
def outranks (privileges : List Str) (left right : Str → Bool) : Bool :=
  match privileges.reverse.find? fun priv => left priv || right priv with
  | none => false
  | some priv => left priv && !right priv

namespace Grant

/-- `HasPriv` of the access systems. -/
def hasPriv (systems : Systems) : Grant → Str → Bool
  | access level, priv => systems.getLevel priv ≠ accessInvalid && systems.getLevel priv ≤ level
  | xop type, priv =>
      (systems.order.dropWhile (· ≠ type)).any fun name =>
        ((systems.permissions.lookup name).getD []).contains priv
  | flags set, priv => (systems.defaultFlags.lookup priv).any set.contains

/-- `operator>`: levels compare as numbers. -/
def gt (systems : Systems) (left right : Grant) : Bool :=
  match left, right with
  | access level, access other => level > other
  | _, _ => outranks systems.privileges (left.hasPriv systems) (right.hasPriv systems)

/-- `operator<`. -/
def lt (systems : Systems) (left right : Grant) : Bool :=
  match left, right with
  | access level, access other => level < other
  | _, _ => outranks systems.privileges (right.hasPriv systems) (left.hasPriv systems)

/-- `operator>=`. -/
def ge (systems : Systems) (left right : Grant) : Bool :=
  !left.lt systems right

/-- `operator<=`. -/
def le (systems : Systems) (left right : Grant) : Bool :=
  !left.gt systems right

/-- `XOPChanAccess::DetermineLevel`: the first of the names with most privileges in
common. -/
def determineLevel (systems : Systems) : Grant → Str
  | xop type => type
  | grant =>
      (systems.permissions.foldl
        (fun best permission =>
          let count := permission.2.countP (grant.hasPriv systems)
          if count > best.2 then (permission.1, count) else best)
        ([], 0)).1

end Grant

/-- Whether `defaultLevels` has a level for a privilege. -/
def Systems.defaultLevel (systems : Systems) (priv : Str) : Int :=
  (systems.defaultLevels.lookup priv).getD 0

end Anope.Access
