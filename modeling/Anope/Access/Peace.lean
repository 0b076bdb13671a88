import Anope.Access.Core
import Anope.Access.Reach
import Mathlib.Data.List.DropRight

/-!
# Peace and automatic kicks

`AKICK ADD`.  On a channel with `PEACE` the command looks for users and registered nicks
with at least the access of its source that the new mask would catch.
-/

namespace Anope.Access

open Library.Split
open Anope.Net
open Anope.Text Anope.Text.Match

variable {χ α ν : Type}

/-! ## Groups compared -/

namespace AccessGroup

/-- `operator<`. -/
def lt (env : Env χ α ν) (registry : Registry χ α ν) (left right : AccessGroup χ α ν) : Bool :=
  if left.superAdmin then false
  else if right.superAdmin then true
  else if left.founder then false
  else if right.founder then true
  else outranks env.privileges (right.hasPriv env registry) (left.hasPriv env registry)

/-- `operator>=`. -/
def ge (env : Env χ α ν) (registry : Registry χ α ν) (left right : AccessGroup χ α ν) : Bool :=
  !left.lt env registry right

theorem ge_of_superAdmin {env : Env χ α ν} {registry : Registry χ α ν}
    {left : AccessGroup χ α ν} (admin : left.superAdmin = true) (right : AccessGroup χ α ν) :
    left.ge env registry right = true := by
  rw [ge, lt, if_pos admin, Bool.not_false]

end AccessGroup

/-! ## The command -/

/-- `AutoKick`. -/
structure AutoKick (ν : Type) where
  mask : Str
  nc : Option ν
  reason : Str
  creator : Str
  addtime : Int
  lastUsed : Int

/-- `NickAlias`. -/
structure NickAlias (ν : Type) where
  nick : Str
  lastUserhost : Str
  nc : ν

/-- A registered channel with its extensions. -/
structure KickChannel (χ ν : Type) where
  ci : χ
  name : Str
  /-- The extension `PEACE`. -/
  peace : Bool
  /-- The list of the mode `EXCEPT`, when the channel exists. -/
  excepts : List Str
  akicks : List (AutoKick ν)

/-- The network that `cs_akick` sees, and its configuration. -/
structure Network (χ α ν : Type) where
  env : Env χ α ν
  registry : Registry χ α ν
  inet : Inet
  extbans : Mode.Entry.Extbans
  /-- `UserListByNick`. -/
  users : List (User ν)
  /-- `NickAliasList`. -/
  aliases : List (NickAlias ν)
  /-- `NickAlias::Find`: the account. -/
  findAlias : Str → Option ν
  display : ν → Str
  /-- `Channel::Find`, with `FindUser` of the channel. -/
  findChannel : Str → Option (User ν → Bool)
  reasonMax : Nat
  autokickMax : Nat
  curTime : Int

/-- The replies that end `AKICK ADD`. -/
inductive KickReply where
  | accessDenied
  | excepted (mask : Str)
  | exists (mask : Str)
  | limit (max : Nat)
  deriving DecidableEq, Repr

/-- The source of a command: its nick, and its user or account. -/
structure KickSource (ν : Type) where
  nick : Str
  subject : Option (Subject ν)

/-- What `DoAdd` reads from its parameters. -/
structure KickTarget (ν : Type) where
  mask : Str
  nc : Option ν
  reason : Str

/-- `Anope::string::trim()`. -/
def trim (text : Str) : Str :=
  let isBlank (c : UInt8) : Bool := c = 32 ∨ c = 9 ∨ c = 13 ∨ c = 10
  (text.dropWhile isBlank).rdropWhile isBlank

/-- A realname in a mask goes on in the reason, up to a colon. -/
def readRealname (mask reason : Str) : Str × Str :=
  if 35 ∈ mask then
    match cut 58 reason with
    | some (before, after) => (trim (mask ++ 32 :: before), trim after)
    | none => (mask ++ 32 :: reason, [])
  else (mask, reason)

section Command

variable [DecidableEq ν] (net : Network χ α ν) (channel : KickChannel χ ν)
  (source : KickSource ν)

/-- `CommandSource::AccessFor`. -/
def KickSource.access : AccessGroup χ α ν :=
  match source.subject with
  | some subject => accessFor net.env net.registry channel.ci subject
  | none => .empty

/-- The access of a user is at least the one of the source. -/
def Network.userAtLeast (u : User ν) : Bool :=
  (accessForUser net.env net.registry channel.ci (some u)).ge net.env net.registry
    (source.access net channel)

/-- The access of an account is at least the one of the source. -/
def Network.accountAtLeast (nc : Option ν) : Bool :=
  (accessForAccount net.env net.registry channel.ci nc).ge net.env net.registry
    (source.access net channel)

/-- `Entry(mask, name).Matches(u)`. -/
def Network.entryMatches (mask name : Str) (u : User ν) : Bool :=
  (Mode.Entry.build net.env.casemap net.inet mask name true).matchesUser net.env.casemap net.inet
    net.extbans u.toUser false

/-- The mask of a registered nick. -/
def NickAlias.lastMask (na : NickAlias ν) : Str :=
  na.nick ++ 33 :: na.lastUserhost

/-- The first part of `DoAdd`: whether the mask is completed, and the account. -/
def readTarget (mask reason : Str) : Except KickReply (KickTarget ν) :=
  let reason := reason.take net.reasonMax
  if net.extbans.isExtbanValid mask then .ok ⟨mask, none, reason⟩
  else if net.env.isChannelValid mask then
    if net.env.casemap.equalsCi mask channel.name && channel.peace then .error .accessDenied
    else .ok ⟨mask, none, reason⟩
  else
    match net.findAlias mask with
    | some nc => .ok ⟨mask, some nc, reason⟩
    | none =>
        let (mask, reason) := readRealname mask reason
        let entry := Mode.Entry.build net.env.casemap net.inet mask [] true
        .ok ⟨entry.getCleanMask, none, reason⟩

/-- The checks for `PEACE`.  For a mask, the access of no account is what every user is
compared by. -/
def peaceDenies (target : KickTarget ν) : Bool :=
  if !(source.access net channel).hasPriv net.env net.registry (ascii "AKICK") then false
  else if net.env.isChannelValid target.mask then false
  else if !channel.peace then false
  else
    let founder := (net.registry.channel channel.ci).founder
    match target.nc with
    | some nc => founder = some nc || net.accountAtLeast channel source (some nc)
    | none =>
        (net.users.any fun u =>
          ((accessForUser net.env net.registry channel.ci (some u)).hasPriv net.env net.registry
              (ascii "FOUNDER") || net.accountAtLeast channel source target.nc) &&
            net.entryMatches target.mask [] u) ||
        net.aliases.any fun na =>
          (founder = some na.nc || net.accountAtLeast channel source (some na.nc)) &&
            globMatch net.env.casemap na.lastMask target.mask

/-- Whether an automatic kick is the one that a command names. -/
def AutoKick.isFor (target : KickTarget ν) (akick : AutoKick ν) : Bool :=
  match akick.nc with
  | some nc => some nc = target.nc
  | none => net.env.casemap.equalsCi target.mask akick.mask

/-- `AKickService::AddAKick`. -/
def addAKick (target : KickTarget ν) : AutoKick ν where
  mask := if target.nc.isSome then [] else target.mask
  nc := target.nc
  reason := target.reason
  creator := source.nick
  addtime := net.curTime
  lastUsed := 0

/-- `DoAdd`: the automatic kick that is put at the end of the list. -/
def doAddAKick (mask reason : Str) : Except KickReply (AutoKick ν) :=
  match readTarget net channel mask reason with
  | .error reply => .error reply
  | .ok target =>
      if channel.excepts.any fun mode => globMatch net.env.casemap mode target.mask then
        .error (.excepted target.mask)
      else if peaceDenies net channel source target then .error .accessDenied
      else
        match channel.akicks.find? (AutoKick.isFor net target) with
        | some akick => .error (.exists ((akick.nc.map net.display).getD akick.mask))
        | none =>
            if net.autokickMax ≤ channel.akicks.length then .error (.limit net.autokickMax)
            else .ok (addAKick net source target)

/-- `OnCheckKick` for one automatic kick. -/
def AutoKick.catches (akick : AutoKick ν) (u : User ν) : Bool :=
  match akick.nc with
  | some nc => some nc = u.account
  | none =>
      if net.env.isChannelValid akick.mask then (net.findChannel akick.mask).any fun has => has u
      else net.entryMatches akick.mask (ascii "BAN") u

/-- Whether an automatic kick is for a registered nick: for its account, or by its last
mask. -/
def AutoKick.catchesLast (akick : AutoKick ν) (na : NickAlias ν) : Bool :=
  match akick.nc with
  | some nc => na.nc = nc
  | none => globMatch net.env.casemap na.lastMask akick.mask

end Command

/-! ## Whom a new automatic kick catches -/

section Peace

variable [DecidableEq ν] (net : Network χ α ν) (channel : KickChannel χ ν)
  (source : KickSource ν)

/-- A user with at least the access of the source, or a founder. -/
def Protected (u : User ν) : Prop :=
  net.userAtLeast channel source u = true ∨
    isFounder u (net.registry.channel channel.ci) = true

/-- Where the command succeeds, the new automatic kick is for no protected user, and for no
registered nick of an account with at least the access of the source. -/
def KeepsPeace (mask reason : Str) : Prop :=
  ∀ akick, doAddAKick net channel source mask reason = .ok akick →
    (∀ u ∈ net.users, Protected net channel source u → akick.catches net u = false) ∧
      ∀ na ∈ net.aliases, net.accountAtLeast channel source (some na.nc) = true →
        akick.catchesLast net na = false

/-- Nothing but `PEACE` refuses a target. -/
def Admissible (target : KickTarget ν) : Prop :=
  (∀ mode ∈ channel.excepts, globMatch net.env.casemap mode target.mask = false) ∧
    (∀ akick ∈ channel.akicks, akick.isFor net target = false) ∧
      channel.akicks.length < net.autokickMax

/-- The checks for `PEACE` see somebody: an account itself, or a user with the privilege
`FOUNDER`, or a registered nick by its last mask. -/
def Noticed (target : KickTarget ν) : Prop :=
  let founder := (net.registry.channel channel.ci).founder
  net.env.isChannelValid target.mask = false ∧
    match target.nc with
    | some nc => founder = some nc ∨ net.accountAtLeast channel source (some nc) = true
    | none =>
        (∃ u ∈ net.users,
          ((accessForUser net.env net.registry channel.ci (some u)).hasPriv net.env net.registry
              (ascii "FOUNDER") = true ∨ net.accountAtLeast channel source none = true) ∧
            net.entryMatches target.mask [] u = true) ∨
        ∃ na ∈ net.aliases,
          (founder = some na.nc ∨ net.accountAtLeast channel source (some na.nc) = true) ∧
            globMatch net.env.casemap na.lastMask target.mask = true

/-- The checks pass over a user that the target catches: one with more access than the
account, one on the channel of a channel mask, and for other masks a protected user without
the privilege `FOUNDER` or one that only an extban catches. -/
def OverlooksUser (target : KickTarget ν) (u : User ν) : Prop :=
  match target.nc with
  | some nc => u.account = some nc ∧ net.userAtLeast channel source u = true
  | none =>
      if net.env.isChannelValid target.mask then
        Protected net channel source u ∧
          ((net.findChannel target.mask).any fun has => has u) = true
      else
        Protected net channel source u ∧ net.entryMatches target.mask (ascii "BAN") u = true ∧
          ((accessForUser net.env net.registry channel.ci (some u)).hasPriv net.env net.registry
            (ascii "FOUNDER") = false ∨ net.entryMatches target.mask [] u = false)

/-- The checks pass over a registered nick: channel masks are compared with none. -/
def OverlooksLast (target : KickTarget ν) (na : NickAlias ν) : Prop :=
  net.env.isChannelValid target.mask = true ∧
    net.accountAtLeast channel source (some na.nc) = true ∧
      globMatch net.env.casemap na.lastMask target.mask = true

variable {net channel source}

omit [DecidableEq ν] in
theorem readTarget_account {mask reason : Str} {target : KickTarget ν}
    (isTarget : readTarget net channel mask reason = .ok target) {nc : ν}
    (isAccount : target.nc = some nc) : net.env.isChannelValid target.mask = false := by
  rw [readTarget] at isTarget
  dsimp only at isTarget
  split at isTarget
  · cases isTarget
    exact nomatch isAccount
  · split at isTarget
    · split at isTarget
      · exact nomatch isTarget
      · cases isTarget
        exact nomatch isAccount
    · rename_i invalid
      split at isTarget
      · cases isTarget
        exact Bool.eq_false_of_not_eq_true invalid
      · cases isTarget
        exact nomatch isAccount

/-- On a channel with `PEACE`, and without an override, the checks refuse what they see. -/
theorem peaceDenies_iff (peace : channel.peace = true)
    (noOverride : (source.access net channel).hasPriv net.env net.registry (ascii "AKICK") = true)
    (target : KickTarget ν) :
    peaceDenies net channel source target = true ↔ Noticed net channel source target := by
  rw [peaceDenies, Noticed, noOverride, peace]
  cases net.env.isChannelValid target.mask with
  | true => simp
  | false =>
      cases target.nc with
      | some nc => simp
      | none => simp

/-- The command adds an automatic kick exactly for an admissible target that the checks for
`PEACE` let pass. -/
theorem doAddAKick_eq_ok_iff {mask reason : Str} {akick : AutoKick ν} :
    doAddAKick net channel source mask reason = .ok akick ↔
      ∃ target, readTarget net channel mask reason = .ok target ∧
        Admissible net channel target ∧ peaceDenies net channel source target = false ∧
          addAKick net source target = akick := by
  rw [doAddAKick]
  cases isTarget : readTarget net channel mask reason with
  | error reply => simp
  | ok target =>
      simp only [Except.ok.injEq, exists_eq_left', Admissible]
      cases excepted :
          channel.excepts.any fun mode => globMatch net.env.casemap mode target.mask with
      | true =>
          obtain ⟨mode, mem, is⟩ := List.any_eq_true.mp excepted
          refine iff_of_false (fun is => nomatch is) ?_
          rintro ⟨⟨none, _⟩, _⟩
          exact absurd is (ne_true_of_eq_false (none mode mem))
      | false =>
          have unexcepted : ∀ mode ∈ channel.excepts,
              globMatch net.env.casemap mode target.mask = false := by
            simpa using excepted
          simp only [Bool.false_eq_true, if_false, eq_true unexcepted, true_and]
          cases denied : peaceDenies net channel source target with
          | true => simp
          | false =>
              simp only [Bool.false_eq_true, if_false, true_and]
              cases found : channel.akicks.find? (AutoKick.isFor net target) with
              | some other =>
                  refine iff_of_false (fun is => nomatch is) ?_
                  rintro ⟨⟨none, _⟩, _⟩
                  exact absurd (List.find?_some found)
                    (ne_true_of_eq_false (none other (List.mem_of_find?_eq_some found)))
              | none =>
                  have new : ∀ akick ∈ channel.akicks, akick.isFor net target = false := by
                    simpa using found
                  simp only [eq_true new, true_and]
                  by_cases full : net.autokickMax ≤ channel.akicks.length
                  · rw [if_pos full]
                    exact iff_of_false (fun is => nomatch is)
                      fun is => absurd is.1 (Nat.not_lt.mpr full)
                  · rw [if_neg full, Except.ok.injEq]
                    exact (and_iff_right (Nat.not_le.mp full)).symm

theorem isFounder_iff (u : User ν) (info : ChannelInfo α ν) :
    isFounder u info = true ↔
      u.superAdmin = true ∨ ∃ nc, u.account = some nc ∧ info.founder = some nc := by
  rw [isFounder, Bool.or_eq_true, Bool.and_eq_true, decide_eq_true_iff, Option.isSome_iff_exists]
  refine or_congr_right ?_
  constructor
  · rintro ⟨⟨nc, isAccount⟩, same⟩
    exact ⟨nc, isAccount, same ▸ isAccount⟩
  · rintro ⟨nc, isAccount, isFounder⟩
    exact ⟨⟨nc, isAccount⟩, isAccount.trans isFounder.symm⟩

/-- The protected users that the new automatic kick of an unnoticed target catches are
those that the checks overlook. -/
theorem overlooksUser_iff {mask reason : Str} {target : KickTarget ν}
    (isTarget : readTarget net channel mask reason = .ok target)
    (unnoticed : ¬ Noticed net channel source target) {u : User ν} (online : u ∈ net.users) :
    OverlooksUser net channel source target u ↔
      Protected net channel source u ∧ (addAKick net source target).catches net u = true := by
  rw [OverlooksUser, AutoKick.catches, addAKick]
  cases isAccount : target.nc with
  | some nc =>
      have invalid := readTarget_account isTarget isAccount
      simp only [Noticed, invalid, isAccount, true_and, not_or] at unnoticed
      simp only [decide_eq_true_iff]
      constructor
      · rintro ⟨loggedIn, atLeast⟩
        exact ⟨.inl atLeast, loggedIn.symm⟩
      · rintro ⟨atLeast | founder, loggedIn⟩
        · exact ⟨loggedIn.symm, atLeast⟩
        · refine ⟨loggedIn.symm, ?_⟩
          -- A founder who is not logged in to the founder's account is a super admin.
          rcases (isFounder_iff u _).mp founder with admin | ⟨other, isOther, founder⟩
          · exact AccessGroup.ge_of_superAdmin admin _
          · cases loggedIn.trans isOther
            exact absurd founder unnoticed.1
  | none =>
      simp only [Option.isSome_none, Bool.false_eq_true, if_false]
      cases valid : net.env.isChannelValid target.mask with
      | true => simp
      | false =>
          simp only [Noticed, valid, isAccount, true_and, not_or, not_exists, not_and] at unnoticed
          simp only [Bool.false_eq_true, if_false, and_congr_right_iff, and_iff_left_iff_imp]
          intro _ _
          by_contra seen
          simp only [not_or, Bool.not_eq_false] at seen
          exact unnoticed.1 u online (.inl seen.1) seen.2

/-- The registered nicks that the new automatic kick of an unnoticed target is for, and that
the checks protect, are those that they overlook. -/
theorem overlooksLast_iff {mask reason : Str} {target : KickTarget ν}
    (isTarget : readTarget net channel mask reason = .ok target)
    (unnoticed : ¬ Noticed net channel source target) {na : NickAlias ν}
    (registered : na ∈ net.aliases) :
    OverlooksLast net channel source target na ↔
      net.accountAtLeast channel source (some na.nc) = true ∧
        (addAKick net source target).catchesLast net na = true := by
  rw [OverlooksLast, AutoKick.catchesLast, addAKick]
  cases isAccount : target.nc with
  | some nc =>
      have invalid := readTarget_account isTarget isAccount
      simp only [Noticed, invalid, isAccount, true_and, not_or] at unnoticed
      simp only [invalid, Bool.false_eq_true, false_and, decide_eq_true_iff, false_iff, not_and]
      rintro atLeast rfl
      exact unnoticed.2 atLeast
  | none =>
      simp only [Option.isSome_none, Bool.false_eq_true, if_false]
      cases valid : net.env.isChannelValid target.mask with
      | true => simp
      | false =>
          simp only [Noticed, valid, isAccount, true_and, not_or, not_exists, not_and] at unnoticed
          simp only [Bool.false_eq_true, false_and, false_iff, not_and]
          exact fun atLeast => unnoticed.2 na registered (.inr atLeast)

/-- On a channel with `PEACE`, a source without override keeps to it exactly when the checks
see somebody or overlook nobody. -/
theorem keepsPeace_iff (peace : channel.peace = true)
    (noOverride : (source.access net channel).hasPriv net.env net.registry (ascii "AKICK") = true)
    (mask reason : Str) :
    KeepsPeace net channel source mask reason ↔
      ¬ ∃ target, readTarget net channel mask reason = .ok target ∧
        Admissible net channel target ∧ ¬ Noticed net channel source target ∧
          ((∃ u ∈ net.users, OverlooksUser net channel source target u) ∨
            ∃ na ∈ net.aliases, OverlooksLast net channel source target na) := by
  constructor
  · rintro keeps ⟨target, isTarget, admissible, unnoticed, overlooked⟩
    have allowed : peaceDenies net channel source target = false := by
      rw [Bool.eq_false_iff, Ne, peaceDenies_iff peace noOverride]
      exact unnoticed
    have kept := keeps _ (doAddAKick_eq_ok_iff.mpr ⟨target, isTarget, admissible, allowed, rfl⟩)
    rcases overlooked with ⟨u, online, overlooks⟩ | ⟨na, registered, overlooks⟩
    · obtain ⟨isProtected, caught⟩ := (overlooksUser_iff isTarget unnoticed online).mp overlooks
      exact absurd caught (ne_true_of_eq_false (kept.1 u online isProtected))
    · obtain ⟨atLeast, caught⟩ := (overlooksLast_iff isTarget unnoticed registered).mp overlooks
      exact absurd caught (ne_true_of_eq_false (kept.2 na registered atLeast))
  · intro seen akick added
    obtain ⟨target, isTarget, admissible, allowed, rfl⟩ := doAddAKick_eq_ok_iff.mp added
    have unnoticed : ¬ Noticed net channel source target := by
      rw [← peaceDenies_iff peace noOverride, allowed]
      exact Bool.false_ne_true
    constructor
    · intro u online isProtected
      by_contra caught
      exact seen ⟨target, isTarget, admissible, unnoticed, .inl ⟨u, online,
        (overlooksUser_iff isTarget unnoticed online).mpr
          ⟨isProtected, Bool.eq_true_of_not_eq_false caught⟩⟩⟩
    · intro na registered atLeast
      by_contra caught
      exact seen ⟨target, isTarget, admissible, unnoticed, .inr ⟨na, registered,
        (overlooksLast_iff isTarget unnoticed registered).mpr
          ⟨atLeast, Bool.eq_true_of_not_eq_false caught⟩⟩⟩

end Peace

/-! ### Two users with the same access -/

/-- A user of the host `h` that is logged in. -/
def loggedIn (nick : Str) (nc : Bool) : User Bool where
  nick := nick
  ident := ascii "i"
  vident := []
  host := ascii "h"
  vhost := []
  chost := []
  cloak := false
  realname := []
  ip := .unspec
  superAdmin := false
  account := some nc

/-- A channel whose access list has two accounts, both with the privilege `AKICK`. -/
def equalsRegistry : Registry Unit Bool Bool where
  channel _ :=
    ⟨[false, true], none, AList.singleton (Casemap.ascii.ciStr (ascii "AKICK")) 10, 0⟩
  access nc := ⟨[], some nc, 0⟩
  aliases nc := if nc then [ascii "b"] else [ascii "a"]
  registeredChannelList := ∅

/-- The accounts are online as `alice` and `bob`. -/
def equalsNetwork : Network Unit Bool Bool where
  env :=
    { casemap := .ascii
      maxChannel := 32
      privileges := [ascii "AKICK"]
      grants := fun _ _ => true
      onCheckPriv := fun _ _ => .continue
      onGroupCheckPriv := fun _ _ => .continue }
  registry := equalsRegistry
  inet := ⟨fun _ => none, fun _ => none, fun _ => none, fun _ => none⟩
  extbans := ⟨fun _ => false, fun _ => none⟩
  users := [loggedIn (ascii "alice") false, loggedIn (ascii "bob") true]
  aliases := [⟨ascii "a", ascii "i@h", false⟩, ⟨ascii "b", ascii "i@h", true⟩]
  findAlias nick :=
    if nick = ascii "a" then some false else if nick = ascii "b" then some true else none
  display nc := if nc then ascii "b" else ascii "a"
  findChannel _ := none
  reasonMax := 200
  autokickMax := 50
  curTime := 0

/-- The channel, with `PEACE`. -/
def peaceChannel : KickChannel Unit Bool where
  ci := ()
  name := ascii "#c"
  peace := true
  excepts := []
  akicks := []

/-- `alice`. -/
def alice : KickSource Bool where
  nick := ascii "alice"
  subject := some (.user (loggedIn (ascii "alice") false))

/-- Every account finds its own entry. -/
theorem findMatches_equals (u : Option (User Bool)) (nc : Option Bool) :
    findMatches equalsNetwork.env equalsNetwork.registry peaceChannel.ci u nc =
      nc.toList.map ([·]) := by
  rw [findMatches, findMatchesRecurse]
  rcases nc with _ | nc
  · rfl
  · cases nc <;> rfl

theorem accessForUser_equals (nick : Str) (nc : Bool) :
    accessForUser equalsNetwork.env equalsNetwork.registry peaceChannel.ci
        (some (loggedIn nick nc)) =
      { paths := [[nc]], ci := some (), nc := some nc, superAdmin := false, founder := false } := by
  rw [accessForUser, findMatches_equals]
  rfl

theorem accessForNobody_equals :
    accessForAccount equalsNetwork.env equalsNetwork.registry peaceChannel.ci none =
      { paths := [], ci := some (), nc := none, superAdmin := false, founder := false } := by
  rw [accessForAccount, findMatches_equals]
  rfl

theorem access_alice :
    alice.access equalsNetwork peaceChannel =
      { paths := [[false]], ci := some (), nc := some false, superAdmin := false
        founder := false } :=
  accessForUser_equals _ false

theorem hasPriv_alice :
    (alice.access equalsNetwork peaceChannel).hasPriv equalsNetwork.env equalsNetwork.registry
      (ascii "AKICK") = true := by
  rw [access_alice]
  decide

set_option maxRecDepth 4096 in
theorem readTarget_equals {who : Str} (mem : who ∈ [ascii "nobody!*@*", ascii "bob!*@*"]) :
    readTarget equalsNetwork peaceChannel who [] = .ok ⟨who, none, []⟩ := by
  rcases List.mem_cons.mp mem with rfl | mem
  · rfl
  · cases List.mem_singleton.mp mem
    rfl

/-- A mask that nobody has. -/
theorem keepsPeace_nobody :
    KeepsPeace equalsNetwork peaceChannel alice (ascii "nobody!*@*") [] := by
  have uncaught : ∀ u ∈ equalsNetwork.users,
      equalsNetwork.entryMatches (ascii "nobody!*@*") (ascii "BAN") u = false := by
    decide +kernel
  refine (keepsPeace_iff rfl hasPriv_alice _ _).mpr ?_
  rintro ⟨target, isTarget, _, _, overlooked⟩
  rw [readTarget_equals List.mem_cons_self] at isTarget
  cases isTarget
  rcases overlooked with ⟨u, online, overlooks⟩ | ⟨na, _, overlooks⟩
  · exact absurd overlooks.2.1 (ne_true_of_eq_false (uncaught u online))
  · exact nomatch overlooks.1

theorem not_noticed_bob :
    ¬ Noticed equalsNetwork peaceChannel alice ⟨ascii "bob!*@*", none, []⟩ := by
  have nobody : equalsNetwork.accountAtLeast peaceChannel alice none = false := by
    rw [Network.accountAtLeast, access_alice, accessForNobody_equals]
    decide +kernel
  have unmatched : ∀ na ∈ equalsNetwork.aliases,
      globMatch equalsNetwork.env.casemap na.lastMask (ascii "bob!*@*") = false := by
    decide +kernel
  rintro ⟨_, ⟨u, online, seen, caught⟩ | ⟨na, registered, _, caught⟩⟩
  · rcases List.mem_cons.mp online with rfl | online
    · exact absurd caught (by decide +kernel)
    · cases List.mem_singleton.mp online
      rcases seen with founder | seen
      · rw [accessForUser_equals] at founder
        exact absurd founder (by decide +kernel)
      · exact absurd seen (ne_true_of_eq_false nobody)
  · exact absurd caught (ne_true_of_eq_false (unmatched na registered))

/-- `alice` adds the mask of `bob`, who is logged in and has the same access. -/
theorem not_keepsPeace_bob :
    ¬ KeepsPeace equalsNetwork peaceChannel alice (ascii "bob!*@*") [] := by
  intro keeps
  have allowed : peaceDenies equalsNetwork peaceChannel alice ⟨ascii "bob!*@*", none, []⟩ =
      false := by
    rw [Bool.eq_false_iff, Ne, peaceDenies_iff rfl hasPriv_alice]
    exact not_noticed_bob
  have admissible : Admissible equalsNetwork peaceChannel ⟨ascii "bob!*@*", none, []⟩ :=
    ⟨fun _ mem => (nomatch mem), fun _ mem => (nomatch mem), by decide⟩
  have atLeast : equalsNetwork.userAtLeast peaceChannel alice (loggedIn (ascii "bob") true) =
      true := by
    rw [Network.userAtLeast, access_alice, accessForUser_equals]
    decide +kernel
  have isTarget : readTarget equalsNetwork peaceChannel (ascii "bob!*@*") [] =
      .ok ⟨ascii "bob!*@*", none, []⟩ :=
    readTarget_equals (List.mem_cons_of_mem _ List.mem_cons_self)
  have kept := keeps _ (doAddAKick_eq_ok_iff.mpr ⟨_, isTarget, admissible, allowed, rfl⟩)
  have uncaught := kept.1 _ (List.mem_cons_of_mem _ List.mem_cons_self) (.inl atLeast)
  exact absurd uncaught (by decide +kernel)

end Anope.Access
