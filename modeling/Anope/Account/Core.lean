import Anope.Text.Casemap
import Anope.Library.Run
import Mathlib.Data.List.AList

/-!
# Accounts and their nicks

A `NickCore` is an account, shown by its display, and a `NickAlias` is one of the
nicks grouped to it.  Two tables find both by name.  Their constructors and
destructors and `SetDisplay` keep the lists of aliases and the tables in step.
-/

namespace Anope.Account

open Anope.Text

/-- `NickAlias`; `nc` is `none` once its account was destroyed. -/
structure NickAlias (ν : Type) where
  nick : Str
  nc : Option ν
  registered : Int

/-- `NickCore`; `na` is the alias of the display. -/
structure NickCore (α : Type) where
  display : Str
  aliases : List α
  na : Option α

/-- The aliases `α` and the accounts `ν` by address, and the tables that find
them by a name up to case. -/
structure State (α ν : Type) where
  aliases : α → Option (NickAlias ν)
  cores : ν → Option (NickCore α)
  nickAliasList : AList fun _ : Str => α
  nickCoreList : AList fun _ : Str => ν

variable {α ν : Type} [DecidableEq α] [DecidableEq ν]

namespace State

/-- The state without accounts. -/
def empty : State α ν where
  aliases := fun _ => none
  cores := fun _ => none
  nickAliasList := ∅
  nickCoreList := ∅

/-- Put an account at an address. -/
def putCore (c : ν) (core : NickCore α) (s : State α ν) : State α ν :=
  { s with cores := Function.update s.cores c (some core) }

variable (casemap : Casemap)

/-- `NickCore::NickCore`; `InsertUnique` replaces an entry that is there. -/
def newCore (c : ν) (coredisplay : Str) (s : State α ν) : State α ν :=
  { s.putCore c { display := coredisplay, aliases := [], na := none } with
    nickCoreList := s.nickCoreList.insert (casemap.ciStr coredisplay) c }

/-- `NickAlias::NickAlias`, on an account that is `nickcore`. -/
def newAlias (a : α) (nickname : Str) (registered : Int) (c : ν) (nickcore : NickCore α)
    (s : State α ν) : State α ν :=
  let grouped := { nickcore with
    aliases := nickcore.aliases ++ [a]
    na := if casemap.equalsCi nickname nickcore.display then some a else nickcore.na }
  { s.putCore c grouped with
    aliases := Function.update s.aliases a (some { nick := nickname, nc := some c, registered })
    nickAliasList := s.nickAliasList.insert (casemap.ciStr nickname) a }

omit [DecidableEq α] [DecidableEq ν] in
/-- The alias that `SetDisplay` picks when none is given: the first of the
oldest. -/
def oldest (s : State α ν) (aliases : List α) : Option (α × NickAlias ν) :=
  aliases.foldl
    (fun na a =>
      match s.aliases a with
      | some info =>
          if na.all fun oldest => info.registered < oldest.2.registered then some (a, info)
          else na
      | none => na)
    none

omit [DecidableEq α] in
/-- The alias that an account is shown by after `SetDisplay(na)`, when that
changes something. -/
def nextDisplay (s : State α ν) (c : ν) (core : NickCore α) (na : Option α) :
    Option (α × NickAlias ν) :=
  let picked := match na with
    | some a => (s.aliases a).map fun info => (a, info)
    | none => s.oldest core.aliases
  picked.filter fun picked => picked.2.nc = some c && picked.2.nick ≠ core.display

omit [DecidableEq α] in
/-- `NickCore::SetDisplay`. -/
def setDisplay (c : ν) (na : Option α) (s : State α ν) : State α ν :=
  match s.cores c with
  | some core =>
      match s.nextDisplay c core na with
      | some (a, info) =>
          { s.putCore c { core with display := info.nick, na := some a } with
            nickCoreList := (s.nickCoreList.erase (casemap.ciStr core.display)).insert
              (casemap.ciStr info.nick) c }
      | none => s
  | none => s

omit [DecidableEq α] in
/-- `NickCore::~NickCore`; references to the account are invalid then. -/
def deleteCore (c : ν) (s : State α ν) : State α ν :=
  match s.cores c with
  | some core =>
      { s with
        aliases := fun a => (s.aliases a).map fun info =>
          { info with nc := info.nc.filter (· ≠ c) }
        cores := Function.update s.cores c none
        nickCoreList := s.nickCoreList.erase (casemap.ciStr core.display) }
  | none => s

/-- The first part of `NickAlias::~NickAlias`: the alias leaves its account, which
goes with its last alias. -/
def leaveCore (a : α) (info : NickAlias ν) (s : State α ν) : State α ν :=
  match info.nc with
  | some c =>
      match s.cores c with
      | some core =>
          let left := { core with aliases := core.aliases.erase a }
          if left.aliases.isEmpty then (s.putCore c left).deleteCore casemap c
          else if core.na = some a then (s.putCore c left).setDisplay casemap c none
          else s.putCore c left
      | none => s
  | none => s

/-- The end of an alias: its entry and its memory go, and references to it are
invalid. -/
def freeAlias (a : α) (nick : Str) (s : State α ν) : State α ν :=
  { s with
    aliases := Function.update s.aliases a none
    cores := fun c => (s.cores c).map fun core => { core with na := core.na.filter (· ≠ a) }
    nickAliasList := s.nickAliasList.erase (casemap.ciStr nick) }

/-- `NickAlias::~NickAlias`. -/
def deleteAlias (a : α) (s : State α ν) : State α ν :=
  match s.aliases a with
  | some info => (s.leaveCore casemap a info).freeAlias casemap a info.nick
  | none => s

end State

/-- Construction and destruction of accounts and aliases, and `SetDisplay`. -/
inductive Action (α ν : Type) where
  | newCore (c : ν) (coredisplay : Str)
  | newAlias (a : α) (nickname : Str) (registered : Int) (nickcore : ν)
  | setDisplay (c : ν) (na : Option α)
  | deleteCore (c : ν)
  | deleteAlias (a : α)

/-- The transitions.  A new object is at an address that is not in use; the
constructors throw on an empty name and on no account. -/
def step (casemap : Casemap) (s : State α ν) : Action α ν → Option (State α ν)
  | .newCore c coredisplay =>
      if s.cores c = none ∧ coredisplay ≠ [] then some (s.newCore casemap c coredisplay) else none
  | .newAlias a nickname registered nickcore =>
      match s.cores nickcore with
      | some core =>
          if s.aliases a = none ∧ nickname ≠ [] then
            some (s.newAlias casemap a nickname registered nickcore core)
          else none
      | none => none
  | .setDisplay c na =>
      if (s.cores c).isSome ∧ na.all (fun a => (s.aliases a).isSome) then
        some (s.setDisplay casemap c na)
      else none
  | .deleteCore c => if (s.cores c).isSome then some (s.deleteCore casemap c) else none
  | .deleteAlias a => if (s.aliases a).isSome then some (s.deleteAlias casemap a) else none

end Anope.Account
