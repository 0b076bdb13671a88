import Anope.Reference.View
import Mathlib.Data.List.Perm.Basic

/-!
# Counts against references

The counts of a state say how often the channels refer to an account, and how
many entries of a channel name another.  Every operation on a channel moves a
count together with the references that it counts.
-/

namespace Anope.Reference

open Anope.Text Library.Counter

variable {χ ν δ : Type}

/-- The channel that an entry is for, by its name up to case. -/
def ChanAccess.target (env : Env δ) (a : ChanAccess ν δ) : Option Str :=
  match a.nc with
  | some _ => none
  | none => some (env.casemap.ciStr a.mask)

/-- The number of entries that name a channel. -/
def ChannelInfo.naming (env : Env δ) (key : Str) (ci : ChannelInfo ν δ) : Nat :=
  ci.access.countP fun a => a.target env = some key

variable [DecidableEq ν]

/-- The number of places in which a channel refers to an account. -/
def ChannelInfo.roles (nc : ν) (ci : ChannelInfo ν δ) : Nat :=
  ci.access.countP (fun a => a.nc = some nc) + ci.akicks.countP (fun akick => akick.nc = some nc) +
    (if ci.founder = some nc then 1 else 0) + if ci.successor = some nc then 1 else 0

/-! ## One reference more or less -/

section Shift

variable {α β : Type} [DecidableEq α] [DecidableEq β]

/-- A count with one more for a pair. -/
def gain (counted : α → β → Int) (place : α) (target : Option β) : α → β → Int :=
  fun place' target' =>
    counted place' target' + if place' = place ∧ target = some target' then 1 else 0

/-- A count with one less for a pair. -/
def lose (counted : α → β → Int) (place : α) (target : Option β) : α → β → Int :=
  fun place' target' =>
    counted place' target' - if place' = place ∧ target = some target' then 1 else 0

variable {counted : α → β → Int} {place : α}

@[simp]
theorem gain_none : gain counted place none = counted := by
  funext place' target'
  rw [gain, if_neg (fun both => nomatch both.2), Int.add_zero]

@[simp]
theorem lose_none : lose counted place none = counted := by
  funext place' target'
  rw [lose, if_neg (fun both => nomatch both.2), Int.sub_zero]

end Shift

/-! ## Counts -/

variable [LinearOrder χ]

/-- The counts in a state, by the place that refers and what it refers to. -/
structure Counts (s : State χ ν δ) (held : χ → ν → Int) (named : Str → Str → Int) : Prop where
  account : ∀ {nc core}, s.cores nc = some core → ∀ ci, count core.chanaccess ci = held ci nc
  channel : ∀ {key ci info}, s.registeredChannelList.lookup key = some ci →
    s.channels ci = some info → ∀ what, count info.references what = named what key

/-- No two names are registered for one channel. -/
def State.OneName (s : State χ ν δ) : Prop :=
  ∀ {key key' ci}, s.registeredChannelList.lookup key = some ci →
    s.registeredChannelList.lookup key' = some ci → key = key'

namespace Counts

variable {s : State χ ν δ} {held : χ → ν → Int} {named : Str → Str → Int} {ci : χ}

omit [DecidableEq ν] in
/-- Only the counts of channels that are registered are read. -/
theorem congr_named (counts : Counts s held named) {named' : Str → Str → Int}
    (same : ∀ what {key ci}, s.registeredChannelList.lookup key = some ci →
      named' what key = named what key) : Counts s held named' where
  account := counts.account
  channel := fun listed found what =>
    (counts.channel listed found what).trans (same what listed).symm

theorem modifyCore_of (counts : Counts s held named) {held' : χ → ν → Int}
    {write : NickCore χ → NickCore χ} (nc : Option ν)
    (written : ∀ {other core}, nc = some other → s.cores other = some core →
      ∀ ci, count (write core).chanaccess ci = held' ci other)
    (unwritten : ∀ {other}, nc ≠ some other → ∀ ci, held' ci other = held ci other) :
    Counts (s.modifyCore nc write) held' named where
  account := by
    intro other core found ci
    obtain ⟨before, foundBefore, rfl⟩ := State.cores_modifyCore_eq_some found
    split
    · rename_i is
      exact written is foundBefore ci
    · rename_i isNot
      rw [counts.account foundBefore, unwritten isNot]
  channel := by
    cases nc <;> exact counts.channel

/-- `AddChannelReference` of an account. -/
theorem modifyCore_add (counts : Counts s held named) (nc : Option ν)
    {write : NickCore χ → NickCore χ}
    (adds : ∀ core, (write core).chanaccess = increment core.chanaccess ci) :
    Counts (s.modifyCore nc write) (gain held ci nc) named := by
  refine counts.modifyCore_of nc (fun {other core} is found place => ?_) fun isNot place => ?_
  · rw [adds, count_increment, counts.account found, gain]
    simp only [is, and_true]
  · rw [gain, if_neg fun both => isNot both.2, Int.add_zero]

/-- `RemoveChannelReference` of an account that is referred to. -/
theorem modifyCore_remove (counts : Counts s held named) (nc : Option ν)
    {write : NickCore χ → NickCore χ}
    (removes : ∀ core, (write core).chanaccess = decrement core.chanaccess ci)
    (used : ∀ {other}, nc = some other → 0 < held ci other) :
    Counts (s.modifyCore nc write) (lose held ci nc) named := by
  refine counts.modifyCore_of nc (fun {other core} is found place => ?_) fun isNot place => ?_
  · have positive : 0 < count core.chanaccess ci := by
      rw [counts.account found]
      exact used is
    rw [removes, count_decrement positive, counts.account found, lose]
    simp only [is, and_true]
  · rw [lose, if_neg fun both => isNot both.2, Int.sub_zero]

omit [DecidableEq ν] in
/-- A write to a channel that leaves its counts. -/
theorem modifyChannel (counts : Counts s held named) {write : ChannelInfo ν δ → ChannelInfo ν δ}
    (keeps : ∀ info, (write info).references = info.references) :
    Counts (s.modifyChannel ci write) held named where
  account := counts.account
  channel := by
    intro key other info listed found what
    obtain ⟨before, foundBefore, rfl⟩ := State.channels_modifyChannel_eq_some found
    rw [apply_ite ChannelInfo.references, keeps, ite_self]
    exact counts.channel listed foundBefore what

omit [DecidableEq ν] in
theorem modifyNamed_of (counts : Counts s held named) (oneName : s.OneName)
    {named' : Str → Str → Int} {write : ChannelInfo ν δ → ChannelInfo ν δ} (env : Env δ) (m : Str)
    (written : ∀ {ci info}, s.registeredChannelList.lookup (env.casemap.ciStr m) = some ci →
      s.channels ci = some info →
      ∀ what, count (write info).references what = named' what (env.casemap.ciStr m))
    (unwritten : ∀ {key}, key ≠ env.casemap.ciStr m → ∀ what, named' what key = named what key) :
    Counts (s.modifyNamed env m write) held named' := by
  rw [State.modifyNamed, State.find]
  split
  · rename_i target isTarget
    refine ⟨counts.account, fun {key other info} listed found what => ?_⟩
    obtain ⟨before, foundBefore, rfl⟩ := State.channels_modifyChannel_eq_some found
    split
    · rename_i same
      subst same
      rw [written isTarget foundBefore, oneName listed isTarget]
    · rename_i different
      have otherKey : key ≠ env.casemap.ciStr m := by
        rintro rfl
        exact different (Option.some.inj (listed.symm.trans isTarget))
      rw [counts.channel listed foundBefore, unwritten otherKey]
  · rename_i missing
    refine ⟨counts.account, fun {key other info} listed found what => ?_⟩
    have otherKey : key ≠ env.casemap.ciStr m := by
      rintro rfl
      rw [missing] at listed
      cases listed
    rw [counts.channel listed found, unwritten otherKey]

omit [DecidableEq ν] in
/-- `AddChannelReference` of the channel that an entry names. -/
theorem modifyNamed_add (counts : Counts s held named) (oneName : s.OneName) (env : Env δ)
    (m what : Str) :
    Counts (s.modifyNamed env m (·.addChannelReference env what)) held
      (gain named (env.casemap.ciStr what) (some (env.casemap.ciStr m))) := by
  refine counts.modifyNamed_of oneName env m (fun listed found place => ?_) fun isNot place => ?_
  · rw [ChannelInfo.addChannelReference, count_increment, counts.channel listed found, gain]
    simp only [and_true]
  · rw [gain, if_neg fun both => isNot (Option.some.inj both.2).symm, Int.add_zero]

omit [DecidableEq ν] in
/-- `RemoveChannelReference` of the channel that an entry names. -/
theorem modifyNamed_remove (counts : Counts s held named) (oneName : s.OneName) (env : Env δ)
    {m what : Str} (used : 0 < named (env.casemap.ciStr what) (env.casemap.ciStr m)) :
    Counts (s.modifyNamed env m (·.removeChannelReference env what)) held
      (lose named (env.casemap.ciStr what) (some (env.casemap.ciStr m))) := by
  refine counts.modifyNamed_of oneName env m (fun listed found place => ?_) fun isNot place => ?_
  · have positive : 0 < count _ (env.casemap.ciStr what) :=
      (counts.channel listed found _).symm ▸ used
    rw [ChannelInfo.removeChannelReference, count_decrement positive, counts.channel listed found,
      lose]
    simp only [and_true]
  · rw [lose, if_neg fun both => isNot (Option.some.inj both.2).symm, Int.sub_zero]

variable (counts : Counts s held named) (oneName : s.OneName) {env : Env δ} {what : Str}
  {a : ChanAccess ν δ}
include counts oneName

/-- What a counted entry referred to no longer counts it. -/
theorem releaseAccess (usedAccount : ∀ {nc}, a.nc = some nc → 0 < held ci nc)
    (usedName : ∀ {key}, a.target env = some key → 0 < named (env.casemap.ciStr what) key) :
    Counts (s.releaseAccess env ci what a) (lose held ci a.nc)
      (lose named (env.casemap.ciStr what) (a.target env)) := by
  rw [State.releaseAccess]
  split
  · rename_i nc isFor
    have noTarget : a.target env = none := by
      rw [ChanAccess.target, isFor]
    rw [noTarget, lose_none, isFor]
    exact counts.modifyCore_remove (some nc) (fun _ => rfl) fun is => usedAccount (isFor.trans is)
  · rename_i forMask
    have isTarget : a.target env = some (env.casemap.ciStr a.mask) := by
      rw [ChanAccess.target, forMask]
    rw [isTarget, forMask, lose_none]
    exact counts.modifyNamed_remove oneName env (usedName isTarget)

/-- The same before a new mask: an entry without a mask names no channel. -/
theorem releaseMask (unnamed : s.registeredChannelList.lookup [] = none)
    (usedAccount : ∀ {nc}, a.nc = some nc → 0 < held ci nc)
    (usedName : ∀ {key}, a.target env = some key → 0 < named (env.casemap.ciStr what) key) :
    Counts (s.releaseMask env ci what a) (lose held ci a.nc)
      (lose named (env.casemap.ciStr what) (a.target env)) := by
  rw [State.releaseMask]
  split
  · rename_i nothing
    have isTarget : a.target env = some [] := by
      rw [ChanAccess.target, nothing.1, nothing.2]
      rfl
    rw [nothing.1, lose_none, isTarget]
    refine counts.congr_named fun place {key ci} listed => ?_
    have notEmpty : (some [] : Option Str) ≠ some key := by
      rintro equal
      rw [← Option.some.inj equal, unnamed] at listed
      cases listed
    rw [lose, if_neg fun both => notEmpty both.2, Int.sub_zero]
  · exact releaseAccess counts oneName usedAccount usedName

/-- What the new entry refers to counts it. -/
theorem assignMask (m : Str) :
    Counts (s.assignMask env ci what m a).2 (gain held ci (s.resolve env m a).nc)
      (gain named (env.casemap.ciStr what) ((s.resolve env m a).target env)) := by
  rw [State.assignMask, State.resolve]
  cases s.nickAliasList.lookup (env.casemap.ciStr m) with
  | some nc =>
      have noTarget : ({ a with mask := [], nc := some nc } : ChanAccess ν δ).target env = none :=
        rfl
      simp only [noTarget, gain_none]
      exact counts.modifyCore_add (some nc) fun _ => rfl
  | none =>
      have isTarget : ({ a with mask := m, nc := none } : ChanAccess ν δ).target env =
          some (env.casemap.ciStr m) := rfl
      simp only [isTarget, gain_none]
      exact counts.modifyNamed_add oneName env m what

/-- `SetMask` on a counted entry. -/
theorem setMask (unnamed : s.registeredChannelList.lookup [] = none) (m : Str)
    (usedAccount : ∀ {nc}, a.nc = some nc → 0 < held ci nc)
    (usedName : ∀ {key}, a.target env = some key → 0 < named (env.casemap.ciStr what) key) :
    Counts (s.setMask env ci what m a).2 (gain (lose held ci a.nc) ci (s.resolve env m a).nc)
      (gain (lose named (env.casemap.ciStr what) (a.target env)) (env.casemap.ciStr what)
        ((s.resolve env m a).target env)) := by
  have released : (s.releaseMask env ci what a).view = s.view := State.view_releaseMask env _ a
  have sameNames : (s.releaseMask env ci what a).registeredChannelList =
      s.registeredChannelList := congrArg View.registeredChannelList released
  have sameAliases : (s.releaseMask env ci what a).nickAliasList = s.nickAliasList :=
    congrArg View.nickAliasList released
  have resolved : (s.releaseMask env ci what a).resolve env m a = s.resolve env m a := by
    rw [State.resolve, State.resolve, sameAliases]
  have stillOneName : (s.releaseMask env ci what a).OneName := by
    rw [State.OneName, sameNames]
    exact oneName
  rw [← resolved]
  exact assignMask (releaseMask counts oneName unnamed usedAccount usedName) stillOneName m

end Counts

end Anope.Reference
