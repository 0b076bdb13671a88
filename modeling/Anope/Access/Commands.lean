import Anope.Access.Core

/-!
# Commands that add to an access list

What the commands of the access systems share: the source, how the mask of a new
entry is found, and the limit of the list.
-/

namespace Anope.Access

open Anope.Text Anope.Net

/-- `CommandSource` on a channel: what `AccessFor` gives, and the privilege
`chanserv/access/modify`. -/
structure Source (ν : Type) where
  nick : Str
  /-- `Highest`. -/
  highest : Option (Entry ν)
  founder : Bool
  /-- `AccessGroup::HasPriv`. -/
  hasPriv : Str → Bool
  modifyPriv : Bool

/-- What the commands look up, and their configuration. -/
structure World (χ ν : Type) where
  casemap : Casemap
  inet : Inet
  curTime : Int
  isChannelValid : Str → Bool
  /-- `ChannelInfo::Find`, with the name of the channel. -/
  findChannel : Str → Option (χ × Str)
  /-- `NickAlias::Find`: the nick and its account. -/
  findAlias : Str → Option (Str × ν)
  /-- `User::Find`: the nick and the account. -/
  findUser : Str → Option (Str × Option ν)
  display : ν → Str
  /-- The extension `NEVEROP`. -/
  neverOp : ν → Bool
  disallowChannelAccess : Bool
  disallowHostmaskAccess : Bool
  disallowMalformedHostmask : Bool
  accessMax : Nat
  readOnly : Bool

/-- The replies that end a command. -/
inductive Reply where
  | syntaxError
  | readOnlyMode
  | levelZero
  | levelRange (low high : Int)
  | accessDenied
  | channelsNotAllowed
  | channelNotRegistered (name : Str)
  | ownChannel
  | neverOp (display : Str)
  | masksNotAllowed
  | nickNotInUse (nick : Str)
  | nickNotRegistered (nick : Str)
  | malformed (mask : Str)
  | limit (max : Nat)
  | limitDeep (max : Nat)
  | notFound (mask : Str)
  deriving DecidableEq, Repr

/-- How a command ends. -/
inductive Outcome where
  | refused (reply : Reply)
  /-- It returns without a reply, as its access system is not there. -/
  | silent
  | added
  | removed
  deriving DecidableEq, Repr

/-- A command and the access list it leaves. -/
structure Result (ν : Type) where
  access : List (Entry ν)
  outcome : Outcome

variable {χ ν : Type} [DecidableEq χ] [DecidableEq ν]

/-- `FindPrivilege`. -/
def World.findPrivilege (world : World χ ν) (systems : Systems) (name : Str) : Option Str :=
  systems.privileges.reverse.find? (world.casemap.equalsCi · name)

/-- `Mask`. -/
def Entry.maskText (world : World χ ν) (entry : Entry ν) : Str :=
  match entry.nc with
  | some nc => world.display nc
  | none => entry.mask

/-- The mask of a new entry, the account of a registered nick and the description. -/
structure Target (ν : Type) where
  mask : Str
  nc : Option ν
  description : Str

/-- How `DoAdd` and `DoModify` find the mask of an entry on a channel. -/
def findTarget (world : World χ ν) (ci : χ) (mask description : Str) : Except Reply (Target ν) :=
  if world.isChannelValid mask then
    if world.disallowChannelAccess then .error .channelsNotAllowed
    else
      match world.findChannel mask with
      | none => .error (.channelNotRegistered mask)
      | some (target, name) =>
          if target = ci then .error .ownChannel else .ok ⟨name, none, description⟩
  else
    match world.findAlias mask with
    | some (nick, nc) =>
        if world.neverOp nc then .error (.neverOp (world.display nc))
        else .ok ⟨nick, some nc, description⟩
    | none =>
        if world.disallowHostmaskAccess then .error .masksNotAllowed
        else if !mask.any fun c => c = 33 ∨ c = 42 ∨ c = 64 then
          match world.findUser mask with
          | none => .error (.nickNotInUse mask)
          | some (nick, none) => .error (.nickNotRegistered nick)
          | some (nick, some nc) =>
              .ok ⟨world.display nc, none, if description.isEmpty then nick else description⟩
        else
          let cleanMask := (Mode.Entry.build world.casemap world.inet mask [] true).getCleanMask
          if world.disallowMalformedHostmask && cleanMask != mask then .error (.malformed cleanMask)
          else .ok ⟨cleanMask, none, description⟩

/-- Whether an entry is the one that a command names. -/
def Target.isFor (world : World χ ν) (target : Target ν) (entry : Entry ν) : Bool :=
  (target.nc.isSome && target.nc == entry.nc) ||
    world.casemap.equalsCi target.mask (entry.maskText world)

/-- `Matches` without a user: the channel that an entry names. -/
def Entry.next (world : World χ ν) (entry : Entry ν) : Option χ :=
  if entry.nc.isSome then none
  else if world.isChannelValid entry.mask then (world.findChannel entry.mask).map Prod.fst
  else none

/-- `GetDeepAccessCount` of a channel with its list, and the channels seen: entries
that name a channel count this list again. -/
def deepAccessCountFrom (world : World χ ν) (ci : χ) (access : List (Entry ν)) (depth : Nat)
    (seen : List χ) : Nat × List χ :=
  if depth > maxDepth ∨ ci ∈ seen then (0, seen)
  else
    access.foldl
      (fun counted entry =>
        if (entry.next world).isSome then
          let inner := deepAccessCountFrom world ci access (depth + 1) counted.2
          (counted.1 + 1 + inner.1, inner.2)
        else (counted.1 + 1, counted.2))
      (0, ci :: seen)
termination_by maxDepth + 1 - depth

/-- `ChannelInfo::GetDeepAccessCount`. -/
def deepAccessCount (world : World χ ν) (ci : χ) (access : List (Entry ν)) : Nat :=
  (deepAccessCountFrom world ci access 0 []).1

/-- The reply to one entry too many. -/
def limitReply (world : World χ ν) (ci : χ) (access : List (Entry ν)) : Option Reply :=
  if world.accessMax ≠ 0 ∧ world.accessMax ≤ deepAccessCount world ci access then
    some (if deepAccessCount world ci access = access.length then .limit world.accessMax
      else .limitDeep world.accessMax)
  else none

/-- `SetMask` and the other fields of a new entry. -/
def newEntry (world : World χ ν) (source : Source ν) (target : Target ν) (grant : Grant) :
    Entry ν where
  mask := if (world.findAlias target.mask).isSome then [] else target.mask
  nc := (world.findAlias target.mask).map Prod.snd
  grant := grant
  creator := source.nick
  description := target.description
  lastSeen := 0
  created := world.curTime

omit [DecidableEq ν] in
/-- Once a channel was seen, it counts nothing more. -/
theorem deepAccessCountFrom_of_seen (world : World χ ν) {ci : χ} (access : List (Entry ν))
    (depth : Nat) {seen : List χ} (mem : ci ∈ seen) :
    deepAccessCountFrom world ci access depth seen = (0, seen) := by
  rw [deepAccessCountFrom, if_pos (.inr mem)]

omit [DecidableEq ν] in
/-- The deep count of a list is its length, as entries that name a channel count the
list they are on, which was seen. -/
theorem deepAccessCount_eq (world : World χ ν) (ci : χ) (access : List (Entry ν)) :
    deepAccessCount world ci access = access.length := by
  have loop : ∀ (entries : List (Entry ν)) (total : Nat),
      entries.foldl
        (fun counted entry =>
          if (entry.next world).isSome then
            let inner := deepAccessCountFrom world ci access (0 + 1) counted.2
            (counted.1 + 1 + inner.1, inner.2)
          else (counted.1 + 1, counted.2))
        (total, [ci]) = (total + entries.length, [ci]) := by
    intro entries
    induction entries with
    | nil => exact fun _ => rfl
    | cons entry entries ih =>
        intro total
        have counted : deepAccessCountFrom world ci access (0 + 1) [ci] = (0, [ci]) :=
          deepAccessCountFrom_of_seen world access _ List.mem_cons_self
        rw [List.foldl_cons]
        simp only [counted, Nat.add_zero, ite_self]
        rw [ih, List.length_cons, Nat.add_right_comm, Nat.add_assoc]
  rw [deepAccessCount, deepAccessCountFrom, if_neg (by simp [maxDepth]), loop, Nat.zero_add]

omit [DecidableEq ν] in
/-- The limit refuses a list exactly when there is one and the list reaches it. -/
theorem limitReply_eq (world : World χ ν) (ci : χ) (access : List (Entry ν)) :
    limitReply world ci access =
      if world.accessMax ≠ 0 ∧ world.accessMax ≤ access.length then some (.limit world.accessMax)
      else none := by
  rw [limitReply, deepAccessCount_eq, if_pos rfl]

end Anope.Access

/-!
## Adding to an access list

`DoAdd` of `ACCESS` and of the `XOP` commands.  Both take the entry that the new one
replaces off the list before the limit of the list is checked.
-/

namespace Anope.Access

open Anope.Text

variable {χ ν : Type} [DecidableEq χ] [DecidableEq ν]

/-! ## The commands -/

/-- The loop of `DoAdd` from the front: the first entry that is named is taken off,
unless the source may not do that. -/
def replaceFirst (named denied : Entry ν → Bool) : List (Entry ν) → Except Reply (List (Entry ν))
  | [] => .ok []
  | entry :: access =>
      if named entry then
        if denied entry then .error .accessDenied else .ok access
      else (replaceFirst named denied access).map (entry :: ·)

/-- The loop of `DoAdd` from the back. -/
def replaceLast (named denied : Entry ν → Bool) (access : List (Entry ν)) :
    Except Reply (List (Entry ν)) :=
  (replaceFirst named denied access.reverse).map List.reverse

/-- An entry as high as the highest of the source may not be replaced. -/
def Source.mayNotReplace (systems : Systems) (source : Source ν) (entry : Entry ν) : Bool :=
  (match source.highest with
    | none => true
    | some highest => entry.grant.ge systems highest.grant) &&
      !source.founder && !source.modifyPriv

/-- The end of `DoAdd`: the limit and the new entry. -/
def finishAdd (world : World χ ν) (source : Source ν) (ci : χ) (provider : Bool)
    (target : Target ν) (grant : Grant) (left : List (Entry ν)) : Result ν :=
  match limitReply world ci left with
  | some reply => ⟨left, .refused reply⟩
  | none =>
      if provider then ⟨left ++ [newEntry world source target grant], .added⟩
      else ⟨left, .silent⟩

/-- `DoAdd` behind the check of the source: the target, the loop and the end. -/
def addEntry (world : World χ ν) (systems : Systems) (source : Source ν) (ci : χ)
    (provider fromBack : Bool) (mask description : Str) (checked : Except Reply Grant)
    (access : List (Entry ν)) : Result ν :=
  match checked with
  | .error reply => ⟨access, .refused reply⟩
  | .ok grant =>
      match findTarget world ci mask description with
      | .error reply => ⟨access, .refused reply⟩
      | .ok target =>
          match (if fromBack then replaceLast else replaceFirst) (target.isFor world)
              (source.mayNotReplace systems) access with
          | .error reply => ⟨access, .refused reply⟩
          | .ok left => finishAdd world source ci provider target grant left

/-- The level that `ACCESS ADD` is given as a number or as the name of a privilege. -/
def readLevel (world : World χ ν) (systems : Systems) (text : Str) : Int :=
  match Convert.tryConvert (Convert.extractSigned 32) text with
  | some level => level
  | none =>
      match world.findPrivilege systems text with
      | none => accessInvalid
      | some priv => if systems.defaultLevel priv ≠ 0 then systems.defaultLevel priv
          else accessInvalid

/-- What `ACCESS ADD` checks before it looks for the target. -/
def accessGrant (world : World χ ν) (systems : Systems) (source : Source ν) (text : Str) :
    Except Reply Grant :=
  let level := readLevel world systems text
  if level = 0 then .error .levelZero
  else if level ≤ accessInvalid ∨ accessFounder ≤ level then
    .error (.levelRange (accessInvalid + 1) (accessFounder - 1))
  else if (match source.highest with
      | none => true
      | some highest => highest.grant.le systems (.access level)) &&
        !source.founder && !source.modifyPriv then
    .error .accessDenied
  else .ok (.access level)

/-- What a command of `cs_xop` checks before it looks for the target. -/
def xopGrant (world : World χ ν) (systems : Systems) (source : Source ν) (command mask : Str) :
    Except Reply Grant :=
  if mask.isEmpty then .error .syntaxError
  else if world.readOnly then .error .readOnlyMode
  else
    let cmdIt := systems.order.idxOf command
    let accessIt :=
      match source.highest with
      | none => systems.order.length
      | some highest => systems.order.idxOf (highest.grant.determineLevel systems)
    if !source.founder && (!source.hasPriv (ascii "ACCESS_CHANGE") || cmdIt ≤ accessIt) &&
        !source.modifyPriv then
      .error .accessDenied
    else .ok (.xop command)

/-- The commands; that of `cs_xop` is its name in upper case. -/
inductive AddCommand where
  /-- `ACCESS ADD`. -/
  | access (mask level description : Str)
  /-- `XOP ADD`. -/
  | xop (command mask description : Str)

namespace AddCommand

/-- The mask of a command. -/
def mask : AddCommand → Str
  | access mask _ _ | xop _ mask _ => mask

/-- The description of a command. -/
def description : AddCommand → Str
  | access _ _ description | xop _ _ description => description

/-- What a command checks first. -/
def checked (world : World χ ν) (systems : Systems) (source : Source ν) :
    AddCommand → Except Reply Grant
  | access _ level _ => accessGrant world systems source level
  | xop command mask _ => xopGrant world systems source command mask

/-- Whether a command looks for the entry to replace from the back. -/
def fromBack : AddCommand → Bool
  | access .. => true
  | xop .. => false

/-- `DoAdd`. -/
def run (world : World χ ν) (systems : Systems) (source : Source ν) (ci : χ) (provider : Bool)
    (command : AddCommand) (access : List (Entry ν)) : Result ν :=
  addEntry world systems source ci provider command.fromBack command.mask command.description
    (command.checked world systems source) access

end AddCommand

/-! ## What a refused command leaves -/

omit [DecidableEq ν] in
theorem replaceFirst_eq (named denied : Entry ν → Bool) (access : List (Entry ν)) :
    replaceFirst named denied access =
      match access.find? named with
      | none => .ok access
      | some entry => if denied entry then .error .accessDenied else .ok (access.eraseP named) := by
  induction access with
  | nil => rfl
  | cons entry access ih =>
      rw [replaceFirst, List.find?_cons, List.eraseP_cons]
      cases is : named entry with
      | true => rfl
      | false =>
          rw [if_neg Bool.false_ne_true, ih]
          cases access.find? named with
          | none => rfl
          | some found =>
              dsimp only
              split <;> rfl

/-- The entry that a command replaces. -/
def named (fromBack : Bool) (isFor : Entry ν → Bool) (access : List (Entry ν)) :
    Option (Entry ν) :=
  (if fromBack then access.reverse else access).find? isFor

omit [DecidableEq ν] in
/-- The loops take off the entry they find, when the source may replace it. -/
theorem replace_spec (fromBack : Bool) (isFor denied : Entry ν → Bool) (access : List (Entry ν)) :
    match named fromBack isFor access with
    | none => (if fromBack then replaceLast else replaceFirst) isFor denied access = .ok access
    | some entry =>
        if denied entry then
          (if fromBack then replaceLast else replaceFirst) isFor denied access =
            .error .accessDenied
        else ∃ left, (if fromBack then replaceLast else replaceFirst) isFor denied access =
          .ok left ∧ left.length + 1 = access.length := by
  have shorter : ∀ list : List (Entry ν), (∃ entry, list.find? isFor = some entry) →
      (list.eraseP isFor).length + 1 = list.length := by
    rintro list ⟨entry, found⟩
    rw [List.length_eraseP_of_mem (List.mem_of_find?_eq_some found) (List.find?_some found)]
    exact Nat.sub_add_cancel (List.length_pos_of_mem (List.mem_of_find?_eq_some found))
  cases fromBack with
  | false =>
      rw [named, if_neg Bool.false_ne_true, if_neg Bool.false_ne_true, replaceFirst_eq]
      cases found : access.find? isFor with
      | none => rfl
      | some entry =>
          dsimp only
          split
          · rfl
          · exact ⟨_, rfl, shorter access ⟨entry, found⟩⟩
  | true =>
      rw [named, if_pos rfl, if_pos rfl, replaceLast, replaceFirst_eq]
      cases found : access.reverse.find? isFor with
      | none => exact congrArg Except.ok access.reverse_reverse
      | some entry =>
          dsimp only
          split
          · rfl
          · refine ⟨_, rfl, ?_⟩
            rw [List.length_reverse, shorter _ ⟨entry, found⟩, List.length_reverse]

namespace AddCommand

variable (world : World χ ν) (systems : Systems) (source : Source ν) (ci : χ)

/-- All checks before the replacement pass, an entry is replaced, and without it the
list still reaches its limit. -/
def Loses (command : AddCommand) (access : List (Entry ν)) : Prop :=
  ∃ grant target entry, command.checked world systems source = .ok grant ∧
    findTarget world ci command.mask command.description = .ok target ∧
    named command.fromBack (target.isFor world) access = some entry ∧
    source.mayNotReplace systems entry = false ∧
    world.accessMax ≠ 0 ∧ world.accessMax < access.length

omit [DecidableEq ν] in
/-- The end of `DoAdd` refuses a list exactly when there is a limit that it reaches. -/
theorem finishAdd_unchanged_iff (provider : Bool) (target : Target ν) (grant : Grant)
    (left access : List (Entry ν)) :
    (∀ reply, (finishAdd world source ci provider target grant left).outcome = .refused reply →
        (finishAdd world source ci provider target grant left).access = access) ↔
      (world.accessMax ≠ 0 ∧ world.accessMax ≤ left.length → left = access) := by
  rw [finishAdd, limitReply_eq]
  by_cases full : world.accessMax ≠ 0 ∧ world.accessMax ≤ left.length
  · rw [if_pos full]
    exact ⟨fun all _ => all _ rfl, fun same _ _ => same full⟩
  · rw [if_neg full]
    refine iff_of_true (fun reply refused => ?_) fun is => absurd is full
    dsimp only at refused
    split at refused <;> exact nomatch refused

/-- A refused command leaves the list as it was exactly when it does not replace an entry
of a list that is over its limit. -/
theorem run_unchanged_iff (provider : Bool) (command : AddCommand) (access : List (Entry ν)) :
    (∀ reply, (command.run world systems source ci provider access).outcome = .refused reply →
        (command.run world systems source ci provider access).access = access) ↔
      ¬ command.Loses world systems source ci access := by
  cases isChecked : command.checked world systems source with
  | error reply =>
      simp only [run, addEntry, isChecked]
      refine iff_of_true (fun _ _ => trivial) ?_
      rintro ⟨grant, _, _, is, _⟩
      exact nomatch isChecked.symm.trans is
  | ok grant =>
      cases isTarget : findTarget world ci command.mask command.description with
      | error reply =>
          simp only [run, addEntry, isChecked, isTarget]
          refine iff_of_true (fun _ _ => trivial) ?_
          rintro ⟨_, target, _, _, is, _⟩
          exact nomatch isTarget.symm.trans is
      | ok target =>
          have spec := replace_spec command.fromBack (target.isFor world)
            (source.mayNotReplace systems) access
          cases isNamed : named command.fromBack (target.isFor world) access with
          | none =>
              rw [isNamed] at spec
              simp only [run, addEntry, isChecked, isTarget, spec, finishAdd_unchanged_iff]
              refine iff_of_true (fun _ => trivial) ?_
              rintro ⟨_, _, entry, _, is, found, _⟩
              cases isTarget.symm.trans is
              exact nomatch isNamed.symm.trans found
          | some entry =>
              rw [isNamed] at spec
              dsimp only at spec
              have loses : command.Loses world systems source ci access ↔
                  source.mayNotReplace systems entry = false ∧
                    world.accessMax ≠ 0 ∧ world.accessMax < access.length := by
                constructor
                · rintro ⟨_, _, other, _, is, found, rest⟩
                  cases isTarget.symm.trans is
                  cases isNamed.symm.trans found
                  exact rest
                · exact fun rest => ⟨grant, target, entry, isChecked, isTarget, isNamed, rest⟩
              rw [loses]
              cases denied : source.mayNotReplace systems entry with
              | true =>
                  rw [denied, if_pos rfl] at spec
                  simp only [run, addEntry, isChecked, isTarget, spec]
                  exact iff_of_true (fun _ _ => trivial) fun is => nomatch is.1
              | false =>
                  rw [denied, if_neg Bool.false_ne_true] at spec
                  obtain ⟨left, isLeft, length⟩ := spec
                  simp only [run, addEntry, isChecked, isTarget, isLeft, finishAdd_unchanged_iff]
                  have different : left ≠ access := fun same => by
                    rw [same] at length
                    omega
                  simp only [← length, Nat.lt_succ_iff, true_and]
                  exact ⟨fun is full => different (is full), fun is full => absurd full is⟩

/-! ### A lowered limit -/

/-- An account on an access list. -/
def accountEntry (nc : Nat) (level : Int) : Entry Nat where
  mask := []
  nc := some nc
  grant := .access level
  creator := ascii "root"
  description := []
  lastSeen := 0
  created := 0

/-- Accounts `a` and `b`, and a limit. -/
def twoAccounts (accessMax : Nat) : World Unit Nat where
  casemap := .ascii
  inet := ⟨fun _ => none, fun _ => none, fun _ => none, fun _ => none⟩
  curTime := 0
  isChannelValid := fun _ => false
  findChannel := fun _ => none
  findAlias := fun nick =>
    if nick = ascii "a" then some (nick, 0) else if nick = ascii "b" then some (nick, 1) else none
  findUser := fun _ => none
  display := fun nc => if nc = 0 then ascii "a" else ascii "b"
  neverOp := fun _ => false
  disallowChannelAccess := false
  disallowHostmaskAccess := false
  disallowMalformedHostmask := false
  accessMax := accessMax
  readOnly := false

/-- The access systems without privileges. -/
def noPrivileges : Systems where
  privileges := []
  getLevel := fun _ => accessInvalid
  defaultLevels := []
  order := []
  permissions := []
  defaultFlags := []
  distinct := List.nodup_nil

/-- The founder of the channel. -/
def founderSource : Source Nat where
  nick := ascii "root"
  highest := none
  founder := true
  hasPriv := fun _ => true
  modifyPriv := false

/-- With a limit of one and two accounts on the list, changing the level of the second
is refused and takes it off. -/
theorem not_run_unchanged_lowered :
    ((AddCommand.access (ascii "b") (ascii "5") []).run (twoAccounts 1) noPrivileges founderSource
        () true [accountEntry 0 3, accountEntry 1 3]).outcome = .refused (.limit 1) ∧
      ((AddCommand.access (ascii "b") (ascii "5") []).run (twoAccounts 1) noPrivileges
        founderSource () true [accountEntry 0 3, accountEntry 1 3]).access ≠
          [accountEntry 0 3, accountEntry 1 3] := by
  have left : (AddCommand.access (ascii "b") (ascii "5") []).run (twoAccounts 1) noPrivileges
      founderSource () true [accountEntry 0 3, accountEntry 1 3] =
        ⟨[accountEntry 0 3], .refused (.limit 1)⟩ := by
    change finishAdd (twoAccounts 1) founderSource () true ⟨ascii "b", some 1, []⟩ (.access 5)
      [accountEntry 0 3] = _
    rw [finishAdd, limitReply_eq]
    rfl
  rw [left]
  decide

end AddCommand

end Anope.Access
