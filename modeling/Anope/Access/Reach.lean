import Anope.Access.Core
import Anope.Library.Paths
import Mathlib.Algebra.BigOperators.Group.Finset.Basic
import Mathlib.Algebra.Order.BigOperators.Group.Finset

/-!
# Access is bounded reachability

The paths of a group are the chains of entries, from the channel's own list over
the channels that entries name to an entry that matches, that are no longer than
the depth allows.
-/

namespace Anope.Access

open Library.Paths

variable {χ α ν : Type} [DecidableEq ν]

section Chains

variable (env : Env χ α ν) (registry : Registry χ α ν) (u : Option (User ν)) (account : Option ν)

/-- An entry matches the user or the account. -/
def Matches (a : α) : Prop :=
  ((registry.access a).matches env registry u account).1 = true

/-- An entry names a registered channel. -/
def Names (a : α) (next : χ) : Prop :=
  (registry.access a).nc = none ∧ env.isChannelValid (registry.access a).mask = true ∧
    registry.find env (registry.access a).mask = some next

/-- A chain of access entries from a channel: every entry but the last does not
match and names the channel whose list has the next one, and the last matches. -/
def IsChain : χ → List α → Prop :=
  IsPath (fun ci => (registry.channel ci).access) (Matches env registry u account)
    fun a next => ¬Matches env registry u account a ∧ Names env registry a next

/-- What the search does at an entry. -/
def judge (a : α) : Verdict χ :=
  match (registry.access a).matches env registry u account with
  | (true, _) => .hit
  | (false, some next) => .follow next
  | (false, none) => .miss

variable {env registry u account}

theorem judge_eq_hit_iff (a : α) :
    judge env registry u account a = .hit ↔ Matches env registry u account a := by
  unfold judge Matches
  split
  next matched => simp [matched]
  next matched => simp [matched]
  next matched => simp [matched]

/-- An entry that does not match hands on the channel that it names. -/
theorem matches_eq_follow_iff (a : α) (next : χ) :
    (registry.access a).matches env registry u account = (false, some next) ↔
      ¬Matches env registry u account a ∧ Names env registry a next := by
  unfold Matches Names ChanAccess.matches
  cases (registry.access a).nc with
  | some nc => simp
  | none =>
      simp only
      split
      next => simp
      next =>
        split
        next valid => simp [valid]
        next invalid => simp [invalid]

theorem judge_eq_follow_iff (a : α) (next : χ) :
    judge env registry u account a = .follow next ↔
      ¬Matches env registry u account a ∧ Names env registry a next := by
  rw [← matches_eq_follow_iff]
  unfold judge
  split
  next matched => simp [matched]
  next matched => simp [matched]
  next matched => simp [matched]

/-- The recursion with its two accumulators is the search. -/
theorem findMatchesRecurse_eq (ci : χ) (depth : Nat) (paths : List (List α)) (path : List α) :
    findMatchesRecurse env registry u account ci depth paths path =
      paths ++ (search (fun ci => (registry.channel ci).access) (judge env registry u account)
        (maxDepth + 1 - depth) ci).map (path ++ ·) := by
  generalize levels : maxDepth + 1 - depth = bound
  induction bound generalizing ci depth paths path with
  | zero =>
      rw [findMatchesRecurse, if_pos (by omega), search, List.map_nil, List.append_nil]
  | succ bound ih =>
      rw [findMatchesRecurse, if_neg (by omega), search, List.map_flatMap, List.flatMap_def,
        ← List.foldl_append_eq_append]
      apply List.foldl_ext
      intro paths a _
      rw [judge]
      rcases (registry.access a).matches env registry u account with ⟨matched, next⟩
      cases matched with
      | true => rfl
      | false =>
          cases next with
          | none => exact (List.append_nil paths).symm
          | some next =>
              have deeper : maxDepth + 1 - (depth + 1) = bound := by omega
              simp only [ih next (depth + 1) paths (path ++ [a]) deeper, List.map_map,
                Function.comp_def, List.append_assoc, List.singleton_append]

/-- The paths of a search are the chains within the depth. -/
theorem mem_findMatches_iff {ci : χ} {path : List α} :
    path ∈ findMatches env registry ci u account ↔
      IsChain env registry u account ci path ∧ path.length ≤ maxDepth + 1 := by
  have same : (fun path : List α => [] ++ path) = id := rfl
  rw [findMatches, findMatchesRecurse_eq, List.nil_append, same, List.map_id]
  exact mem_search_iff judge_eq_hit_iff judge_eq_follow_iff

end Chains

/-! ## Access of a user or an account -/

/-- Whom access is asked for. -/
inductive Subject (ν : Type) where
  | user (u : User ν)
  | account (nc : ν)

/-- `ChannelInfo::AccessFor`. -/
def accessFor (env : Env χ α ν) (registry : Registry χ α ν) (ci : χ) :
    Subject ν → AccessGroup χ α ν
  | .user u => accessForUser env registry ci (some u)
  | .account nc => accessForAccount env registry ci (some nc)

namespace Subject

/-- The user, when access is asked for one. -/
def user? : Subject ν → Option (User ν)
  | user u => some u
  | account _ => none

/-- The account. -/
def account? : Subject ν → Option ν
  | user u => u.account
  | account nc => some nc

end Subject

variable {env : Env χ α ν} {registry : Registry χ α ν} {ci : χ} {subject : Subject ν}

theorem paths_accessFor :
    (accessFor env registry ci subject).paths =
      findMatches env registry ci subject.user? subject.account? := by
  cases subject with
  | user u => rfl
  | account nc => rfl

theorem ci_accessFor : (accessFor env registry ci subject).ci = some ci := by
  cases subject with
  | user u => rfl
  | account nc => rfl

omit [DecidableEq ν] in
/-- Without super admins, founders and modules, the paths decide. -/
theorem hasPriv_iff_exists_path {group : AccessGroup χ α ν} {name : Str}
    (onChannel : group.ci = some ci) (notAdmin : group.superAdmin = false)
    (notFounder : group.founder = false)
    (undecided : env.onGroupCheckPriv group name = .continue)
    (notAllowed : ∀ a, env.onCheckPriv a name ≠ .allow) :
    group.hasPriv env registry name = true ↔
      env.getLevel (registry.channel ci) name ≠ accessInvalid ∧
        ∃ path ∈ group.paths, path ≠ [] ∧ ∀ a ∈ path, env.grants a name = true := by
  unfold AccessGroup.hasPriv
  rw [notAdmin, notFounder, onChannel, undecided]
  by_cases disabled : env.getLevel (registry.channel ci) name = accessInvalid
  · simp [disabled]
  · simp [disabled, pathHasPriv, notAllowed]

/-- The paths of a group are the chains of access entries within the depth, and a
privilege that nothing else decides is had exactly along a path of entries that
all grant it. -/
theorem accessFor_spec (env : Env χ α ν) (registry : Registry χ α ν) (ci : χ)
    (subject : Subject ν) :
    (∀ path, path ∈ (accessFor env registry ci subject).paths ↔
      IsChain env registry subject.user? subject.account? ci path ∧
        path.length ≤ maxDepth + 1) ∧
    ∀ name, (accessFor env registry ci subject).superAdmin = false →
      (accessFor env registry ci subject).founder = false →
      env.onGroupCheckPriv (accessFor env registry ci subject) name = .continue →
      (∀ a, env.onCheckPriv a name ≠ .allow) →
        ((accessFor env registry ci subject).hasPriv env registry name = true ↔
          env.getLevel (registry.channel ci) name ≠ accessInvalid ∧
            ∃ path, IsChain env registry subject.user? subject.account? ci path ∧
              path.length ≤ maxDepth + 1 ∧ ∀ a ∈ path, env.grants a name = true) := by
  have paths (path : List α) : path ∈ (accessFor env registry ci subject).paths ↔
      IsChain env registry subject.user? subject.account? ci path ∧
        path.length ≤ maxDepth + 1 := by
    rw [paths_accessFor]
    exact mem_findMatches_iff
  refine ⟨paths, fun name notAdmin notFounder undecided notAllowed => ?_⟩
  rw [hasPriv_iff_exists_path ci_accessFor notAdmin notFounder undecided notAllowed]
  refine and_congr_right fun _ => exists_congr fun path => ?_
  rw [paths, and_assoc]
  constructor
  · rintro ⟨chain, short, _, grants⟩
    exact ⟨chain, short, grants⟩
  · rintro ⟨chain, short, grants⟩
    exact ⟨chain, short, IsPath.ne_nil chain, grants⟩

/-- Two channels that name each other; the account `0` is in the list of the
second one. -/
def circleRegistry : Registry Bool (Fin 3) (Fin 2) where
  channel ci := ⟨if ci then [1, 2] else [0], none, ∅, 0⟩
  access a :=
    if a = 0 then ⟨ascii "#b", none, 0⟩
    else if a = 1 then ⟨ascii "#a", none, 0⟩
    else ⟨[], some ⟨0, Nat.two_pos⟩, 0⟩
  aliases _ := []
  registeredChannelList :=
    (AList.singleton (Text.Casemap.ascii.ciStr (ascii "#a")) false).insert
      (Text.Casemap.ascii.ciStr (ascii "#b")) true

/-- Every entry grants the one privilege. -/
def circleEnv : Env Bool (Fin 3) (Fin 2) where
  casemap := .ascii
  maxChannel := 32
  privileges := [ascii "OP"]
  grants _ _ := true
  onCheckPriv _ _ := .continue
  onGroupCheckPriv _ _ := .continue

theorem accessFor_spec_circle :
    (accessFor circleEnv circleRegistry false (.account 0)).hasPriv circleEnv circleRegistry
      (ascii "OP") = true := by
  have paths := (accessFor_spec circleEnv circleRegistry false (.account 0)).2 (ascii "OP") rfl rfl
    rfl (by decide)
  have follows : (circleRegistry.access 0).matches circleEnv circleRegistry none (some 0) =
      (false, some true) := by
    decide +kernel
  have matched : Matches circleEnv circleRegistry none (some 0) 2 := rfl
  refine paths.mpr ⟨by decide, [0, 2], ?_, by decide, fun _ _ => rfl⟩
  exact .step (by decide) ((matches_eq_follow_iff 0 true).mp follows) (.last (by decide) matched)

end Anope.Access

/-!
## The number of access entries

`GetDeepAccessCount` should add up the access lists of the channels that a channel reaches through
entries that name channels.  Its recursion starts at the same channel again, which was seen, so
only the entries of the channel itself are counted.
-/

namespace Anope.Access

open Library.Paths

section Count

variable {χ α ν : Type} [DecidableEq χ] [DecidableEq ν] (env : Env χ α ν)
  (registry : Registry χ α ν)

/-- `ChannelInfo::GetAccessCount`, an `unsigned`. -/
def getAccessCount (ci : χ) : Nat :=
  (registry.channel ci).access.length % 2 ^ 32

/-- The channel `next` of an entry that is not matched against anybody. -/
def nextOf (a : α) : Option χ :=
  ((registry.access a).matches env registry none none).2

/-- `GetDeepAccessCount`: what was seen, and the total. -/
def getDeepAccessCountFrom (ci : χ) (seen : List χ) (depth : Nat) : List χ × Nat :=
  if depth > maxDepth ∨ ci ∈ seen then (seen, 0)
  else
    ((registry.channel ci).access.take (getAccessCount registry ci)).foldl
      (fun state a =>
        let total := (state.2 + 1) % 2 ^ 32
        match nextOf env registry a with
        | none => (state.1, total)
        | some _ =>
            -- the channel that the entry names is not the one that is counted
            let (seen, more) := getDeepAccessCountFrom ci state.1 (depth + 1)
            (seen, (total + more) % 2 ^ 32))
      (ci :: seen, 0)
termination_by maxDepth + 1 - depth

/-- `ChannelInfo::GetDeepAccessCount`. -/
def getDeepAccessCount (ci : χ) : Nat :=
  (getDeepAccessCountFrom env registry ci [] 0).2

/-- The channels that the entries of a channel name. -/
def namedChannels (ci : χ) : List χ :=
  (registry.channel ci).access.filterMap (nextOf env registry)

/-- The entries of all distinct channels that the depth allows to reach. -/
def entriesWithin (ci : χ) : Nat :=
  ∑ other ∈ nodesWithin (namedChannels env registry) maxDepth ci,
    (registry.channel other).access.length

variable {env registry}

/-- A channel that was seen is not counted again. -/
theorem getDeepAccessCountFrom_of_mem {ci : χ} {seen : List χ} (mem : ci ∈ seen) (depth : Nat) :
    getDeepAccessCountFrom env registry ci seen depth = (seen, 0) := by
  rw [getDeepAccessCountFrom, if_pos (.inr mem)]

/-- The loop counts the entries alone: what it recurses into was seen. -/
theorem foldl_getDeepAccessCountFrom {ci : χ} {seen : List χ} (mem : ci ∈ seen) (depth : Nat)
    (entries : List α) (total : Nat) :
    entries.foldl
        (fun state a =>
          let total := (state.2 + 1) % 2 ^ 32
          match nextOf env registry a with
          | none => (state.1, total)
          | some _ =>
              let (seen, more) := getDeepAccessCountFrom env registry ci state.1 (depth + 1)
              (seen, (total + more) % 2 ^ 32))
        (seen, total % 2 ^ 32) =
      (seen, (total + entries.length) % 2 ^ 32) := by
  induction entries generalizing total with
  | nil => rfl
  | cons a entries ih =>
      have counted : (total % 2 ^ 32 + 1) % 2 ^ 32 = (total + 1) % 2 ^ 32 := Nat.mod_add_mod _ _ _
      rw [List.foldl_cons, List.length_cons, Nat.add_comm entries.length 1, ← Nat.add_assoc]
      cases nextOf env registry a with
      | none =>
          dsimp only
          rw [counted]
          exact ih (total + 1)
      | some next =>
          dsimp only
          rw [getDeepAccessCountFrom_of_mem mem, counted]
          have nothing : ((total + 1) % 2 ^ 32 + 0) % 2 ^ 32 = (total + 1) % 2 ^ 32 := by
            rw [Nat.add_zero, Nat.mod_mod]
          dsimp only
          rw [nothing]
          exact ih (total + 1)

theorem getDeepAccessCount_eq (ci : χ) :
    getDeepAccessCount env registry ci = getAccessCount registry ci := by
  have visited : ¬(0 > maxDepth ∨ ci ∈ []) := by
    rintro (deep | mem)
    · exact absurd deep (Nat.not_lt_zero _)
    · cases mem
  rw [getDeepAccessCount, getDeepAccessCountFrom, if_neg visited]
  have counted := @foldl_getDeepAccessCountFrom _ _ _ _ _ env registry ci [ci] List.mem_cons_self 0
    ((registry.channel ci).access.take (getAccessCount registry ci)) 0
  rw [Nat.zero_mod] at counted
  rw [counted, Nat.zero_add, List.length_take, getAccessCount,
    Nat.min_eq_left (Nat.mod_le _ _), Nat.mod_mod]

/-- The entries of a channel itself are among those within the depth. -/
theorem entriesWithin_eq (ci : χ) :
    entriesWithin env registry ci = (registry.channel ci).access.length +
      ∑ other ∈ (nodesWithin (namedChannels env registry) maxDepth ci).erase ci,
        (registry.channel other).access.length :=
  (Finset.add_sum_erase _ _ (mem_nodesWithin_self _ _ _)).symm

/-- All entries within the depth are counted exactly when the channel is alone in having any, and
an `unsigned` can have their number. -/
theorem getDeepAccessCount_eq_iff (env : Env χ α ν) (registry : Registry χ α ν) (ci : χ) :
    getDeepAccessCount env registry ci = entriesWithin env registry ci ↔
      (registry.channel ci).access.length < 2 ^ 32 ∧
        ∀ other ≠ ci, (∃ steps ≤ maxDepth, Walk (namedChannels env registry) steps ci other) →
          (registry.channel other).access = [] := by
  have others : ∑ other ∈ (nodesWithin (namedChannels env registry) maxDepth ci).erase ci,
        (registry.channel other).access.length = 0 ↔
      ∀ other ≠ ci, (∃ steps ≤ maxDepth, Walk (namedChannels env registry) steps ci other) →
        (registry.channel other).access = [] := by
    rw [Finset.sum_eq_zero_iff]
    constructor
    · intro none other notCi reached
      exact List.eq_nil_of_length_eq_zero
        (none other (Finset.mem_erase.mpr ⟨notCi, mem_nodesWithin_iff.mpr reached⟩))
    · intro none other mem
      obtain ⟨notCi, within⟩ := Finset.mem_erase.mp mem
      rw [none other notCi (mem_nodesWithin_iff.mp within)]
      rfl
  rw [getDeepAccessCount_eq, entriesWithin_eq, getAccessCount, ← others]
  constructor
  · intro same
    have small := Nat.mod_le (registry.channel ci).access.length (2 ^ 32)
    have fits := Nat.mod_lt (registry.channel ci).access.length (Nat.two_pow_pos 32)
    omega
  · rintro ⟨fits, none⟩
    rw [none, Nat.add_zero, Nat.mod_eq_of_lt fits]

end Count

/-! ## A channel that names another one -/

/-- The channel `#a` has an entry for `#b`, which has an entry for an account. -/
def twoChannels : Registry Bool Bool Unit where
  channel ci := ⟨[ci], none, ∅, 0⟩
  access a := if a then ⟨ascii "#b", none, 0⟩ else ⟨[], some (), 0⟩
  aliases _ := []
  registeredChannelList := AList.insert (Text.Casemap.ascii.ciStr (ascii "#b")) false ∅

/-- No privileges and no modules. -/
def bareEnv : Env Bool Bool Unit where
  casemap := .ascii
  maxChannel := 32
  privileges := []
  grants _ _ := false
  onCheckPriv _ _ := .continue
  onGroupCheckPriv _ _ := .continue

/-- The entry of the second channel is not counted. -/
theorem not_getDeepAccessCount_two :
    ¬∀ (registry : Registry Bool Bool Unit) (ci : Bool),
      getDeepAccessCount bareEnv registry ci = entriesWithin bareEnv registry ci := by
  intro counts
  have counted := counts twoChannels true
  rw [getDeepAccessCount_eq] at counted
  revert counted
  decide +kernel

end Anope.Access
