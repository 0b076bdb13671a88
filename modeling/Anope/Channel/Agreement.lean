import Anope.Channel.Timestamp
import Anope.Library.Loop

/-!
# Reset forgets

`Channel::Reset` gives the same result on a channel and on that channel without
its modes and without the statuses of foreign clients, whatever the handlers do
in between.  The two runs are compared: before the loop has passed a foreign
member its statuses may differ, and the handlers treat both channels alike.
-/

namespace Anope.Channel

open Library.Loop Library.Table Anope.Text Anope.Mode

variable {μ υ : Type} [LinearOrder υ]

/-- Two channels that differ at most in the statuses of stale members. -/
structure AgreeOff (stale : υ → Prop) (left right : Channel μ υ) : Prop where
  created : left.created = right.created
  modes : left.modes = right.modes
  keys : left.users.keys = right.users.keys
  lookup : ∀ user, ¬stale user → left.users.lookup user = right.users.lookup user

namespace AgreeOff

variable {stale : υ → Prop} {left right : Channel μ υ}

/-- Channels that agree everywhere are equal. -/
theorem eq (agree : AgreeOff stale left right) (fresh : ∀ user, ¬stale user) : left = right := by
  have users : left.users = right.users :=
    ext_of_keys_of_lookup agree.keys fun user => agree.lookup user (fresh user)
  cases left
  cases right
  cases agree.created
  cases agree.modes
  cases users
  rfl

/-- Changing the users alike keeps the agreement. -/
theorem withUsers {stale' : υ → Prop} (agree : AgreeOff stale left right)
    {users users' : AList fun _ : υ => Finset μ} (keys : users.keys = users'.keys)
    (lookup : ∀ user, ¬stale' user → users.lookup user = users'.lookup user) :
    AgreeOff stale' { left with users } { right with users := users' } where
  created := agree.created
  modes := agree.modes
  keys := keys
  lookup := lookup

theorem mem_iff (agree : AgreeOff stale left right) (user : υ) :
    user ∈ left.users ↔ user ∈ right.users := by
  rw [AList.mem_keys, AList.mem_keys, agree.keys]

theorem insert {stale' : υ → Prop} (agree : AgreeOff stale left right) (user : υ)
    (status : Finset μ) (fewer : ∀ other, other ≠ user → stale other → stale' other) :
    AgreeOff stale' { left with users := left.users.insert user status }
      { right with users := right.users.insert user status } := by
  apply agree.withUsers
  · rw [AList.keys_insert, AList.keys_insert, agree.keys]
  · intro other fresh
    by_cases same : other = user
    · rw [same, AList.lookup_insert, AList.lookup_insert]
    · rw [AList.lookup_insert_ne same, AList.lookup_insert_ne same]
      exact agree.lookup other fun isStale => fresh (fewer other same isStale)

theorem erase (agree : AgreeOff stale left right) (user : υ) :
    AgreeOff stale { left with users := left.users.erase user }
      { right with users := right.users.erase user } := by
  apply agree.withUsers
  · rw [AList.keys_erase, AList.keys_erase, agree.keys]
  · intro other fresh
    by_cases same : other = user
    · rw [same, AList.lookup_erase, AList.lookup_erase]
    · rw [AList.lookup_erase_ne same, AList.lookup_erase_ne same]
      exact agree.lookup other fresh

theorem updateStatus (agree : AgreeOff stale left right) (user : υ)
    (update : Finset μ → Finset μ) :
    AgreeOff stale (left.updateStatus user update) (right.updateStatus user update) := by
  unfold Channel.updateStatus
  cases old : left.users.lookup user with
  | none =>
      have absent : right.users.lookup user = none := by
        rw [AList.lookup_eq_none, ← agree.mem_iff]
        exact AList.lookup_eq_none.mp old
      rw [absent]
      exact agree
  | some status =>
      have present : user ∈ right.users := by
        rw [← agree.mem_iff, ← AList.lookup_isSome, old]
        rfl
      rcases Option.isSome_iff_exists.mp (AList.lookup_isSome.mpr present) with ⟨status', old'⟩
      rw [old']
      apply agree.withUsers
      · rw [AList.keys_insert, AList.keys_insert, agree.keys]
      · intro other fresh
        by_cases same : other = user
        · subst same
          have statuses := agree.lookup other fresh
          rw [old, old', Option.some.injEq] at statuses
          rw [AList.lookup_insert, AList.lookup_insert, statuses]
        · rw [AList.lookup_insert_ne same, AList.lookup_insert_ne same]
          exact agree.lookup other fresh

theorem withModes (agree : AgreeOff stale left right) (modes : ModeList) :
    AgreeOff stale { left with modes } { right with modes } where
  created := agree.created
  modes := rfl
  keys := agree.keys
  lookup := agree.lookup

section

variable [DecidableEq μ]

theorem setModeInternal (agree : AgreeOff stale left right) (casemap : Casemap)
    (manager : ModeManager μ) (context : Context υ) (setter : Str) (cm : μ) (data : ModeData) :
    AgreeOff stale (left.setModeInternal casemap manager context setter cm data)
      (right.setModeInternal casemap manager context setter cm data) := by
  rcases unwrapped : manager.unwrap cm data.value with ⟨mode, value⟩
  cases type : (manager.mode mode).type with
  | status =>
      rw [setModeInternal_of_status unwrapped type, setModeInternal_of_status unwrapped type]
      split
      · exact agree
      · split
        · exact agree
        · exact agree.updateStatus _ _
  | list =>
      rw [setModeInternal_of_list unwrapped type, setModeInternal_of_list unwrapped type,
        agree.modes]
      split
      · exact agree
      · exact agree.withModes _
  | regular | param =>
      rw [setModeInternal_of_single unwrapped (by simp [type]) (by simp [type]),
        setModeInternal_of_single unwrapped (by simp [type]) (by simp [type]), agree.modes]
      exact agree.withModes _

theorem removeModeInternal (agree : AgreeOff stale left right) (casemap : Casemap)
    (manager : ModeManager μ) (context : Context υ) (cm : μ) (param : Str) :
    AgreeOff stale (left.removeModeInternal casemap manager context cm param)
      (right.removeModeInternal casemap manager context cm param) := by
  rcases unwrapped : manager.unwrap cm param with ⟨mode, value⟩
  cases type : (manager.mode mode).type with
  | status =>
      rw [removeModeInternal_of_status unwrapped type, removeModeInternal_of_status unwrapped type]
      split
      · exact agree
      · split
        · exact agree
        · exact agree.updateStatus _ _
  | list =>
      rw [removeModeInternal_of_list unwrapped type, removeModeInternal_of_list unwrapped type,
        agree.modes]
      exact agree.withModes _
  | regular | param =>
      rw [removeModeInternal_of_single unwrapped (by simp [type]) (by simp [type]),
        removeModeInternal_of_single unwrapped (by simp [type]) (by simp [type]), agree.modes]
      exact agree.withModes _

end

/-- Assigning a status to a member makes it fresh. -/
theorem assignStatus {stale' : υ → Prop} (agree : AgreeOff stale left right) (user : υ)
    (status : Finset μ) (fewer : ∀ other, other ≠ user → stale other → stale' other) :
    AgreeOff stale' (left.assignStatus user status) (right.assignStatus user status) := by
  apply agree.withUsers
  · rw [keys_mapValues, keys_mapValues, agree.keys]
  · intro other fresh
    rw [lookup_mapValues, lookup_mapValues]
    by_cases same : other = user
    · subst same
      simp only [if_true]
      have member := agree.mem_iff other
      rw [← AList.lookup_isSome, ← AList.lookup_isSome] at member
      cases old : left.users.lookup other <;> cases old' : right.users.lookup other <;>
        simp_all
    · rw [agree.lookup other fun isStale => fresh (fewer other same isStale)]

/-- Statuses that are not kept may be stale. -/
theorem forget {kept : υ → Bool} (agree : AgreeOff stale left right)
    (keptFresh : ∀ user, kept user = true → ¬stale user) :
    left.forget kept = right.forget kept := by
  have users : AgreeOff (fun _ => False) (left.forget kept) (right.forget kept) :=
    { created := agree.created
      modes := rfl
      keys := by
        simp only [Channel.forget, keys_mapValues]
        exact agree.keys
      lookup := fun user _ => by
        simp only [Channel.forget, lookup_mapValues]
        cases isKept : kept user with
        | true => rw [agree.lookup user (keptFresh user isKept)]
        | false =>
            have member := agree.mem_iff user
            rw [← AList.lookup_isSome, ← AList.lookup_isSome] at member
            cases old : left.users.lookup user <;> cases old' : right.users.lookup user <;>
              simp_all }
  exact users.eq fun _ stale => stale

end AgreeOff

/-! ## Two runs of `Reset` -/

/-- Two states of a channel that differ at most in stale statuses. -/
structure Registered.AgreeOff (stale : υ → Prop) (left right : Registered μ υ) : Prop where
  syncing : left.syncing = right.syncing
  channel : Channel.AgreeOff stale left.channel right.channel

namespace Registered.AgreeOff

variable {stale : υ → Prop} {left right : Registered μ υ}

theorem eq (agree : left.AgreeOff stale right) (fresh : ∀ user, ¬stale user) : left = right := by
  cases left
  cases right
  cases agree.syncing
  cases agree.channel.eq fresh
  rfl

variable [DecidableEq μ] {protocol : Protocol μ} {receipt : Receipt μ υ}

omit [DecidableEq μ] in
theorem afterRemove (agree : left.AgreeOff stale right) (vetoDelete : Bool) (cm : μ)
    (param : Str) :
    Option.Rel (Registered.AgreeOff stale)
      (Channel.afterRemove protocol vetoDelete cm param left)
      (Channel.afterRemove protocol vetoDelete cm param right) := by
  have sameCheck : left.checkDelete protocol.casemap vetoDelete =
      right.checkDelete protocol.casemap vetoDelete := by
    rw [checkDelete, checkDelete, agree.syncing, agree.channel.modes, agree.channel.keys]
  unfold Channel.afterRemove
  rw [sameCheck]
  dsimp only
  split
  · exact .none
  · exact .some agree

/-- A call of a handler treats both channels alike. -/
theorem apply (agree : left.AgreeOff stale right)
    (ownFresh : ∀ user, receipt.own user = true → ¬stale user) (effect : Effect μ υ) :
    Option.Rel (Registered.AgreeOff stale) (effect.apply protocol receipt left)
      (effect.apply protocol receipt right) := by
  cases effect with
  | set cm data =>
      exact .some ⟨agree.syncing, agree.channel.setModeInternal _ _ _ _ _ _⟩
  | remove cm param vetoDelete =>
      apply afterRemove
      exact ⟨agree.syncing, agree.channel.removeModeInternal _ _ _ _ _⟩
  | join user status =>
      simp only [Effect.apply, agree.channel.keys]
      split
      · exact .some agree
      · exact .some ⟨agree.syncing, agree.channel.insert user status fun _ _ isStale => isStale⟩
  | leave user =>
      exact .some ⟨agree.syncing, agree.channel.erase user⟩
  | lowerTs registered =>
      simp only [Effect.apply, agree.channel.created, agree.channel.forget ownFresh]
      split
      · exact .some ⟨agree.syncing, ⟨rfl, rfl, rfl, fun _ _ => rfl⟩⟩
      · exact .some agree

theorem fire (agree : left.AgreeOff stale right)
    (ownFresh : ∀ user, receipt.own user = true → ¬stale user) (event : Event υ) :
    Option.Rel (Registered.AgreeOff stale) (Channel.fire protocol receipt event left)
      (Channel.fire protocol receipt event right) := by
  unfold Channel.fire
  refine foldlM_rel (fun _ => Registered.AgreeOff stale) ?_ agree
  exact fun still => still.apply ownFresh _

end Registered.AgreeOff

section Reset

variable [DecidableEq μ] {protocol : Protocol μ} {receipt : Receipt μ υ}

/-- The foreign members that the loop of `Reset` has not passed. -/
def Unpassed (receipt : Receipt μ υ) (users : List υ) (user : υ) : Prop :=
  user ∈ users ∧ receipt.own user = false

omit [LinearOrder υ] [DecidableEq μ] in
theorem not_unpassed_of_own {users : List υ} (user : υ) (own : receipt.own user = true) :
    ¬Unpassed receipt users user := by
  rintro ⟨_, foreign⟩
  rw [own] at foreign
  cases foreign

omit [LinearOrder υ] [DecidableEq μ] in
theorem Unpassed.tail {user other : υ} {users : List υ} (different : other ≠ user)
    (unpassed : Unpassed receipt (user :: users) other) : Unpassed receipt users other :=
  ⟨(List.mem_cons.mp unpassed.1).resolve_left different, unpassed.2⟩

/-- After the pass for a member nothing is left of a foreign member's old
status, and an own client has its own. -/
theorem resetStatus_rel {user : υ} {users : List υ} {left right : Registered μ υ}
    (agree : left.AgreeOff (Unpassed receipt (user :: users)) right) :
    Option.Rel (Registered.AgreeOff (Unpassed receipt users))
      (resetStatus protocol receipt left user) (resetStatus protocol receipt right user) := by
  have cleared : (Registered.AgreeOff (Unpassed receipt users))
      { left with channel := left.channel.assignStatus user ∅ }
      { right with channel := right.channel.assignStatus user ∅ } :=
    ⟨agree.syncing, agree.channel.assignStatus user ∅ fun _ different => .tail different⟩
  have member := agree.channel.mem_iff user
  rw [← AList.lookup_isSome, ← AList.lookup_isSome] at member
  unfold resetStatus
  cases old : left.channel.users.lookup user with
  | none =>
      cases old' : right.channel.users.lookup user with
      | some _ => simp [old, old'] at member
      | none =>
          refine .some ⟨agree.syncing, agree.channel.withUsers agree.channel.keys ?_⟩
          intro other passed
          by_cases same : other = user
          · rw [same, old, old']
          · exact agree.channel.lookup other fun unpassed => passed (unpassed.tail same)
  | some status =>
      cases old' : right.channel.users.lookup user with
      | none => simp [old, old'] at member
      | some status' =>
          dsimp only
          split
          next own =>
            have statuses := agree.channel.lookup user (not_unpassed_of_own user own)
            rw [old, old', Option.some.injEq] at statuses
            subst statuses
            refine rel_bind (cleared.fire not_unpassed_of_own _) fun restored => .some ?_
            exact ⟨restored.syncing,
              restored.channel.assignStatus user status fun _ _ unpassed => unpassed⟩
          next => exact .some cleared

/-- `Reset` does not see the modes and the foreign statuses. -/
theorem reset_forget (state : Registered μ υ) :
    reset protocol receipt { state with channel := state.channel.forget receipt.own } =
      reset protocol receipt state := by
  have keys : (state.channel.forget receipt.own).users.keys = state.channel.users.keys :=
    keys_mapValues _ _
  have initially : (Registered.AgreeOff (Unpassed receipt state.channel.members))
      { state with channel := { state.channel.forget receipt.own with modes := .empty } }
      { state with channel := { state.channel with modes := .empty } } := by
    refine ⟨rfl, rfl, rfl, keys, fun user fresh => ?_⟩
    simp only [forget, lookup_mapValues]
    cases old : state.channel.users.lookup user with
    | none => rfl
    | some status =>
        have member : user ∈ state.channel.members := by
          rw [members, List.mem_insertionSort, ← AList.mem_keys, ← AList.lookup_isSome, old]
          rfl
        cases own : receipt.own user with
        | false => exact absurd ⟨member, own⟩ fresh
        | true => simp
  have passed : Option.Rel (Registered.AgreeOff (Unpassed receipt []))
      (state.channel.members.foldlM (resetStatus protocol receipt) _)
      (state.channel.members.foldlM (resetStatus protocol receipt) _) :=
    foldlM_rel (fun users => Registered.AgreeOff (Unpassed receipt users)) resetStatus_rel initially
  have same := eq_of_rel (fun agree => agree.eq fun _ unpassed => by simp [Unpassed] at unpassed)
    passed
  unfold reset
  dsimp only [members] at same ⊢
  rw [keys, same]

end Reset

end Anope.Channel
