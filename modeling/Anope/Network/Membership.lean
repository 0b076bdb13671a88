import Anope.Library.Loop
import Anope.Library.Run
import Anope.Network.Spec

/-!
# Membership is symmetric

A channel and a user refer to the same membership, and it refers back to both.
Only joining and leaving change what the two tables hold: a user is released
when its own table is empty, and a channel is destroyed when it has no users.
-/

namespace Anope.Network

open Library.Loop Library.Run Library.Table Anope.Text

variable {υ γ ε μ : Type}

namespace State

variable [DecidableEq υ] [DecidableEq γ]

/-- The membership to which `Channel::users` maps a user. -/
def memberOf (state : State υ γ ε) (chan : γ) (user : υ) : Option ε :=
  (state.chans.lookup chan).bind fun record => record.users.lookup user

/-- The membership to which `User::chans` maps a channel. -/
def chanOf (state : State υ γ ε) (user : υ) (chan : γ) : Option ε :=
  (state.users.lookup user).bind fun record => record.chans.lookup chan

/-- The users that a channel holds, and the channels that a user holds, are the
same. -/
structure Symmetric [DecidableEq ε] (state : State υ γ ε) : Prop where
  same : ∀ user chan memb,
    state.memberOf chan user = some memb ↔ state.chanOf user chan = some memb
  refersBack : ∀ user chan memb, state.memberOf chan user = some memb →
    state.memberships.lookup memb = some ⟨user, chan⟩

/-- The two tables and the memberships are as before. -/
structure SameMembers (state next : State υ γ ε) : Prop where
  memberOf : next.memberOf = state.memberOf
  chanOf : next.chanOf = state.chanOf
  memberships : next.memberships = state.memberships

namespace SameMembers

variable {state between next : State υ γ ε}

theorem refl (state : State υ γ ε) : SameMembers state state := ⟨rfl, rfl, rfl⟩

theorem trans (first : SameMembers state between) (second : SameMembers between next) :
    SameMembers state next where
  memberOf := second.memberOf.trans first.memberOf
  chanOf := second.chanOf.trans first.chanOf
  memberships := second.memberships.trans first.memberships

theorem symmetric [DecidableEq ε] (kept : SameMembers state next)
    (symmetric : state.Symmetric) : next.Symmetric where
  same user chan memb := by
    rw [kept.memberOf, kept.chanOf]
    exact symmetric.same user chan memb
  refersBack user chan memb := by
    rw [kept.memberOf, kept.memberships]
    exact symmetric.refersBack user chan memb

end SameMembers

/-- A change of users that keeps what they hold. -/
theorem sameMembers_of_users {state next : State υ γ ε} (chans : next.chans = state.chans)
    (memberships : next.memberships = state.memberships)
    (held : ∀ user chan, (next.users.lookup user).bind (fun record => record.chans.lookup chan) =
      (state.users.lookup user).bind fun record => record.chans.lookup chan) :
    SameMembers state next where
  memberOf := by
    funext chan user
    rw [memberOf, memberOf, chans]
  chanOf := funext fun user => funext fun chan => held user chan
  memberships := memberships

/-- A change of channels that keeps whom they hold. -/
theorem sameMembers_of_chans {state next : State υ γ ε} (users : next.users = state.users)
    (memberships : next.memberships = state.memberships)
    (held : ∀ chan user, (next.chans.lookup chan).bind (fun record => record.users.lookup user) =
      (state.chans.lookup chan).bind fun record => record.users.lookup user) :
    SameMembers state next where
  memberOf := funext fun chan => funext fun user => held chan user
  chanOf := by
    funext user chan
    rw [chanOf, chanOf, users]
  memberships := memberships

theorem sameMembers_of_modify_users {state next : State υ γ ε} {user : υ}
    {change : User γ ε → User γ ε} (users : next.users = modify user change state.users)
    (chans : next.chans = state.chans) (memberships : next.memberships = state.memberships)
    (kept : ∀ record, (change record).chans = record.chans) : SameMembers state next :=
  sameMembers_of_users chans memberships fun _ _ => by
    rw [users]
    exact bind_lookup_modify (fun record => by rw [kept]) _

theorem sameMembers_of_modify_chans {state next : State υ γ ε} {chan : γ}
    {change : Chan υ ε → Chan υ ε} (chans : next.chans = modify chan change state.chans)
    (users : next.users = state.users) (memberships : next.memberships = state.memberships)
    (kept : ∀ record, (change record).users = record.users) : SameMembers state next :=
  sameMembers_of_chans users memberships fun _ _ => by
    rw [chans]
    exact bind_lookup_modify (fun record => by rw [kept]) _

/-! ## Steps that keep the tables -/

section Frame

variable {casemap : Casemap} {config : Config μ} {state next : State υ γ ε} {user : υ} {chan : γ}

theorem construct_sameMembers {snick : Str} {own bot : Bool}
    (ran : state.construct user snick own bot = some next) : SameMembers state next := by
  rcases construct_eq_some ran with ⟨fresh, _, rfl⟩
  exact sameMembers_of_users rfl rfl fun _ _ => bind_lookup_insert fresh rfl _

theorem register_sameMembers (ran : state.register casemap user = some next) :
    SameMembers state next := by
  rcases register_eq_some ran with ⟨_, _, _, rfl⟩
  exact sameMembers_of_modify_users rfl rfl rfl fun _ => rfl

theorem quitUser_sameMembers (ran : state.quitUser user = some next) :
    SameMembers state next := by
  rcases quitUser_eq_some ran with ⟨_, _, ⟨_, rfl⟩ | ⟨_, rfl⟩⟩
  · exact .refl _
  · exact sameMembers_of_modify_users rfl rfl rfl fun _ => rfl

theorem collideKill_sameMembers {svsKillQuits : Bool}
    (ran : state.collideKill svsKillQuits user = some next) : SameMembers state next := by
  rcases collideKill_eq_some ran with ⟨_, _, ⟨_, rfl⟩ | ⟨_, quits⟩⟩
  · exact .refl _
  · exact quitUser_sameMembers quits

theorem changeNick_sameMembers {newnick : Str}
    (ran : state.changeNick config user newnick = some next) : SameMembers state next := by
  rcases changeNick_eq_some ran with
    ⟨_, _, _, ⟨_, rfl⟩ | ⟨_, _, rfl⟩ | ⟨_, _, _, _, first, second⟩⟩
  · exact sameMembers_of_modify_users rfl rfl rfl fun _ => rfl
  · exact sameMembers_of_modify_users rfl rfl rfl fun _ => rfl
  · have killed := (collideKill_sameMembers first).trans (collideKill_sameMembers second)
    refine SameMembers.trans ?_ killed
    exact sameMembers_of_modify_users rfl rfl rfl fun _ => rfl

theorem setUserModeInternal_sameMembers {mname : Str} {data : ModeData}
    (ran : state.setUserModeInternal user mname data = some next) : SameMembers state next := by
  rcases setUserModeInternal_eq_some ran with ⟨_, _, _, rfl⟩
  exact sameMembers_of_modify_users rfl rfl rfl fun _ => rfl

theorem removeUserModeInternal_sameMembers {mname : Str}
    (ran : state.removeUserModeInternal user mname = some next) : SameMembers state next := by
  rcases removeUserModeInternal_eq_some ran with ⟨_, _, _, rfl⟩
  exact sameMembers_of_modify_users rfl rfl rfl fun _ => rfl

theorem logoff_sameMembers (ran : state.logoff user = some next) : SameMembers state next := by
  rcases logoff_eq_some ran with ⟨_, _, _, rfl⟩
  exact sameMembers_of_modify_users rfl rfl rfl fun _ => rfl

/-- A user who is released holds no channel. -/
theorem release_sameMembers (ran : state.release casemap user = some next) :
    SameMembers state next := by
  rcases release_eq_some ran with ⟨record, found, _, empty, rfl⟩
  refine sameMembers_of_users rfl rfl fun _ chan => bind_lookup_erase ?_ _
  rw [found, Option.bind_some, AList.lookup_eq_none, AList.mem_keys, empty]
  exact List.not_mem_nil

theorem createChannel_sameMembers {name : Str}
    (ran : state.createChannel casemap chan name = some next) : SameMembers state next := by
  rcases createChannel_eq_some ran with ⟨fresh, _, rfl⟩
  exact sameMembers_of_chans rfl rfl fun _ _ => bind_lookup_insert fresh rfl _

/-- A channel that may be deleted holds no user. -/
theorem destroyChannel_sameMembers {vetoDelete : Bool} {record : Chan υ ε}
    (found : state.chans.lookup chan = some record)
    (deletable : record.checkDelete casemap vetoDelete = true) :
    SameMembers state (state.destroyChannel casemap chan) := by
  rw [destroyChannel_of_lookup found]
  refine sameMembers_of_chans rfl rfl fun _ user => bind_lookup_erase ?_ _
  have empty : record.users.keys = [] := by
    simp only [Chan.checkDelete, Bool.and_eq_true, List.isEmpty_iff] at deletable
    exact deletable.2
  rw [found, Option.bind_some, AList.lookup_eq_none, AList.mem_keys, empty]
  exact List.not_mem_nil

theorem lostPerm_sameMembers {vetoDelete : Bool}
    (ran : state.lostPerm casemap chan vetoDelete = some next) : SameMembers state next := by
  rcases lostPerm_eq_some ran with ⟨outer, record, _, found, ⟨_, rfl⟩ | ⟨deletable, rfl⟩⟩
  · exact ⟨rfl, rfl, rfl⟩
  · have returned : SameMembers state { state with unsetting := outer } := ⟨rfl, rfl, rfl⟩
    exact returned.trans (destroyChannel_sameMembers found deletable)

theorem sweep_sameMembers {vetoDelete : γ → Bool}
    (ran : sweep casemap vetoDelete state chan = some next) : SameMembers state next := by
  rcases sweep_eq_some ran with ⟨_, found, ⟨_, rfl⟩ | ⟨deletable, rfl⟩⟩
  · exact .refl _
  · exact destroyChannel_sameMembers found deletable

theorem deleteChannels_sameMembers {vetoDelete : γ → Bool}
    (ran : state.deleteChannels casemap vetoDelete = some next) : SameMembers state next := by
  rcases deleteChannels_eq_some ran with ⟨swept, sweeping, rfl⟩
  have sweeps : SameMembers state swept := by
    refine foldlM_preorder SameMembers .refl .trans ?_ sweeping
    exact fun _ ran => sweep_sameMembers ran
  exact ⟨sweeps.memberOf, sweeps.chanOf, sweeps.memberships⟩

theorem queueForDeletion_sameMembers (state : State υ γ ε) (chan : γ) :
    SameMembers state (state.queueForDeletion chan) := by
  unfold queueForDeletion
  split <;> exact ⟨rfl, rfl, rfl⟩

end Frame

/-! ## Joining and leaving -/

section Tables

variable [DecidableEq ε] {state next : State υ γ ε} {user : υ} {chan : γ}

theorem memberOf_joinUser {memb : ε} (ran : state.joinUser chan user memb = some next)
    (other : γ) (someone : υ) :
    next.memberOf other someone =
      if other = chan ∧ someone = user then some memb else state.memberOf other someone := by
  rcases joinUser_eq_some ran with ⟨live, _, _, rfl⟩
  exact bind_lookup_modify_insert Chan.users live (fun _ => rfl) other someone

theorem chanOf_joinUser {memb : ε} (ran : state.joinUser chan user memb = some next)
    (someone : υ) (other : γ) :
    next.chanOf someone other =
      if other = chan ∧ someone = user then some memb else state.chanOf someone other := by
  rcases joinUser_eq_some ran with ⟨_, live, _, rfl⟩
  simp only [and_comm]
  exact bind_lookup_modify_insert User.chans live (fun _ => rfl) someone other

/-- Both tables get the same new membership. -/
theorem joinUser_symmetric {memb : ε} (symmetric : state.Symmetric)
    (ran : state.joinUser chan user memb = some next) : next.Symmetric where
  same someone other found := by
    rw [memberOf_joinUser ran, chanOf_joinUser ran]
    split
    · exact Iff.rfl
    · exact symmetric.same someone other found
  refersBack someone other found member := by
    rw [memberOf_joinUser ran] at member
    rcases joinUser_eq_some ran with ⟨_, _, fresh, rfl⟩
    split at member
    next joined =>
      cases member
      rw [joined.1, joined.2]
      exact AList.lookup_insert _
    next =>
      have old := symmetric.refersBack someone other found member
      have different : found ≠ memb := by
        rintro rfl
        rw [AList.lookup_eq_none.mpr fresh] at old
        cases old
      rw [← old]
      exact AList.lookup_insert_ne different

theorem memberOf_deleteUser (ran : state.deleteUser chan user = some next) (other : γ)
    (someone : υ) :
    next.memberOf other someone =
      if other = chan ∧ someone = user then none else state.memberOf other someone := by
  rcases deleteUser_eq_some ran with ⟨_, _, _, rfl⟩
  rw [(queueForDeletion_sameMembers _ _).memberOf]
  exact bind_lookup_modify_erase Chan.users (fun _ => rfl) other someone

theorem chanOf_deleteUser (ran : state.deleteUser chan user = some next) (someone : υ)
    (other : γ) :
    next.chanOf someone other =
      if other = chan ∧ someone = user then none else state.chanOf someone other := by
  rcases deleteUser_eq_some ran with ⟨_, _, _, rfl⟩
  rw [(queueForDeletion_sameMembers _ _).chanOf]
  simp only [and_comm]
  exact bind_lookup_modify_erase User.chans (fun _ => rfl) someone other

/-- Both tables lose the same membership, and no other entry refers to it. -/
theorem deleteUser_symmetric (symmetric : state.Symmetric)
    (ran : state.deleteUser chan user = some next) : next.Symmetric where
  same someone other found := by
    rw [memberOf_deleteUser ran, chanOf_deleteUser ran]
    split
    · exact Iff.rfl
    · exact symmetric.same someone other found
  refersBack someone other found member := by
    rw [memberOf_deleteUser ran] at member
    rcases deleteUser_eq_some ran with ⟨record, live, _, rfl⟩
    split at member
    · cases member
    next different =>
      have old := symmetric.refersBack someone other found member
      rw [(queueForDeletion_sameMembers _ _).memberships]
      cases gone : record.chans.lookup chan with
      | none => exact old
      | some memb =>
          have held : state.chanOf user chan = some memb := by
            rw [chanOf, live, Option.bind_some, gone]
          have deleted := symmetric.refersBack user chan memb ((symmetric.same _ _ _).mpr held)
          have another : found ≠ memb := by
            rintro rfl
            rw [old] at deleted
            cases deleted
            exact different ⟨rfl, rfl⟩
          rw [← old]
          exact AList.lookup_erase_ne another

end Tables

end State

/-! ## Runs -/

variable [DecidableEq υ] [DecidableEq γ] [DecidableEq ε] [DecidableEq μ]

theorem symmetric_initial : (State.initial : State υ γ ε).Symmetric where
  same _ _ _ := by
    rw [State.memberOf, State.chanOf]
    exact Iff.rfl
  refersBack _ _ _ member := by
    rw [State.memberOf] at member
    cases member

/-- Every step keeps the tables symmetric. -/
theorem step_symmetric {config : Config μ} {state next : State υ γ ε}
    {action : Action υ γ ε μ} (symmetric : state.Symmetric)
    (stepped : step config state action = some next) : next.Symmetric := by
  cases action with
  | construct => exact (State.construct_sameMembers stepped).symmetric symmetric
  | register => exact (State.register_sameMembers stepped).symmetric symmetric
  | changeNick => exact (State.changeNick_sameMembers stepped).symmetric symmetric
  | setUserModeInternal =>
      exact (State.setUserModeInternal_sameMembers stepped).symmetric symmetric
  | removeUserModeInternal =>
      exact (State.removeUserModeInternal_sameMembers stepped).symmetric symmetric
  | setUserMode =>
      rcases State.setUserMode_eq_some stepped with ⟨_, _, ⟨_, rfl⟩ | ⟨_, sets⟩⟩
      · exact symmetric
      · exact (State.setUserModeInternal_sameMembers sets).symmetric symmetric
  | removeUserMode =>
      rcases State.removeUserMode_eq_some stepped with ⟨_, _, ⟨_, rfl⟩ | ⟨_, removes⟩⟩
      · exact symmetric
      · exact (State.removeUserModeInternal_sameMembers removes).symmetric symmetric
  | quit => exact (State.quitUser_sameMembers stepped).symmetric symmetric
  | logoff => exact (State.logoff_sameMembers stepped).symmetric symmetric
  | release => exact (State.release_sameMembers stepped).symmetric symmetric
  | clearQuitting =>
      cases stepped
      exact ⟨symmetric.same, symmetric.refersBack⟩
  | createChannel => exact (State.createChannel_sameMembers stepped).symmetric symmetric
  | setSyncing chan syncing =>
      rcases State.setSyncing_eq_some stepped with ⟨_, rfl⟩
      refine State.SameMembers.symmetric ?_ symmetric
      exact State.sameMembers_of_modify_chans rfl rfl rfl fun _ => rfl
  | joinUser => exact State.joinUser_symmetric symmetric stepped
  | deleteUser => exact State.deleteUser_symmetric symmetric stepped
  | checkAndQueue chan vetoDelete =>
      rcases State.checkAndQueue_eq_some stepped with ⟨_, _, rfl | rfl⟩
      · exact symmetric
      · exact (State.queueForDeletion_sameMembers state chan).symmetric symmetric
  | setChannelModeInternal context setter chan cm data =>
      rcases State.setChannelModeInternal_eq_some stepped with ⟨_, _, rfl⟩
      refine State.SameMembers.symmetric ?_ symmetric
      exact State.sameMembers_of_modify_chans rfl rfl rfl fun _ => rfl
  | removeChannelModeInternal context chan cm param =>
      rcases State.removeChannelModeInternal_eq_some stepped with ⟨_, _, _, rfl⟩
      refine State.SameMembers.symmetric ?_ symmetric
      exact State.sameMembers_of_modify_chans rfl rfl rfl fun _ => rfl
  | lostPerm => exact (State.lostPerm_sameMembers stepped).symmetric symmetric
  | deleteChannels => exact (State.deleteChannels_sameMembers stepped).symmetric symmetric

/-- Membership is symmetric in every state that the program reaches. -/
theorem always_symmetric (config : Config μ) (actions : List (Action υ γ ε μ)) :
    Always (step config) State.Symmetric State.initial actions :=
  always_of_step (fun symmetric stepped => step_symmetric symmetric stepped) symmetric_initial
    actions

end Anope.Network
