import Anope.Library.Loop
import Anope.Network.Step

/-!
# What the steps do

One inversion lemma for each function: when it has a result, what it needed and
what it changed.
-/

namespace Anope.Network.State

open Library.Table Anope.Text

variable {υ γ ε μ : Type}

section Users

variable [DecidableEq υ] {casemap : Casemap} {config : Config μ} {state next : State υ γ ε}
  {user : υ} {mname : Str} {data : ModeData}

theorem construct_eq_some {snick : Str} {own bot : Bool}
    (ran : state.construct user snick own bot = some next) :
    user ∉ state.users ∧ state.users.keys.length + 1 < UInt64.size ∧
      next = { state with
        users := state.users.insert user ⟨snick, own, bot, false, .constructing, ∅, ∅⟩ } := by
  unfold construct at ran
  grind

theorem register_eq_some (ran : state.register casemap user = some next) :
    ∃ record, state.users.lookup user = some record ∧ record.phase = .constructing ∧
      next = { state.updateUser user fun record => { record with phase := .live } with
        userListByNick := state.userListByNick.insert (casemap.ciStr record.nick) user } := by
  unfold register at ran
  grind

theorem quitUser_eq_some (ran : state.quitUser user = some next) :
    ∃ record, state.users.lookup user = some record ∧
      ((record.quit = true ∧ next = state) ∨
        (record.quit = false ∧
          next = { state.updateUser user fun record => { record with quit := true } with
            quittingUsers := state.quittingUsers ++ [user] })) := by
  unfold quitUser at ran
  grind

theorem collideKill_eq_some {svsKillQuits : Bool}
    (ran : state.collideKill svsKillQuits user = some next) :
    ∃ record, state.users.lookup user = some record ∧
      ((record.killQuits svsKillQuits = false ∧ next = state) ∨
        (record.killQuits svsKillQuits = true ∧ state.quitUser user = some next)) := by
  unfold collideKill at ran
  unfold User.killQuits
  grind

theorem changeNick_eq_some {newnick : Str}
    (ran : state.changeNick config user newnick = some next) :
    ∃ record, state.users.lookup user = some record ∧ record.phase = .live ∧
      ((config.casemap.ciStr record.nick = config.casemap.ciStr newnick ∧
        next = state.updateUser user fun record => { record with nick := newnick }) ∨
      (config.casemap.ciStr record.nick ≠ config.casemap.ciStr newnick ∧
        (state.userListByNick.erase (config.casemap.ciStr record.nick)).lookup
          (config.casemap.ciStr newnick) = none ∧
        next = { state.updateUser user fun record => { record with nick := newnick } with
          userListByNick := (state.userListByNick.erase (config.casemap.ciStr record.nick)).insert
            (config.casemap.ciStr newnick) user }) ∨
      (config.casemap.ciStr record.nick ≠ config.casemap.ciStr newnick ∧
        ∃ other killed,
          (state.userListByNick.erase (config.casemap.ciStr record.nick)).lookup
            (config.casemap.ciStr newnick) = some other ∧
          collideKill config.svsKillQuits
            { state.updateUser user fun record => { record with nick := newnick } with
              userListByNick := state.userListByNick.erase (config.casemap.ciStr record.nick) }
            user = some killed ∧
          killed.collideKill config.svsKillQuits other = some next)) := by
  unfold changeNick at ran
  cases found : state.users.lookup user with
  | none => simp [found] at ran
  | some record =>
      simp only [found] at ran
      refine ⟨record, rfl, ?_⟩
      split at ran
      · cases ran
      next usable =>
        simp only [ne_eq, not_or, not_not] at usable
        refine ⟨usable.1, ?_⟩
        split at ran
        next same =>
          cases ran
          exact .inl ⟨(Casemap.equalsCi_iff _ _ _).mp same, rfl⟩
        next different =>
          rw [Casemap.equalsCi_iff] at different
          split at ran
          next other held =>
            rw [Option.bind_eq_bind, Option.bind_eq_some_iff] at ran
            rcases ran with ⟨killed, first, second⟩
            exact .inr (.inr ⟨different, other, killed, held, first, second⟩)
          next free =>
            cases ran
            exact .inr (.inl ⟨different, free, rfl⟩)

theorem setUserModeInternal_eq_some
    (ran : state.setUserModeInternal user mname data = some next) :
    ∃ record, state.users.lookup user = some record ∧ record.phase ≠ .dying ∧
      next = { state.updateUser user fun record =>
          { record with modes := record.modes.insert mname data } with
        operCount := if mname = ascii "OPER" then state.operCount + 1 else state.operCount } := by
  unfold setUserModeInternal at ran
  grind

theorem removeUserModeInternal_eq_some
    (ran : state.removeUserModeInternal user mname = some next) :
    ∃ record, state.users.lookup user = some record ∧ record.phase ≠ .dying ∧
      next = { state.updateUser user fun record =>
          { record with modes := record.modes.erase mname } with
        operCount := if mname = ascii "OPER" then state.operCount - 1 else state.operCount } := by
  unfold removeUserModeInternal at ran
  grind

theorem setUserMode_eq_some (ran : state.setUserMode user mname data = some next) :
    ∃ record, state.users.lookup user = some record ∧
      ((record.hasMode mname = true ∧ next = state) ∨
        (record.hasMode mname = false ∧
          state.setUserModeInternal user mname data = some next)) := by
  unfold setUserMode at ran
  grind

theorem removeUserMode_eq_some (ran : state.removeUserMode user mname = some next) :
    ∃ record, state.users.lookup user = some record ∧
      ((record.hasMode mname = false ∧ next = state) ∨
        (record.hasMode mname = true ∧ state.removeUserModeInternal user mname = some next)) := by
  unfold removeUserMode at ran
  grind

theorem logoff_eq_some (ran : state.logoff user = some next) :
    ∃ record, state.users.lookup user = some record ∧ record.phase = .live ∧
      next = { state.updateUser user fun record => { record with phase := .dying } with
        operCount := if record.isOper then state.operCount - 1 else state.operCount } := by
  unfold logoff at ran
  grind

theorem release_eq_some (ran : state.release casemap user = some next) :
    ∃ record, state.users.lookup user = some record ∧ record.phase = .dying ∧
      record.chans.keys = [] ∧
      next = { state with
        users := state.users.erase user
        userListByNick := state.userListByNick.erase (casemap.ciStr record.nick) } := by
  unfold release at ran
  grind

end Users

section Channels

variable [DecidableEq γ] {casemap : Casemap} {config : Config μ} {state next : State υ γ ε}
  {chan : γ}

theorem createChannel_eq_some {name : Str}
    (ran : state.createChannel casemap chan name = some next) :
    chan ∉ state.chans ∧ casemap.ciStr name ∉ state.channelList ∧
      next = { state with
        chans := state.chans.insert chan ⟨name, false, .empty, ∅⟩
        channelList := state.channelList.insert (casemap.ciStr name) chan } := by
  unfold createChannel at ran
  grind

theorem destroyChannel_of_lookup {record : Chan υ ε}
    (found : state.chans.lookup chan = some record) :
    state.destroyChannel casemap chan = { state with
      chans := state.chans.erase chan
      channelList := state.channelList.erase (casemap.ciStr record.name) } := by
  unfold destroyChannel
  rw [found]

theorem checkAndQueue_eq_some {vetoDelete : Bool}
    (ran : state.checkAndQueue casemap chan vetoDelete = some next) :
    ∃ record, state.chans.lookup chan = some record ∧
      (next = state ∨ next = state.queueForDeletion chan) := by
  unfold checkAndQueue at ran
  grind

theorem setSyncing_eq_some {syncing : Bool} (ran : state.setSyncing chan syncing = some next) :
    chan ∈ state.chans ∧ next = state.updateChan chan fun record => { record with syncing } := by
  unfold setSyncing at ran
  grind

theorem lostPerm_eq_some {vetoDelete : Bool}
    (ran : state.lostPerm casemap chan vetoDelete = some next) :
    ∃ outer record, state.unsetting = chan :: outer ∧ state.chans.lookup chan = some record ∧
      ((record.checkDelete casemap vetoDelete = false ∧
          next = { state with unsetting := outer }) ∨
        (record.checkDelete casemap vetoDelete = true ∧
          next = destroyChannel casemap { state with unsetting := outer } chan)) := by
  unfold lostPerm at ran
  grind

theorem sweep_eq_some {vetoDelete : γ → Bool}
    (ran : sweep casemap vetoDelete state chan = some next) :
    ∃ record, state.chans.lookup chan = some record ∧
      ((record.checkDelete casemap (vetoDelete chan) = false ∧ next = state) ∨
        (record.checkDelete casemap (vetoDelete chan) = true ∧
          next = state.destroyChannel casemap chan)) := by
  unfold sweep at ran
  grind

theorem deleteChannels_eq_some {vetoDelete : γ → Bool}
    (ran : state.deleteChannels casemap vetoDelete = some next) :
    ∃ swept, state.deleting.foldlM (sweep casemap vetoDelete) state = some swept ∧
      next = { swept with deleting := [] } := by
  unfold deleteChannels at ran
  rw [Option.map_eq_some_iff] at ran
  rcases ran with ⟨swept, sweeping, rfl⟩
  exact ⟨swept, sweeping, rfl⟩

variable [DecidableEq υ]

theorem setChannelModeInternal_eq_some [DecidableEq μ] {context : Context υ} {setter : Str} {cm : μ}
    {data : ModeData}
    (ran : state.setChannelModeInternal config context setter chan cm data = some next) :
    chan ∈ state.chans ∧ ∃ modes : Chan υ ε → ModeList,
      next = state.updateChan chan fun record => { record with modes := modes record } := by
  unfold setChannelModeInternal at ran
  split at ran
  next mem => exact ⟨mem, _, (Option.some.inj ran).symm⟩
  next => cases ran

theorem removeChannelModeInternal_eq_some [DecidableEq μ] {context : Context υ} {cm : μ}
    {param : Str}
    (ran : state.removeChannelModeInternal config context chan cm param = some next) :
    chan ∈ state.chans ∧ ∃ (modes : Chan υ ε → ModeList) (unsetting : List γ),
      next = { state.updateChan chan fun record => { record with modes := modes record } with
        unsetting } := by
  unfold removeChannelModeInternal at ran
  split at ran
  next mem => exact ⟨mem, _, _, (Option.some.inj ran).symm⟩
  next => cases ran

theorem joinUser_eq_some [DecidableEq ε] {user : υ} {memb : ε}
    (ran : state.joinUser chan user memb = some next) :
    chan ∈ state.chans ∧ user ∈ state.users ∧ memb ∉ state.memberships ∧
      next = { state with
        memberships := state.memberships.insert memb ⟨user, chan⟩
        users := modify user
          (fun record => { record with chans := record.chans.insert chan memb }) state.users
        chans := modify chan
          (fun record => { record with users := record.users.insert user memb }) state.chans } := by
  unfold joinUser at ran
  grind

theorem deleteUser_eq_some [DecidableEq ε] {user : υ}
    (ran : state.deleteUser chan user = some next) :
    ∃ record, state.users.lookup user = some record ∧ chan ∈ state.chans ∧
      next = queueForDeletion { state with
        memberships :=
          match record.chans.lookup chan with
          | none => state.memberships
          | some memb => state.memberships.erase memb
        users := modify user
          (fun record => { record with chans := record.chans.erase chan }) state.users
        chans := modify chan
          (fun record => { record with users := record.users.erase user }) state.chans } chan := by
  unfold deleteUser at ran
  split at ran
  · cases ran
  next record found =>
    split at ran
    · cases ran
    next mem => exact ⟨record, found, not_not.mp mem, (Option.some.inj ran).symm⟩

end Channels

end Anope.Network.State

/-!
## Steps on channels

What a step on channels leaves alone: the users apart from the channels that
they are in, their names in the nick table, and the number of opers.
-/

namespace Anope.Network

open Library.Loop Library.Table Anope.Text

variable {υ γ ε μ : Type}

/-- A user as it would be in no channel. -/
def User.alone (user : User γ ε) : User γ ε :=
  { user with chans := ∅ }

/-- Users are as before, apart from the channels that they are in. -/
structure SameUsers (state next : State υ γ ε) : Prop where
  operCount : next.operCount = state.operCount
  userListByNick : next.userListByNick = state.userListByNick
  users : mapValues (fun _ => User.alone) next.users = mapValues (fun _ => User.alone) state.users

namespace SameUsers

variable {state between next : State υ γ ε}

theorem of_eq (operCount : next.operCount = state.operCount)
    (userListByNick : next.userListByNick = state.userListByNick)
    (users : next.users = state.users) : SameUsers state next where
  operCount := operCount
  userListByNick := userListByNick
  users := by rw [users]

theorem of_modify [DecidableEq υ] {user : υ} {change : User γ ε → User γ ε}
    (operCount : next.operCount = state.operCount)
    (userListByNick : next.userListByNick = state.userListByNick)
    (users : next.users = modify user change state.users)
    (kept : ∀ record, (change record).alone = record.alone) : SameUsers state next where
  operCount := operCount
  userListByNick := userListByNick
  users := by
    rw [users]
    exact mapValues_modify kept user state.users

theorem refl (state : State υ γ ε) : SameUsers state state := of_eq rfl rfl rfl

theorem trans (first : SameUsers state between) (second : SameUsers between next) :
    SameUsers state next where
  operCount := second.operCount.trans first.operCount
  userListByNick := second.userListByNick.trans first.userListByNick
  users := second.users.trans first.users

end SameUsers

namespace State

variable [DecidableEq γ] {casemap : Casemap} {state next : State υ γ ε}

theorem queueForDeletion_sameUsers (state : State υ γ ε) (chan : γ) :
    SameUsers state (state.queueForDeletion chan) := by
  unfold queueForDeletion
  split <;> exact .of_eq rfl rfl rfl

theorem destroyChannel_sameUsers (casemap : Casemap) (state : State υ γ ε) (chan : γ) :
    SameUsers state (state.destroyChannel casemap chan) := by
  unfold destroyChannel
  split <;> exact .of_eq rfl rfl rfl

theorem deleteChannels_sameUsers {vetoDelete : γ → Bool}
    (ran : state.deleteChannels casemap vetoDelete = some next) : SameUsers state next := by
  rcases deleteChannels_eq_some ran with ⟨swept, sweeping, rfl⟩
  have sweeps : SameUsers state swept := by
    refine foldlM_preorder SameUsers .refl .trans ?_ sweeping
    intro before chan after _ passed
    rcases sweep_eq_some passed with ⟨_, _, ⟨_, rfl⟩ | ⟨_, rfl⟩⟩
    · exact .refl _
    · exact destroyChannel_sameUsers casemap before chan
  exact ⟨sweeps.operCount, sweeps.userListByNick, sweeps.users⟩

end State

open State

variable [DecidableEq υ] [DecidableEq γ] [DecidableEq ε] [DecidableEq μ]
  {config : Config μ} {state next : State υ γ ε} {action : Action υ γ ε μ}

/-- The actions on channels. -/
def Action.OnChannels : Action υ γ ε μ → Prop
  | .clearQuitting | .createChannel _ _ | .setSyncing _ _ | .joinUser _ _ _ | .deleteUser _ _
  | .checkAndQueue _ _ | .setChannelModeInternal _ _ _ _ _ | .removeChannelModeInternal _ _ _ _
  | .lostPerm _ _ | .deleteChannels _ => True
  | _ => False

theorem step_sameUsers (onChannels : action.OnChannels)
    (stepped : step config state action = some next) : SameUsers state next := by
  cases action with
  | clearQuitting =>
      cases stepped
      exact .of_eq rfl rfl rfl
  | createChannel =>
      rcases createChannel_eq_some stepped with ⟨_, _, rfl⟩
      exact .of_eq rfl rfl rfl
  | setSyncing =>
      rcases setSyncing_eq_some stepped with ⟨_, rfl⟩
      exact .of_eq rfl rfl rfl
  | joinUser =>
      rcases joinUser_eq_some stepped with ⟨_, _, _, rfl⟩
      exact .of_modify rfl rfl rfl fun _ => rfl
  | deleteUser =>
      rcases deleteUser_eq_some stepped with ⟨_, _, _, rfl⟩
      refine SameUsers.trans ?_ (queueForDeletion_sameUsers _ _)
      exact .of_modify rfl rfl rfl fun _ => rfl
  | checkAndQueue =>
      rcases checkAndQueue_eq_some stepped with ⟨_, _, rfl | rfl⟩
      · exact .refl _
      · exact queueForDeletion_sameUsers _ _
  | setChannelModeInternal =>
      rcases setChannelModeInternal_eq_some stepped with ⟨_, _, rfl⟩
      exact .of_eq rfl rfl rfl
  | removeChannelModeInternal =>
      rcases removeChannelModeInternal_eq_some stepped with ⟨_, _, _, rfl⟩
      exact .of_eq rfl rfl rfl
  | lostPerm =>
      rcases lostPerm_eq_some stepped with ⟨_, _, _, _, ⟨_, rfl⟩ | ⟨_, rfl⟩⟩
      · exact .of_eq rfl rfl rfl
      · refine SameUsers.trans ?_ (destroyChannel_sameUsers _ _ _)
        exact .of_eq rfl rfl rfl
  | deleteChannels => exact deleteChannels_sameUsers stepped
  | _ => contradiction

end Anope.Network
