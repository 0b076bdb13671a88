import Anope.Library.Loop
import Anope.Library.Run
import Anope.Network.Spec

/-!
# Channels queued for deletion

`Channel::deleting` holds registered channels as long as no channel in it
deletes itself: `RemoveModeInternal` destroys an empty channel that loses its
permanent mode and leaves its address in the queue.
-/

namespace Anope.Network

open Library.Loop Library.Run Library.Table Anope.Text

variable {υ γ ε μ : Type}

namespace State

variable [DecidableEq γ]

/-- The name of a channel of the heap. -/
def nameOf (state : State υ γ ε) (chan : γ) : Option Str :=
  (state.chans.lookup chan).bind fun record => some record.name

/-- Whether a channel exists and is found under its name in `ChannelList`. -/
def IsRegistered (casemap : Casemap) (state : State υ γ ε) (chan : γ) : Prop :=
  ∃ name, state.nameOf chan = some name ∧
    state.channelList.lookup (casemap.ciStr name) = some chan

/-- Every queued channel is registered, and `DeleteChannels` touches no destroyed
one. -/
structure QueueSound (casemap : Casemap) (state : State υ γ ε) : Prop where
  registered : ∀ chan ∈ state.deleting, state.IsRegistered casemap chan
  sweeps : ∀ vetoDelete, (state.deleteChannels casemap vetoDelete).isSome

/-- What holds of channels in every state: they are registered, and
`QueueForDeletion` queues none twice. -/
structure ChannelsListed (casemap : Casemap) (state : State υ γ ε) : Prop where
  listed : ∀ chan name, state.nameOf chan = some name →
    state.channelList.lookup (casemap.ciStr name) = some chan
  nodup : state.deleting.Nodup

/-- Every queued channel exists. -/
def QueueLive (state : State υ γ ε) : Prop :=
  ∀ chan ∈ state.deleting, chan ∈ state.chans

/-- No channel in the queue deletes itself. -/
def NoQueuedLoss (casemap : Casemap) (state : State υ γ ε) : Action υ γ ε μ → Prop
  | .lostPerm chan vetoDelete => ∀ record, state.chans.lookup chan = some record →
      record.checkDelete casemap vetoDelete = true → chan ∉ state.deleting
  | _ => True

theorem nameOf_isSome {state : State υ γ ε} {chan : γ} :
    (state.nameOf chan).isSome ↔ chan ∈ state.chans := by
  rw [← AList.lookup_isSome, nameOf]
  cases state.chans.lookup chan <;> simp

/-! ## Sweeping the queue -/

theorem nameOf_destroyChannel (casemap : Casemap) (state : State υ γ ε) (chan other : γ) :
    (state.destroyChannel casemap chan).nameOf other =
      if other = chan then none else state.nameOf other := by
  unfold destroyChannel
  split
  next absent =>
    split
    next same => rw [same, nameOf, absent, Option.bind_none]
    next => rfl
  next record found =>
    split
    next same => rw [same, nameOf, AList.lookup_erase, Option.bind_none]
    next different => rw [nameOf, nameOf, AList.lookup_erase_ne different]

theorem sweep_isSome (casemap : Casemap) (vetoDelete : γ → Bool) {queue : List γ}
    (nodup : queue.Nodup) {state : State υ γ ε} (live : ∀ chan ∈ queue, chan ∈ state.chans) :
    (queue.foldlM (sweep casemap vetoDelete) state).isSome := by
  induction queue generalizing state with
  | nil => rfl
  | cons chan queue ih =>
      rcases List.nodup_cons.mp nodup with ⟨first, rest⟩
      have present := AList.lookup_isSome.mpr (live chan List.mem_cons_self)
      rcases Option.isSome_iff_exists.mp present with ⟨record, found⟩
      rw [List.foldlM_cons]
      cases deletable : record.checkDelete casemap (vetoDelete chan) with
      | false =>
          have swept : sweep casemap vetoDelete state chan = some state := by
            simp only [sweep, found, deletable, Bool.false_eq_true, if_false]
          rw [swept]
          exact ih rest fun other mem => live other (List.mem_cons_of_mem _ mem)
      | true =>
          have swept : sweep casemap vetoDelete state chan =
              some (state.destroyChannel casemap chan) := by
            simp only [sweep, found, deletable, if_true]
          rw [swept]
          refine ih rest fun other mem => ?_
          have different : other ≠ chan := fun same => first (same ▸ mem)
          rw [← nameOf_isSome, nameOf_destroyChannel, if_neg different, nameOf_isSome]
          exact live other (List.mem_cons_of_mem _ mem)

/-- The queue is sound as soon as its channels are registered. -/
theorem ChannelsListed.queueSound_iff {casemap : Casemap} {state : State υ γ ε}
    (channels : state.ChannelsListed casemap) :
    state.QueueSound casemap ↔ state.QueueLive := by
  constructor
  · intro sound chan mem
    rcases sound.registered chan mem with ⟨name, named, _⟩
    rw [← nameOf_isSome, named]
    rfl
  · intro live
    constructor
    · intro chan mem
      have named := nameOf_isSome.mpr (live chan mem)
      rcases Option.isSome_iff_exists.mp named with ⟨name, isName⟩
      exact ⟨name, isName, channels.listed chan name isName⟩
    · intro vetoDelete
      rw [deleteChannels, Option.isSome_map]
      exact sweep_isSome casemap vetoDelete channels.nodup live

/-! ## Steps that keep the channels -/

/-- The names, `ChannelList` and the queue are as before. -/
structure SameChannels (state next : State υ γ ε) : Prop where
  nameOf : next.nameOf = state.nameOf
  channelList : next.channelList = state.channelList
  deleting : next.deleting = state.deleting

namespace SameChannels

variable {state between next : State υ γ ε}

theorem of_eq (chans : next.chans = state.chans)
    (channelList : next.channelList = state.channelList)
    (deleting : next.deleting = state.deleting) : SameChannels state next where
  nameOf := by
    funext chan
    rw [State.nameOf, State.nameOf, chans]
  channelList := channelList
  deleting := deleting

theorem of_modify {chan : γ} {change : Chan υ ε → Chan υ ε}
    (chans : next.chans = modify chan change state.chans)
    (channelList : next.channelList = state.channelList)
    (deleting : next.deleting = state.deleting)
    (kept : ∀ record, (change record).name = record.name) : SameChannels state next where
  nameOf := by
    funext other
    rw [State.nameOf, State.nameOf, chans]
    exact bind_lookup_modify (fun record => by rw [kept]) other
  channelList := channelList
  deleting := deleting

theorem refl (state : State υ γ ε) : SameChannels state state := of_eq rfl rfl rfl

theorem trans (first : SameChannels state between) (second : SameChannels between next) :
    SameChannels state next where
  nameOf := second.nameOf.trans first.nameOf
  channelList := second.channelList.trans first.channelList
  deleting := second.deleting.trans first.deleting

theorem channelsListed {casemap : Casemap} (kept : SameChannels state next)
    (channels : state.ChannelsListed casemap) : next.ChannelsListed casemap where
  listed := by
    rw [kept.nameOf, kept.channelList]
    exact channels.listed
  nodup := by
    rw [kept.deleting]
    exact channels.nodup

theorem queueLive_iff (kept : SameChannels state next) : next.QueueLive ↔ state.QueueLive := by
  simp only [QueueLive, ← nameOf_isSome, kept.nameOf, kept.deleting]

end SameChannels

/-! ## Steps that change the channels -/

section Channels

variable {casemap : Casemap} {state next : State υ γ ε} {chan : γ}

theorem createChannel_nameOf {name : Str}
    (ran : state.createChannel casemap chan name = some next) (other : γ) :
    next.nameOf other = if other = chan then some name else state.nameOf other := by
  rcases createChannel_eq_some ran with ⟨_, _, rfl⟩
  split
  next same => rw [same, nameOf, AList.lookup_insert, Option.bind_some]
  next different => rw [nameOf, nameOf, AList.lookup_insert_ne different]

/-- A new channel takes a name that no channel has. -/
theorem createChannel_channelsListed {name : Str} (channels : state.ChannelsListed casemap)
    (ran : state.createChannel casemap chan name = some next) :
    next.ChannelsListed casemap where
  listed other itsName named := by
    rw [createChannel_nameOf ran] at named
    rcases createChannel_eq_some ran with ⟨_, free, rfl⟩
    split at named
    next same =>
      cases named
      rw [same]
      exact AList.lookup_insert _
    next =>
      have old := channels.listed other itsName named
      have different : casemap.ciStr itsName ≠ casemap.ciStr name := by
        intro same
        rw [same, AList.lookup_eq_none.mpr free] at old
        cases old
      rw [← old]
      exact AList.lookup_insert_ne different
  nodup := by
    rcases createChannel_eq_some ran with ⟨_, _, rfl⟩
    exact channels.nodup

theorem createChannel_queueLive {name : Str} (live : state.QueueLive)
    (ran : state.createChannel casemap chan name = some next) : next.QueueLive := by
  intro other mem
  rw [← nameOf_isSome, createChannel_nameOf ran]
  split
  · rfl
  · rw [nameOf_isSome]
    rcases createChannel_eq_some ran with ⟨_, _, rfl⟩
    exact live other mem

/-- The name of a destroyed channel is that of no other channel. -/
theorem destroyChannel_channelsListed (channels : state.ChannelsListed casemap) (chan : γ) :
    (state.destroyChannel casemap chan).ChannelsListed casemap where
  listed other itsName named := by
    rw [nameOf_destroyChannel] at named
    split at named
    · cases named
    next different =>
      have listed := channels.listed other itsName named
      unfold destroyChannel
      split
      · exact listed
      next record found =>
        have ofChan : state.channelList.lookup (casemap.ciStr record.name) = some chan :=
          channels.listed chan record.name (by rw [nameOf, found, Option.bind_some])
        have anotherName : casemap.ciStr itsName ≠ casemap.ciStr record.name := by
          intro same
          rw [same, ofChan, Option.some.injEq] at listed
          exact different listed.symm
        rw [← listed]
        exact AList.lookup_erase_ne anotherName
  nodup := by
    unfold destroyChannel
    split <;> exact channels.nodup

theorem destroyChannel_deleting (casemap : Casemap) (state : State υ γ ε) (chan : γ) :
    (state.destroyChannel casemap chan).deleting = state.deleting := by
  unfold destroyChannel
  split <;> rfl

/-- A destroyed channel leaves a sound queue exactly when it was not in it. -/
theorem destroyChannel_queueLive_iff (live : state.QueueLive) :
    (state.destroyChannel casemap chan).QueueLive ↔ chan ∉ state.deleting := by
  simp only [QueueLive, destroyChannel_deleting, ← nameOf_isSome, nameOf_destroyChannel]
  constructor
  · intro stillLive mem
    have gone := stillLive chan mem
    rw [if_pos rfl] at gone
    cases gone
  · intro notQueued other mem
    have different : other ≠ chan := fun same => notQueued (same ▸ mem)
    rw [if_neg different, nameOf_isSome]
    exact live other mem

theorem queueForDeletion_channelsListed (channels : state.ChannelsListed casemap) (chan : γ) :
    (state.queueForDeletion chan).ChannelsListed casemap := by
  unfold queueForDeletion
  split
  · exact channels
  next notQueued =>
    refine ⟨channels.listed, List.nodup_append.mpr ⟨channels.nodup, List.nodup_singleton _, ?_⟩⟩
    intro other mem new isNew same
    rw [same, List.mem_singleton.mp isNew] at mem
    exact notQueued mem

theorem queueForDeletion_queueLive (live : state.QueueLive) (present : chan ∈ state.chans) :
    (state.queueForDeletion chan).QueueLive := by
  unfold queueForDeletion
  split
  · exact live
  · intro other mem
    rcases List.mem_append.mp mem with old | new
    · exact live other old
    · rw [List.mem_singleton.mp new]
      exact present

theorem deleteChannels_channelsListed {vetoDelete : γ → Bool}
    (channels : state.ChannelsListed casemap)
    (ran : state.deleteChannels casemap vetoDelete = some next) :
    next.ChannelsListed casemap := by
  rcases deleteChannels_eq_some ran with ⟨swept, sweeping, rfl⟩
  have kept : state.ChannelsListed casemap → swept.ChannelsListed casemap := by
    refine foldlM_preorder
      (fun before after => before.ChannelsListed casemap → after.ChannelsListed casemap)
      (fun _ => id) (fun first second => second ∘ first) ?_ sweeping
    intro before other after _ passed before_channels
    rcases sweep_eq_some passed with ⟨_, _, ⟨_, rfl⟩ | ⟨_, rfl⟩⟩
    · exact before_channels
    · exact destroyChannel_channelsListed before_channels other
  exact ⟨(kept channels).listed, List.nodup_nil⟩

end Channels

section Frame

variable [DecidableEq υ] {config : Config μ} {state next : State υ γ ε} {user : υ}

theorem quitUser_sameChannels (ran : state.quitUser user = some next) :
    SameChannels state next := by
  rcases quitUser_eq_some ran with ⟨_, _, ⟨_, rfl⟩ | ⟨_, rfl⟩⟩ <;> exact .of_eq rfl rfl rfl

theorem collideKill_sameChannels {svsKillQuits : Bool}
    (ran : state.collideKill svsKillQuits user = some next) : SameChannels state next := by
  rcases collideKill_eq_some ran with ⟨_, _, ⟨_, rfl⟩ | ⟨_, quits⟩⟩
  · exact .refl _
  · exact quitUser_sameChannels quits

theorem changeNick_sameChannels {newnick : Str}
    (ran : state.changeNick config user newnick = some next) : SameChannels state next := by
  rcases changeNick_eq_some ran with
    ⟨_, _, _, ⟨_, rfl⟩ | ⟨_, _, rfl⟩ | ⟨_, _, _, _, first, second⟩⟩
  · exact .of_eq rfl rfl rfl
  · exact .of_eq rfl rfl rfl
  · have killed := (collideKill_sameChannels first).trans (collideKill_sameChannels second)
    refine SameChannels.trans ?_ killed
    exact .of_eq rfl rfl rfl

theorem setUserModeInternal_sameChannels {mname : Str} {data : ModeData}
    (ran : state.setUserModeInternal user mname data = some next) : SameChannels state next := by
  rcases setUserModeInternal_eq_some ran with ⟨_, _, _, rfl⟩
  exact .of_eq rfl rfl rfl

theorem removeUserModeInternal_sameChannels {mname : Str}
    (ran : state.removeUserModeInternal user mname = some next) : SameChannels state next := by
  rcases removeUserModeInternal_eq_some ran with ⟨_, _, _, rfl⟩
  exact .of_eq rfl rfl rfl

end Frame

end State

/-! ## Runs -/

section Runs

variable [DecidableEq υ] [DecidableEq γ] [DecidableEq ε] [DecidableEq μ]
  {config : Config μ} {state next : State υ γ ε} {action : Action υ γ ε μ}

open State

/-- The actions that create, destroy or queue a channel. -/
def Action.TouchesQueue : Action υ γ ε μ → Prop
  | .createChannel _ _ | .deleteUser _ _ | .checkAndQueue _ _ | .lostPerm _ _
  | .deleteChannels _ => True
  | _ => False

theorem step_sameChannels (other : ¬action.TouchesQueue)
    (stepped : step config state action = some next) : SameChannels state next := by
  cases action with
  | construct =>
      rcases construct_eq_some stepped with ⟨_, _, rfl⟩
      exact .of_eq rfl rfl rfl
  | register =>
      rcases register_eq_some stepped with ⟨_, _, _, rfl⟩
      exact .of_eq rfl rfl rfl
  | changeNick => exact changeNick_sameChannels stepped
  | setUserModeInternal => exact setUserModeInternal_sameChannels stepped
  | removeUserModeInternal => exact removeUserModeInternal_sameChannels stepped
  | setUserMode =>
      rcases setUserMode_eq_some stepped with ⟨_, _, ⟨_, rfl⟩ | ⟨_, sets⟩⟩
      · exact .refl _
      · exact setUserModeInternal_sameChannels sets
  | removeUserMode =>
      rcases removeUserMode_eq_some stepped with ⟨_, _, ⟨_, rfl⟩ | ⟨_, removes⟩⟩
      · exact .refl _
      · exact removeUserModeInternal_sameChannels removes
  | quit => exact quitUser_sameChannels stepped
  | logoff =>
      rcases logoff_eq_some stepped with ⟨_, _, _, rfl⟩
      exact .of_eq rfl rfl rfl
  | release =>
      rcases release_eq_some stepped with ⟨_, _, _, _, rfl⟩
      exact .of_eq rfl rfl rfl
  | clearQuitting =>
      cases stepped
      exact .of_eq rfl rfl rfl
  | setSyncing =>
      rcases setSyncing_eq_some stepped with ⟨_, rfl⟩
      exact .of_modify rfl rfl rfl fun _ => rfl
  | joinUser =>
      rcases joinUser_eq_some stepped with ⟨_, _, _, rfl⟩
      exact .of_modify rfl rfl rfl fun _ => rfl
  | setChannelModeInternal =>
      rcases setChannelModeInternal_eq_some stepped with ⟨_, _, rfl⟩
      exact .of_modify rfl rfl rfl fun _ => rfl
  | removeChannelModeInternal =>
      rcases removeChannelModeInternal_eq_some stepped with ⟨_, _, _, rfl⟩
      exact .of_modify rfl rfl rfl fun _ => rfl
  | createChannel | deleteUser | checkAndQueue | lostPerm | deleteChannels =>
      exact absurd trivial other

theorem step_channelsListed (channels : state.ChannelsListed config.casemap)
    (stepped : step config state action = some next) :
    next.ChannelsListed config.casemap := by
  by_cases touches : action.TouchesQueue
  · cases action with
    | createChannel => exact createChannel_channelsListed channels stepped
    | deleteUser =>
        rcases deleteUser_eq_some stepped with ⟨_, _, _, rfl⟩
        refine queueForDeletion_channelsListed (SameChannels.channelsListed ?_ channels) _
        exact .of_modify rfl rfl rfl fun _ => rfl
    | checkAndQueue =>
        rcases checkAndQueue_eq_some stepped with ⟨_, _, rfl | rfl⟩
        · exact channels
        · exact queueForDeletion_channelsListed channels _
    | lostPerm =>
        rcases lostPerm_eq_some stepped with ⟨_, _, _, _, ⟨_, rfl⟩ | ⟨_, rfl⟩⟩
        · exact ⟨channels.listed, channels.nodup⟩
        · refine destroyChannel_channelsListed ?_ _
          exact ⟨channels.listed, channels.nodup⟩
    | deleteChannels => exact deleteChannels_channelsListed channels stepped
    | _ => contradiction
  · exact (step_sameChannels touches stepped).channelsListed channels

/-- A step from a live queue leaves a live one exactly when no queued channel
deletes itself. -/
theorem step_queueLive_iff (live : state.QueueLive)
    (stepped : step config state action = some next) :
    next.QueueLive ↔ NoQueuedLoss config.casemap state action := by
  by_cases touches : action.TouchesQueue
  · cases action with
    | createChannel => exact iff_of_true (createChannel_queueLive live stepped) trivial
    | deleteUser =>
        rcases deleteUser_eq_some stepped with ⟨_, _, present, rfl⟩
        refine iff_of_true (queueForDeletion_queueLive ?_ ?_) trivial
        · refine (SameChannels.queueLive_iff ?_).mpr live
          exact .of_modify rfl rfl rfl fun _ => rfl
        · exact (mem_modify _ _ _ _).mpr present
    | checkAndQueue =>
        rcases checkAndQueue_eq_some stepped with ⟨_, found, rfl | rfl⟩
        · exact iff_of_true live trivial
        · refine iff_of_true (queueForDeletion_queueLive live ?_) trivial
          rw [← AList.lookup_isSome, found]
          rfl
    | lostPerm chan vetoDelete =>
        rcases lostPerm_eq_some stepped with ⟨outer, record, _, found, ⟨kept, rfl⟩ | ⟨lost, rfl⟩⟩
        · refine iff_of_true live fun other same deletable => ?_
          rw [found, Option.some.injEq] at same
          rw [← same, kept] at deletable
          cases deletable
        · have returned : State.QueueLive { state with unsetting := outer } := live
          refine (destroyChannel_queueLive_iff returned).trans ?_
          constructor
          · exact fun notQueued _ _ _ => notQueued
          · exact fun safe => safe record found lost
    | deleteChannels =>
        rcases deleteChannels_eq_some stepped with ⟨_, _, rfl⟩
        exact iff_of_true (fun _ mem => absurd mem List.not_mem_nil) trivial
    | _ => contradiction
  · refine iff_of_true ((step_sameChannels touches stepped).queueLive_iff.mpr live) ?_
    cases action with
    | lostPerm => exact absurd trivial touches
    | _ => trivial

omit [DecidableEq υ] [DecidableEq ε] in
theorem channelsListed_initial (casemap : Casemap) :
    (State.initial : State υ γ ε).ChannelsListed casemap where
  listed _ _ named := by cases named
  nodup := List.nodup_nil

/-- `Channel::deleting` is sound in every state of a run exactly when no channel
in it deletes itself. -/
theorem always_queueSound_iff (config : Config μ) (actions : List (Action υ γ ε μ)) :
    Always (step config) (State.QueueSound config.casemap) State.initial actions ↔
      EachStep (step config) (NoQueuedLoss config.casemap) State.initial actions := by
  refine always_iff_eachStep (State.ChannelsListed config.casemap) ?_ ?_ ?_ ?_ actions
  · exact fun channels stepped => step_channelsListed channels stepped
  · intro before action after channels sound stepped
    rw [(step_channelsListed channels stepped).queueSound_iff]
    exact step_queueLive_iff (channels.queueSound_iff.mp sound) stepped
  · exact channelsListed_initial _
  · rw [(channelsListed_initial _).queueSound_iff]
    exact fun _ mem => absurd mem List.not_mem_nil

end Runs

/-! ## A channel that loses its last member and then its permanent mode -/

/-- A protocol whose only channel mode is `PERM`. -/
def permOnly : Config Unit where
  casemap := .ascii
  manager :=
    { mode _ := ⟨ascii "PERM", 80, .regular, false, none⟩
      listeners _ := []
      wrapParam _ value := value
      unwrapParam _ _ _ := none
      isValid _ value := some value
      name_inj _ := rfl }
  svsKillQuits := true

/-- A context in which no name is known. -/
def noNames : Context Unit where
  curTime := 1
  me := ascii "services.example"
  findUser _ := none
  findBot _ := none

/-- A bot leaves a permanent channel, which is queued, and the next message of
the IRCd unsets the permanent mode. -/
def partThenUnset : List (Action Unit Unit Unit Unit) :=
  [.construct () (ascii "ChanServ") true true, .register (), .createChannel () (ascii "#a"),
    .joinUser () () (), .setChannelModeInternal noNames [] () () ⟨[], [], 0⟩, .deleteUser () (),
    .removeChannelModeInternal noNames () () [], .lostPerm () false]

/-- Behind this run the queue holds the address of the destroyed channel. -/
theorem not_always_queueSound_partThenUnset :
    ¬Always (step permOnly) (State.QueueSound .ascii) State.initial partThenUnset := by
  intro always
  have behind : (run (step permOnly) State.initial partThenUnset).map
      (fun state => (state.deleting, state.chans.keys)) = some ([()], []) := by
    decide +kernel
  rcases Option.map_eq_some_iff.mp behind with ⟨final, reached, view⟩
  rw [Prod.mk.injEq] at view
  rcases (always.of_run reached).registered () (by simp [view.1]) with ⟨name, named, _⟩
  have present : () ∈ final.chans := by
    rw [← State.nameOf_isSome, named]
    rfl
  rw [AList.mem_keys, view.2] at present
  exact List.not_mem_nil present

end Anope.Network
