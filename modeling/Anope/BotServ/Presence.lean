import Anope.Library.Run
import Mathlib.Data.Finset.Card

/-!
# Bots in channels

The bot of a channel joins when enough users are there, and leaves when they no longer are.  The
hook for joins is written for a user who is not yet counted, but it is called behind `JoinUser`.
So the bot joins when one user is missing.
-/

namespace Anope.BotServ.Presence

open Library.Run

/-! ## Channels and hooks -/

/-- A member of a channel: a client of the server of the services, or a user of another server. -/
inductive Member where
  | client (id : Nat)
  | user (id : Nat)
  deriving DecidableEq

/-- What the hooks read of a registered channel. -/
structure ChannelInfo where
  bi : Option Nat
  persist : Bool

/-- What the hooks read of a channel. -/
structure Channel where
  users : Finset Member
  ci : Option ChannelInfo
  syncing : Bool
  inhabit : Bool

variable (minusers : Nat)

/-- `Channel::JoinUser`. -/
def Channel.joinUser (c : Channel) (member : Member) : Channel :=
  { c with users := insert member c.users }

/-- `OnJoinChannel`, up to the bans that a bot has lifted.  For the bot that it lets join the hook
does nothing. -/
def onJoinChannel (member : Member) (c : Channel) : Channel :=
  match member, c.ci.bind ChannelInfo.bi with
  | .user _, some bi =>
      if minusers ≤ c.users.card + 1 ∧ .client bi ∉ c.users then c.joinUser (.client bi) else c
  | _, _ => c

/-- `OnLeaveChannel`.  For the bot that it lets part the hook does nothing. -/
def onLeaveChannel (member : Member) (c : Channel) : Channel :=
  if c.ci.any ChannelInfo.persist then c
  else if c.syncing then c
  else if c.inhabit then c
  else
    match c.ci.bind ChannelInfo.bi with
    | some bi =>
        if member ≠ .client bi ∧ c.users.card - 1 ≤ minusers ∧ .client bi ∈ c.users then
          { c with users := c.users.erase (.client bi) }
        else c
    | none => c

/-- `Channel::DeleteUser`. -/
def Channel.deleteUser (c : Channel) (member : Member) : Channel :=
  let c := onLeaveChannel minusers member c
  { c with users := c.users.erase member }

/-- Messages of other servers: a join of a user who may join, and a part. -/
inductive Action where
  | join (id : Nat)
  | part (id : Nat)

/-- What a message does to a channel: the loop of `SJoin` for one user, and `Part`. -/
def step (c : Channel) : Action → Option Channel
  | .join id =>
      if .user id ∈ c.users then some c
      else some (onJoinChannel minusers (.user id) (c.joinUser (.user id)))
  | .part id =>
      if .user id ∈ c.users then some (c.deleteUser minusers (.user id))
      else some c

/-! ## Where the bot is -/

/-- A registered channel with a bot that may leave it. -/
structure Regular (bi : Nat) (c : Channel) : Prop where
  ci : c.ci = some ⟨some bi, false⟩
  syncing : c.syncing = false
  inhabit : c.inhabit = false

/-- How many others than the bot are in a channel. -/
def others (bi : Nat) (c : Channel) : Nat :=
  (c.users.erase (.client bi)).card

/-- The bot is in a channel exactly when enough others are. -/
def BotIffEnough (bi : Nat) (c : Channel) : Prop :=
  .client bi ∈ c.users ↔ minusers ≤ others bi c

/-- No user joins who leaves exactly one more to be missed. -/
def NotOneShort (bi : Nat) (c : Channel) : Action → Prop
  | .join id => .user id ∉ c.users → others bi c + 2 ≠ minusers
  | .part _ => True

instance decidableNotOneShort (bi : Nat) (c : Channel) :
    (action : Action) → Decidable (NotOneShort minusers bi c action)
  | .join id => inferInstanceAs (Decidable (.user id ∉ c.users → others bi c + 2 ≠ minusers))
  | .part _ => .isTrue trivial

variable {minusers} {bi id : Nat} {c next : Channel} {action : Action}

theorem card_users_of_mem (present : .client bi ∈ c.users) : c.users.card = others bi c + 1 :=
  (Finset.card_erase_add_one present).symm

theorem card_users_of_not_mem (absent : .client bi ∉ c.users) : c.users.card = others bi c :=
  (congrArg Finset.card (Finset.erase_eq_of_notMem absent)).symm

theorem others_joinUser_user (new : .user id ∉ c.users) :
    others bi (c.joinUser (.user id)) = others bi c + 1 := by
  rw [others, Channel.joinUser, Finset.erase_insert_of_ne (by simp)]
  exact Finset.card_insert_of_notMem fun mem => new (Finset.mem_of_mem_erase mem)

theorem others_joinUser_client : others bi (c.joinUser (.client bi)) = others bi c := by
  rw [others, others, Channel.joinUser]
  congr 1
  exact Finset.erase_insert_eq_erase c.users _

/-- The others that stay when a user leaves, whether or not the bot does. -/
theorem others_erase_user {users : Finset Member} (member : .user id ∈ c.users)
    (same : users.erase (.client bi) = c.users.erase (.client bi)) :
    others bi { c with users := users.erase (.user id) } + 1 = others bi c := by
  have other : .user id ∈ c.users.erase (.client bi) :=
    Finset.mem_erase_of_ne_of_mem (by simp) member
  rw [others, Finset.erase_right_comm, same]
  exact Finset.card_erase_add_one other

/-! ## Steps -/

theorem Regular.bot (regular : Regular bi c) : c.ci.bind ChannelInfo.bi = some bi := by
  rw [regular.ci]
  rfl

theorem Regular.onJoinChannel (regular : Regular bi c) (id : Nat) :
    onJoinChannel minusers (.user id) c =
      if minusers ≤ c.users.card + 1 ∧ .client bi ∉ c.users then c.joinUser (.client bi)
      else c := by
  simp only [Presence.onJoinChannel, regular.bot]

theorem Regular.onLeaveChannel (regular : Regular bi c) (id : Nat) :
    onLeaveChannel minusers (.user id) c =
      if c.users.card - 1 ≤ minusers ∧ .client bi ∈ c.users then
        { c with users := c.users.erase (.client bi) }
      else c := by
  rw [Presence.onLeaveChannel, regular.ci, regular.syncing, regular.inhabit]
  simp

theorem Regular.of_frame (regular : Regular bi c) (ci : next.ci = c.ci)
    (syncing : next.syncing = c.syncing) (inhabit : next.inhabit = c.inhabit) : Regular bi next :=
  ⟨ci.trans regular.ci, syncing.trans regular.syncing, inhabit.trans regular.inhabit⟩

theorem Regular.joinUser (regular : Regular bi c) (member : Member) :
    Regular bi (c.joinUser member) :=
  regular.of_frame rfl rfl rfl

/-- Nothing but the members changes. -/
theorem Regular.step (regular : Regular bi c) (stepped : step minusers c action = some next) :
    Regular bi next := by
  cases action with
  | join id =>
      rw [Presence.step] at stepped
      split_ifs at stepped
      · cases stepped
        exact regular
      · rw [(regular.joinUser (.user id)).onJoinChannel] at stepped
        split_ifs at stepped <;> cases stepped
        · exact (regular.joinUser _).joinUser _
        · exact regular.joinUser _
  | part id =>
      rw [Presence.step] at stepped
      split_ifs at stepped
      · rw [Channel.deleteUser, regular.onLeaveChannel] at stepped
        split_ifs at stepped <;> cases stepped
        · exact regular.of_frame rfl rfl rfl
        · exact regular.of_frame rfl rfl rfl
      · cases stepped
        exact regular

/-- A user joins: the bot is right where it was, or it joins as soon as one user is missing. -/
theorem botIffEnough_join_iff (regular : Regular bi c) (enough : BotIffEnough minusers bi c)
    (new : .user id ∉ c.users) :
    BotIffEnough minusers bi (onJoinChannel minusers (.user id) (c.joinUser (.user id))) ↔
      others bi c + 2 ≠ minusers := by
  have isMember : .client bi ∈ (c.joinUser (.user id)).users ↔ .client bi ∈ c.users := by
    simp [Channel.joinUser]
  have more : others bi (c.joinUser (.user id)) = others bi c + 1 := others_joinUser_user new
  rw [(regular.joinUser (.user id)).onJoinChannel]
  by_cases present : .client bi ∈ c.users
  · rw [if_neg fun both => both.2 (isMember.mpr present), BotIffEnough, more, isMember]
    have few := enough.mp present
    exact iff_of_true (iff_of_true present (by omega)) (by omega)
  · have absent : .client bi ∉ (c.joinUser (.user id)).users := fun mem => present (isMember.mp mem)
    have few : ¬minusers ≤ others bi c := fun le => present (enough.mpr le)
    rw [card_users_of_not_mem absent, more]
    by_cases joins : minusers ≤ others bi c + 1 + 1
    · rw [if_pos ⟨joins, absent⟩, BotIffEnough, others_joinUser_client, more]
      have member : .client bi ∈ ((c.joinUser (.user id)).joinUser (.client bi)).users :=
        Finset.mem_insert_self _ _
      rw [iff_true_left member]
      omega
    · rw [if_neg fun both => joins both.1, BotIffEnough, more]
      exact iff_of_true (iff_of_false absent (by omega)) (by omega)

/-- A user parts: the bot stays exactly if enough others do. -/
theorem BotIffEnough.part (regular : Regular bi c) (enough : BotIffEnough minusers bi c)
    (member : .user id ∈ c.users) :
    BotIffEnough minusers bi (c.deleteUser minusers (.user id)) := by
  rw [Channel.deleteUser, regular.onLeaveChannel]
  by_cases present : .client bi ∈ c.users
  · have few := enough.mp present
    rw [card_users_of_mem present, Nat.add_sub_cancel]
    by_cases parts : others bi c ≤ minusers
    · rw [if_pos ⟨parts, present⟩]
      have left := others_erase_user member (Finset.erase_idem (a := Member.client bi))
      refine iff_of_false ?_ ?_
      · simp
      · dsimp only
        omega
    · rw [if_neg fun both => parts both.1]
      have left : others bi { c with users := c.users.erase (.user id) } + 1 = others bi c :=
        others_erase_user member rfl
      refine iff_of_true ?_ ?_
      · exact Finset.mem_erase_of_ne_of_mem (by simp) present
      · omega
  · rw [if_neg fun both => present both.2]
    have few : ¬minusers ≤ others bi c := fun le => present (enough.mpr le)
    have left : others bi { c with users := c.users.erase (.user id) } + 1 = others bi c :=
      others_erase_user member rfl
    refine iff_of_false ?_ ?_
    · exact fun mem => present (Finset.mem_of_mem_erase mem)
    · omega

/-- The bot is where it should be behind a step exactly if no user joins who leaves exactly one more
to be missed. -/
theorem botIffEnough_step_iff (regular : Regular bi c) (enough : BotIffEnough minusers bi c)
    (stepped : step minusers c action = some next) :
    BotIffEnough minusers bi next ↔ NotOneShort minusers bi c action := by
  cases action with
  | join id =>
      rw [Presence.step] at stepped
      split_ifs at stepped with member
      · cases stepped
        exact iff_of_true enough fun new => absurd member new
      · cases stepped
        rw [botIffEnough_join_iff regular enough member, NotOneShort, imp_iff_right member]
  | part id =>
      rw [Presence.step] at stepped
      refine iff_of_true ?_ trivial
      split_ifs at stepped with member
      · cases stepped
        exact enough.part regular member
      · cases stepped
        exact enough

/-- In a regular channel the bot is always present exactly when enough others are, in the runs in
which no user joins who leaves exactly one more to be missed. -/
theorem always_botIffEnough_iff (regular : Regular bi c) (enough : BotIffEnough minusers bi c)
    (actions : List Action) :
    Always (step minusers) (BotIffEnough minusers bi) c actions ↔
      EachStep (step minusers) (NotOneShort minusers bi) c actions :=
  always_iff_eachStep (Regular bi) Regular.step botIffEnough_step_iff regular enough actions

/-- A registered channel without members. -/
def emptyChannel : Channel :=
  ⟨∅, some ⟨some 0, false⟩, false, false⟩

theorem always_botIffEnough_iff_twoUsers :
    Regular 0 emptyChannel ∧ BotIffEnough 1 0 emptyChannel ∧
      Always (step 1) (BotIffEnough 1 0) emptyChannel [.join 1, .join 2, .part 1, .part 2] := by
  have regular : Regular 0 emptyChannel := ⟨rfl, rfl, rfl⟩
  have enough : BotIffEnough 1 0 emptyChannel := iff_of_false (by decide) (by decide)
  exact ⟨regular, enough, (always_botIffEnough_iff regular enough _).mpr (by decide +kernel)⟩

/-- With two users required the bot joins behind the first one. -/
theorem not_always_botIffEnough_firstJoin :
    Regular 0 emptyChannel ∧ BotIffEnough 2 0 emptyChannel ∧
      ¬Always (step 2) (BotIffEnough 2 0) emptyChannel [.join 1] := by
  refine ⟨⟨rfl, rfl, rfl⟩, iff_of_false (by decide) (by decide), fun always => ?_⟩
  have joined := (always.2 _ rfl).mp (by decide)
  exact absurd joined (by decide)

end Anope.BotServ.Presence
