import Anope.Channel.Agreement
import Anope.Library.Run

/-!
# The timestamp rule

The creation time of a channel only goes down, a message with a newer timestamp
brings neither modes nor statuses, and one with an older timestamp has the
effect that it has on the channel without its modes and without the statuses of
foreign clients.  For the last, two runs of `Reset` are compared that start with
different modes and statuses: they agree on every member that the loop has
passed.
-/

namespace Anope.Channel

open Library.Loop Library.Run Anope.Text Anope.Mode

variable {μ υ : Type}

section Burst

variable [DecidableEq μ] [LinearOrder υ] {protocol : Protocol μ} {receipt : Receipt μ υ}

/-! ## The creation time -/

omit [DecidableEq μ] in
theorem updateStatus_created (channel : Channel μ υ) (user : υ) (update : Finset μ → Finset μ) :
    (channel.updateStatus user update).created = channel.created := by
  unfold updateStatus
  split <;> rfl

theorem setModeInternal_created (casemap : Casemap) (manager : ModeManager μ)
    (context : Context υ) (setter : Str) (channel : Channel μ υ) (cm : μ) (data : ModeData) :
    (setModeInternal casemap manager context setter channel cm data).created =
      channel.created := by
  rcases setModeInternal_cases context setter channel cm data with
    ⟨modes, changed⟩ | ⟨user, update, changed⟩
  · rw [changed]
  · rw [changed]
    exact updateStatus_created channel user update

theorem removeModeInternal_created (casemap : Casemap) (manager : ModeManager μ)
    (context : Context υ) (channel : Channel μ υ) (cm : μ) (param : Str) :
    (removeModeInternal casemap manager context channel cm param).created = channel.created := by
  rcases removeModeInternal_cases context channel cm param with
    ⟨modes, changed⟩ | ⟨user, update, changed⟩
  · rw [changed]
  · rw [changed]
    exact updateStatus_created channel user update

omit [DecidableEq μ] [LinearOrder υ] in
theorem eq_of_afterRemove {vetoDelete : Bool} {cm : μ} {param : Str}
    {state next : Registered μ υ}
    (kept : afterRemove protocol vetoDelete cm param state = some next) : next = state := by
  unfold afterRemove at kept
  dsimp only at kept
  split at kept
  · cases kept
  · exact (Option.some.inj kept).symm

/-- No handler lowers the creation time. -/
def Handlers.NeverLower (handlers : Handlers μ υ) : Prop :=
  ∀ event, ∀ effect ∈ handlers.calls event, ∀ registered, effect ≠ .lowerTs registered

/-- A channel is as old as `target`, or older when a handler lowers the creation
time. -/
def SettlesAt (receipt : Receipt μ υ) (target : Int) (next : Registered μ υ) : Prop :=
  next.channel.created ≤ target ∧
    (receipt.handlers.NeverLower → next.channel.created = target)

/-- Between two states the creation time does not rise, and it is the same
unless a handler lowers it. -/
def NotRaised (receipt : Receipt μ υ) (state next : Registered μ υ) : Prop :=
  SettlesAt receipt state.channel.created next

section

omit [DecidableEq μ] [LinearOrder υ]

variable {first second third : Registered μ υ}

theorem NotRaised.of_eq (same : second.channel.created = first.channel.created) :
    NotRaised receipt first second :=
  ⟨same.le, fun _ => same⟩

theorem NotRaised.refl (state : Registered μ υ) : NotRaised receipt state state :=
  .of_eq rfl

theorem SettlesAt.trans {target : Int} (settled : SettlesAt receipt target first)
    (after : NotRaised receipt first second) : SettlesAt receipt target second :=
  ⟨after.1.trans settled.1, fun never => (after.2 never).trans (settled.2 never)⟩

theorem NotRaised.trans (before : NotRaised receipt first second)
    (after : NotRaised receipt second third) : NotRaised receipt first third :=
  SettlesAt.trans before after

end

theorem Effect.apply_created {effect : Effect μ υ} {state next : Registered μ υ}
    (applied : effect.apply protocol receipt state = some next) :
    next.channel.created ≤ state.channel.created ∧
      ((∀ registered, effect ≠ .lowerTs registered) →
        next.channel.created = state.channel.created) := by
  suffices same : (∀ registered, effect ≠ .lowerTs registered) →
      next.channel.created = state.channel.created by
    refine ⟨?_, same⟩
    cases effect with
    | lowerTs registered =>
        simp only [Effect.apply] at applied
        split at applied
        next older =>
          cases applied
          exact older.le
        · cases applied
          exact le_rfl
    | _ => exact (same (by simp)).le
  intro notLower
  cases effect with
  | set cm data =>
      cases applied
      exact setModeInternal_created _ _ _ _ _ _ _
  | remove cm param vetoDelete =>
      cases eq_of_afterRemove applied
      exact removeModeInternal_created _ _ _ _ _ _
  | join user status =>
      simp only [Effect.apply] at applied
      split at applied <;> cases applied <;> rfl
  | leave user =>
      cases applied
      rfl
  | lowerTs registered => exact absurd rfl (notLower registered)

theorem fire_notRaised {event : Event υ} {state next : Registered μ υ}
    (fired : fire protocol receipt event state = some next) : NotRaised receipt state next := by
  refine foldlM_preorder (NotRaised receipt) .refl .trans (fun mem applied => ?_) fired
  have created := Effect.apply_created applied
  exact ⟨created.1, fun never => created.2 (never event _ mem)⟩

theorem resetStatus_notRaised {state next : Registered μ υ} {user : υ}
    (passed : resetStatus protocol receipt state user = some next) :
    NotRaised receipt state next := by
  unfold resetStatus at passed
  split at passed
  · cases passed
    exact .refl _
  · dsimp only at passed
    split at passed
    · rw [Option.bind_eq_bind, Option.bind_eq_some_iff] at passed
      rcases passed with ⟨restored, fired, rest⟩
      cases rest
      exact (NotRaised.of_eq rfl).trans ((fire_notRaised fired).trans (.of_eq rfl))
    · cases passed
      exact .of_eq rfl

theorem reset_notRaised {state next : Registered μ υ}
    (wasReset : reset protocol receipt state = some next) : NotRaised receipt state next := by
  simp only [reset, Option.bind_eq_bind, Option.bind_eq_some_iff] at wasReset
  rcases wasReset with ⟨cleared, clearing, corrected, correcting, rest⟩
  have clears : NotRaised receipt
      { state with channel := { state.channel with modes := .empty } } cleared := by
    refine foldlM_preorder (NotRaised receipt) .refl .trans ?_ clearing
    exact fun _ passed => resetStatus_notRaised passed
  have corrects : NotRaised receipt cleared corrected := by
    refine foldlM_preorder (NotRaised receipt) .refl .trans ?_ correcting
    exact fun _ fired => fire_notRaised fired
  have both : NotRaised receipt state corrected :=
    (NotRaised.of_eq rfl).trans (clears.trans corrects)
  split at rest
  · cases rest
    exact both
  · exact both.trans (fire_notRaised rest)

theorem changeMode_notRaised {ts : Int} {position : Nat} {add : Bool} {cm : μ} {value : Str}
    {state next : Registered μ υ}
    (changed : changeMode protocol receipt ts position add cm value state = some next) :
    NotRaised receipt state next := by
  unfold changeMode at changed
  split at changed
  · simp only [Option.bind_eq_bind, Option.bind_eq_some_iff] at changed
    rcases changed with ⟨handled, fired, enforced⟩
    have sets : NotRaised receipt state handled :=
      (NotRaised.of_eq (setModeInternal_created _ _ _ _ _ _ _)).trans (fire_notRaised fired)
    exact sets.trans (fire_notRaised enforced)
  · simp only [Option.bind_eq_bind, Option.bind_eq_some_iff] at changed
    rcases changed with ⟨handled, fired, kept, survives, enforced⟩
    have removes : NotRaised receipt state handled :=
      (NotRaised.of_eq (removeModeInternal_created _ _ _ _ _ _)).trans (fire_notRaised fired)
    cases eq_of_afterRemove survives
    exact removes.trans (fire_notRaised enforced)

theorem changeModes_notRaised {ts : Int} {modes : Str} {position : Nat} {add : Option Bool}
    {params : List Str} {state next : Registered μ υ}
    (changed : changeModes protocol receipt ts position add params modes state = some next) :
    NotRaised receipt state next := by
  induction modes generalizing position add params state with
  | nil =>
      cases changed
      exact .refl _
  | cons mchar modes ih =>
      unfold changeModes at changed
      split at changed
      · exact ih changed
      · split at changed
        · exact ih changed
        · split at changed
          · split at changed
            · exact ih changed
            · rw [Option.bind_eq_some_iff] at changed
              rcases changed with ⟨between, first, rest⟩
              exact (changeMode_notRaised first).trans (ih rest)
          · exact ih changed

theorem joinUsers_notRaised {ts : Int} {users : List (Finset μ × υ)} {position : Nat}
    {state next : Registered μ υ}
    (joined : joinUsers protocol receipt ts position users state = some next) :
    NotRaised receipt state next := by
  induction users generalizing position state with
  | nil =>
      cases joined
      exact .refl _
  | cons entry users ih =>
      unfold joinUsers at joined
      split at joined
      · exact ih joined
      · rw [Option.bind_eq_some_iff] at joined
        rcases joined with ⟨between, first, rest⟩
        exact (NotRaised.of_eq rfl).trans ((fire_notRaised first).trans (ih rest))

/-- What the timestamp makes of the creation time of a channel. -/
def settled (ts created : Int) : Int :=
  if ts = 0 then created else min created ts

theorem setModesInternal_settles {modes : Str} {params : List Str} {ts : Int}
    {enforceMlock : Bool} {state next : Registered μ υ}
    (ran : setModesInternal protocol receipt modes params ts enforceMlock state = some next) :
    SettlesAt receipt (settled ts state.channel.created) next := by
  unfold setModesInternal at ran
  split at ran
  next newer =>
    cases ran
    have kept : settled ts state.channel.created = state.channel.created := by
      rw [settled, if_neg newer.1, min_eq_left newer.2.le]
    rw [kept]
    exact NotRaised.refl state
  next notNewer =>
    simp only [Option.bind_eq_some_iff] at ran
    rcases ran with ⟨begun, beginning, changed, changing, rest⟩
    have begins : SettlesAt receipt (settled ts state.channel.created) begun := by
      split at beginning
      next older =>
        rw [settled, if_neg older.1, min_eq_right older.2.le]
        exact reset_notRaised beginning
      next notOlder =>
        cases beginning
        have kept : settled ts state.channel.created = state.channel.created := by
          unfold settled
          grind
        rw [kept]
        exact NotRaised.refl state
    have changes := begins.trans (changeModes_notRaised changing)
    split at rest
    · exact changes.trans (fire_notRaised rest)
    · cases rest
      exact changes

/-- The creation time to which a message takes a channel, and with which it
creates one. -/
def expected (receipt : Receipt μ υ) (ts : Int) : Option (Registered μ υ) → Int
  | none => if ts ≠ 0 then ts else receipt.context.curTime
  | some state => settled ts state.channel.created

theorem arrive_settles {ts : Int} {before : Option (Registered μ υ)} {state : Registered μ υ}
    {keep : Bool} (arrived : arrive protocol receipt ts before = some (state, keep)) :
    SettlesAt receipt (expected receipt ts before) state ∧
      (keep = true → ts = 0 ∨ state.channel.created ≤ ts) := by
  cases before with
  | none =>
      simp only [arrive, Option.bind_eq_bind, Option.bind_eq_some_iff] at arrived
      rcases arrived with ⟨made, creating, rest⟩
      cases rest
      have creates := fire_notRaised creating
      refine ⟨creates, fun _ => ?_⟩
      have atMost := creates.1
      dsimp only at atMost ⊢
      grind
  | some old =>
      simp only [arrive] at arrived
      split at arrived
      next noTs =>
        cases arrived
        rw [expected, settled, if_pos noTs]
        exact ⟨NotRaised.refl state, fun _ => .inl noTs⟩
      next hasTs =>
        rw [expected, settled, if_neg hasTs]
        split at arrived
        next older =>
          rw [Option.bind_eq_bind, Option.bind_eq_some_iff] at arrived
          rcases arrived with ⟨cleared, clearing, rest⟩
          cases rest
          have clears := reset_notRaised clearing
          rw [min_eq_right older.le]
          exact ⟨clears, fun _ => .inr clears.1⟩
        next notOlder =>
          split at arrived
          next newer =>
            cases arrived
            rw [min_eq_left newer.le]
            exact ⟨NotRaised.refl state, fun keeps => by cases keeps⟩
          next notNewer =>
            cases arrived
            rw [min_eq_left (not_lt.mp notOlder)]
            exact ⟨NotRaised.refl state, fun _ => .inr (not_lt.mp notOlder)⟩

theorem acceptBurst_notRaised {ts : Int} {modes : Str} {params : List Str}
    {users : List (Finset μ × υ)} {keep : Bool} {state next : Registered μ υ}
    (notNewer : keep = true → ts = 0 ∨ state.channel.created ≤ ts)
    (admitted : acceptBurst protocol receipt ts modes params users keep state = some next) :
    NotRaised receipt state next := by
  simp only [acceptBurst, Option.bind_eq_some_iff] at admitted
  rcases admitted with ⟨changed, changing, joined, joining, rest⟩
  have changes : NotRaised receipt state changed := by
    split at changing
    next keeps =>
      have settles := setModesInternal_settles changing
      have same : settled ts state.channel.created = state.channel.created := by
        rcases notNewer keeps.1 with noTs | atMost
        · rw [settled, if_pos noTs]
        · rw [settled, min_eq_left atMost, ite_self]
      rwa [same] at settles
    next =>
      cases changing
      exact .refl state
  have joins := changes.trans (joinUsers_notRaised joining)
  split at rest
  · have synced := fire_notRaised rest
    exact joins.trans synced
  · cases rest
    exact joins

theorem receive_settles {before : Option (Registered μ υ)} {message : Message μ υ}
    {next : Registered μ υ} (received : receive protocol receipt before message = some next) :
    SettlesAt receipt (expected receipt message.ts before) next := by
  cases message with
  | sjoin ts modes params users =>
      rw [receive, sjoin, Option.bind_eq_some_iff] at received
      rcases received with ⟨⟨state, keep⟩, arrived, admitted⟩
      have arrives := arrive_settles arrived
      exact arrives.1.trans (acceptBurst_notRaised arrives.2 admitted)
  | mode ts modes params enforceMlock =>
      rw [receive, Option.bind_eq_some_iff] at received
      rcases received with ⟨state, rfl, ran⟩
      exact setModesInternal_settles ran

/-! ## Newer and older messages -/

/-- On a channel that is older than the message no status is accepted, also
when handlers change the channel between two users. -/
theorem joinUsers_of_newer {ts : Int} {users : List (Finset μ × υ)} {position : Nat}
    {state : Registered μ υ} (newer : state.channel.created < ts) :
    joinUsers protocol receipt ts position users state =
      joinUsers protocol receipt ts position (users.map fun entry => (∅, entry.2)) state := by
  induction users generalizing position state with
  | nil => rfl
  | cons entry users ih =>
      rcases entry with ⟨status, user⟩
      rw [List.map_cons, joinUsers, joinUsers]
      split
      · exact ih newer
      · simp only [not_le.mpr newer, if_false, ite_self]
        apply Option.bind_congr
        intro next fired
        exact ih (lt_of_le_of_lt (fire_notRaised fired).1 newer)

theorem receive_of_newer {state : Registered μ υ} {message : Message μ υ}
    (hasTs : message.ts ≠ 0) (newer : state.channel.created < message.ts) :
    receive protocol receipt (some state) message =
      receive protocol receipt (some state) message.bare := by
  cases message with
  | sjoin ts modes params users =>
      have arrived : arrive protocol receipt ts (some state) = some (state, false) := by
        simp only [Message.ts] at hasTs newer
        simp only [arrive, hasTs, newer, newer.not_gt, if_true, if_false]
      simp only [Message.bare, receive, sjoin, arrived, Option.bind_some, acceptBurst,
        Bool.false_eq_true, false_and, if_false]
      exact congrArg (Option.bind · _) (joinUsers_of_newer newer)
  | mode ts modes params enforceMlock =>
      have dropped : ts ≠ 0 ∧ state.channel.created < ts := ⟨hasTs, newer⟩
      simp only [Message.bare, receive, Option.bind_some, setModesInternal, if_pos dropped]

theorem receive_of_older {state : Registered μ υ} {message : Message μ υ}
    (hasTs : message.ts ≠ 0) (older : message.ts < state.channel.created) :
    receive protocol receipt (some state) message =
      receive protocol receipt
        (some { state with channel := state.channel.forget receipt.own }) message := by
  have same : reset protocol receipt
      { state with channel := { state.channel.forget receipt.own with created := message.ts } } =
      reset protocol receipt
        { state with channel := { state.channel with created := message.ts } } :=
    reset_forget { state with channel := { state.channel with created := message.ts } }
  have created : (state.channel.forget receipt.own).created = state.channel.created := rfl
  cases message with
  | sjoin ts modes params users =>
      simp only [Message.ts] at hasTs older same
      simp only [receive, sjoin, arrive, hasTs, created, older, if_true, if_false, same]
  | mode ts modes params enforceMlock =>
      simp only [Message.ts] at hasTs older same
      simp only [receive, Option.bind_some, setModesInternal, created, hasTs, older,
        older.not_gt, ne_eq, not_false_eq_true, and_false, true_and, if_true, if_false, same]

/-! ## The rule -/

/-- What the timestamp of a message demands of the channel before and behind it:
`exact` when the creation time has to be the minimum, and `kept` the members
that do not lose their status to an older message. -/
structure TimestampRule (exact : Prop) (kept : υ → Bool) (protocol : Protocol μ)
    (receipt : Receipt μ υ) (message : Message μ υ) (before after : Option (Registered μ υ)) :
    Prop where
  atMost : ∀ next, after = some next → next.channel.created ≤ expected receipt message.ts before
  minimum : exact → ∀ next, after = some next →
    next.channel.created = expected receipt message.ts before
  newer : ∀ state, before = some state → message.ts ≠ 0 → state.channel.created < message.ts →
    after = receive protocol receipt before message.bare
  older : ∀ state, before = some state → message.ts ≠ 0 → message.ts < state.channel.created →
    after = receive protocol receipt (some { state with channel := state.channel.forget kept })
      message

theorem receive_timestampRule (protocol : Protocol μ) (receipt : Receipt μ υ)
    (message : Message μ υ) (before : Option (Registered μ υ)) :
    TimestampRule receipt.handlers.NeverLower receipt.own protocol receipt message before
      (receive protocol receipt before message) where
  atMost _ received := (receive_settles received).1
  minimum never _ received := (receive_settles received).2 never
  newer state found hasTs isNewer := by
    subst found
    exact receive_of_newer hasTs isNewer
  older state found hasTs isOlder := by
    subst found
    exact receive_of_older hasTs isOlder

/-- Whatever messages arrive in whatever order, each of them obeys the
timestamp rule. -/
theorem eachStep_timestampRule (protocol : Protocol μ)
    (messages : List (Receipt μ υ × Message μ υ)) (before : Option (Registered μ υ)) :
    EachStep (fun state received => some (receive protocol received.1 state received.2))
      (fun state received =>
        TimestampRule received.1.handlers.NeverLower received.1.own protocol received.1
          received.2 state (receive protocol received.1 state received.2))
      before messages :=
  eachStep_of_forall fun state (received : Receipt μ υ × Message μ υ) =>
    receive_timestampRule protocol received.1 received.2 state

end Burst

/-! ## A bot with a status -/

/-- A protocol with the mode `OP`. -/
def opOnly : Protocol Unit where
  casemap := .ascii
  manager :=
    { mode _ := ⟨ascii "OP", 111, .status, false, none⟩
      listeners _ := []
      wrapParam _ value := value
      unwrapParam _ _ _ := none
      isValid _ value := some value
      name_inj _ := rfl }
  findModeByChar c := if c = 111 then some () else none

/-- A message of another server to a program whose only user is its bot, with no
handlers. -/
def botReceipt : Receipt Unit Unit where
  context :=
    { curTime := 200
      me := ascii "services.example"
      findUser _ := none
      findBot _ := none }
  source := ascii "hub.example"
  sourceSynced := true
  own _ := true
  handlers := { calls _ := [], vetoDelete _ := false }

/-- A channel created at 100 on which the bot is opped. -/
def botOpped : Registered Unit Unit where
  channel := { created := 100, modes := .empty, users := AList.singleton () {()} }
  syncing := false

/-- A burst with an older timestamp does not clear the status of the bot. -/
theorem not_timestampRule_bot_opped :
    ¬TimestampRule True (fun _ => false) opOnly botReceipt (.sjoin 50 [] [] []) (some botOpped)
      (receive opOnly botReceipt (some botOpped) (.sjoin 50 [] [] [])) := by
  intro rule
  have cleared := rule.older botOpped rfl (by decide) (by decide)
  have status := congrArg (Option.map fun state => state.channel.users.lookup ()) cleared
  exact absurd status (by decide +kernel)

end Anope.Channel
