import Anope.Bridge.Service.Clients

/-!
# Nicknames that several bridges reserve

A nickname that a bridge gives up is removed on the IRCd unless another bridge reserves it.  The
service compares the spelling there, and the IRCd does not.
-/

namespace Anope.BridgeServ

open Library.Run

/-- A bridge reserves a nickname, as IRC compares nicknames. -/
def Bridge.reserves (env : Env) (bridge : Bridge) (nick : Str) : Bool :=
  bridge.reserved.any fun held => env.casemap.equalsCi held nick

/-- The bridge that goes on when an action gives up a nickname of it. -/
def releasedBy : Action → Option Nat
  | .arrive id _ _ _ => some id
  | _ => none

/-- What an action removes on the IRCd is reserved by no other bridge. -/
def RemovesSafely (env : Env) (state : State) (action : Action) : Prop :=
  ∀ next, step env state action = some next → ∀ nick, .remove nick ∈ next.sent →
    ∀ other ∈ next.bridges, releasedBy action ≠ some other.id → other.reserves env nick = false

/-- Whether there is no client with a user for a remote user. -/
def isMissing (state : State) (key display : Str) : Bool :=
  (state.clients.lookup key).all fun client =>
    decide (client.display ≠ display) && client.user.isNone

/-- The nickname that a client collides with, if it is introduced. -/
def collidingNick (env : Env) (state : State) (bridge : Bridge) (userId display : Str)
    (naming : Naming) : Option Str :=
  (clientKey env bridge userId).bind fun key =>
    if isMissing state key display && naming.linked && naming.collides then naming.nick else none

/-- The nicknames that an action gives up, and the bridge that they are reserved for. -/
def givenUp (env : Env) (state : State) : Action → Option (Nat × List Str)
  | .del ircChannel => (findIrc env state ircChannel).map fun bridge => (bridge.id, bridge.reserved)
  | .arrive id userId display naming =>
      (findBridge state id).bind fun bridge =>
        (collidingNick env state bridge userId display naming).map fun nick => (id, [nick])
  | _ => none

/-- Where another bridge reserves a nickname that is given up, another one reserves it in the same
spelling. -/
def SameSpelling (env : Env) (state : State) (action : Action) : Prop :=
  env.canSQLine = true → state.synced = true →
    ∀ id nicks, givenUp env state action = some (id, nicks) → ∀ nick ∈ nicks,
      ∀ other ∈ state.bridges, other.id ≠ id → other.reserves env nick = true →
        ∃ holder ∈ state.bridges, holder.id ≠ id ∧ holder.reserved.contains nick = true

/-! ## Operations that remove nothing -/

/-- No nickname is removed on the IRCd. -/
def Quiet (before after : State) : Prop :=
  ∀ nick, .remove nick ∈ after.sent ↔ .remove nick ∈ before.sent

namespace Quiet

variable {before middle after : State}

theorem of_eq (same : after.sent = before.sent) : Quiet before after := by
  intro nick
  rw [same]

theorem refl (state : State) : Quiet state state :=
  of_eq rfl

theorem trans (left : Quiet before middle) (right : Quiet middle after) : Quiet before after :=
  fun nick => (right nick).trans (left nick)

theorem foldl {ι : Type} {change : State → ι → State}
    (quiet : ∀ state item, Quiet state (change state item)) (items : List ι) (state : State) :
    Quiet state (items.foldl change state) := by
  refine List.foldlRecOn (motive := Quiet state) items change (refl state) ?_
  intro between before item _
  exact before.trans (quiet between item)

end Quiet

section Operations

variable (env : Env) (state : State)

theorem quiet_sendReservation_add (nick : Str) :
    Quiet state (sendReservation env (.add nick) state) := by
  rw [sendReservation]
  split
  · intro removed
    refine List.mem_append.trans (or_iff_left fun new => ?_)
    cases List.mem_singleton.mp new
  · exact .refl state

theorem quiet_reserveNick (id : Nat) (nick : Str) :
    Quiet state (reserveNick env id nick state) := by
  rw [reserveNick]
  exact .trans (.of_eq rfl) (quiet_sendReservation_add env _ nick)

theorem quiet_ensureJoin (key name : Str) : Quiet state (ensureJoin env key name state) := by
  rw [ensureJoin]
  split
  · exact .refl state
  · split
    · exact .refl state
    · exact .of_eq rfl

theorem quiet_partClient (client : BridgeClient) (name : Str) :
    Quiet state (partClient env client name state) := by
  rw [partClient]
  split
  · exact .of_eq rfl
  · exact .of_eq rfl

theorem quiet_quitUser (user : Nat) : Quiet state (quitUser user state) := by
  rw [quitUser, onUserQuit]
  split
  · exact .of_eq rfl
  · exact .of_eq rfl

theorem quiet_removeClient (client : BridgeClient) :
    Quiet state (removeClient client state) := by
  rw [removeClient]
  split
  · exact .of_eq rfl
  · exact quiet_quitUser state _

theorem quiet_rename (bridge : Bridge) (key : Str) (user : User) (display : Str)
    (naming : Naming) : Quiet state (rename env bridge key user display naming state) := by
  rw [rename]
  refine Quiet.trans ?_ (.of_eq rfl)
  split
  · exact .refl state
  · rename_i nick _
    split
    · exact .refl state
    · exact (quiet_reserveNick env state bridge.id nick).trans (.of_eq rfl)

theorem quiet_setClientAway (client : BridgeClient) (away : Bool) :
    Quiet state (setClientAway client away state) := by
  rw [setClientAway]
  split
  · exact .refl state
  · exact .of_eq rfl

theorem quiet_removeAllClients : Quiet state (removeAllClients state) := by
  have removed : Quiet state
      (state.clients.entries.foldl (fun state entry => removeClient entry.2 state) state) := by
    refine .foldl ?_ _ state
    exact fun state entry => quiet_removeClient state entry.2
  exact removed.trans (.of_eq rfl)

theorem quiet_pruneChannels : Quiet state (pruneChannels env state) :=
  .foldl (fun state _ => .foldl (fun state _ => quiet_partClient env state _ _) _ state) _ state

theorem quiet_retireClient (bridge : Bridge) (client : BridgeClient) :
    Quiet state (retireClient env bridge state client) := by
  have parted := quiet_partClient env state client bridge.ircChannel
  rw [retireClient]
  split
  · exact parted.trans (quiet_removeClient _ client)
  · exact parted

theorem quiet_retireClients (bridge : Bridge) : Quiet state (retireClients env bridge state) :=
  .foldl (fun state client => quiet_retireClient env state bridge client) _ state

end Operations

/-! ## Releasing -/

/-- Of the nicknames that a bridge gives up, those are removed that no other bridge holds. -/
structure Releases (env : Env) (id : Nat) (nicks : List Str) (before after : State) : Prop where
  removed : ∀ nick, .remove nick ∈ after.sent ↔ .remove nick ∈ before.sent ∨
    (env.canSQLine = true ∧ before.synced = true) ∧ nick ∈ nicks ∧
      heldElsewhere before id nick = false
  bridges : after.bridges = before.bridges

section Releasing

variable {env : Env} {state next : State} {id : Nat}

theorem bridges_sendReservation (reservation : Reservation) :
    (sendReservation env reservation state).bridges = state.bridges := by
  rw [sendReservation]
  split <;> rfl

theorem synced_sendReservation (reservation : Reservation) :
    (sendReservation env reservation state).synced = state.synced := by
  rw [sendReservation]
  split <;> rfl

theorem releases_nil (state : State) : Releases env id [] state state where
  removed := by simp
  bridges := rfl

theorem releases_releaseNick (nick : Str) :
    Releases env id [nick] state (releaseNick env id state nick) := by
  rw [releaseNick]
  cases held : heldElsewhere state id nick with
  | true =>
      refine ⟨fun removed => (or_iff_left ?_).symm, rfl⟩
      rintro ⟨_, mem, free⟩
      rw [List.mem_singleton.mp mem, held] at free
      cases free
  | false =>
      refine ⟨fun removed => ?_, bridges_sendReservation _⟩
      rw [if_neg Bool.false_ne_true, sendReservation]
      split
      · rename_i sends
        rw [List.mem_append, List.mem_singleton, Reservation.remove.injEq]
        refine or_congr_right ⟨?_, fun is => List.mem_singleton.mp is.2.1⟩
        rintro rfl
        exact ⟨sends, List.mem_singleton_self _, held⟩
      · rename_i silent
        exact (or_iff_left fun is => silent is.1).symm

theorem synced_releaseNick (nick : Str) :
    (releaseNick env id state nick).synced = state.synced := by
  rw [releaseNick]
  split
  · rfl
  · exact synced_sendReservation _

theorem Releases.cons {nick : Str} {nicks : List Str} {middle : State}
    (first : Releases env id [nick] state middle) (synced : middle.synced = state.synced)
    (rest : Releases env id nicks middle next) : Releases env id (nick :: nicks) state next where
  removed := by
    intro removed
    have same : heldElsewhere middle id removed = heldElsewhere state id removed := by
      rw [heldElsewhere, heldElsewhere, first.bridges]
    rw [rest.removed, first.removed, same, synced, List.mem_singleton, List.mem_cons]
    tauto
  bridges := rest.bridges.trans first.bridges

theorem releases_releaseNicks (nicks : List Str) (state : State) :
    Releases env id nicks state (nicks.foldl (releaseNick env id) state) := by
  induction nicks generalizing state with
  | nil => exact releases_nil state
  | cons nick nicks ih =>
      exact (releases_releaseNick nick).cons (synced_releaseNick nick) (ih _)

theorem Releases.trans_quiet {nicks : List Str} {middle : State}
    (releases : Releases env id nicks state middle) (quiet : Quiet middle next)
    (bridges : next.bridges = middle.bridges) : Releases env id nicks state next where
  removed := fun nick => (quiet nick).trans (releases.removed nick)
  bridges := bridges.trans releases.bridges

theorem heldElsewhere_iff (state : State) (id : Nat) (nick : Str) :
    heldElsewhere state id nick = true ↔
      ∃ holder ∈ state.bridges, holder.id ≠ id ∧ holder.reserved.contains nick = true := by
  rw [heldElsewhere, List.any_eq_true]
  refine exists_congr fun holder => and_congr_right fun _ => ?_
  rw [Bool.and_eq_true, decide_eq_true_eq]

/-- Nothing is removed, and no bridge but this one is changed. -/
structure Around (id : Nat) (before after : State) : Prop where
  quiet : Quiet before after
  synced : after.synced = before.synced
  others : ∀ other, other.id ≠ id → (other ∈ after.bridges ↔ other ∈ before.bridges)

/-- The nicknames that are removed are safe exactly when the spelling does not matter. -/
theorem safe_iff_of_releases {nicks : List Str} {middle : State} (around : Around id state middle)
    (releases : Releases env id nicks middle next) (fresh : state.sent = []) :
    (∀ nick, .remove nick ∈ next.sent → ∀ other ∈ next.bridges, other.id ≠ id →
      other.reserves env nick = false) ↔
      (env.canSQLine = true → state.synced = true → ∀ nick ∈ nicks, ∀ other ∈ state.bridges,
        other.id ≠ id → other.reserves env nick = true →
          ∃ holder ∈ state.bridges, holder.id ≠ id ∧ holder.reserved.contains nick = true) := by
  have removed (nick : Str) : .remove nick ∈ next.sent ↔
      (env.canSQLine = true ∧ state.synced = true) ∧ nick ∈ nicks ∧
        heldElsewhere middle id nick = false := by
    rw [releases.removed, around.quiet, fresh, around.synced]
    exact or_iff_right List.not_mem_nil
  have held (nick : Str) : heldElsewhere middle id nick = true ↔
      ∃ holder ∈ state.bridges, holder.id ≠ id ∧ holder.reserved.contains nick = true := by
    rw [heldElsewhere_iff]
    refine exists_congr fun holder => ?_
    rw [← and_assoc, ← and_assoc]
    refine and_congr_left fun _ => ?_
    exact and_congr_left fun differs => around.others holder differs
  constructor
  · intro safe sends synced nick mem other memOther differs reserves
    rw [← held, ← Bool.not_eq_false]
    intro free
    have memNext : other ∈ next.bridges := by
      rw [releases.bridges]
      exact (around.others other differs).mpr memOther
    have isRemoved := (removed nick).mpr ⟨⟨sends, synced⟩, mem, free⟩
    rw [safe nick isRemoved other memNext differs] at reserves
    cases reserves
  · intro spelled nick isRemoved other memOther differs
    rcases (removed nick).mp isRemoved with ⟨⟨sends, synced⟩, mem, free⟩
    rw [releases.bridges, around.others other differs] at memOther
    refine Bool.eq_false_iff.mpr fun reserves => ?_
    have isHeld := (held nick).mpr (spelled sends synced nick mem other memOther differs reserves)
    rw [free] at isHeld
    cases isHeld

end Releasing

/-! ## A client that collides -/

section Colliding

variable {env : Env} {state : State}

theorem Around.trans {id : Nat} {before middle after : State} (left : Around id before middle)
    (right : Around id middle after) : Around id before after where
  quiet := left.quiet.trans right.quiet
  synced := right.synced.trans left.synced
  others := fun other differs => (right.others other differs).trans (left.others other differs)

theorem around_of_eq {id : Nat} {before after : State} (quiet : Quiet before after)
    (synced : after.synced = before.synced) (bridges : after.bridges = before.bridges) :
    Around id before after where
  quiet := quiet
  synced := synced
  others := fun other _ => by rw [bridges]

theorem around_modifyBridge (state : State) (id : Nat) {change : Bridge → Bridge}
    (same : ∀ bridge, (change bridge).id = bridge.id) :
    Around id state (state.modifyBridge id change) where
  quiet := .of_eq rfl
  synced := rfl
  others := by
    intro other differs
    refine List.mem_map.trans ⟨?_, fun mem => ⟨other, mem, if_neg differs⟩⟩
    rintro ⟨old, mem, rfl⟩
    by_cases isOld : old.id = id
    · rw [if_pos isOld] at differs
      exact absurd ((same old).trans isOld) differs
    · rwa [if_neg isOld]

theorem around_sendReservation_add (id : Nat) (nick : Str) :
    Around id state (sendReservation env (.add nick) state) :=
  around_of_eq (quiet_sendReservation_add env state nick) (synced_sendReservation _)
    (bridges_sendReservation _)

theorem around_reserveNick (env : Env) (state : State) (id : Nat) (nick : Str) :
    Around id state (reserveNick env id nick state) := by
  rw [reserveNick]
  refine Around.trans ?_ (around_sendReservation_add id nick)
  exact around_modifyBridge state id fun _ => rfl

/-- The nickname of a client that collides is given up again. -/
theorem introduce_releases_cases (env : Env) (state : State) (bridge : Bridge)
    (key userId display : Str) (naming : Naming) :
    ((if naming.linked && naming.collides then naming.nick else none) = none ∧
        Quiet state (introduce env bridge key userId display naming state).1) ∨
      ∃ nick middle,
        (if naming.linked && naming.collides then naming.nick else none) = some nick ∧
          (introduce env bridge key userId display naming state).2 = false ∧
            Around bridge.id state middle ∧ Releases env bridge.id [nick] middle
              (introduce env bridge key userId display naming state).1 := by
  rw [introduce.eq_def]
  cases naming.linked with
  | false => exact Or.inl ⟨rfl, .refl state⟩
  | true =>
      cases naming.nick with
      | none => exact Or.inl ⟨ite_self none, .refl state⟩
      | some nick =>
          have reserved := around_reserveNick env state bridge.id nick
          cases naming.collides with
          | false => exact Or.inl ⟨rfl, reserved.quiet.trans (.of_eq rfl)⟩
          | true =>
              refine Or.inr ⟨nick, _, rfl, rfl, reserved.trans ?_, releases_releaseNick nick⟩
              exact around_modifyBridge _ bridge.id fun _ => rfl

/-- A client is only introduced where there is none. -/
theorem ensureClient_missing_cases (env : Env) (state : State) (bridge : Bridge)
    (key userId display : Str) (naming : Naming) :
    (isMissing state key display = false ∧
        Quiet state (ensureClient env bridge key userId display naming state).1) ∨
      isMissing state key display = true ∧ ∃ before, Around bridge.id state before ∧
        ensureClient env bridge key userId display naming state =
          introduce env bridge key userId display naming before := by
  rw [isMissing, ensureClient.eq_def]
  split
  · rename_i missing
    rw [missing]
    exact Or.inr ⟨rfl, state, around_of_eq (.refl state) rfl rfl, rfl⟩
  · rename_i client found
    rw [found]
    split
    · rename_i same
      refine Or.inl ⟨?_, .refl state⟩
      rw [Option.all_some, decide_eq_false (not_not_intro same), Bool.false_and]
    · rename_i differs
      split
      · rename_i noUser
        refine Or.inr ⟨?_, removeClient client state, around_of_eq (quiet_removeClient state client)
          ?_ (bridges_removeClient client), rfl⟩
        · rw [Option.all_some, decide_eq_true differs, noUser]
          rfl
        · rw [removeClient, noUser]
      · rename_i user isUser
        refine Or.inl ⟨?_, quiet_rename env state bridge key user display naming⟩
        rw [Option.all_some, isUser, Option.isNone_some, Bool.and_false]

/-- What `EnsureClient` and `EnsureJoin` remove is the nickname of a client that collides. -/
theorem arrive_releases (env : Env) (state : State) (bridge : Bridge) (userId display : Str)
    (naming : Naming) :
    (collidingNick env state bridge userId display naming = none ∧
        Quiet state (arrive env bridge userId display naming state)) ∨
      ∃ nick middle, collidingNick env state bridge userId display naming = some nick ∧
        Around bridge.id state middle ∧
          Releases env bridge.id [nick] middle (arrive env bridge userId display naming state) := by
  rw [collidingNick, arrive.eq_def]
  cases isKey : clientKey env bridge userId with
  | none => exact Or.inl ⟨rfl, .refl state⟩
  | some key =>
      dsimp only
      rw [Option.bind_some]
      have joined (middle : State × Bool) (quiet : Quiet state middle.1) :
          Quiet state (if middle.2 = true then ensureJoin env key bridge.ircChannel middle.1
            else middle.1) := by
        split
        · exact quiet.trans (quiet_ensureJoin env _ key bridge.ircChannel)
        · exact quiet
      rcases ensureClient_missing_cases env state bridge key userId display naming with
        ⟨known, quiet⟩ | ⟨missing, before, around, isIntroduce⟩
      · refine Or.inl ⟨?_, joined _ quiet⟩
        rw [known, Bool.false_and, Bool.false_and, if_neg Bool.false_ne_true]
      · rw [missing, isIntroduce, Bool.true_and]
        rcases introduce_releases_cases env before bridge key userId display naming with
          ⟨isNone, quiet⟩ | ⟨nick, middle, isSome, failed, around', releases⟩
        · exact Or.inl ⟨isNone, joined _ (around.quiet.trans quiet)⟩
        · refine Or.inr ⟨nick, middle, isSome, around.trans around', ?_⟩
          rw [failed, if_neg Bool.false_ne_true]
          exact releases

end Colliding

/-! ## Actions -/

section Actions

variable {env : Env} {state next : State} {action : Action}

theorem bridges_pruneChannels (env : Env) (state : State) :
    (pruneChannels env state).bridges = state.bridges := by
  have parted (client : BridgeClient) (chans : List Str) (middle : State) :
      (chans.foldl (fun state chan => partClient env client chan state) middle).bridges =
        middle.bridges :=
    List.foldlRecOn (motive := fun after : State => after.bridges = middle.bridges) chans _ rfl
      fun _ same chan _ => (bridges_partClient client chan).trans same
  exact List.foldlRecOn (motive := fun after : State => after.bridges = state.bridges) _ _ rfl
    fun middle same entry _ => (parted entry.2 _ middle).trans same

theorem dropBridge_releases (env : Env) (bridge : Bridge) (state : State) :
    ∃ middle, Around bridge.id state middle ∧ (∀ other ∈ middle.bridges, other.id ≠ bridge.id) ∧
      Releases env bridge.id bridge.reserved middle (dropBridge env bridge state) := by
  refine ⟨{ state with bridges := state.bridges.filter fun other => other.id ≠ bridge.id },
    ⟨.of_eq rfl, rfl, ?_⟩, ?_, ?_⟩
  · intro other differs
    exact List.mem_filter.trans (and_iff_left (decide_eq_true differs))
  · exact fun other mem => of_decide_eq_true (List.mem_filter.mp mem).2
  · exact (releases_releaseNicks bridge.reserved _).trans_quiet (quiet_pruneChannels env _)
      (bridges_pruneChannels env _)

theorem id_of_findBridge {bridge : Bridge} {id : Nat} (found : findBridge state id = some bridge) :
    bridge.id = id := by
  have tested := List.find?_some found
  rwa [decide_eq_true_eq] at tested

theorem quiet_withClient {bridge : Bridge} {userId : Str} {change : BridgeClient → State}
    (quiet : ∀ client, Quiet state (change client)) :
    Quiet state (withClient env state bridge userId change) := by
  rw [withClient]
  split
  · exact .refl state
  · exact quiet _

/-- What an action removes are nicknames that it gives up. -/
theorem act_releases (stepped : act env state action = some next) :
    (givenUp env state action = none ∧ Quiet state next) ∨
      ∃ id nicks middle, givenUp env state action = some (id, nicks) ∧ Around id state middle ∧
        Releases env id nicks middle next ∧
          ∀ other ∈ next.bridges, releasedBy action ≠ some other.id ↔ other.id ≠ id := by
  cases action with
  | add ircChannel space foreignChannel suffix =>
      rcases act_add_cases stepped with rfl | ⟨_, _, rfl⟩
      · exact Or.inl ⟨rfl, .refl _⟩
      · exact Or.inl ⟨rfl, .of_eq rfl⟩
  | set ircChannel space foreignChannel suffix =>
      rcases act_set_cases stepped with rfl | ⟨bridge, _, _, rfl⟩
      · exact Or.inl ⟨rfl, .refl _⟩
      · exact Or.inl ⟨rfl, .trans (.of_eq rfl) (quiet_retireClients env _ bridge)⟩
  | del ircChannel =>
      rw [givenUp]
      rcases act_del_cases stepped with ⟨isNone, rfl⟩ | ⟨bridge, isBridge, rfl⟩
      · rw [isNone]
        exact Or.inl ⟨rfl, .refl _⟩
      · rw [isBridge]
        rcases dropBridge_releases env bridge state with ⟨middle, around, gone, releases⟩
        refine Or.inr ⟨bridge.id, bridge.reserved, middle, rfl, around, releases, ?_⟩
        intro other mem
        rw [releases.bridges] at mem
        exact iff_of_true (by rintro ⟨⟩) (gone other mem)
  | load row =>
      rcases act_load_cases stepped with rfl | rfl
      · exact Or.inl ⟨rfl, .refl _⟩
      · exact Or.inl ⟨rfl, .of_eq rfl⟩
  | update row =>
      rcases act_update_cases stepped with rfl | rfl
      · exact Or.inl ⟨rfl, .refl _⟩
      · exact Or.inl ⟨rfl, .of_eq rfl⟩
  | arrive id userId display naming =>
      rcases Option.map_eq_some_iff.mp stepped with ⟨bridge, found, rfl⟩
      have isId := id_of_findBridge found
      rw [givenUp, found, Option.bind_some]
      rcases arrive_releases env state bridge userId display naming with
        ⟨isNone, quiet⟩ | ⟨nick, middle, isSome, around, releases⟩
      · rw [isNone]
        exact Or.inl ⟨rfl, quiet⟩
      · rw [isSome]
        subst isId
        refine Or.inr ⟨bridge.id, [nick], middle, rfl, around, releases, fun other _ => ?_⟩
        rw [releasedBy, ne_eq, Option.some.injEq, eq_comm]
  | appear id userId =>
      rcases Option.map_eq_some_iff.mp stepped with ⟨bridge, _, rfl⟩
      exact Or.inl ⟨rfl, quiet_withClient fun client => quiet_ensureJoin env state _ _⟩
  | leave id userId =>
      rcases Option.map_eq_some_iff.mp stepped with ⟨bridge, _, rfl⟩
      exact Or.inl ⟨rfl, quiet_withClient fun client => quiet_removeClient state client⟩
  | presence id userId away =>
      rcases Option.map_eq_some_iff.mp stepped with ⟨bridge, _, rfl⟩
      exact Or.inl ⟨rfl, quiet_withClient fun client => quiet_setClientAway state client away⟩
  | removeAll =>
      cases stepped
      exact Or.inl ⟨rfl, quiet_removeAllClients state⟩
  | quit user =>
      cases stepped
      exact Or.inl ⟨rfl, quiet_quitUser state user⟩
  | part user name =>
      cases stepped
      exact Or.inl ⟨rfl, .of_eq rfl⟩
  | nick user nick =>
      cases stepped
      exact Or.inl ⟨rfl, .of_eq rfl⟩
  | create name =>
      rw [act_create_eq stepped]
      exact Or.inl ⟨rfl, .of_eq rfl⟩
  | destroy name =>
      rw [act_destroy_eq stepped]
      exact Or.inl ⟨rfl, .of_eq rfl⟩
  | split =>
      cases stepped
      exact Or.inl ⟨rfl, .of_eq rfl⟩
  | sync =>
      cases stepped
      refine Or.inl ⟨rfl, .trans (.of_eq rfl) (.foldl ?_ state.bridges _)⟩
      exact fun state bridge => .foldl (fun state _ => quiet_sendReservation_add env state _) _ state

/-- An action that is not possible gives nothing up. -/
theorem givenUp_of_act_eq_none (stuck : act env state action = none) :
    givenUp env state action = none := by
  cases action with
  | del ircChannel =>
      rw [act.eq_def] at stuck
      dsimp only at stuck
      split at stuck <;> cases stuck
  | arrive id userId display naming =>
      rw [givenUp, Option.map_eq_none_iff.mp stuck]
      rfl
  | _ => rfl

theorem removesSafely_iff (env : Env) (state : State) (action : Action) :
    RemovesSafely env state action ↔ SameSpelling env state action := by
  -- A step begins with nothing sent, which is in neither side of what is given up.
  have same : givenUp env { state with sent := [] } action = givenUp env state action := by
    cases action <;> rfl
  rw [RemovesSafely, SameSpelling, ← same, step]
  cases stepped : act env { state with sent := [] } action with
  | none =>
      rw [givenUp_of_act_eq_none stepped]
      exact iff_of_true (fun _ is => by cases is) fun _ _ _ _ is => by cases is
  | some next =>
      rcases act_releases stepped with
        ⟨isNone, quiet⟩ | ⟨id, nicks, middle, isSome, around, releases, others⟩
      · rw [isNone]
        refine iff_of_true ?_ fun _ _ _ _ is => by cases is
        rintro _ ⟨⟩ nick mem
        exact absurd ((quiet nick).mp mem) List.not_mem_nil
      · have safe := safe_iff_of_releases around releases rfl
        rw [isSome]
        constructor
        · rintro removes sends synced _ _ ⟨⟩
          refine safe.mp (fun nick mem other memOther differs => ?_) sends synced
          exact removes next rfl nick mem other memOther ((others other memOther).mpr differs)
        · rintro spelled _ ⟨⟩ nick mem other memOther differs
          have allSpelled := safe.mpr fun sends synced => spelled sends synced id nicks rfl
          exact allSpelled nick mem other memOther ((others other memOther).mp differs)

/-- In every run of the service, nothing is removed that another bridge reserves, exactly as long
as the bridges that share a nickname spell it in the same way when it is given up. -/
theorem removesSafely_iff_sameSpelling (env : Env) (state : State) (actions : List Action) :
    EachStep (step env) (RemovesSafely env) state actions ↔
      EachStep (step env) (SameSpelling env) state actions :=
  eachStep_congr (removesSafely_iff env)

/-- A nickname is removed that another bridge reserves in small letters. -/
theorem removes_other_spelling :
    ∃ actions state, run (step .lenient) .initial actions = some state ∧
      ¬RemovesSafely .lenient state (.del (ascii "#a")) := by
  have evaluated :
      ((run (step .lenient) .initial
        [.sync, .add (ascii "#a") (ascii "1") (ascii "10") [],
          .add (ascii "#b") (ascii "1") (ascii "20") [],
          .arrive 0 (ascii "42") (ascii "Zed") ⟨true, some (ascii "Zed"), false⟩, .quit 0,
          .arrive 1 (ascii "43") (ascii "zed") ⟨true, some (ascii "zed"), false⟩]).bind fun state =>
        (step .lenient state (.del (ascii "#a"))).map fun next =>
          next.sent.contains (.remove (ascii "Zed")) &&
            next.bridges.any fun other => other.reserves .lenient (ascii "Zed")) = some true := by
    decide +kernel
  rcases Option.bind_eq_some_iff.mp evaluated with ⟨state, reached, rest⟩
  rcases Option.map_eq_some_iff.mp rest with ⟨next, stepped, both⟩
  rw [Bool.and_eq_true, List.contains_iff_mem, List.any_eq_true] at both
  rcases both with ⟨removed, other, memOther, reserves⟩
  refine ⟨_, state, reached, fun removesSafely => ?_⟩
  rw [removesSafely next stepped _ removed other memOther (by rintro ⟨⟩)] at reserves
  cases reserves

end Actions

end Anope.BridgeServ
