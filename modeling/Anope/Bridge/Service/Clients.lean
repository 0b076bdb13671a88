import Anope.Bridge.Service.Core

/-!
# The records of the clients

Only an introduction makes a new record.  Everything else forgets records, or changes what does
not tell them apart.
-/

namespace Anope.BridgeServ

open Library.Table (mapValues lookup_mapValues lookup_modify_self lookup_modify_ne)

/-- The records are those of the same remote user, with the same user on IRC. -/
structure SameClient (client client' : BridgeClient) : Prop where
  key : client'.key = client.key
  userId : client'.userId = client.userId
  user : client'.user.map User.id = client.user.map User.id

/-- The keys of the clients of the bridges start in the same way. -/
structure SameKeys (bridge bridge' : Bridge) : Prop where
  protocol : bridge'.protocol = bridge.protocol
  space : bridge'.space = bridge.space
  nickSuffix : bridge'.nickSuffix = bridge.nickSuffix

theorem SameClient.refl (client : BridgeClient) : SameClient client client :=
  ⟨rfl, rfl, rfl⟩

theorem SameClient.trans {first second third : BridgeClient} (left : SameClient first second)
    (right : SameClient second third) : SameClient first third :=
  ⟨right.key.trans left.key, right.userId.trans left.userId, right.user.trans left.user⟩

theorem SameKeys.refl (bridge : Bridge) : SameKeys bridge bridge :=
  ⟨rfl, rfl, rfl⟩

theorem SameKeys.trans {first second third : Bridge} (left : SameKeys first second)
    (right : SameKeys second third) : SameKeys first third :=
  ⟨right.protocol.trans left.protocol, right.space.trans left.space,
    right.nickSuffix.trans left.nickSuffix⟩

/-- A record that is found goes back to the record before, and that one to an earlier one. -/
theorem SameClient.trans_found {before middle : Option BridgeClient} {client' : BridgeClient}
    (later : ∃ client, middle = some client ∧ SameClient client client')
    (earlier : ∀ client, middle = some client →
      ∃ first, before = some first ∧ SameClient first client) :
    ∃ first, before = some first ∧ SameClient first client' := by
  rcases later with ⟨between, foundBetween, same⟩
  rcases earlier between foundBetween with ⟨first, foundFirst, same'⟩
  exact ⟨first, foundFirst, same'.trans same⟩

/-- The same for a bridge of a list. -/
theorem SameKeys.trans_mem {before middle : List Bridge} {bridge' : Bridge}
    (later : ∃ bridge ∈ middle, SameKeys bridge bridge')
    (earlier : ∀ bridge ∈ middle, ∃ first ∈ before, SameKeys first bridge) :
    ∃ first ∈ before, SameKeys first bridge' := by
  rcases later with ⟨between, memBetween, same⟩
  rcases earlier between memBetween with ⟨first, memFirst, same'⟩
  exact ⟨first, memFirst, same'.trans same⟩

/-- Nothing is introduced and no bridge is made or pointed elsewhere. -/
structure Keeps (before after : State) : Prop where
  clients : ∀ key client', after.clients.lookup key = some client' →
    ∃ client, before.clients.lookup key = some client ∧ SameClient client client'
  bridges : ∀ bridge' ∈ after.bridges, ∃ bridge ∈ before.bridges, SameKeys bridge bridge'
  nextUser : after.nextUser = before.nextUser

namespace Keeps

variable {before middle after : State}

/-- Only the records change. -/
theorem of_clients (bridges : after.bridges = before.bridges)
    (nextUser : after.nextUser = before.nextUser)
    (clients : ∀ key client', after.clients.lookup key = some client' →
      ∃ client, before.clients.lookup key = some client ∧ SameClient client client') :
    Keeps before after where
  clients := clients
  bridges := fun bridge mem => ⟨bridge, bridges ▸ mem, .refl bridge⟩
  nextUser := nextUser

theorem of_eq (same : after.clients = before.clients) (bridges : after.bridges = before.bridges)
    (nextUser : after.nextUser = before.nextUser) : Keeps before after := by
  refine of_clients bridges nextUser fun key client found => ?_
  rw [same] at found
  exact ⟨client, found, .refl client⟩

theorem refl (state : State) : Keeps state state :=
  of_eq rfl rfl rfl

theorem trans (left : Keeps before middle) (right : Keeps middle after) : Keeps before after where
  clients := fun key client found =>
    SameClient.trans_found (right.clients key client found) (left.clients key)
  bridges := fun bridge mem => SameKeys.trans_mem (right.bridges bridge mem) left.bridges
  nextUser := right.nextUser.trans left.nextUser

theorem erase (state : State) (key : Str) :
    Keeps state { state with clients := state.clients.erase key } :=
  of_clients rfl rfl fun _ client found =>
    ⟨client, Library.Table.lookup_of_erase found, .refl client⟩

theorem of_mapValues {change : Str → BridgeClient → BridgeClient}
    (is : after.clients = mapValues change before.clients)
    (bridges : after.bridges = before.bridges) (nextUser : after.nextUser = before.nextUser)
    (same : ∀ key client, SameClient client (change key client)) : Keeps before after := by
  refine of_clients bridges nextUser fun key client found => ?_
  rw [is, lookup_mapValues] at found
  rcases Option.map_eq_some_iff.mp found with ⟨old, foundOld, rfl⟩
  exact ⟨old, foundOld, same key old⟩

theorem of_modify {key : Str} {change : BridgeClient → BridgeClient}
    (is : after.clients = Library.Table.modify key change before.clients)
    (bridges : after.bridges = before.bridges) (nextUser : after.nextUser = before.nextUser)
    (same : ∀ client, SameClient client (change client)) : Keeps before after := by
  refine of_mapValues is bridges nextUser fun other client => ?_
  split
  · exact same client
  · exact .refl client

theorem modifyBridge (state : State) (id : Nat) {change : Bridge → Bridge}
    (same : ∀ bridge, SameKeys bridge (change bridge)) :
    Keeps state (state.modifyBridge id change) where
  clients := fun _ client found => ⟨client, found, .refl client⟩
  bridges := by
    intro bridge' mem
    rcases List.mem_map.mp mem with ⟨bridge, memOld, rfl⟩
    refine ⟨bridge, memOld, ?_⟩
    split
    · exact same bridge
    · exact .refl bridge
  nextUser := rfl

theorem foldl {ι : Type} {change : State → ι → State}
    (keeps : ∀ state item, Keeps state (change state item)) (items : List ι) (state : State) :
    Keeps state (items.foldl change state) := by
  refine List.foldlRecOn (motive := Keeps state) items change (refl state) ?_
  intro between kept item _
  exact kept.trans (keeps between item)

end Keeps

/-! ## What the operations keep -/

section Operations

variable (env : Env) (state : State)

theorem keeps_sendReservation (reservation : Reservation) :
    Keeps state (sendReservation env reservation state) := by
  rw [sendReservation]
  split
  · exact .of_eq rfl rfl rfl
  · exact .refl state

theorem keeps_reserveNick (id : Nat) (nick : Str) :
    Keeps state (reserveNick env id nick state) := by
  rw [reserveNick]
  refine Keeps.trans ?_ (keeps_sendReservation env _ _)
  exact .modifyBridge state id fun _ => ⟨rfl, rfl, rfl⟩

theorem keeps_releaseNick (id : Nat) (nick : Str) : Keeps state (releaseNick env id state nick) := by
  rw [releaseNick]
  split
  · exact .refl state
  · exact keeps_sendReservation env state _

theorem keeps_ensureJoin (key name : Str) : Keeps state (ensureJoin env key name state) := by
  rw [ensureJoin]
  split
  · exact .refl state
  · split
    · exact .refl state
    · exact .of_modify rfl rfl rfl fun _ => ⟨rfl, rfl, rfl⟩

theorem keeps_partClient (client : BridgeClient) (name : Str) :
    Keeps state (partClient env client name state) := by
  rw [partClient]
  split
  · exact .of_modify rfl rfl rfl fun _ => ⟨rfl, rfl, rfl⟩
  · exact .of_modify rfl rfl rfl fun _ => ⟨rfl, rfl, rfl⟩

theorem keeps_onUserQuit (user : Nat) : Keeps state (onUserQuit user state) := by
  rw [onUserQuit]
  split
  · exact .refl state
  · exact .erase state _

theorem keeps_quitUser (user : Nat) : Keeps state (quitUser user state) :=
  (keeps_onUserQuit state user).trans (.of_eq rfl rfl rfl)

theorem keeps_removeClient (client : BridgeClient) :
    Keeps state (removeClient client state) := by
  rw [removeClient]
  split
  · exact .erase state _
  · exact keeps_quitUser state _

theorem keeps_rename (bridge : Bridge) (key : Str) (user : User) (display : Str)
    (naming : Naming) : Keeps state (rename env bridge key user display naming state) := by
  have renamed (nick : Str) (client : BridgeClient) : SameClient client
      { client with user := client.user.map (User.changeNick nick) } :=
    ⟨rfl, rfl, Option.map_map _ _ _⟩
  rw [rename]
  refine Keeps.trans ?_ (.of_modify rfl rfl rfl fun _ => ⟨rfl, rfl, rfl⟩)
  split
  · exact .refl state
  · rename_i nick _
    split
    · exact .refl state
    · exact (keeps_reserveNick env state bridge.id nick).trans
        (.of_modify rfl rfl rfl (renamed nick))

theorem keeps_setClientAway (client : BridgeClient) (away : Bool) :
    Keeps state (setClientAway client away state) := by
  rw [setClientAway]
  split
  · exact .refl state
  · exact .of_modify rfl rfl rfl fun _ => ⟨rfl, rfl, rfl⟩

theorem keeps_removeAllClients : Keeps state (removeAllClients state) := by
  have removed : Keeps state
      (state.clients.entries.foldl (fun state entry => removeClient entry.2 state) state) := by
    refine .foldl ?_ _ state
    exact fun state entry => keeps_removeClient state entry.2
  refine ⟨fun key client found => ?_, removed.bridges, removed.nextUser⟩
  cases found

theorem keeps_pruneChannels : Keeps state (pruneChannels env state) :=
  .foldl (fun state _ => .foldl (fun state _ => keeps_partClient env state _ _) _ state) _ state

theorem keeps_retireClient (bridge : Bridge) (client : BridgeClient) :
    Keeps state (retireClient env bridge state client) := by
  have parted := keeps_partClient env state client bridge.ircChannel
  rw [retireClient]
  split
  · exact parted.trans (keeps_removeClient _ client)
  · exact parted

theorem keeps_retireClients (bridge : Bridge) : Keeps state (retireClients env bridge state) :=
  .foldl (fun state client => keeps_retireClient env state bridge client) _ state

theorem keeps_dropBridge (bridge : Bridge) : Keeps state (dropBridge env bridge state) := by
  have erased : Keeps state
      { state with bridges := state.bridges.filter fun other => other.id ≠ bridge.id } :=
    ⟨fun _ client found => ⟨client, found, .refl client⟩,
      fun bridge mem => ⟨bridge, List.mem_of_mem_filter mem, .refl bridge⟩, rfl⟩
  have released := Keeps.foldl (fun state nick => keeps_releaseNick env state bridge.id nick)
    bridge.reserved { state with bridges := state.bridges.filter fun other => other.id ≠ bridge.id }
  exact (erased.trans released).trans (keeps_pruneChannels env _)

end Operations

/-! ## Operations that leave the bridges as they are -/

section Bridges

variable {env : Env} {state : State}

theorem bridges_partClient (client : BridgeClient) (name : Str) :
    (partClient env client name state).bridges = state.bridges := by
  rw [partClient]
  split <;> rfl

theorem bridges_removeClient (client : BridgeClient) :
    (removeClient client state).bridges = state.bridges := by
  rw [removeClient]
  split
  · rfl
  · rw [quitUser, onUserQuit]
    split <;> rfl

end Bridges

/-! ## Introductions -/

/-- A new client of this key is made for a remote user. -/
structure Introduces (before after : State) (key userId : Str) : Prop where
  made : ∃ client, after.clients.lookup key = some client ∧ client.key = key ∧
    client.userId = userId ∧ client.user.map User.id = some before.nextUser
  others : ∀ other client', other ≠ key → after.clients.lookup other = some client' →
    ∃ client, before.clients.lookup other = some client ∧ SameClient client client'
  bridges : ∀ bridge' ∈ after.bridges, ∃ bridge ∈ before.bridges, SameKeys bridge bridge'
  nextUser : after.nextUser = before.nextUser + 1

section Introductions

variable {env : Env} {state middle after : State} {key userId : Str}

theorem Introduces.of_keeps (keeps : Keeps state middle)
    (introduces : Introduces middle after key userId) : Introduces state after key userId where
  made := keeps.nextUser ▸ introduces.made
  others := fun other client differs found =>
    SameClient.trans_found (introduces.others other client differs found) (keeps.clients other)
  bridges := fun bridge mem => SameKeys.trans_mem (introduces.bridges bridge mem) keeps.bridges
  nextUser := keeps.nextUser ▸ introduces.nextUser

theorem introduce_cases (env : Env) (bridge : Bridge) (key userId display : Str)
    (naming : Naming) (state : State) :
    Keeps state (introduce env bridge key userId display naming state).1 ∨
      Introduces state (introduce env bridge key userId display naming state).1 key userId := by
  rw [introduce.eq_def]
  split
  · exact Or.inl (.refl state)
  · rename_i nick _
    have reserved := keeps_reserveNick env state bridge.id nick
    dsimp only
    split_ifs
    · refine Or.inl (reserved.trans (Keeps.trans ?_ (keeps_releaseNick env _ bridge.id nick)))
      exact .modifyBridge _ bridge.id fun _ => ⟨rfl, rfl, rfl⟩
    · refine Or.inr (Introduces.of_keeps reserved ⟨⟨_, AList.lookup_insert _, rfl, rfl, rfl⟩, ?_,
        fun bridge mem => ⟨bridge, mem, .refl bridge⟩, rfl⟩)
      intro other client differs found
      rw [AList.lookup_insert_ne differs] at found
      exact ⟨client, found, .refl client⟩

theorem ensureClient_cases (env : Env) (bridge : Bridge) (key userId display : Str)
    (naming : Naming) (state : State) :
    Keeps state (ensureClient env bridge key userId display naming state).1 ∨
      Introduces state (ensureClient env bridge key userId display naming state).1 key userId := by
  rw [ensureClient.eq_def]
  split
  · exact introduce_cases env bridge key userId display naming state
  · rename_i client _
    split
    · exact Or.inl (.refl state)
    · split
      · have removed := keeps_removeClient state client
        exact (introduce_cases env bridge key userId display naming _).imp removed.trans
          (Introduces.of_keeps removed)
      · exact Or.inl (keeps_rename env state bridge key _ display naming)

theorem Introduces.trans_keeps (introduces : Introduces state middle key userId)
    (keeps : Keeps middle after) (made : ∃ client, after.clients.lookup key = some client) :
    Introduces state after key userId where
  made := by
    rcases made with ⟨client, found⟩
    rcases keeps.clients key client found with ⟨between, foundBetween, same⟩
    rcases introduces.made with ⟨first, foundFirst, isKey, isUserId, isUser⟩
    cases foundBetween.symm.trans foundFirst
    exact ⟨client, found, same.key.trans isKey, same.userId.trans isUserId,
      same.user.trans isUser⟩
  others := fun other client differs found =>
    SameClient.trans_found (keeps.clients other client found)
      fun between => introduces.others other between differs
  bridges := fun bridge mem => SameKeys.trans_mem (keeps.bridges bridge mem) introduces.bridges
  nextUser := keeps.nextUser.trans introduces.nextUser

theorem isSome_lookup_ensureJoin (env : Env) (key name : Str) (state : State) {other : Str}
    (isSome : ∃ client, state.clients.lookup other = some client) :
    ∃ client, (ensureJoin env key name state).clients.lookup other = some client := by
  rcases isSome with ⟨client, found⟩
  rw [ensureJoin]
  split
  · exact ⟨client, found⟩
  · split
    · exact ⟨client, found⟩
    · by_cases same : other = key
      · rw [same] at found ⊢
        exact ⟨_, (lookup_modify_self key _ _).trans (congrArg _ found)⟩
      · exact ⟨client, (lookup_modify_ne same _ _).trans found⟩

end Introductions

/-! ## Actions -/

/-- A bridge is made or pointed elsewhere, so that the keys of its clients are those of this
bridge. -/
structure Points (before after : State) (bridge : Bridge) : Prop where
  clients : ∀ key client', after.clients.lookup key = some client' →
    ∃ client, before.clients.lookup key = some client ∧ SameClient client client'
  bridges : ∀ bridge' ∈ after.bridges,
    SameKeys bridge bridge' ∨ ∃ old ∈ before.bridges, SameKeys old bridge'
  nextUser : after.nextUser = before.nextUser

theorem Points.trans_keeps {before middle after : State} {bridge : Bridge}
    (points : Points before middle bridge) (keeps : Keeps middle after) :
    Points before after bridge where
  clients := fun key client found =>
    SameClient.trans_found (keeps.clients key client found) (points.clients key)
  bridges := by
    intro bridge' mem
    rcases keeps.bridges bridge' mem with ⟨between, memBetween, same⟩
    rcases points.bridges between memBetween with same' | ⟨old, memOld, same'⟩
    · exact Or.inl (same'.trans same)
    · exact Or.inr ⟨old, memOld, same'.trans same⟩
  nextUser := keeps.nextUser.trans points.nextUser

theorem points_addBridge (bridge : Bridge) (state : State) :
    Points state (addBridge bridge state) bridge where
  clients := fun _ client found => ⟨client, found, .refl client⟩
  bridges := by
    intro bridge' mem
    rcases List.mem_append.mp mem with old | new
    · exact Or.inr ⟨bridge', old, .refl bridge'⟩
    · rw [List.mem_singleton.mp new]
      exact Or.inl ⟨rfl, rfl, rfl⟩
  nextUser := rfl

theorem points_modifyBridge (state : State) (id : Nat) {change : Bridge → Bridge}
    {bridge : Bridge} (same : ∀ old, SameKeys bridge (change old)) :
    Points state (state.modifyBridge id change) bridge where
  clients := fun _ client found => ⟨client, found, .refl client⟩
  bridges := by
    intro bridge' mem
    rcases List.mem_map.mp mem with ⟨old, memOld, rfl⟩
    split
    · exact Or.inl (same old)
    · exact Or.inr ⟨old, memOld, .refl old⟩
  nextUser := rfl

/-- The bridge that an action asks for. -/
def asked (env : Env) : Action → Option Bridge
  | .add ircChannel space foreignChannel suffix
  | .set ircChannel space foreignChannel suffix =>
      (checkBridgeArgs env space foreignChannel suffix).map fun protocol =>
        newBridge protocol ircChannel space foreignChannel suffix
  | .load row => some row
  | .update row => some row
  | _ => none

/-- The key and the remote user of the client that an action may introduce. -/
def introduced (env : Env) (state : State) : Action → Option (Str × Str)
  | .arrive id userId _ _ =>
      (findBridge state id).bind fun bridge =>
        (clientKey env bridge userId).map fun key => (key, userId)
  | _ => none

section Actions

variable {env : Env} {state next : State}

variable {ircChannel space foreignChannel suffix : Str}

theorem act_add_cases
    (stepped : act env state (.add ircChannel space foreignChannel suffix) = some next) :
    next = state ∨ ∃ protocol, checkBridgeArgs env space foreignChannel suffix = some protocol ∧
      next = addBridge (newBridge protocol ircChannel space foreignChannel suffix) state := by
  rw [act.eq_def] at stepped
  dsimp only at stepped
  split at stepped
  · cases stepped
    exact Or.inl rfl
  · rename_i protocol isProtocol
    split at stepped
    · cases stepped
      exact Or.inr ⟨protocol, isProtocol, rfl⟩
    · cases stepped
      exact Or.inl rfl

theorem act_set_cases
    (stepped : act env state (.set ircChannel space foreignChannel suffix) = some next) :
    next = state ∨ ∃ bridge protocol,
      checkBridgeArgs env space foreignChannel suffix = some protocol ∧
        next = retireClients env bridge
          (state.modifyBridge bridge.id (pointed protocol space foreignChannel suffix)) := by
  rw [act.eq_def] at stepped
  dsimp only at stepped
  split at stepped
  · rename_i bridge protocol _ isProtocol
    split at stepped
    · cases stepped
      exact Or.inr ⟨bridge, protocol, isProtocol, rfl⟩
    · cases stepped
      exact Or.inl rfl
  · cases stepped
    exact Or.inl rfl

theorem act_del_cases (stepped : act env state (.del ircChannel) = some next) :
    findIrc env state ircChannel = none ∧ next = state ∨
      ∃ bridge, findIrc env state ircChannel = some bridge ∧
        next = dropBridge env bridge state := by
  rw [act.eq_def] at stepped
  dsimp only at stepped
  split at stepped
  · rename_i isNone
    cases stepped
    exact Or.inl ⟨isNone, rfl⟩
  · rename_i bridge isBridge
    cases stepped
    exact Or.inr ⟨bridge, isBridge, rfl⟩

theorem act_load_cases {row : Bridge} (stepped : act env state (.load row) = some next) :
    next = state ∨ next = addBridge row state := by
  rw [act] at stepped
  split at stepped
  · cases stepped
    exact Or.inl rfl
  · cases stepped
    exact Or.inr rfl

theorem act_update_cases {row : Bridge} (stepped : act env state (.update row) = some next) :
    next = state ∨ next = state.modifyBridge row.id fun _ => row := by
  rw [act] at stepped
  split at stepped
  · cases stepped
    exact Or.inl rfl
  · cases stepped
    exact Or.inr rfl

/-- Only the channels change when somebody on IRC makes a channel. -/
theorem act_create_eq {name : Str} (stepped : act env state (.create name) = some next) :
    next = { state with channels := next.channels } := by
  rw [act] at stepped
  split at stepped
  · cases stepped
    rfl
  · cases stepped

/-- Only the channels change when a channel goes away. -/
theorem act_destroy_eq {name : Str} (stepped : act env state (.destroy name) = some next) :
    next = { state with channels := next.channels } := by
  rw [act] at stepped
  split at stepped
  · cases stepped
    rfl
  · cases stepped

theorem keeps_withClient {bridge : Bridge} {userId : Str} {change : BridgeClient → State}
    (keeps : ∀ client, Keeps state (change client)) :
    Keeps state (withClient env state bridge userId change) := by
  rw [withClient]
  split
  · exact .refl state
  · exact keeps _

theorem arrive_cases (env : Env) (bridge : Bridge) (userId display : Str) (naming : Naming)
    (state : State) :
    Keeps state (arrive env bridge userId display naming state) ∨
      ∃ key, clientKey env bridge userId = some key ∧
        Introduces state (arrive env bridge userId display naming state) key userId := by
  rw [arrive.eq_def]
  split
  · exact Or.inl (.refl state)
  · rename_i key isKey
    have joined := keeps_ensureJoin env
      (ensureClient env bridge key userId display naming state).1 key bridge.ircChannel
    rcases ensureClient_cases env bridge key userId display naming state with keeps | introduces
    · refine Or.inl ?_
      dsimp only
      split
      · exact keeps.trans joined
      · exact keeps
    · refine Or.inr ⟨key, isKey, ?_⟩
      rcases introduces.made with ⟨client, found, _⟩
      dsimp only
      split
      · exact introduces.trans_keeps joined
          (isSome_lookup_ensureJoin env key bridge.ircChannel _ ⟨client, found⟩)
      · exact introduces

/-- What an action does to the records of the clients and to the keys of the bridges. -/
theorem act_cases {action : Action} (stepped : act env state action = some next) :
    Keeps state next ∨
      (∃ bridge, asked env action = some bridge ∧ Points state next bridge) ∨
      ∃ key userId, introduced env state action = some (key, userId) ∧
        Introduces state next key userId := by
  cases action with
  | add ircChannel space foreignChannel suffix =>
      rcases act_add_cases stepped with rfl | ⟨protocol, isProtocol, rfl⟩
      · exact Or.inl (.refl _)
      · refine Or.inr (Or.inl ⟨_, ?_, points_addBridge _ state⟩)
        rw [asked, isProtocol]
        rfl
  | set ircChannel space foreignChannel suffix =>
      rcases act_set_cases stepped with rfl | ⟨bridge, protocol, isProtocol, rfl⟩
      · exact Or.inl (.refl _)
      · refine Or.inr (Or.inl ⟨newBridge protocol ircChannel space foreignChannel suffix, ?_,
          Points.trans_keeps ?_ (keeps_retireClients env _ bridge)⟩)
        · rw [asked, isProtocol]
          rfl
        · exact points_modifyBridge state bridge.id fun _ => ⟨rfl, rfl, rfl⟩
  | del ircChannel =>
      rcases act_del_cases stepped with ⟨_, rfl⟩ | ⟨bridge, _, rfl⟩
      · exact Or.inl (.refl _)
      · exact Or.inl (keeps_dropBridge env state bridge)
  | load row =>
      rcases act_load_cases stepped with rfl | rfl
      · exact Or.inl (.refl _)
      · exact Or.inr (Or.inl ⟨row, rfl, points_addBridge row state⟩)
  | update row =>
      rcases act_update_cases stepped with rfl | rfl
      · exact Or.inl (.refl _)
      · exact Or.inr (Or.inl ⟨row, rfl, points_modifyBridge state row.id fun _ => .refl row⟩)
  | arrive id userId display naming =>
      rcases Option.map_eq_some_iff.mp stepped with ⟨bridge, found, rfl⟩
      rcases arrive_cases env bridge userId display naming state with
        keeps | ⟨key, isKey, introduces⟩
      · exact Or.inl keeps
      · refine Or.inr (Or.inr ⟨key, userId, ?_, introduces⟩)
        rw [introduced, found, Option.bind_some, isKey]
        rfl
  | appear id userId =>
      rcases Option.map_eq_some_iff.mp stepped with ⟨bridge, _, rfl⟩
      exact Or.inl (keeps_withClient fun client => keeps_ensureJoin env state _ _)
  | leave id userId =>
      rcases Option.map_eq_some_iff.mp stepped with ⟨bridge, _, rfl⟩
      exact Or.inl (keeps_withClient fun client => keeps_removeClient state client)
  | presence id userId away =>
      rcases Option.map_eq_some_iff.mp stepped with ⟨bridge, _, rfl⟩
      exact Or.inl (keeps_withClient fun client => keeps_setClientAway state client away)
  | removeAll =>
      cases stepped
      exact Or.inl (keeps_removeAllClients state)
  | quit user =>
      cases stepped
      exact Or.inl (keeps_quitUser state user)
  | part user name =>
      cases stepped
      exact Or.inl (.of_eq rfl rfl rfl)
  | nick user nick =>
      cases stepped
      refine Or.inl (.of_mapValues rfl rfl rfl fun _ client => ⟨rfl, rfl, ?_⟩)
      dsimp only
      rw [Option.map_map]
      congr 1
      funext held
      rw [Function.comp_apply]
      split <;> rfl
  | create name =>
      rw [act_create_eq stepped]
      exact Or.inl (.of_eq rfl rfl rfl)
  | destroy name =>
      rw [act_destroy_eq stepped]
      exact Or.inl (.of_eq rfl rfl rfl)
  | split =>
      cases stepped
      exact Or.inl (.of_eq rfl rfl rfl)
  | sync =>
      cases stepped
      have started : Keeps state { state with synced := true } := .of_eq rfl rfl rfl
      refine Or.inl (started.trans (.foldl ?_ state.bridges _))
      exact fun state bridge => .foldl (fun state _ => keeps_sendReservation env state _) _ state

theorem step_cases {action : Action} (stepped : step env state action = some next) :
    Keeps state next ∨
      (∃ bridge, asked env action = some bridge ∧ Points state next bridge) ∨
      ∃ key userId, introduced env state action = some (key, userId) ∧
        Introduces state next key userId := by
  rcases act_cases stepped with keeps | ⟨bridge, isAsked, points⟩ |
    ⟨key, userId, isIntroduced, introduces⟩
  · have started : Keeps state { state with sent := [] } := .of_eq rfl rfl rfl
    exact Or.inl (started.trans keeps)
  · exact Or.inr (Or.inl ⟨bridge, isAsked, points.clients, points.bridges, points.nextUser⟩)
  · refine Or.inr (Or.inr ⟨key, userId, ?_, introduces.made, introduces.others,
      introduces.bridges, introduces.nextUser⟩)
    cases action <;> exact isIntroduced

end Actions

/-! ## Runs -/

/-- The records are found by their keys, and no two of them share a user. -/
structure Sound (state : State) : Prop where
  keyed : ∀ key client, state.clients.lookup key = some client → client.key = key
  older : ∀ key client id, state.clients.lookup key = some client →
    client.user.map User.id = some id → id < state.nextUser
  distinct : ∀ key key' client client' id, state.clients.lookup key = some client →
    state.clients.lookup key' = some client' → client.user.map User.id = some id →
      client'.user.map User.id = some id → key = key'

theorem sound_initial : Sound State.initial where
  keyed := fun _ _ found => by cases found
  older := fun _ _ _ found => by cases found
  distinct := fun _ _ _ _ _ found => by cases found

section Sound

variable {env : Env} {state next : State}

theorem Sound.of_clients (sound : Sound state)
    (clients : ∀ key client', next.clients.lookup key = some client' →
      ∃ client, state.clients.lookup key = some client ∧ SameClient client client')
    (nextUser : next.nextUser = state.nextUser) : Sound next where
  keyed := by
    intro key client found
    rcases clients key client found with ⟨old, foundOld, same⟩
    exact same.key.trans (sound.keyed key old foundOld)
  older := by
    intro key client id found isUser
    rcases clients key client found with ⟨old, foundOld, same⟩
    rw [nextUser]
    exact sound.older key old id foundOld (same.user.symm.trans isUser)
  distinct := by
    intro key key' client client' id found found' isUser isUser'
    rcases clients key client found with ⟨old, foundOld, same⟩
    rcases clients key' client' found' with ⟨old', foundOld', same'⟩
    exact sound.distinct key key' old old' id foundOld foundOld' (same.user.symm.trans isUser)
      (same'.user.symm.trans isUser')

theorem Sound.of_keeps (sound : Sound state) (keeps : Keeps state next) : Sound next :=
  sound.of_clients keeps.clients keeps.nextUser

/-- The user of a new client is younger than the others. -/
theorem Sound.of_introduces (sound : Sound state) {key userId : Str}
    (introduces : Introduces state next key userId) : Sound next := by
  rcases introduces.made with ⟨made, foundMade, isKey, _, isUserMade⟩
  have youngest (other : Str) (client : BridgeClient) (differs : other ≠ key)
      (found : next.clients.lookup other = some client) :
      client.user.map User.id ≠ some state.nextUser := by
    rcases introduces.others other client differs found with ⟨old, foundOld, same⟩
    intro isUser
    have older := sound.older other old _ foundOld (same.user.symm.trans isUser)
    exact Nat.lt_irrefl _ older
  constructor
  · intro other client found
    by_cases same : other = key
    · subst same
      cases foundMade.symm.trans found
      exact isKey
    · rcases introduces.others other client same found with ⟨old, foundOld, sameClient⟩
      exact sameClient.key.trans (sound.keyed other old foundOld)
  · intro other client id found isUser
    rw [introduces.nextUser]
    by_cases same : other = key
    · subst same
      cases foundMade.symm.trans found
      cases isUserMade.symm.trans isUser
      exact Nat.lt_succ_self _
    · rcases introduces.others other client same found with ⟨old, foundOld, sameClient⟩
      exact Nat.lt_succ_of_lt
        (sound.older other old id foundOld (sameClient.user.symm.trans isUser))
  · intro first second client client' id found found' isUser isUser'
    by_cases isFirst : first = key
    · by_cases isSecond : second = key
      · rw [isFirst, isSecond]
      · subst isFirst
        cases foundMade.symm.trans found
        cases isUserMade.symm.trans isUser
        exact absurd isUser' (youngest second client' isSecond found')
    · by_cases isSecond : second = key
      · subst isSecond
        cases foundMade.symm.trans found'
        cases isUserMade.symm.trans isUser'
        exact absurd isUser (youngest first client isFirst found)
      · rcases introduces.others first client isFirst found with ⟨old, foundOld, same⟩
        rcases introduces.others second client' isSecond found' with ⟨old', foundOld', same'⟩
        exact sound.distinct first second old old' id foundOld foundOld'
          (same.user.symm.trans isUser) (same'.user.symm.trans isUser')

theorem Sound.step {action : Action} (sound : Sound state)
    (stepped : BridgeServ.step env state action = some next) : Sound next := by
  rcases step_cases stepped with keeps | ⟨_, _, points⟩ | ⟨_, _, _, introduces⟩
  · exact sound.of_keeps keeps
  · exact sound.of_clients points.clients points.nextUser
  · exact sound.of_introduces introduces

/-- Every state that the service comes to is sound. -/
theorem sound_of_run {actions : List Action}
    (reached : Library.Run.run (BridgeServ.step env) .initial actions = some state) :
    Sound state :=
  (Library.Run.always_of_step (fun sound stepped => Sound.step sound stepped)
    sound_initial actions).of_run reached

end Sound

end Anope.BridgeServ
