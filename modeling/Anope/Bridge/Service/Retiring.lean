import Anope.Bridge.Service.Clients

/-!
# The clients of a bridge that is pointed elsewhere

`RetireClients` takes the clients out of the channel of a bridge whose record of their channels
has the name as the bridge spells it.  The others stay as they are.
-/

namespace Anope.BridgeServ

open Library.Run
open Library.Table (lookup_mapValues lookup_modify_self lookup_modify_ne)

/-- The user of a client is in a channel. -/
def inChannel (env : Env) (state : State) (client : BridgeClient) (name : Str) : Bool :=
  client.user.any fun user => isIn env state user.id name

/-! ## Who is in a channel -/

section Membership

variable (env : Env) (state : State)

theorem isIn_eq_any (user : Nat) (name : Str) :
    isIn env state user name = (state.channels.lookup (env.casemap.ciStr name)).any
      fun channel => channel.users.contains user := by
  rw [isIn.eq_def]
  cases state.channels.lookup (env.casemap.ciStr name) <;> rfl

theorem contains_without (users : List Nat) (user other : Nat) :
    (users.filter fun present => present ≠ user).contains other =
      (users.contains other && decide (other ≠ user)) := by
  rw [Bool.eq_iff_iff, List.contains_iff_mem, List.mem_filter, Bool.and_eq_true,
    List.contains_iff_mem]

theorem isIn_leaveChannel (user other : Nat) (name chan : Str) :
    isIn env (leaveChannel env user name state) other chan =
      (isIn env state other chan &&
        (decide (other ≠ user) || !env.casemap.equalsCi chan name)) := by
  rw [isIn_eq_any, isIn_eq_any, leaveChannel]
  dsimp only
  by_cases same : env.casemap.ciStr chan = env.casemap.ciStr name
  · rw [(env.casemap.equalsCi_iff chan name).mpr same, same, lookup_modify_self, Bool.not_true,
      Bool.or_false]
    cases state.channels.lookup (env.casemap.ciStr name) with
    | none => rfl
    | some channel => exact contains_without channel.users user other
  · have differs : env.casemap.equalsCi chan name = false :=
      Bool.eq_false_iff.mpr fun is => same ((env.casemap.equalsCi_iff chan name).mp is)
    rw [differs, lookup_modify_ne same, Bool.not_false, Bool.or_true, Bool.and_true]

theorem isIn_quitUser (user other : Nat) (chan : Str) :
    isIn env (quitUser user state) other chan =
      (isIn env state other chan && decide (other ≠ user)) := by
  rw [isIn_eq_any, isIn_eq_any, quitUser]
  dsimp only
  rw [lookup_mapValues]
  cases state.channels.lookup (env.casemap.ciStr chan) with
  | none => rfl
  | some channel => exact contains_without channel.users user other

end Membership

/-! ## Clients that an operation leaves alone -/

/-- Two clients have neither a key nor a user in common. -/
structure Apart (client other : BridgeClient) : Prop where
  key : client.key ≠ other.key
  user : ∀ id, other.user.map User.id = some id → client.user.map User.id ≠ some id

/-- The record of a client and the channels that its user is in stay as they are. -/
structure Spares (env : Env) (client : BridgeClient) (before after : State) : Prop where
  record : before.clients.lookup client.key = some client →
    after.clients.lookup client.key = some client
  channels : ∀ name, inChannel env after client name = inChannel env before client name

section Spares

variable {env : Env} {client other : BridgeClient} {before middle after : State}

theorem Spares.refl (env : Env) (client : BridgeClient) (state : State) :
    Spares env client state state :=
  ⟨id, fun _ => rfl⟩

theorem Spares.trans (left : Spares env client before middle)
    (right : Spares env client middle after) : Spares env client before after :=
  ⟨right.record ∘ left.record, fun name => (right.channels name).trans (left.channels name)⟩

theorem Spares.foldl {change : State → BridgeClient → State} {clients : List BridgeClient}
    (spares : ∀ state, ∀ other ∈ clients, Spares env client state (change state other))
    (state : State) : Spares env client state (clients.foldl change state) := by
  refine List.foldlRecOn (motive := Spares env client state) clients change
    (.refl env client state) ?_
  intro between spared other mem
  exact spared.trans (spares between other mem)

theorem inChannel_congr (name : Str)
    (same : ∀ user, client.user = some user →
      isIn env after user.id name = isIn env before user.id name) :
    inChannel env after client name = inChannel env before client name := by
  rw [inChannel, inChannel]
  cases isUser : client.user with
  | none => rfl
  | some user => exact same user isUser

theorem Apart.ne_of_some (apart : Apart client other) {user user' : User}
    (isUser : client.user = some user) (isUser' : other.user = some user') :
    user.id ≠ user'.id := by
  intro same
  refine apart.user user'.id (by rw [isUser']; rfl) ?_
  rw [isUser, ← same]
  rfl

theorem spares_partClient (apart : Apart client other) (name : Str) (state : State) :
    Spares env client state (partClient env other name state) := by
  rw [partClient]
  cases isUser : other.user with
  | none => exact ⟨(lookup_modify_ne apart.key _ _).trans, fun _ => rfl⟩
  | some user =>
      refine ⟨(lookup_modify_ne apart.key _ _).trans, fun chan => ?_⟩
      refine inChannel_congr chan fun own isOwn => ?_
      refine (isIn_leaveChannel env state user.id own.id name chan).trans ?_
      rw [decide_eq_true (apart.ne_of_some isOwn isUser), Bool.true_or, Bool.and_true]

/-- The record of a user who did not quit is kept. -/
theorem lookup_onUserQuit_ne {user : Nat} (differs : client.user.map User.id ≠ some user)
    {key : Str} {state : State} (found : state.clients.lookup key = some client) :
    (onUserQuit user state).clients.lookup key = some client := by
  rw [onUserQuit]
  split
  · exact found
  · rename_i entry isEntry
    have isUser := List.find?_some isEntry
    rw [decide_eq_true_eq] at isUser
    have mem := List.mem_of_find?_eq_some isEntry
    have isOther := AList.mem_lookup_iff.mpr mem
    refine (AList.lookup_erase_ne ?_).trans found
    intro same
    rw [same] at found
    cases found.symm.trans isOther
    exact differs isUser

theorem spares_removeClient (apart : Apart client other) (state : State) :
    Spares env client state (removeClient other state) := by
  rw [removeClient]
  cases isUser : other.user with
  | none => exact ⟨(AList.lookup_erase_ne apart.key).trans, fun _ => rfl⟩
  | some user =>
      constructor
      · exact lookup_onUserQuit_ne (apart.user user.id (by rw [isUser]; rfl))
      · refine fun chan => inChannel_congr chan fun own isOwn => ?_
        refine (isIn_quitUser env state user.id own.id chan).trans ?_
        rw [decide_eq_true (apart.ne_of_some isOwn isUser), Bool.and_true]

theorem spares_retireClient (apart : Apart client other) (bridge : Bridge) (state : State) :
    Spares env client state (retireClient env bridge state other) := by
  have parted : Spares env client state (partClient env other bridge.ircChannel state) :=
    spares_partClient apart bridge.ircChannel state
  rw [retireClient]
  split
  · exact parted.trans (spares_removeClient apart _)
  · exact parted

end Spares

/-! ## The client that is retired -/

section Retired

variable {env : Env} {state : State} {bridge : Bridge} {client : BridgeClient} {key : Str}

/-- The channels that a client is left with when it leaves that of a bridge. -/
def BridgeClient.otherChans (client : BridgeClient) (bridge : Bridge) : List Str :=
  client.chans.filter fun chan => chan ≠ bridge.ircChannel

/-- The client without the channel of a bridge. -/
def BridgeClient.parted (client : BridgeClient) (bridge : Bridge) : BridgeClient :=
  { client with chans := client.otherChans bridge }

theorem lookup_partClient_self (found : state.clients.lookup client.key = some client) :
    (partClient env client bridge.ircChannel state).clients.lookup client.key =
      some (client.parted bridge) := by
  rw [partClient]
  split
  · exact (lookup_modify_self client.key _ _).trans (congrArg _ found)
  · exact (lookup_modify_self client.key _ _).trans (congrArg _ found)

theorem inChannel_partClient_self (name : Str) :
    inChannel env (partClient env client bridge.ircChannel state) client name =
      (inChannel env state client name && !env.casemap.equalsCi name bridge.ircChannel) := by
  rw [inChannel, inChannel, partClient]
  cases isUser : client.user with
  | none => rfl
  | some user =>
      refine (isIn_leaveChannel env state user.id user.id bridge.ircChannel name).trans ?_
      rw [decide_eq_false (not_not_intro rfl), Bool.false_or]
      rfl

/-- The record of a user who quits is forgotten. -/
theorem lookup_onUserQuit_self (sound : Sound state)
    (found : state.clients.lookup key = some client) {user : Nat}
    (isUser : client.user.map User.id = some user) :
    (onUserQuit user state).clients.lookup key = none := by
  rw [onUserQuit]
  split
  · rename_i isNone
    have mem := AList.mem_lookup_iff.mp found
    exact absurd (decide_eq_true isUser) (List.find?_eq_none.mp isNone ⟨key, client⟩ mem)
  · rename_i entry isEntry
    have isUser' := List.find?_some isEntry
    rw [decide_eq_true_eq] at isUser'
    have isOther := AList.mem_lookup_iff.mpr (List.mem_of_find?_eq_some isEntry)
    rw [sound.distinct _ _ _ _ user found isOther isUser isUser']
    exact AList.lookup_erase _ _

/-- A client that is in no other channel is forgotten. -/
theorem lookup_retireClient_leaves (sound : Sound state)
    (found : state.clients.lookup client.key = some client)
    (only : client.otherChans bridge = []) :
    (retireClient env bridge state client).clients.lookup client.key = none := by
  have sound' := sound.of_keeps (keeps_partClient env state client bridge.ircChannel)
  have found' : (partClient env client bridge.ircChannel state).clients.lookup client.key =
      some (client.parted bridge) := lookup_partClient_self found
  rw [BridgeClient.otherChans] at only
  rw [retireClient, if_pos only, removeClient]
  cases isUser : client.user with
  | none => exact AList.lookup_erase _ _
  | some user =>
      refine lookup_onUserQuit_self sound' found' ?_
      rw [BridgeClient.parted, isUser]
      rfl

theorem retireClient_of_others (others : client.otherChans bridge ≠ []) :
    retireClient env bridge state client = partClient env client bridge.ircChannel state := by
  rw [retireClient]
  exact if_neg others

/-! ## All the clients that are retired -/

theorem Sound.apart {other : BridgeClient} {key' : Str} (sound : Sound state)
    (found : state.clients.lookup key = some client)
    (found' : state.clients.lookup key' = some other) (differs : key ≠ key') :
    Apart client other where
  key := by
    rw [sound.keyed key client found, sound.keyed key' other found']
    exact differs
  user := fun id isUser' isUser =>
    differs (sound.distinct key key' client other id found found' isUser isUser')

/-- The clients that `RetireClients` goes through. -/
def joinedClients (bridge : Bridge) (entries : List (Sigma fun _ : Str => BridgeClient)) :
    List BridgeClient :=
  entries.filterMap fun entry =>
    if entry.2.chans.contains bridge.ircChannel then some entry.2 else none

theorem retireClients_eq (env : Env) (bridge : Bridge) (state : State) :
    retireClients env bridge state =
      (joinedClients bridge state.clients.entries).foldl (retireClient env bridge) state :=
  rfl

theorem mem_joinedClients {entries : List (Sigma fun _ : Str => BridgeClient)}
    {other : BridgeClient} (mem : other ∈ joinedClients bridge entries) :
    ∃ key, ⟨key, other⟩ ∈ entries ∧ other.chans.contains bridge.ircChannel = true := by
  rcases List.mem_filterMap.mp mem with ⟨⟨key, client⟩, memEntry, is⟩
  rcases Option.ite_none_right_eq_some.mp is with ⟨joined, isSame⟩
  cases isSame
  exact ⟨key, memEntry, joined⟩

/-- A client that has not joined the channel is left alone. -/
theorem spares_retireClients (sound : Sound state)
    (found : state.clients.lookup key = some client)
    (outside : client.chans.contains bridge.ircChannel = false) :
    Spares env client state (retireClients env bridge state) := by
  refine Spares.foldl (fun between other mem => ?_) state
  rcases mem_joinedClients mem with ⟨key', memEntry, joined⟩
  have found' := AList.mem_lookup_iff.mpr memEntry
  refine spares_retireClient (sound.apart found found' ?_) bridge between
  intro same
  subst same
  cases found.symm.trans found'
  rw [outside] at joined
  cases joined

/-- The others that are retired have nothing in common with a client. -/
theorem joinedClients_split (sound : Sound state)
    (found : state.clients.lookup key = some client)
    (joined : client.chans.contains bridge.ircChannel = true) :
    ∃ front back, joinedClients bridge state.clients.entries = front ++ client :: back ∧
      (∀ other ∈ front, Apart client other) ∧ ∀ other ∈ back, Apart client other := by
  have mem := AList.mem_lookup_iff.mp found
  rcases List.append_of_mem mem with ⟨front, back, isEntries⟩
  have nodup := state.clients.nodupKeys
  rw [isEntries] at nodup
  have apart (other : BridgeClient) (key' : Str) (memEntry : ⟨key', other⟩ ∈ front ++ back) :
      Apart client other := by
    have found' : state.clients.lookup key' = some other := by
      refine AList.mem_lookup_iff.mpr ?_
      rw [isEntries]
      exact List.mem_append.mpr ((List.mem_append.mp memEntry).imp id (List.mem_cons_of_mem _))
    refine sound.apart found found' ?_
    rintro rfl
    have inKeys := List.mem_keys_of_mem memEntry
    exact List.notMem_keys_of_nodupKeys_cons (List.nodupKeys_middle.mp nodup) inKeys
  refine ⟨joinedClients bridge front, joinedClients bridge back, ?_, ?_, ?_⟩
  · have taken : joinedClients bridge (⟨key, client⟩ :: back) =
        client :: joinedClients bridge back := List.filterMap_cons_some (if_pos joined)
    rw [isEntries, ← taken]
    exact List.filterMap_append
  · intro other memFront
    rcases mem_joinedClients memFront with ⟨key', memEntry, _⟩
    exact apart other key' (List.mem_append_left _ memEntry)
  · intro other memBack
    rcases mem_joinedClients memBack with ⟨key', memEntry, _⟩
    exact apart other key' (List.mem_append_right _ memEntry)

/-- A client whose only channel it was is forgotten. -/
theorem retireClients_leaves (sound : Sound state)
    (found : state.clients.lookup key = some client)
    (joined : client.chans.contains bridge.ircChannel = true)
    (only : client.otherChans bridge = []) :
    (retireClients env bridge state).clients.lookup key = none := by
  rcases joinedClients_split sound found joined with ⟨front, back, isSplit, inFront, _⟩
  have isKey := sound.keyed key client found
  rw [retireClients_eq, isSplit, List.foldl_append, List.foldl_cons]
  have spared : Spares env client state (front.foldl (retireClient env bridge) state) :=
    .foldl (fun between other mem => spares_retireClient (inFront other mem) bridge between) state
  have before := sound.of_keeps (Keeps.foldl (keeps_retireClient env · bridge) front state)
  have forgotten : (retireClient env bridge (front.foldl (retireClient env bridge) state)
      client).clients.lookup client.key = none :=
    lookup_retireClient_leaves before (spared.record (isKey.symm ▸ found)) only
  rw [isKey] at forgotten
  -- Nothing that is done to the others brings a record back.
  refine Option.eq_none_iff_forall_ne_some.mpr fun other foundOther => ?_
  rcases (Keeps.foldl (keeps_retireClient env · bridge) back _).clients key other foundOther with
    ⟨old, foundOld, _⟩
  cases forgotten.symm.trans foundOld

/-- A client that is in other channels is taken out of this one. -/
theorem retireClients_parts (sound : Sound state)
    (found : state.clients.lookup key = some client)
    (joined : client.chans.contains bridge.ircChannel = true)
    (others : client.otherChans bridge ≠ []) :
    (retireClients env bridge state).clients.lookup key = some (client.parted bridge) ∧
      ∀ name, inChannel env (retireClients env bridge state) client name =
        (inChannel env state client name && !env.casemap.equalsCi name bridge.ircChannel) := by
  rcases joinedClients_split sound found joined with ⟨front, back, isSplit, inFront, inBack⟩
  have isKey := sound.keyed key client found
  subst isKey
  rw [retireClients_eq, isSplit, List.foldl_append, List.foldl_cons]
  have spared : Spares env client state (front.foldl (retireClient env bridge) state) :=
    .foldl (fun between other mem => spares_retireClient (inFront other mem) bridge between) state
  rw [retireClient_of_others others]
  have rest : Spares env (client.parted bridge)
      (partClient env client bridge.ircChannel (front.foldl (retireClient env bridge) state))
      (back.foldl (retireClient env bridge)
        (partClient env client bridge.ircChannel
          (front.foldl (retireClient env bridge) state))) := by
    refine .foldl (fun between other mem => spares_retireClient ?_ bridge between) _
    exact ⟨(inBack other mem).key, (inBack other mem).user⟩
  constructor
  · exact rest.record (lookup_partClient_self (spared.record found))
  · intro name
    refine (rest.channels name).trans ?_
    rw [← spared.channels name]
    exact inChannel_partClient_self name

end Retired

/-! ## Pointing a bridge elsewhere -/

/-- The bridge that `CommandBSSet` points elsewhere, if it is not refused. -/
def pointedBridge (env : Env) (state : State) (ircChannel space foreignChannel suffix : Str) :
    Option Bridge :=
  (findIrc env state ircChannel).filter fun bridge =>
    (checkBridgeArgs env space foreignChannel suffix).any fun protocol =>
      (findRemote env state protocol foreignChannel).all fun other => other.id = bridge.id

/-- No client of the keys that a bridge had is in its channel, and those that are left are in the
channel of a bridge. -/
def NoneStale (env : Env) (bridge : Bridge) (next : State) : Prop :=
  ∀ key client, next.clients.lookup key = some client →
    clientKey env bridge client.userId = some key →
      inChannel env next client bridge.ircChannel = false ∧
        ∃ live ∈ next.bridges, inChannel env next client live.ircChannel = true

/-- A client has recorded the channel of a bridge, as the bridge spells it, and no other.  Or it
is in the channel of another bridge, and in that of this one only as recorded. -/
def Retirable (env : Env) (state : State) (bridge : Bridge) (client : BridgeClient) : Prop :=
  client.chans.contains bridge.ircChannel = true ∧ client.otherChans bridge = [] ∨
    (client.chans.contains bridge.ircChannel = true ∨
        inChannel env state client bridge.ircChannel = false) ∧
      ∃ other ∈ state.bridges, env.casemap.equalsCi other.ircChannel bridge.ircChannel = false ∧
        inChannel env state client other.ircChannel = true

section Pointing

variable {env : Env} {state next : State} {bridge : Bridge}

theorem bridges_retireClient (client : BridgeClient) :
    (retireClient env bridge state client).bridges = state.bridges := by
  rw [retireClient]
  split
  · exact (bridges_removeClient client).trans (bridges_partClient client _)
  · exact bridges_partClient client _

theorem bridges_retireClients : (retireClients env bridge state).bridges = state.bridges := by
  rw [retireClients_eq]
  exact List.foldlRecOn (motive := fun after : State => after.bridges = state.bridges) _ _ rfl
    fun _ same client _ => (bridges_retireClient client).trans same

theorem inChannel_congr_name {client : BridgeClient} {name name' : Str}
    (same : env.casemap.equalsCi name name' = true) :
    inChannel env state client name = inChannel env state client name' := by
  rw [inChannel, inChannel]
  congr 1
  funext user
  rw [isIn_eq_any, isIn_eq_any, (env.casemap.equalsCi_iff name name').mp same]

/-- The bridges that there are afterwards have the channels of those before. -/
theorem exists_modifyBridge {id : Nat} {change : Bridge → Bridge}
    (same : ∀ bridge, (change bridge).ircChannel = bridge.ircChannel) (test : Str → Prop) :
    (∃ live ∈ (state.modifyBridge id change).bridges, test live.ircChannel) ↔
      ∃ live ∈ state.bridges, test live.ircChannel := by
  have channel (bridge : Bridge) :
      (if bridge.id = id then change bridge else bridge).ircChannel = bridge.ircChannel := by
    split
    · exact same bridge
    · rfl
  constructor
  · rintro ⟨live, mem, holds⟩
    rcases List.mem_map.mp mem with ⟨old, memOld, rfl⟩
    exact ⟨old, memOld, channel old ▸ holds⟩
  · rintro ⟨live, mem, holds⟩
    exact ⟨_, List.mem_map_of_mem mem, (channel live).symm ▸ holds⟩

/-- What `RetireClients` leaves of one client. -/
theorem retireClients_client_iff (sound : Sound state) {key : Str} {client : BridgeClient}
    (found : state.clients.lookup key = some client) :
    (∀ client', (retireClients env bridge state).clients.lookup key = some client' →
      inChannel env (retireClients env bridge state) client' bridge.ircChannel = false ∧
        ∃ live ∈ state.bridges,
          inChannel env (retireClients env bridge state) client' live.ircChannel = true) ↔
      Retirable env state bridge client := by
  rw [Retirable]
  cases joined : client.chans.contains bridge.ircChannel with
  | false =>
      have spared : Spares env client state (retireClients env bridge state) :=
        spares_retireClients sound found joined
      have isKey := sound.keyed key client found
      have after := spared.record (isKey.symm ▸ found)
      rw [isKey] at after
      rw [after]
      constructor
      · intro holds
        rcases holds client rfl with ⟨outside, live, mem, inside⟩
        rw [spared.channels] at outside inside
        refine Or.inr ⟨Or.inr outside, live, mem, ?_, inside⟩
        refine Bool.eq_false_iff.mpr fun same => ?_
        rw [inChannel_congr_name same, outside] at inside
        cases inside
      · rintro (⟨is, _⟩ | ⟨is | outside, other, mem, _, inside⟩) client' isSame
        · cases is
        · cases is
        · cases isSame
          rw [spared.channels]
          exact ⟨outside, other, mem, (spared.channels _).trans inside⟩
  | true =>
      by_cases only : client.otherChans bridge = []
      · rw [retireClients_leaves sound found joined only]
        exact iff_of_true (fun _ is => by cases is) (Or.inl ⟨rfl, only⟩)
      · rcases retireClients_parts sound found joined only with ⟨after, channels⟩
        rw [after]
        constructor
        · intro holds
          rcases holds _ rfl with ⟨_, live, mem, inside⟩
          have both := (channels live.ircChannel).symm.trans inside
          rw [Bool.and_eq_true, Bool.not_eq_true'] at both
          exact Or.inr ⟨Or.inl rfl, live, mem, both.2, both.1⟩
        · rintro (⟨_, is⟩ | ⟨_, other, mem, differs, inside⟩) client' isSame
          · exact absurd is only
          · cases isSame
            constructor
            · refine (channels bridge.ircChannel).trans ?_
              rw [(env.casemap.equalsCi_iff _ _).mpr rfl, Bool.not_true, Bool.and_false]
            · refine ⟨other, mem, (channels other.ircChannel).trans ?_⟩
              rw [inside, differs]
              rfl

variable {ircChannel space foreignChannel suffix : Str}

theorem step_set
    (isPointed : pointedBridge env state ircChannel space foreignChannel suffix = some bridge) :
    ∃ protocol, step env state (.set ircChannel space foreignChannel suffix) =
      some (retireClients env bridge (State.modifyBridge { state with sent := [] } bridge.id
        (pointed protocol space foreignChannel suffix))) := by
  rcases Option.filter_eq_some_iff.mp isPointed with ⟨isBridge, allowed⟩
  rcases (Option.any_eq_true _ _).mp allowed with ⟨protocol, isProtocol, free⟩
  refine ⟨protocol, ?_⟩
  have isBridge' : findIrc env { state with sent := [] } ircChannel = some bridge := isBridge
  rw [step, act.eq_def]
  dsimp only
  rw [isBridge', isProtocol]
  exact if_pos free

/-- Wherever the service has come to, a `CommandBSSet` leaves no client behind exactly when the
records of the bridge's clients spell its channel as the bridge does. -/
theorem noneStale_iff {actions : List Action}
    (reached : run (step env) .initial actions = some state)
    (isPointed : pointedBridge env state ircChannel space foreignChannel suffix = some bridge)
    (stepped : step env state (.set ircChannel space foreignChannel suffix) = some next) :
    NoneStale env bridge next ↔
      ∀ key client, state.clients.lookup key = some client →
        clientKey env bridge client.userId = some key → Retirable env state bridge client := by
  rcases step_set isPointed with ⟨protocol, isNext⟩
  cases stepped.symm.trans isNext
  have sound := sound_of_run reached
  -- What is written to the bridge is in neither the records nor the channels.
  let written := State.modifyBridge { state with sent := [] } bridge.id
    (pointed protocol space foreignChannel suffix)
  have sound' : Sound written := ⟨sound.keyed, sound.older, sound.distinct⟩
  have unchanged (bridge : Bridge) :
      (pointed protocol space foreignChannel suffix bridge).ircChannel = bridge.ircChannel := rfl
  have live (test : Str → Prop) :
      (∃ live ∈ written.bridges, test live.ircChannel) ↔
        ∃ live ∈ state.bridges, test live.ircChannel := exists_modifyBridge unchanged test
  have retirable (client : BridgeClient) :
      Retirable env written bridge client ↔ Retirable env state bridge client :=
    or_congr_right (and_congr_right fun _ => live fun name =>
      env.casemap.equalsCi name bridge.ircChannel = false ∧
        inChannel env state client name = true)
  constructor
  · intro noneStale key client found isKey
    rw [← retirable, ← retireClients_client_iff sound' found]
    intro client' found'
    rcases (keeps_retireClients env written bridge).clients key client' found' with
      ⟨old, foundOld, same⟩
    cases found.symm.trans foundOld
    have stays := noneStale key client' found' (same.userId ▸ isKey)
    rwa [bridges_retireClients] at stays
  · intro conditions key client' found' isKey
    rcases (keeps_retireClients env written bridge).clients key client' found' with
      ⟨client, found, same⟩
    have condition := conditions key client found (same.userId ▸ isKey)
    rw [← retirable, ← retireClients_client_iff sound' found] at condition
    rw [bridges_retireClients]
    exact condition client' found'

/-- A client that is in the channels of two bridges is left in one of them. -/
theorem noneStale_two_bridges :
    ∃ actions state bridge next, run (step .lenient) .initial actions = some state ∧
      pointedBridge .lenient state (ascii "#a") (ascii "2") (ascii "30") [] = some bridge ∧
      step .lenient state (.set (ascii "#a") (ascii "2") (ascii "30") []) = some next ∧
      NoneStale .lenient bridge next := by
  have evaluated :
      ((run (step .lenient) .initial
        [.add (ascii "#a") (ascii "1") (ascii "10") [],
          .add (ascii "#b") (ascii "1") (ascii "20") [],
          .arrive 0 (ascii "42") (ascii "Zed") ⟨true, some (ascii "Zed"), false⟩,
          .arrive 1 (ascii "42") (ascii "Zed") ⟨true, none, false⟩]).bind fun state =>
        (pointedBridge .lenient state (ascii "#a") (ascii "2") (ascii "30") []).map fun bridge =>
          state.clients.entries.all fun entry =>
            entry.2.chans.contains bridge.ircChannel && state.bridges.any fun other =>
              !Env.lenient.casemap.equalsCi other.ircChannel bridge.ircChannel &&
                inChannel .lenient state entry.2 other.ircChannel) = some true := by
    decide +kernel
  rcases Option.bind_eq_some_iff.mp evaluated with ⟨state, reached, rest⟩
  rcases Option.map_eq_some_iff.mp rest with ⟨bridge, isPointed, conditions⟩
  rcases step_set isPointed with ⟨_, stepped⟩
  refine ⟨_, state, bridge, _, reached, isPointed, stepped,
    (noneStale_iff reached isPointed stepped).mpr fun key client found _ => ?_⟩
  have mem := AList.mem_lookup_iff.mp found
  have condition := List.all_eq_true.mp conditions ⟨key, client⟩ mem
  rw [Bool.and_eq_true] at condition
  rcases List.any_eq_true.mp condition.2 with ⟨other, memOther, inOther⟩
  rw [Bool.and_eq_true, Bool.not_eq_true'] at inOther
  exact Or.inr ⟨Or.inl condition.1, other, memOther, inOther.1, inOther.2⟩

/-- A client is left in a channel that exists with capital letters. -/
theorem stale_in_capital_channel :
    ∃ actions state bridge next, run (step .lenient) .initial actions = some state ∧
      pointedBridge .lenient state (ascii "#chan") (ascii "2") (ascii "20") [] = some bridge ∧
      step .lenient state (.set (ascii "#chan") (ascii "2") (ascii "20") []) = some next ∧
      ¬NoneStale .lenient bridge next := by
  have evaluated :
      ((run (step .lenient) .initial
        [.create (ascii "#Chan"), .add (ascii "#chan") (ascii "1") (ascii "10") [],
          .arrive 0 (ascii "42") (ascii "Zed") ⟨true, some (ascii "Zed"), false⟩]).bind
        fun state =>
          (pointedBridge .lenient state (ascii "#chan") (ascii "2") (ascii "20") []).bind
            fun bridge =>
              (step .lenient state (.set (ascii "#chan") (ascii "2") (ascii "20") [])).map
                fun next => next.clients.entries.any fun entry =>
                  clientKey .lenient bridge entry.2.userId == some entry.1 &&
                    inChannel .lenient next entry.2 bridge.ircChannel) = some true := by
    decide +kernel
  rcases Option.bind_eq_some_iff.mp evaluated with ⟨state, reached, rest⟩
  rcases Option.bind_eq_some_iff.mp rest with ⟨bridge, isPointed, rest'⟩
  rcases Option.map_eq_some_iff.mp rest' with ⟨next, stepped, stale⟩
  refine ⟨_, state, bridge, next, reached, isPointed, stepped, fun noneStale => ?_⟩
  rcases List.any_eq_true.mp stale with ⟨⟨key, client⟩, mem, isStale⟩
  rw [Bool.and_eq_true, beq_iff_eq] at isStale
  have outside := (noneStale key client (AList.mem_lookup_iff.mpr mem) isStale.1).1
  rw [outside] at isStale
  cases isStale.2

end Pointing

end Anope.BridgeServ
