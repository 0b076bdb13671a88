import Anope.Bridge.Service.Core
import Anope.Library.Keyed

/-!
# Recognising bridge clients

The servers that bridged spaces appear behind, the users on them, and the records of the
clients.  A message of a bridge client is not relayed because its user is on a server of the
bridge links, so the records, the users and the links have to be kept in step.  A user who has
quit is destroyed later, and `OnUserQuit` has to have found the record before that.
-/

namespace Anope.BridgeServ

open Library Library.Run Anope.Text

/-! ## Servers, users and links -/

/-- `Server`. -/
structure LinkedServer where
  id : Nat
  name : Str
  juped : Bool
  deriving DecidableEq, Repr

/-- `::User`, which has no server when its server is gone. -/
structure LinkedUser where
  id : Nat
  nick : Str
  uid : Str
  server : Option Nat
  /-- Whether it is a bot of services. -/
  bot : Bool
  /-- Whether it is in `quitting_users`. -/
  quitting : Bool
  deriving DecidableEq, Repr

/-- What the IRCd and the configuration decide. -/
structure LinkEnv where
  casemap : Casemap
  isHostValid : Str → Bool
  /-- Whether `SendSVSKill` calls `KillInternal`. -/
  killsInternally : Bool

/-- The network, and what the bridge service keeps about it. -/
structure LinkState where
  servers : List LinkedServer
  users : List LinkedUser
  /-- Whether there is an uplink that has synchronised. -/
  synced : Bool
  /-- `GetDomain`. -/
  domain : Str → Str
  /-- `links`, with the numbers of the servers. -/
  links : AList fun _ : Str => Nat
  /-- `clients`, with the numbers of their users. -/
  clients : AList fun _ : Str => Nat
  nextServer : Nat
  nextUser : Nat

/-- A call of `EnsureClient`: the bridge and the remote user, and what `MakeNick` and `MakeUID`
come to. -/
structure Introduction where
  protocol : Str
  space : Str
  suffix : Str
  userId : Str
  nick : Str
  uid : Str
  /-- Whether a handler of `OnUserConnect` kills the client. -/
  killed : Bool
  deriving DecidableEq, Repr

/-- The key of the client. -/
def Introduction.key (introduction : Introduction) : Str :=
  linkKey introduction.protocol introduction.space ++ ascii "/" ++ introduction.suffix ++
    ascii "/" ++ introduction.userId

/-- The number of `Me`. -/
def meId : Nat := 0

namespace LinkState

/-- Services that have started. -/
def initial (me : Str) : LinkState where
  servers := [⟨meId, me, false⟩]
  users := []
  synced := false
  domain := fun _ => []
  links := ∅
  clients := ∅
  nextServer := 1
  nextUser := 0

/-- The user of a number, while it exists. -/
def userOf (state : LinkState) (user : Nat) : Option LinkedUser :=
  state.users.find? fun other => other.id = user

/-- `u->server`. -/
def serverOf (state : LinkState) (user : Nat) : Option Nat :=
  (state.userOf user).bind LinkedUser.server

/-- `IsBridgeClient`. -/
def isBridgeClient (state : LinkState) (user : Nat) : Bool :=
  match state.serverOf user with
  | none => false
  | some server => state.links.entries.any fun entry => entry.2 = server

/-- `User::Find` by nickname. -/
def findNick (env : LinkEnv) (state : LinkState) (nick : Str) : Option LinkedUser :=
  state.users.find? fun user => env.casemap.equalsCi user.nick nick

/-- `User::Find` by UID. -/
def findUid (env : LinkEnv) (state : LinkState) (uid : Str) : Option LinkedUser :=
  state.users.find? fun user => env.casemap.equalsCi user.uid uid

/-! ## Users -/

/-- Change the user of this number. -/
def modifyUser (state : LinkState) (user : Nat) (change : LinkedUser → LinkedUser) : LinkState :=
  { state with
    users := state.users.map fun other => if other.id = user then change other else other }

/-- `ModuleBridgeServ::OnUserQuit`: the first record of the user is forgotten. -/
def onUserQuit (user : Nat) (state : LinkState) : LinkState :=
  match state.clients.entries.find? fun entry => entry.2 = user with
  | none => state
  | some entry => { state with clients := state.clients.erase entry.1 }

/-- `User::Quit`. -/
def quit (user : Nat) (state : LinkState) : LinkState :=
  match state.userOf user with
  | none => state
  | some found =>
      if found.quitting then state
      else (onUserQuit user state).modifyUser user fun other => { other with quitting := true }

/-- `User::Kill`. -/
def kill (env : LinkEnv) (user : Nat) (state : LinkState) : LinkState :=
  if env.killsInternally then quit user state else state

/-- `CollideKill`. -/
def collideKill (env : LinkEnv) (target : LinkedUser) (state : LinkState) : LinkState :=
  if target.server ≠ some meId then kill env target.id state
  else if target.bot then state
  else quit target.id state

/-- `User::QuitUsers`. -/
def quitUsers (state : LinkState) : LinkState :=
  { state with users := state.users.filter fun user => !user.quitting }

/-- `User::OnIntroduce`; a handler of `OnUserConnect` may kill the user that is made. -/
def onIntroduce (env : LinkEnv) (nick uid : Str) (server : Nat) (bot killed : Bool)
    (state : LinkState) : LinkState × Option Nat :=
  match (findNick env state nick).or (if uid = [] then none else findUid env state uid) with
  | some other => (collideKill env other state, none)
  | none =>
      let made := { state with
        users := state.users ++
          [{ id := state.nextUser, nick, uid, server := some server, bot, quitting := false }]
        nextUser := state.nextUser + 1 }
      (if killed then kill env state.nextUser made else made, some state.nextUser)

/-- `User::ChangeNick`. -/
def changeNick (env : LinkEnv) (user : Nat) (nick : Str) (state : LinkState) : LinkState :=
  match state.userOf user with
  | none => state
  | some found =>
      let renamed := state.modifyUser user fun other => { other with nick }
      if env.casemap.equalsCi found.nick nick then renamed
      else
        match findNick env state nick with
        | none => renamed
        | some other => collideKill env other (collideKill env found renamed)

/-! ## Servers -/

/-- `ModuleBridgeServ::OnServerQuit`. -/
def onServerQuit (server : Nat) (state : LinkState) : LinkState :=
  { state with
    clients := Table.filter (fun _ user => decide (state.serverOf user ≠ some server)) state.clients
    links := Table.filter (fun _ other => decide (other ≠ server)) state.links }

/-- The destructor of a server: its users quit, and are on no server. -/
def destroyServer (server : Nat) (state : LinkState) : LinkState :=
  let left := (state.users.filter fun user => user.server = some server).foldl
    (fun state user => quit user.id state) state
  { left with
    servers := left.servers.filter fun other => other.id ≠ server
    users := left.users.map fun user =>
      if user.server = some server then { user with server := none } else user }

/-- `Server::Delete`; the destructor deletes the servers behind it in the same way. -/
def deleteServer (server : Nat) (state : LinkState) : LinkState :=
  destroyServer server (onServerQuit server state)

/-- A new `Server`. -/
def addServer (name : Str) (juped : Bool) (state : LinkState) : LinkState :=
  { state with
    servers := state.servers ++ [⟨state.nextServer, name, juped⟩]
    nextServer := state.nextServer + 1 }

/-- The end of the uplink: servers that are not juped are deleted. -/
def disconnect (state : LinkState) : LinkState :=
  { (state.servers.filter fun server => !server.juped && server.id ≠ meId).foldl
      (fun state server => deleteServer server.id state) state with
    synced := false }

/-- `EnsureLink`. -/
def ensureLink (env : LinkEnv) (protocol space : Str) (state : LinkState) :
    LinkState × Option Nat :=
  match state.links.lookup (linkKey protocol space) with
  | some server => (state, some server)
  | none =>
      let name := space ++ ascii "." ++ state.domain protocol
      if state.synced = false ∨ env.isHostValid name = false ∨ name.contains 46 = false then
        (state, none)
      else
        match state.servers.find? fun server => env.casemap.equalsCi server.name name with
        | some existing =>
            if existing.juped then
              ({ state with links := state.links.insert (linkKey protocol space) existing.id },
                some existing.id)
            else (state, none)
        | none =>
            ({ addServer name true state with
                links := state.links.insert (linkKey protocol space) state.nextServer },
              some state.nextServer)

/-! ## Clients -/

/-- `EnsureClient`.  A client that is there is renamed at most. -/
def ensureClient (env : LinkEnv) (introduction : Introduction) (state : LinkState) : LinkState :=
  if (state.clients.lookup introduction.key).isSome then state
  else
    let (state, link) := ensureLink env introduction.protocol introduction.space state
    match link with
    | none => state
    | some link =>
        if introduction.nick = [] then state
        else
          let (state, user) := onIntroduce env introduction.nick introduction.uid link false
            introduction.killed state
          match user with
          | none => state
          | some user => { state with clients := state.clients.insert introduction.key user }

/-- `RemoveAllClients`. -/
def removeAllClients (state : LinkState) : LinkState :=
  let left := state.clients.entries.foldl (fun state entry => quit entry.2 state) state
  left.links.entries.foldl (fun state entry => deleteServer entry.2 state)
    { left with clients := ∅, links := ∅ }

end LinkState

/-- What happens on the network and in the service. -/
inductive LinkEvent where
  /-- A remote user is relayed. -/
  | ensureClient (introduction : Introduction)
  /-- A server is introduced: the uplink, one behind it, or a jupe. -/
  | addServer (name : Str) (juped : Bool)
  /-- The uplink has synchronised. -/
  | sync
  /-- The uplink is lost. -/
  | disconnect
  /-- A server is deleted. -/
  | squit (server : Nat)
  /-- Somebody else's user is introduced. -/
  | introduce (nick uid : Str) (server : Nat) (bot killed : Bool)
  /-- A user changes its nickname, or services change it. -/
  | changeNick (user : Nat) (nick : Str)
  /-- A user quits, is killed, is reaped, or has left its space. -/
  | quit (user : Nat)
  /-- The domain of a protocol is configured. -/
  | configure (protocol domain : Str)
  /-- `QuitUsers`. -/
  | quitUsers
  deriving DecidableEq, Repr

namespace LinkState

/-- One event. -/
def step (env : LinkEnv) (state : LinkState) : LinkEvent → Option LinkState
  | .ensureClient introduction => some (ensureClient env introduction state)
  | .addServer name juped => some (addServer name juped state)
  | .sync => some { state with synced := true }
  | .disconnect => some (disconnect state)
  | .squit server => if server = meId then none else some (deleteServer server state)
  | .introduce nick uid server bot killed =>
      some (onIntroduce env nick uid server bot killed state).1
  | .changeNick user nick => some (changeNick env user nick state)
  | .quit user => some (quit user state)
  | .configure protocol domain =>
      let old := state.domain protocol
      let state := { state with domain := Function.update state.domain protocol domain }
      some (if old ≠ [] ∧ old ≠ domain then removeAllClients state else state)
  | .quitUsers => some (quitUsers state)

/-- The user of every record is a bridge client. -/
def Recognised (state : LinkState) : Prop :=
  ∀ key user, state.clients.lookup key = some user → state.isBridgeClient user = true

/-- No user who has quit has a record. -/
def Settled (state : LinkState) : Prop :=
  ∀ user ∈ state.users, user.quitting = true → ∀ key, state.clients.lookup key ≠ some user.id

/-- When the users who have quit are destroyed, none of them has a record. -/
def DestroysUntracked (state : LinkState) : LinkEvent → Prop
  | .quitUsers => state.Settled
  | _ => True

/-! ## What keeps clients recognised -/

/-- A server is among the bridge links. -/
def IsLink (state : LinkState) (server : Nat) : Prop :=
  ∃ key, state.links.lookup key = some server

/-- The numbers tell the users apart. -/
structure Sound (state : LinkState) : Prop where
  distinct : (state.users.map LinkedUser.id).Nodup
  older : ∀ user ∈ state.users, user.id < state.nextUser

variable {env : LinkEnv} {state next before middle after : LinkState}

theorem isBridgeClient_iff {user : Nat} : state.isBridgeClient user = true ↔
    ∃ server, state.serverOf user = some server ∧ state.IsLink server := by
  rw [isBridgeClient]
  cases isServer : state.serverOf user with
  | none => exact iff_of_false Bool.false_ne_true fun ⟨_, is, _⟩ => by cases is
  | some server =>
      rw [List.any_eq_true]
      constructor
      · rintro ⟨⟨key, other⟩, mem, same⟩
        rw [decide_eq_true_eq] at same
        cases same
        exact ⟨_, rfl, key, AList.mem_lookup_iff.mpr mem⟩
      · rintro ⟨other, is, key, found⟩
        cases is
        exact ⟨⟨key, server⟩, AList.mem_lookup_iff.mp found, decide_eq_true rfl⟩

/-- No client is new, and no user leaves its server, nor a link the table. -/
structure Quiet (before after : LinkState) : Prop where
  clients : ∀ key user, after.clients.lookup key = some user →
    before.clients.lookup key = some user
  servers : ∀ user server, before.serverOf user = some server → after.serverOf user = some server
  links : ∀ server, before.IsLink server → after.IsLink server
  sound : before.Sound → after.Sound

theorem Quiet.refl (state : LinkState) : Quiet state state :=
  ⟨fun _ _ => id, fun _ _ => id, fun _ => id, id⟩

theorem Quiet.trans (left : Quiet before middle) (right : Quiet middle after) :
    Quiet before after where
  clients := fun key user found => left.clients key user (right.clients key user found)
  servers := fun user server is => right.servers user server (left.servers user server is)
  links := fun server is => right.links server (left.links server is)
  sound := fun sound => right.sound (left.sound sound)

theorem Recognised.of_quiet (recognised : before.Recognised) (quiet : Quiet before after) :
    after.Recognised := by
  intro key user found
  obtain ⟨server, isServer, isLink⟩ :=
    isBridgeClient_iff.mp (recognised key user (quiet.clients key user found))
  exact isBridgeClient_iff.mpr
    ⟨server, quiet.servers user server isServer, quiet.links server isLink⟩

/-- Changing users who keep their numbers. -/
theorem userOf_map {change : LinkedUser → LinkedUser} (ids : ∀ user, (change user).id = user.id)
    (user : Nat) : ({ state with users := state.users.map change } : LinkState).userOf user =
      (state.userOf user).map change := by
  rw [userOf, userOf, List.find?_map]
  refine congrArg (fun test => (state.users.find? test).map change) (funext fun other => ?_)
  rw [Function.comp_apply, ids]

theorem sound_map (sound : state.Sound) {change : LinkedUser → LinkedUser}
    (ids : ∀ user, (change user).id = user.id) :
    ({ state with users := state.users.map change } : LinkState).Sound := by
  constructor
  · rw [List.map_map]
    exact (List.map_congr_left fun user _ => ids user) ▸ sound.distinct
  · intro user mem
    obtain ⟨old, isOld, rfl⟩ := List.mem_map.mp mem
    rw [ids]
    exact sound.older old isOld

theorem quiet_modifyUser (user : Nat) {change : LinkedUser → LinkedUser}
    (ids : ∀ user, (change user).id = user.id)
    (servers : ∀ user, (change user).server = user.server) :
    Quiet state (state.modifyUser user change) := by
  have ids' : ∀ other : LinkedUser,
      (if other.id = user then change other else other).id = other.id := by
    intro other
    split
    · exact ids other
    · rfl
  refine ⟨fun _ _ => id, fun other server is => ?_, fun _ => id, fun sound => sound_map sound ids'⟩
  rw [serverOf, modifyUser, userOf_map ids', Option.bind_map]
  refine Eq.trans (congrArg (Option.bind _) (funext fun found => ?_)) is
  rw [Function.comp_apply]
  split
  · exact servers found
  · rfl

theorem quiet_onUserQuit (user : Nat) : Quiet state (onUserQuit user state) := by
  rw [onUserQuit]
  cases state.clients.entries.find? fun entry => entry.2 = user with
  | none => exact .refl state
  | some entry =>
      refine ⟨fun key other found => ?_, fun _ _ => id, fun _ => id,
        fun sound => ⟨sound.1, sound.2⟩⟩
      by_cases same : key = entry.1
      · subst same
        rw [AList.lookup_erase] at found
        cases found
      · rwa [AList.lookup_erase_ne same] at found

theorem quiet_quit (user : Nat) : Quiet state (quit user state) := by
  rw [quit]
  cases state.userOf user with
  | none => exact .refl state
  | some found =>
      dsimp only
      split
      · exact .refl state
      · exact (quiet_onUserQuit user).trans (quiet_modifyUser user (fun _ => rfl) fun _ => rfl)

theorem quiet_kill (user : Nat) : Quiet state (kill env user state) := by
  rw [kill]
  split
  · exact quiet_quit user
  · exact .refl state

theorem quiet_collideKill (target : LinkedUser) : Quiet state (collideKill env target state) := by
  rw [collideKill]
  split
  · exact quiet_kill target.id
  · split
    · exact .refl state
    · exact quiet_quit target.id

theorem quiet_changeNick (user : Nat) (nick : Str) :
    Quiet state (changeNick env user nick state) := by
  rw [changeNick]
  cases state.userOf user with
  | none => exact .refl state
  | some found =>
      have renamed : Quiet state (state.modifyUser user fun other => { other with nick }) :=
        quiet_modifyUser user (fun _ => rfl) fun _ => rfl
      dsimp only
      split
      · exact renamed
      · cases findNick env state nick with
        | none => exact renamed
        | some other =>
            exact renamed.trans ((quiet_collideKill found).trans (quiet_collideKill other))

theorem quiet_foldl {ι : Type} {change : LinkState → ι → LinkState}
    (each : ∀ state item, Quiet state (change state item)) (items : List ι) (state : LinkState) :
    Quiet state (items.foldl change state) :=
  List.foldlRecOn (motive := fun after : LinkState => Quiet state after) items change
    (.refl state) fun _ quiet item _ => quiet.trans (each _ item)

/-! ## Introductions -/

/-- A user that is made is on the server that it is made for. -/
theorem onIntroduce_cases (nick uid : Str) (server : Nat) (bot killed : Bool) :
    Quiet state (onIntroduce env nick uid server bot killed state).1 ∧
      (state.Sound → ∀ user, (onIntroduce env nick uid server bot killed state).2 = some user →
        (onIntroduce env nick uid server bot killed state).1.serverOf user = some server) := by
  rw [onIntroduce]
  cases (findNick env state nick).or (if uid = [] then none else findUid env state uid) with
  | some other => exact ⟨quiet_collideKill other, fun _ _ is => by cases is⟩
  | none =>
      dsimp only
      generalize isMade : ({ state with
          users := state.users ++ [{
            id := state.nextUser, nick, uid, server := some server, bot, quitting := false }]
          nextUser := state.nextUser + 1 } : LinkState) = made
      have killing : Quiet made (if killed then kill env state.nextUser made else made) := by
        split
        · exact quiet_kill state.nextUser
        · exact .refl made
      have appended (user : Nat) : made.userOf user = (state.userOf user).or
          (if state.nextUser = user then some {
            id := state.nextUser, nick, uid, server := some server, bot, quitting := false }
          else none) := by
        subst isMade
        rw [userOf, userOf, List.find?_append, List.find?_singleton]
        simp only [decide_eq_true_eq]
      have making : Quiet state made := by
        refine ⟨?_, fun user old is => ?_, ?_, fun sound => ?_⟩
        · subst isMade
          exact fun _ _ => id
        · obtain ⟨found, isFound, isOld⟩ := Option.bind_eq_some_iff.mp is
          rw [serverOf, appended, isFound]
          exact isOld
        · subst isMade
          exact fun _ => id
        · subst isMade
          obtain ⟨distinct, older⟩ := @Library.Keyed.numbered_concat _ state.users LinkedUser.id _
            ⟨state.nextUser, nick, uid, some server, bot, false⟩ sound.distinct sound.older rfl
          exact ⟨distinct, older⟩
      refine ⟨making.trans killing, fun sound user is => ?_⟩
      cases is
      refine killing.servers _ _ ?_
      have none : state.userOf state.nextUser = none := by
        rw [userOf, List.find?_eq_none]
        intro other mem same
        exact Nat.ne_of_lt (sound.older other mem) (of_decide_eq_true same)
      rw [serverOf, appended, none, if_pos rfl]
      rfl

/-- `EnsureLink` returns a server that is among the links then. -/
theorem ensureLink_cases (protocol space : Str) :
    Quiet state (ensureLink env protocol space state).1 ∧
      ∀ server, (ensureLink env protocol space state).2 = some server →
        (ensureLink env protocol space state).1.IsLink server := by
  rw [ensureLink]
  cases found : state.links.lookup (linkKey protocol space) with
  | some server =>
      refine ⟨.refl state, fun other is => ?_⟩
      cases is
      exact ⟨_, found⟩
  | none =>
      have inserted (servers : List LinkedServer) (nextServer server : Nat) :
          Quiet state { state with
            servers, nextServer
            links := state.links.insert (linkKey protocol space) server } := by
        refine ⟨fun _ _ => id, fun _ _ => id, fun other => ?_, fun sound => ⟨sound.1, sound.2⟩⟩
        rintro ⟨key, isLink⟩
        refine ⟨key, ?_⟩
        rwa [AList.lookup_insert_ne]
        rintro rfl
        cases found.symm.trans isLink
      dsimp only
      split
      · exact ⟨.refl state, fun _ is => by cases is⟩
      · split
        · split
          · refine ⟨inserted _ _ _, fun other is => ?_⟩
            cases is
            exact ⟨_, AList.lookup_insert _⟩
          · exact ⟨.refl state, fun _ is => by cases is⟩
        · refine ⟨inserted _ _ _, fun other is => ?_⟩
          cases is
          exact ⟨_, AList.lookup_insert _⟩

theorem recognised_ensureClient (sound : state.Sound) (recognised : state.Recognised)
    (introduction : Introduction) :
    (ensureClient env introduction state).Sound ∧
      (ensureClient env introduction state).Recognised := by
  rw [ensureClient]
  split
  · exact ⟨sound, recognised⟩
  · obtain ⟨linked, isLink⟩ :=
      @ensureLink_cases env state introduction.protocol introduction.space
    dsimp only
    cases found : (ensureLink env introduction.protocol introduction.space state).2 with
    | none => exact ⟨linked.sound sound, recognised.of_quiet linked⟩
    | some link =>
        dsimp only
        split
        · exact ⟨linked.sound sound, recognised.of_quiet linked⟩
        · obtain ⟨introduced, onLink⟩ := @onIntroduce_cases env
            (ensureLink env introduction.protocol introduction.space state).1
            introduction.nick introduction.uid link false introduction.killed
          have quiet := linked.trans introduced
          cases made : (onIntroduce env introduction.nick introduction.uid link false
              introduction.killed
              (ensureLink env introduction.protocol introduction.space state).1).2 with
          | none => exact ⟨quiet.sound sound, recognised.of_quiet quiet⟩
          | some user =>
              refine ⟨⟨(quiet.sound sound).1, (quiet.sound sound).2⟩, fun key other isClient => ?_⟩
              by_cases same : key = introduction.key
              · subst same
                rw [AList.lookup_insert] at isClient
                cases isClient
                exact isBridgeClient_iff.mpr ⟨link, onLink (linked.sound sound) _ made,
                  introduced.links _ (isLink link found)⟩
              · rw [AList.lookup_insert_ne same] at isClient
                exact recognised.of_quiet quiet key other isClient

/-! ## Servers that go away -/

/-- Clients that are left are on the links that are left. -/
theorem deleteServer_keeps (server : Nat) :
    (∀ key user, (deleteServer server state).clients.lookup key = some user →
      state.clients.lookup key = some user) ∧
      (state.Sound → (deleteServer server state).Sound) ∧
      (state.Recognised → (deleteServer server state).Recognised) := by
  have ids (user : LinkedUser) :
      (if user.server = some server then { user with server := none } else user).id =
        user.id := by
    split <;> rfl
  have left : Quiet (onServerQuit server state)
      (((onServerQuit server state).users.filter fun user => user.server = some server).foldl
        (fun state user => quit user.id state) (onServerQuit server state)) :=
    quiet_foldl (fun _ (user : LinkedUser) => quiet_quit user.id) _ _
  have remains {key : Str} {user : Nat}
      (found : (deleteServer server state).clients.lookup key = some user) :
      state.clients.lookup key = some user ∧ state.serverOf user ≠ some server := by
    have kept := left.clients key user found
    rw [onServerQuit, Table.lookup_filter_eq_some] at kept
    exact ⟨kept.1, of_decide_eq_true kept.2⟩
  refine ⟨fun key user found => (remains found).1, fun sound => ?_,
    fun recognised key user found => ?_⟩
  · have quit : (onServerQuit server state).Sound := ⟨sound.1, sound.2⟩
    have sound' := left.sound quit
    have mapped := sound_map sound' ids
    exact ⟨mapped.1, mapped.2⟩
  · obtain ⟨isClient, elsewhere⟩ := remains found
    obtain ⟨other, isServer, key', isLink⟩ := isBridgeClient_iff.mp (recognised key user isClient)
    have differs : other ≠ server := fun same => elsewhere (same ▸ isServer)
    refine isBridgeClient_iff.mpr ⟨other, ?_, left.links other ⟨key', ?_⟩⟩
    · have stays := left.servers user other isServer
      obtain ⟨found', isFound, onOther⟩ := Option.bind_eq_some_iff.mp stays
      have mapped := @userOf_map
        (((onServerQuit server state).users.filter fun user => user.server = some server).foldl
          (fun state user => quit user.id state) (onServerQuit server state)) _ ids user
      rw [isFound, Option.map_some, if_neg] at mapped
      · exact Option.bind_eq_some_iff.mpr ⟨found', mapped, onOther⟩
      · rw [onOther]
        exact fun same => differs (Option.some.inj same)
    · rw [onServerQuit, Table.lookup_filter_eq_some]
      exact ⟨isLink, decide_eq_true differs⟩

theorem deleteServers_keep {ι : Type} (server : ι → Nat) (items : List ι) (state : LinkState) :
    (∀ key user, (items.foldl (fun state item => deleteServer (server item) state)
      state).clients.lookup key = some user → state.clients.lookup key = some user) ∧
      (state.Sound →
        (items.foldl (fun state item => deleteServer (server item) state) state).Sound) ∧
      (state.Recognised →
        (items.foldl (fun state item => deleteServer (server item) state) state).Recognised) := by
  refine List.foldlRecOn (motive := fun after : LinkState =>
    (∀ key user, after.clients.lookup key = some user → state.clients.lookup key = some user) ∧
      (state.Sound → after.Sound) ∧ (state.Recognised → after.Recognised)) items _
    ⟨fun _ _ => id, id, id⟩ fun middle kept item _ => ?_
  obtain ⟨clients, sound, recognised⟩ := @deleteServer_keeps middle (server item)
  exact ⟨fun key user found => kept.1 key user (clients key user found),
    fun before => sound (kept.2.1 before), fun before => recognised (kept.2.2 before)⟩

theorem removeAllClients_keeps (sound : state.Sound) :
    (removeAllClients state).Sound ∧ (removeAllClients state).Recognised := by
  have left : Quiet state
      (state.clients.entries.foldl (fun state entry => quit entry.2 state) state) :=
    quiet_foldl (fun _ (entry : Sigma fun _ : Str => Nat) => quiet_quit entry.2) _ _
  obtain ⟨clients, sound', -⟩ :=
    deleteServers_keep (fun entry : Sigma fun _ : Str => Nat => entry.2)
    (state.clients.entries.foldl (fun state entry => quit entry.2 state) state).links.entries
    { state.clients.entries.foldl (fun state entry => quit entry.2 state) state with
      clients := ∅, links := ∅ }
  refine ⟨sound' ⟨(left.sound sound).1, (left.sound sound).2⟩, fun key user found => ?_⟩
  cases clients key user found

/-! ## Users who have quit -/

theorem userOf_eq_some_iff (sound : state.Sound) {user : LinkedUser} {id : Nat} :
    state.userOf id = some user ↔ user ∈ state.users ∧ user.id = id := by
  have id_of {other : LinkedUser} (found : state.userOf id = some other) : other.id = id := by
    rw [userOf] at found
    have tested := List.find?_some found
    rwa [decide_eq_true_eq] at tested
  constructor
  · intro found
    exact ⟨List.mem_of_find?_eq_some found, id_of found⟩
  · rintro ⟨mem, isId⟩
    cases found : state.userOf id with
    | none => exact absurd (decide_eq_true isId) (List.find?_eq_none.mp found user mem)
    | some other =>
        exact congrArg some (List.inj_on_of_nodup_map sound.distinct
          (List.mem_of_find?_eq_some found) mem ((id_of found).trans isId.symm))

theorem sound_quitUsers (sound : state.Sound) : (quitUsers state).Sound :=
  ⟨sound.distinct.sublist (List.filter_sublist.map _),
    fun user mem => sound.older user (List.mem_of_mem_filter mem)⟩

/-- Clients stay recognised when their users are not destroyed. -/
theorem recognised_quitUsers_iff (sound : state.Sound) (recognised : state.Recognised) :
    (quitUsers state).Recognised ↔ state.Settled := by
  constructor
  · intro after user mem quitting key isClient
    obtain ⟨server, isServer, -⟩ := isBridgeClient_iff.mp (after key user.id isClient)
    obtain ⟨found, isFound, -⟩ := Option.bind_eq_some_iff.mp isServer
    obtain ⟨mem', same⟩ := (userOf_eq_some_iff (sound_quitUsers sound)).mp isFound
    obtain ⟨isUser, stays⟩ := List.mem_filter.mp mem'
    rw [List.inj_on_of_nodup_map sound.distinct isUser mem same, quitting] at stays
    exact Bool.false_ne_true stays
  · intro settled key user isClient
    obtain ⟨server, isServer, isLink⟩ := isBridgeClient_iff.mp (recognised key user isClient)
    obtain ⟨found, isFound, onServer⟩ := Option.bind_eq_some_iff.mp isServer
    obtain ⟨mem, isId⟩ := (userOf_eq_some_iff sound).mp isFound
    have stays : found.quitting = false := by
      rw [← Bool.not_eq_true]
      exact fun quitting => settled found mem quitting key (isId ▸ isClient)
    refine isBridgeClient_iff.mpr
      ⟨server, Option.bind_eq_some_iff.mpr ⟨found, ?_, onServer⟩, isLink⟩
    rw [userOf_eq_some_iff (sound_quitUsers sound)]
    exact ⟨List.mem_filter.mpr ⟨mem, by rw [stays]; rfl⟩, isId⟩

/-! ## Runs -/

theorem sound_initial (me : Str) : (initial me).Sound :=
  ⟨List.nodup_nil, fun _ mem => by cases mem⟩

/-- Only the end of users who have quit can leave a client without its user. -/
theorem exact_step {event : LinkEvent} (sound : state.Sound) (recognised : state.Recognised)
    (stepped : state.step env event = some next) :
    next.Sound ∧ (next.Recognised ↔ state.DestroysUntracked event) := by
  have of_quiet (quiet : Quiet state next) : next.Sound ∧ (next.Recognised ↔ True) :=
    ⟨quiet.sound sound, iff_true_intro (recognised.of_quiet quiet)⟩
  cases event with
  | ensureClient introduction =>
      cases stepped
      obtain ⟨sound', recognised'⟩ := recognised_ensureClient sound recognised introduction
      exact ⟨sound', iff_true_intro recognised'⟩
  | addServer name juped =>
      cases stepped
      exact of_quiet ⟨fun _ _ => id, fun _ _ => id, fun _ => id, fun sound => ⟨sound.1, sound.2⟩⟩
  | sync =>
      cases stepped
      exact of_quiet ⟨fun _ _ => id, fun _ _ => id, fun _ => id, fun sound => ⟨sound.1, sound.2⟩⟩
  | disconnect =>
      cases stepped
      obtain ⟨-, sound', recognised'⟩ := deleteServers_keep LinkedServer.id
        (state.servers.filter fun server => !server.juped && server.id ≠ meId) state
      exact ⟨⟨(sound' sound).1, (sound' sound).2⟩, iff_true_intro (recognised' recognised)⟩
  | squit server =>
      rw [step] at stepped
      split at stepped
      · cases stepped
      · cases stepped
        obtain ⟨-, sound', recognised'⟩ := @deleteServer_keeps state server
        exact ⟨sound' sound, iff_true_intro (recognised' recognised)⟩
  | introduce nick uid server bot killed =>
      cases stepped
      exact of_quiet (onIntroduce_cases nick uid server bot killed).1
  | changeNick user nick =>
      cases stepped
      exact of_quiet (quiet_changeNick user nick)
  | quit user =>
      cases stepped
      exact of_quiet (quiet_quit user)
  | configure protocol domain =>
      cases stepped
      split
      · have configured : ({ state with
            domain := Function.update state.domain protocol domain } : LinkState).Sound :=
          ⟨sound.1, sound.2⟩
        obtain ⟨sound', recognised'⟩ := removeAllClients_keeps configured
        exact ⟨sound', iff_true_intro recognised'⟩
      · exact ⟨⟨sound.1, sound.2⟩, iff_true_intro recognised⟩
  | quitUsers =>
      cases stepped
      exact ⟨sound_quitUsers sound, recognised_quitUsers_iff sound recognised⟩

/-- Clients are recognised in every state of a run exactly when no user is destroyed who has a
record. -/
theorem always_recognised_iff (env : LinkEnv) (me : Str) (events : List LinkEvent) :
    Always (step env) Recognised (initial me) events ↔
      EachStep (step env) DestroysUntracked (initial me) events :=
  always_iff_eachStep_of_kept Sound
    (fun sound recognised _ stepped => (exact_step sound recognised stepped).1)
    (fun sound recognised stepped => (exact_step sound recognised stepped).2)
    (sound_initial me) (fun _ _ found => by cases found) events

/-- An IRCd on which a killed user quits at once. -/
def killingEnv : LinkEnv where
  casemap := .ascii
  isHostValid := fun _ => true
  killsInternally := true

/-- A client that is killed while it is introduced is recorded afterwards, and then destroyed. -/
theorem not_recognised_killed : ¬∀ env me events,
    Always (step env) Recognised (initial me) events := by
  intro always
  have evaluated : ((run (step killingEnv) (initial (ascii "services.example"))
      [.configure (ascii "discord") (ascii "discord.example"),
        .addServer (ascii "hub.example") false,
        .sync, .ensureClient ⟨ascii "discord", ascii "1", [], ascii "42", ascii "Zed", [], true⟩,
        .quitUsers]).map fun state =>
          state.clients.entries.map fun entry => (entry.2, state.isBridgeClient entry.2)) =
      some [(0, false)] := by
    decide +kernel
  obtain ⟨state, reached, clients⟩ := Option.map_eq_some_iff.mp evaluated
  obtain ⟨entry, rest, isList, isEntry, -⟩ := List.map_eq_cons_iff.mp clients
  have mem : entry ∈ state.clients.entries := isList ▸ List.mem_cons_self
  have recognised := (always killingEnv _ _).of_run reached entry.1 entry.2
    (AList.mem_lookup_iff.mpr mem)
  rw [(Prod.mk.inj isEntry).2] at recognised
  exact Bool.false_ne_true recognised

end LinkState

end Anope.BridgeServ
