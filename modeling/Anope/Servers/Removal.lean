import Anope.Library.Forest
import Anope.Library.Table
import Anope.Text.Casemap

/-!
# Servers

The servers of the network, each linked to its uplink, and the users that are on them.  Servers
are known by their addresses.
-/

namespace Anope.Servers

open Library.Table Anope.Text

/-- `Server`; `α` are the addresses of servers. -/
structure Server (α : Type) where
  name : Str
  sid : Str
  uplink : Option α
  links : List α
  quitReason : Str
  quitting : Bool

/-- `User`. -/
structure User (α : Type) where
  server : Option α
  quit : Bool
  deriving DecidableEq, Repr

/-- The heap of servers, the tables that know them, and the users. -/
structure State (α υ : Type) where
  servers : AList fun _ : α => Server α
  /-- `Servers::ByName`; names are equal up to case. -/
  byName : AList fun _ : Str => α
  /-- `Servers::ByID`. -/
  byID : AList fun _ : Str => α
  /-- The users that `UserListByNick` has, in its order. -/
  users : AList fun _ : υ => User α
  /-- `User::quitting_users`. -/
  quittingUsers : List υ

variable {α υ : Type}

/-- The state before the first server is made. -/
def State.initial : State α υ where
  servers := ∅
  byName := ∅
  byID := ∅
  users := ∅
  quittingUsers := []

namespace State

variable [DecidableEq α] [DecidableEq υ]

/-- Change a server of the heap. -/
def update (this : α) (change : Server α → Server α) (state : State α υ) : State α υ :=
  { state with servers := modify this change state.servers }

/-- `Server::AddLink`. -/
def addLink (this link : α) (state : State α υ) : State α υ :=
  state.update this fun server => { server with links := server.links ++ [link] }

/-- A new object in the heap and in the tables. -/
def enter (casemap : Casemap) (this : α) (up : Option α) (sname ssid : Str)
    (state : State α υ) : State α υ :=
  { state with
    servers := state.servers.insert this
      { name := sname, sid := ssid, uplink := up, links := [], quitReason := [],
        quitting := false }
    byName := state.byName.insert (casemap.ciStr sname) this
    byID :=
      if ssid.isEmpty then state.byID
      else state.byID.insert (casemap.ciStr ssid) this }

/-- The constructor of `Server`, at the address of the new object, but for the burst that follows
when the uplink is linked. -/
def newServer (casemap : Casemap) (this : α) (up : Option α) (sname ssid : Str)
    (state : State α υ) : State α υ :=
  match up with
  | none => state.enter casemap this none sname ssid
  | some up => (state.enter casemap this (some up) sname ssid).addLink up this

/-- `User::Quit`. -/
def quitUser (u : υ) (state : State α υ) : State α υ :=
  match state.users.lookup u with
  | none => state
  | some user =>
      if user.quit then state
      else
        { state with
          users := modify u (fun user => { user with quit := true }) state.users
          quittingUsers := state.quittingUsers ++ [u] }

/-- What `~Server` does to a user. -/
def dropUser (this : α) (state : State α υ) (u : υ) : State α υ :=
  match state.users.lookup u with
  | none => state
  | some user =>
      if user.server = some this then
        let quit := state.quitUser u
        { quit with users := modify u (fun user => { user with server := none }) quit.users }
      else state

/-- The loop of `~Server` over the users. -/
def dropUsers (this : α) (state : State α υ) : State α υ :=
  state.users.keys.foldl (dropUser this) state

/-- `Server::DelLink`; it throws when there are no links. -/
def delLink (this link : α) (state : State α υ) : Option (State α υ) :=
  match state.servers.lookup this with
  | none => none
  | some server =>
      if server.links.isEmpty then none
      else some (state.update this fun server => { server with links := server.links.erase link })

/-- A server leaves its uplink. -/
def leave (this : α) (state : State α υ) : Option (State α υ) :=
  match state.servers.lookup this with
  | none => none
  | some server =>
      match server.uplink with
      | none => some state
      | some up => state.delLink up this

/-- The loop of `~Server` over its links, from the last one on. -/
def deleteLinks (delete : α → Str → State α υ → Option (State α υ)) (this : α) :
    Nat → State α υ → Option (State α υ)
  | 0, state => some state
  | i + 1, state =>
      match state.servers.lookup this with
      | none => none
      | some server =>
          match server.links[i]? with
          | none => none
          | some link => (delete link server.quitReason state).bind (deleteLinks delete this i)

/-- The tables forget a server, and it is destroyed. -/
def forget (casemap : Casemap) (this : α) (state : State α υ) : Option (State α υ) :=
  match state.servers.lookup this with
  | none => none
  | some server =>
      some { state with
        servers := state.servers.erase this
        byName := state.byName.erase (casemap.ciStr server.name)
        byID :=
          if server.sid.isEmpty then state.byID
          else state.byID.erase (casemap.ciStr server.sid) }

/-- How many links a server has. -/
def linkCount (this : α) (state : State α υ) : Nat :=
  match state.servers.lookup this with
  | none => 0
  | some server => server.links.length

/-- What `Server::Delete` does before the destructor. -/
def mark (this : α) (reason : Str) (state : State α υ) : State α υ :=
  state.update this fun server => { server with quitReason := reason, quitting := true }

/-- `Server::Delete` with the destructor, where a server that does not exist cannot be read.  The
destructors that run at a time are bounded. -/
def delete (casemap : Casemap) : Nat → α → Str → State α υ → Option (State α υ)
  | 0, _, _, _ => none
  | bound + 1, this, reason, state =>
      (((state.mark this reason).dropUsers this).leave this).bind fun left =>
        (left.deleteLinks (delete casemap bound) this (left.linkCount this)).bind fun alone =>
          alone.forget casemap this

end State

end Anope.Servers

/-!
## The removal of servers

What is left when servers are gone: the tables without them, and their users quit.
-/

namespace Anope.Servers

open Library Library.Table Anope.Text

variable {α υ : Type} [DecidableEq α] [DecidableEq υ]

/-- Whether a user is on one of the servers. -/
def User.isOn (gone : List α) (user : User α) : Bool :=
  match user.server with
  | none => false
  | some server => decide (server ∈ gone)

/-- A user when servers are gone. -/
def User.leave (gone : List α) (user : User α) : User α :=
  if user.isOn gone then { server := none, quit := true } else user

/-- Whether a user quits when servers go. -/
def State.quitsWith (gone : List α) (state : State α υ) (u : υ) : Bool :=
  (state.users.lookup u).any fun user => user.isOn gone && !user.quit

namespace User

theorem isOn_append (gone more : List α) (user : User α) :
    user.isOn (gone ++ more) = (user.isOn gone || user.isOn more) := by
  rw [isOn, isOn, isOn]
  cases user.server with
  | none => rfl
  | some server => simp only [List.mem_append, Bool.decide_or]

theorem isOn_congr {gone gone' : List α} (same : ∀ a, a ∈ gone ↔ a ∈ gone') :
    User.isOn gone = User.isOn gone' := by
  funext user
  rw [isOn, isOn]
  cases user.server with
  | none => rfl
  | some server => simp only [same]

theorem leave_append (gone more : List α) (user : User α) :
    user.leave (gone ++ more) = (user.leave gone).leave more := by
  rw [leave, isOn_append]
  cases isGone : user.isOn gone with
  | true =>
      rw [Bool.true_or, if_pos rfl, leave, leave, isGone, if_pos rfl]
      rfl
  | false =>
      rw [Bool.false_or]
      have same : user.leave gone = user := by rw [leave, isGone, if_neg Bool.false_ne_true]
      rw [same, leave]

end User

/-- The users of servers quit, each of them once. -/
structure Drops (gone : List α) (before after : State α υ) : Prop where
  users : ∀ u, after.users.lookup u = (before.users.lookup u).map (User.leave gone)
  quits : ∃ newly, after.quittingUsers = before.quittingUsers ++ newly ∧ newly.Nodup ∧
    ∀ u, u ∈ newly ↔ before.quitsWith gone u = true

namespace Drops

variable {gone more : List α} {before middle after : State α υ}

theorem congr (drops : Drops gone before after) (same : ∀ a, a ∈ gone ↔ a ∈ more) :
    Drops more before after := by
  have isOn := User.isOn_congr same
  have leave : User.leave gone = User.leave more := by
    funext user
    rw [User.leave, User.leave, isOn]
  refine ⟨leave ▸ drops.users, ?_⟩
  obtain ⟨newly, quitting, distinct, members⟩ := drops.quits
  refine ⟨newly, quitting, distinct, fun u => (members u).trans ?_⟩
  rw [State.quitsWith, State.quitsWith, isOn]

theorem quitsWith_append (first : Drops gone before middle) (u : υ) :
    before.quitsWith (gone ++ more) u = (before.quitsWith gone u || middle.quitsWith more u) := by
  rw [State.quitsWith, State.quitsWith, State.quitsWith, first.users]
  cases before.users.lookup u with
  | none => rfl
  | some user =>
      simp only [Option.map_some, Option.any_some, User.isOn_append, User.leave]
      cases isGone : user.isOn gone with
      | true => simp [User.isOn]
      | false => simp

theorem not_quitsWith (first : Drops gone before middle) {u : υ}
    (quits : before.quitsWith gone u = true) : middle.quitsWith more u = false := by
  rw [State.quitsWith] at quits ⊢
  rw [first.users]
  cases found : before.users.lookup u with
  | none => rfl
  | some user =>
      rw [found, Option.any_some, Bool.and_eq_true] at quits
      rw [Option.map_some, Option.any_some, User.leave, quits.1]
      rfl

theorem trans (first : Drops gone before middle) (second : Drops more middle after) :
    Drops (gone ++ more) before after := by
  constructor
  · intro u
    rw [second.users, first.users, Option.map_map]
    refine congrArg (Option.map · _) ?_
    funext user
    exact (User.leave_append gone more user).symm
  · obtain ⟨newly, quitting, distinct, members⟩ := first.quits
    obtain ⟨newly', quitting', distinct', members'⟩ := second.quits
    refine ⟨newly ++ newly', ?_, ?_, fun u => ?_⟩
    · rw [quitting', quitting, List.append_assoc]
    · refine List.nodup_append.mpr ⟨distinct, distinct', ?_⟩
      rintro u mem _ mem' rfl
      have quits := (members' u).mp mem'
      rw [first.not_quitsWith ((members u).mp mem)] at quits
      exact Bool.false_ne_true quits
    · rw [List.mem_append, members, members', first.quitsWith_append, Bool.or_eq_true]

/-- Of the users only what is read matters. -/
theorem of_same (drops : Drops gone before middle) (users : after.users = middle.users)
    (quitting : after.quittingUsers = middle.quittingUsers) : Drops gone before after :=
  ⟨fun u => users ▸ drops.users u, quitting ▸ drops.quits⟩

theorem from_same (drops : Drops gone middle after) (users : middle.users = before.users)
    (quitting : middle.quittingUsers = before.quittingUsers) : Drops gone before after := by
  refine ⟨fun u => users ▸ drops.users u, ?_⟩
  obtain ⟨newly, is, distinct, members⟩ := drops.quits
  refine ⟨newly, quitting ▸ is, distinct, fun u => (members u).trans ?_⟩
  rw [State.quitsWith, State.quitsWith, users]

end Drops

/-! ## The users of one server -/

theorem User.isOn_singleton (this : α) (user : User α) :
    user.isOn [this] = decide (user.server = some this) := by
  rw [isOn]
  cases user.server with
  | none => rfl
  | some server => simp

namespace State

variable (this : α) (state : State α υ)

theorem dropUser_of_missing {u : υ} (missing : state.users.lookup u = none) :
    state.dropUser this u = state := by
  rw [dropUser, missing]

theorem dropUser_of_elsewhere {u : υ} {user : User α} (found : state.users.lookup u = some user)
    (elsewhere : user.server ≠ some this) : state.dropUser this u = state := by
  rw [dropUser, found]
  exact if_neg elsewhere

theorem dropUser_of_found {u : υ} {user : User α} (found : state.users.lookup u = some user)
    (here : user.server = some this) :
    state.dropUser this u =
      { state.quitUser u with
        users := modify u (fun user => { user with server := none }) (state.quitUser u).users } := by
  rw [dropUser, found]
  exact if_pos here

omit [DecidableEq α] in
theorem quitUser_of_quit {u : υ} {user : User α} (found : state.users.lookup u = some user)
    (quit : user.quit = true) : state.quitUser u = state := by
  rw [quitUser, found]
  exact if_pos quit

omit [DecidableEq α] in
theorem quitUser_of_not_quit {u : υ} {user : User α} (found : state.users.lookup u = some user)
    (stays : user.quit = false) :
    state.quitUser u =
      { state with
        users := modify u (fun user => { user with quit := true }) state.users
        quittingUsers := state.quittingUsers ++ [u] } := by
  rw [quitUser, found]
  exact if_neg (by simp [stays])

omit [DecidableEq α] in
theorem users_quitUser (u : υ) :
    (state.quitUser u).users = modify u (fun user => { user with quit := true }) state.users := by
  cases found : state.users.lookup u with
  | none =>
      rw [quitUser, found]
      refine ext_of_keys_of_lookup (keys_modify _ _ _).symm fun v => ?_
      by_cases same : v = u
      · rw [same, lookup_modify_self, found]
        rfl
      · rw [lookup_modify_ne same]
  | some user =>
      cases quit : user.quit with
      | false => rw [quitUser_of_not_quit state found quit]
      | true =>
          rw [quitUser_of_quit state found quit]
          refine ext_of_keys_of_lookup (keys_modify _ _ _).symm fun v => ?_
          by_cases same : v = u
          · rw [same, lookup_modify_self, found, Option.map_some, ← quit]
          · rw [lookup_modify_ne same]

theorem lookup_dropUser (u v : υ) :
    (state.dropUser this u).users.lookup v =
      if v = u then (state.users.lookup u).map (User.leave [this])
      else state.users.lookup v := by
  cases found : state.users.lookup u with
  | none =>
      rw [dropUser_of_missing this state found]
      split
      · rename_i same
        rw [same, found]
        rfl
      · rfl
  | some user =>
      by_cases here : user.server = some this
      · rw [dropUser_of_found this state found here, users_quitUser]
        by_cases same : v = u
        · rw [if_pos same, same, lookup_modify_self, lookup_modify_self, found, Option.map_some,
            Option.map_some, Option.map_some, User.leave, User.isOn_singleton,
            if_pos (decide_eq_true here)]
        · rw [if_neg same, lookup_modify_ne same, lookup_modify_ne same]
      · have stays : user.leave [this] = user := by
          rw [User.leave, User.isOn_singleton, if_neg (by simpa using here)]
        rw [dropUser_of_elsewhere this state found here, Option.map_some, stays]
        split
        · rename_i same
          rw [same, found]
        · rfl

theorem quittingUsers_dropUser (u : υ) :
    (state.dropUser this u).quittingUsers =
      state.quittingUsers ++ if state.quitsWith [this] u = true then [u] else [] := by
  rw [quitsWith]
  cases found : state.users.lookup u with
  | none =>
      rw [dropUser_of_missing this state found]
      exact (List.append_nil _).symm
  | some user =>
      rw [Option.any_some, User.isOn_singleton]
      by_cases here : user.server = some this
      · rw [dropUser_of_found this state found here]
        cases quit : user.quit with
        | false => simp [quitUser_of_not_quit state found quit, here]
        | true => simp [quitUser_of_quit state found quit]
      · simp [dropUser_of_elsewhere this state found here, here]

/-- A user in the loop does nothing to the servers. -/
theorem dropUser_servers (u : υ) : (state.dropUser this u).servers = state.servers ∧
    (state.dropUser this u).byName = state.byName ∧
    (state.dropUser this u).byID = state.byID := by
  rw [dropUser]
  split
  · exact ⟨rfl, rfl, rfl⟩
  · split
    · simp only [quitUser]
      split
      · exact ⟨rfl, rfl, rfl⟩
      · split <;> exact ⟨rfl, rfl, rfl⟩
    · exact ⟨rfl, rfl, rfl⟩

theorem foldl_dropUser_servers (list : List υ) :
    (list.foldl (dropUser this) state).servers = state.servers ∧
      (list.foldl (dropUser this) state).byName = state.byName ∧
      (list.foldl (dropUser this) state).byID = state.byID := by
  induction list generalizing state with
  | nil => exact ⟨rfl, rfl, rfl⟩
  | cons u list ih =>
      obtain ⟨servers, byName, byID⟩ := dropUser_servers this state u
      obtain ⟨servers', byName', byID'⟩ := ih (state.dropUser this u)
      exact ⟨servers'.trans servers, byName'.trans byName, byID'.trans byID⟩

theorem lookup_foldl_dropUser {list : List υ} (distinct : list.Nodup) (v : υ) :
    (list.foldl (dropUser this) state).users.lookup v =
      if v ∈ list then (state.users.lookup v).map (User.leave [this])
      else state.users.lookup v := by
  induction list generalizing state with
  | nil => exact (if_neg List.not_mem_nil).symm
  | cons u list ih =>
      obtain ⟨new, distinct⟩ := List.nodup_cons.mp distinct
      rw [List.foldl_cons, ih (state.dropUser this u) distinct, lookup_dropUser]
      by_cases same : v = u
      · subst same
        rw [if_neg new, if_pos rfl, if_pos List.mem_cons_self]
      · rw [if_neg same]
        simp only [List.mem_cons, same, false_or]

theorem quittingUsers_foldl_dropUser {list : List υ} (distinct : list.Nodup) :
    (list.foldl (dropUser this) state).quittingUsers =
      state.quittingUsers ++ list.filter (state.quitsWith [this]) := by
  induction list generalizing state with
  | nil => exact (List.append_nil _).symm
  | cons u list ih =>
      obtain ⟨new, distinct⟩ := List.nodup_cons.mp distinct
      have others : list.filter ((state.dropUser this u).quitsWith [this]) =
          list.filter (state.quitsWith [this]) := by
        refine List.filter_congr fun v mem => ?_
        rw [quitsWith, quitsWith, lookup_dropUser, if_neg]
        exact fun same => new (same ▸ mem)
      rw [List.foldl_cons, ih (state.dropUser this u) distinct, others, quittingUsers_dropUser,
        List.append_assoc, List.filter_cons]
      refine congrArg (state.quittingUsers ++ ·) ?_
      split <;> rfl

/-- The loop over the users makes those of the server quit. -/
theorem drops_dropUsers : Drops [this] state (state.dropUsers this) := by
  constructor
  · intro u
    rw [dropUsers, lookup_foldl_dropUser this state state.users.keys_nodup]
    split
    · rfl
    · rename_i absent
      rw [AList.lookup_eq_none.mpr absent]
      rfl
  · refine ⟨state.users.keys.filter (state.quitsWith [this]),
      quittingUsers_foldl_dropUser this state state.users.keys_nodup,
      List.Nodup.filter _ state.users.keys_nodup, fun u => ?_⟩
    rw [List.mem_filter]
    refine ⟨And.right, fun quits => ⟨?_, quits⟩⟩
    refine AList.mem_keys.mp (AList.lookup_isSome.mp ?_)
    rw [quitsWith] at quits
    cases found : state.users.lookup u with
    | none =>
        rw [found] at quits
        cases quits
    | some user => rfl

end State

end Anope.Servers
