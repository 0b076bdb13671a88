import Anope.Library.Run
import Anope.Library.Table
import Anope.Net.Cidr.KeysExact

/-!
# Sessions

The session table of `os_session`: the hooks for users that connect and quit,
and the users they are called for.  A user may be killed while it is being
constructed, before `OnUserConnect` is called for it: its quit hook has been
called by then, and the connect hook passes over a user that is quitting.
-/

namespace Anope.OperServ

open Library Anope.Net

/-- The configuration of the module, and what is fixed around it.  `OnReload`
throws when a prefix length is out of range. -/
structure Config where
  sessionLimit : Nat
  maxSessionKill : Nat
  ipv4Cidr : Nat
  ipv6Cidr : Nat
  ipv4Cidr_le : ipv4Cidr ≤ 32
  ipv6Cidr_le : ipv6Cidr ≤ 128
  order : ByteOrder
  lib : Inet
  /-- Whether `SendSVSKill` of the protocol module calls `KillInternal`. -/
  killInternal : Bool

/-- `OperServ::Session`. -/
structure Session where
  count : Nat
  hits : Nat
  deriving DecidableEq, Repr

/-- What the hooks read of a `User`.  A text is made an Internet address or
none; `ulined` is missing for a user without a server. -/
structure User where
  ip : Sockaddrs
  ip_ne_unix : ∀ path, ip ≠ .unix path
  ulined : Option Bool

/-- `cidr(u->ip, u->ip.ipv6() ? ipv6_cidr : ipv4_cidr)`. -/
def Config.cidr (cfg : Config) (ip : Sockaddrs) : Cidr :=
  .build cfg.lib (.sockaddrs ip
    (UInt8.ofNat (if ip.family = some .inet6 then cfg.ipv6Cidr else cfg.ipv4Cidr)))

/-- Look a range up as `SessionMap::find` does, and put what `change` makes of
its session in its place; with no session left the element is erased. -/
def alter (order : ByteOrder) (change : Option Session → Option Session) :
    SessionMap Session → Cidr → Except Fault (SessionMap Session)
  | [], key => do
      let _ ← key.hash order
      return (change none).toList.map fun session => (key, session)
  | (stored, session) :: sessions, key => do
      let h ← key.hash order
      let storedHash ← stored.hash order
      let same ← if storedHash = h then stored.equal order key else pure false
      if same then
        return (change (some session)).toList.map (fun session => (stored, session)) ++ sessions
      else
        let altered ← alter order change sessions key
        return (stored, session) :: altered

/-- The judgement of `OnUserConnect` on a session before it is counted up;
`exception` is the limit of the exception that `FindException` finds. -/
def Session.kills (cfg : Config) (session : Session) (exception : Option Nat) : Bool :=
  decide (cfg.sessionLimit ≤ session.count) &&
    match exception with
    | some limit => decide (limit ≠ 0 ∧ limit ≤ session.count)
    | none => true

/-- `OnUserConnect` behind its guards: the table, and whether the user is killed.
`akill` says that there are AKILLs and none for the mask yet, so that one may be
added in place of the kill. -/
def countUp (cfg : Config) (sessions : SessionMap Session) (range : Cidr) (exempt : Bool)
    (exception : Option Nat) (akill : Bool) : Except Fault (SessionMap Session × Bool) := do
  match ← sessions.find cfg.order range with
  | some session =>
      let count := session.count + 1
      if session.kills cfg exception && !exempt then
        let hits := session.hits + 1
        let altered ← alter cfg.order (fun _ => some { count := count, hits := hits }) sessions range
        return (altered, !(cfg.maxSessionKill ≠ 0 ∧ cfg.maxSessionKill ≤ hits ∧ akill))
      else
        let altered ← alter cfg.order (fun _ => some { session with count := count }) sessions range
        return (altered, false)
  | none =>
      let altered ← alter cfg.order (fun _ => some { count := 1, hits := 0 }) sessions range
      return (altered, false)

/-- `OnUserConnect`. -/
def onUserConnect (cfg : Config) (sessions : SessionMap Session) (u : User)
    (quitting exempt : Bool) (exception : Option Nat) (akill : Bool) :
    Except Fault (SessionMap Session × Bool) :=
  if quitting ∨ cfg.sessionLimit = 0 ∨ exempt ∨ u.ulined ≠ some false then
    return (sessions, false)
  else if !(cfg.cidr u.ip).valid then
    return (sessions, false)
  else
    countUp cfg sessions (cfg.cidr u.ip) exempt exception akill

/-- `OnUserQuit` behind its guards. -/
def countDown (cfg : Config) (sessions : SessionMap Session) (range : Cidr) :
    Except Fault (SessionMap Session) := do
  match ← sessions.find cfg.order range with
  | none => return sessions
  | some session =>
      if 1 < session.count then
        alter cfg.order (fun _ => some { session with count := session.count - 1 }) sessions range
      else
        alter cfg.order (fun _ => none) sessions range

/-- `OnUserQuit`; `FindSessionIterator` finds nothing for an invalid range. -/
def onUserQuit (cfg : Config) (sessions : SessionMap Session) (u : User) :
    Except Fault (SessionMap Session) :=
  if cfg.sessionLimit = 0 ∨ u.ulined ≠ some false then
    return sessions
  else if !(cfg.cidr u.ip).valid then
    return sessions
  else
    countDown cfg sessions (cfg.cidr u.ip)

/-! ## The network -/

/-- The connected users and the session table. -/
structure State (α : Type) where
  users : AList fun _ : α => User
  sessions : SessionMap Session

/-- A user connects or quits.  Before the connect hook the user may be killed by
its constructor: a handler of its modes or of its login may do so. -/
inductive Action (α : Type) where
  | connect (a : α) (u : User) (killedBefore : Bool) (exception : Option Nat) (akill : Bool)
  | quit (a : α)

variable {α : Type} [DecidableEq α]

/-- The state before any user. -/
def State.initial : State α where
  users := ∅
  sessions := []

/-- `User::Quit` of a connected user. -/
def State.quit (cfg : Config) (state : State α) (a : α) (u : User) : Except Fault (State α) := do
  let sessions ← onUserQuit cfg state.sessions u
  return { users := state.users.erase a, sessions := sessions }

/-- The end of the constructor of `User`. -/
def State.connect (cfg : Config) (state : State α) (a : α) (u : User) (killedBefore : Bool)
    (exception : Option Nat) (akill : Bool) : Except Fault (State α) := do
  let exempt := u.ulined = some true
  if killedBefore then
    let sessions ← onUserQuit cfg state.sessions u
    let (sessions, _) ← onUserConnect cfg sessions u true exempt exception akill
    return { state with sessions := sessions }
  else
    let (sessions, killed) ← onUserConnect cfg state.sessions u false exempt exception akill
    let connected : State α := { users := state.users.insert a u, sessions := sessions }
    if killed && cfg.killInternal then
      connected.quit cfg a u
    else
      return connected

/-- A step from a state, or from the point on where nothing is defined.  A new
user has an address that is not in use, and a user quits once. -/
def step (cfg : Config) : Except Fault (State α) → Action α → Option (Except Fault (State α))
  | .error fault, _ => some (.error fault)
  | .ok state, .connect a u killedBefore exception akill =>
      if a ∉ state.users then some (state.connect cfg a u killedBefore exception akill) else none
  | .ok state, .quit a =>
      (state.users.lookup a).map fun u => state.quit cfg a u

/-! ## What the counts should be -/

/-- A user that is to be counted: not from a U-lined server, with a valid
address. -/
def User.Countable (u : User) : Prop :=
  u.ulined = some false ∧ u.ip.valid = true

instance User.decidableCountable (u : User) : Decidable u.Countable :=
  inferInstanceAs (Decidable (_ ∧ _))

/-- The address of a user has the key of a range. -/
def Config.SameKey (cfg : Config) (range : Cidr) (ip : Sockaddrs) : Prop :=
  range.equal cfg.order (cfg.cidr ip) = .ok true

instance Config.decidableSameKey (cfg : Config) (range : Cidr) (ip : Sockaddrs) :
    Decidable (cfg.SameKey range ip) :=
  inferInstanceAs (Decidable (_ = _))

/-- The number of users that are to be counted and pass a test. -/
def countable (users : AList fun _ : α => User) (test : Sockaddrs → Bool) : Nat :=
  Table.count (fun u => decide u.Countable && test u.ip) users

/-- The counts are exact: every session has the positive number of users with
its key, every user to be counted has a session, and no key has two.  Where the
keys agree with matching, the numbers are those of the users in the range. -/
structure Exact (cfg : Config) (state : State α) : Prop where
  counts : ∀ entry ∈ state.sessions,
    entry.2.count = countable state.users fun ip => decide (cfg.SameKey entry.1 ip)
  positive : ∀ entry ∈ state.sessions, entry.2.count ≠ 0
  covered : ∀ {a u}, state.users.lookup a = some u → u.Countable →
    ∃ entry ∈ state.sessions, cfg.SameKey entry.1 u.ip
  distinct : state.sessions.Pairwise fun entry other =>
    entry.1.equal cfg.order other.1 ≠ .ok true
  matching : KeyLength cfg.order .inet cfg.ipv4Cidr → KeyLength cfg.order .inet6 cfg.ipv6Cidr →
    ∀ entry ∈ state.sessions,
      entry.2.count = countable state.users fun ip => entry.1.matchAddr ip

/-- The operations on the ranges of an address are defined for the configured
prefix lengths. -/
def Config.Workable (cfg : Config) (ip : Sockaddrs) : Prop :=
  (ip.family = some .inet → 0 < cfg.ipv4Cidr) ∧ (ip.family = some .inet6 → cfg.ipv6Cidr < 128)

/-- The steps that keep the counts exact.  A user that is to be counted connects
only while sessions are limited, and if its constructor kills it, no user to be
counted shares its key. -/
def Proper (cfg : Config) : Except Fault (State α) → Action α → Prop
  | .ok state, .connect _ u true _ _ =>
      u.Countable → cfg.sessionLimit ≠ 0 →
        cfg.Workable u.ip ∧ ∀ {b v}, state.users.lookup b = some v → v.Countable →
          ¬cfg.SameKey (cfg.cidr u.ip) v.ip
  | .ok _, .connect _ u false _ _ => u.Countable → cfg.sessionLimit ≠ 0 ∧ cfg.Workable u.ip
  | .ok _, .quit _ | .error _, _ => True

/-- The counts of a defined state are exact. -/
def CountsExact (cfg : Config) : Except Fault (State α) → Prop
  | .ok state => Exact cfg state
  | .error _ => False

end Anope.OperServ
