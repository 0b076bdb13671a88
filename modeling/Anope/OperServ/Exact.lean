import Anope.OperServ.Key

/-!
# The exactness of the session counts

A user that is counted when it connects is counted once, and uncounted when it
quits.  A user that is killed before its connect hook is not counted, but it is
uncounted: this is the step after which the counts are wrong.
-/

namespace Anope.OperServ

open Library Library.Keyed Library.Run Anope.Net

variable {α : Type} [DecidableEq α] {cfg : Config} {sessions : SessionMap Session}

/-! ## The table -/

/-- The session of a key. -/
def sessionOf (cfg : Config) (sessions : SessionMap Session) (k : Key) : Option Session :=
  (find cfg.entryKey (some k) sessions).map Prod.snd

/-- The count of a key. -/
def countOf (cfg : Config) (sessions : SessionMap Session) (k : Key) : Nat :=
  (sessionOf cfg sessions k).elim 0 Session.count

/-- A table as the hooks leave it. -/
structure WellFormed (cfg : Config) (sessions : SessionMap Session) : Prop where
  stored : ∀ entry ∈ sessions, cfg.Stored entry
  distinct : (sessions.map cfg.entryKey).Nodup
  positive : ∀ entry ∈ sessions, entry.2.count ≠ 0

namespace WellFormed

variable (wellFormed : WellFormed cfg sessions) {x : Sockaddrs} {k : Key}
  (isK : cfg.key x = some k)

include wellFormed

theorem session_of_mem {entry : Cidr × Session} (mem : entry ∈ sessions)
    (is : cfg.entryKey entry = some k) : sessionOf cfg sessions k = some entry.2 := by
  rw [sessionOf, ← is, find_of_mem wellFormed.distinct mem, Option.map_some]

include isK

/-- What altering the session of an address does to the table. -/
theorem alter (change : Option Session → Option Session)
    (counted : ∀ found session, change found = some session → session.count ≠ 0) :
    ∃ altered, OperServ.alter cfg.order change sessions (cfg.cidr x) = .ok altered ∧
      WellFormed cfg altered ∧
      ∀ l, countOf cfg altered l =
        if l = k then (change (sessionOf cfg sessions k)).elim 0 Session.count
        else countOf cfg sessions l := by
  have keeps : Keeps cfg.entryKey (some k) (cfg.onEntry x change) := Config.keeps_onEntry isK
  refine ⟨_, Config.alter_eq wellFormed.stored isK, ⟨?_, nodup_alter keeps wellFormed.distinct, ?_⟩,
    fun l => ?_⟩
  · intro entry mem
    rcases mem_alter mem with old | ⟨found, isOld, made⟩
    · exact wellFormed.stored entry old
    · rcases Option.map_eq_some_iff.mp made with ⟨session, _, rfl⟩
      cases found with
      | none => exact Config.stored_cidr isK session
      | some old => exact wellFormed.stored old (isOld old rfl).1
  · intro entry mem
    rcases mem_alter mem with old | ⟨found, _, made⟩
    · exact wellFormed.positive entry old
    · rcases Option.map_eq_some_iff.mp made with ⟨session, changed, rfl⟩
      exact counted _ session changed
  · by_cases same : l = k
    · rw [if_pos same, same, countOf, sessionOf, find_alter_self keeps wellFormed.distinct,
        Config.onEntry, Option.map_map]
      rw [show (Prod.snd ∘ fun session => (_, session)) = id from rfl, Option.map_id_fun, id,
        sessionOf]
    · have different : some l ≠ some k := fun is => same (Option.some.inj is)
      rw [if_neg same, countOf, sessionOf, find_alter_ne keeps different, countOf, sessionOf]

/-- Giving the key of the address a session. -/
theorem assign (session : Session) (counted : session.count ≠ 0) :
    ∃ altered,
      OperServ.alter cfg.order (fun _ => some session) sessions (cfg.cidr x) = .ok altered ∧
      WellFormed cfg altered ∧
      ∀ l, countOf cfg altered l = if l = k then session.count else countOf cfg sessions l :=
  wellFormed.alter isK (fun _ => some session) fun _ _ made => Option.some.inj made ▸ counted

/-- Erasing the session of the key. -/
theorem erase :
    ∃ altered, OperServ.alter cfg.order (fun _ => none) sessions (cfg.cidr x) = .ok altered ∧
      WellFormed cfg altered ∧
      ∀ l, countOf cfg altered l = if l = k then 0 else countOf cfg sessions l :=
  wellFormed.alter isK (fun _ => none) fun _ _ made => nomatch made

theorem find : sessions.find cfg.order (cfg.cidr x) = .ok (sessionOf cfg sessions k) :=
  Config.find_eq wellFormed.stored isK

end WellFormed

/-! ## The hooks -/

section Hooks

variable {u : User} {exception : Option Nat} {akill : Bool}

/-- A user that is not to be counted is passed over when it connects. -/
theorem onUserConnect_uncountable (uncountable : ¬u.Countable) (quitting exempt : Bool) :
    onUserConnect cfg sessions u quitting exempt exception akill = .ok (sessions, false) := by
  rw [onUserConnect]
  split
  · rfl
  · rename_i passed
    have invalid : (!(cfg.cidr u.ip).valid) = true := by
      rw [Bool.not_eq_true', Config.valid_cidr, ← Bool.not_eq_true]
      exact fun valid => uncountable ⟨by_contra fun other => passed (by simp [other]), valid⟩
    rw [if_pos invalid]
    rfl

/-- So is a user that is quitting. -/
theorem onUserConnect_quitting (exempt : Bool) :
    onUserConnect cfg sessions u true exempt exception akill = .ok (sessions, false) := by
  rw [onUserConnect, if_pos (Or.inl rfl)]
  rfl

/-- A user that is not to be counted is passed over when it quits. -/
theorem onUserQuit_uncountable (uncountable : ¬u.Countable) :
    onUserQuit cfg sessions u = .ok sessions := by
  rw [onUserQuit]
  split
  · rfl
  · rename_i passed
    have invalid : (!(cfg.cidr u.ip).valid) = true := by
      rw [Bool.not_eq_true', Config.valid_cidr, ← Bool.not_eq_true]
      exact fun valid => uncountable ⟨by_contra fun other => passed (Or.inr other), valid⟩
    rw [if_pos invalid]
    rfl

/-- Without a session limit the hooks do nothing. -/
theorem onUserConnect_unlimited (unlimited : cfg.sessionLimit = 0) (quitting exempt : Bool) :
    onUserConnect cfg sessions u quitting exempt exception akill = .ok (sessions, false) := by
  rw [onUserConnect, if_pos (Or.inr (Or.inl unlimited))]
  rfl

theorem onUserQuit_unlimited (unlimited : cfg.sessionLimit = 0) :
    onUserQuit cfg sessions u = .ok sessions := by
  rw [onUserQuit, if_pos (Or.inl unlimited)]
  rfl

variable (countable : u.Countable) (limited : cfg.sessionLimit ≠ 0)

include countable limited

/-- The hooks count a user that is to be counted. -/
theorem onUserConnect_countable :
    onUserConnect cfg sessions u false (decide (u.ulined = some true)) exception akill =
      countUp cfg sessions (cfg.cidr u.ip) false exception akill := by
  have notExempt : decide (u.ulined = some true) = false := by
    rw [countable.1]
    rfl
  rw [notExempt, onUserConnect, if_neg (by simp [limited, countable.1]), Config.valid_cidr,
    countable.2]
  rfl

theorem onUserQuit_countable :
    onUserQuit cfg sessions u = countDown cfg sessions (cfg.cidr u.ip) := by
  rw [onUserQuit, if_neg (by simp [limited, countable.1]), Config.valid_cidr, countable.2]
  rfl

/-- The hooks have no result for an address without a key. -/
theorem onUserConnect_undefined (noKey : cfg.key u.ip = none) :
    ∃ fault, onUserConnect cfg sessions u false (decide (u.ulined = some true)) exception akill =
      .error fault := by
  rcases Config.hash_eq_error noKey with ⟨fault, hashed⟩
  refine ⟨fault, ?_⟩
  rw [onUserConnect_countable countable limited, countUp, Config.find_eq_error hashed]
  rfl

theorem onUserQuit_undefined (noKey : cfg.key u.ip = none) :
    ∃ fault, onUserQuit cfg sessions u = .error fault := by
  rcases Config.hash_eq_error noKey with ⟨fault, hashed⟩
  refine ⟨fault, ?_⟩
  rw [onUserQuit_countable countable limited, countDown, Config.find_eq_error hashed]
  rfl

end Hooks

namespace WellFormed

variable (wellFormed : WellFormed cfg sessions) {x : Sockaddrs} {k : Key}
  (isK : cfg.key x = some k)

include wellFormed isK

/-- Counting up counts the key of the address up. -/
theorem countUp (exception : Option Nat) (akill : Bool) :
    ∃ altered killed,
      OperServ.countUp cfg sessions (cfg.cidr x) false exception akill = .ok (altered, killed) ∧
      WellFormed cfg altered ∧
      ∀ l, countOf cfg altered l = countOf cfg sessions l + if l = k then 1 else 0 := by
  have found := wellFormed.find isK
  cases is : sessionOf cfg sessions k with
  | none =>
      have none_ : countOf cfg sessions k = 0 := by rw [countOf, is, Option.elim_none]
      rcases wellFormed.assign isK { count := 1, hits := 0 } Nat.one_ne_zero with
        ⟨altered, done, kept, counts⟩
      refine ⟨altered, false, ?_, kept, fun l => ?_⟩
      · rw [OperServ.countUp, found, is]
        simp only [Bind.bind, Except.bind, done]
        rfl
      · rw [counts]
        split
        · rename_i same
          rw [same, none_]
        · rfl
  | some session =>
      have before : countOf cfg sessions k = session.count := by rw [countOf, is, Option.elim_some]
      rw [OperServ.countUp, found, is]
      simp only [Bind.bind, Except.bind]
      split
      · rcases wellFormed.assign isK
            { count := session.count + 1, hits := session.hits + 1 } (Nat.succ_ne_zero _) with
          ⟨altered, done, kept, counts⟩
        rw [done]
        refine ⟨altered, _, rfl, kept, fun l => ?_⟩
        rw [counts]
        split
        · rename_i same
          rw [same, before]
        · rfl
      · rcases wellFormed.assign isK { session with count := session.count + 1 }
            (Nat.succ_ne_zero _) with ⟨altered, done, kept, counts⟩
        rw [done]
        refine ⟨altered, _, rfl, kept, fun l => ?_⟩
        rw [counts]
        split
        · rename_i same
          rw [same, before]
        · rfl

/-- Counting down counts the key of the address down, if it has a session. -/
theorem countDown :
    ∃ altered, OperServ.countDown cfg sessions (cfg.cidr x) = .ok altered ∧
      WellFormed cfg altered ∧
      ∀ l, countOf cfg altered l = countOf cfg sessions l - if l = k then 1 else 0 := by
  have found := wellFormed.find isK
  cases is : sessionOf cfg sessions k with
  | none =>
      have none_ : countOf cfg sessions k = 0 := by rw [countOf, is, Option.elim_none]
      refine ⟨sessions, ?_, wellFormed, fun l => ?_⟩
      · rw [OperServ.countDown, found, is]
        rfl
      · split
        · rename_i same
          rw [same, none_]
        · rfl
  | some session =>
      have before : countOf cfg sessions k = session.count := by rw [countOf, is, Option.elim_some]
      rw [OperServ.countDown, found, is]
      simp only [Bind.bind, Except.bind]
      split
      · rename_i more
        rcases wellFormed.assign isK { session with count := session.count - 1 }
          (Nat.sub_ne_zero_of_lt more) with ⟨altered, done, kept, counts⟩
        refine ⟨altered, done, kept, fun l => ?_⟩
        rw [counts]
        split
        · rename_i same
          rw [same, before]
        · rfl
      · rename_i last
        rcases wellFormed.erase isK with ⟨altered, done, kept, counts⟩
        refine ⟨altered, done, kept, fun l => ?_⟩
        rw [counts]
        split
        · rename_i same
          rw [same, before]
          omega
        · rfl

end WellFormed

/-! ## The states -/

/-- The number of users to be counted with a key. -/
def occupancy (cfg : Config) (users : AList fun _ : α => User) (k : Key) : Nat :=
  countable users fun ip => decide (cfg.key ip = some k)

/-- The invariant: every key counts its users. -/
structure Inv (cfg : Config) (state : State α) : Prop where
  wellFormed : WellFormed cfg state.sessions
  counts : ∀ k, countOf cfg state.sessions k = occupancy cfg state.users k
  keyed : ∀ {a u}, state.users.lookup a = some u → u.Countable → ∃ k, cfg.key u.ip = some k
  limited : ∀ {a u}, state.users.lookup a = some u → u.Countable → cfg.sessionLimit ≠ 0

variable {users : AList fun _ : α => User} {state next : State α} {a : α} {u : User}

theorem Inv.initial : Inv cfg (State.initial : State α) where
  wellFormed :=
    { stored := fun _ mem => nomatch mem
      distinct := List.nodup_nil
      positive := fun _ mem => nomatch mem }
  counts _ := rfl
  keyed found := nomatch found
  limited found := nomatch found

/-- What a user that connects adds to the number of users with a key. -/
theorem occupancy_insert (new : a ∉ users) (k : Key) :
    occupancy cfg (users.insert a u) k =
      occupancy cfg users k + if u.Countable ∧ cfg.key u.ip = some k then 1 else 0 := by
  rw [occupancy, countable, Table.count_insert new, occupancy, countable]
  simp only [Bool.and_eq_true, decide_eq_true_eq]

theorem occupancy_eq_erase (found : users.lookup a = some u) (k : Key) :
    occupancy cfg users k =
      occupancy cfg (users.erase a) k + if u.Countable ∧ cfg.key u.ip = some k then 1 else 0 := by
  rw [occupancy, countable, Table.count_eq_erase found, occupancy, countable]
  simp only [Bool.and_eq_true, decide_eq_true_eq]

namespace Inv

variable (inv : Inv cfg state)

include inv

/-- A user that connects, and is counted if it is to be. -/
theorem insert (new : a ∉ state.users) {sessions : SessionMap Session}
    (wellFormed : WellFormed cfg sessions)
    (counts : ∀ k, countOf cfg sessions k = countOf cfg state.sessions k +
      if u.Countable ∧ cfg.key u.ip = some k then 1 else 0)
    (proper : u.Countable → cfg.sessionLimit ≠ 0 ∧ ∃ k, cfg.key u.ip = some k) :
    Inv cfg { users := state.users.insert a u, sessions := sessions } where
  wellFormed := wellFormed
  counts k := by rw [counts, inv.counts, occupancy_insert new]
  keyed {b v} found countable := by
    by_cases same : b = a
    · rw [same, AList.lookup_insert, Option.some.injEq] at found
      exact found ▸ (proper (found ▸ countable)).2
    · rw [AList.lookup_insert_ne same] at found
      exact inv.keyed found countable
  limited {b v} found countable := by
    by_cases same : b = a
    · rw [same, AList.lookup_insert, Option.some.injEq] at found
      exact (proper (found ▸ countable)).1
    · rw [AList.lookup_insert_ne same] at found
      exact inv.limited found countable

/-- A user that quits, and is uncounted if it was counted. -/
theorem erase (found : state.users.lookup a = some u) {sessions : SessionMap Session}
    (wellFormed : WellFormed cfg sessions)
    (counts : ∀ k, countOf cfg sessions k = countOf cfg state.sessions k -
      if u.Countable ∧ cfg.key u.ip = some k then 1 else 0) :
    Inv cfg { users := state.users.erase a, sessions := sessions } where
  wellFormed := wellFormed
  counts k := by
    rw [counts, inv.counts, occupancy_eq_erase found]
    exact Nat.add_sub_cancel _ _
  keyed {b v} isV := inv.keyed (Table.lookup_of_erase isV)
  limited {b v} isV := inv.limited (Table.lookup_of_erase isV)

/-- A user that quits. -/
theorem quit (found : state.users.lookup a = some u) :
    ∃ next, state.quit cfg a u = .ok next ∧ Inv cfg next := by
  by_cases countable : u.Countable
  · have limited := inv.limited found countable
    rcases inv.keyed found countable with ⟨k, isK⟩
    rcases inv.wellFormed.countDown isK with ⟨altered, done, kept, counts⟩
    refine ⟨_, ?_, inv.erase found kept fun l => ?_⟩
    · rw [State.quit, onUserQuit_countable countable limited, done]
      rfl
    · rw [counts, isK]
      simp only [countable, true_and, Option.some.injEq, eq_comm]
  · refine ⟨_, ?_, inv.erase found inv.wellFormed fun l => ?_⟩
    · rw [State.quit, onUserQuit_uncountable countable]
      rfl
    · simp only [countable, false_and, if_false]
      rfl

/-- A user that connects while the condition holds. -/
theorem connect (new : a ∉ state.users) (exception : Option Nat) (akill : Bool)
    (proper : u.Countable → cfg.sessionLimit ≠ 0 ∧ cfg.Workable u.ip) :
    ∃ next, state.connect cfg a u false exception akill = .ok next ∧ Inv cfg next := by
  have keyed : u.Countable → cfg.sessionLimit ≠ 0 ∧ ∃ k, cfg.key u.ip = some k :=
    fun countable =>
      ⟨(proper countable).1, (Config.workable_iff countable.2).mp (proper countable).2⟩
  -- the user is connected before the hook may kill it
  have hook : ∃ sessions killed, onUserConnect cfg state.sessions u false
      (decide (u.ulined = some true)) exception akill = .ok (sessions, killed) ∧
      Inv cfg { users := state.users.insert a u, sessions := sessions } := by
    by_cases countable : u.Countable
    · rcases keyed countable with ⟨limited, k, isK⟩
      rcases inv.wellFormed.countUp isK exception akill with ⟨sessions, killed, done, kept, counts⟩
      refine ⟨sessions, killed, ?_, inv.insert new kept (fun l => ?_) keyed⟩
      · rw [onUserConnect_countable countable limited, done]
      · rw [counts, isK]
        simp only [countable, true_and, Option.some.injEq, eq_comm]
    · refine ⟨state.sessions, false, onUserConnect_uncountable countable _ _,
        inv.insert new inv.wellFormed (fun l => ?_) keyed⟩
      simp only [countable, false_and, if_false, Nat.add_zero]
  rcases hook with ⟨sessions, killed, done, connected⟩
  simp only [State.connect, done, Bind.bind, Except.bind, Bool.false_eq_true, if_false]
  cases killed && cfg.killInternal with
  | false => exact ⟨_, rfl, connected⟩
  | true => exact connected.quit (AList.lookup_insert state.users)

/-- A user that its constructor kills, while no user to be counted shares its
key. -/
theorem connect_killed (exception : Option Nat) (akill : Bool)
    (proper : u.Countable → cfg.sessionLimit ≠ 0 →
      ∃ k, cfg.key u.ip = some k ∧ countOf cfg state.sessions k = 0) :
    ∃ next, state.connect cfg a u true exception akill = .ok next ∧ Inv cfg next := by
  have hook : ∃ sessions, onUserQuit cfg state.sessions u = .ok sessions ∧
      Inv cfg { state with sessions := sessions } := by
    by_cases counted : u.Countable ∧ cfg.sessionLimit ≠ 0
    · rcases counted with ⟨countable, limited⟩
      rcases proper countable limited with ⟨k, isK, unused⟩
      rcases inv.wellFormed.countDown isK with ⟨sessions, done, kept, counts⟩
      refine ⟨sessions, ?_, ⟨kept, fun l => ?_, inv.keyed, inv.limited⟩⟩
      · rw [onUserQuit_countable countable limited, done]
      · rw [counts, ← inv.counts]
        split
        · rename_i same
          rw [same, unused]
        · rfl
    · refine ⟨state.sessions, ?_, inv⟩
      by_cases countable : u.Countable
      · exact onUserQuit_unlimited (by_contra fun limited => counted ⟨countable, limited⟩)
      · exact onUserQuit_uncountable countable
  rcases hook with ⟨sessions, done, kept⟩
  simp only [State.connect, done, onUserConnect_quitting, Bind.bind, Except.bind, if_true]
  exact ⟨_, rfl, kept⟩

end Inv

/-! ## What the invariant says of the counts -/

/-- A user has the key of an element exactly if their keys are equal. -/
theorem sameKey_iff {entry : Cidr × Session} (stored : cfg.Stored entry) {k : Key}
    (isEntry : cfg.entryKey entry = some k) {ip : Sockaddrs} {l : Key}
    (isL : cfg.key ip = some l) : cfg.SameKey entry.1 ip ↔ k = l := by
  have isRange : cfg.key entry.1.addr = some k := isEntry
  rw [Config.SameKey, stored.1, Config.equal_cidr isRange isL, Except.ok.injEq,
    decide_eq_true_iff]

/-- A test that decides the key counts the users with the key. -/
theorem countable_eq_occupancy {k : Key} {test : Sockaddrs → Bool}
    (keyed : ∀ {a u}, users.lookup a = some u → u.Countable → ∃ l, cfg.key u.ip = some l)
    (tests : ∀ {ip l}, cfg.key ip = some l → (test ip = true ↔ k = l)) :
    countable users test = occupancy cfg users k := by
  rw [countable, occupancy, countable]
  apply Table.count_congr
  intro a u found
  by_cases counted : u.Countable
  · rcases keyed found counted with ⟨l, isL⟩
    have same : test u.ip = decide (k = l) := by
      rw [Bool.eq_iff_iff, tests isL, decide_eq_true_iff]
    rw [same, isL]
    simp only [Option.some.injEq, eq_comm]
  · rw [decide_eq_false counted]
    rfl

namespace Inv

variable (inv : Inv cfg state)

include inv

/-- The count of an element is the number of users with its key. -/
theorem count_entry {entry : Cidr × Session} (mem : entry ∈ state.sessions) {k : Key}
    (isEntry : cfg.entryKey entry = some k) : entry.2.count = occupancy cfg state.users k := by
  rw [← inv.counts, countOf, inv.wellFormed.session_of_mem mem isEntry, Option.elim_some]

omit inv in
theorem occupancy_ne_zero (found : state.users.lookup a = some u) (countable : u.Countable)
    {k : Key} (isK : cfg.key u.ip = some k) : occupancy cfg state.users k ≠ 0 := by
  rw [occupancy_eq_erase found, if_pos ⟨countable, isK⟩]
  exact Nat.succ_ne_zero _

/-- The invariant gives exact counts. -/
theorem exact : Exact cfg state where
  counts entry mem := by
    have stored := inv.wellFormed.stored entry mem
    rcases stored.2 with ⟨k, isEntry⟩
    rw [inv.count_entry mem isEntry]
    refine (countable_eq_occupancy inv.keyed fun {ip l} isL => ?_).symm
    rw [decide_eq_true_iff, sameKey_iff stored isEntry isL]
  positive := inv.wellFormed.positive
  covered {a u} found countable := by
    rcases inv.keyed found countable with ⟨k, isK⟩
    have used : countOf cfg state.sessions k ≠ 0 := by
      rw [inv.counts]
      exact occupancy_ne_zero found countable isK
    cases is : Keyed.find cfg.entryKey (some k) state.sessions with
    | none =>
        rw [countOf, sessionOf, is] at used
        exact absurd rfl used
    | some entry =>
        have mem := mem_of_find is
        refine ⟨entry, mem, ?_⟩
        rw [sameKey_iff (inv.wellFormed.stored entry mem) (key_of_find is) isK]
  distinct := by
    have different := List.pairwise_map.mp inv.wellFormed.distinct
    refine different.imp_of_mem fun {entry other} mem otherMem ne equal => ne ?_
    rcases inv.wellFormed.stored entry mem with ⟨range, k, isEntry⟩
    rcases inv.wellFormed.stored other otherMem with ⟨otherRange, l, isOther⟩
    have isRange : cfg.key entry.1.addr = some k := isEntry
    have isOtherRange : cfg.key other.1.addr = some l := isOther
    rw [range, otherRange, Config.equal_cidr isRange isOtherRange, Except.ok.injEq,
      decide_eq_true_iff] at equal
    rw [isEntry, isOther, equal]
  matching inet inet6 entry mem := by
    rcases inv.wellFormed.stored entry mem with ⟨range, k, isEntry⟩
    rw [inv.count_entry mem isEntry]
    refine (countable_eq_occupancy inv.keyed fun {ip l} isL => ?_).symm
    rw [range]
    exact Config.matchAddr_iff inet inet6 isEntry isL

/-- Without a limit the table is empty. -/
theorem not_mem_of_unlimited (unlimited : cfg.sessionLimit = 0) (entry : Cidr × Session) :
    entry ∉ state.sessions := by
  intro mem
  rcases (inv.wellFormed.stored entry mem).2 with ⟨k, isEntry⟩
  refine inv.wellFormed.positive entry mem ?_
  rw [inv.count_entry mem isEntry]
  rw [occupancy, countable, Table.count_eq_zero_iff]
  intro a u found passes
  rw [Bool.and_eq_true, decide_eq_true_iff] at passes
  exact inv.limited found passes.1 unlimited

/-- Where a user to be counted shares its key with another one, its being killed
by its constructor leaves a wrong count. -/
theorem not_exact_of_shared {b : α} {v : User} {sessions : SessionMap Session} {k : Key}
    (found : state.users.lookup b = some v) (countable : v.Countable)
    (isK : cfg.key v.ip = some k) (kept : WellFormed cfg sessions)
    (counts : ∀ l, countOf cfg sessions l = countOf cfg state.sessions l - if l = k then 1 else 0) :
    ¬Exact cfg { state with sessions := sessions } := by
  intro exact
  rcases exact.covered found countable with ⟨entry, mem, same⟩
  have stored := kept.stored entry mem
  rcases stored.2 with ⟨l, isEntry⟩
  obtain rfl := (sameKey_iff stored isEntry isK).mp same
  have counted : entry.2.count = occupancy cfg state.users l := by
    rw [exact.counts entry mem]
    refine countable_eq_occupancy inv.keyed fun {ip l} isL => ?_
    rw [decide_eq_true_iff, sameKey_iff stored isEntry isL]
  have left : entry.2.count = countOf cfg sessions l := by
    rw [countOf, kept.session_of_mem mem isEntry, Option.elim_some]
  have used := occupancy_ne_zero found countable isK
  rw [left, counts, if_pos rfl, inv.counts] at counted
  omega

/-- A user that its constructor kills leaves exact counts only if no user to be
counted shares its key. -/
theorem proper_of_connect_killed {exception : Option Nat} {akill : Bool}
    (exact : CountsExact cfg (state.connect cfg a u true exception akill)) (countable : u.Countable)
    (limited : cfg.sessionLimit ≠ 0) :
    cfg.Workable u.ip ∧ ∀ {b v}, state.users.lookup b = some v → v.Countable →
      ¬cfg.SameKey (cfg.cidr u.ip) v.ip := by
  cases isK : cfg.key u.ip with
  | none =>
      have undefined : ∃ fault, onUserQuit cfg state.sessions u = .error fault :=
        onUserQuit_undefined countable limited isK
      rcases undefined with ⟨fault, undefined⟩
      simp only [State.connect, undefined, Bind.bind, Except.bind, if_true] at exact
      exact exact.elim
  | some k =>
      refine ⟨(Config.workable_iff countable.2).mpr ⟨k, isK⟩, fun {b v} found other same => ?_⟩
      rcases inv.keyed found other with ⟨l, isL⟩
      rw [Config.SameKey, Config.equal_cidr isK isL, Except.ok.injEq, decide_eq_true_iff] at same
      rcases inv.wellFormed.countDown isK with ⟨sessions, done, kept, counts⟩
      rw [← onUserQuit_countable countable limited] at done
      simp only [State.connect, done, onUserConnect_quitting, Bind.bind, Except.bind,
        if_true] at exact
      exact inv.not_exact_of_shared found other (same ▸ isL) kept counts exact

/-- A user that connects and stays leaves exact counts only if it is counted. -/
theorem proper_of_connect {exception : Option Nat} {akill : Bool}
    (exact : CountsExact cfg (state.connect cfg a u false exception akill))
    (countable : u.Countable) : cfg.sessionLimit ≠ 0 ∧ cfg.Workable u.ip := by
  by_cases unlimited : cfg.sessionLimit = 0
  · simp only [State.connect, onUserConnect_unlimited unlimited, Bind.bind, Except.bind,
      Bool.false_eq_true, if_false, Bool.false_and] at exact
    rcases exact.covered (AList.lookup_insert state.users) countable with ⟨entry, mem, _⟩
    exact absurd mem (inv.not_mem_of_unlimited unlimited entry)
  · refine ⟨unlimited, ?_⟩
    rw [Config.workable_iff countable.2]
    by_contra noKey
    have isNone : cfg.key u.ip = none := Option.eq_none_iff_forall_ne_some.mpr fun k isK =>
      noKey ⟨k, isK⟩
    have undefined : ∃ fault, onUserConnect cfg state.sessions u false
        (decide (u.ulined = some true)) exception akill = .error fault :=
      onUserConnect_undefined countable unlimited isNone
    rcases undefined with ⟨fault, undefined⟩
    simp only [State.connect, undefined, Bind.bind, Except.bind, Bool.false_eq_true,
      if_false] at exact
    exact exact.elim

/-- A step that leaves exact counts is proper. -/
theorem proper {action : Action α} {after : Except Fault (State α)}
    (stepped : OperServ.step cfg (.ok state) action = some after)
    (exact : CountsExact cfg after) : Proper cfg (.ok state) action := by
  cases action with
  | quit a => trivial
  | connect a u killedBefore exception akill =>
      rcases Option.ite_none_right_eq_some.mp stepped with ⟨_, ⟨⟩⟩
      cases killedBefore with
      | true => exact inv.proper_of_connect_killed exact
      | false => exact inv.proper_of_connect exact

/-- A proper step keeps the invariant. -/
theorem step {action : Action α} {after : Except Fault (State α)}
    (proper : Proper cfg (.ok state) action)
    (stepped : OperServ.step cfg (.ok state) action = some after) :
    ∃ next, after = .ok next ∧ Inv cfg next := by
  cases action with
  | quit a =>
      rcases Option.map_eq_some_iff.mp stepped with ⟨u, found, rfl⟩
      exact inv.quit found
  | connect a u killedBefore exception akill =>
      rcases Option.ite_none_right_eq_some.mp stepped with ⟨new, ⟨⟩⟩
      cases killedBefore with
      | false => exact inv.connect new exception akill proper
      | true =>
          refine inv.connect_killed exception akill fun countable limited => ?_
          rcases proper countable limited with ⟨workable, alone⟩
          rcases (Config.workable_iff countable.2).mp workable with ⟨k, isK⟩
          refine ⟨k, isK, ?_⟩
          rw [inv.counts, occupancy, OperServ.countable, Table.count_eq_zero_iff]
          intro b v found passes
          rw [Bool.and_eq_true, decide_eq_true_iff, decide_eq_true_iff] at passes
          refine alone found passes.1 ?_
          rw [Config.SameKey, Config.equal_cidr isK passes.2, decide_eq_true rfl]

end Inv

/-- The invariant of a defined state. -/
def DefinedInv (cfg : Config) : Except Fault (State α) → Prop
  | .ok state => Inv cfg state
  | .error _ => False

/-- **When the session counts are exact.** In every run they are exact in every
state exactly when every step is proper. -/
theorem always_countsExact_iff (cfg : Config) (actions : List (Action α)) :
    Always (step cfg) (CountsExact cfg) (.ok State.initial) actions ↔
      EachStep (step cfg) (Proper cfg) (.ok State.initial) actions := by
  have kept : ∀ {state : Except Fault (State α)} {action next}, DefinedInv cfg state →
      Proper cfg state action → OperServ.step cfg state action = some next →
      DefinedInv cfg next := by
    intro state action next inv proper stepped
    cases state with
    | error fault => exact inv.elim
    | ok state =>
        rcases Inv.step inv proper stepped with ⟨after, rfl, afterInv⟩
        exact afterInv
  have proper : ∀ {state : Except Fault (State α)} {action next}, DefinedInv cfg state →
      OperServ.step cfg state action = some next → CountsExact cfg next →
      Proper cfg state action := by
    intro state action next inv stepped exact
    cases state with
    | error fault => exact inv.elim
    | ok state => exact Inv.proper inv stepped exact
  have initially : DefinedInv cfg (.ok (State.initial : State α)) := Inv.initial
  refine always_iff_eachStep_of_kept (DefinedInv cfg) ?_ ?_ initially Inv.initial.exact actions
  · intro state action next inv _ exact stepped
    exact kept inv (proper inv stepped exact) stepped
  · intro state action next inv _ stepped
    refine ⟨proper inv stepped, fun met => ?_⟩
    have after := kept inv met stepped
    cases next with
    | error fault => exact after.elim
    | ok next => exact Inv.exact after

/-- Three sessions for each IPv4 address. -/
def limitThree : Config where
  sessionLimit := 3
  maxSessionKill := 0
  ipv4Cidr := 32
  ipv6Cidr := 64
  ipv4Cidr_le := by decide
  ipv6Cidr_le := by decide
  order := .little
  lib := { pton4 := fun _ => none, pton6 := fun _ => none, ntop4 := fun _ => none,
           ntop6 := fun _ => none }
  killInternal := true

/-- A user from 192.0.2.1. -/
def someone : User where
  ip := .inet ⟨#[192, 0, 2, 1], rfl⟩
  ip_ne_unix := fun _ is => nomatch is
  ulined := some false

/-- A user connects, and another one from its address is killed when the modes
it is introduced with are set. -/
def killedIntroduction : List (Action Nat) :=
  [.connect 0 someone false none false, .connect 1 someone true none false]

/-- Whether the first user is left without a session. -/
def forgotten : Except Fault (State Nat) → Bool
  | .ok state => state.sessions.isEmpty && (state.users.lookup 0).any fun u => decide u.Countable
  | .error _ => false

theorem not_always_countsExact_killedIntroduction :
    ¬Always (step limitThree) (CountsExact limitThree) (.ok State.initial) killedIntroduction := by
  intro always
  have observed : (run (step limitThree) (.ok State.initial) killedIntroduction).map forgotten =
      some true := by decide +kernel
  rcases Option.map_eq_some_iff.mp observed with ⟨final, reached, isForgotten⟩
  have exact := always.of_run reached
  cases final with
  | error fault => exact exact.elim
  | ok state =>
      rw [forgotten, Bool.and_eq_true, List.isEmpty_iff, Option.any_eq_true_iff_get] at isForgotten
      rcases isForgotten with ⟨empty, isUser, countable⟩
      rcases exact.covered (Option.some_get isUser).symm (of_decide_eq_true countable) with
        ⟨entry, mem, _⟩
      rw [empty] at mem
      cases mem

end Anope.OperServ
