import Anope.Library.Run
import Anope.Network.Spec

/-!
# The nick table

`UserListByNick` and the nicks of users are inverse to each other as long as no
step takes the entry of a user that is not quitting: the constructor of `User`
overwrites an entry, `ChangeNick` and the destructor erase one by its nick, and a
collision leaves the changing user without one.
-/

namespace Anope.Network

open Library.Run Library.Table Anope.Text

variable {υ γ ε μ : Type}

/-- What the nick table is about in a user. -/
structure Identity where
  nick : Str
  constructed : Bool
  quit : Bool
  deriving DecidableEq

/-- The identity of a user. -/
def User.identity (user : User γ ε) : Identity where
  nick := user.nick
  constructed := user.phase ≠ .constructing
  quit := user.quit

namespace State

variable [DecidableEq υ]

/-- The identity of a user of the heap. -/
def identityOf (state : State υ γ ε) (user : υ) : Option Identity :=
  (state.users.lookup user).bind fun record => some record.identity

/-- The table and the nicks of users are inverse to each other. -/
structure NickTable (casemap : Casemap) (state : State υ γ ε) : Prop where
  listed : ∀ user identity, state.identityOf user = some identity →
    identity.constructed = true → identity.quit = false →
      state.userListByNick.lookup (casemap.ciStr identity.nick) = some user
  pointsTo : ∀ key user, state.userListByNick.lookup key = some user →
    ∃ identity, state.identityOf user = some identity ∧ identity.constructed = true ∧
      casemap.ciStr identity.nick = key

/-- The entry under a name belongs to nobody who still needs it, apart from
`user`. -/
def Dispensable (casemap : Casemap) (state : State υ γ ε) (user : υ) (name : Str) : Prop :=
  ∀ other, state.userListByNick.lookup (casemap.ciStr name) = some other → other ≠ user →
    ∀ identity, state.identityOf other = some identity → identity.quit = true

/-- No user loses an entry that it needs: a constructor and a destructor find
under the nick of their user no entry of another one, and neither does a nick
change under the old nick; a nick change to a nick in use makes its user quit. -/
def NickSafe (config : Config μ) (state : State υ γ ε) : Action υ γ ε μ → Prop
  | .register user => ∀ record, state.users.lookup user = some record →
      state.Dispensable config.casemap user record.nick
  | .changeNick user newnick => ∀ record, state.users.lookup user = some record →
      config.casemap.ciStr record.nick ≠ config.casemap.ciStr newnick →
        state.Dispensable config.casemap user record.nick ∧
          (config.casemap.ciStr newnick ∈ state.userListByNick →
            record.quit = true ∨ record.killQuits config.svsKillQuits = true)
  | .release user => ∀ record, state.users.lookup user = some record →
      state.Dispensable config.casemap user record.nick
  | _ => True

/-! ## Steps that keep the nicks -/

/-- The identities and the table are as before. -/
structure SameNicks (state next : State υ γ ε) : Prop where
  identityOf : next.identityOf = state.identityOf
  userListByNick : next.userListByNick = state.userListByNick

namespace SameNicks

variable {state between next : State υ γ ε}

theorem of_eq (users : next.users = state.users)
    (userListByNick : next.userListByNick = state.userListByNick) : SameNicks state next where
  identityOf := by
    funext user
    rw [State.identityOf, State.identityOf, users]
  userListByNick := userListByNick

theorem of_modify {user : υ} {change : User γ ε → User γ ε}
    (users : next.users = modify user change state.users)
    (userListByNick : next.userListByNick = state.userListByNick)
    (kept : ∀ record, (change record).identity = record.identity) : SameNicks state next where
  identityOf := by
    funext other
    rw [State.identityOf, State.identityOf, users]
    exact bind_lookup_modify (fun record => by rw [kept]) other
  userListByNick := userListByNick

theorem refl (state : State υ γ ε) : SameNicks state state := of_eq rfl rfl

theorem nickTable {casemap : Casemap} (kept : SameNicks state next)
    (table : state.NickTable casemap) : next.NickTable casemap where
  listed := by
    rw [kept.identityOf, kept.userListByNick]
    exact table.listed
  pointsTo := by
    rw [kept.identityOf, kept.userListByNick]
    exact table.pointsTo

theorem of_sameUsers (same : SameUsers state next) : SameNicks state next where
  identityOf := by
    funext user
    have alone (table : AList fun _ : υ => User γ ε) :
        (table.lookup user).bind (fun record => some record.identity) =
          ((mapValues (fun _ => User.alone) table).lookup user).bind
            fun record => some record.identity := by
      rw [lookup_mapValues, Option.bind_map]
      rfl
    rw [State.identityOf, State.identityOf, alone next.users, same.users, ← alone]
  userListByNick := same.userListByNick

end SameNicks

section Frame

variable {config : Config μ} {state next : State υ γ ε} {user : υ}

theorem setUserModeInternal_sameNicks {mname : Str} {data : ModeData}
    (ran : state.setUserModeInternal user mname data = some next) : SameNicks state next := by
  rcases setUserModeInternal_eq_some ran with ⟨_, _, _, rfl⟩
  exact .of_modify rfl rfl fun _ => rfl

theorem removeUserModeInternal_sameNicks {mname : Str}
    (ran : state.removeUserModeInternal user mname = some next) : SameNicks state next := by
  rcases removeUserModeInternal_eq_some ran with ⟨_, _, _, rfl⟩
  exact .of_modify rfl rfl fun _ => rfl

end Frame

/-! ## Steps that change a nick or the table -/

section Changes

variable {casemap : Casemap} {config : Config μ} {state next : State υ γ ε} {user other : υ}
  {record : User γ ε}

theorem identityOf_of_lookup (found : state.users.lookup user = some record) :
    state.identityOf user = some record.identity := by
  rw [identityOf, found, Option.bind_some]

theorem identityOf_modify (change : User γ ε → User γ ε)
    (users : next.users = modify user change state.users)
    (found : state.users.lookup user = some record) (other : υ) :
    next.identityOf other =
      if other = user then some (change record).identity else state.identityOf other := by
  rw [identityOf, users]
  split
  next same => rw [same, lookup_modify_self, found, Option.map_some, Option.bind_some]
  next different =>
    rw [lookup_modify_ne different]
    rfl

/-- The users that are found under different names are different. -/
theorem NickTable.ne_of_key_ne {key key' : Str} (table : state.NickTable casemap)
    (found : state.userListByNick.lookup key = some user)
    (found' : state.userListByNick.lookup key' = some other) (different : key ≠ key') :
    user ≠ other := by
  rintro rfl
  rcases table.pointsTo key user found with ⟨identity, isIdentity, _, nick⟩
  rcases table.pointsTo key' user found' with ⟨identity', isIdentity', _, nick'⟩
  rw [isIdentity, Option.some.injEq] at isIdentity'
  rw [isIdentity', nick'] at nick
  exact different nick.symm

/-- An entry under a name other than the nick of a user is not the user's. -/
theorem NickTable.ne_of_key_ne_nick {key : Str} (table : state.NickTable casemap)
    (found : state.users.lookup user = some record)
    (entry : state.userListByNick.lookup key = some other)
    (notOwn : key ≠ casemap.ciStr record.nick) : other ≠ user := by
  rcases table.pointsTo key other entry with ⟨identity, isIdentity, _, nick⟩
  rintro rfl
  rw [identityOf_of_lookup found, Option.some.injEq] at isIdentity
  apply notOwn
  rw [← nick, ← isIdentity]
  rfl

theorem construct_nickTable {snick : Str} {own bot : Bool} (table : state.NickTable casemap)
    (ran : state.construct user snick own bot = some next) : next.NickTable casemap := by
  rcases construct_eq_some ran with ⟨fresh, _, rfl⟩
  have unknown : state.identityOf user = none := by
    rw [identityOf, AList.lookup_eq_none.mpr fresh, Option.bind_none]
  have others (other : υ) (different : other ≠ user) :
      State.identityOf { state with
        users := state.users.insert user ⟨snick, own, bot, false, .constructing, ∅, ∅⟩ } other =
        state.identityOf other := by
    rw [identityOf, identityOf, AList.lookup_insert_ne different]
  constructor
  · intro other identity found constructed staying
    by_cases same : other = user
    · rw [same, identityOf, AList.lookup_insert, Option.bind_some] at found
      cases found
      cases constructed
    · rw [others other same] at found
      exact table.listed other identity found constructed staying
  · intro key other entry
    rcases table.pointsTo key other entry with ⟨identity, found, rest⟩
    have different : other ≠ user := by
      rintro rfl
      rw [unknown] at found
      cases found
    exact ⟨identity, (others other different).trans found, rest⟩

/-- An entry that is lost while its user is as before was dispensable. -/
theorem NickTable.dispensable {name : Str} (table : state.NickTable casemap)
    (after : next.NickTable casemap)
    (kept : ∀ other, state.userListByNick.lookup (casemap.ciStr name) = some other →
      other ≠ user → next.identityOf other = state.identityOf other)
    (lost : ∀ other, other ≠ user →
      next.userListByNick.lookup (casemap.ciStr name) ≠ some other) :
    state.Dispensable casemap user name := by
  intro other entry different identity found
  cases staying : identity.quit with
  | true => rfl
  | false =>
      rcases table.pointsTo _ other entry with ⟨_, again, constructed, nick⟩
      rw [found, Option.some.injEq] at again
      subst again
      have listed := after.listed other identity ((kept other entry different).trans found)
        constructed staying
      rw [nick] at listed
      exact absurd listed (lost other different)

/-- A user that stays is found under its nick, which is not the name of a
dispensable entry. -/
theorem NickTable.listed_elsewhere {name : Str} {identity : Identity}
    (table : state.NickTable casemap) (safe : state.Dispensable casemap user name)
    (different : other ≠ user) (found : state.identityOf other = some identity)
    (constructed : identity.constructed = true) (staying : identity.quit = false) :
    state.userListByNick.lookup (casemap.ciStr identity.nick) = some other ∧
      casemap.ciStr identity.nick ≠ casemap.ciStr name := by
  have listed := table.listed other identity found constructed staying
  refine ⟨listed, fun sameNick => ?_⟩
  rw [sameNick] at listed
  have quits := safe other listed different identity found
  rw [staying] at quits
  cases quits

theorem register_effect (found : state.users.lookup user = some record)
    (ran : state.register casemap user = some next) :
    record.phase = .constructing ∧
      (∀ other, next.identityOf other =
        if other = user then some (User.identity { record with phase := .live })
        else state.identityOf other) ∧
      ∀ key, next.userListByNick.lookup key =
        if key = casemap.ciStr record.nick then some user
        else state.userListByNick.lookup key := by
  rcases register_eq_some ran with ⟨_, again, constructing, rfl⟩
  rw [found, Option.some.injEq] at again
  subst again
  refine ⟨constructing, fun other => identityOf_modify
    (fun record => { record with phase := .live }) rfl found other, fun key => ?_⟩
  split
  next same => rw [same, AList.lookup_insert]
  next different => rw [AList.lookup_insert_ne different]

/-- The end of a constructor keeps the table exactly when it takes no needed
entry. -/
theorem register_nickTable_iff (table : state.NickTable casemap)
    (found : state.users.lookup user = some record)
    (ran : state.register casemap user = some next) :
    next.NickTable casemap ↔ state.Dispensable casemap user record.nick := by
  rcases register_effect found ran with ⟨constructing, identities, entries⟩
  constructor
  · intro after
    refine table.dispensable after (fun other _ different => ?_) fun other different => ?_
    · rw [identities, if_neg different]
    · rw [entries, if_pos rfl]
      exact fun same => different (Option.some.inj same).symm
  · intro safe
    constructor
    · intro other identity isIdentity constructed staying
      rw [identities] at isIdentity
      split at isIdentity
      next same =>
        cases isIdentity
        rw [entries, same]
        exact if_pos rfl
      next different =>
        have elsewhere := table.listed_elsewhere safe different isIdentity constructed staying
        rw [entries, if_neg elsewhere.2]
        exact elsewhere.1
    · intro key other entry
      rw [entries] at entry
      split at entry
      next own =>
        cases entry
        exact ⟨_, (identities user).trans (if_pos rfl), rfl, own.symm⟩
      next =>
        rcases table.pointsTo key other entry with ⟨identity, isIdentity, constructed, nick⟩
        have different : other ≠ user := by
          rintro rfl
          rw [identityOf_of_lookup found, Option.some.injEq] at isIdentity
          rw [← isIdentity] at constructed
          simp [User.identity, constructing] at constructed
        exact ⟨identity, (identities other).trans ((if_neg different).trans isIdentity),
          constructed, nick⟩

theorem release_effect (found : state.users.lookup user = some record)
    (ran : state.release casemap user = some next) :
    record.phase = .dying ∧
      (∀ other, next.identityOf other =
        if other = user then none else state.identityOf other) ∧
      ∀ key, next.userListByNick.lookup key =
        if key = casemap.ciStr record.nick then none else state.userListByNick.lookup key := by
  rcases release_eq_some ran with ⟨_, again, dying, _, rfl⟩
  rw [found, Option.some.injEq] at again
  subst again
  refine ⟨dying, fun other => ?_, fun key => ?_⟩
  · rw [identityOf]
    split
    next same => rw [same, AList.lookup_erase, Option.bind_none]
    next different =>
      rw [AList.lookup_erase_ne different]
      rfl
  · split
    next same => rw [same, AList.lookup_erase]
    next different => rw [AList.lookup_erase_ne different]

/-- The end of a destructor keeps the table exactly when it erases no needed
entry of another user. -/
theorem release_nickTable_iff (table : state.NickTable casemap)
    (found : state.users.lookup user = some record)
    (ran : state.release casemap user = some next) :
    next.NickTable casemap ↔ state.Dispensable casemap user record.nick := by
  rcases release_effect found ran with ⟨dying, identities, entries⟩
  constructor
  · intro after
    refine table.dispensable after (fun other _ different => ?_) fun other _ => ?_
    · rw [identities, if_neg different]
    · rw [entries, if_pos rfl]
      exact Option.some_ne_none other ∘ Eq.symm
  · intro safe
    constructor
    · intro other identity isIdentity constructed staying
      rw [identities] at isIdentity
      split at isIdentity
      · cases isIdentity
      next different =>
        have elsewhere := table.listed_elsewhere safe different isIdentity constructed staying
        rw [entries, if_neg elsewhere.2]
        exact elsewhere.1
    · intro key other entry
      rw [entries] at entry
      split at entry
      · cases entry
      next anotherKey =>
        have different := table.ne_of_key_ne_nick found entry anotherKey
        rcases table.pointsTo key other entry with ⟨identity, isIdentity, rest⟩
        exact ⟨identity, (identities other).trans ((if_neg different).trans isIdentity), rest⟩

theorem quitUser_effect (found : state.users.lookup user = some record)
    (ran : state.quitUser user = some next) :
    (∀ other, next.identityOf other =
      if other = user then some { record.identity with quit := true }
      else state.identityOf other) ∧
    (∀ other, other ≠ user → next.users.lookup other = state.users.lookup other) ∧
    next.userListByNick = state.userListByNick := by
  rcases quitUser_eq_some ran with ⟨_, again, ⟨quits, rfl⟩ | ⟨_, rfl⟩⟩
  · rw [found, Option.some.injEq] at again
    subst again
    refine ⟨fun other => ?_, fun _ _ => rfl, rfl⟩
    split
    next same =>
      rw [same, identityOf_of_lookup found]
      simp [User.identity, quits]
    next => rfl
  · exact ⟨fun other => identityOf_modify (fun record => { record with quit := true }) rfl found
      other, fun other different => lookup_modify_ne different _ _, rfl⟩

theorem collideKill_effect {svsKillQuits : Bool} (found : state.users.lookup user = some record)
    (ran : state.collideKill svsKillQuits user = some next) :
    (∀ other, next.identityOf other =
      if other = user then
        some { record.identity with quit := record.quit || record.killQuits svsKillQuits }
      else state.identityOf other) ∧
    (∀ other, other ≠ user → next.users.lookup other = state.users.lookup other) ∧
    next.userListByNick = state.userListByNick := by
  rcases collideKill_eq_some ran with ⟨_, again, ⟨lives, rfl⟩ | ⟨dies, quits⟩⟩
  · rw [found, Option.some.injEq] at again
    subst again
    refine ⟨fun other => ?_, fun _ _ => rfl, rfl⟩
    split
    next same =>
      rw [same, identityOf_of_lookup found]
      simp [User.identity, lives]
    next => rfl
  · rw [found, Option.some.injEq] at again
    subst again
    rw [dies, Bool.or_true]
    exact quitUser_effect found quits

theorem quitUser_nickTable (table : state.NickTable casemap)
    (ran : state.quitUser user = some next) : next.NickTable casemap := by
  rcases quitUser_eq_some ran with ⟨record, found, _⟩
  rcases quitUser_effect found ran with ⟨identities, _, entries⟩
  constructor
  · intro other identity isIdentity constructed staying
    rw [identities] at isIdentity
    split at isIdentity
    · cases isIdentity
      cases staying
    · rw [entries]
      exact table.listed other identity isIdentity constructed staying
  · intro key other entry
    rw [entries] at entry
    rcases table.pointsTo key other entry with ⟨identity, isIdentity, constructed, nick⟩
    by_cases same : other = user
    · subst same
      rw [identityOf_of_lookup found, Option.some.injEq] at isIdentity
      subst isIdentity
      exact ⟨_, (identities other).trans (if_pos rfl), constructed, nick⟩
    · exact ⟨identity, (identities other).trans ((if_neg same).trans isIdentity), constructed, nick⟩

theorem logoff_sameNicks (ran : state.logoff user = some next) : SameNicks state next := by
  rcases logoff_eq_some ran with ⟨record, found, live, rfl⟩
  refine ⟨funext fun other => ?_, rfl⟩
  refine (identityOf_modify (fun record => { record with phase := .dying }) rfl found
    other).trans ?_
  split
  next same =>
    rw [same, identityOf_of_lookup found]
    simp [User.identity, live]
  next => rfl

/-- A nick change in the same letters up to case. -/
theorem changeNick_nickTable_of_same {newnick : Str} (table : state.NickTable casemap)
    (found : state.users.lookup user = some record)
    (sameKey : casemap.ciStr record.nick = casemap.ciStr newnick) :
    (state.updateUser user fun record => { record with nick := newnick }).NickTable casemap := by
  have identities (other : υ) :
      (state.updateUser user fun record => { record with nick := newnick }).identityOf other = _ :=
    identityOf_modify (fun record => { record with nick := newnick }) rfl found other
  have own := identityOf_of_lookup found
  constructor
  · intro other identity isIdentity constructed staying
    rw [identities] at isIdentity
    split at isIdentity
    next same =>
      cases isIdentity
      rw [same]
      have listed := table.listed user record.identity own constructed staying
      rw [← listed]
      exact congrArg (fun key => state.userListByNick.lookup key) sameKey.symm
    next => exact table.listed other identity isIdentity constructed staying
  · intro key other entry
    rcases table.pointsTo key other entry with ⟨identity, isIdentity, constructed, nick⟩
    by_cases same : other = user
    · subst same
      rw [own, Option.some.injEq] at isIdentity
      subst isIdentity
      exact ⟨_, (identities other).trans (if_pos rfl), constructed, sameKey.symm.trans nick⟩
    · exact ⟨identity, (identities other).trans ((if_neg same).trans isIdentity), constructed, nick⟩

/-- What a nick change to a free nick does. -/
theorem changeNick_nickTable_of_free {newnick : Str} (table : state.NickTable casemap)
    (found : state.users.lookup user = some record)
    (free : casemap.ciStr newnick ∉ state.userListByNick)
    (different : casemap.ciStr record.nick ≠ casemap.ciStr newnick)
    (identities : ∀ other, next.identityOf other =
      if other = user then some ⟨newnick, true, record.quit⟩ else state.identityOf other)
    (entries : ∀ key, next.userListByNick.lookup key =
      if key = casemap.ciStr newnick then some user
      else if key = casemap.ciStr record.nick then none else state.userListByNick.lookup key) :
    next.NickTable casemap ↔ state.Dispensable casemap user record.nick := by
  constructor
  · intro after
    refine table.dispensable after (fun other _ isOther => ?_) fun other _ => ?_
    · rw [identities, if_neg isOther]
    · rw [entries, if_neg different, if_pos rfl]
      exact Option.some_ne_none other ∘ Eq.symm
  · intro safe
    constructor
    · intro other identity isIdentity constructed staying
      rw [identities] at isIdentity
      split at isIdentity
      next same =>
        cases isIdentity
        rw [entries, same]
        exact if_pos rfl
      next isOther =>
        have elsewhere := table.listed_elsewhere safe isOther isIdentity constructed staying
        have notNew : casemap.ciStr identity.nick ≠ casemap.ciStr newnick := by
          intro same
          rw [← same, ← AList.lookup_isSome, elsewhere.1] at free
          exact free rfl
        rw [entries, if_neg notNew, if_neg elsewhere.2]
        exact elsewhere.1
    · intro key other entry
      rw [entries] at entry
      split at entry
      next isNew =>
        cases entry
        exact ⟨_, (identities user).trans (if_pos rfl), rfl, isNew.symm⟩
      next =>
        split at entry
        · cases entry
        next notOld =>
          have isOther := table.ne_of_key_ne_nick found entry notOld
          rcases table.pointsTo key other entry with ⟨identity, isIdentity, rest⟩
          exact ⟨identity, (identities other).trans ((if_neg isOther).trans isIdentity), rest⟩

/-- What a nick change to a nick in use does: nobody gets the entry of the old
nick, and `user` is not found under its new one. -/
theorem changeNick_nickTable_of_collision {newnick : Str} {holder : υ} {quits holderQuits : Bool}
    {held : Identity} (table : state.NickTable casemap)
    (found : state.users.lookup user = some record)
    (entry : state.userListByNick.lookup (casemap.ciStr newnick) = some holder)
    (isHolder : state.identityOf holder = some held)
    (different : casemap.ciStr record.nick ≠ casemap.ciStr newnick)
    (identities : ∀ other, next.identityOf other =
      if other = holder then some { held with quit := holderQuits }
      else if other = user then some ⟨newnick, true, quits⟩ else state.identityOf other)
    (entries : ∀ key, next.userListByNick.lookup key =
      if key = casemap.ciStr record.nick then none else state.userListByNick.lookup key) :
    next.NickTable casemap ↔
      state.Dispensable casemap user record.nick ∧ quits = true := by
  rcases table.pointsTo _ holder entry with ⟨_, again, heldConstructed, heldNick⟩
  rw [isHolder, Option.some.injEq] at again
  subst again
  have notHolder := (table.ne_of_key_ne_nick found entry different.symm).symm
  constructor
  · intro after
    constructor
    · refine table.dispensable after (fun other atOld isOther => ?_) fun other _ => ?_
      · rw [identities, if_neg (table.ne_of_key_ne atOld entry different), if_neg isOther]
      · rw [entries, if_pos rfl]
        exact Option.some_ne_none other ∘ Eq.symm
    · cases staying : quits with
      | true => rfl
      | false =>
          have own := (identities user).trans ((if_neg notHolder).trans (if_pos rfl))
          have listed := after.listed user _ own rfl staying
          rw [entries, if_neg different.symm, entry, Option.some.injEq] at listed
          exact absurd listed.symm notHolder
  · rintro ⟨safe, quitting⟩
    constructor
    · intro other identity isIdentity constructed staying
      rw [identities] at isIdentity
      split at isIdentity
      next same =>
        cases isIdentity
        rw [entries, same]
        refine (if_neg ?_).trans ?_
        · rw [heldNick]
          exact different.symm
        · rw [heldNick]
          exact entry
      next =>
        split at isIdentity
        · cases isIdentity
          rw [quitting] at staying
          cases staying
        next isOther =>
          have elsewhere := table.listed_elsewhere safe isOther isIdentity constructed staying
          rw [entries, if_neg elsewhere.2]
          exact elsewhere.1
    · intro key other atKey
      rw [entries] at atKey
      split at atKey
      · cases atKey
      next notOld =>
        rcases table.pointsTo key other atKey with ⟨identity, isIdentity, constructed, nick⟩
        by_cases same : other = holder
        · subst same
          rw [isHolder, Option.some.injEq] at isIdentity
          subst isIdentity
          exact ⟨_, (identities other).trans (if_pos rfl), constructed, nick⟩
        · have isOther := table.ne_of_key_ne_nick found atKey notOld
          exact ⟨identity,
            (identities other).trans ((if_neg same).trans ((if_neg isOther).trans isIdentity)),
            constructed, nick⟩

/-- A nick change keeps the table exactly when nobody else needs the entry of the
old nick, and the user quits if the new nick is in use. -/
theorem changeNick_nickTable_iff {newnick : Str} (table : state.NickTable config.casemap)
    (found : state.users.lookup user = some record)
    (ran : state.changeNick config user newnick = some next) :
    next.NickTable config.casemap ↔
      (config.casemap.ciStr record.nick ≠ config.casemap.ciStr newnick →
        state.Dispensable config.casemap user record.nick ∧
          (config.casemap.ciStr newnick ∈ state.userListByNick →
            record.quit = true ∨ record.killQuits config.svsKillQuits = true)) := by
  rcases changeNick_eq_some ran with ⟨_, again, live, cases⟩
  rw [found, Option.some.injEq] at again
  subst again
  rcases cases with ⟨same, rfl⟩ | ⟨different, free, rfl⟩ |
    ⟨different, holder, killed, held, first, second⟩
  · exact iff_of_true (changeNick_nickTable_of_same table found same)
      fun different => absurd same different
  · rw [AList.lookup_erase_ne different.symm, AList.lookup_eq_none] at free
    refine (changeNick_nickTable_of_free table found free different (fun other => ?_)
      fun key => ?_).trans ?_
    · rw [identityOf_modify (fun record => { record with nick := newnick }) rfl found other]
      simp [User.identity, live]
    · split
      next isNew => rw [isNew, AList.lookup_insert]
      next notNew =>
        rw [AList.lookup_insert_ne notNew]
        split
        next isOld => rw [isOld, AList.lookup_erase]
        next notOld => rw [AList.lookup_erase_ne notOld]
    · exact ⟨fun safe _ => ⟨safe, fun inUse => absurd inUse free⟩, fun safe => (safe different).1⟩
  · rw [AList.lookup_erase_ne different.symm] at held
    rcases table.pointsTo _ holder held with ⟨heldIdentity, isHolder, _, heldNick⟩
    have notHolder : holder ≠ user := by
      rintro rfl
      rw [identityOf_of_lookup found, Option.some.injEq] at isHolder
      exact different (by rw [← heldNick, ← isHolder]; rfl)
    have renamed : (modify user (fun record => { record with nick := newnick })
        state.users).lookup user = some { record with nick := newnick } := by
      rw [lookup_modify_self, found, Option.map_some]
    rcases collideKill_effect renamed first with ⟨firstIdentities, firstOthers, firstTable⟩
    rcases collideKill_eq_some second with ⟨holderRecord, holderFound, _⟩
    rcases collideKill_effect holderFound second with ⟨secondIdentities, _, secondTable⟩
    rw [firstOthers holder notHolder] at holderFound
    have inState : state.users.lookup holder = some holderRecord :=
      (lookup_modify_ne notHolder _ _).symm.trans holderFound
    have identities (other : υ) : next.identityOf other =
        if other = holder then
          some { holderRecord.identity with
            quit := holderRecord.quit || holderRecord.killQuits config.svsKillQuits }
        else if other = user then
          some ⟨newnick, true, record.quit || record.killQuits config.svsKillQuits⟩
        else state.identityOf other := by
      rw [secondIdentities, firstIdentities]
      split
      · rfl
      · split
        · simp [User.identity, User.killQuits, live]
        next notUser =>
          rw [identityOf, identityOf]
          exact congrArg (Option.bind · _) (lookup_modify_ne notUser _ _)
    have entries (key : Str) : next.userListByNick.lookup key =
        if key = config.casemap.ciStr record.nick then none
        else state.userListByNick.lookup key := by
      rw [secondTable, firstTable]
      split
      next isOld => rw [isOld, AList.lookup_erase]
      next notOld => rw [AList.lookup_erase_ne notOld]
    rw [changeNick_nickTable_of_collision table found held (identityOf_of_lookup inState) different
      identities entries, Bool.or_eq_true]
    constructor
    · exact fun safe _ => ⟨safe.1, fun _ => safe.2⟩
    · intro safe
      refine ⟨(safe different).1, (safe different).2 ?_⟩
      rw [← AList.lookup_isSome, held]
      rfl

end Changes

end State

/-! ## Runs -/

section Runs

variable [DecidableEq υ] [DecidableEq γ] [DecidableEq ε] [DecidableEq μ]
  {config : Config μ} {state next : State υ γ ε} {action : Action υ γ ε μ}

open State

/-- The actions that introduce, rename or remove a user or make it quit. -/
def Action.TouchesNicks : Action υ γ ε μ → Prop
  | .construct _ _ _ _ | .register _ | .changeNick _ _ | .quit _ | .logoff _ | .release _ => True
  | _ => False

theorem step_sameNicks (other : ¬action.TouchesNicks)
    (stepped : step config state action = some next) : SameNicks state next := by
  by_cases onChannels : action.OnChannels
  · exact .of_sameUsers (step_sameUsers onChannels stepped)
  · cases action with
    | setUserModeInternal => exact setUserModeInternal_sameNicks stepped
    | removeUserModeInternal => exact removeUserModeInternal_sameNicks stepped
    | setUserMode =>
        rcases setUserMode_eq_some stepped with ⟨_, _, ⟨_, rfl⟩ | ⟨_, sets⟩⟩
        · exact .refl _
        · exact setUserModeInternal_sameNicks sets
    | removeUserMode =>
        rcases removeUserMode_eq_some stepped with ⟨_, _, ⟨_, rfl⟩ | ⟨_, removes⟩⟩
        · exact .refl _
        · exact removeUserModeInternal_sameNicks removes
    | construct | register | changeNick | quit | logoff | release => exact absurd trivial other
    | _ => exact absurd trivial onChannels

/-- A step from an inverse table leads to one exactly when no user loses an entry
that it needs. -/
theorem step_nickTable_iff (table : state.NickTable config.casemap)
    (stepped : step config state action = some next) :
    next.NickTable config.casemap ↔ NickSafe config state action := by
  by_cases touches : action.TouchesNicks
  · cases action with
    | construct => exact iff_of_true (construct_nickTable table stepped) trivial
    | register user =>
        rcases register_eq_some stepped with ⟨record, found, _⟩
        rw [register_nickTable_iff table found stepped]
        simp [NickSafe, found]
    | changeNick user newnick =>
        rcases changeNick_eq_some stepped with ⟨record, found, _⟩
        rw [changeNick_nickTable_iff table found stepped]
        simp only [NickSafe, found, Option.some.injEq, forall_eq']
    | quit => exact iff_of_true (quitUser_nickTable table stepped) trivial
    | logoff => exact iff_of_true ((logoff_sameNicks stepped).nickTable table) trivial
    | release user =>
        rcases release_eq_some stepped with ⟨record, found, _⟩
        rw [release_nickTable_iff table found stepped]
        simp [NickSafe, found]
    | _ => contradiction
  · refine iff_of_true ((step_sameNicks touches stepped).nickTable table) ?_
    cases action with
    | register | changeNick | release => exact absurd trivial touches
    | _ => trivial

omit [DecidableEq γ] [DecidableEq ε] in
theorem nickTable_initial (casemap : Casemap) :
    (State.initial : State υ γ ε).NickTable casemap where
  listed _ _ found := by cases found
  pointsTo _ _ entry := by cases entry

/-- The nick table is a bijection in every state of a run exactly when no step
takes an entry that a user still needs. -/
theorem always_nickTable_iff (config : Config μ) (actions : List (Action υ γ ε μ)) :
    Always (step config) (State.NickTable config.casemap) State.initial actions ↔
      EachStep (step config) (State.NickSafe config) State.initial actions := by
  refine always_iff_eachStep (fun _ => True) ?_ ?_ trivial (nickTable_initial _) actions
  · exact fun _ _ => trivial
  · exact fun _ table stepped => step_nickTable_iff table stepped

end Runs

/-! ## A bot renamed to a nick in use -/

/-- A bot, at `false`, and a user, at `true`, are introduced, and the bot is given
the nick of the user. -/
def botRenamed : List (Action Bool Empty Empty Empty) :=
  [.construct false (ascii "ChanServ") true true, .register false,
    .construct true (ascii "alice") false false, .register true,
    .changeNick false (ascii "Alice")]

/-- Behind this run the bot lives under a nick that leads to the user. -/
theorem not_always_nickTable_botRenamed :
    ¬Always (step noChannelModes) (State.NickTable .ascii) State.initial botRenamed := by
  intro always
  have behind : (run (step noChannelModes) State.initial botRenamed).map
      (fun state => (state.identityOf false,
        state.userListByNick.lookup (Casemap.ascii.ciStr (ascii "Alice")))) =
      some (some ⟨ascii "Alice", true, false⟩, some true) := by
    decide +kernel
  rcases Option.map_eq_some_iff.mp behind with ⟨final, reached, view⟩
  rw [Prod.mk.injEq] at view
  have listed := (always.of_run reached).listed false _ view.1 rfl rfl
  rw [view.2] at listed
  cases listed

end Anope.Network
