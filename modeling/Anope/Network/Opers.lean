import Anope.Library.Run
import Anope.Network.Spec

/-!
# Counting opers

`OperCount` is the number of users with the mode `OPER` as long as every change
of that mode is a transition: the internal mode changes count without looking at
the mode that the user has.  A user who is being destroyed no longer counts.
-/

namespace Anope.Network

open Library.Run Library.Table Anope.Text

variable {υ γ ε μ : Type}

/-- Whether a user counts as an oper. -/
def User.counts (user : User γ ε) : Bool :=
  user.phase ≠ .dying && user.isOper

namespace State

/-- The number of live users that hold the mode `OPER`. -/
def opers (state : State υ γ ε) : Nat :=
  count User.counts state.users

/-- `OperCount` is exact. -/
def OperCountExact (state : State υ γ ε) : Prop :=
  state.operCount.toNat = state.opers

/-- There are fewer users than a `size_t` can count. -/
def UsersFit (state : State υ γ ε) : Prop :=
  state.users.keys.length < UInt64.size

/-- A change of the mode `OPER` by the IRCd is a transition: it is set for users
that do not hold it and unset for users that do. -/
def OperTransition [DecidableEq υ] (state : State υ γ ε) : Action υ γ ε μ → Prop
  | .setUserModeInternal user mname _ => mname = ascii "OPER" →
      ∀ record, state.users.lookup user = some record → record.isOper = false
  | .removeUserModeInternal user mname => mname = ascii "OPER" →
      ∀ record, state.users.lookup user = some record → record.isOper = true
  | _ => True

/-! ## Steps that keep the count -/

/-- The opers, their count and the addresses of users are as before. -/
structure SameOpers (state next : State υ γ ε) : Prop where
  operCount : next.operCount = state.operCount
  opers : next.opers = state.opers
  length : next.users.keys.length = state.users.keys.length

namespace SameOpers

variable {state between next : State υ γ ε}

theorem of_eq (operCount : next.operCount = state.operCount) (users : next.users = state.users) :
    SameOpers state next where
  operCount := operCount
  opers := by rw [State.opers, State.opers, users]
  length := by rw [users]

/-- A change of a user after which it counts as before. -/
theorem of_modify [DecidableEq υ] {user : υ} {record : User γ ε} {change : User γ ε → User γ ε}
    (operCount : next.operCount = state.operCount)
    (users : next.users = modify user change state.users)
    (found : state.users.lookup user = some record)
    (kept : (change record).counts = record.counts) : SameOpers state next where
  operCount := operCount
  opers := by
    have moved : count User.counts (modify user change state.users) + _ =
        count User.counts state.users + _ := count_modify found
    rw [kept] at moved
    rw [State.opers, State.opers, users]
    exact Nat.add_right_cancel moved
  length := by rw [users, keys_modify]

theorem refl (state : State υ γ ε) : SameOpers state state := of_eq rfl rfl

theorem trans (first : SameOpers state between) (second : SameOpers between next) :
    SameOpers state next where
  operCount := second.operCount.trans first.operCount
  opers := second.opers.trans first.opers
  length := second.length.trans first.length

theorem of_sameUsers (same : SameUsers state next) : SameOpers state next where
  operCount := same.operCount
  opers := by
    have alone (table : AList fun _ : υ => User γ ε) :
        count User.counts (mapValues (fun _ => User.alone) table) = count User.counts table :=
      count_mapValues fun _ => rfl
    rw [State.opers, State.opers, ← alone next.users, same.users, alone]
  length := by
    rw [← keys_mapValues (fun _ => User.alone), same.users, keys_mapValues]

theorem exact_iff (kept : SameOpers state next) :
    next.OperCountExact ↔ state.OperCountExact := by
  rw [OperCountExact, OperCountExact, kept.operCount, kept.opers]

theorem usersFit (kept : SameOpers state next) (fit : state.UsersFit) : next.UsersFit := by
  rw [UsersFit, kept.length]
  exact fit

end SameOpers

variable [DecidableEq υ]

section Frame

variable {casemap : Casemap} {config : Config μ} {state next : State υ γ ε} {user : υ}

theorem quitUser_sameOpers (ran : state.quitUser user = some next) : SameOpers state next := by
  rcases quitUser_eq_some ran with ⟨_, found, ⟨_, rfl⟩ | ⟨_, rfl⟩⟩
  · exact .refl _
  · exact .of_modify rfl rfl found rfl

theorem collideKill_sameOpers {svsKillQuits : Bool}
    (ran : state.collideKill svsKillQuits user = some next) : SameOpers state next := by
  rcases collideKill_eq_some ran with ⟨_, _, ⟨_, rfl⟩ | ⟨_, quits⟩⟩
  · exact .refl _
  · exact quitUser_sameOpers quits

theorem changeNick_sameOpers {newnick : Str}
    (ran : state.changeNick config user newnick = some next) : SameOpers state next := by
  rcases changeNick_eq_some ran with
    ⟨_, found, _, ⟨_, rfl⟩ | ⟨_, _, rfl⟩ | ⟨_, _, _, _, first, second⟩⟩
  · exact .of_modify rfl rfl found rfl
  · exact .of_modify rfl rfl found rfl
  · have killed := (collideKill_sameOpers first).trans (collideKill_sameOpers second)
    refine SameOpers.trans ?_ killed
    exact .of_modify rfl rfl found rfl

theorem register_sameOpers (ran : state.register casemap user = some next) :
    SameOpers state next := by
  rcases register_eq_some ran with ⟨_, found, constructing, rfl⟩
  refine .of_modify rfl rfl found ?_
  simp [User.counts, User.isOper, User.hasMode, constructing]

end Frame

/-! ## Steps that move the count -/

section Counts

variable {casemap : Casemap} {state next : State υ γ ε} {user : υ} {mname : Str}
  {data : ModeData} {record : User γ ε}

/-- How changing a user moves the number of opers. -/
theorem opers_of_modify {change : User γ ε → User γ ε}
    (users : next.users = modify user change state.users)
    (found : state.users.lookup user = some record) :
    next.opers + (if record.counts then 1 else 0) =
      state.opers + if (change record).counts then 1 else 0 := by
  rw [opers, opers, users]
  exact count_modify found

omit [DecidableEq υ] in
theorem opers_lt_size (fit : state.UsersFit) : state.opers < UInt64.size :=
  lt_of_le_of_lt (count_le_length _ _) fit

/-- Another mode does not make an oper, and `OPER` makes one. -/
theorem isOper_insert (record : User γ ε) (mname : Str) (data : ModeData) :
    User.isOper { record with modes := record.modes.insert mname data } =
      (mname = ascii "OPER" || record.isOper) := by
  by_cases same : ascii "OPER" = mname
  · simp [User.isOper, User.hasMode, ← same]
  · simp [User.isOper, User.hasMode, AList.lookup_insert_ne same, Ne.symm same]

theorem isOper_erase (record : User γ ε) (mname : Str) :
    User.isOper { record with modes := record.modes.erase mname } =
      (mname ≠ ascii "OPER" && record.isOper) := by
  by_cases same : ascii "OPER" = mname
  · simp [User.isOper, User.hasMode, ← same]
  · simp [User.isOper, User.hasMode, AList.lookup_erase_ne same, Ne.symm same]

theorem counts_of_alive (alive : record.phase ≠ .dying) : record.counts = record.isOper := by
  simp [User.counts, alive]

/-- Setting a mode adds an oper when it is `OPER` and the user holds it not. -/
theorem setUserModeInternal_opers (found : state.users.lookup user = some record)
    (ran : state.setUserModeInternal user mname data = some next) :
    next.opers + (if record.isOper then 1 else 0) =
      state.opers + if mname = ascii "OPER" ∨ record.isOper = true then 1 else 0 := by
  rcases setUserModeInternal_eq_some ran with ⟨_, again, alive, rfl⟩
  rw [found, Option.some.injEq] at again
  subst again
  have after : User.counts { record with modes := record.modes.insert mname data } =
      (mname = ascii "OPER" || record.isOper) := by
    rw [← isOper_insert record mname data]
    exact counts_of_alive alive
  rw [← counts_of_alive alive, opers_of_modify rfl found, after, counts_of_alive alive]
  simp only [Bool.or_eq_true, decide_eq_true_eq]

theorem setUserModeInternal_operCount
    (ran : state.setUserModeInternal user mname data = some next) :
    next.operCount = (if mname = ascii "OPER" then state.operCount + 1 else state.operCount) ∧
      next.users.keys.length = state.users.keys.length := by
  rcases setUserModeInternal_eq_some ran with ⟨_, _, _, rfl⟩
  exact ⟨rfl, congrArg List.length (keys_modify _ _ _)⟩

/-- Setting a mode keeps the count exact when the mode is not `OPER` or the user
does not hold it; there are too few users for the counter to wrap around. -/
theorem setUserModeInternal_exact_iff (fit : state.UsersFit) (isExact : state.OperCountExact)
    (found : state.users.lookup user = some record)
    (ran : state.setUserModeInternal user mname data = some next) :
    next.OperCountExact ↔ (mname = ascii "OPER" → record.isOper = false) := by
  have moved := setUserModeInternal_opers found ran
  rcases setUserModeInternal_operCount ran with ⟨counter, length⟩
  have before := opers_lt_size fit
  have behind : next.opers < UInt64.size := opers_lt_size (by rwa [UsersFit, length])
  unfold OperCountExact at isExact ⊢
  rw [counter]
  by_cases isOPER : mname = ascii "OPER"
  · have one : (1 : UInt64).toNat = 1 := rfl
    simp only [isOPER, true_or, if_true, forall_const] at moved ⊢
    rw [UInt64.toNat_add, isExact, one]
    cases held : record.isOper with
    | true =>
        simp only [held, if_true, Bool.true_eq_false, iff_false] at moved ⊢
        have wraps : (state.opers + 1) % UInt64.size ≠ state.opers := by
          unfold UInt64.size at before ⊢
          omega
        rw [Nat.add_right_cancel moved]
        exact wraps
    | false =>
        simp only [held, Bool.false_eq_true, if_false, Nat.add_zero, iff_true] at moved ⊢
        rw [← moved]
        exact Nat.mod_eq_of_lt behind
  · simp only [isOPER, false_or, if_false, false_implies, iff_true] at moved ⊢
    rw [isExact]
    omega

/-- Unsetting a mode takes an oper away when it is `OPER` and the user holds it. -/
theorem removeUserModeInternal_opers (found : state.users.lookup user = some record)
    (ran : state.removeUserModeInternal user mname = some next) :
    next.opers + (if record.isOper then 1 else 0) =
      state.opers + if mname ≠ ascii "OPER" ∧ record.isOper = true then 1 else 0 := by
  rcases removeUserModeInternal_eq_some ran with ⟨_, again, alive, rfl⟩
  rw [found, Option.some.injEq] at again
  subst again
  have after : User.counts { record with modes := record.modes.erase mname } =
      (mname ≠ ascii "OPER" && record.isOper) := by
    rw [← isOper_erase record mname]
    exact counts_of_alive alive
  rw [← counts_of_alive alive, opers_of_modify rfl found, after, counts_of_alive alive]
  simp only [Bool.and_eq_true, decide_eq_true_eq]

theorem removeUserModeInternal_operCount
    (ran : state.removeUserModeInternal user mname = some next) :
    next.operCount = (if mname = ascii "OPER" then state.operCount - 1 else state.operCount) ∧
      next.users.keys.length = state.users.keys.length := by
  rcases removeUserModeInternal_eq_some ran with ⟨_, _, _, rfl⟩
  exact ⟨rfl, congrArg List.length (keys_modify _ _ _)⟩

omit [DecidableEq υ] in
/-- Taking one from an exact counter of at least one. -/
theorem operCount_sub_one (isExact : state.OperCountExact) (fit : state.UsersFit)
    (some_oper : 0 < state.opers) : (state.operCount - 1).toNat = state.opers - 1 := by
  have before := opers_lt_size fit
  rw [UInt64.toNat_sub, isExact]
  unfold UInt64.size at before
  have one : (1 : UInt64).toNat = 1 := rfl
  omega

/-- Unsetting a mode keeps the count exact when the mode is not `OPER` or the user
holds it. -/
theorem removeUserModeInternal_exact_iff (fit : state.UsersFit)
    (isExact : state.OperCountExact) (found : state.users.lookup user = some record)
    (ran : state.removeUserModeInternal user mname = some next) :
    next.OperCountExact ↔ (mname = ascii "OPER" → record.isOper = true) := by
  have moved := removeUserModeInternal_opers found ran
  rcases removeUserModeInternal_operCount ran with ⟨counter, _⟩
  have before := opers_lt_size fit
  unfold OperCountExact
  rw [counter]
  by_cases isOPER : mname = ascii "OPER"
  · simp only [isOPER, ne_eq, not_true_eq_false, false_and, if_false, if_true, Nat.add_zero,
      forall_const] at moved ⊢
    cases held : record.isOper with
    | true =>
        simp only [held, if_true, iff_true] at moved ⊢
        rw [operCount_sub_one isExact fit (by omega)]
        omega
    | false =>
        simp only [held, Bool.false_eq_true, if_false, Nat.add_zero, iff_false] at moved ⊢
        have one : (1 : UInt64).toNat = 1 := rfl
        rw [UInt64.toNat_sub, isExact, moved, one]
        unfold UInt64.size at before
        omega
  · simp only [isOPER, ne_eq, not_false_eq_true, true_and, if_false, false_implies,
      iff_true] at moved ⊢
    rw [isExact]
    omega

/-- The destructor takes away an oper exactly when it counts down. -/
theorem logoff_exact (fit : state.UsersFit) (isExact : state.OperCountExact)
    (ran : state.logoff user = some next) : next.OperCountExact := by
  rcases logoff_eq_some ran with ⟨record, found, live, rfl⟩
  have alive : record.phase ≠ .dying := by
    rw [live]
    exact Phase.noConfusion
  have gone : User.counts { record with phase := .dying } = false := by simp [User.counts]
  unfold OperCountExact
  have moved : State.opers { state.updateUser user fun record => { record with phase := .dying } with
      operCount := if record.isOper then state.operCount - 1 else state.operCount } + _ =
      state.opers + _ := opers_of_modify rfl found
  rw [gone, counts_of_alive alive] at moved
  cases held : record.isOper with
  | true =>
      simp only [held, if_true, Bool.false_eq_true, if_false, Nat.add_zero] at moved ⊢
      rw [operCount_sub_one isExact fit (by omega)]
      omega
  | false =>
      simp only [held, Bool.false_eq_true, if_false, Nat.add_zero] at moved ⊢
      rw [isExact, moved]

theorem construct_sameCount {snick : Str} {own bot : Bool}
    (ran : state.construct user snick own bot = some next) :
    next.UsersFit ∧ (next.OperCountExact ↔ state.OperCountExact) := by
  rcases construct_eq_some ran with ⟨fresh, room, rfl⟩
  constructor
  · rw [UsersFit, AList.keys_insert, List.erase_of_not_mem fresh]
    exact room
  · rw [OperCountExact, OperCountExact, opers, opers, count_insert fresh]
    rfl

theorem release_sameCount (fit : state.UsersFit)
    (ran : state.release casemap user = some next) :
    next.UsersFit ∧ (next.OperCountExact ↔ state.OperCountExact) := by
  rcases release_eq_some ran with ⟨record, found, dying, _, rfl⟩
  constructor
  · rw [UsersFit, AList.keys_erase]
    exact lt_of_le_of_lt List.length_erase_le fit
  · have gone : record.counts = false := by simp [User.counts, dying]
    rw [OperCountExact, OperCountExact, opers, opers, count_eq_erase found, gone]
    rfl

end Counts

end State

/-! ## Runs -/

section Runs

variable [DecidableEq υ] [DecidableEq γ] [DecidableEq ε] [DecidableEq μ]
  {config : Config μ} {state next : State υ γ ε} {action : Action υ γ ε μ}

open State

/-- The actions that begin or end the life of a user or change its modes. -/
def Action.TouchesOpers : Action υ γ ε μ → Prop
  | .construct _ _ _ _ | .logoff _ | .release _ | .setUserModeInternal _ _ _
  | .removeUserModeInternal _ _ | .setUserMode _ _ _ | .removeUserMode _ _ => True
  | _ => False

theorem step_sameOpers (other : ¬action.TouchesOpers)
    (stepped : step config state action = some next) : SameOpers state next := by
  by_cases onChannels : action.OnChannels
  · exact .of_sameUsers (step_sameUsers onChannels stepped)
  · cases action with
    | register => exact register_sameOpers stepped
    | changeNick => exact changeNick_sameOpers stepped
    | quit => exact quitUser_sameOpers stepped
    | construct | logoff | release | setUserModeInternal | removeUserModeInternal | setUserMode
    | removeUserMode => exact absurd trivial other
    | _ => exact absurd trivial onChannels

theorem step_usersFit (fit : state.UsersFit) (stepped : step config state action = some next) :
    next.UsersFit := by
  by_cases touches : action.TouchesOpers
  · cases action with
    | construct => exact (construct_sameCount stepped).1
    | logoff =>
        rcases logoff_eq_some stepped with ⟨_, _, _, rfl⟩
        exact (congrArg List.length (keys_modify _ _ _)).trans_lt fit
    | release => exact (release_sameCount fit stepped).1
    | setUserModeInternal => exact (setUserModeInternal_operCount stepped).2.trans_lt fit
    | removeUserModeInternal => exact (removeUserModeInternal_operCount stepped).2.trans_lt fit
    | setUserMode =>
        rcases setUserMode_eq_some stepped with ⟨_, _, ⟨_, rfl⟩ | ⟨_, sets⟩⟩
        · exact fit
        · exact (setUserModeInternal_operCount sets).2.trans_lt fit
    | removeUserMode =>
        rcases removeUserMode_eq_some stepped with ⟨_, _, ⟨_, rfl⟩ | ⟨_, removes⟩⟩
        · exact fit
        · exact (removeUserModeInternal_operCount removes).2.trans_lt fit
    | _ => contradiction
  · exact (step_sameOpers touches stepped).usersFit fit

/-- A step from an exact count leads to an exact one exactly when a change of
`OPER` by the IRCd is a transition; services look before they change it. -/
theorem step_exact_iff (fit : state.UsersFit) (isExact : state.OperCountExact)
    (stepped : step config state action = some next) :
    next.OperCountExact ↔ OperTransition state action := by
  by_cases touches : action.TouchesOpers
  · cases action with
    | construct => exact iff_of_true ((construct_sameCount stepped).2.mpr isExact) trivial
    | logoff => exact iff_of_true (logoff_exact fit isExact stepped) trivial
    | release => exact iff_of_true ((release_sameCount fit stepped).2.mpr isExact) trivial
    | setUserModeInternal user mname data =>
        rcases setUserModeInternal_eq_some stepped with ⟨record, found, _, _⟩
        rw [setUserModeInternal_exact_iff fit isExact found stepped]
        simp [OperTransition, found]
    | removeUserModeInternal user mname =>
        rcases removeUserModeInternal_eq_some stepped with ⟨record, found, _, _⟩
        rw [removeUserModeInternal_exact_iff fit isExact found stepped]
        simp [OperTransition, found]
    | setUserMode user mname data =>
        rcases setUserMode_eq_some stepped with ⟨record, found, ⟨_, rfl⟩ | ⟨without, sets⟩⟩
        · exact iff_of_true isExact trivial
        · rw [setUserModeInternal_exact_iff fit isExact found sets]
          refine iff_of_true ?_ trivial
          rintro rfl
          exact without
    | removeUserMode user mname =>
        rcases removeUserMode_eq_some stepped with ⟨record, found, ⟨_, rfl⟩ | ⟨holds, removes⟩⟩
        · exact iff_of_true isExact trivial
        · rw [removeUserModeInternal_exact_iff fit isExact found removes]
          refine iff_of_true ?_ trivial
          rintro rfl
          exact holds
    | _ => contradiction
  · have kept := step_sameOpers touches stepped
    refine iff_of_true (kept.exact_iff.mpr isExact) ?_
    cases action with
    | setUserModeInternal | removeUserModeInternal => exact absurd trivial touches
    | _ => trivial

/-- `OperCount` is exact in every state of a run exactly when every change of
`OPER` by the IRCd is a transition. -/
theorem always_operCountExact_iff (config : Config μ) (actions : List (Action υ γ ε μ)) :
    Always (step config) State.OperCountExact State.initial actions ↔
      EachStep (step config) State.OperTransition State.initial actions := by
  refine always_iff_eachStep State.UsersFit ?_ ?_ ?_ ?_ actions
  · exact fun fit stepped => step_usersFit fit stepped
  · exact fun fit isExact stepped => step_exact_iff fit isExact stepped
  · exact Nat.two_pow_pos 64
  · rfl

end Runs

/-! ## A repeated mode message -/

/-- A protocol whose only user mode is `OPER`. -/
def operOnly : UInt8 → Option UserMode
  | 111 => some ⟨ascii "OPER", .regular⟩
  | _ => none

/-- A user is introduced as an oper, and the IRCd sends the mode again. -/
def operTwice : List (Action Unit Empty Empty Empty) :=
  .construct () (ascii "alice") false false ::
    (setUserModesInternal operOnly () none [] (ascii "+o") ++
      .register () :: setUserModesInternal operOnly () none [] (ascii "+o"))

/-- Behind this run one oper counts as two. -/
theorem not_always_operCountExact_operTwice :
    ¬Always (step noChannelModes) State.OperCountExact State.initial operTwice := by
  intro always
  have behind : (run (step noChannelModes) State.initial operTwice).map
      (fun state => (state.operCount.toNat, state.opers)) = some (2, 1) := by
    decide +kernel
  rcases Option.map_eq_some_iff.mp behind with ⟨final, reached, view⟩
  rw [Prod.mk.injEq] at view
  have isExact := always.of_run reached
  rw [State.OperCountExact, view.1, view.2] at isExact
  exact absurd isExact (by decide)

end Anope.Network
