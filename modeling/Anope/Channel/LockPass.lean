import Anope.Channel.Locks

/-!
# A pass over the mode locks

`OnCheckModes` enforces the locks of a channel, as demands on its mode state, one after the
other.  What a pass makes of the mode state is what the demands make of it, and the channel is
destroyed during the pass exactly when it is at one of the locks to start with.
-/

namespace Anope.Channel

open Library.Enforce Anope.Text Anope.Mode Anope.Mode.Lock

variable {μ υ : Type} [DecidableEq μ] [DecidableEq υ] {casemap : Casemap}
  {manager : ModeManager μ} {context : Context υ} {names : Names manager}

/-! ## The places of a lock -/

/-- Where a lock looks and where its change is made. -/
inductive Placed (casemap : Casemap) (context : Context υ) (names : Names manager)
    (member : υ → Bool) (ml : ModeLock) : Prop where
  | nowhere (place : asks casemap context names ml = none)
      (target : writes casemap context names member ml = none)
  | mode (cm : μ) (found : names.findChannelModeByName ml.name = some cm)
      (unpaired : manager.isPaired cm = false)
      (place : asks casemap context names ml = some (.mode cm))
      (target : writes casemap context names member ml = some (.mode cm))
  | mask (cm : μ) (folded : Str) (notParam : locksParam names ml = false)
      (place : asks casemap context names ml = some (.mask cm folded))
      (target : writes casemap context names member ml = some (.mask cm folded))
  /-- A listener recognises the text of a list entry to set. -/
  | crossing (cm internal : μ) (folded folded' : Str) (notParam : locksParam names ml = false)
      (set : ml.set = true) (plain : (manager.mode cm).base = none)
      (virtual : (manager.mode internal).base = some cm)
      (place : asks casemap context names ml = some (.mask cm folded))
      (target : writes casemap context names member ml = some (.mask internal folded'))
  | status (cm : μ) (user : υ) (notParam : locksParam names ml = false)
      (place : asks casemap context names ml = some (.status cm user))
      (target : writes casemap context names member ml = some (.status cm user))
  /-- The user of a status is not on the channel. -/
  | outside (cm : μ) (user : υ) (notParam : locksParam names ml = false)
      (notMember : member user = false)
      (place : asks casemap context names ml = some (.status cm user))
      (target : writes casemap context names member ml = none)

section Places

variable {member : υ → Bool} {ml : ModeLock} {cm : μ}
  (found : names.findChannelModeByName ml.name = some cm)
include found

omit [DecidableEq μ] [DecidableEq υ] in
theorem places_of_unpaired (unpaired : manager.isPaired cm = false) :
    asks casemap context names ml = some (.mode cm) ∧
      writes casemap context names member ml = some (.mode cm) := by
  have type : (manager.mode cm).type = .regular ∨ (manager.mode cm).type = .param := by
    cases type : (manager.mode cm).type <;> simp_all [ModeManager.isPaired]
  constructor
  · rcases type with type | type <;> simp [asks, found, type]
  · rcases type with type | type <;> simp [writes, found, type]

omit [DecidableEq μ] [DecidableEq υ] in
theorem placed_of_unpaired (unpaired : manager.isPaired cm = false) :
    Placed casemap context names member ml :=
  have places : asks casemap context names ml = some (.mode cm) ∧
      writes casemap context names member ml = some (.mode cm) :=
    places_of_unpaired found unpaired
  .mode cm found unpaired places.1 places.2

omit [DecidableEq μ] [DecidableEq υ] in
theorem placed_of_list_set (isList : (manager.mode cm).type = .list) (set : ml.set = true)
    {value : Str} (isValid : manager.isValid cm ml.param = some value) (nonempty : value ≠ []) :
    Placed casemap context names member ml := by
  have notParam : locksParam names ml = false := by
    simp [locksParam_of_found found, isList]
  have place : asks casemap context names ml = some (.mask cm (casemap.ciStr value)) := by
    simp [asks, found, isList, set, isValid]
  have target : writes casemap context names member ml =
      slotOf casemap manager context.findUser member (manager.wrap cm value).1
        (manager.wrap cm value).2 := by
    simp [writes, found, isList, set, isValid]
  rcases unwrap_wrap_or names cm nonempty with same | ⟨plain, wrapped, _, virtual⟩
  · apply Placed.mask cm _ notParam place
    simp [target, slotOf, same, isList]
  · rw [wrapped] at target
    have text := unwrap_list names isList nonempty
    apply Placed.crossing cm _ _ (casemap.ciStr (manager.unwrap cm value).2) notParam set plain
      virtual place
    simp [target, slotOf, text.1]

omit [DecidableEq μ] [DecidableEq υ] in
theorem placed_of_list_unset (isList : (manager.mode cm).type = .list) (unset : ml.set = false)
    (nonempty : ml.param ≠ []) : Placed casemap context names member ml := by
  have notParam : locksParam names ml = false := by
    simp [locksParam_of_found found, isList]
  have back := unwrap_wrap_unwrap names cm nonempty
  have text := unwrap_list names isList nonempty
  apply Placed.mask (manager.unwrap cm ml.param).1
    (casemap.ciStr (manager.unwrap cm ml.param).2) notParam
  · simp [asks, found, isList, unset]
  · simp [writes, found, isList, unset, slotOf, back, text.1]

omit [DecidableEq μ] [DecidableEq υ] in
theorem placed_of_status (isStatus : (manager.mode cm).type = .status) :
    Placed casemap context names member ml := by
  have notList : (manager.mode cm).type ≠ .list := by simp [isStatus]
  have notParam : locksParam names ml = false := by
    simp [locksParam_of_found found, isStatus]
  have unwrapped := unwrap_of_not_list names notList ml.param
  cases known : context.findUser ml.param with
  | none =>
      apply Placed.nowhere
      · simp [asks, found, isStatus, known]
      · simp [writes, found, isStatus, slotOf, unwrapped, known]
  | some user =>
      have place : asks casemap context names ml = some (.status cm user) := by
        simp [asks, found, isStatus, known]
      cases isMember : member user with
      | true =>
          apply Placed.status cm user notParam place
          simp [writes, found, isStatus, slotOf, unwrapped, known, isMember]
      | false =>
          apply Placed.outside cm user notParam isMember place
          simp [writes, found, isStatus, slotOf, unwrapped, known, isMember]

omit [DecidableEq μ] [DecidableEq υ] found in
theorem placed_of_validParam (valid : ValidParam names ml) :
    Placed casemap context names member ml := by
  cases found : names.findChannelModeByName ml.name with
  | none =>
      apply Placed.nowhere
      · simp [asks, found]
      · simp [writes, found]
  | some cm =>
      have valid := valid cm found
      cases type : (manager.mode cm).type with
      | regular => exact placed_of_unpaired found (by simp [ModeManager.isPaired, type])
      | param => exact placed_of_unpaired found (by simp [ModeManager.isPaired, type])
      | list =>
          rw [type] at valid
          cases set : ml.set with
          | true =>
              obtain ⟨value, isValid, nonempty⟩ := valid.2 set
              exact placed_of_list_set found type set isValid nonempty
          | false => exact placed_of_list_unset found type set valid.1
      | status => exact placed_of_status found type

end Places

omit [DecidableEq μ] [DecidableEq υ] in
/-- Only a lock of a mode that is not a list and not a status is about the mode itself. -/
theorem Placed.of_mode {member : υ → Bool} {ml : ModeLock} {cm : μ}
    (placed : Placed casemap context names member ml)
    (about : writes casemap context names member ml = some (.mode cm) ∨
      asks casemap context names ml = some (.mode cm)) :
    names.findChannelModeByName ml.name = some cm ∧ manager.isPaired cm = false ∧
      asks casemap context names ml = some (.mode cm) ∧
      writes casemap context names member ml = some (.mode cm) := by
  cases placed with
  | mode cm' found unpaired place target =>
      have same : cm' = cm := by simpa [place, target] using about
      subst same
      exact ⟨found, unpaired, place, target⟩
  | nowhere place target => simp [place, target] at about
  | mask _ _ _ place target => simp [place, target] at about
  | crossing _ _ _ _ _ _ _ _ place target => simp [place, target] at about
  | status _ _ _ place target => simp [place, target] at about
  | outside _ _ _ _ place target => simp [place, target] at about

section Strays

variable {member : υ → Bool} {ml : ModeLock}

omit [DecidableEq μ] [DecidableEq υ] in
/-- A lock that does not lock a parameter looks at a mode itself, or accepts a place by whether it
is set. -/
theorem Placed.notParam_of_place (placed : Placed casemap context names member ml)
    {slot : Slot μ υ} (looks : asks casemap context names ml = some slot)
    (notMode : ∀ cm, slot ≠ .mode cm) : locksParam names ml = false := by
  cases placed with
  | nowhere place _ => simp [place] at looks
  | mode cm _ _ place _ =>
      rw [place, Option.some_inj] at looks
      exact absurd looks.symm (notMode cm)
  | mask _ _ notParam _ _ => exact notParam
  | crossing _ _ _ _ notParam _ _ _ _ _ => exact notParam
  | status _ _ notParam _ _ => exact notParam
  | outside _ _ notParam _ _ _ => exact notParam

omit [DecidableEq μ] [DecidableEq υ] in
/-- A lock whose change is not made where it looks sets an entry that a listener recognises, or is
about a user who is not on the channel. -/
theorem Placed.of_misses (placed : Placed casemap context names member ml)
    (misses : writes casemap context names member ml ≠ asks casemap context names ml) :
    locksParam names ml = false ∧
      ((∃ cm internal folded folded', ml.set = true ∧ (manager.mode cm).base = none ∧
        (manager.mode internal).base = some cm ∧
        asks casemap context names ml = some (.mask cm folded) ∧
        writes casemap context names member ml = some (.mask internal folded')) ∨
      ∃ cm user, asks casemap context names ml = some (.status cm user) ∧
        writes casemap context names member ml = none) := by
  cases placed with
  | nowhere place target => exact absurd (target.trans place.symm) misses
  | mode _ _ _ place target => exact absurd (target.trans place.symm) misses
  | mask _ _ _ place target => exact absurd (target.trans place.symm) misses
  | status _ _ _ place target => exact absurd (target.trans place.symm) misses
  | crossing cm internal folded folded' notParam set plain virtual place target =>
      exact ⟨notParam, .inl ⟨cm, internal, folded, folded', set, plain, virtual, place, target⟩⟩
  | outside cm user notParam _ place target =>
      exact ⟨notParam, .inr ⟨cm, user, place, target⟩⟩

end Strays

/-! ## The body of the loop -/

section Step

variable {services after : Services μ υ} {ml : ModeLock} {changes : List (ModeChange μ)}
  {vetoDelete : Bool}

/-- What the body of the loop does for one lock. -/
structure Enforced (casemap : Casemap) (context : Context υ) (names : Names manager)
    (services after : Services μ υ) (ml : ModeLock) (changes : List (ModeChange μ)) : Prop where
  viewed : view casemap manager after.channel =
    enforce (view casemap manager services.channel)
      (demandOf casemap context names (isMember services.channel) ml)
  wellFormed : StoreWellFormed casemap manager after.channel.modes
  members : isMember after.channel = isMember services.channel
  quiet : changes = [] ↔
    (demandOf casemap context names (isMember services.channel) ml).met
      (view casemap manager services.channel) = true
  unchanged : changes = [] → after = services

/-- A change that carries out a demand that is not met enforces it. -/
theorem enforce_of_carries {channel : Channel μ υ} {raw : μ} {value : Str}
    (notMet : (demandOf casemap context names (isMember channel) ml).met
      (view casemap manager channel) = false)
    (carries : Carries casemap context names channel ml raw value) :
    enforce (view casemap manager channel)
        (demandOf casemap context names (isMember channel) ml) =
      applyChange casemap manager context.findUser (isMember channel)
        (view casemap manager channel) (ml.set, raw, value) := by
  have target : (demandOf casemap context names (isMember channel) ml).target =
      slotOf casemap manager context.findUser (isMember channel) raw value :=
    carries.slot.symm
  rw [applyChange, writeOf]
  cases slot : slotOf casemap manager context.findUser (isMember channel) raw value with
  | none =>
      rw [slot] at target
      rw [enforce, target, ite_self]
      rfl
  | some place =>
      rw [slot] at target
      rw [enforce_of_not_met notMet target, ← carries.content]
      rfl

/-- A call with a change makes its write to the view. -/
theorem view_apply {call : Call μ} {set : Bool} {raw : μ} {value : Str}
    (wellFormed : StoreWellFormed casemap manager services.channel.modes)
    (change : call.change casemap manager context services.channel = some (set, raw, value))
    (meaningful : Meaningful manager context raw value) :
    view casemap manager (call.apply casemap manager context services).channel =
        applyChange casemap manager context.findUser (isMember services.channel)
          (view casemap manager services.channel) (set, raw, value) ∧
      StoreWellFormed casemap manager
        (call.apply casemap manager context services).channel.modes ∧
      isMember (call.apply casemap manager context services).channel =
        isMember services.channel := by
  obtain ⟨data, setter, rfl, _, channel⟩ := Call.apply_of_change_eq_some change
  rw [channel]
  cases set with
  | true =>
      exact ⟨view_setModeInternal meaningful,
        storeWellFormed_setModeInternal wellFormed context setter raw data,
        isMember_setModeInternal _ setter raw data⟩
  | false =>
      exact ⟨view_removeModeInternal wellFormed meaningful,
        storeWellFormed_removeModeInternal wellFormed context raw data.value,
        isMember_removeModeInternal _ raw data.value⟩

/-- The body of the loop without a change. -/
theorem checkLock_of_lockChange_eq_none (vetoDelete : Bool)
    (noChange : lockChange casemap context names services.channel ml = none) :
    checkLock casemap context names vetoDelete services ml = some (services, []) := by
  unfold lockChange at noChange
  unfold checkLock
  cases isCall : lockCall casemap names services.channel ml with
  | none => rfl
  | some call =>
      rw [isCall, Option.bind_some] at noChange
      simp only [noChange, Call.apply_of_change_eq_none noChange]

/-- The body of the loop with a change. -/
theorem checkLock_of_lockChange_eq_some (vetoDelete : Bool) {change : ModeChange μ}
    (isChange : lockChange casemap context names services.channel ml = some change) :
    ∃ call : Call μ, call.change casemap manager context services.channel = some change ∧
      checkLock casemap context names vetoDelete services ml =
        if destroys casemap manager vetoDelete
            (call.apply casemap manager context services).channel change then none
        else some (call.apply casemap manager context services, [change]) := by
  unfold lockChange at isChange
  unfold checkLock
  cases isCall : lockCall casemap names services.channel ml with
  | none =>
      rw [isCall] at isChange
      contradiction
  | some call =>
      rw [isCall, Option.bind_some] at isChange
      exact ⟨call, isChange, by simp only [isChange]⟩

/-- Step lemma: where the channel is not destroyed, the lock is enforced. -/
theorem checkLock_enforced
    (wellFormed : StoreWellFormed casemap manager services.channel.modes)
    (answers : Answers casemap context names services.channel ml)
    (checked : checkLock casemap context names vetoDelete services ml = some (after, changes)) :
    Enforced casemap context names services after ml changes := by
  unfold Answers at answers
  cases isChange : lockChange casemap context names services.channel ml with
  | none =>
      rw [isChange] at answers
      rw [checkLock_of_lockChange_eq_none vetoDelete isChange] at checked
      cases checked
      exact ⟨(enforce_of_met answers).symm, wellFormed, rfl, iff_of_true rfl answers,
        fun _ => rfl⟩
  | some change =>
      obtain ⟨set, raw, value⟩ := change
      rw [isChange] at answers
      obtain ⟨notMet, rfl, carries⟩ := answers
      obtain ⟨call, isCall, body⟩ := checkLock_of_lockChange_eq_some vetoDelete isChange
      obtain ⟨viewed, kept, members⟩ := view_apply wellFormed isCall carries.meaningful
      rw [body] at checked
      obtain ⟨_, result⟩ := Option.ite_none_left_eq_some.mp checked
      cases result
      refine ⟨viewed.trans (enforce_of_carries notMet carries).symm, kept, members, ?_, ?_⟩
      · rw [notMet]
        simp
      · simp

/-- A lock at which the channel is destroyed. -/
structure Loses (casemap : Casemap) (names : Names manager) (vetoDelete : Bool)
    (channel : Channel μ υ) (ml : ModeLock) : Prop where
  noVeto : vetoDelete = false
  empty : channel.users.keys = []
  permanent : ∃ cm, names.findChannelModeByName ml.name = some cm ∧
    (manager.mode cm).name = ascii "PERM"
  unset : ml.set = false
  isSet : hasMode casemap channel.modes (ascii "PERM") [] ≠ 0

omit [DecidableEq μ] in
theorem keys_eq_nil_iff (channel : Channel μ υ) :
    channel.users.keys = [] ↔ ∀ user, isMember channel user = false := by
  rw [List.eq_nil_iff_forall_not_mem]
  refine forall_congr' fun user => ?_
  rw [isMember, ← AList.mem_keys, ← AList.lookup_isSome, Bool.not_eq_true]

omit [DecidableEq μ] [DecidableEq υ] in
/-- The change of an unset lock of the permanent mode is the one at which an empty channel is
destroyed. -/
theorem destroys_iff {raw : μ} {value : Str} {channel : Channel μ υ} :
    destroys casemap manager vetoDelete channel (false, raw, value) = true ↔
      (manager.mode (manager.unwrap raw value).1).type ≠ .status ∧
        (manager.mode (manager.unwrap raw value).1).name = ascii "PERM" ∧
        hasMode casemap channel.modes (ascii "PERM") [] = 0 ∧ vetoDelete = false ∧
        channel.users.keys = [] := by
  simp [destroys, and_assoc]

omit [DecidableEq μ] [DecidableEq υ] in
theorem slotOf_of_regular {member : υ → Bool} {raw : μ} {value : Str}
    (isRegular : (manager.mode (manager.unwrap raw value).1).type = .regular) :
    slotOf casemap manager context.findUser member raw value =
      some (.mode (manager.unwrap raw value).1) := by
  simp [slotOf, isRegular]

/-- The place of a lock on a regular mode is as the lock wants it when the mode is. -/
theorem met_mode_unset_iff {cm : μ} {channel : Channel μ υ}
    (isRegular : (manager.mode cm).type = .regular) (unset : ml.set = false)
    (place : asks casemap context names ml = some (.mode cm)) {member : υ → Bool} :
    (demandOf casemap context names member ml).met (view casemap manager channel) = true ↔
      hasMode casemap channel.modes (manager.mode cm).name [] = 0 := by
  rw [met_demandOf place, accepts_of_not_param (by simp [locksParam, unset]),
    view_mode_isSome (by simp [isRegular]) (by simp [isRegular])]
  simp [unset]

theorem loses_of_checkLock_eq_none
    (wellFormed : StoreWellFormed casemap manager services.channel.modes)
    (valid : ValidParam names ml) (answers : Answers casemap context names services.channel ml)
    (lost : checkLock casemap context names vetoDelete services ml = none) :
    Loses casemap names vetoDelete services.channel ml := by
  unfold Answers at answers
  cases isChange : lockChange casemap context names services.channel ml with
  | none =>
      rw [checkLock_of_lockChange_eq_none vetoDelete isChange] at lost
      contradiction
  | some change =>
      obtain ⟨set, raw, value⟩ := change
      rw [isChange] at answers
      obtain ⟨notMet, rfl, carries⟩ := answers
      obtain ⟨call, isCall, body⟩ := checkLock_of_lockChange_eq_some vetoDelete isChange
      obtain ⟨_, _, members⟩ := view_apply wellFormed isCall carries.meaningful
      have destroyed : destroys casemap manager vetoDelete
          (call.apply casemap manager context services).channel (ml.set, raw, value) = true := by
        by_contra kept
        rw [body, if_neg kept] at lost
        contradiction
      cases set : ml.set with
      | true =>
          rw [set] at destroyed
          contradiction
      | false =>
          rw [set, destroys_iff] at destroyed
          obtain ⟨_, isPerm, _, noVeto, empty⟩ := destroyed
          have isRegular := names.perm_regular isPerm
          have placed : Placed casemap context names (isMember services.channel) ml :=
            placed_of_validParam valid
          obtain ⟨found, _, place, _⟩ := placed.of_mode
            (.inl (carries.slot.symm.trans (slotOf_of_regular isRegular)))
          refine ⟨noVeto, ?_, ⟨_, found, isPerm⟩, set, ?_⟩
          · rw [keys_eq_nil_iff, ← members, ← keys_eq_nil_iff]
            exact empty
          · rw [← isPerm, ne_eq, ← met_mode_unset_iff isRegular set place, notMet]
            simp

theorem checkLock_eq_none_of_loses
    (wellFormed : StoreWellFormed casemap manager services.channel.modes)
    (answers : Answers casemap context names services.channel ml)
    (loses : Loses casemap names vetoDelete services.channel ml) :
    checkLock casemap context names vetoDelete services ml = none := by
  obtain ⟨cm, found, isPerm⟩ := loses.permanent
  have isRegular := names.perm_regular isPerm
  have place : asks casemap context names ml = some (.mode cm) := by
    simp [asks, found, isRegular]
  have target : writes casemap context names (isMember services.channel) ml =
      some (.mode cm) := by
    simp [writes, found, isRegular]
  unfold Answers at answers
  cases isChange : lockChange casemap context names services.channel ml with
  | none =>
      rw [isChange] at answers
      rw [met_mode_unset_iff isRegular loses.unset place, isPerm] at answers
      exact absurd answers loses.isSet
  | some change =>
      obtain ⟨set, raw, value⟩ := change
      rw [isChange] at answers
      obtain ⟨notMet, rfl, carries⟩ := answers
      obtain ⟨call, isCall, body⟩ := checkLock_of_lockChange_eq_some vetoDelete isChange
      obtain ⟨viewed, _, members⟩ := view_apply wellFormed isCall carries.meaningful
      have internal : (manager.unwrap raw value).1 = cm :=
        unwrap_of_slotOf_mode (carries.slot.trans target)
      rw [body, loses.unset, if_pos]
      rw [destroys_iff, internal]
      refine ⟨by simp [isRegular], isPerm, ?_, loses.noVeto, ?_⟩
      · rw [← isPerm, ← met_mode_unset_iff isRegular loses.unset place, viewed,
          ← enforce_of_carries notMet carries]
        exact met_enforce_of_own (own_iff.mpr (target.trans place.symm))
      · rw [keys_eq_nil_iff, members, ← keys_eq_nil_iff]
        exact loses.empty

/-- A lock leaves the modes that it is not about. -/
theorem Enforced.hasMode_iff (enforced : Enforced casemap context names services after ml changes)
    {cm : μ} (isRegular : (manager.mode cm).type = .regular)
    (elsewhere : writes casemap context names (isMember services.channel) ml ≠
      some (.mode cm)) :
    hasMode casemap after.channel.modes (manager.mode cm).name [] = 0 ↔
      hasMode casemap services.channel.modes (manager.mode cm).name [] = 0 := by
  have same : view casemap manager after.channel (.mode cm) =
      view casemap manager services.channel (.mode cm) := by
    rw [enforced.viewed]
    exact enforce_apply_of_ne elsewhere
  have isSome := congrArg Option.isSome same
  rw [view_mode_isSome (by simp [isRegular]) (by simp [isRegular]),
    view_mode_isSome (by simp [isRegular]) (by simp [isRegular]), decide_eq_decide] at isSome
  exact not_iff_not.mp isSome

/-- Another lock is one at which the channel is destroyed before this lock as it is after it. -/
theorem Enforced.loses_iff (enforced : Enforced casemap context names services after ml changes)
    {other : ModeLock} (elsewhere : ∀ cm, names.findChannelModeByName other.name = some cm →
      writes casemap context names (isMember services.channel) ml ≠ some (.mode cm)) :
    Loses casemap names vetoDelete after.channel other ↔
      Loses casemap names vetoDelete services.channel other := by
  have keys : after.channel.users.keys = [] ↔ services.channel.users.keys = [] := by
    rw [keys_eq_nil_iff, keys_eq_nil_iff, enforced.members]
  have isSet : (∃ cm, names.findChannelModeByName other.name = some cm ∧
      (manager.mode cm).name = ascii "PERM") →
      (hasMode casemap after.channel.modes (ascii "PERM") [] ≠ 0 ↔
        hasMode casemap services.channel.modes (ascii "PERM") [] ≠ 0) := by
    rintro ⟨cm, found, isPerm⟩
    rw [← isPerm, not_iff_not]
    exact enforced.hasMode_iff (names.perm_regular isPerm) (elsewhere cm found)
  constructor
  · intro loses
    exact ⟨loses.noVeto, keys.mp loses.empty, loses.permanent, loses.unset,
      (isSet loses.permanent).mp loses.isSet⟩
  · intro loses
    exact ⟨loses.noVeto, keys.mpr loses.empty, loses.permanent, loses.unset,
      (isSet loses.permanent).mpr loses.isSet⟩

end Step

/-! ## The loop -/

section Run

variable {services after : Services μ υ} {locks : List ModeLock} {sent : List (ModeChange μ)}
  {vetoDelete : Bool}

/-- What a pass does. -/
structure Passed (casemap : Casemap) (context : Context υ) (names : Names manager)
    (services after : Services μ υ) (locks : List ModeLock) (sent : List (ModeChange μ)) :
    Prop where
  viewed : view casemap manager after.channel =
    pass (demandOf casemap context names (isMember services.channel))
      (view casemap manager services.channel) locks
  wellFormed : StoreWellFormed casemap manager after.channel.modes
  members : isMember after.channel = isMember services.channel
  quiet : sent = [] ↔ Quiet (demandOf casemap context names (isMember services.channel))
    (view casemap manager services.channel) locks
  unchanged : sent = [] → after = services

theorem checkModes_cons (ml : ModeLock) :
    checkModes casemap context names vetoDelete services (ml :: locks) =
      (checkLock casemap context names vetoDelete services ml).bind fun first =>
        (checkModes casemap context names vetoDelete first.1 locks).bind fun rest =>
          some (rest.1, first.2 ++ rest.2) :=
  rfl

/-- Run lemma: a pass that does not destroy the channel enforces the locks in their order. -/
theorem checkModes_passed
    (wellFormed : StoreWellFormed casemap manager services.channel.modes)
    (valid : ∀ ml ∈ locks, ValidParam names ml)
    (bots : ∀ param user, context.findBot param = some user → context.findUser param = some user)
    (checked : checkModes casemap context names vetoDelete services locks = some (after, sent)) :
    Passed casemap context names services after locks sent := by
  induction locks generalizing services sent with
  | nil =>
      cases checked
      exact ⟨rfl, wellFormed, rfl, by simp [Quiet], fun _ => rfl⟩
  | cons ml locks ih =>
      rw [checkModes_cons] at checked
      obtain ⟨⟨middle, changes⟩, first, checked⟩ := Option.bind_eq_some_iff.mp checked
      obtain ⟨⟨last, more⟩, rest, result⟩ := Option.bind_eq_some_iff.mp checked
      cases result
      have enforced := checkLock_enforced wellFormed
        (answers_of_validParam (valid ml List.mem_cons_self) bots) first
      have passed := ih enforced.wellFormed (fun ml mem => valid ml (List.mem_cons_of_mem _ mem))
        rest
      have viewed := passed.viewed
      have quiet := passed.quiet
      rw [enforced.members, enforced.viewed] at viewed quiet
      refine ⟨viewed, passed.wellFormed, passed.members.trans enforced.members, ?_, ?_⟩
      · rw [List.append_eq_nil_iff, enforced.quiet, quiet]
        constructor
        · rintro ⟨met, rest⟩
          rw [enforce_of_met met] at rest
          exact List.forall_mem_cons.mpr ⟨met, rest⟩
        · intro all
          obtain ⟨met, rest⟩ := List.forall_mem_cons.mp all
          rw [enforce_of_met met]
          exact ⟨met, rest⟩
      · intro noChange
        obtain ⟨noFirst, noRest⟩ := List.append_eq_nil_iff.mp noChange
        exact (passed.unchanged noRest).trans (enforced.unchanged noFirst)

omit [DecidableEq μ] in
/-- A lock of a mode that is to have one lock is alone. -/
theorem not_found_of_single {before rest : List ModeLock} {ml : ModeLock} {cm : μ}
    (single : (before ++ ml :: rest).countP (fun ml => ml.name = (manager.mode cm).name) ≤ 1)
    (found : names.findChannelModeByName ml.name = some cm) :
    ∀ other ∈ before ++ rest, names.findChannelModeByName other.name ≠ some cm := by
  intro other mem isCm
  have named : ml.name = (manager.mode cm).name := (names.find_iff.mp found).symm
  have otherNamed : other.name = (manager.mode cm).name := (names.find_iff.mp isCm).symm
  have counted : 0 < (before ++ rest).countP fun ml => ml.name = (manager.mode cm).name :=
    List.countP_pos_iff.mpr ⟨other, mem, by simp [otherNamed]⟩
  rw [List.countP_append, List.countP_cons_of_pos (by simp [named])] at single
  rw [List.countP_append] at counted
  omega

/-- The channel is destroyed exactly when it is at one of the locks to start with. -/
theorem checkModes_eq_none_iff
    (wellFormed : StoreWellFormed casemap manager services.channel.modes)
    (single : ∀ cm, manager.isPaired cm = false →
      locks.countP (fun ml => ml.name = (manager.mode cm).name) ≤ 1)
    (valid : ∀ ml ∈ locks, ValidParam names ml)
    (bots : ∀ param user, context.findBot param = some user → context.findUser param = some user) :
    checkModes casemap context names vetoDelete services locks = none ↔
      ∃ ml ∈ locks, Loses casemap names vetoDelete services.channel ml := by
  induction locks generalizing services with
  | nil => simp [checkModes]
  | cons ml locks ih =>
      have validMl := valid ml List.mem_cons_self
      have answers : Answers casemap context names services.channel ml :=
        answers_of_validParam validMl bots
      rw [checkModes_cons, List.exists_mem_cons_iff]
      cases first : checkLock casemap context names vetoDelete services ml with
      | none =>
          exact iff_of_true rfl
            (.inl (loses_of_checkLock_eq_none wellFormed validMl answers first))
      | some result =>
          obtain ⟨middle, changes⟩ := result
          have enforced := checkLock_enforced wellFormed answers first
          have kept : ¬Loses casemap names vetoDelete services.channel ml := by
            intro loses
            rw [checkLock_eq_none_of_loses wellFormed answers loses] at first
            contradiction
          have rest := ih enforced.wellFormed
            (fun cm unpaired => (List.sublist_cons_self ml locks).countP_le.trans
              (single cm unpaired))
            (fun ml mem => valid ml (List.mem_cons_of_mem _ mem))
          have same : ∀ other ∈ locks,
              (Loses casemap names vetoDelete middle.channel other ↔
                Loses casemap names vetoDelete services.channel other) := by
            intro other mem
            apply enforced.loses_iff
            intro cm found target
            obtain ⟨foundMl, unpaired, _, _⟩ :=
              (placed_of_validParam validMl).of_mode (.inl target)
            rw [← List.nil_append (ml :: locks)] at single
            exact not_found_of_single (single cm unpaired) foundMl other mem found
          simp only [Option.bind_some, kept, false_or]
          rw [← exists_congr fun other => and_congr_right (same other), ← rest]
          cases checkModes casemap context names vetoDelete middle locks with
          | none => exact iff_of_true rfl rfl
          | some result => simp

/-- A pass over locks that are met makes no change. -/
theorem checkModes_of_quiet (valid : ∀ ml ∈ locks, ValidParam names ml)
    (bots : ∀ param user, context.findBot param = some user → context.findUser param = some user)
    (quiet : Quiet (demandOf casemap context names (isMember services.channel))
      (view casemap manager services.channel) locks) :
    checkModes casemap context names vetoDelete services locks = some (services, []) := by
  induction locks with
  | nil => rfl
  | cons ml locks ih =>
      have noChange : lockChange casemap context names services.channel ml = none := by
        have answers : Answers casemap context names services.channel ml :=
          answers_of_validParam (valid ml List.mem_cons_self) bots
        unfold Answers at answers
        cases isChange : lockChange casemap context names services.channel ml with
        | none => rfl
        | some change =>
            rw [isChange] at answers
            have notMet := answers.1
            rw [quiet ml List.mem_cons_self] at notMet
            contradiction
      have rest := ih (fun ml mem => valid ml (List.mem_cons_of_mem _ mem))
        fun ml mem => quiet ml (List.mem_cons_of_mem _ mem)
      rw [checkModes_cons, checkLock_of_lockChange_eq_none vetoDelete noChange, Option.bind_some,
        rest]
      rfl

end Run

end Anope.Channel
