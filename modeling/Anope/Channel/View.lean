import Anope.Channel.Change
import Anope.Channel.Store
import Anope.Library.Overlay

/-!
# The mode state as an IRCd sees it

A channel mode, a mask of a list up to case and a status of a member are places
that are set or not.  An ordinary IRCd applies a mode change by writing one such
place; a parameter mode keeps its parameter there.  Masks are read as services
read them, through `Unwrap`.

`SetModeInternal` and `RemoveModeInternal` make exactly that write to the view
of the channel.
-/

namespace Anope.Channel

open Library Library.Overlay Anope.Text Anope.Mode

/-- A place of the mode state. -/
inductive Slot (μ υ : Type) where
  | mode (cm : μ)
  | mask (cm : μ) (folded : Str)
  | status (cm : μ) (user : υ)
  deriving DecidableEq

/-- A mode state: what is set at each place. -/
abbrev ModeState (μ υ : Type) := Slot μ υ → Option Str

variable {μ υ : Type} [DecidableEq μ] [DecidableEq υ]

section

variable (casemap : Casemap) (manager : ModeManager μ)

/-- What the elements of a mode say about the mode itself: that it is set, or
its parameter. -/
def modeView (mode : ChannelMode μ) (entries : List ModeData) : Option Str :=
  match mode.type with
  | .regular => entries.head?.map fun _ => []
  | .param => entries.head?.map ModeData.value
  | .list | .status => none

/-- Whether the elements of a list contain a mask. -/
def maskView (mode : ChannelMode μ) (entries : List ModeData) (folded : Str) : Option Str :=
  if mode.type = .list ∧ ∃ entry ∈ entries, casemap.ciStr entry.value = folded then some []
  else none

/-- The mode state that a channel stands for. -/
def view (channel : Channel μ υ) : ModeState μ υ
  | .mode cm =>
      modeView (manager.mode cm) (channel.modes.equalRange (manager.mode cm).name)
  | .mask cm folded =>
      maskView casemap (manager.mode cm) (channel.modes.equalRange (manager.mode cm).name) folded
  | .status cm user => if hasUserStatus channel user cm then some [] else none

/-- Whether a user is on the channel. -/
def isMember (channel : Channel μ υ) (user : υ) : Bool :=
  (channel.users.lookup user).isSome

variable (findUser : Str → Option υ) (member : υ → Bool)

/-- The place that a mode with a value is about.  Statuses are for members
only. -/
def slotOf (raw : μ) (value : Str) : Option (Slot μ υ) :=
  let (cm, value) := manager.unwrap raw value
  match (manager.mode cm).type with
  | .regular | .param => some (.mode cm)
  | .list => some (.mask cm (casemap.ciStr value))
  | .status => (findUser value).bind fun u => if member u then some (.status cm u) else none

/-- What setting a mode with a value leaves at its place. -/
def contentOf (raw : μ) (value : Str) : Str :=
  let (cm, value) := manager.unwrap raw value
  if (manager.mode cm).type = .param then value else []

/-- The write of a mode change. -/
def writeOf (change : ModeChange μ) : Option (Slot μ υ × Option Str) :=
  (slotOf casemap manager findUser member change.2.1 change.2.2).map fun slot =>
    (slot, if change.1 then some (contentOf manager change.2.1 change.2.2) else none)

/-- The state of an ordinary IRCd after a sequence of mode changes. -/
def replay (state : ModeState μ υ) (changes : List (ModeChange μ)) : ModeState μ υ :=
  overlay state (changes.filterMap (writeOf casemap manager findUser member))

end

section Views

variable {casemap : Casemap} {manager : ModeManager μ} {context : Context υ}

omit [DecidableEq μ] [DecidableEq υ] in
theorem unwrap_of_slotOf_mode {findUser : Str → Option υ} {member : υ → Bool} {raw cm : μ}
    {value : Str}
    (place : slotOf casemap manager findUser member raw value = some (.mode cm)) :
    (manager.unwrap raw value).1 = cm := by
  rcases unwrapped : manager.unwrap raw value with ⟨cm', text⟩
  unfold slotOf at place
  rw [unwrapped] at place
  cases type : (manager.mode cm').type <;> simp only [type] at place
  · simpa using place
  · simp at place
  · simpa using place
  · obtain ⟨user, _, isMember⟩ := Option.bind_eq_some_iff.mp place
    split at isMember <;> simp at isMember

omit [DecidableEq μ] in
theorem lookup_updateStatus (channel : Channel μ υ) (user : υ) (update : Finset μ → Finset μ)
    (other : υ) :
    (updateStatus channel user update).users.lookup other =
      if other = user then (channel.users.lookup user).map update
      else channel.users.lookup other := by
  unfold updateStatus
  cases present : channel.users.lookup user with
  | none =>
      by_cases same : other = user
      · subst same
        simp [present]
      · simp [same]
  | some status =>
      by_cases same : other = user
      · subst same
        simp
      · simp [same, AList.lookup_insert_ne same]

omit [DecidableEq μ] in
@[simp]
theorem isMember_updateStatus (channel : Channel μ υ) (user : υ)
    (update : Finset μ → Finset μ) :
    isMember (updateStatus channel user update) = isMember channel := by
  funext other
  unfold isMember
  rw [lookup_updateStatus]
  by_cases same : other = user
  · subst same
    simp
  · simp [same]

theorem hasUserStatus_updateStatus (channel : Channel μ υ) (user : υ)
    (update : Finset μ → Finset μ) (other : υ) (cm : μ) :
    hasUserStatus (updateStatus channel user update) other cm =
      if other = user then
        ((channel.users.lookup user).elim false fun status => decide (cm ∈ update status))
      else hasUserStatus channel other cm := by
  unfold hasUserStatus
  rw [lookup_updateStatus]
  by_cases same : other = user
  · subst same
    cases channel.users.lookup other <;> simp
  · simp [same]

/-- A change to the elements of one mode changes the view at most at the places
of that mode. -/
theorem view_eq_of_ne {channel channel' : Channel μ υ} {cm : μ}
    (others : ∀ name, (manager.mode cm).name ≠ name →
      channel'.modes.equalRange name = channel.modes.equalRange name)
    (users : channel'.users = channel.users) {slot : Slot μ υ}
    (notMode : slot ≠ .mode cm) (notMask : ∀ folded, slot ≠ .mask cm folded) :
    view casemap manager channel' slot = view casemap manager channel slot := by
  have other : ∀ cm', cm' ≠ cm →
      channel'.modes.equalRange (manager.mode cm').name =
        channel.modes.equalRange (manager.mode cm').name :=
    fun cm' different => others _ fun same => different (manager.name_inj same).symm
  cases slot with
  | mode cm' =>
      simp only [view]
      rw [other cm' fun same => notMode (same ▸ rfl)]
  | mask cm' folded =>
      simp only [view]
      rw [other cm' fun same => notMask folded (same ▸ rfl)]
  | status cm' user =>
      have same : hasUserStatus channel' user cm' = hasUserStatus channel user cm' := by
        unfold hasUserStatus
        rw [users]
      simp only [view, same]

/-- A change to the elements of a mode that is not a list is one write. -/
theorem view_eq_update_mode {channel channel' : Channel μ υ} {cm : μ} {value : Option Str}
    (notList : (manager.mode cm).type ≠ .list)
    (others : ∀ name, (manager.mode cm).name ≠ name →
      channel'.modes.equalRange name = channel.modes.equalRange name)
    (users : channel'.users = channel.users)
    (here : modeView (manager.mode cm) (channel'.modes.equalRange (manager.mode cm).name) =
      value) :
    view casemap manager channel' =
      Function.update (view casemap manager channel) (.mode cm) value := by
  funext slot
  by_cases isMode : slot = .mode cm
  · subst isMode
    rw [Function.update_self]
    exact here
  · rw [Function.update_of_ne isMode]
    by_cases isMask : ∃ folded, slot = .mask cm folded
    · obtain ⟨folded, rfl⟩ := isMask
      simp [view, maskView, notList]
    · exact view_eq_of_ne others users isMode fun folded same => isMask ⟨folded, same⟩

/-- A change to the elements of a list that concerns one mask is one write. -/
theorem view_eq_update_mask {channel channel' : Channel μ υ} {cm : μ} {folded : Str}
    {value : Option Str} (isList : (manager.mode cm).type = .list)
    (others : ∀ name, (manager.mode cm).name ≠ name →
      channel'.modes.equalRange name = channel.modes.equalRange name)
    (users : channel'.users = channel.users)
    (here : maskView casemap (manager.mode cm)
      (channel'.modes.equalRange (manager.mode cm).name) folded = value)
    (otherMasks : ∀ folded', folded' ≠ folded →
      ((∃ entry ∈ channel'.modes.equalRange (manager.mode cm).name,
          casemap.ciStr entry.value = folded') ↔
        ∃ entry ∈ channel.modes.equalRange (manager.mode cm).name,
          casemap.ciStr entry.value = folded')) :
    view casemap manager channel' =
      Function.update (view casemap manager channel) (.mask cm folded) value := by
  funext slot
  by_cases isMask : slot = .mask cm folded
  · subst isMask
    rw [Function.update_self]
    exact here
  · rw [Function.update_of_ne isMask]
    by_cases otherMask : ∃ folded', slot = .mask cm folded'
    · obtain ⟨folded', rfl⟩ := otherMask
      have different : folded' ≠ folded := fun same => isMask (same ▸ rfl)
      simp only [view, maskView, otherMasks folded' different]
    · by_cases isMode : slot = .mode cm
      · subst isMode
        simp [view, modeView, isList]
      · exact view_eq_of_ne others users isMode fun folded' same => otherMask ⟨folded', same⟩

/-- A change to the status of one member is one write. -/
theorem view_updateStatus (channel : Channel μ υ) {user : υ} {cm : μ}
    {update : Finset μ → Finset μ} (member : isMember channel user = true) (has : Bool)
    (here : ∀ status, cm ∈ update status ↔ has = true)
    (others : ∀ status cm', cm' ≠ cm → (cm' ∈ update status ↔ cm' ∈ status)) :
    view casemap manager (updateStatus channel user update) =
      Function.update (view casemap manager channel) (.status cm user)
        (if has then some [] else none) := by
  obtain ⟨status, present⟩ := Option.isSome_iff_exists.mp member
  funext slot
  cases slot with
  | mode cm' => simp [view]
  | mask cm' folded => simp [view]
  | status cm' other =>
      simp only [view, hasUserStatus_updateStatus, Function.update_apply, Slot.status.injEq]
      by_cases sameUser : other = user
      · subst sameUser
        by_cases sameMode : cm' = cm
        · subst sameMode
          simp [present, here]
        · simp [present, sameMode, others status cm' sameMode, hasUserStatus]
      · simp [sameUser]

omit [DecidableEq μ] in
/-- A status change for a user who is not on the channel changes nothing. -/
theorem updateStatus_of_not_member {channel : Channel μ υ} {user : υ}
    (notMember : ¬isMember channel user = true) (update : Finset μ → Finset μ) :
    updateStatus channel user update = channel := by
  unfold isMember at notMember
  rw [Bool.not_eq_true, Option.isSome_eq_false_iff, Option.isNone_iff_eq_none] at notMember
  simp [updateStatus, notMember]

/-! ## The internal changes as writes -/

/-- Carry out the write of a mode change. -/
def applyChange (casemap : Casemap) (manager : ModeManager μ) (findUser : Str → Option υ)
    (member : υ → Bool) (state : ModeState μ υ) (change : ModeChange μ) : ModeState μ υ :=
  overlay state (writeOf casemap manager findUser member change).toList

/-- A mask or the name of a user is there where the mode needs it, and a bot of
that name, if there is one, is the user of that name. -/
structure Meaningful (manager : ModeManager μ) (context : Context υ) (raw : μ) (value : Str) :
    Prop where
  hasText : (manager.mode (manager.unwrap raw value).1).type = .list ∨
      (manager.mode (manager.unwrap raw value).1).type = .status →
    (manager.unwrap raw value).2 ≠ []
  sameUser : (manager.mode (manager.unwrap raw value).1).type = .status →
    (context.findBot (manager.unwrap raw value).2).or
        (context.findUser (manager.unwrap raw value).2) =
      context.findUser (manager.unwrap raw value).2

theorem hasMode_ne_zero_iff (casemap : Casemap) (modes : ModeList) (name : Str) {value : Str}
    (hasText : value ≠ []) :
    hasMode casemap modes name value ≠ 0 ↔
      ∃ entry ∈ modes.equalRange name, casemap.ciStr entry.value = casemap.ciStr value := by
  simp [hasMode, hasText, getModeList]

theorem applyChange_mode {findUser : Str → Option υ} {member : υ → Bool} {raw cm : μ}
    {value text : Str} (unwrapped : manager.unwrap raw value = (cm, text))
    (notList : (manager.mode cm).type ≠ .list) (notStatus : (manager.mode cm).type ≠ .status)
    (state : ModeState μ υ) (set : Bool) :
    applyChange casemap manager findUser member state (set, raw, value) =
      Function.update state (.mode cm)
        (if set then some (if (manager.mode cm).type = .param then text else []) else none) := by
  have slot : slotOf casemap manager findUser member raw value = some (.mode cm) := by
    unfold slotOf
    rw [unwrapped]
    cases type : (manager.mode cm).type <;> simp_all
  have content : contentOf manager raw value =
      if (manager.mode cm).type = .param then text else [] := by
    unfold contentOf
    rw [unwrapped]
  simp only [applyChange, writeOf, slot, content]
  rfl

theorem applyChange_mask {findUser : Str → Option υ} {member : υ → Bool} {raw cm : μ}
    {value text : Str} (unwrapped : manager.unwrap raw value = (cm, text))
    (isList : (manager.mode cm).type = .list) (state : ModeState μ υ) (set : Bool) :
    applyChange casemap manager findUser member state (set, raw, value) =
      Function.update state (.mask cm (casemap.ciStr text)) (if set then some [] else none) := by
  have slot : slotOf casemap manager findUser member raw value =
      some (.mask cm (casemap.ciStr text)) := by
    unfold slotOf
    rw [unwrapped]
    simp only [isList]
  have content : contentOf manager raw value = [] := by
    unfold contentOf
    rw [unwrapped]
    simp [isList]
  simp only [applyChange, writeOf, slot, content]
  rfl

theorem applyChange_status {findUser : Str → Option υ} {member : υ → Bool} {raw cm : μ}
    {value text : Str} (unwrapped : manager.unwrap raw value = (cm, text))
    (isStatus : (manager.mode cm).type = .status) (state : ModeState μ υ) (set : Bool) :
    applyChange casemap manager findUser member state (set, raw, value) =
      match findUser text with
      | none => state
      | some u =>
          if member u then
            Function.update state (.status cm u) (if set then some [] else none)
          else state := by
  have slot : slotOf casemap manager findUser member raw value =
      (findUser text).bind fun u => if member u then some (.status cm u) else none := by
    unfold slotOf
    rw [unwrapped]
    simp only [isStatus]
  have content : contentOf manager raw value = [] := by
    unfold contentOf
    rw [unwrapped]
    simp [isStatus]
  simp only [applyChange, writeOf, slot, content]
  cases findUser text with
  | none => rfl
  | some u =>
      by_cases isMember : member u = true
      · simp [isMember, overlay]
      · simp [isMember]

theorem isMember_setModeInternal (channel : Channel μ υ) (setter : Str) (raw : μ)
    (data : ModeData) :
    isMember (setModeInternal casemap manager context setter channel raw data) =
      isMember channel := by
  rcases setModeInternal_cases context setter channel raw data with
    ⟨modes, changed⟩ | ⟨user, update, changed⟩
  · rw [changed]
    rfl
  · rw [changed]
    exact isMember_updateStatus channel user update

theorem isMember_removeModeInternal (channel : Channel μ υ) (raw : μ) (value : Str) :
    isMember (removeModeInternal casemap manager context channel raw value) =
      isMember channel := by
  rcases removeModeInternal_cases context channel raw value with
    ⟨modes, changed⟩ | ⟨user, update, changed⟩
  · rw [changed]
    rfl
  · rw [changed]
    exact isMember_updateStatus channel user update

/-- `SetModeInternal` makes the write of the change to the view. -/
theorem view_setModeInternal {channel : Channel μ υ} {setter : Str} {raw : μ} {data : ModeData}
    (meaningful : Meaningful manager context raw data.value) :
    view casemap manager (setModeInternal casemap manager context setter channel raw data) =
      applyChange casemap manager context.findUser (isMember channel)
        (view casemap manager channel) (true, raw, data.value) := by
  obtain ⟨hasText, _⟩ := meaningful
  rcases unwrapped : manager.unwrap raw data.value with ⟨cm, text⟩
  rw [unwrapped] at hasText
  by_cases isStatus : (manager.mode cm).type = .status
  · rw [setModeInternal_of_status unwrapped isStatus, if_neg (hasText (.inr isStatus)),
      applyChange_status unwrapped isStatus]
    cases context.findUser text with
    | none => rfl
    | some u =>
        by_cases member : isMember channel u = true
        · simp only [member, if_true]
          refine view_updateStatus channel member true (by simp) ?_
          intro status cm' different
          simp [different]
        · simp only [updateStatus_of_not_member member, member, if_false, Bool.false_eq_true]
  · by_cases isList : (manager.mode cm).type = .list
    · rw [setModeInternal_of_list unwrapped isList, applyChange_mask unwrapped isList]
      have present_iff := hasMode_ne_zero_iff casemap channel.modes (manager.mode cm).name
        (hasText (.inl isList))
      by_cases present : hasMode casemap channel.modes (manager.mode cm).name text ≠ 0
      · rw [if_pos present, eq_comm]
        apply Function.update_eq_self_iff.mpr
        simp only [view, maskView, if_true]
        exact (if_pos ⟨isList, present_iff.mp present⟩).symm
      · rw [if_neg present]
        refine view_eq_update_mask isList ?_ rfl ?_ ?_
        · exact fun name different => Multimap.equalRange_emplace_of_ne _ _ different
        · simp [maskView, isList]
        · intro folded different
          simp [Ne.symm different, or_and_right, exists_or]
    · rw [setModeInternal_of_single unwrapped isList isStatus,
        applyChange_mode unwrapped isList isStatus]
      refine view_eq_update_mode isList ?_ rfl ?_
      · intro name different
        rw [Multimap.equalRange_emplace_of_ne _ _ different,
          Multimap.equalRange_eraseKey_of_ne _ different]
      · cases type : (manager.mode cm).type <;> simp_all [modeView]

/-- `RemoveModeInternal` makes the write of the change to the view. -/
theorem view_removeModeInternal {channel : Channel μ υ} {raw : μ} {value : Str}
    (wellFormed : StoreWellFormed casemap manager channel.modes)
    (meaningful : Meaningful manager context raw value) :
    view casemap manager (removeModeInternal casemap manager context channel raw value) =
      applyChange casemap manager context.findUser (isMember channel)
        (view casemap manager channel) (false, raw, value) := by
  obtain ⟨hasText, sameUser⟩ := meaningful
  rcases unwrapped : manager.unwrap raw value with ⟨cm, text⟩
  rw [unwrapped] at hasText sameUser
  by_cases isStatus : (manager.mode cm).type = .status
  · rw [removeModeInternal_of_status unwrapped isStatus, if_neg (hasText (.inr isStatus)),
      sameUser isStatus, applyChange_status unwrapped isStatus]
    cases context.findUser text with
    | none => rfl
    | some u =>
        by_cases member : isMember channel u = true
        · simp only [member, if_true]
          refine view_updateStatus channel member false (by simp) ?_
          intro status cm' different
          simp [different]
        · simp only [updateStatus_of_not_member member, member, if_false, Bool.false_eq_true]
  · by_cases isList : (manager.mode cm).type = .list
    · rw [removeModeInternal_of_list unwrapped isList, applyChange_mask unwrapped isList]
      have erased : ∀ entry, entry ∈ (channel.modes.equalRange (manager.mode cm).name).eraseP
            (fun data => casemap.equalsCi text data.value) ↔
          entry ∈ channel.modes.equalRange (manager.mode cm).name ∧
            casemap.ciStr text ≠ casemap.ciStr entry.value := by
        intro entry
        rw [eraseP_eq_filter, List.mem_filter]
        · simp [Casemap.equalsCi]
        · refine (wellFormed.list cm isList).imp fun {entry entry'} differ same => ?_
          simp only [Casemap.equalsCi, decide_eq_true_eq, decide_eq_false_iff_not] at *
          rwa [same]
      refine view_eq_update_mask isList ?_ rfl ?_ ?_
      · exact fun name different => Multimap.equalRange_eraseFirst_of_ne _ _ different
      · rw [Multimap.equalRange_eraseFirst_self, maskView, if_neg]
        · rfl
        · rintro ⟨_, entry, mem, same⟩
          exact ((erased entry).mp mem).2 same.symm
      · intro folded different
        simp only [Multimap.equalRange_eraseFirst_self, erased]
        constructor
        · rintro ⟨entry, ⟨mem, _⟩, same⟩
          exact ⟨entry, mem, same⟩
        · rintro ⟨entry, mem, same⟩
          exact ⟨entry, ⟨mem, fun equal => different (same.symm.trans equal.symm)⟩, same⟩
    · rw [removeModeInternal_of_single unwrapped isList isStatus,
        applyChange_mode unwrapped isList isStatus]
      refine view_eq_update_mode isList ?_ rfl ?_
      · exact fun name different => Multimap.equalRange_eraseKey_of_ne _ different
      · cases type : (manager.mode cm).type <;> simp_all [modeView]

end Views

end Anope.Channel
