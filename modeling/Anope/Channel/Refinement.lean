import Anope.Channel.View
import Anope.Library.Run

/-!
# Sending mode changes in a batch

Services apply each mode change to a channel at once and send the stacked
changes later.  The lines sent are replayed on the mode state that the IRCd and
services last agreed on; at each place only the last change of the stacker
counts, a removal if there is one and else the last addition.

Every change that is safe keeps the replayed state equal to the state of
services.  A change is not safe when it sets an entry that is pending to be
removed in another spelling, or when it cancels a pending change and the IRCd
does not already have what it asks for.
-/

namespace Anope.Channel

open Library Library.Overlay Library.Run Anope.Text Anope.Mode

section Places

variable {μ υ : Type} {casemap : Casemap} {manager : ModeManager μ} {findUser : Str → Option υ}
  {member : υ → Bool}

/-- Only text of a list is unwrapped, and to a list. -/
theorem unwrap_cases (ircd : Ircd manager) (raw : μ) (value : Str) :
    manager.unwrap raw value = (raw, value) ∨
      (manager.mode raw).type = .list ∧
        (manager.mode (manager.unwrap raw value).1).type = .list := by
  unfold ModeManager.unwrap
  cases found : (manager.listeners raw).findSome? fun listener =>
      (manager.unwrapParam listener raw value).map fun text => (listener, text) with
  | none => exact .inl rfl
  | some result =>
      obtain ⟨listener, mem, recognised⟩ := List.exists_of_findSome?_eq_some found
      obtain ⟨text, byListener, rfl⟩ := Option.map_eq_some_iff.mp recognised
      exact .inr (ircd.unwrapParam_list mem byListener)

theorem unwrap_of_param (ircd : Ircd manager) {raw : μ} (isParam : (manager.mode raw).type = .param)
    (value : Str) : manager.unwrap raw value = (raw, value) := by
  rcases unwrap_cases ircd raw value with unwrapped | ⟨isList, _⟩
  · exact unwrapped
  · rw [isParam] at isList
    contradiction

/-- A parameter mode is its own place. -/
theorem slotOf_of_unwrap_param (casemap : Casemap) (findUser : Str → Option υ)
    (member : υ → Bool) (ircd : Ircd manager) {raw : μ} {value : Str}
    (isParam : (manager.mode (manager.unwrap raw value).1).type = .param) :
    (manager.mode raw).type = .param ∧
      slotOf casemap manager findUser member raw value = some (.mode raw) := by
  rcases unwrap_cases ircd raw value with unwrapped | ⟨_, isList⟩
  · rw [unwrapped] at isParam
    simp [slotOf, unwrapped, isParam]
  · rw [isParam] at isList
    contradiction

/-- The mode whose letter is sent for a place. -/
def Slot.raw (manager : ModeManager μ) : Slot μ υ → μ
  | .mode cm | .mask cm _ | .status cm _ => (manager.mode cm).base.getD cm

theorem Slot.raw_eq (ircd : Ircd manager) {raw : μ} {value : Str} {slot : Slot μ υ}
    (base : (manager.mode raw).base = none)
    (place : slotOf casemap manager findUser member raw value = some slot) :
    slot.raw manager = raw := by
  have unwrapped : (manager.mode (manager.unwrap raw value).1).base.getD
      (manager.unwrap raw value).1 = raw := by
    unfold ModeManager.unwrap
    cases found : (manager.listeners raw).findSome? fun listener =>
        (manager.unwrapParam listener raw value).map fun text => (listener, text) with
    | none => simp [base]
    | some result =>
        obtain ⟨listener, mem, recognised⟩ := List.exists_of_findSome?_eq_some found
        obtain ⟨text, _, rfl⟩ := Option.map_eq_some_iff.mp recognised
        simp [ircd.listeners_base mem]
  unfold slotOf at place
  split at place
  rename_i cm text unwrapEq
  rw [unwrapEq] at unwrapped
  cases type : (manager.mode cm).type <;> simp only [type] at place
  · cases place
    exact unwrapped
  · cases place
    exact unwrapped
  · cases place
    exact unwrapped
  · obtain ⟨user, _, isMember⟩ := Option.bind_eq_some_iff.mp place
    split at isMember
    · cases isMember
      exact unwrapped
    · contradiction

end Places

variable {μ υ : Type} [LinearOrder μ] [DecidableEq υ]

/-- What a change writes at one place. -/
def writeAt (casemap : Casemap) (manager : ModeManager μ) (findUser : Str → Option υ)
    (member : υ → Bool) (slot : Slot μ υ) (change : ModeChange μ) : Option (Option Str) :=
  if slotOf casemap manager findUser member change.2.1 change.2.2 = some slot then
    some (if change.1 then some (contentOf manager change.2.1 change.2.2) else none)
  else none

section Slots

variable {casemap : Casemap} {manager : ModeManager μ} {findUser : Str → Option υ}
  {member : υ → Bool}

theorem lastWrite_filterMap_writeOf (changes : List (ModeChange μ)) (slot : Slot μ υ) :
    lastWrite (changes.filterMap (writeOf casemap manager findUser member)) slot =
      (changes.filterMap (writeAt casemap manager findUser member slot)).getLast? := by
  have writes : ((changes.filterMap (writeOf casemap manager findUser member)).filter
      fun write => write.1 = slot).map Prod.snd =
        changes.filterMap (writeAt casemap manager findUser member slot) := by
    rw [List.filter_filterMap, List.map_filterMap]
    congr 1
    funext change
    unfold writeOf writeAt
    cases slotOf casemap manager findUser member change.2.1 change.2.2 with
    | none => simp
    | some other =>
        by_cases same : other = slot <;> simp [same, Option.filter]
  rw [lastWrite, ← writes, List.getLast?_map]

omit [DecidableEq υ] in
/-- A change is about the same place as any change that counts as the same. -/
theorem slotOf_of_sameChange (ircd : Ircd manager) {raw : μ} {value : Str}
    {entry : Pending μ} (same : sameChange manager raw value entry = true) :
    slotOf casemap manager findUser member entry.1 entry.2.value =
      slotOf casemap manager findUser member raw value := by
  obtain ⟨sameMode, text⟩ := sameChange_iff.mp same
  rw [sameMode]
  rcases text with isParam | text
  · simp only [slotOf, unwrap_of_param ircd isParam, isParam]
  · rw [text]

omit [DecidableEq υ] in
/-- Two changes of one place that do not count as the same have the same
content, for only a parameter mode has one. -/
theorem contentOf_eq_of_slotOf (ircd : Ircd manager) {raw : μ} {value : Str}
    {entry : Pending μ} {slot : Slot μ υ}
    (place : slotOf casemap manager findUser member raw value = some slot)
    (entryPlace : slotOf casemap manager findUser member entry.1 entry.2.value = some slot)
    (different : sameChange manager raw value entry = false) :
    contentOf manager entry.1 entry.2.value = contentOf manager raw value := by
  have content_nil : ∀ {raw : μ} {value : Str},
      (manager.mode (manager.unwrap raw value).1).type ≠ .param →
        contentOf manager raw value = [] := fun notParam => if_neg notParam
  by_cases isParam : (manager.mode (manager.unwrap raw value).1).type = .param
  · obtain ⟨rawParam, rawPlace⟩ :=
      slotOf_of_unwrap_param casemap findUser member ircd isParam
    rw [place, Option.some.injEq] at rawPlace
    subst rawPlace
    have unwrapped := unwrap_of_slotOf_mode entryPlace
    have entryParam : (manager.mode (manager.unwrap entry.1 entry.2.value).1).type = .param := by
      rw [unwrapped, rawParam]
    obtain ⟨_, sameMode⟩ :=
      slotOf_of_unwrap_param casemap findUser member ircd entryParam
    rw [entryPlace, Option.some.injEq, Slot.mode.injEq] at sameMode
    have same : sameChange manager raw value entry = true :=
      sameChange_iff.mpr ⟨sameMode.symm, .inl rawParam⟩
    exact absurd (same.symm.trans different) (by simp)
  · rw [content_nil isParam, content_nil]
    intro entryParam
    obtain ⟨_, entryMode⟩ :=
      slotOf_of_unwrap_param casemap findUser member ircd entryParam
    rw [entryPlace, Option.some.injEq] at entryMode
    subst entryMode
    have unwrapped := unwrap_of_slotOf_mode place
    rcases unwrap_cases ircd entry.1 entry.2.value with entryUnwrapped | ⟨_, isList⟩
    · rw [entryUnwrapped] at entryParam
      exact isParam (unwrapped ▸ entryParam)
    · rw [entryParam] at isList
      contradiction

end Slots

/-! ## The batch at one place -/

section Batch

variable (casemap : Casemap) (manager : ModeManager μ) (findUser : Str → Option υ)
  (member : υ → Bool)

/-- What the pending changes of one direction write at a place. -/
def pendingAt (info : StackerInfo μ) (slot : Slot μ υ) (set : Bool) : List (Option Str) :=
  (info.pending set).filterMap fun entry =>
    writeAt casemap manager findUser member slot (set, entry.1, entry.2.value)

/-- What the batch leaves at a place. -/
def flushAt (base : ModeState μ υ) (info : StackerInfo μ) (slot : Slot μ υ) : Option Str :=
  ((pendingAt casemap manager findUser member info slot true ++
    pendingAt casemap manager findUser member info slot false).getLast?).getD (base slot)

variable {casemap manager findUser member}

/-- Replaying the lines sent writes, at each place, the last pending change. -/
theorem replay_processModes (ircd : Ircd manager) {info : StackerInfo μ}
    (writable : ∀ set, ∀ entry ∈ info.pending set,
      Writable manager set entry.1 entry.2.value) (base : ModeState μ υ) :
    replay casemap manager findUser member base
        (readLines ircd (processModes ircd info)) =
      flushAt casemap manager findUser member base info := by
  have entryWritable : ∀ entry ∈ (buildModeMap info).entries,
      Writable manager entry.2.1 entry.1 entry.2.2.value := by
    rintro ⟨mode, set, data⟩ mem
    rw [← Multimap.mem_equalRange_iff, equalRange_buildModeMap, List.mem_append] at mem
    rcases mem with mem | mem
    all_goals
      obtain ⟨entry, entryMem, equal⟩ := List.mem_map.mp mem
      obtain ⟨entryMem, sameMode⟩ := List.mem_filter.mp entryMem
      rw [decide_eq_true_eq] at sameMode
      cases equal
      rw [← sameMode]
      exact writable _ entry entryMem
  funext slot
  rw [replay, overlay_apply, lastWrite_filterMap_writeOf, processModes,
    readLines_buildModeChange entryWritable, List.filterMap_map]
  congr 2
  have elsewhere : ∀ {set : Bool} {mode : μ} {value : Str}, Writable manager set mode value →
      mode ≠ slot.raw manager →
        writeAt casemap manager findUser member slot (set, mode, value) = none := by
    intro set mode value canWrite different
    unfold writeAt
    rw [if_neg]
    exact fun place => different (Slot.raw_eq ircd canWrite.base place).symm
  have sent := Multimap.filterMap_entries (buildModeMap info) (slot.raw manager)
    (f := fun entry =>
      writeAt casemap manager findUser member slot (entry.2.1, entry.1, entry.2.2.value))
    fun entry mem => elsewhere (entryWritable entry mem)
  rw [equalRange_buildModeMap, List.filterMap_append] at sent
  have oneDirection : ∀ set,
      (((info.pending set).filter fun entry => entry.1 = slot.raw manager).map
          fun entry => (set, entry.2)).filterMap
            (fun change => writeAt casemap manager findUser member slot
              (change.1, slot.raw manager, change.2.value)) =
        pendingAt casemap manager findUser member info slot set := by
    intro set
    rw [pendingAt, Multimap.filterMap_eq_of_only (slot.raw manager) fun entry mem =>
      elsewhere (writable set entry mem), List.filterMap_map, List.filterMap_map]
    rfl
  rw [oneDirection true, oneDirection false] at sent
  exact sent

/-! ## One change -/

variable (casemap manager findUser member)

/-- A change that the stacker carries over to the IRCd.  An addition finds no
pending removal of its entry in another spelling; and when it cancels the
opposite pending change, the IRCd already has what it asks for, or another
spelling of the entry is still pending in its own direction. -/
structure SafeChange (base : ModeState μ υ) (info : StackerInfo μ) (set : Bool) (raw : μ)
    (value : Str) : Prop where
  noOtherSpelling : set = true → ∀ entry ∈ info.delModes,
    slotOf casemap manager findUser member entry.1 entry.2.value =
      slotOf casemap manager findUser member raw value →
    sameChange manager raw value entry = true
  restores : ∀ slot, slotOf casemap manager findUser member raw value = some slot →
    (∃ entry ∈ info.pending !set, sameChange manager raw value entry = true) →
    (base slot = (if set then some (contentOf manager raw value) else none) ∧
      ∀ entry ∈ info.pending !set,
        slotOf casemap manager findUser member entry.1 entry.2.value = some slot →
        sameChange manager raw value entry = true) ∨
    ∃ entry ∈ info.pending set,
      slotOf casemap manager findUser member entry.1 entry.2.value = some slot ∧
        sameChange manager raw value entry = false

variable {casemap manager findUser member}

/-- The same change pending elsewhere does not matter at other places. -/
theorem filterMap_writeAt_of_ne (ircd : Ircd manager) {raw : μ} {value : Str} {slot : Slot μ υ}
    (elsewhere : slotOf casemap manager findUser member raw value ≠ some slot) (set : Bool)
    (list : List (Pending μ)) :
    (list.filter fun entry => !sameChange manager raw value entry).filterMap
        (fun entry => writeAt casemap manager findUser member slot
          (set, entry.1, entry.2.value)) =
      list.filterMap fun entry => writeAt casemap manager findUser member slot
        (set, entry.1, entry.2.value) := by
  rw [List.filterMap_filter]
  congr 1
  funext entry
  by_cases same : sameChange manager raw value entry = true
  · rw [if_neg (by simp [same])]
    unfold writeAt
    rw [slotOf_of_sameChange ircd same, if_neg elsewhere]
  · rw [if_pos (by simp [same])]

theorem pendingAt_addMode_of_ne (ircd : Ircd manager) {info : StackerInfo μ}
    (distinct : info.Distinct manager) {raw : μ} {data : ModeData} {slot : Slot μ υ}
    (elsewhere : slotOf casemap manager findUser member raw data.value ≠ some slot)
    (set direction : Bool) :
    pendingAt casemap manager findUser member (info.addMode manager raw set data) slot
        direction =
      pendingAt casemap manager findUser member info slot direction := by
  by_cases sameDirection : direction = set
  · subst sameDirection
    rw [pendingAt, StackerInfo.pending_addMode_same distinct, List.filterMap_append,
      filterMap_writeAt_of_ne ircd elsewhere]
    split
    · simp [pendingAt]
    · simp [pendingAt, writeAt, elsewhere]
  · obtain rfl : direction = !set := by
      cases direction <;> cases set <;> simp_all
    rw [pendingAt, StackerInfo.pending_addMode_other distinct,
      filterMap_writeAt_of_ne ircd elsewhere]
    rfl

theorem pendingAt_eq_nil_iff {info : StackerInfo μ} {slot : Slot μ υ} {set : Bool} :
    pendingAt casemap manager findUser member info slot set = [] ↔
      ∀ entry ∈ info.pending set,
        slotOf casemap manager findUser member entry.1 entry.2.value ≠ some slot := by
  unfold pendingAt writeAt
  simp

theorem mem_pendingAt_false {info : StackerInfo μ} {slot : Slot μ υ} {value : Option Str}
    (mem : value ∈ pendingAt casemap manager findUser member info slot false) :
    value = none := by
  obtain ⟨entry, _, written⟩ := List.mem_filterMap.mp mem
  unfold writeAt at written
  split at written
  · cases written
    rfl
  · contradiction

/-- A pending removal at a place decides what the batch leaves there. -/
theorem flushAt_of_removal {base : ModeState μ υ} {info : StackerInfo μ} {slot : Slot μ υ}
    (removal : pendingAt casemap manager findUser member info slot false ≠ []) :
    flushAt casemap manager findUser member base info slot = none := by
  obtain ⟨last, isLast⟩ := List.getLast?_isSome.mpr removal |> Option.isSome_iff_exists.mp
  have isNone := mem_pendingAt_false (List.mem_of_getLast? isLast)
  rw [flushAt, List.getLast?_append, isLast, isNone]
  rfl

theorem flushAt_of_no_removal {base : ModeState μ υ} {info : StackerInfo μ} {slot : Slot μ υ}
    (noRemoval : pendingAt casemap manager findUser member info slot false = []) :
    flushAt casemap manager findUser member base info slot =
      ((pendingAt casemap manager findUser member info slot true).getLast?).getD
        (base slot) := by
  rw [flushAt, noRemoval, List.append_nil]

/-- The place of a mode that is set holds what was set. -/
theorem flushAt_addMode_set (ircd : Ircd manager) {base : ModeState μ υ}
    {info : StackerInfo μ} (distinct : info.Distinct manager) {raw : μ} {data : ModeData}
    (safe : SafeChange casemap manager findUser member base info true raw data.value)
    {slot : Slot μ υ}
    (place : slotOf casemap manager findUser member raw data.value = some slot) :
    flushAt casemap manager findUser member base (info.addMode manager raw true data) slot =
      some (contentOf manager raw data.value) := by
  have own : writeAt casemap manager findUser member slot (true, raw, data.value) =
      some (some (contentOf manager raw data.value)) := by
    rw [writeAt, if_pos place]
    rfl
  have samePending := StackerInfo.pending_addMode_same distinct raw true data
  have otherPending := StackerInfo.pending_addMode_other distinct raw true data
  have noRemoval : pendingAt casemap manager findUser member
      (info.addMode manager raw true data) slot false = [] := by
    rw [pendingAt_eq_nil_iff, ← Bool.not_true, otherPending]
    intro entry kept entryPlace
    obtain ⟨mem, different⟩ := List.mem_filter.mp kept
    rw [safe.noOtherSpelling rfl entry mem (entryPlace.trans place.symm)] at different
    contradiction
  rw [flushAt_of_no_removal noRemoval, pendingAt, samePending]
  by_cases cancels : (info.pending !true).any (sameChange manager raw data.value) = true
  · rw [if_pos cancels, List.append_nil]
    cases last : (((info.pending true).filter fun entry =>
        !sameChange manager raw data.value entry).filterMap fun entry =>
          writeAt casemap manager findUser member slot
            (true, entry.1, entry.2.value)).getLast? with
    | none =>
        obtain ⟨entry, mem, same⟩ := List.any_eq_true.mp cancels
        rcases safe.restores slot place ⟨entry, mem, same⟩ with
          ⟨restored, _⟩ | ⟨other, otherMem, otherPlace, different⟩
        · exact restored
        · rw [List.getLast?_eq_none_iff, List.filterMap_eq_nil_iff] at last
          have noWrite := last other (List.mem_filter.mpr ⟨otherMem, by simp [different]⟩)
          rw [writeAt, if_pos otherPlace] at noWrite
          contradiction
    | some written =>
        obtain ⟨other, kept, otherWrite⟩ :=
          List.mem_filterMap.mp (List.mem_of_getLast? last)
        obtain ⟨_, different⟩ := List.mem_filter.mp kept
        rw [Bool.not_eq_true'] at different
        unfold writeAt at otherWrite
        split at otherWrite
        · rename_i otherPlace
          cases otherWrite
          simp [contentOf_eq_of_slotOf ircd place otherPlace different]
        · contradiction
  · rw [if_neg cancels, List.filterMap_append]
    simp [own]

/-- The place of a mode that is unset is empty. -/
theorem flushAt_addMode_unset {base : ModeState μ υ}
    {info : StackerInfo μ} (distinct : info.Distinct manager) {raw : μ} {data : ModeData}
    (safe : SafeChange casemap manager findUser member base info false raw data.value)
    {slot : Slot μ υ}
    (place : slotOf casemap manager findUser member raw data.value = some slot) :
    flushAt casemap manager findUser member base (info.addMode manager raw false data) slot =
      none := by
  have samePending := StackerInfo.pending_addMode_same distinct raw false data
  have otherPending := StackerInfo.pending_addMode_other distinct raw false data
  by_cases cancels : (info.pending !false).any (sameChange manager raw data.value) = true
  · by_cases removal : pendingAt casemap manager findUser member
        (info.addMode manager raw false data) slot false = []
    · obtain ⟨entry, mem, same⟩ := List.any_eq_true.mp cancels
      rcases safe.restores slot place ⟨entry, mem, same⟩ with
        ⟨restored, onlySame⟩ | ⟨other, otherMem, otherPlace, different⟩
      · have noAddition : pendingAt casemap manager findUser member
            (info.addMode manager raw false data) slot true = [] := by
          rw [pendingAt_eq_nil_iff, ← Bool.not_false, otherPending]
          intro added kept addedPlace
          obtain ⟨addedMem, different⟩ := List.mem_filter.mp kept
          rw [onlySame added addedMem addedPlace] at different
          contradiction
        rw [flushAt_of_no_removal removal, noAddition]
        exact restored
      · rw [pendingAt_eq_nil_iff, samePending] at removal
        exact absurd otherPlace (removal other (List.mem_append_left _
          (List.mem_filter.mpr ⟨otherMem, by simp [different]⟩)))
    · exact flushAt_of_removal removal
  · refine flushAt_of_removal ?_
    rw [Ne, pendingAt_eq_nil_iff, samePending, if_neg cancels]
    exact fun none => none (raw, data) (List.mem_append_right _ (List.mem_singleton_self _))
      place

/-- At its own place, a safe change makes the batch leave what the change asks
for. -/
theorem flushAt_addMode_self (ircd : Ircd manager) {base : ModeState μ υ}
    {info : StackerInfo μ} (distinct : info.Distinct manager) {set : Bool} {raw : μ}
    {data : ModeData}
    (safe : SafeChange casemap manager findUser member base info set raw data.value)
    {slot : Slot μ υ}
    (place : slotOf casemap manager findUser member raw data.value = some slot) :
    flushAt casemap manager findUser member base (info.addMode manager raw set data) slot =
      if set then some (contentOf manager raw data.value) else none := by
  cases set with
  | true => exact flushAt_addMode_set ircd distinct safe place
  | false => exact flushAt_addMode_unset distinct safe place

/-- A safe change to the stacker changes what the batch leaves by exactly the
write of the change. -/
theorem flushAt_addMode (ircd : Ircd manager) {base : ModeState μ υ} {info : StackerInfo μ}
    (distinct : info.Distinct manager) {set : Bool} {raw : μ} {data : ModeData}
    (safe : SafeChange casemap manager findUser member base info set raw data.value) :
    flushAt casemap manager findUser member base (info.addMode manager raw set data) =
      applyChange casemap manager findUser member
        (flushAt casemap manager findUser member base info) (set, raw, data.value) := by
  funext slot
  by_cases place : slotOf casemap manager findUser member raw data.value = some slot
  · rw [flushAt_addMode_self ircd distinct safe place]
    simp [applyChange, writeOf, place, overlay]
  · have unchanged : flushAt casemap manager findUser member base
        (info.addMode manager raw set data) slot =
          flushAt casemap manager findUser member base info slot := by
      simp only [flushAt, pendingAt_addMode_of_ne ircd distinct place]
    rw [unchanged]
    cases elsewhere : slotOf casemap manager findUser member raw data.value with
    | none => simp [applyChange, writeOf, elsewhere]
    | some other =>
        have different : slot ≠ other := fun same => place (same ▸ elsewhere)
        simp [applyChange, writeOf, elsewhere, overlay, Function.update_of_ne different]

end Batch

/-! ## Runs of calls -/

section Runs

variable (casemap : Casemap) (manager : ModeManager μ) (context : Context υ)

/-- One call as a step. -/
def callStep (services : Services μ υ) (call : Call μ) : Option (Services μ υ) :=
  some (call.apply casemap manager context services)

/-- A call is safe: it does nothing, or the change that it makes has a value
exactly when the mode takes one, names what its mode needs, and is safe for the
stacker. -/
def SafeCall (member : υ → Bool) (base : ModeState μ υ) (services : Services μ υ)
    (call : Call μ) : Prop :=
  ∀ set raw value, call.change casemap manager context services.channel = some (set, raw, value) →
    Writable manager set raw value ∧ Meaningful manager context raw value ∧
      SafeChange casemap manager context.findUser member base services.stacker set raw value

/-- Sending the batch brings an IRCd from a state to that of services. -/
def FlushesTo (ircd : Ircd manager) (member : υ → Bool) (base : ModeState μ υ)
    (services : Services μ υ) : Prop :=
  replay casemap manager context.findUser member base
      (readLines ircd (processModes ircd services.stacker)) =
    view casemap manager services.channel

variable {casemap manager context}

/-- What a run of safe calls keeps. -/
structure BatchInvariant (casemap : Casemap) (manager : ModeManager μ) (context : Context υ)
    (member : υ → Bool) (base : ModeState μ υ) (services : Services μ υ) : Prop where
  wellFormed : StoreWellFormed casemap manager services.channel.modes
  members : isMember services.channel = member
  distinct : services.stacker.Distinct manager
  writable : ∀ set, ∀ entry ∈ services.stacker.pending set,
    Writable manager set entry.1 entry.2.value
  flush : flushAt casemap manager context.findUser member base services.stacker =
    view casemap manager services.channel

theorem BatchInvariant.flushesTo {member : υ → Bool} {base : ModeState μ υ}
    {services : Services μ υ} (ircd : Ircd manager)
    (invariant : BatchInvariant casemap manager context member base services) :
    FlushesTo casemap manager context ircd member base services := by
  rw [FlushesTo, replay_processModes ircd invariant.writable, invariant.flush]

/-- Step lemma: a safe call keeps the invariant. -/
theorem batchInvariant_apply (ircd : Ircd manager) {member : υ → Bool} {base : ModeState μ υ}
    {services : Services μ υ}
    (invariant : BatchInvariant casemap manager context member base services) {call : Call μ}
    (safe : SafeCall casemap manager context member base services call) :
    BatchInvariant casemap manager context member base
      (call.apply casemap manager context services) := by
  cases changeEq : call.change casemap manager context services.channel with
  | none => rwa [Call.apply_of_change_eq_none changeEq]
  | some change =>
      obtain ⟨set, raw, value⟩ := change
      obtain ⟨canWrite, meaningful, safeChange⟩ := safe set raw value changeEq
      obtain ⟨data, setter, rfl, stacker, channel⟩ := Call.apply_of_change_eq_some changeEq
      obtain ⟨wellFormed, members, distinct, writable, flush⟩ := invariant
      constructor
      · rw [channel]
        cases set with
        | true => exact storeWellFormed_setModeInternal wellFormed context setter raw data
        | false => exact storeWellFormed_removeModeInternal wellFormed context raw data.value
      · rw [channel, ← members]
        cases set with
        | true => exact isMember_setModeInternal _ setter raw data
        | false => exact isMember_removeModeInternal _ raw data.value
      · rw [stacker]
        exact StackerInfo.distinct_addMode distinct raw set data
      · rw [stacker]
        intro direction entry mem
        by_cases sameDirection : direction = set
        · subst sameDirection
          rw [StackerInfo.pending_addMode_same distinct, List.mem_append] at mem
          rcases mem with kept | added
          · exact writable direction entry (List.mem_filter.mp kept).1
          · split at added
            · contradiction
            · rw [List.mem_singleton] at added
              subst added
              exact canWrite
        · obtain rfl : direction = !set := by
            cases direction <;> cases set <;> simp_all
          rw [StackerInfo.pending_addMode_other distinct] at mem
          exact writable _ entry (List.mem_filter.mp mem).1
      · rw [stacker, channel, flushAt_addMode ircd distinct safeChange, flush, ← members]
        cases set with
        | true => exact (view_setModeInternal meaningful).symm
        | false => exact (view_removeModeInternal wellFormed meaningful).symm

theorem batchInvariant_empty {channel : Channel μ υ}
    (wellFormed : StoreWellFormed casemap manager channel.modes) :
    BatchInvariant casemap manager context (isMember channel)
      (view casemap manager channel) ⟨channel, .empty⟩ where
  wellFormed := wellFormed
  members := rfl
  distinct := StackerInfo.distinct_empty
  writable set entry mem := by cases set <;> contradiction
  flush := rfl

/-- Along every run of safe calls from a state on which services and the IRCd
agree, sending the batch brings the IRCd to the state of services. -/
theorem always_flushesTo (casemap : Casemap) (manager : ModeManager μ) (context : Context υ)
    (ircd : Ircd manager) (channel : Channel μ υ)
    (wellFormed : StoreWellFormed casemap manager channel.modes) (calls : List (Call μ))
    (safe : EachStep (callStep casemap manager context)
      (SafeCall casemap manager context (isMember channel) (view casemap manager channel))
      ⟨channel, .empty⟩ calls) :
    Always (callStep casemap manager context)
      (FlushesTo casemap manager context ircd (isMember channel) (view casemap manager channel))
      ⟨channel, .empty⟩ calls := by
  refine (always_of_eachStep ?_ (batchInvariant_empty wellFormed) safe).imp
    fun services => BatchInvariant.flushesTo ircd
  intro services call next invariant safeCall stepped
  cases stepped
  exact batchInvariant_apply ircd invariant safeCall

end Runs

/-! ## A channel with a key -/

/-- The modes `KEY` and `BAN`. -/
def keyAndBan : ModeManager (Fin 2) where
  mode cm :=
    if cm = 0 then ⟨ascii "KEY", 107, .param, false, none⟩ else ⟨ascii "BAN", 98, .list, false, none⟩
  listeners _ := []
  wrapParam _ value := value
  unwrapParam _ _ _ := none
  isValid cm value := if cm = 0 ∧ (value = [] ∨ 58 ∈ value ∨ 44 ∈ value) then none else some value
  name_inj := by decide

/-- An IRCd with the default limits that knows these modes. -/
def keyAndBanIrcd : Ircd keyAndBan where
  maxLine := 512
  maxModes := 3
  byChar c := if c = 107 then some 0 else if c = 98 then some 1 else none
  byChar_mchar := by decide
  mchar_ne_sign := by decide
  listeners_base mem := by contradiction
  unwrapParam_list mem := by contradiction

/-- A program without users. -/
def noUsers : Context (Fin 0) where
  curTime := 1
  me := ascii "services.example"
  findUser _ := none
  findBot _ := none

/-- A channel without members whose key is `old`. -/
def oldKey : Channel (Fin 2) (Fin 0) where
  created := 1
  modes := Multimap.empty.emplace (ascii "KEY") ⟨ascii "old", [], 1⟩
  users := ∅

/-- The run that unsets the key and sets another one: the change of the key
cancels the pending removal, nothing is sent, and the IRCd keeps the old key. -/
theorem not_always_flushesTo_changed_key :
    ¬Always (callStep .ascii keyAndBan noUsers)
      (FlushesTo .ascii keyAndBan noUsers keyAndBanIrcd (isMember oldKey)
        (view .ascii keyAndBan oldKey))
      ⟨oldKey, .empty⟩ [.remove none 0 [], .set none 0 ⟨ascii "new", [], 0⟩] := by
  intro always
  have final := (always.2 _ rfl).2 _ rfl
  have atKey := congrFun final (.mode 0)
  exact absurd atKey (by decide +kernel)

theorem storeWellFormed_oldKey : StoreWellFormed .ascii keyAndBan oldKey.modes where
  single := by decide +kernel
  status := by decide +kernel
  list := by decide +kernel

/-- A run that unsets the key and adds a ban is sent faithfully. -/
theorem always_flushesTo_removed_key :
    Always (callStep .ascii keyAndBan noUsers)
      (FlushesTo .ascii keyAndBan noUsers keyAndBanIrcd (isMember oldKey)
        (view .ascii keyAndBan oldKey))
      ⟨oldKey, .empty⟩ [.remove none 0 [], .set none 1 ⟨ascii "*!*@host", [], 0⟩] := by
  refine always_flushesTo .ascii keyAndBan noUsers keyAndBanIrcd oldKey storeWellFormed_oldKey _ ?_
  have first : Call.change .ascii keyAndBan noUsers oldKey (.remove none 0 []) =
      some (false, 0, ascii "old") := by
    decide +kernel
  have second : Call.change .ascii keyAndBan noUsers
      (Call.apply .ascii keyAndBan noUsers ⟨oldKey, .empty⟩ (.remove none 0 [])).channel
      (.set none 1 ⟨ascii "*!*@host", [], 0⟩) = some (true, 1, ascii "*!*@host") := by
    decide +kernel
  rintro _ ⟨⟩
  refine ⟨?_, ?_⟩
  · intro set raw value change
    rw [first] at change
    cases change
    refine ⟨⟨rfl, by decide⟩, ⟨by decide, by decide⟩, ⟨by decide, ?_⟩⟩
    rintro _ _ ⟨entry, mem, _⟩
    contradiction
  · rintro _ ⟨⟩
    refine ⟨?_, trivial⟩
    intro set raw value change
    rw [second] at change
    cases change
    refine ⟨⟨rfl, by decide⟩, ⟨by decide, by decide⟩, ⟨by decide +kernel, ?_⟩⟩
    have noOpposite : ¬∃ entry ∈ (Call.apply .ascii keyAndBan noUsers ⟨oldKey, .empty⟩
        (.remove none 0 [])).stacker.pending false,
          sameChange keyAndBan 1 (ascii "*!*@host") entry = true := by
      decide +kernel
    exact fun _ _ opposite => absurd opposite noOpposite

end Anope.Channel
