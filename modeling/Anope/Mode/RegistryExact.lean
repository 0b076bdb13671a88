import Anope.Mode.Registry

/-!
# When the tables of modes stay consistent

What a call changes is said once for adding and once for removing.  From it follows what the
tables keep on every call that fits, and that a call that does not fit breaks them.
-/

namespace Anope.Mode.Registry

open Anope.Text.Convert

variable {μ κ : Type} [DecidableEq μ] {setup : Setup μ} {tables tables' : Tables μ κ}
  {registered : List μ} {cm : μ}

/-! ## The ranks -/

theorem mem_slots (slot : UInt8) : slot ∈ slots :=
  List.mem_map.mpr ⟨slot.toNat, List.mem_range.mpr slot.toNat_lt, UInt8.ofNat_toNat⟩

theorem mem_collect {idx : UInt8 → Option μ} (places : List UInt8) (found : List μ) :
    cm ∈ collect setup idx found places ↔
      cm ∈ found ∨ setup.isStatus cm = true ∧ ∃ slot ∈ places, idx slot = some cm := by
  induction places generalizing found with
  | nil => simp [collect]
  | cons slot places ih =>
      rw [collect]
      cases at_slot : idx slot with
      | none => simp [ih, at_slot]
      | some other =>
          by_cases collects : setup.isStatus other = true ∧ other ∉ found
          · simp only [if_pos collects, ih, List.mem_append, List.mem_singleton,
              List.exists_mem_cons_iff, at_slot, Option.some.injEq]
            grind
          · simp only [if_neg collects, ih, List.exists_mem_cons_iff, at_slot, Option.some.injEq]
            grind

theorem nodup_collect {idx : UInt8 → Option μ} (places : List UInt8) {found : List μ}
    (once : found.Nodup) : (collect setup idx found places).Nodup := by
  induction places generalizing found with
  | nil => exact once
  | cons slot places ih =>
      rw [collect]
      cases idx slot with
      | none => exact ih once
      | some other =>
          dsimp only
          split
          · rename_i collects
            apply ih
            rw [List.nodup_append]
            exact ⟨once, List.nodup_singleton other, fun cm found cm' single =>
              fun same => collects.2 (List.mem_singleton.mp single ▸ same ▸ found)⟩
          · exact ih once

/-- The ranks are the prefix modes among the registered ones. -/
structure Ranked (setup : Setup μ) (byStatus registered : List μ) : Prop where
  mem : ∀ cm, cm ∈ byStatus ↔ cm ∈ registered ∧ setup.isStatus cm = true
  once : byStatus.Nodup
  descending : byStatus.Pairwise fun cm1 cm2 => setup.level cm2 ≤ setup.level cm1

theorem mem_rebuildStatusModes :
    cm ∈ (tables.rebuildStatusModes setup).byStatus ↔
      setup.isStatus cm = true ∧ ∃ slot, tables.idx slot = some cm := by
  rw [Tables.rebuildStatusModes, (setup.perm_sort _).mem_iff, mem_collect]
  simp [mem_slots]

/-! ## What a call changes -/

/-- Whether a place of `ChannelModesIdx` is that of a letter or of a symbol of a mode. -/
def Setup.Takes (setup : Setup μ) (cm : μ) (slot : UInt8) : Prop :=
  setup.mchar cm ≠ 0 ∧ slot = setup.mchar cm ∨ setup.isStatus cm = true ∧ slot = setup.symbol cm

/-- What every call that is not refused does to the ranks: they are made again for a prefix. -/
def Rebuilt (setup : Setup μ) (tables tables' : Tables μ κ) (cm : μ) : Prop :=
  tables'.byStatus =
    if setup.isStatus cm then (tables'.rebuildStatusModes setup).byStatus else tables.byStatus

/-- What it means that a mode is added. -/
structure Added (setup : Setup μ) (tables tables' : Tables μ κ) (cm : μ) : Prop where
  name : ∀ other ≠ cm, tables'.name other = tables.name other
  named : tables'.name cm =
    if tables.name cm = [] then decimal ((tables.generic + 1) % 2 ^ 32) else tables.name cm
  taken : ∀ slot, setup.Takes cm slot → tables'.idx slot = some cm
  idx : ∀ slot, ¬ setup.Takes cm slot → tables'.idx slot = tables.idx slot
  byName : tables'.byName = tables.byName.insert (tables'.name cm) cm
  modes : tables'.modes = tables.modes ++ [cm]
  ranks : Rebuilt setup tables tables' cm

/-- What it means that a mode is removed. -/
structure Removed (setup : Setup μ) (tables tables' : Tables μ κ) (cm : μ) : Prop where
  name : tables'.name = tables.name
  taken : ∀ slot, setup.Takes cm slot → tables'.idx slot = none
  idx : ∀ slot, ¬ setup.Takes cm slot → tables'.idx slot = tables.idx slot
  byName : tables'.byName = tables.byName.erase (tables.name cm)
  modes : tables'.modes = tables.modes.erase cm
  ranks : Rebuilt setup tables tables' cm
  stacked : ∀ object ∈ tables'.stacked, (∀ entry ∈ object.2.addModes, entry.1 ≠ cm) ∧
    ∀ entry ∈ object.2.delModes, entry.1 ≠ cm

omit [DecidableEq μ] in
theorem setSlot_eq {slot : UInt8} (entered : tables.setSlot slot cm = some tables') :
    tables' = { tables with idx := Function.update tables.idx slot (some cm) } := by
  rw [Tables.setSlot] at entered
  split at entered
  · cases entered
  · exact (Option.some.inj entered).symm

omit [DecidableEq μ] in
/-- The place of the letter is taken, and nothing else changes. -/
theorem enterLetter_eq (entered : tables.enterLetter setup cm = some tables') :
    tables' = { tables with
      idx := if setup.mchar cm = 0 then tables.idx
        else Function.update tables.idx (setup.mchar cm) (some cm) } := by
  rw [Tables.enterLetter] at entered
  by_cases letterless : setup.mchar cm = 0
  · rw [if_pos letterless] at entered ⊢
    exact (Option.some.inj entered).symm
  · rw [if_neg letterless] at entered ⊢
    exact setSlot_eq entered

theorem enterSymbol_eq (entered : tables.enterSymbol setup cm = some tables') :
    tables' = if setup.isStatus cm then
        ({ tables with
          idx := Function.update tables.idx (setup.symbol cm) (some cm) } : Tables μ κ)
            |>.rebuildStatusModes setup
      else tables := by
  rw [Tables.enterSymbol] at entered
  cases kind : setup.isStatus cm with
  | false =>
      rw [kind] at entered
      exact (Option.some.inj entered).symm
  | true =>
      rw [kind, if_pos rfl, Option.map_eq_some_iff] at entered
      obtain ⟨placed, entered, rfl⟩ := entered
      rw [setSlot_eq entered, if_pos rfl]

/-- The places of the letter and of the symbol are taken, the ranks are made again, and nothing
else changes. -/
theorem entered_eq {placed : Tables μ κ} (letter : tables.enterLetter setup cm = some placed)
    (symbol : placed.enterSymbol setup cm = some tables') :
    tables' = { tables with idx := tables'.idx, byStatus := tables'.byStatus } ∧
      (∀ slot, setup.Takes cm slot → tables'.idx slot = some cm) ∧
      (∀ slot, ¬ setup.Takes cm slot → tables'.idx slot = tables.idx slot) ∧
      Rebuilt setup tables tables' cm := by
  have places := enterSymbol_eq symbol
  rw [enterLetter_eq letter] at places
  have lettered : ∀ slot, (setup.mchar cm ≠ 0 ∧ slot = setup.mchar cm →
      (if setup.mchar cm = 0 then tables.idx
        else Function.update tables.idx (setup.mchar cm) (some cm)) slot = some cm) ∧
      (¬ (setup.mchar cm ≠ 0 ∧ slot = setup.mchar cm) →
      (if setup.mchar cm = 0 then tables.idx
        else Function.update tables.idx (setup.mchar cm) (some cm)) slot = tables.idx slot) := by
    intro slot
    by_cases letterless : setup.mchar cm = 0
    · simp [letterless]
    · rw [if_neg letterless]
      constructor
      · rintro ⟨_, rfl⟩
        exact Function.update_self ..
      · exact fun free => Function.update_of_ne (fun same => free ⟨letterless, same⟩) ..
  generalize (if setup.mchar cm = 0 then tables.idx
    else Function.update tables.idx (setup.mchar cm) (some cm)) = idx at places lettered
  cases kind : setup.isStatus cm with
  | false =>
      rw [kind, if_neg Bool.false_ne_true] at places
      subst places
      refine ⟨rfl, ?_, ?_, ?_⟩
      · rintro slot (takes | ⟨isStatus, _⟩)
        · exact (lettered slot).1 takes
        · exact absurd (kind.symm.trans isStatus) Bool.false_ne_true
      · exact fun slot free => (lettered slot).2 fun takes => free (.inl takes)
      · rw [Rebuilt, kind, if_neg Bool.false_ne_true]
  | true =>
      rw [kind, if_pos rfl] at places
      subst places
      refine ⟨rfl, ?_, ?_, ?_⟩
      · intro slot takes
        simp only [Tables.rebuildStatusModes, Function.update_apply]
        split
        · rfl
        · rename_i ne
          exact (lettered slot).1 (takes.resolve_right fun isSymbol => ne isSymbol.2)
      · intro slot free
        simp only [Tables.rebuildStatusModes, Function.update_apply]
        rw [if_neg fun same => free (.inr ⟨kind, same⟩)]
        exact (lettered slot).2 fun takes => free (.inl takes)
      · rw [Rebuilt, kind, if_pos rfl]
        rfl

/-- Only the name of the mode changes, to a number when it is empty. -/
theorem giveName_eq (tables : Tables μ κ) (cm : μ) :
    tables.giveName cm = { tables with
      name := Function.update tables.name cm
        (if tables.name cm = [] then decimal ((tables.generic + 1) % 2 ^ 32)
          else tables.name cm)
      generic := (tables.giveName cm).generic } := by
  rw [Tables.giveName]
  simp only [List.isEmpty_iff]
  split <;> simp

theorem Added.of_addChannelMode (accepted : tables.accepts setup cm = true) {flag : Bool}
    (added : tables.addChannelMode setup cm = some (flag, tables')) :
    flag = true ∧ Added setup tables tables' cm := by
  rw [Tables.addChannelMode, if_pos accepted, Option.map_eq_some_iff] at added
  obtain ⟨entered, chained, result⟩ := added
  obtain ⟨placed, letter, symbol⟩ := Option.bind_eq_some_iff.mp chained
  obtain ⟨frame, taken, idx, ranks⟩ := entered_eq letter symbol
  rw [giveName_eq] at frame idx ranks
  cases result
  refine ⟨rfl, ?_⟩
  constructor
  · intro other isOther
    rw [Tables.enterName, frame]
    exact Function.update_of_ne isOther ..
  · rw [Tables.enterName, frame]
    exact Function.update_self ..
  · exact taken
  · exact idx
  · rw [Tables.enterName, frame]
  · rw [Tables.enterName, frame]
  · exact ranks

/-- The tables without the letter of a mode. -/
def Tables.withoutLetter (setup : Setup μ) (tables : Tables μ κ) (cm : μ) : Tables μ κ :=
  if setup.mchar cm = 0 then tables else tables.clearSlot (setup.mchar cm)

omit [DecidableEq μ] in
theorem withoutLetter_eq (setup : Setup μ) (tables : Tables μ κ) (cm : μ) :
    tables.withoutLetter setup cm =
      { tables with idx := (tables.withoutLetter setup cm).idx } := by
  rw [Tables.withoutLetter]
  split <;> rfl

omit [DecidableEq μ] in
theorem withoutLetter_idx (slot : UInt8) : (tables.withoutLetter setup cm).idx slot =
    if setup.mchar cm ≠ 0 ∧ slot = setup.mchar cm then none else tables.idx slot := by
  rw [Tables.withoutLetter]
  by_cases letterless : setup.mchar cm = 0
  · rw [if_pos letterless, if_neg fun lettered => lettered.1 letterless]
  · rw [if_neg letterless, Tables.clearSlot]
    simp only [Function.update_apply, ne_eq, letterless, not_false_eq_true, true_and]

theorem removeChannelMode_of_letter
    (letter : setup.mchar cm ≠ 0 → tables.idx (setup.mchar cm) = some cm) :
    tables.removeChannelMode setup (some cm) =
      (tables.withoutLetter setup cm).leaveSymbol setup cm := by
  rw [Tables.removeChannelMode, Tables.withoutLetter]
  by_cases letterless : setup.mchar cm = 0
  · rw [if_pos letterless, if_pos letterless]
  · rw [if_neg letterless, if_neg letterless, if_neg (not_not_intro (letter letterless))]

/-- A mode that has no place in the index is left, unless it has neither letter nor symbol. -/
theorem removeChannelMode_of_placeless (placeless : ∀ slot, tables.idx slot ≠ some cm) :
    tables.removeChannelMode setup (some cm) =
      if setup.mchar cm = 0 ∧ setup.isStatus cm = false then tables.leaveName cm else tables := by
  rw [Tables.removeChannelMode, Tables.leaveSymbol, if_pos (placeless _), if_pos (placeless _)]
  by_cases letterless : setup.mchar cm = 0
  · cases kind : setup.isStatus cm with
    | false => simp [letterless]
    | true => simp [letterless]
  · simp [letterless]

/-- The early return. -/
theorem leaveSymbol_of_lost (isStatus : setup.isStatus cm = true)
    (lost : tables.idx (setup.symbol cm) ≠ some cm) : tables.leaveSymbol setup cm = tables := by
  rw [Tables.leaveSymbol, if_pos isStatus, if_pos lost]

@[simp] theorem leaveName_name (tables : Tables μ κ) (cm : μ) :
    (tables.leaveName cm).name = tables.name :=
  rfl

@[simp] theorem leaveName_byName (tables : Tables μ κ) (cm : μ) :
    (tables.leaveName cm).byName = tables.byName.erase (tables.name cm) :=
  rfl

@[simp] theorem leaveName_modes (tables : Tables μ κ) (cm : μ) :
    (tables.leaveName cm).modes = tables.modes.erase cm :=
  rfl

theorem leaveName_stacked : ∀ object ∈ (tables.leaveName cm).stacked,
    (∀ entry ∈ object.2.addModes, entry.1 ≠ cm) ∧ ∀ entry ∈ object.2.delModes, entry.1 ≠ cm := by
  intro object mem
  obtain ⟨before, _, rfl⟩ := List.mem_map.mp mem
  constructor
  · exact fun entry kept => of_decide_eq_true (List.mem_filter.mp kept).2
  · exact fun entry kept => of_decide_eq_true (List.mem_filter.mp kept).2

theorem Removed.of_leaveSymbol (kept : setup.isStatus cm = true →
    (tables.withoutLetter setup cm).idx (setup.symbol cm) = some cm) :
    Removed setup tables ((tables.withoutLetter setup cm).leaveSymbol setup cm) cm := by
  have idx := @withoutLetter_idx μ κ setup tables cm
  have frame := withoutLetter_eq setup tables cm
  generalize tables.withoutLetter setup cm = cleared at kept idx frame
  rw [Tables.leaveSymbol]
  cases kind : setup.isStatus cm with
  | false =>
      rw [if_neg Bool.false_ne_true]
      constructor
      · rw [frame]
        rfl
      · rintro slot (lettered | ⟨isStatus, _⟩)
        · exact (idx slot).trans (if_pos lettered)
        · exact absurd (kind.symm.trans isStatus) Bool.false_ne_true
      · exact fun slot free => (idx slot).trans (if_neg fun lettered => free (.inl lettered))
      · rw [frame]
        rfl
      · rw [frame]
        rfl
      · rw [Rebuilt, kind, if_neg Bool.false_ne_true, frame]
        rfl
      · exact leaveName_stacked
  | true =>
      rw [if_pos rfl, if_neg (not_not_intro (kept kind))]
      constructor
      · rw [frame]
        rfl
      · intro slot takes
        rw [Tables.leaveName, Tables.stackerDel, Tables.rebuildStatusModes, Tables.clearSlot]
        dsimp only
        rw [Function.update_apply]
        split
        · rfl
        · rename_i ne
          exact (idx slot).trans (if_pos (takes.resolve_right fun isSymbol => ne isSymbol.2))
      · intro slot free
        rw [Tables.leaveName, Tables.stackerDel, Tables.rebuildStatusModes, Tables.clearSlot]
        dsimp only
        rw [Function.update_of_ne fun same => free (.inr ⟨kind, same⟩)]
        exact (idx slot).trans (if_neg fun lettered => free (.inl lettered))
      · rw [frame]
        rfl
      · rw [frame]
        rfl
      · rw [Rebuilt, kind, if_pos rfl]
        rfl
      · exact leaveName_stacked

/-! ## What the tables keep -/

/-- What is in the tables is registered, and a registered prefix has a place. -/
structure Sound (setup : Setup μ) (tables : Tables μ κ) (registered : List μ) : Prop where
  idx : ∀ slot cm, tables.idx slot = some cm → cm ∈ registered ∧ setup.Takes cm slot
  placed : ∀ cm ∈ registered, setup.isStatus cm = true → ∃ slot, tables.idx slot = some cm
  byName : ∀ name cm, tables.byName.lookup name = some cm →
    cm ∈ registered ∧ tables.name cm = name
  modes : ∀ cm ∈ tables.modes, cm ∈ registered
  nodup_modes : tables.modes.Nodup
  nodup_registered : registered.Nodup

/-- Registered modes are found by letter and by name. -/
structure Found (setup : Setup μ) (tables : Tables μ κ) (registered : List μ) : Prop where
  letters : ∀ cm ∈ registered, setup.mchar cm ≠ 0 → tables.idx (setup.mchar cm) = some cm
  names : ∀ cm ∈ registered, tables.byName.lookup (tables.name cm) = some cm

omit [DecidableEq μ] in
theorem consistent_iff {state : State μ κ} : Consistent setup state ↔
    Found setup state.tables state.registered ∧
      Ranked setup state.tables.byStatus state.registered ∧
      ∀ cm, state.removed = some cm → state.tables.Forgets cm := by
  constructor
  · rintro ⟨letters, names, ranks, once, descending, removed⟩
    exact ⟨⟨letters, names⟩, ⟨ranks, once, descending⟩, removed⟩
  · rintro ⟨⟨letters, names⟩, ⟨ranks, once, descending⟩, removed⟩
    exact ⟨letters, names, ranks, once, descending, removed⟩

theorem Sound.ranked_rebuildStatusModes (sound : Sound setup tables registered) :
    Ranked setup (tables.rebuildStatusModes setup).byStatus registered := by
  constructor
  · intro cm
    rw [mem_rebuildStatusModes]
    constructor
    · rintro ⟨isStatus, slot, at_slot⟩
      exact ⟨(sound.idx slot cm at_slot).1, isStatus⟩
    · rintro ⟨mem, isStatus⟩
      exact ⟨isStatus, sound.placed cm mem isStatus⟩
  · exact (setup.perm_sort _).nodup_iff.mpr (nodup_collect slots List.nodup_nil)
  · exact setup.sorted_sort _

/-- The ranks stay right when a mode comes or goes, as a prefix makes them anew. -/
theorem Sound.ranked {registered' : List μ} (sound : Sound setup tables' registered')
    (ranked : Ranked setup tables.byStatus registered) (rebuilt : Rebuilt setup tables tables' cm)
    (others : ∀ other ≠ cm, other ∈ registered' ↔ other ∈ registered) :
    Ranked setup tables'.byStatus registered' := by
  rw [rebuilt]
  cases kind : setup.isStatus cm with
  | true => exact sound.ranked_rebuildStatusModes
  | false =>
      refine ⟨fun other => (ranked.mem other).trans ?_, ranked.once, ranked.descending⟩
      refine and_congr_left fun isStatus => (others other ?_).symm
      rintro rfl
      exact absurd (kind.symm.trans isStatus) Bool.false_ne_true

/-! ## Adding -/

omit [DecidableEq μ] in
/-- A mode that is taken is not registered. -/
theorem Found.not_mem_of_accepts (found : Found setup tables registered)
    (accepted : tables.accepts setup cm = true) : cm ∉ registered := by
  intro mem
  obtain ⟨_, unnamed⟩ := of_decide_eq_true accepted
  exact absurd (unnamed.symm.trans (found.names cm mem)) (by simp)

section Adding

variable (sound : Sound setup tables registered) (found : Found setup tables registered)
  (accepted : tables.accepts setup cm = true) (added : Added setup tables tables' cm)

omit [DecidableEq μ] in
include found accepted in
/-- A letter that a mode has is not taken by one that is added. -/
theorem letter_free (symbol : NewSymbol setup tables cm) {other : μ} (mem : other ∈ registered)
    (lettered : setup.mchar other ≠ 0) : ¬ setup.Takes cm (setup.mchar other) := by
  have at_letter := found.letters other mem lettered
  obtain ⟨free, _⟩ := of_decide_eq_true accepted
  rintro (⟨hasLetter, same⟩ | ⟨isStatus, same⟩)
  · rw [Tables.findChannelModeByChar, ← same, at_letter] at free
    rcases free with letterless | empty
    · exact lettered letterless
    · cases empty
  · rw [same] at at_letter
    exact (symbol isStatus other at_letter).1 same

include accepted added in
theorem Added.name_new (name : NewName tables cm) :
    tables.byName.lookup (tables'.name cm) = none := by
  rw [added.named]
  by_cases unnamed : tables.name cm = []
  · rw [if_pos unnamed]
    exact name unnamed
  · rw [if_neg unnamed]
    exact (of_decide_eq_true accepted).2

include sound found accepted added in
theorem Sound.add (symbol : NewSymbol setup tables cm) :
    Sound setup tables' (cm :: registered) := by
  have unregistered := found.not_mem_of_accepts accepted
  constructor
  · intro slot other at_slot
    by_cases takes : setup.Takes cm slot
    · rw [added.taken slot takes] at at_slot
      cases at_slot
      exact ⟨List.mem_cons_self, takes⟩
    · rw [added.idx slot takes] at at_slot
      obtain ⟨mem, takes⟩ := sound.idx slot other at_slot
      exact ⟨List.mem_cons_of_mem cm mem, takes⟩
  · intro other mem isStatus
    rcases List.mem_cons.mp mem with rfl | mem
    · exact ⟨_, added.taken _ (.inr ⟨isStatus, rfl⟩)⟩
    · obtain ⟨slot, at_slot⟩ := sound.placed other mem isStatus
      by_cases takes : setup.Takes cm slot
      · -- The new prefix takes the place of a symbol, and the old one still has its letter.
        have lettered : setup.mchar other ≠ 0 := by
          rcases takes with ⟨hasLetter, rfl⟩ | ⟨isStatus, rfl⟩
          · obtain ⟨letterless | empty, _⟩ := of_decide_eq_true accepted
            · exact absurd letterless hasLetter
            · exact absurd (empty.symm.trans at_slot) (by simp)
          · exact (symbol isStatus other at_slot).2
        refine ⟨setup.mchar other, ?_⟩
        rw [added.idx _ (letter_free found accepted symbol mem lettered)]
        exact found.letters other mem lettered
      · exact ⟨slot, (added.idx slot takes).trans at_slot⟩
  · intro name other found
    rw [added.byName] at found
    by_cases same : name = tables'.name cm
    · rw [same, AList.lookup_insert] at found
      cases found
      exact ⟨List.mem_cons_self, same.symm⟩
    · rw [AList.lookup_insert_ne same] at found
      obtain ⟨mem, named⟩ := sound.byName name other found
      refine ⟨List.mem_cons_of_mem cm mem, ?_⟩
      rw [added.name other fun same => unregistered (same ▸ mem), named]
  · intro other mem
    rw [added.modes, List.mem_append, List.mem_singleton] at mem
    rcases mem with mem | rfl
    · exact List.mem_cons_of_mem cm (sound.modes other mem)
    · exact List.mem_cons_self
  · rw [added.modes, List.nodup_append]
    refine ⟨sound.nodup_modes, List.nodup_singleton cm, fun other mem other' single => ?_⟩
    rintro rfl
    cases List.mem_singleton.mp single
    exact unregistered (sound.modes _ mem)
  · exact List.nodup_cons.mpr ⟨unregistered, sound.nodup_registered⟩

include sound found accepted added in
/-- The modes are found exactly when neither a name nor the place of a letter has been taken. -/
theorem Added.found_iff (ranked : Ranked setup tables.byStatus registered) :
    Found setup tables' (cm :: registered) ∧
        Ranked setup tables'.byStatus (cm :: registered) ↔
      NewName tables cm ∧ NewSymbol setup tables cm := by
  have unregistered := found.not_mem_of_accepts accepted
  have others : ∀ other ∈ registered, tables'.name other = tables.name other :=
    fun other mem => added.name other fun same => unregistered (same ▸ mem)
  constructor
  · rintro ⟨found', ranked'⟩
    constructor
    · intro unnamed
      cases taken : tables.findChannelModeByName (decimal ((tables.generic + 1) % 2 ^ 32)) with
      | none => rfl
      | some other =>
          obtain ⟨mem, named⟩ := sound.byName _ other taken
          have finds := found'.names other (List.mem_cons_of_mem cm mem)
          have same : tables'.name other = tables'.name cm := by
            rw [others other mem, named, added.named, if_pos unnamed]
          rw [same, added.byName, AList.lookup_insert] at finds
          cases finds
          exact absurd mem unregistered
    · intro isStatus other at_symbol
      obtain ⟨mem, takes⟩ := sound.idx _ other at_symbol
      have isTaken := added.taken _ (.inr ⟨isStatus, rfl⟩)
      have differ : cm ≠ other := fun same => unregistered (same ▸ mem)
      have lettered : setup.mchar other ≠ 0 := by
        intro letterless
        -- Its only place is that of its symbol.
        have only : ∀ slot, setup.Takes other slot → slot = setup.symbol other :=
          fun slot takes => (takes.resolve_left fun lettered => lettered.1 letterless).2
        have kind := (takes.resolve_left fun lettered => lettered.1 letterless).1
        have listed := (ranked'.mem other).mpr ⟨List.mem_cons_of_mem cm mem, kind⟩
        rw [added.ranks, if_pos isStatus, mem_rebuildStatusModes] at listed
        obtain ⟨_, slot, at_slot⟩ := listed
        by_cases isTaken' : setup.Takes cm slot
        · rw [added.taken slot isTaken'] at at_slot
          exact differ (Option.some.inj at_slot)
        · rw [added.idx slot isTaken'] at at_slot
          refine isTaken' (.inr ⟨isStatus, ?_⟩)
          rw [only slot (sound.idx slot other at_slot).2, ← only _ takes]
      refine ⟨fun same => ?_, lettered⟩
      have finds := found'.letters other (List.mem_cons_of_mem cm mem) lettered
      rw [same, isTaken] at finds
      exact differ (Option.some.inj finds)
  · rintro ⟨name, symbol⟩
    have sound' := sound.add found accepted added symbol
    refine ⟨⟨?_, ?_⟩, sound'.ranked ranked added.ranks fun other differ => ?_⟩
    · intro other mem lettered
      rcases List.mem_cons.mp mem with rfl | mem
      · exact added.taken _ (.inl ⟨lettered, rfl⟩)
      · rw [added.idx _ (letter_free found accepted symbol mem lettered)]
        exact found.letters other mem lettered
    · intro other mem
      rcases List.mem_cons.mp mem with rfl | mem
      · rw [added.byName, AList.lookup_insert]
      · have finds := found.names other mem
        rw [others other mem, added.byName, AList.lookup_insert_ne, finds]
        intro same
        rw [same, added.name_new accepted name] at finds
        cases finds
    · rw [List.mem_cons]
      exact or_iff_right differ

end Adding

/-! ## Removing -/

omit [DecidableEq μ] in
/-- Whether the symbol is found after the letter has been taken off. -/
theorem keepsSymbol_iff : KeepsSymbol setup tables cm ↔
    (setup.isStatus cm = true →
      (tables.withoutLetter setup cm).idx (setup.symbol cm) = some cm) := by
  refine imp_congr_right fun isStatus => ?_
  rw [withoutLetter_idx]
  by_cases letterless : setup.mchar cm = 0
  · simp [letterless]
  · by_cases same : setup.symbol cm = setup.mchar cm
    · simp [letterless, same]
    · simp [letterless, same, Ne.symm same]

section Removing

variable (sound : Sound setup tables registered) (found : Found setup tables registered)

include found in
theorem Removed.of_removeChannelMode (mem : cm ∈ registered)
    (keeps : KeepsSymbol setup tables cm) :
    Removed setup tables (tables.removeChannelMode setup (some cm)) cm := by
  rw [removeChannelMode_of_letter (found.letters cm mem)]
  exact Removed.of_leaveSymbol (keepsSymbol_iff.mp keeps)

include found in
/-- A mode whose symbol is not found stays in the table of names. -/
theorem keepsSymbol_of_forgets (mem : cm ∈ registered)
    (forgets : (tables.removeChannelMode setup (some cm)).Forgets cm) :
    KeepsSymbol setup tables cm := by
  rw [keepsSymbol_iff]
  intro isStatus
  by_contra lost
  rw [removeChannelMode_of_letter (found.letters cm mem),
    leaveSymbol_of_lost isStatus lost, withoutLetter_eq] at forgets
  exact forgets.byName _ (found.names cm mem)

omit [DecidableEq μ] in
include found in
/-- A mode that keeps the place of its symbol has all its places. -/
theorem Found.idx_of_takes (mem : cm ∈ registered) (keeps : KeepsSymbol setup tables cm)
    {slot : UInt8} (takes : setup.Takes cm slot) : tables.idx slot = some cm := by
  rcases takes with ⟨lettered, rfl⟩ | ⟨isStatus, rfl⟩
  · exact found.letters cm mem lettered
  · exact (keeps isStatus).1

variable (removed : Removed setup tables tables' cm) (mem : cm ∈ registered)
  (keeps : KeepsSymbol setup tables cm)

omit [DecidableEq μ] in
include found mem keeps in
theorem Found.free_of_ne {other : μ} (differ : other ≠ cm) {slot : UInt8}
    (at_slot : tables.idx slot = some other) : ¬ setup.Takes cm slot :=
  fun takes => differ (Option.some.inj (at_slot.symm.trans (found.idx_of_takes mem keeps takes)))

include sound found removed mem keeps in
theorem Sound.remove : Sound setup tables' (registered.erase cm) := by
  have mem_erase : ∀ other, other ∈ registered.erase cm ↔ other ≠ cm ∧ other ∈ registered :=
    fun other => sound.nodup_registered.mem_erase_iff
  constructor
  · intro slot other at_slot
    by_cases takes : setup.Takes cm slot
    · rw [removed.taken slot takes] at at_slot
      cases at_slot
    · rw [removed.idx slot takes] at at_slot
      obtain ⟨mem, takes'⟩ := sound.idx slot other at_slot
      exact ⟨(mem_erase other).mpr ⟨fun same => takes (same ▸ takes'), mem⟩, takes'⟩
  · intro other kept isStatus
    obtain ⟨differ, registered⟩ := (mem_erase other).mp kept
    obtain ⟨slot, at_slot⟩ := sound.placed other registered isStatus
    refine ⟨slot, ?_⟩
    rw [removed.idx slot (found.free_of_ne mem keeps differ at_slot), at_slot]
  · intro name other at_name
    rw [removed.byName] at at_name
    by_cases same : name = tables.name cm
    · rw [same, AList.lookup_erase] at at_name
      cases at_name
    · rw [AList.lookup_erase_ne same] at at_name
      obtain ⟨mem, named⟩ := sound.byName name other at_name
      rw [removed.name]
      exact ⟨(mem_erase other).mpr ⟨fun isCm => same (isCm ▸ named.symm), mem⟩, named⟩
  · intro other mem
    rw [removed.modes, sound.nodup_modes.mem_erase_iff] at mem
    exact (mem_erase other).mpr ⟨mem.1, sound.modes other mem.2⟩
  · rw [removed.modes]
    exact sound.nodup_modes.erase cm
  · exact sound.nodup_registered.erase cm

include sound found removed mem keeps in
theorem Found.remove : Found setup tables' (registered.erase cm) := by
  constructor
  · intro other kept lettered
    obtain ⟨differ, registered⟩ := sound.nodup_registered.mem_erase_iff.mp kept
    have at_letter := found.letters other registered lettered
    rw [removed.idx _ (found.free_of_ne mem keeps differ at_letter), at_letter]
  · intro other kept
    obtain ⟨differ, registered⟩ := sound.nodup_registered.mem_erase_iff.mp kept
    have at_name := found.names other registered
    rw [removed.name, removed.byName, AList.lookup_erase_ne, at_name]
    intro same
    rw [same, found.names cm mem] at at_name
    exact differ (Option.some.inj at_name).symm

include sound removed in
theorem Removed.forgets (ranked : Ranked setup tables'.byStatus (registered.erase cm)) :
    tables'.Forgets cm := by
  have gone : cm ∉ registered.erase cm :=
    fun kept => (sound.nodup_registered.mem_erase_iff.mp kept).1 rfl
  constructor
  · intro slot at_slot
    by_cases takes : setup.Takes cm slot
    · rw [removed.taken slot takes] at at_slot
      cases at_slot
    · rw [removed.idx slot takes] at at_slot
      exact takes (sound.idx slot cm at_slot).2
  · intro name at_name
    rw [removed.byName] at at_name
    by_cases same : name = tables.name cm
    · rw [same, AList.lookup_erase] at at_name
      cases at_name
    · rw [AList.lookup_erase_ne same] at at_name
      exact same (sound.byName name cm at_name).2.symm
  · intro listed
    rw [removed.modes] at listed
    exact (sound.nodup_modes.mem_erase_iff.mp listed).1 rfl
  · exact fun listed => gone ((ranked.mem cm).mp listed).1
  · exact removed.stacked

end Removing

section Unregistered

variable (sound : Sound setup tables registered) (found : Found setup tables registered)
  (unregistered : cm ∉ registered)

omit [DecidableEq μ] in
include sound unregistered in
theorem Sound.placeless (slot : UInt8) : tables.idx slot ≠ some cm :=
  fun at_slot => unregistered (sound.idx slot cm at_slot).1

include sound unregistered in
theorem Sound.leaveName : Sound setup (tables.leaveName cm) registered := by
  have unlisted : tables.modes.erase cm = tables.modes :=
    List.erase_of_not_mem fun mem => unregistered (sound.modes cm mem)
  constructor
  · exact sound.idx
  · exact sound.placed
  · intro name other at_name
    by_cases same : name = tables.name cm
    · rw [same, leaveName_byName, AList.lookup_erase] at at_name
      cases at_name
    · rw [leaveName_byName, AList.lookup_erase_ne same] at at_name
      exact sound.byName name other at_name
  · intro other mem
    exact sound.modes other (unlisted ▸ mem)
  · rw [leaveName_modes, unlisted]
    exact sound.nodup_modes
  · exact sound.nodup_registered

include sound found in
/-- The name that goes is that of no registered mode. -/
theorem found_leaveName_iff : Found setup (tables.leaveName cm) registered ↔
    tables.findChannelModeByName (tables.name cm) = none := by
  constructor
  · intro found'
    cases taken : tables.findChannelModeByName (tables.name cm) with
    | none => rfl
    | some other =>
        obtain ⟨mem, named⟩ := sound.byName _ other taken
        have finds := found'.names other mem
        rw [leaveName_name, leaveName_byName, named, AList.lookup_erase] at finds
        cases finds
  · intro unnamed
    refine ⟨found.letters, fun other mem => ?_⟩
    have at_name := found.names other mem
    have differ : tables.name other ≠ tables.name cm := by
      intro same
      rw [Tables.findChannelModeByName, ← same, at_name] at unnamed
      cases unnamed
    rw [leaveName_name, leaveName_byName, AList.lookup_erase_ne differ, at_name]

end Unregistered

/-! ## Runs -/

variable {state next : State μ κ}

/-- What a call gives. -/
theorem step_addChannelMode (stepped : step setup state (.addChannelMode cm) = some next) :
    next.removed = none ∧
      if state.tables.accepts setup cm = true then
        next.registered = cm :: state.registered ∧ Added setup state.tables next.tables cm
      else next.registered = state.registered ∧ next.tables = state.tables := by
  obtain ⟨⟨flag, tables⟩, added, rfl⟩ := Option.map_eq_some_iff.mp stepped
  refine ⟨rfl, ?_⟩
  by_cases accepted : state.tables.accepts setup cm = true
  · obtain ⟨rfl, effect⟩ := Added.of_addChannelMode accepted added
    rw [if_pos accepted]
    exact ⟨rfl, effect⟩
  · rw [Tables.addChannelMode, if_neg accepted] at added
    cases added
    rw [if_neg accepted]
    exact ⟨rfl, rfl⟩

/-- Step lemma for adding. -/
theorem Sound.step_addChannelMode (sound : Sound setup state.tables state.registered)
    (consistent : Consistent setup state)
    (stepped : step setup state (.addChannelMode cm) = some next) :
    (Consistent setup next ↔ Fits setup state (.addChannelMode cm)) ∧
      (Consistent setup next → Sound setup next.tables next.registered) := by
  obtain ⟨found, ranked, _⟩ := consistent_iff.mp consistent
  obtain ⟨forgets, effect⟩ := Registry.step_addChannelMode stepped
  rw [consistent_iff, forgets, Fits]
  by_cases accepted : state.tables.accepts setup cm = true
  · rw [if_pos accepted] at effect
    obtain ⟨registered, added⟩ := effect
    have exact_found := added.found_iff sound found accepted ranked
    rw [registered]
    constructor
    · rw [← exact_found]
      constructor
      · exact fun consistent' _ => ⟨consistent'.1, consistent'.2.1⟩
      · intro fits
        exact ⟨(fits accepted).1, (fits accepted).2, fun _ isRemoved => by cases isRemoved⟩
    · intro consistent'
      exact sound.add found accepted added
        (exact_found.mp ⟨consistent'.1, consistent'.2.1⟩).2
  · rw [if_neg accepted] at effect
    obtain ⟨registered, same⟩ := effect
    rw [registered, same]
    refine ⟨iff_of_true ⟨found, ranked, ?_⟩ fun isAccepted => absurd isAccepted accepted,
      fun _ => sound⟩
    intro _ isRemoved
    cases isRemoved

/-- Step lemma for removing. -/
theorem Sound.step_removeChannelMode (sound : Sound setup state.tables state.registered)
    (consistent : Consistent setup state)
    (stepped : step setup state (.removeChannelMode (some cm)) = some next) :
    (Consistent setup next ↔ Fits setup state (.removeChannelMode (some cm))) ∧
      (Consistent setup next → Sound setup next.tables next.registered) := by
  obtain ⟨found, ranked, _⟩ := consistent_iff.mp consistent
  cases stepped
  rw [consistent_iff, Fits]
  by_cases mem : cm ∈ state.registered
  · have isRemoved : (some cm).filter (· ∈ state.registered) = some cm := by
      simp [mem]
    rw [if_pos mem, isRemoved]
    simp only [Option.elim_some]
    have keeps_of : _ → KeepsSymbol setup state.tables cm :=
      fun forgets => keepsSymbol_of_forgets found mem forgets
    refine ⟨⟨fun consistent' => keeps_of (consistent'.2.2 cm rfl), fun keeps => ?_⟩,
      fun consistent' => ?_⟩
    · have removed := Removed.of_removeChannelMode found mem keeps
      have sound' := sound.remove found removed mem keeps
      have ranked' := sound'.ranked ranked removed.ranks fun other differ =>
        List.mem_erase_of_ne differ
      refine ⟨found.remove sound removed mem keeps, ranked', ?_⟩
      rintro other isOther
      cases isOther
      exact removed.forgets sound ranked'
    · have keeps := keeps_of (consistent'.2.2 cm rfl)
      exact sound.remove found (Removed.of_removeChannelMode found mem keeps) mem keeps
  · have notRemoved : (some cm).filter (· ∈ state.registered) = none := by
      simp [mem]
    rw [if_neg mem, notRemoved, removeChannelMode_of_placeless (sound.placeless mem)]
    simp only [Option.elim_some, List.erase_of_not_mem mem]
    by_cases bare : setup.mchar cm = 0 ∧ setup.isStatus cm = false
    · rw [if_pos bare]
      refine ⟨⟨fun consistent' _ _ => (found_leaveName_iff sound found).mp consistent'.1,
        fun leaves => ?_⟩, fun _ => sound.leaveName mem⟩
      refine ⟨(found_leaveName_iff sound found).mpr (leaves bare.1 bare.2), ranked, ?_⟩
      intro _ isRemoved
      cases isRemoved
    · rw [if_neg bare]
      refine ⟨iff_of_true ⟨found, ranked, ?_⟩ fun letterless kind =>
        absurd ⟨letterless, kind⟩ bare, fun _ => sound⟩
      intro _ isRemoved
      cases isRemoved

/-- Step lemma. -/
theorem Sound.step_iff (sound : Sound setup state.tables state.registered)
    (consistent : Consistent setup state) {action : Action μ κ}
    (stepped : step setup state action = some next) :
    (Consistent setup next ↔ Fits setup state action) ∧
      (Consistent setup next → Sound setup next.tables next.registered) := by
  obtain ⟨found, ranked, _⟩ := consistent_iff.mp consistent
  have forgets : ∀ tables : Tables μ κ, ∀ cm, none = some cm → tables.Forgets cm := by
    intro _ _ isRemoved
    cases isRemoved
  cases action with
  | addChannelMode cm => exact sound.step_addChannelMode consistent stepped
  | removeChannelMode mode =>
      cases mode with
      | none =>
          cases stepped
          exact ⟨iff_of_true (consistent_iff.mpr ⟨found, ranked, forgets _⟩) trivial,
            fun _ => sound⟩
      | some cm => exact sound.step_removeChannelMode consistent stepped
  | stack stacked =>
      cases stepped
      refine ⟨iff_of_true (consistent_iff.mpr ⟨⟨found.letters, found.names⟩, ranked, forgets _⟩)
        trivial, fun _ => ?_⟩
      exact ⟨sound.idx, sound.placed, sound.byName, sound.modes, sound.nodup_modes,
        sound.nodup_registered⟩

omit [DecidableEq μ] in
theorem sound_initial (setup : Setup μ) (name : μ → Str) :
    Sound setup (State.initial name : State μ κ).tables [] := by
  constructor
  · intro slot cm at_slot
    cases at_slot
  · intro cm mem
    cases mem
  · intro name cm at_name
    cases at_name
  · intro cm mem
    cases mem
  · exact List.nodup_nil
  · exact List.nodup_nil

omit [DecidableEq μ] in
theorem consistent_initial (setup : Setup μ) (name : μ → Str) :
    Consistent setup (State.initial name : State μ κ) := by
  constructor
  · intro cm mem
    cases mem
  · intro cm mem
    cases mem
  · intro cm
    simp [State.initial]
  · exact List.nodup_nil
  · exact List.Pairwise.nil
  · intro cm isRemoved
    cases isRemoved

/-- The tables stay consistent exactly as long as every call fits. -/
theorem tables_consistent_iff (setup : Setup μ) (name : μ → Str) (actions : List (Action μ κ)) :
    Library.Run.Always (step setup) (Consistent setup) (State.initial name) actions ↔
      Library.Run.EachStep (step setup) (Fits setup) (State.initial name) actions :=
  Library.Run.always_iff_eachStep_of_kept
    (fun state : State μ κ => Sound setup state.tables state.registered)
    (fun sound consistent consistent' stepped => (sound.step_iff consistent stepped).2 consistent')
    (fun sound consistent stepped => (sound.step_iff consistent stepped).1)
    (sound_initial setup name) (consistent_initial setup name) actions

/-- Two prefix modes without a symbol, `+q` and `+a`. -/
def twoPrefixes : Setup Bool where
  mchar admin := if admin then 97 else 113
  isStatus _ := true
  symbol _ := 0
  level _ := 0
  sort := id
  perm_sort _ := List.Perm.refl _
  sorted_sort _ := List.pairwise_of_forall fun _ _ => Nat.le_refl 0

def twoNames (admin : Bool) : Str :=
  if admin then ascii "PROTECT" else ascii "OWNER"

/-- Both are added, and the first is removed. -/
def addTwoRemoveOne : List (Action Bool Unit) :=
  [.addChannelMode false, .addChannelMode true, .removeChannelMode (some false)]

theorem isSome_run_addTwoRemoveOne : (Library.Run.run (step twoPrefixes)
    (State.initial twoNames) addTwoRemoveOne).isSome = true := by
  decide +kernel

/-- The first is still found by its name after it has been removed. -/
theorem not_always_consistent_symbolless :
    ¬ Library.Run.Always (step twoPrefixes) (Consistent twoPrefixes)
      (State.initial twoNames : State Bool Unit) addTwoRemoveOne := by
  intro always
  have consistent := always.of_run (Option.some_get isSome_run_addTwoRemoveOne).symm
  exact (consistent.removed false (by decide +kernel)).byName (ascii "OWNER") (by decide +kernel)

end Anope.Mode.Registry
