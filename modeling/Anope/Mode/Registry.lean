import Anope.Library.Run
import Anope.Mode.Stacker
import Anope.Text.Convert

/-!
# The tables of modes

The tables in which `ModeManager` finds the channel modes, and what adds a mode to them and
removes it.  Letters and the symbols of prefixes share one table.
-/

namespace Anope.Mode.Registry

open Anope.Text.Convert

/-- What mode objects are made with, but for their names, and the sorting of the library: modes
of one level may come in any order. -/
structure Setup (μ : Type) where
  mchar : μ → UInt8
  /-- `type == MODE_STATUS`. -/
  isStatus : μ → Bool
  symbol : μ → UInt8
  level : μ → Nat
  /-- `std::sort` with `statuscmp`. -/
  sort : List μ → List μ
  perm_sort : ∀ modes, (sort modes).Perm modes
  sorted_sort : ∀ modes, (sort modes).Pairwise fun cm1 cm2 => level cm2 ≤ level cm1

/-- The tables; `κ` are the objects with changes that have not been sent. -/
structure Tables (μ κ : Type) where
  /-- The names of the mode objects. -/
  name : μ → Str
  /-- `ChannelModesIdx`, where what is past the end is empty. -/
  idx : UInt8 → Option μ
  /-- `ChannelModesByName`. -/
  byName : AList fun _ : Str => μ
  /-- `ChannelModes`. -/
  modes : List μ
  /-- `ChannelModesByStatus`. -/
  byStatus : List μ
  /-- `GenericChannelModes`. -/
  generic : Nat
  stacked : List (κ × StackerInfo μ)

section Code

variable {μ κ : Type} [DecidableEq μ] (setup : Setup μ)

/-- The places of `ChannelModesIdx`, in order. -/
def slots : List UInt8 :=
  (List.range 256).map UInt8.ofNat

/-- The loop of `RebuildStatusModes`. -/
def collect (idx : UInt8 → Option μ) (found : List μ) : List UInt8 → List μ
  | [] => found
  | slot :: slots =>
      match idx slot with
      | none => collect idx found slots
      | some cm =>
          if setup.isStatus cm ∧ cm ∉ found then collect idx (found ++ [cm]) slots
          else collect idx found slots

namespace Tables

variable (tables : Tables μ κ)

/-- `RebuildStatusModes`. -/
def rebuildStatusModes : Tables μ κ :=
  { tables with byStatus := setup.sort (collect setup tables.idx [] slots) }

omit [DecidableEq μ] in
/-- `FindChannelModeByChar`. -/
def findChannelModeByChar (mode : UInt8) : Option μ :=
  tables.idx mode

omit [DecidableEq μ] in
/-- `FindChannelModeByName`. -/
def findChannelModeByName (name : Str) : Option μ :=
  tables.byName.lookup name

/-- A mode without a name gets a number. -/
def giveName (cm : μ) : Tables μ κ :=
  if (tables.name cm).isEmpty then
    let generic := (tables.generic + 1) % 2 ^ 32
    { tables with name := Function.update tables.name cm (decimal generic), generic := generic }
  else tables

omit [DecidableEq μ] in
/-- A mode takes a place of `ChannelModesIdx`.  For the `char` of all ones, which is `-1`, the
resize is to no places at all, and the write that follows is past the end. -/
def setSlot (slot : UInt8) (cm : μ) : Option (Tables μ κ) :=
  if slot = 255 then none
  else some { tables with idx := Function.update tables.idx slot (some cm) }

omit [DecidableEq μ] in
def clearSlot (slot : UInt8) : Tables μ κ :=
  { tables with idx := Function.update tables.idx slot none }

omit [DecidableEq μ] in
/-- The place of the letter. -/
def enterLetter (cm : μ) : Option (Tables μ κ) :=
  if setup.mchar cm = 0 then some tables else tables.setSlot (setup.mchar cm) cm

/-- The place of the symbol. -/
def enterSymbol (cm : μ) : Option (Tables μ κ) :=
  if setup.isStatus cm then
    (tables.setSlot (setup.symbol cm) cm).map (rebuildStatusModes setup)
  else some tables

omit [DecidableEq μ] in
/-- The name and the list. -/
def enterName (cm : μ) : Tables μ κ :=
  { tables with
    byName := tables.byName.insert (tables.name cm) cm
    modes := tables.modes ++ [cm] }

/-- Whether `AddChannelMode` goes on: neither the letter nor the name is taken. -/
def accepts (cm : μ) : Bool :=
  (setup.mchar cm = 0 ∨ tables.findChannelModeByChar (setup.mchar cm) = none) ∧
    tables.findChannelModeByName (tables.name cm) = none

/-- `AddChannelMode`. -/
def addChannelMode (cm : μ) : Option (Bool × Tables μ κ) :=
  if tables.accepts setup cm then
    (((tables.giveName cm).enterLetter setup cm).bind fun entered =>
      entered.enterSymbol setup cm).map fun entered => (true, entered.enterName cm)
  else some (false, tables)

/-- `StackerDel` of a mode. -/
def stackerDel (cm : μ) : Tables μ κ :=
  { tables with
    stacked := tables.stacked.map fun object =>
      (object.1,
        { addModes := object.2.addModes.filter fun entry => entry.1 ≠ cm
          delModes := object.2.delModes.filter fun entry => entry.1 ≠ cm }) }

/-- The end of `RemoveChannelMode`. -/
def leaveName (cm : μ) : Tables μ κ :=
  { tables with
    byName := tables.byName.erase (tables.name cm)
    modes := tables.modes.erase cm }.stackerDel cm

/-- The part of `RemoveChannelMode` that follows the letter. -/
def leaveSymbol (cm : μ) : Tables μ κ :=
  if setup.isStatus cm then
    if tables.idx (setup.symbol cm) ≠ some cm then tables
    else ((tables.clearSlot (setup.symbol cm)).rebuildStatusModes setup).leaveName cm
  else tables.leaveName cm

/-- `RemoveChannelMode`. -/
def removeChannelMode (mode : Option μ) : Tables μ κ :=
  match mode with
  | none => tables
  | some cm =>
      if setup.mchar cm = 0 then tables.leaveSymbol setup cm
      else if tables.idx (setup.mchar cm) ≠ some cm then tables
      else (tables.clearSlot (setup.mchar cm)).leaveSymbol setup cm

end Tables

/-! ## Runs -/

/-- The tables, with the modes that have been added and not removed, and the mode that the last
call has removed. -/
structure State (μ κ : Type) where
  tables : Tables μ κ
  registered : List μ
  removed : Option μ

/-- The calls, and any change of what is stacked. -/
inductive Action (μ κ : Type) where
  | addChannelMode (cm : μ)
  | removeChannelMode (cm : Option μ)
  | stack (stacked : List (κ × StackerInfo μ))

/-- One call. -/
def step (state : State μ κ) : Action μ κ → Option (State μ κ)
  | .addChannelMode cm =>
      (state.tables.addChannelMode setup cm).map fun added =>
        { tables := added.2
          registered := if added.1 then cm :: state.registered else state.registered
          removed := none }
  | .removeChannelMode cm =>
      some
        { tables := state.tables.removeChannelMode setup cm
          registered := cm.elim state.registered state.registered.erase
          removed := cm.filter (· ∈ state.registered) }
  | .stack stacked =>
      some { state with tables := { state.tables with stacked := stacked }, removed := none }

omit [DecidableEq μ] in
/-- The state before a mode is added; the objects may have any names. -/
def State.initial (name : μ → Str) : State μ κ where
  tables :=
    { name := name, idx := fun _ => none, byName := ∅, modes := [], byStatus := [], generic := 0,
      stacked := [] }
  registered := []
  removed := none

/-! ## The property -/

omit [DecidableEq μ] in
/-- No table refers to a mode. -/
structure Tables.Forgets (tables : Tables μ κ) (cm : μ) : Prop where
  idx : ∀ slot, tables.idx slot ≠ some cm
  byName : ∀ name, tables.byName.lookup name ≠ some cm
  modes : cm ∉ tables.modes
  byStatus : cm ∉ tables.byStatus
  stacked : ∀ object ∈ tables.stacked, (∀ entry ∈ object.2.addModes, entry.1 ≠ cm) ∧
    ∀ entry ∈ object.2.delModes, entry.1 ≠ cm

omit [DecidableEq μ] in
/-- Registered modes are found by letter and by name, the ranks are the registered prefix modes,
and nothing refers to a mode that has just been removed. -/
structure Consistent (state : State μ κ) : Prop where
  letters : ∀ cm ∈ state.registered, setup.mchar cm ≠ 0 →
    state.tables.findChannelModeByChar (setup.mchar cm) = some cm
  names : ∀ cm ∈ state.registered,
    state.tables.findChannelModeByName (state.tables.name cm) = some cm
  ranks : ∀ cm, cm ∈ state.tables.byStatus ↔ cm ∈ state.registered ∧ setup.isStatus cm = true
  once : state.tables.byStatus.Nodup
  descending : state.tables.byStatus.Pairwise fun cm1 cm2 => setup.level cm2 ≤ setup.level cm1
  removed : ∀ cm, state.removed = some cm → state.tables.Forgets cm

omit [DecidableEq μ] in
/-- A mode that is added does not get a number that is a name already. -/
def NewName (tables : Tables μ κ) (cm : μ) : Prop :=
  tables.name cm = [] →
    tables.findChannelModeByName (decimal ((tables.generic + 1) % 2 ^ 32)) = none

omit [DecidableEq μ] in
/-- A prefix does not take the place of another mode's letter or of a prefix without a letter. -/
def NewSymbol (tables : Tables μ κ) (cm : μ) : Prop :=
  setup.isStatus cm = true → ∀ other, tables.idx (setup.symbol cm) = some other →
    setup.mchar other ≠ setup.symbol cm ∧ setup.mchar other ≠ 0

omit [DecidableEq μ] in
/-- A prefix still has the place of its symbol, which is not that of its letter. -/
def KeepsSymbol (tables : Tables μ κ) (cm : μ) : Prop :=
  setup.isStatus cm = true → tables.idx (setup.symbol cm) = some cm ∧
    (setup.mchar cm = 0 ∨ setup.mchar cm ≠ setup.symbol cm)

omit [DecidableEq μ] in
/-- A mode without letter and symbol does not have a name that is in the tables. -/
def LeavesNames (tables : Tables μ κ) (cm : μ) : Prop :=
  setup.mchar cm = 0 → setup.isStatus cm = false →
    tables.findChannelModeByName (tables.name cm) = none

/-- What a call must find for the tables to stay consistent. -/
def Fits (state : State μ κ) : Action μ κ → Prop
  | .addChannelMode cm =>
      state.tables.accepts setup cm = true →
        NewName state.tables cm ∧ NewSymbol setup state.tables cm
  | .removeChannelMode (some cm) =>
      if cm ∈ state.registered then KeepsSymbol setup state.tables cm
      else LeavesNames setup state.tables cm
  | _ => True

end Code

end Anope.Mode.Registry
