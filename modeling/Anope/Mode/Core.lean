import Anope.Text.Casemap

/-!
# Channel modes and their registry

`ModeManager` knows a channel mode by a pointer; the type of pointers is a
parameter, ordered by address.  A virtual mode, such as an extended ban, has a
base mode to which it is wrapped before it is sent, and is a listener of that
base: text of the base mode that the listener recognises is unwrapped to it.
-/

namespace Anope

instance instLinearOrderUInt8 : LinearOrder UInt8 where
  le_refl _ := UInt8.le_refl _
  le_trans _ _ _ := UInt8.le_trans
  le_antisymm _ _ := UInt8.le_antisymm
  le_total := UInt8.le_total
  lt_iff_le_not_ge left right := by
    rw [UInt8.not_le]
    exact ⟨fun less => ⟨UInt8.le_of_lt less, less⟩, And.right⟩
  toDecidableLE := inferInstance

namespace Mode

/-- `ModeType`. -/
inductive ModeType where
  /-- `MODE_REGULAR`. -/
  | regular
  /-- `MODE_LIST`. -/
  | list
  /-- `MODE_PARAM`. -/
  | param
  /-- `MODE_STATUS`. -/
  | status
  deriving DecidableEq, Repr

/-- `ChannelMode`; `minusNoArg` belongs to `ChannelModeParam` and `base` to
`ChannelModeVirtual`. -/
structure ChannelMode (μ : Type) where
  name : Str
  mchar : UInt8
  type : ModeType
  minusNoArg : Bool
  base : Option μ

/-- The channel modes that `ModeManager` holds, with the virtual functions of
their classes.  `AddChannelMode` refuses a second mode of one name. -/
structure ModeManager (μ : Type) where
  mode : μ → ChannelMode μ
  listeners : μ → List μ
  /-- The text a virtual mode writes in `Wrap`. -/
  wrapParam : μ → Str → Str
  /-- `listener->Unwrap(cm, param)`: the new text when the listener recognises
  it, and then the listener itself is returned. -/
  unwrapParam : μ → μ → Str → Option Str
  /-- `IsValid`, which may rewrite the text. -/
  isValid : μ → Str → Option Str
  name_inj : ∀ {cm cm' : μ}, (mode cm).name = (mode cm').name → cm = cm'

namespace ModeManager

variable {μ : Type} (manager : ModeManager μ)

/-- `ChannelMode::Wrap`, and that of virtual modes. -/
def wrap (cm : μ) (param : Str) : μ × Str :=
  match (manager.mode cm).base with
  | none => (cm, param)
  | some basech => (basech, manager.wrapParam cm param)

/-- `ChannelMode::Unwrap`: the first listener that recognises the text. -/
def unwrap (cm : μ) (param : Str) : μ × Str :=
  ((manager.listeners cm).findSome? fun listener =>
    (manager.unwrapParam listener cm param).map fun text => (listener, text)).getD (cm, param)

end ModeManager

end Mode

end Anope
