import Anope.Library.Toggle
import Anope.Mode.Core
import Anope.Text.Sepstream

/-!
# Modes that DefCon forces

`os_defcon` reads the modes that are to be forced on and off from a string of the configuration,
and undoes what users change about them.
-/

namespace Anope.Defcon

open Library Anope.Mode Anope.Text

variable {μ : Type}

/-- The modes as `ModeManager` finds them: what has a letter has a name. -/
structure ModeTable (manager : ModeManager μ) where
  findChannelModeByChar : UInt8 → Option μ
  findChannelModeByName : Str → Option μ
  name_of_find : ∀ {name cm}, findChannelModeByName name = some cm → (manager.mode cm).name = name
  find_of_char : ∀ {mode cm}, findChannelModeByChar mode = some cm →
    findChannelModeByName (manager.mode cm).name = some cm

/-- `DefconConfig`, with whether the level forces channel modes. -/
structure DefconConfig where
  chanmodes : Str
  defConModesOn : Finset Str
  defConModesOff : Finset Str
  defConModesOnParams : Str → Option Str
  forceChanModes : Bool

namespace DefconConfig

/-- `SetDefConParam`: a parameter that is there stays. -/
def setDefConParam (config : DefconConfig) (name buf : Str) : DefconConfig :=
  { config with
    defConModesOnParams := Function.update config.defConModesOnParams name
      ((config.defConModesOnParams name).or (some buf)) }

/-- `UnsetDefConParam`. -/
def unsetDefConParam (config : DefconConfig) (name : Str) : DefconConfig :=
  { config with defConModesOnParams := Function.update config.defConModesOnParams name none }

end DefconConfig

/-- The state of the loop of `ParseModeString`: the sign, if there was one, the stream of the
parameters, and the configuration. -/
structure Parse where
  add : Option Bool
  ss : Sepstream
  config : DefconConfig

section Code

/-- A mode that is added. -/
def addMode (manager : ModeManager μ) (state : Parse) (cm : μ) : Parse :=
  let name := (manager.mode cm).name
  let config :=
    { state.config with
      defConModesOn := insert name state.config.defConModesOn
      defConModesOff := state.config.defConModesOff.erase name }
  if (manager.mode cm).type = .param then
    match state.ss.getToken with
    | (none, ss) => { state with ss := ss, config := config }
    | (some param, ss) =>
        match manager.isValid cm param with
        | none => { state with ss := ss, config := config }
        | some param => { state with ss := ss, config := config.setDefConParam name param }
  else { state with config := config }

/-- A mode that is deleted. -/
def deleteMode (manager : ModeManager μ) (state : Parse) (cm : μ) : Parse :=
  let name := (manager.mode cm).name
  if name ∈ state.config.defConModesOn then
    let config :=
      { state.config with defConModesOn := state.config.defConModesOn.erase name }
    if (manager.mode cm).type = .param then { state with config := config.unsetDefConParam name }
    else { state with config := config }
  else state

variable {manager : ModeManager μ} (table : ModeTable manager)

/-- The body of the loop of `ParseModeString`. -/
def parseMode (state : Parse) (mode : UInt8) : Parse :=
  if mode = 43 then { state with add := some true }
  else if mode = 45 then { state with add := some false }
  else
    match state.add with
    | none => state
    | some add =>
        match table.findChannelModeByChar mode with
        | none => state
        | some cm =>
            if (manager.mode cm).type = .status ∨ (manager.mode cm).type = .list then state
            else if add then addMode manager state cm
            else deleteMode manager state cm

/-- The end of `ParseModeString`. -/
def dropRedirect (config : DefconConfig) : DefconConfig :=
  match table.findChannelModeByName (ascii "REDIRECT") with
  | none => config
  | some cm =>
      if (manager.mode cm).name ∈ config.defConModesOn ∧ ascii "LIMIT" ∉ config.defConModesOn then
        { config with defConModesOn := config.defConModesOn.erase (ascii "REDIRECT") }
      else config

/-- `ParseModeString`. -/
def parseModeString (config : DefconConfig) : DefconConfig :=
  let (modes, ss) := (Sepstream.new config.chanmodes 32 false).getToken
  let cleared := { config with defConModesOn := ∅, defConModesOff := ∅ }
  let parsed := (modes.getD []).foldl (parseMode table) ⟨none, ss, cleared⟩
  dropRedirect table parsed.config

/-- What a hook does before it stops a change. -/
inductive Reaction (μ : Type) where
  | removeMode (cm : μ) (param : Str)
  | setMode (cm : μ) (param : Str)

/-- `OnChannelModeSet`, for a source that has a user or a bot. -/
def onChannelModeSet (manager : ModeManager μ) (config : DefconConfig) (hasUser hasBot : Bool)
    (cm : μ) (value : Str) : Option (Reaction μ) :=
  if config.forceChanModes ∧ (manager.mode cm).name ∈ config.defConModesOff ∧ hasUser ∧ !hasBot then
    some (.removeMode cm value)
  else none

/-- `OnChannelModeUnset`. -/
def onChannelModeUnset (manager : ModeManager μ) (config : DefconConfig) (hasUser hasBot : Bool)
    (cm : μ) : Option (Reaction μ) :=
  if config.forceChanModes ∧ (manager.mode cm).name ∈ config.defConModesOn ∧ hasUser ∧ !hasBot then
    some (.setMode cm ((config.defConModesOnParams (manager.mode cm).name).getD []))
  else none

end Code

/-! ## What a mode string says -/

section Spec

variable {manager : ModeManager μ} (table : ModeTable manager)

/-- The name of the mode of a letter, if it can be locked. -/
def lockable (mode : UInt8) : Option Str :=
  match table.findChannelModeByChar mode with
  | none => none
  | some cm =>
      if (manager.mode cm).type = .status ∨ (manager.mode cm).type = .list then none
      else some (manager.mode cm).name

/-- The occurrences of modes that can be locked, each with the sign that it is under. -/
def occurrences : Option Bool → Str → List (Toggle.Switch Str)
  | _, [] => []
  | add, mode :: modes =>
      if mode = 43 then occurrences (some true) modes
      else if mode = 45 then occurrences (some false) modes
      else
        (add.bind fun sign => (lockable table mode).map fun name => (sign, name)).toList ++
          occurrences add modes

/-- The sign of the last occurrence of a mode in a string of modes and parameters. -/
def lastSign (chanmodes name : Str) : Option Bool :=
  Toggle.latest name
    (occurrences table none ((Library.Split.tokens 32 chanmodes).headD []))

/-- A mode that is to be forced on: `REDIRECT` only together with `LIMIT`. -/
def ForcedOn (chanmodes name : Str) : Prop :=
  lastSign table chanmodes name = some true ∧
    (name = ascii "REDIRECT" → lastSign table chanmodes (ascii "LIMIT") = some true)

/-- A mode that is to be forced off. -/
def ForcedOff (chanmodes name : Str) : Prop :=
  lastSign table chanmodes name = some false

/-- The modes that are to be forced on and off are known, and what a user changes about them is
undone. -/
structure Enforces (config : DefconConfig) : Prop where
  on : ∀ name, name ∈ (parseModeString table config).defConModesOn ↔
    ForcedOn table config.chanmodes name
  off : ∀ name, name ∈ (parseModeString table config).defConModesOff ↔
    ForcedOff table config.chanmodes name
  set : ∀ cm value,
    onChannelModeSet manager (parseModeString table config) true false cm value =
        some (.removeMode cm value) ↔
      config.forceChanModes = true ∧ ForcedOff table config.chanmodes (manager.mode cm).name
  unset : ∀ cm,
    (∃ param, onChannelModeUnset manager (parseModeString table config) true false cm =
        some (.setMode cm param)) ↔
      config.forceChanModes = true ∧ ForcedOn table config.chanmodes (manager.mode cm).name

end Spec

/-! ## The loop -/

variable {manager : ModeManager μ} {table : ModeTable manager} {config : DefconConfig}
  {state : Parse} {cm : μ}

theorem getToken_fst_new (chanmodes : Str) :
    ((Sepstream.new chanmodes 32 false).getToken.1).getD [] =
      (Library.Split.tokens 32 chanmodes).headD [] := by
  have first := Sepstream.getTokens_getElem? (.new chanmodes 32 false) 0
  rw [Sepstream.getTokens_new] at first
  change (Library.Split.tokens 32 chanmodes)[0]? = (Sepstream.new chanmodes 32 false).getToken.1
    at first
  rw [← first, List.headD_eq_head?_getD, List.head?_eq_getElem?]

/-- A letter switches a mode of the forced ones on or off; no mode is added to those that are
forced off. -/
structure Switched (before after : Parse) (switch : Toggle.Switch Str) : Prop where
  add : after.add = before.add
  on : after.config.defConModesOn = Toggle.apply before.config.defConModesOn switch
  off : after.config.defConModesOff ⊆ before.config.defConModesOff
  force : after.config.forceChanModes = before.config.forceChanModes

theorem switched_addMode (state : Parse) (cm : μ) :
    Switched state (addMode manager state cm) (true, (manager.mode cm).name) := by
  have erased := Finset.erase_subset (manager.mode cm).name state.config.defConModesOff
  rw [addMode]
  dsimp only
  split
  · split
    · exact ⟨rfl, rfl, erased, rfl⟩
    · split
      · exact ⟨rfl, rfl, erased, rfl⟩
      · exact ⟨rfl, rfl, erased, rfl⟩
  · exact ⟨rfl, rfl, erased, rfl⟩

theorem switched_deleteMode (state : Parse) (cm : μ) :
    Switched state (deleteMode manager state cm) (false, (manager.mode cm).name) := by
  rw [deleteMode]
  dsimp only
  split
  · split
    · exact ⟨rfl, rfl, Finset.Subset.refl _, rfl⟩
    · exact ⟨rfl, rfl, Finset.Subset.refl _, rfl⟩
  next absent =>
    exact ⟨rfl, (Finset.erase_eq_of_notMem absent).symm, Finset.Subset.refl _, rfl⟩

/-- A letter of a mode that can be locked, under a sign. -/
theorem switched_parseMode {mode : UInt8} (notPlus : mode ≠ 43) (notMinus : mode ≠ 45)
    {sign : Bool} {name : Str} (isSign : state.add = some sign)
    (isName : lockable table mode = some name) :
    Switched state (parseMode table state mode) (sign, name) := by
  rw [lockable] at isName
  rw [parseMode, if_neg notPlus, if_neg notMinus, isSign]
  cases found : table.findChannelModeByChar mode with
  | none =>
      rw [found] at isName
      cases isName
  | some cm =>
      simp only [found] at isName ⊢
      split at isName
      · cases isName
      next canLock =>
        cases isName
        rw [if_neg canLock]
        cases sign with
        | true => exact switched_addMode state cm
        | false => exact switched_deleteMode state cm

/-- Another letter, or one before the first sign. -/
theorem parseMode_of_none {mode : UInt8} (notPlus : mode ≠ 43) (notMinus : mode ≠ 45)
    (skipped : state.add = none ∨ lockable table mode = none) :
    parseMode table state mode = state := by
  rw [parseMode, if_neg notPlus, if_neg notMinus]
  cases isSign : state.add with
  | none => rfl
  | some sign =>
      have notLockable := skipped.resolve_left (by simp [isSign])
      rw [lockable] at notLockable
      cases found : table.findChannelModeByChar mode with
      | none => rfl
      | some cm =>
          simp only [found] at notLockable ⊢
          split at notLockable
          next cannotLock => rw [if_pos cannotLock]
          · cases notLockable

/-- The modes that are forced on are switched as they occur. -/
theorem switched_foldl (table : ModeTable manager) (modes : Str) (state : Parse) :
    (modes.foldl (parseMode table) state).config.defConModesOn =
        (occurrences table state.add modes).foldl Toggle.apply state.config.defConModesOn ∧
      (modes.foldl (parseMode table) state).config.defConModesOff ⊆ state.config.defConModesOff ∧
      (modes.foldl (parseMode table) state).config.forceChanModes =
        state.config.forceChanModes := by
  induction modes generalizing state with
  | nil => exact ⟨rfl, Finset.Subset.refl _, rfl⟩
  | cons mode modes ih =>
      rw [List.foldl_cons, occurrences]
      split
      next plus =>
        rw [parseMode, if_pos plus]
        exact ih _
      next notPlus =>
        split
        next minus =>
          rw [parseMode, if_neg notPlus, if_pos minus]
          exact ih _
        next notMinus =>
          have rest := ih state
          cases isSign : state.add with
          | none =>
              rw [isSign] at rest
              rw [parseMode_of_none notPlus notMinus (.inl isSign)]
              exact rest
          | some sign =>
              rw [isSign] at rest
              cases isName : lockable table mode with
              | none =>
                  rw [parseMode_of_none notPlus notMinus (.inr isName)]
                  exact rest
              | some name =>
                  have switched := switched_parseMode notPlus notMinus isSign isName
                  obtain ⟨on, off, force⟩ := ih (parseMode table state mode)
                  refine ⟨?_, off.trans switched.off, force.trans switched.force⟩
                  rw [on, switched.add, switched.on, isSign]
                  rfl

/-! ## The sets -/

theorem find_of_lockable {mode : UInt8} {name : Str} (isName : lockable table mode = some name) :
    ∃ cm, table.findChannelModeByName name = some cm := by
  rw [lockable] at isName
  split at isName
  · cases isName
  next cm found =>
    split at isName
    · cases isName
    · cases isName
      exact ⟨cm, table.find_of_char found⟩

/-- Modes that occur are known by their names. -/
theorem find_of_mem_occurrences {add : Option Bool} {modes : Str} {switch : Toggle.Switch Str}
    (mem : switch ∈ occurrences table add modes) :
    ∃ cm, table.findChannelModeByName switch.2 = some cm := by
  induction modes generalizing add with
  | nil => cases mem
  | cons mode modes ih =>
      rw [occurrences] at mem
      split at mem
      · exact ih mem
      · split at mem
        · exact ih mem
        · rcases List.mem_append.mp mem with here | later
          · rw [Option.mem_toList] at here
            obtain ⟨sign, _, named⟩ := Option.bind_eq_some_iff.mp here
            obtain ⟨name, isName, rfl⟩ := Option.map_eq_some_iff.mp named
            exact find_of_lockable isName
          · exact ih later

/-- What the loop leaves. -/
structure Looped (table : ModeTable manager) (config parsed : DefconConfig) : Prop where
  on : ∀ name, name ∈ parsed.defConModesOn ↔ lastSign table config.chanmodes name = some true
  off : parsed.defConModesOff = ∅
  force : parsed.forceChanModes = config.forceChanModes

theorem exists_looped (table : ModeTable manager) (config : DefconConfig) :
    ∃ parsed, parseModeString table config = dropRedirect table parsed ∧
      Looped table config parsed := by
  let ss := Sepstream.new config.chanmodes 32 false
  let start : Parse :=
    ⟨none, ss.getToken.2, { config with defConModesOn := ∅, defConModesOff := ∅ }⟩
  obtain ⟨on, off, force⟩ := switched_foldl table (ss.getToken.1.getD []) start
  refine ⟨((ss.getToken.1.getD []).foldl (parseMode table) start).config, rfl, fun name => ?_,
    Finset.subset_empty.mp off, force⟩
  rw [on, lastSign, ← getToken_fst_new]
  exact Toggle.mem_foldl_empty_iff

/-- `REDIRECT` is left out when `LIMIT` is not there. -/
theorem Looped.mem_dropRedirect_iff {parsed : DefconConfig} (looped : Looped table config parsed)
    (name : Str) :
    name ∈ (dropRedirect table parsed).defConModesOn ↔ ForcedOn table config.chanmodes name := by
  rw [ForcedOn, ← looped.on, ← looped.on, dropRedirect]
  split
  next unknown =>
    -- a mode without a name is not there either
    refine (and_iff_left_of_imp ?_).symm
    rintro mem rfl
    have isLast := (looped.on _).mp mem
    obtain ⟨cm, found⟩ := find_of_mem_occurrences (Toggle.mem_of_latest isLast)
    rw [unknown] at found
    cases found
  next cm found =>
    rw [table.name_of_find found]
    split
    next dropped =>
      rw [Finset.mem_erase]
      constructor
      · rintro ⟨other, mem⟩
        exact ⟨mem, fun same => absurd same other⟩
      · rintro ⟨mem, limited⟩
        exact ⟨fun same => dropped.2 (limited same), mem⟩
    next kept =>
      refine (and_iff_left_of_imp ?_).symm
      rintro mem rfl
      by_contra unlimited
      exact kept ⟨mem, unlimited⟩

theorem mem_modesOn_iff (config : DefconConfig) (name : Str) :
    name ∈ (parseModeString table config).defConModesOn ↔
      ForcedOn table config.chanmodes name := by
  obtain ⟨parsed, same, looped⟩ := exists_looped table config
  rw [same, looped.mem_dropRedirect_iff]

theorem dropRedirect_eq (parsed : DefconConfig) :
    (dropRedirect table parsed).defConModesOff = parsed.defConModesOff ∧
      (dropRedirect table parsed).forceChanModes = parsed.forceChanModes := by
  rw [dropRedirect]
  split
  · exact ⟨rfl, rfl⟩
  · split
    · exact ⟨rfl, rfl⟩
    · exact ⟨rfl, rfl⟩

theorem modesOff_eq_empty (config : DefconConfig) :
    (parseModeString table config).defConModesOff = ∅ := by
  obtain ⟨parsed, same, looped⟩ := exists_looped table config
  rw [same, (dropRedirect_eq parsed).1, looped.off]

theorem forceChanModes_parseModeString (config : DefconConfig) :
    (parseModeString table config).forceChanModes = config.forceChanModes := by
  obtain ⟨parsed, same, looped⟩ := exists_looped table config
  rw [same, (dropRedirect_eq parsed).2, looped.force]

/-- A change back is undone for the modes that are forced on. -/
theorem exists_setMode_iff (manager : ModeManager μ) (config : DefconConfig) (cm : μ) :
    (∃ param, onChannelModeUnset manager config true false cm = some (.setMode cm param)) ↔
      config.forceChanModes = true ∧ (manager.mode cm).name ∈ config.defConModesOn := by
  rw [onChannelModeUnset]
  split
  next both => exact iff_of_true ⟨_, rfl⟩ ⟨both.1, both.2.1⟩
  next other =>
    refine iff_of_false (by rintro ⟨_, ⟨⟩⟩) fun both => other ⟨both.1, both.2, rfl, rfl⟩

/-- The forced modes are known and enforced exactly when none is to be forced off. -/
theorem enforces_iff (table : ModeTable manager) (config : DefconConfig) :
    Enforces table config ↔ ∀ name, ¬ForcedOff table config.chanmodes name := by
  constructor
  · intro enforces name forcedOff
    have mem := (enforces.off name).mpr forcedOff
    rw [modesOff_eq_empty] at mem
    exact absurd mem (Finset.notMem_empty name)
  · intro none
    refine ⟨mem_modesOn_iff config, fun name => ?_, fun cm value => ?_, fun cm => ?_⟩
    · rw [modesOff_eq_empty]
      exact iff_of_false (Finset.notMem_empty name) (none name)
    · rw [onChannelModeSet, modesOff_eq_empty]
      simp [none]
    · rw [exists_setMode_iff, forceChanModes_parseModeString, mem_modesOn_iff]

/-! ## A mode that is to be forced off -/

/-- The only mode is `SECRET`. -/
def secretModes : ModeManager Unit where
  mode _ := ⟨ascii "SECRET", 115, .regular, false, none⟩
  listeners _ := []
  wrapParam _ param := param
  unwrapParam _ _ _ := none
  isValid _ param := some param
  name_inj _ := rfl

def secretTable : ModeTable secretModes where
  findChannelModeByChar mode := if mode = 115 then some () else none
  findChannelModeByName name := if name = ascii "SECRET" then some () else none
  name_of_find {name cm} found := by
    split at found
    next same => exact same.symm
    · cases found
  find_of_char _ := rfl

/-- The mode is under a minus, and is not forced off. -/
theorem not_enforces_secret :
    ¬Enforces secretTable ⟨ascii "-s", ∅, ∅, fun _ => none, true⟩ := by
  intro enforces
  have forcedOff : ForcedOff secretTable (ascii "-s") (ascii "SECRET") := by
    rw [ForcedOff]
    decide
  have mem := (enforces.off (ascii "SECRET")).mpr forcedOff
  rw [modesOff_eq_empty] at mem
  exact absurd mem (Finset.notMem_empty _)

end Anope.Defcon
