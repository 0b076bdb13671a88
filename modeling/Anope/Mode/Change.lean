import Anope.Mode.Stacker

/-!
# Mode messages

`BuildModeChange` writes a list of mode changes as the arguments of `MODE`
messages, split by length and number, and an IRCd reads them back: a sign sets
the direction, and a letter takes the next parameter when its mode needs one.
The two are inverse on changes that carry a value exactly when the mode takes
one.
-/

namespace Anope.Mode

/-- A mode change: direction, mode and value, which is empty when there is
none. -/
abbrev ModeChange (μ : Type) := Bool × μ × Str

/-- A line of changes: the mode letters with signs, and the parameters. -/
abbrev ModeLine := Str × List Str

/-- An IRCd and its protocol module: the limits of a line, the letters that the
IRCd knows, which are those of all modes that are sent to it, and the virtual
modes, which are lists based on lists. -/
structure Ircd {μ : Type} (manager : ModeManager μ) where
  /-- `IRCD->MaxLine`. -/
  maxLine : Nat
  /-- `IRCD->MaxModes`. -/
  maxModes : Nat
  byChar : UInt8 → Option μ
  byChar_mchar : ∀ cm, (manager.mode cm).base = none →
    byChar (manager.mode cm).mchar = some cm
  mchar_ne_sign : ∀ cm, (manager.mode cm).base = none →
    (manager.mode cm).mchar ≠ 43 ∧ (manager.mode cm).mchar ≠ 45
  listeners_base : ∀ {cm listener}, listener ∈ manager.listeners cm →
    (manager.mode listener).base = some cm
  unwrapParam_list : ∀ {cm listener param text}, listener ∈ manager.listeners cm →
    manager.unwrapParam listener cm param = some text →
      (manager.mode cm).type = .list ∧ (manager.mode listener).type = .list

/-- Whether a mode takes a parameter when it is set or unset. -/
def ChannelMode.takesParam {μ : Type} (mode : ChannelMode μ) (adding : Bool) : Bool :=
  match mode.type with
  | .regular => false
  | .list | .status => true
  | .param => adding || !mode.minusNoArg

/-- The local variables of `BuildModeChange`. -/
structure LineBuffer where
  modes : List ModeLine
  modebuf : Str
  modecount : Nat
  parambuf : List Str
  paramlen : Nat
  adding : Bool

namespace LineBuffer

/-- The variables before the loop. -/
def initial : LineBuffer where
  modes := []
  modebuf := []
  modecount := 0
  parambuf := []
  paramlen := 0
  adding := true

/-- Close the current line when a limit is reached; `MaxLine - 100` wraps around
as a `size_t`. -/
def closeLine (maxLine maxModes : Nat) (buf : LineBuffer) : LineBuffer :=
  let reachedMaxLine := maxLine ≠ 0 ∧
    (maxLine + 2 ^ 64 - 100) % 2 ^ 64 < buf.modebuf.length + buf.paramlen
  let modecount := if maxModes ≠ 0 then buf.modecount + 1 else buf.modecount
  let reachedMaxModes := maxModes ≠ 0 ∧ maxModes < modecount
  if reachedMaxModes ∨ reachedMaxLine then
    { buf with
      modes := buf.modes ++ [(buf.modebuf, buf.parambuf)]
      modebuf := []
      modecount := 0
      parambuf := []
      paramlen := 0 }
  else { buf with modecount := modecount }

/-- Push the sign when the direction changes or the line is empty. -/
def pushSign (direction : Bool) (buf : LineBuffer) : LineBuffer :=
  if buf.modebuf = [] ∨ buf.adding ≠ direction then
    { buf with
      adding := direction
      modebuf := buf.modebuf ++ [if direction then 43 else 45] }
  else buf

/-- Push the letter, and the value if there is one. -/
def pushMode (mchar : UInt8) (value : Str) (buf : LineBuffer) : LineBuffer :=
  let buf := { buf with modebuf := buf.modebuf ++ [mchar] }
  if value ≠ [] then
    { buf with
      parambuf := buf.parambuf ++ [value]
      paramlen := buf.paramlen + value.length + 1 }
  else buf

variable (mchar : UInt8) (value : Str) (buf : LineBuffer)

@[simp]
theorem pushMode_modes : (buf.pushMode mchar value).modes = buf.modes := by
  rw [pushMode]
  split <;> rfl

@[simp]
theorem pushMode_modebuf : (buf.pushMode mchar value).modebuf = buf.modebuf ++ [mchar] := by
  rw [pushMode]
  split <;> rfl

@[simp]
theorem pushMode_modecount : (buf.pushMode mchar value).modecount = buf.modecount := by
  rw [pushMode]
  split <;> rfl

@[simp]
theorem pushMode_parambuf :
    (buf.pushMode mchar value).parambuf =
      buf.parambuf ++ if value ≠ [] then [value] else [] := by
  rw [pushMode]
  split
  · rfl
  · exact (List.append_nil _).symm

@[simp]
theorem pushMode_paramlen :
    (buf.pushMode mchar value).paramlen =
      buf.paramlen + if value ≠ [] then value.length + 1 else 0 := by
  rw [pushMode]
  split
  · rfl
  · rfl

@[simp]
theorem pushMode_adding : (buf.pushMode mchar value).adding = buf.adding := by
  rw [pushMode]
  split <;> rfl

end LineBuffer

section

variable {μ : Type} {manager : ModeManager μ} (ircd : Ircd manager)

/-- The body of the loop of `BuildModeChange`. -/
def buildStep (buf : LineBuffer) (entry : μ × Bool × ModeData) : LineBuffer :=
  ((buf.closeLine ircd.maxLine ircd.maxModes).pushSign entry.2.1).pushMode
    (manager.mode entry.1).mchar entry.2.2.value

/-- `BuildModeChange`. -/
def buildModeChange (change : List (μ × Bool × ModeData)) : List ModeLine :=
  let buf := change.foldl (buildStep ircd) .initial
  if buf.modebuf ≠ [] then buf.modes ++ [(buf.modebuf, buf.parambuf)] else buf.modes

/-- How an IRCd reads the letters of a line. -/
def readModes : Bool → Str → List Str → List (ModeChange μ)
  | _, [], _ => []
  | adding, c :: modes, params =>
      if c = 43 then readModes true modes params
      else if c = 45 then readModes false modes params
      else
        match ircd.byChar c with
        | none => readModes adding modes params
        | some cm =>
            if (manager.mode cm).takesParam adding then
              match params with
              | [] => readModes adding modes []
              | param :: params => (adding, cm, param) :: readModes adding modes params
            else (adding, cm, []) :: readModes adding modes params

/-- How an IRCd reads a sequence of lines. -/
def readLines (lines : List ModeLine) : List (ModeChange μ) :=
  lines.flatMap fun line => readModes ircd true line.1 line.2

/-- A change that can be written: its mode has a letter of its own, and it has a
value exactly when the mode takes one. -/
structure Writable (manager : ModeManager μ) (set : Bool) (mode : μ) (value : Str) : Prop where
  base : (manager.mode mode).base = none
  value_iff : value ≠ [] ↔ (manager.mode mode).takesParam set = true

end

/-! ## Reading back what was written -/

section RoundTrip

variable {μ : Type} {manager : ModeManager μ} {ircd : Ircd manager}

/-- A letter pushed with its value is read as one change. -/
theorem readModes_mode {set : Bool} {mode : μ} {value : Str}
    (writable : Writable manager set mode value) (modes : Str) (params : List Str) :
    readModes ircd set ((manager.mode mode).mchar :: modes)
        ((if value ≠ [] then [value] else []) ++ params) =
      (set, mode, value) :: readModes ircd set modes params := by
  obtain ⟨base, valueIff⟩ := writable
  obtain ⟨notPlus, notMinus⟩ := ircd.mchar_ne_sign mode base
  rw [readModes, if_neg notPlus, if_neg notMinus, ircd.byChar_mchar mode base]
  by_cases noValue : value = []
  · have noParam : ¬(manager.mode mode).takesParam set = true :=
      fun takes => valueIff.mpr takes noValue
    simp [noParam, noValue]
  · have takes := valueIff.mp noValue
    simp [takes, noValue]

/-- The lines and the open line are read as given changes, and reading can go on
in the current direction. -/
def Reads (ircd : Ircd manager) (buf : LineBuffer) (changes : List (ModeChange μ)) : Prop :=
  ∀ modes params,
    readLines ircd buf.modes ++
        readModes ircd true (buf.modebuf ++ modes) (buf.parambuf ++ params) =
      changes ++ readModes ircd (if buf.modebuf = [] then true else buf.adding) modes params

theorem reads_initial (ircd : Ircd manager) : Reads ircd .initial [] :=
  fun _ _ => rfl

/-- Closing a line either counts the mode or starts an empty line. -/
theorem closeLine_cases (maxLine maxModes : Nat) (buf : LineBuffer) :
    (∃ modecount, buf.closeLine maxLine maxModes = { buf with modecount := modecount }) ∨
      buf.closeLine maxLine maxModes =
        { buf with
          modes := buf.modes ++ [(buf.modebuf, buf.parambuf)]
          modebuf := []
          modecount := 0
          parambuf := []
          paramlen := 0 } := by
  simp only [LineBuffer.closeLine]
  generalize (if maxModes ≠ 0 then buf.modecount + 1 else buf.modecount) = modecount
  split
  · exact .inr rfl
  · exact .inl ⟨modecount, rfl⟩

theorem Reads.closeLine {buf : LineBuffer} {changes : List (ModeChange μ)}
    (reads : Reads ircd buf changes) (maxLine maxModes : Nat) :
    Reads ircd (buf.closeLine maxLine maxModes) changes := by
  rcases closeLine_cases maxLine maxModes buf with ⟨modecount, counted⟩ | closed
  · rw [counted]
    exact reads
  · rw [closed]
    intro modes params
    have lines := reads [] []
    simp only [List.append_nil, readModes, readLines] at lines
    simp [readLines, lines]

/-- After the sign, reading goes on in its direction. -/
theorem Reads.pushSign {buf : LineBuffer} {changes : List (ModeChange μ)}
    (reads : Reads ircd buf changes) (direction : Bool) (modes : Str) (params : List Str) :
    readLines ircd (buf.pushSign direction).modes ++
        readModes ircd true ((buf.pushSign direction).modebuf ++ modes)
          ((buf.pushSign direction).parambuf ++ params) =
      changes ++ readModes ircd direction modes params := by
  unfold LineBuffer.pushSign
  split
  · have signed := reads ((if direction then 43 else 45) :: modes) params
    rw [List.append_assoc, List.singleton_append, signed]
    cases direction <;> simp [readModes]
  · rename_i open_line
    rw [not_or, not_not] at open_line
    rw [reads modes params, if_neg open_line.1, open_line.2]

theorem Reads.pushMode {buf : LineBuffer} {changes : List (ModeChange μ)}
    (reads : Reads ircd buf changes) {set : Bool} {mode : μ} {value : Str}
    (writable : Writable manager set mode value) :
    Reads ircd ((buf.pushSign set).pushMode (manager.mode mode).mchar value)
      (changes ++ [(set, mode, value)]) := by
  intro modes params
  have pushed := reads.pushSign set ((manager.mode mode).mchar :: modes)
    ((if value ≠ [] then [value] else []) ++ params)
  rw [readModes_mode writable] at pushed
  have direction : (buf.pushSign set).adding = set := by
    unfold LineBuffer.pushSign
    split
    · rfl
    · rename_i open_line
      rw [not_or, not_not] at open_line
      exact open_line.2
  unfold LineBuffer.pushMode
  by_cases noValue : value = []
  · simpa [noValue, direction] using pushed
  · simpa [noValue, direction] using pushed

theorem reads_foldl {entries : List (μ × Bool × ModeData)}
    (writable : ∀ entry ∈ entries, Writable manager entry.2.1 entry.1 entry.2.2.value)
    {buf : LineBuffer} {changes : List (ModeChange μ)} (reads : Reads ircd buf changes) :
    Reads ircd (entries.foldl (buildStep ircd) buf)
      (changes ++ entries.map fun entry => (entry.2.1, entry.1, entry.2.2.value)) := by
  induction entries generalizing buf changes with
  | nil => simpa using reads
  | cons entry entries ih =>
      have first := (reads.closeLine ircd.maxLine ircd.maxModes).pushMode
        (writable entry (List.mem_cons_self ..))
      have rest := ih (fun other mem => writable other (List.mem_cons_of_mem _ mem)) first
      simpa [buildStep] using rest

/-- The IRCd reads exactly the changes that were written, in order. -/
theorem readLines_buildModeChange {entries : List (μ × Bool × ModeData)}
    (writable : ∀ entry ∈ entries, Writable manager entry.2.1 entry.1 entry.2.2.value) :
    readLines ircd (buildModeChange ircd entries) =
      entries.map fun entry => (entry.2.1, entry.1, entry.2.2.value) := by
  have reads := reads_foldl writable (reads_initial ircd) [] []
  simp only [List.append_nil, readModes, List.nil_append] at reads
  unfold buildModeChange
  simp only
  split
  · simpa [readLines] using reads
  · rename_i noLine
    rw [not_not] at noLine
    simpa [noLine, readModes] using reads

end RoundTrip

/-!
## Replaying mode lines

A line is replayed letter by letter: a sign sets the direction, and a letter takes the next
parameter when its mode carries one.  Which modes do is a rule of its own, by the place of the
letter, the direction and the mode.  A replay fails where a parameter is missing, where one is left
over, and at an unknown letter, so a replay that succeeds has read all of every line.
-/

variable {μ : Type} {manager : ModeManager μ}

/-- What a replay has read, with the direction and the parameters of its line. -/
structure Replay (μ : Type) where
  adding : Bool
  params : List Str
  changes : List (ModeChange μ)

section

variable (ircd : Ircd manager) (carries : Nat → Bool → μ → Bool)

/-- Replay a letter or a sign. -/
def replayLetter (state : Replay μ) (c : UInt8) : Option (Replay μ) :=
  if c = 43 then some { state with adding := true }
  else if c = 45 then some { state with adding := false }
  else
    match ircd.byChar c with
    | none => none
    | some mode =>
        if carries state.changes.length state.adding mode then
          match state.params with
          | [] => none
          | param :: params =>
              some { state with
                params := params
                changes := state.changes ++ [(state.adding, mode, param)] }
        else some { state with changes := state.changes ++ [(state.adding, mode, [])] }

/-- Replay a line, which starts in the direction of setting and uses up its parameters. -/
def replayLine (changes : List (ModeChange μ)) (line : ModeLine) : Option (List (ModeChange μ)) :=
  match line.1.foldlM (replayLetter ircd carries) ⟨true, line.2, changes⟩ with
  | some ⟨_, [], changes⟩ => some changes
  | _ => none

/-- Replay a sequence of lines. -/
def replayLines (lines : List ModeLine) : Option (List (ModeChange μ)) :=
  lines.foldlM (replayLine ircd carries) []

/-- A mode that is known by its letter. -/
structure OwnLetter (mode : μ) : Prop where
  byChar : ircd.byChar (manager.mode mode).mchar = some mode
  ne_plus : (manager.mode mode).mchar ≠ 43
  ne_minus : (manager.mode mode).mchar ≠ 45

/-- The lines and the open line are replayed as given changes, and the replay can go on in the
current direction. -/
def Replays (buf : LineBuffer) (changes : List (ModeChange μ)) : Prop :=
  ∃ closed, replayLines ircd carries buf.modes = some closed ∧ ∀ params,
    buf.modebuf.foldlM (replayLetter ircd carries) ⟨true, buf.parambuf ++ params, closed⟩ =
      some ⟨if buf.modebuf = [] then true else buf.adding, params, changes⟩

end

variable {ircd : Ircd manager} {carries : Nat → Bool → μ → Bool} {buf : LineBuffer}
  {changes : List (ModeChange μ)}

/-- The modes that are not virtual have letters of their own. -/
theorem ownLetter_of_base {mode : μ} (base : (manager.mode mode).base = none) :
    OwnLetter ircd mode where
  byChar := ircd.byChar_mchar mode base
  ne_plus := (ircd.mchar_ne_sign mode base).1
  ne_minus := (ircd.mchar_ne_sign mode base).2

theorem replayLetter_sign (direction : Bool) (state : Replay μ) :
    replayLetter ircd carries state (if direction then 43 else 45) =
      some { state with adding := direction } := by
  cases direction with
  | false => rfl
  | true => rfl

/-- A letter with its value is replayed as one change. -/
theorem replayLetter_mode {mode : μ} {value : Str} {state : Replay μ} {params : List Str}
    (own : OwnLetter ircd mode)
    (carried : carries state.changes.length state.adding mode = decide (value ≠ []))
    (isParams : state.params = (if value ≠ [] then [value] else []) ++ params) :
    replayLetter ircd carries state (manager.mode mode).mchar =
      some ⟨state.adding, params, state.changes ++ [(state.adding, mode, value)]⟩ := by
  rw [replayLetter, if_neg own.ne_plus, if_neg own.ne_minus, own.byChar]
  dsimp only
  rw [carried, isParams]
  by_cases noValue : value = []
  · rw [if_neg (by simpa using noValue), if_neg (not_not.mpr noValue), noValue]
    rfl
  · rw [if_pos (decide_eq_true noValue), if_pos noValue]
    rfl

theorem replays_initial : Replays ircd carries .initial [] :=
  ⟨[], rfl, fun _ => rfl⟩

/-- The open line is replayed like those before it. -/
theorem Replays.closed (replays : Replays ircd carries buf changes) :
    replayLines ircd carries (buf.modes ++ [(buf.modebuf, buf.parambuf)]) = some changes := by
  obtain ⟨before, isBefore, line⟩ := replays
  have whole := line []
  rw [List.append_nil] at whole
  rw [replayLines] at isBefore ⊢
  rw [List.foldlM_append, isBefore]
  simp only [Option.bind_eq_bind, Option.bind_some, List.foldlM_cons, List.foldlM_nil]
  rw [replayLine, whole]
  rfl

theorem Replays.closeLine (replays : Replays ircd carries buf changes) (maxLine maxModes : Nat) :
    Replays ircd carries (buf.closeLine maxLine maxModes) changes := by
  rcases closeLine_cases maxLine maxModes buf with ⟨modecount, counted⟩ | closed
  · rw [counted]
    exact replays
  · rw [closed]
    exact ⟨changes, replays.closed, fun params => rfl⟩

/-- After the sign, the replay goes on in its direction. -/
theorem Replays.pushSign (replays : Replays ircd carries buf changes) (direction : Bool) :
    Replays ircd carries (buf.pushSign direction) changes ∧
      (buf.pushSign direction).adding = direction ∧ (buf.pushSign direction).modebuf ≠ [] := by
  obtain ⟨before, isBefore, line⟩ := replays
  rw [LineBuffer.pushSign]
  split
  · refine ⟨⟨before, isBefore, fun params => ?_⟩, rfl, List.append_ne_nil_of_right_ne_nil _ ?_⟩
    · dsimp only
      rw [List.foldlM_append, line, if_neg (List.append_ne_nil_of_right_ne_nil _ ?_)]
      · exact congrArg (· >>= pure) (replayLetter_sign direction _)
      · exact List.cons_ne_nil _ _
    · exact List.cons_ne_nil _ _
  · rename_i isOpen
    rw [not_or, not_not] at isOpen
    exact ⟨⟨before, isBefore, line⟩, isOpen.2, isOpen.1⟩

theorem Replays.pushMode (replays : Replays ircd carries buf changes) {set : Bool} {mode : μ}
    {value : Str} (own : OwnLetter ircd mode)
    (carried : carries changes.length set mode = decide (value ≠ [])) :
    Replays ircd carries ((buf.pushSign set).pushMode (manager.mode mode).mchar value)
      (changes ++ [(set, mode, value)]) := by
  obtain ⟨⟨before, isBefore, line⟩, isSet, nonempty⟩ := replays.pushSign set
  refine ⟨before, ?_, fun params => ?_⟩
  · rw [LineBuffer.pushMode_modes]
    exact isBefore
  · have pushed := line ((if value ≠ [] then [value] else []) ++ params)
    rw [if_neg nonempty, isSet] at pushed
    rw [LineBuffer.pushMode_modebuf, LineBuffer.pushMode_parambuf, LineBuffer.pushMode_adding,
      if_neg (List.append_ne_nil_of_left_ne_nil nonempty _), isSet, List.append_assoc,
      List.foldlM_append, pushed]
    simp only [Option.bind_eq_bind, Option.bind_some, List.foldlM_cons, List.foldlM_nil]
    rw [replayLetter_mode own carried rfl]
    rfl

/-- The body of the loop pushes one change. -/
theorem Replays.buildStep (replays : Replays ircd carries buf changes)
    {entry : μ × Bool × ModeData} (own : OwnLetter ircd entry.1)
    (carried : carries changes.length entry.2.1 entry.1 = decide (entry.2.2.value ≠ [])) :
    Replays ircd carries (Mode.buildStep ircd buf entry)
      (changes ++ [(entry.2.1, entry.1, entry.2.2.value)]) :=
  (replays.closeLine ircd.maxLine ircd.maxModes).pushMode own carried

/-- The change that an entry stands for. -/
def modeChange (entry : μ × Bool × ModeData) : ModeChange μ :=
  (entry.2.1, entry.1, entry.2.2.value)

/-- The whole loop pushes the changes, one for each entry. -/
theorem Replays.foldl {done rest : List (μ × Bool × ModeData)}
    (own : ∀ entry ∈ rest, OwnLetter ircd entry.1)
    (carried : ∀ place entry, (done ++ rest)[place]? = some entry →
      carries place entry.2.1 entry.1 = decide (entry.2.2.value ≠ []))
    (replays : Replays ircd carries buf (done.map modeChange)) :
    Replays ircd carries (rest.foldl (Mode.buildStep ircd) buf)
      ((done ++ rest).map modeChange) := by
  induction rest generalizing done buf with
  | nil =>
      rw [List.append_nil]
      exact replays
  | cons entry rest ih =>
      have place : (done ++ entry :: rest)[(done.map (@modeChange μ)).length]? = some entry := by
        rw [List.length_map, List.getElem?_append_right (Nat.le_refl _), Nat.sub_self]
        rfl
      have step := replays.buildStep (own entry List.mem_cons_self) (carried _ entry place)
      have shifted : done ++ entry :: rest = done ++ [entry] ++ rest := by
        rw [List.append_assoc, List.singleton_append]
      rw [shifted] at carried ⊢
      apply ih (fun other mem => own other (List.mem_cons_of_mem entry mem)) carried
      rw [List.map_append]
      exact step

/-- The lines are replayed as exactly the changes they were built from, in order, under every rule
by which the modes that carry a parameter are those of the changes that have one. -/
theorem replayLines_buildModeChange {entries : List (μ × Bool × ModeData)}
    (own : ∀ entry ∈ entries, OwnLetter ircd entry.1)
    (carried : ∀ place entry, entries[place]? = some entry →
      carries place entry.2.1 entry.1 = decide (entry.2.2.value ≠ [])) :
    replayLines ircd carries (buildModeChange ircd entries) = some (entries.map modeChange) := by
  have replays := @Replays.foldl μ manager ircd carries .initial [] entries own carried
    replays_initial
  rw [List.nil_append] at replays
  rw [buildModeChange]
  split
  · exact replays.closed
  · rename_i noLine
    rw [not_not] at noLine
    obtain ⟨before, isBefore, line⟩ := replays
    have whole := line []
    rw [noLine, List.append_nil] at whole
    have same : before = entries.map modeChange := congrArg Replay.changes (Option.some.inj whole)
    rw [← same]
    exact isBefore

/-! ## Keys -/

/-- The mode `KEY` alone. -/
def keyOnly : ModeManager Unit where
  mode _ := ⟨ascii "KEY", 107, .param, false, none⟩
  listeners _ := []
  wrapParam _ value := value
  unwrapParam _ _ _ := none
  isValid _ value := some value
  name_inj _ := rfl

/-- An IRCd that knows this mode, with a limit for the modes of a line. -/
def keyOnlyIrcd (maxModes : Nat) : Ircd keyOnly where
  maxLine := 512
  maxModes := maxModes
  byChar c := if c = 107 then some () else none
  byChar_mchar _ _ := rfl
  mchar_ne_sign := by decide
  listeners_base mem := by contradiction
  unwrapParam_list mem := by contradiction

/-- A key is set. -/
def keySet (value : Str) : Unit × Bool × ModeData :=
  ((), true, ⟨value, [], 0⟩)

/-- Three keys on lines of at most two modes. -/
theorem replayLines_buildModeChange_keys :
    replayLines (keyOnlyIrcd 2) (fun _ _ _ => true)
        (buildModeChange (keyOnlyIrcd 2)
          [keySet (ascii "a"), keySet (ascii "b"), keySet (ascii "c")]) =
      some [(true, (), ascii "a"), (true, (), ascii "b"), (true, (), ascii "c")] := by
  apply replayLines_buildModeChange
  · rintro entry -
    exact ownLetter_of_base rfl
  · intro place entry isEntry
    have set : ∀ entry ∈ [keySet (ascii "a"), keySet (ascii "b"), keySet (ascii "c")],
        entry.2.2.value ≠ [] := by
      decide
    exact (decide_eq_true (set entry (List.mem_of_getElem? isEntry))).symm

end Anope.Mode
