import Anope.Mode.Change
import Mathlib.Algebra.GroupWithZero.Nat

/-!
# The limits of mode lines

A line closed by `BuildModeChange` should have at most `MaxModes` letters, and at most `MaxLine`
bytes unless it is a single change.  The counter of letters starts again at zero although the
letter of the same pass goes on the new line, so the lines after the first may have one letter
more; and the room kept free for the next change is tested before the change is added.
-/

namespace Anope.Mode

/-! ## Lines -/

/-- The number of mode letters. -/
def letterCount (modes : Str) : Nat :=
  modes.countP fun c => c ≠ 43 ∧ c ≠ 45

/-- The bytes of parameters, with a separator for each. -/
def paramBytes (params : List Str) : Nat :=
  (params.map fun param => param.length + 1).sum

/-- The bytes of a line. -/
def lineBytes (line : ModeLine) : Nat :=
  line.1.length + paramBytes line.2

/-- A line within the limits; `MaxLine` is no limit when it is zero. -/
def WithinLimits (maxLine maxModes : Nat) (line : ModeLine) : Prop :=
  letterCount line.1 ≤ maxModes ∧
    (maxLine = 0 ∨ lineBytes line ≤ maxLine ∨ letterCount line.1 ≤ 1)

/-- A letter that is not a sign. -/
def IsLetter (c : UInt8) : Prop :=
  c ≠ 43 ∧ c ≠ 45

namespace LineBuffer

/-- A limit is reached: the pass closes the open line. -/
def Closes (maxLine maxModes : Nat) (buf : LineBuffer) : Prop :=
  (maxModes ≠ 0 ∧ maxModes < buf.modecount + 1) ∨
    (maxLine ≠ 0 ∧ (maxLine + 2 ^ 64 - 100) % 2 ^ 64 < buf.modebuf.length + buf.paramlen)

/-- The sign that is pushed, if any. -/
def sign (direction : Bool) (buf : LineBuffer) : Str :=
  if buf.modebuf = [] ∨ buf.adding ≠ direction then [if direction then 43 else 45] else []

/-- The bytes that a change adds to the open line. -/
def cost (buf : LineBuffer) (direction : Bool) (value : Str) : Nat :=
  (buf.sign direction).length + 1 + if value ≠ [] then value.length + 1 else 0

/-- There is room for a change, unless the pass closes the line: the line is the first one, or it
has not `MaxModes` letters, which is one more than were counted; and its bytes stay within
`MaxLine` unless it was empty. -/
def HasRoom (maxLine maxModes : Nat) (buf : LineBuffer) (direction : Bool) (value : Str) : Prop :=
  buf.Closes maxLine maxModes ∨
    (buf.modes = [] ∨ buf.modecount + 1 ≠ maxModes) ∧
      (maxLine = 0 ∨ buf.modebuf = [] ∨
        buf.modebuf.length + buf.paramlen + buf.cost direction value ≤ maxLine)

/-- What the counters of the loop say: the lines after the first have one letter more than were
counted. -/
structure Counted (buf : LineBuffer) : Prop where
  letters : letterCount buf.modebuf = buf.modecount + if buf.modes = [] then 0 else 1
  bytes : paramBytes buf.parambuf = buf.paramlen
  empty : letterCount buf.modebuf = 0 ↔ buf.modebuf = []

/-! ## A pass of the loop -/

variable {maxLine maxModes : Nat} {buf : LineBuffer} {direction : Bool}

theorem closeLine_of_closes (closes : buf.Closes maxLine maxModes) :
    buf.closeLine maxLine maxModes =
      { buf with
        modes := buf.modes ++ [(buf.modebuf, buf.parambuf)]
        modebuf := []
        modecount := 0
        parambuf := []
        paramlen := 0 } := by
  rw [closeLine]
  apply if_pos
  rcases closes with ⟨limited, reached⟩ | reached
  · rw [if_pos limited]
    exact .inl ⟨limited, reached⟩
  · exact .inr reached

theorem closeLine_of_not_closes (limited : 1 ≤ maxModes) (goesOn : ¬buf.Closes maxLine maxModes) :
    buf.closeLine maxLine maxModes = { buf with modecount := buf.modecount + 1 } := by
  have counts : maxModes ≠ 0 := Nat.one_le_iff_ne_zero.mp limited
  simp only [closeLine, if_pos counts]
  exact if_neg goesOn

theorem pushSign_eq (direction : Bool) (buf : LineBuffer) :
    buf.pushSign direction =
      { buf with adding := direction, modebuf := buf.modebuf ++ buf.sign direction } := by
  rw [pushSign, sign]
  split
  · rfl
  · rename_i goesOn
    rw [not_or, not_not] at goesOn
    rw [List.append_nil, ← goesOn.2]

theorem letterCount_sign (direction : Bool) (buf : LineBuffer) :
    letterCount (buf.sign direction) = 0 := by
  rw [sign]
  split
  · cases direction with
    | false => rfl
    | true => rfl
  · rfl

end LineBuffer

theorem letterCount_append (left right : Str) :
    letterCount (left ++ right) = letterCount left + letterCount right :=
  List.countP_append

theorem letterCount_letter {c : UInt8} (isLetter : IsLetter c) : letterCount [c] = 1 := by
  have counted : c ≠ 43 ∧ c ≠ 45 := isLetter
  rw [letterCount, List.countP_singleton]
  exact if_pos (decide_eq_true counted)

theorem paramBytes_append (left right : List Str) :
    paramBytes (left ++ right) = paramBytes left + paramBytes right := by
  rw [paramBytes, List.map_append, List.sum_append]
  rfl

/-- The bytes of the parameter of a change. -/
theorem paramBytes_value (value : Str) :
    paramBytes (if value ≠ [] then [value] else []) =
      if value ≠ [] then value.length + 1 else 0 := by
  split
  · rfl
  · rfl

namespace LineBuffer

variable {maxLine maxModes : Nat} {buf : LineBuffer} {direction : Bool} {mchar : UInt8}
  {value : Str}

theorem counted_initial : Counted initial where
  letters := rfl
  bytes := rfl
  empty := iff_of_true rfl rfl

/-- A change goes on an open line. -/
theorem pushed (bytes : paramBytes buf.parambuf = buf.paramlen) (isLetter : IsLetter mchar) :
    let pushed := (buf.pushSign direction).pushMode mchar value
    letterCount pushed.modebuf = letterCount buf.modebuf + 1 ∧
      paramBytes pushed.parambuf = pushed.paramlen ∧
      pushed.modebuf.length + pushed.paramlen =
        buf.modebuf.length + buf.paramlen + buf.cost direction value := by
  dsimp only
  rw [pushMode_modebuf, pushMode_parambuf, pushMode_paramlen, pushSign_eq]
  dsimp only
  refine ⟨?_, ?_, ?_⟩
  · rw [letterCount_append, letterCount_append, letterCount_sign, letterCount_letter isLetter]
  · rw [paramBytes_append, paramBytes_value, bytes]
  · rw [List.length_append, List.length_append, cost, List.length_singleton]
    omega

/-- The body of the loop. -/
def pass (maxLine maxModes : Nat) (buf : LineBuffer) (direction : Bool) (mchar : UInt8)
    (value : Str) : LineBuffer :=
  ((buf.closeLine maxLine maxModes).pushSign direction).pushMode mchar value

theorem pass_modes :
    (buf.pass maxLine maxModes direction mchar value).modes =
      (buf.closeLine maxLine maxModes).modes := by
  rw [pass, pushMode_modes, pushSign_eq]

theorem pass_modecount :
    (buf.pass maxLine maxModes direction mchar value).modecount =
      (buf.closeLine maxLine maxModes).modecount := by
  rw [pass, pushMode_modecount, pushSign_eq]

theorem pass_modebuf_ne_nil :
    (buf.pass maxLine maxModes direction mchar value).modebuf ≠ [] := by
  rw [pass, pushMode_modebuf]
  exact List.append_ne_nil_of_right_ne_nil _ (List.cons_ne_nil _ _)

/-- A pass that closes the line puts the change on a new one. -/
theorem pass_of_closes (closes : buf.Closes maxLine maxModes) (isLetter : IsLetter mchar) :
    let next := buf.pass maxLine maxModes direction mchar value
    next.modes = buf.modes ++ [(buf.modebuf, buf.parambuf)] ∧ next.modecount = 0 ∧
      letterCount next.modebuf = 1 ∧ paramBytes next.parambuf = next.paramlen := by
  have closed := closeLine_of_closes closes
  have bytes : paramBytes (buf.closeLine maxLine maxModes).parambuf =
      (buf.closeLine maxLine maxModes).paramlen := by
    rw [closed]
    rfl
  obtain ⟨letters, paramlen, -⟩ := @pushed _ direction mchar value bytes isLetter
  refine ⟨?_, ?_, ?_, paramlen⟩
  · rw [pass_modes, closed]
  · rw [pass_modecount, closed]
  · rw [pass, letters, closed]
    rfl

/-- A pass that does not close the line puts the change on it. -/
theorem pass_of_not_closes (goesOn : ¬buf.Closes maxLine maxModes) (limited : 1 ≤ maxModes)
    (counted : Counted buf) (isLetter : IsLetter mchar) :
    let next := buf.pass maxLine maxModes direction mchar value
    next.modes = buf.modes ∧ next.modecount = buf.modecount + 1 ∧
      letterCount next.modebuf = letterCount buf.modebuf + 1 ∧
      paramBytes next.parambuf = next.paramlen ∧
      next.modebuf.length + next.paramlen =
        buf.modebuf.length + buf.paramlen + buf.cost direction value := by
  have stays := closeLine_of_not_closes limited goesOn
  have bytes : paramBytes (buf.closeLine maxLine maxModes).parambuf =
      (buf.closeLine maxLine maxModes).paramlen := by
    rw [stays]
    exact counted.bytes
  obtain ⟨letters, paramlen, length⟩ := @pushed _ direction mchar value bytes isLetter
  refine ⟨?_, ?_, ?_, paramlen, ?_⟩
  · rw [pass_modes, stays]
  · rw [pass_modecount, stays]
  · rw [pass, letters, stays]
  · rw [pass, length, stays]
    rfl

/-- The counters after a pass. -/
theorem Counted.pass (counted : Counted buf) (limited : 1 ≤ maxModes) (isLetter : IsLetter mchar) :
    Counted (buf.pass maxLine maxModes direction mchar value) := by
  by_cases closes : buf.Closes maxLine maxModes
  · obtain ⟨modes, count, letters, bytes⟩ :=
      @pass_of_closes maxLine maxModes buf direction mchar value closes isLetter
    refine ⟨?_, bytes, iff_of_false ?_ pass_modebuf_ne_nil⟩
    · rw [letters, modes, count,
        if_neg (List.append_ne_nil_of_right_ne_nil _ (List.cons_ne_nil _ _))]
    · rw [letters]
      exact Nat.one_ne_zero
  · obtain ⟨modes, count, letters, bytes, -⟩ :=
      @pass_of_not_closes maxLine maxModes buf direction mchar value closes limited counted isLetter
    refine ⟨?_, bytes, iff_of_false ?_ pass_modebuf_ne_nil⟩
    · rw [letters, modes, count, counted.letters, Nat.add_right_comm]
    · rw [letters]
      exact Nat.succ_ne_zero _

/-- A pass with room for its change keeps the lines within the limits. -/
theorem withinLimits_pass (counted : Counted buf) (limited : 1 ≤ maxModes)
    (isLetter : IsLetter mchar) (room : buf.HasRoom maxLine maxModes direction value)
    (within : ∀ line ∈ buf.modes ++ [(buf.modebuf, buf.parambuf)],
      WithinLimits maxLine maxModes line) :
    let next := buf.pass maxLine maxModes direction mchar value
    ∀ line ∈ next.modes ++ [(next.modebuf, next.parambuf)],
      WithinLimits maxLine maxModes line := by
  dsimp only
  rw [List.forall_mem_append, List.forall_mem_singleton]
  by_cases closes : buf.Closes maxLine maxModes
  · obtain ⟨modes, -, letters, -⟩ :=
      @pass_of_closes maxLine maxModes buf direction mchar value closes isLetter
    rw [modes]
    refine ⟨within, ?_, .inr (.inr ?_)⟩
    · rw [letters]
      exact limited
    · rw [letters]
  · obtain ⟨modes, -, letters, bytes, length⟩ :=
      @pass_of_not_closes maxLine maxModes buf direction mchar value closes limited counted isLetter
    obtain ⟨hasLetter, hasBytes⟩ := room.resolve_left closes
    have notFull : buf.modecount + 1 ≤ maxModes := by
      by_contra full
      exact closes (.inl ⟨Nat.one_le_iff_ne_zero.mp limited, Nat.not_le.mp full⟩)
    rw [modes]
    refine ⟨(List.forall_mem_append.mp within).1, ?_, ?_⟩
    · rw [letters, counted.letters]
      rcases hasLetter with first | notLast
      · rw [if_pos first]
        exact notFull
      · split
        · exact notFull
        · omega
    · rw [lineBytes, bytes, length, letters]
      rcases hasBytes with unlimited | isEmpty | fits
      · exact .inl unlimited
      · rw [counted.empty.mpr isEmpty]
        exact .inr (.inr (Nat.le_refl 1))
      · exact .inr (.inl fits)

/-- A pass without room for its change makes a line that is beyond the limits. -/
theorem not_withinLimits_pass (counted : Counted buf) (limited : 1 ≤ maxModes)
    (isLetter : IsLetter mchar) (noRoom : ¬buf.HasRoom maxLine maxModes direction value) :
    let next := buf.pass maxLine maxModes direction mchar value
    ¬WithinLimits maxLine maxModes (next.modebuf, next.parambuf) := by
  dsimp only
  rintro ⟨fewLetters, fewBytes⟩
  rw [HasRoom, not_or, not_and_or] at noRoom
  obtain ⟨closes, noRoom⟩ := noRoom
  obtain ⟨-, -, letters, bytes, length⟩ :=
    @pass_of_not_closes maxLine maxModes buf direction mchar value closes limited counted isLetter
  rcases noRoom with noLetter | noBytes
  · rw [not_or, not_not] at noLetter
    rw [letters, counted.letters, if_neg noLetter.1, noLetter.2] at fewLetters
    exact absurd fewLetters (Nat.not_succ_le_self _)
  · rw [not_or, not_or] at noBytes
    obtain ⟨isLimited, nonempty, tooLong⟩ := noBytes
    rw [lineBytes, bytes, length, letters] at fewBytes
    rcases fewBytes with unlimited | fits | one
    · exact isLimited unlimited
    · exact tooLong fits
    · exact nonempty (counted.empty.mp (Nat.le_zero.mp (Nat.le_of_succ_le_succ one)))

end LineBuffer

/-! ## A list of changes -/

section Run

variable {μ : Type} {manager : ModeManager μ} (ircd : Ircd manager)

/-- There is room for each change in the state of the loop before it. -/
def EachHasRoom (buf : LineBuffer) : List (μ × Bool × ModeData) → Prop
  | [] => True
  | entry :: entries =>
      buf.HasRoom ircd.maxLine ircd.maxModes entry.2.1 entry.2.2.value ∧
        EachHasRoom (buildStep ircd buf entry) entries

variable {ircd} {buf : LineBuffer} {entries : List (μ × Bool × ModeData)}

theorem buildStep_eq_pass (entry : μ × Bool × ModeData) :
    buildStep ircd buf entry =
      buf.pass ircd.maxLine ircd.maxModes entry.2.1 (manager.mode entry.1).mchar
        entry.2.2.value :=
  rfl

/-- A closed line stays as it is, and an open one only grows. -/
theorem exists_line_foldl (limited : 1 ≤ ircd.maxModes) (counted : buf.Counted)
    (letters : ∀ entry ∈ entries, IsLetter (manager.mode entry.1).mchar) {line : ModeLine}
    (mem : line ∈ buf.modes ++ [(buf.modebuf, buf.parambuf)]) :
    let final := entries.foldl (buildStep ircd) buf
    ∃ line' ∈ final.modes ++ [(final.modebuf, final.parambuf)],
      letterCount line.1 ≤ letterCount line'.1 ∧ lineBytes line ≤ lineBytes line' := by
  induction entries generalizing buf line with
  | nil => exact ⟨line, mem, Nat.le_refl _, Nat.le_refl _⟩
  | cons entry entries ih =>
      have isLetter := letters entry List.mem_cons_self
      have rest := fun other mem => letters other (List.mem_cons_of_mem entry mem)
      have next : (buildStep ircd buf entry).Counted := counted.pass limited isLetter
      rw [List.foldl_cons]
      by_cases closes : buf.Closes ircd.maxLine ircd.maxModes
      · obtain ⟨modes, -⟩ := LineBuffer.pass_of_closes closes isLetter
        exact ih next rest (List.mem_append_left _ (modes ▸ mem))
      · obtain ⟨modes, -, more, bytes, length⟩ :=
          LineBuffer.pass_of_not_closes closes limited counted isLetter
        rcases List.mem_append.mp mem with isClosed | isOpen
        · exact ih next rest (List.mem_append_left _ (modes ▸ isClosed))
        · obtain rfl := List.mem_singleton.mp isOpen
          obtain ⟨line', memFinal, moreLetters, moreBytes⟩ := ih next rest
            (List.mem_append_right _ (List.mem_singleton.mpr rfl))
          refine ⟨line', memFinal, Nat.le_trans ?_ moreLetters, Nat.le_trans ?_ moreBytes⟩
          · exact more ▸ Nat.le_succ _
          · rw [buildStep_eq_pass, lineBytes, lineBytes, counted.bytes]
            dsimp only
            rw [bytes, length]
            exact Nat.le_add_right _ _

/-- The lines stay within the limits exactly when there is room for each change. -/
theorem withinLimits_foldl_iff (limited : 1 ≤ ircd.maxModes) (counted : buf.Counted)
    (letters : ∀ entry ∈ entries, IsLetter (manager.mode entry.1).mchar)
    (within : ∀ line ∈ buf.modes ++ [(buf.modebuf, buf.parambuf)],
      WithinLimits ircd.maxLine ircd.maxModes line) :
    let final := entries.foldl (buildStep ircd) buf
    (∀ line ∈ final.modes ++ [(final.modebuf, final.parambuf)],
      WithinLimits ircd.maxLine ircd.maxModes line) ↔ EachHasRoom ircd buf entries := by
  induction entries generalizing buf with
  | nil => exact iff_of_true within trivial
  | cons entry entries ih =>
      have isLetter := letters entry List.mem_cons_self
      have rest := fun other mem => letters other (List.mem_cons_of_mem entry mem)
      have next : (buildStep ircd buf entry).Counted := counted.pass limited isLetter
      rw [List.foldl_cons, EachHasRoom]
      by_cases room : buf.HasRoom ircd.maxLine ircd.maxModes entry.2.1 entry.2.2.value
      · rw [and_iff_right room]
        exact ih next rest (LineBuffer.withinLimits_pass counted limited isLetter room within)
      · refine iff_of_false ?_ fun each => room each.1
        intro allWithin
        obtain ⟨line', memFinal, moreLetters, moreBytes⟩ := exists_line_foldl limited next rest
          (List.mem_append_right _ (List.mem_singleton.mpr rfl))
        obtain ⟨fewLetters, fewBytes⟩ := allWithin line' memFinal
        apply LineBuffer.not_withinLimits_pass counted limited isLetter room
        refine ⟨Nat.le_trans moreLetters fewLetters, ?_⟩
        exact fewBytes.imp_right (Or.imp (Nat.le_trans moreBytes) (Nat.le_trans moreLetters))

theorem withinLimits_of_nil (maxLine maxModes : Nat) (params : List Str) :
    WithinLimits maxLine maxModes ([], params) :=
  ⟨Nat.zero_le _, .inr (.inr (Nat.zero_le _))⟩

/-- The lines of a list of changes stay within the limits exactly when each pass of the loop has
room for its change. -/
theorem withinLimits_buildModeChange_iff (limited : 1 ≤ ircd.maxModes)
    (letters : ∀ entry ∈ entries, IsLetter (manager.mode entry.1).mchar) :
    (∀ line ∈ buildModeChange ircd entries, WithinLimits ircd.maxLine ircd.maxModes line) ↔
      EachHasRoom ircd .initial entries := by
  have initially : ∀ line ∈ LineBuffer.initial.modes ++
      [(LineBuffer.initial.modebuf, LineBuffer.initial.parambuf)],
      WithinLimits ircd.maxLine ircd.maxModes line :=
    List.forall_mem_singleton.mpr (withinLimits_of_nil _ _ _)
  refine Iff.trans ?_
    (withinLimits_foldl_iff limited LineBuffer.counted_initial letters initially)
  rw [List.forall_mem_append, List.forall_mem_singleton, buildModeChange]
  split
  · rw [List.forall_mem_append, List.forall_mem_singleton]
  · rename_i noLine
    rw [not_not] at noLine
    rw [noLine, and_iff_left (withinLimits_of_nil _ _ _)]

/-- Two keys on lines of one mode. -/
theorem withinLimits_buildModeChange_keys :
    (buildModeChange (keyOnlyIrcd 1) [keySet (ascii "a"), keySet (ascii "b")]).length = 2 ∧
      ∀ line ∈ buildModeChange (keyOnlyIrcd 1) [keySet (ascii "a"), keySet (ascii "b")],
        WithinLimits 512 1 line := by
  refine ⟨by decide, (withinLimits_buildModeChange_iff (by decide) ?_).mpr ?_⟩
  · rintro entry -
    have isLetter : (107 : UInt8) ≠ 43 ∧ (107 : UInt8) ≠ 45 := by decide
    exact isLetter
  · refine ⟨.inr ⟨.inl rfl, .inr (.inl rfl)⟩, .inl (.inl ?_), trivial⟩
    decide

/-- The third key of lines of one mode goes on the line of the second one. -/
theorem not_withinLimits_keys :
    ¬∀ (maxModes : Nat), 1 ≤ maxModes → ∀ entries : List (Unit × Bool × ModeData),
      ∀ line ∈ buildModeChange (keyOnlyIrcd maxModes) entries,
        WithinLimits 512 maxModes line := by
  intro within
  have second := within 1 (Nat.le_refl 1)
    [keySet (ascii "a"), keySet (ascii "b"), keySet (ascii "c")]
    (ascii "+kk", [ascii "b", ascii "c"]) (by decide)
  exact absurd second.1 (by decide)

end Run

end Anope.Mode
