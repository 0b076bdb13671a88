import Anope.Bridge.Markdown
import Mathlib.Data.List.TakeWhile

/-!
# Mentions of nicknames

`Text::ExpandMentions` looks up the runs of nickname characters that follow an `@`.  A run with an
answer is replaced together with its `@`, and everything between two such runs is escaped as one
piece.
-/

namespace Anope.Bridge

/-! ## The loop -/

/-- `Detail::NickChar`. -/
def nickChar (chr : UInt8) : Bool :=
  isAlnum chr || chr ∈ ascii "-_[]\\`^\x7b\x7d|"

/-- What `ExpandMentions` keeps between two passes: the text from `literal` on, the character before
the place, the output, and the nicknames that were looked up. -/
structure MentionState where
  literal : Str
  previous : Option UInt8
  out : Str
  lookups : List Str
  deriving DecidableEq, Repr

namespace MentionState

/-- The start of a text. -/
def start : MentionState :=
  ⟨[], none, [], []⟩

/-- A character is passed over. -/
def pass (state : MentionState) (chr : UInt8) : MentionState :=
  { state with literal := state.literal ++ [chr], previous := some chr }

/-- A nickname is looked up in vain. -/
def look (state : MentionState) (nick : Str) : MentionState :=
  { state with lookups := state.lookups ++ [nick] }

/-- A mention is replaced. -/
def replace (state : MentionState) (escape : Str → Str) (nick replacement : Str) : MentionState where
  literal := []
  previous := nick.getLast?
  out := state.out ++ escape state.literal ++ replacement
  lookups := state.lookups ++ [nick]

end MentionState

variable (resolve escape : Str → Str)

/-- The loop of `ExpandMentions`. -/
def mentionLoop (state : MentionState) : Str → MentionState
  | [] => state
  | chr :: rest =>
      if chr ≠ 64 then mentionLoop (state.pass chr) rest
      else if state.previous.any nickChar then mentionLoop (state.pass chr) rest
      else
        let nick := rest.takeWhile nickChar
        if nick = [] then mentionLoop (state.pass chr) rest
        else
          let replacement := resolve nick
          if replacement = [] then mentionLoop ((state.look nick).pass chr) rest
          else mentionLoop (state.replace escape nick replacement) (rest.drop nick.length)
  termination_by str => str.length
  decreasing_by
    · exact Nat.lt_succ_self _
    · exact Nat.lt_succ_self _
    · exact Nat.lt_succ_self _
    · exact Nat.lt_succ_self _
    · rw [List.length_drop, List.length_cons]
      omega

/-- `Text::ExpandMentions`. -/
def expandMentions (str : Str) : Str :=
  let state := mentionLoop resolve escape .start str
  state.out ++ escape state.literal

/-- The nicknames that are looked up. -/
def lookups (str : Str) : List Str :=
  (mentionLoop resolve escape .start str).lookups

/-! ## What a mention is -/

/-- A mention stands at a place of a text: a maximal run of nickname characters behind an `@` that
follows none.  What comes before the text is told by its last character. -/
structure MentionAt (previous : Option UInt8) (str before nick after : Str) : Prop where
  isStr : str = before ++ 64 :: nick ++ after
  nonempty : nick ≠ []
  run : ∀ chr ∈ nick, nickChar chr = true
  starts : ∀ chr ∈ before.getLast?.or previous, nickChar chr = false
  ends : ∀ chr ∈ after.head?, nickChar chr = false

/-- A literal stretch, and the nickname of the mention that ends it. -/
structure Mention where
  stretch : Str
  nick : Str

/-- The text of mentions. -/
def mentionText (mentions : List Mention) : Str :=
  mentions.flatMap fun mention => mention.stretch ++ 64 :: mention.nick

/-- A mention of a list, and what the others make of the text around it. -/
def Divides (mentions : List Mention) (tail before nick after : Str) : Prop :=
  ∃ earlier stretch later, mentions = earlier ++ ⟨stretch, nick⟩ :: later ∧
    before = mentionText earlier ++ stretch ∧ after = mentionText later ++ tail

/-- A text is cut into its mentions and what follows the last one. -/
structure IsPartition (previous : Option UInt8) (str : Str) (mentions : List Mention)
    (tail : Str) : Prop where
  isStr : str = mentionText mentions ++ tail
  mentionAt_iff : ∀ before nick after,
    MentionAt previous str before nick after ↔ Divides mentions tail before nick after

/-- The literals are escaped and the mentions replaced.  A mention without an answer is literal. -/
def rendered (resolve escape : Str → Str) (literal : Str) : List Mention → Str → Str
  | [], tail => escape (literal ++ tail)
  | mention :: mentions, tail =>
      if resolve mention.nick = [] then
        rendered resolve escape (literal ++ mention.stretch ++ 64 :: mention.nick) mentions tail
      else
        escape (literal ++ mention.stretch) ++ resolve mention.nick ++
          rendered resolve escape [] mentions tail

variable {resolve escape} {previous : Option UInt8} {chr : UInt8}
  {str rest before nick after tail : Str} {mentions : List Mention}

/-! ## Places of mentions -/

theorem not_mentionAt_nil : ¬MentionAt previous [] before nick after := by
  intro mention
  have isStr := mention.isStr
  cases before <;> cases isStr

/-- A mention that does not start at a character stands behind it. -/
theorem mentionAt_cons_iff
    (none : ∀ nick after, ¬MentionAt previous (chr :: rest) [] nick after) :
    MentionAt previous (chr :: rest) before nick after ↔
      ∃ behind, before = chr :: behind ∧ MentionAt (some chr) rest behind nick after := by
  have last (behind : Str) :
      (chr :: behind).getLast?.or previous = behind.getLast?.or (some chr) := by
    rw [List.getLast?_cons]
    cases behind.getLast? <;> rfl
  constructor
  · intro mention
    cases before with
    | nil => exact absurd mention (none nick after)
    | cons first behind =>
        obtain ⟨rfl, isRest⟩ := List.cons.inj mention.isStr
        refine ⟨behind, rfl, isRest, mention.nonempty, mention.run, ?_, mention.ends⟩
        rw [← last]
        exact mention.starts
  · rintro ⟨behind, rfl, mention⟩
    refine ⟨congrArg (chr :: ·) mention.isStr, mention.nonempty, mention.run, ?_, mention.ends⟩
    rw [last]
    exact mention.starts

theorem takeWhile_run (run : ∀ chr ∈ nick, nickChar chr = true)
    (ends : ∀ chr ∈ after.head?, nickChar chr = false) :
    (nick ++ after).takeWhile nickChar = nick := by
  rw [List.takeWhile_append_of_pos run]
  cases after with
  | nil => exact List.append_nil nick
  | cons chr after =>
      rw [List.takeWhile_cons_of_neg, List.append_nil]
      rw [ends chr rfl]
      exact Bool.false_ne_true

/-- Behind a mention the next one follows another character. -/
theorem mentionAt_mention_iff {before' nick' after' : Str}
    (here : MentionAt previous str [] nick after) :
    MentionAt previous str before' nick' after' ↔
      (before' = [] ∧ nick' = nick ∧ after' = after) ∨
        ∃ behind, before' = 64 :: nick ++ behind ∧
          MentionAt nick.getLast? after behind nick' after' := by
  have last (behind : Str) :
      (64 :: nick ++ behind).getLast?.or previous = behind.getLast?.or nick.getLast? := by
    rw [List.getLast?_append, List.getLast?_cons, List.getLast?_eq_some_getLast here.nonempty]
    cases behind.getLast? <;> rfl
  have isStr := here.isStr
  constructor
  · intro mention
    have same := isStr.symm.trans mention.isStr
    cases before' with
    | nil =>
        have same : nick ++ after = nick' ++ after' := (List.cons.inj same).2
        have isNick := takeWhile_run mention.run mention.ends
        rw [← same, takeWhile_run here.run here.ends] at isNick
        subst isNick
        exact .inl ⟨rfl, rfl, (List.append_cancel_left same).symm⟩
    | cons first front =>
        obtain ⟨rfl, isRest⟩ := List.cons.inj same
        have same : nick ++ after = front ++ (64 :: nick' ++ after') := by
          rw [← List.append_assoc]
          exact isRest
        have later : ∃ behind, front = nick ++ behind ∧
            after = behind ++ (64 :: nick' ++ after') := by
          rcases List.append_eq_append_iff.mp same with
            ⟨behind, isFront, isAfter⟩ | ⟨more, isNick, isRest⟩
          · exact ⟨behind, isFront, isAfter⟩
          · cases more with
            | nil =>
                rw [List.append_nil] at isNick
                exact ⟨[], by rw [isNick, List.append_nil], isRest.symm⟩
            | cons first more =>
                obtain ⟨rfl, _⟩ := List.cons.inj isRest
                have isRun := here.run 64 (isNick ▸ List.mem_append_right _ List.mem_cons_self)
                cases isRun
        obtain ⟨behind, rfl, isAfter⟩ := later
        refine .inr ⟨behind, rfl, ?_, mention.nonempty, mention.run, ?_, mention.ends⟩
        · rw [isAfter, List.append_assoc]
        · rw [← last]
          exact mention.starts
  · rintro (⟨rfl, rfl, rfl⟩ | ⟨behind, rfl, mention⟩)
    · exact here
    · refine ⟨?_, mention.nonempty, mention.run, ?_, mention.ends⟩
      · rw [isStr, mention.isStr]
        simp
      · rw [last]
        exact mention.starts

/-! ## Partitions -/

theorem not_divides_nil : ¬Divides [] tail before nick after := by
  rintro ⟨earlier, stretch, later, impossible, _⟩
  cases earlier <;> cases impossible

theorem mentionText_cons (mention : Mention) (mentions : List Mention) :
    mentionText (mention :: mentions) =
      mention.stretch ++ 64 :: mention.nick ++ mentionText mentions :=
  List.flatMap_cons

theorem divides_cons_iff {mention : Mention} :
    Divides (mention :: mentions) tail before nick after ↔
      (before = mention.stretch ∧ nick = mention.nick ∧ after = mentionText mentions ++ tail) ∨
        ∃ behind, before = mention.stretch ++ 64 :: mention.nick ++ behind ∧
          Divides mentions tail behind nick after := by
  constructor
  · rintro ⟨earlier, stretch, later, isAll, isBefore, isAfter⟩
    cases earlier with
    | nil =>
        obtain ⟨rfl, rfl⟩ := List.cons.inj isAll
        exact .inl ⟨isBefore, rfl, isAfter⟩
    | cons first earlier =>
        obtain ⟨rfl, rfl⟩ := List.cons.inj isAll
        refine .inr ⟨mentionText earlier ++ stretch, ?_, earlier, stretch, later, rfl, rfl, isAfter⟩
        rw [isBefore, mentionText_cons, List.append_assoc]
  · rintro (⟨rfl, rfl, rfl⟩ | ⟨behind, rfl, earlier, stretch, later, rfl, rfl, rfl⟩)
    · exact ⟨[], mention.stretch, mentions, rfl, rfl, rfl⟩
    · refine ⟨mention :: earlier, stretch, later, rfl, ?_, rfl⟩
      rw [mentionText_cons]
      simp only [List.append_assoc]

/-- A character before the first mention, or before the tail. -/
def pushChar (chr : UInt8) : List Mention → Str → List Mention × Str
  | [], tail => ([], chr :: tail)
  | mention :: mentions, tail => (⟨chr :: mention.stretch, mention.nick⟩ :: mentions, tail)

theorem divides_pushChar_iff :
    Divides (pushChar chr mentions tail).1 (pushChar chr mentions tail).2 before nick after ↔
      ∃ behind, before = chr :: behind ∧ Divides mentions tail behind nick after := by
  cases mentions with
  | nil =>
      constructor
      · intro divides
        exact absurd divides not_divides_nil
      · rintro ⟨_, _, divides⟩
        exact absurd divides not_divides_nil
  | cons mention mentions =>
      rw [pushChar, divides_cons_iff]
      simp only [divides_cons_iff]
      constructor
      · rintro (⟨rfl, rfl, rfl⟩ | ⟨behind, rfl, divides⟩)
        · exact ⟨_, rfl, .inl ⟨rfl, rfl, rfl⟩⟩
        · exact ⟨_, rfl, .inr ⟨behind, rfl, divides⟩⟩
      · rintro ⟨_, rfl, ⟨rfl, rfl, rfl⟩ | ⟨behind, rfl, divides⟩⟩
        · exact .inl ⟨rfl, rfl, rfl⟩
        · exact .inr ⟨behind, rfl, divides⟩

theorem IsPartition.nil : IsPartition previous [] [] [] where
  isStr := rfl
  mentionAt_iff _ _ _ := iff_of_false not_mentionAt_nil not_divides_nil

theorem IsPartition.pushChar
    (none : ∀ nick after, ¬MentionAt previous (chr :: rest) [] nick after)
    (partition : IsPartition (some chr) rest mentions tail) :
    IsPartition previous (chr :: rest) (pushChar chr mentions tail).1
      (pushChar chr mentions tail).2 where
  isStr := by
    rw [partition.isStr]
    cases mentions <;> rfl
  mentionAt_iff before nick after := by
    rw [mentionAt_cons_iff none, divides_pushChar_iff]
    simp only [partition.mentionAt_iff]

theorem IsPartition.cons (here : MentionAt previous str [] nick after)
    (partition : IsPartition nick.getLast? after mentions tail) :
    IsPartition previous str (⟨[], nick⟩ :: mentions) tail where
  isStr := by
    rw [here.isStr, partition.isStr, mentionText_cons]
    simp only [List.append_assoc]
  mentionAt_iff before nick after := by
    rw [mentionAt_mention_iff here, divides_cons_iff, partition.isStr]
    simp only [partition.mentionAt_iff, ← partition.isStr]
    rfl

/-! ## Passes of the loop -/

/-- Characters are passed over. -/
def MentionState.passAll (state : MentionState) (run : Str) : MentionState :=
  { state with literal := state.literal ++ run, previous := run.getLast?.or state.previous }

variable {state : MentionState}

theorem MentionState.passAll_pass (chr : UInt8) (run : Str) :
    (state.pass chr).passAll run = state.passAll (chr :: run) := by
  rw [MentionState.passAll, MentionState.passAll, List.getLast?_cons]
  cases last : run.getLast? <;> simp [MentionState.pass]

theorem mentionLoop_nil : mentionLoop resolve escape state [] = state := by
  rw [mentionLoop]

theorem mentionLoop_of_ne (other : chr ≠ 64) :
    mentionLoop resolve escape state (chr :: rest) =
      mentionLoop resolve escape (state.pass chr) rest := by
  rw [mentionLoop, if_pos other]

/-- No mention starts within a nickname. -/
theorem mentionLoop_run {run : Str} (isRun : ∀ chr ∈ run, nickChar chr = true) :
    mentionLoop resolve escape state (run ++ rest) =
      mentionLoop resolve escape (state.passAll run) rest := by
  induction run generalizing state with
  | nil => simp [MentionState.passAll]
  | cons chr run ih =>
      have other : chr ≠ 64 := by
        rintro rfl
        cases isRun 64 List.mem_cons_self
      rw [List.cons_append, mentionLoop_of_ne other,
        ih fun chr mem => isRun chr (List.mem_cons_of_mem _ mem), MentionState.passAll_pass]

theorem mentionLoop_pass
    (none : ∀ nick after, ¬MentionAt state.previous (chr :: rest) [] nick after) :
    mentionLoop resolve escape state (chr :: rest) =
      mentionLoop resolve escape (state.pass chr) rest := by
  by_cases other : chr = 64
  · subst other
    rw [mentionLoop, if_neg (not_not.mpr rfl)]
    split_ifs with follows
    · rfl
    · by_cases empty : rest.takeWhile nickChar = []
      · exact if_pos empty
      · refine absurd ⟨?_, empty, fun chr mem => List.mem_takeWhile_imp mem, ?_, ?_⟩
          (none (rest.takeWhile nickChar) (rest.dropWhile nickChar))
        · rw [List.nil_append, List.cons_append, List.takeWhile_append_dropWhile]
        · intro chr mem
          rw [List.getLast?_nil, Option.none_or] at mem
          rw [mem] at follows
          exact Bool.not_eq_true _ ▸ follows
        · intro chr mem
          have notRun := List.head?_dropWhile_not nickChar rest
          rw [mem] at notRun
          exact notRun
  · exact mentionLoop_of_ne other

theorem MentionAt.not_any (here : MentionAt previous str [] nick after) :
    previous.any nickChar = false := by
  cases previous with
  | none => rfl
  | some chr => exact here.starts chr rfl

/-- A mention is replaced, or it becomes part of the literal. -/
theorem mentionLoop_mention (here : MentionAt state.previous str [] nick after) :
    mentionLoop resolve escape state str =
      mentionLoop resolve escape
        (if resolve nick = [] then (state.look nick).passAll (64 :: nick)
          else state.replace escape nick (resolve nick)) after := by
  have isStr : str = 64 :: (nick ++ after) := here.isStr
  rw [isStr, mentionLoop, if_neg (not_not.mpr rfl), here.not_any, if_neg Bool.false_ne_true,
    takeWhile_run here.run here.ends]
  simp only [if_neg here.nonempty, List.drop_left]
  split_ifs
  · rw [mentionLoop_run here.run, MentionState.passAll_pass]
  · rfl

theorem previous_passAll (nonempty : nick ≠ []) :
    (state.passAll (64 :: nick)).previous = nick.getLast? := by
  rw [MentionState.passAll, List.getLast?_cons, List.getLast?_eq_some_getLast nonempty]
  rfl

theorem rendered_pushChar (literal : Str) :
    rendered resolve escape literal (pushChar chr mentions tail).1 (pushChar chr mentions tail).2 =
      rendered resolve escape (literal ++ [chr]) mentions tail := by
  cases mentions <;> simp [pushChar, rendered]

/-- What the loop does from any place on. -/
theorem mentionLoop_spec (resolve escape : Str → Str) (state : MentionState) (str : Str) :
    ∃ mentions tail, IsPartition state.previous str mentions tail ∧
      (mentionLoop resolve escape state str).lookups =
        state.lookups ++ mentions.map Mention.nick ∧
      (mentionLoop resolve escape state str).out ++
          escape (mentionLoop resolve escape state str).literal =
        state.out ++ rendered resolve escape state.literal mentions tail := by
  induction length : str.length using Nat.strong_induction_on generalizing str state with
  | _ count ih =>
      subst length
      by_cases here : ∃ nick after, MentionAt state.previous str [] nick after
      · obtain ⟨nick, after, here⟩ := here
        have shorter : after.length < str.length := by
          rw [here.isStr, List.length_append, List.nil_append, List.length_cons]
          omega
        by_cases unknown : resolve nick = []
        · obtain ⟨mentions, tail, partition, isLookups, isOut⟩ :=
            ih _ shorter ((state.look nick).passAll (64 :: nick)) after rfl
          rw [previous_passAll here.nonempty] at partition
          refine ⟨_, tail, partition.cons here, ?_, ?_⟩
          · rw [mentionLoop_mention here, if_pos unknown, isLookups]
            simp [MentionState.passAll, MentionState.look]
          · rw [mentionLoop_mention here, if_pos unknown, isOut, rendered, if_pos unknown]
            simp [MentionState.passAll, MentionState.look]
        · obtain ⟨mentions, tail, partition, isLookups, isOut⟩ :=
            ih _ shorter (state.replace escape nick (resolve nick)) after rfl
          refine ⟨_, tail, partition.cons here, ?_, ?_⟩
          · rw [mentionLoop_mention here, if_neg unknown, isLookups]
            simp [MentionState.replace]
          · rw [mentionLoop_mention here, if_neg unknown, isOut, rendered, if_neg unknown]
            simp [MentionState.replace]
      · cases str with
        | nil =>
            refine ⟨[], [], .nil, ?_, ?_⟩
            · rw [mentionLoop_nil, List.map_nil, List.append_nil]
            · rw [mentionLoop_nil, rendered, List.append_nil]
        | cons chr rest =>
            simp only [not_exists] at here
            obtain ⟨mentions, tail, partition, isLookups, isOut⟩ :=
              ih _ (Nat.lt_succ_self _) (state.pass chr) rest rfl
            refine ⟨_, _, partition.pushChar here, ?_, ?_⟩
            · rw [mentionLoop_pass here, isLookups]
              cases mentions <;> rfl
            · rw [mentionLoop_pass here, isOut, rendered_pushChar]
              rfl

/-- The literals and the runs that are looked up partition a text, and what comes out is the escaped
literals and the replacements. -/
theorem expandMentions_partition (resolve escape : Str → Str) (str : Str) :
    ∃ mentions tail, IsPartition none str mentions tail ∧
      lookups resolve escape str = mentions.map Mention.nick ∧
      expandMentions resolve escape str = rendered resolve escape [] mentions tail := by
  obtain ⟨mentions, tail, partition, isLookups, isOut⟩ :=
    mentionLoop_spec resolve escape .start str
  exact ⟨mentions, tail, partition, isLookups, isOut⟩

end Anope.Bridge
