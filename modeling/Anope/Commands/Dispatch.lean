import Anope.Library.Keyed
import Anope.Text.Sepstream

/-!
# Dispatch of commands

`Command::Run` looks for the longest prefix of the words of a message that is the name of a command.
The other words are the parameters, and those that are too many are joined to the last one.
-/

namespace Anope.Commands

open Library.Split (Runs)
open Text (Casemap Sepstream)

/-! ## Commands and tables -/

/-- What `Run` reads of a command. -/
structure Command where
  name : Str
  maxParams : Nat
  deriving DecidableEq, Repr

/-- What `Run` reads of a `CommandInfo`. -/
structure CommandInfo where
  name : Str
  deriving DecidableEq, Repr

/-- An element of a `CommandInfo::map`. -/
structure CommandEntry where
  first : Str
  second : CommandInfo
  deriving DecidableEq, Repr

/-- The key of an element, which is compared in any letter case. -/
def CommandEntry.key (casemap : Casemap) (entry : CommandEntry) : Str :=
  casemap.ciStr entry.first

/-- `CommandInfo::map`. -/
structure CommandMap (casemap : Casemap) where
  entries : List CommandEntry
  distinct : (entries.map (CommandEntry.key casemap)).Nodup

/-- `commands.find`. -/
def CommandMap.find {casemap : Casemap} (commands : CommandMap casemap) (name : Str) :
    Option CommandEntry :=
  Library.Keyed.find (CommandEntry.key casemap) (casemap.ciStr name) commands.entries

/-! ## `Run` -/

/-- `full_command`. -/
def fullCommand (params : List Str) (max : Nat) : Str :=
  ((params.take max).foldl (fun command word => command ++ 32 :: word) []).tail

/-- The loop that looks for a command: the element and `count`. -/
def searchCommand (find : Str → Option CommandEntry) (params : List Str) :
    Nat → Nat → Option CommandEntry × Nat
  | 0, count => (none, count)
  | max + 1, count =>
      match find (fullCommand params (max + 1)) with
      | some it => (some it, count + 1)
      | none => searchCommand find params max (count + 1)

/-- The loop that joins what is too much. -/
def joinSurplus (maxParams : Nat) (params : List Str) : List Str :=
  if 0 < maxParams ∧ maxParams < params.length then
    joinSurplus maxParams
      ((params.modify (maxParams - 1) fun text => text ++ 32 :: params.getD maxParams []).eraseIdx
        maxParams)
  else params
  termination_by params.length
  decreasing_by
    rw [List.length_eraseIdx_of_lt (by rw [List.length_modify]; omega), List.length_modify]
    omega

/-- What becomes of a message. -/
inductive Outcome where
  /-- There is no such command. -/
  | unknown
  /-- The service of the command is not loaded. -/
  | missing (entry : CommandEntry)
  | run (entry : CommandEntry) (c : Command) (params : List Str)
  deriving DecidableEq, Repr

/-- `Command::Run`, given the services. -/
def run {casemap : Casemap} (services : Str → Option Command) (commands : CommandMap casemap)
    (message : Str) : Outcome :=
  let params := (Sepstream.new message 32 false).getTokens
  let (it, count) := searchCommand commands.find params params.length 0
  match it with
  | none => .unknown
  | some entry =>
      match services entry.second.name with
      | none => .missing entry
      | some c => .run entry c (joinSurplus c.maxParams (params.drop (params.length - (count - 1))))

/-! ## What is dispatched -/

/-- Words with single spaces between them. -/
def joined (words : List Str) : Str :=
  [32].intercalate words

/-- The first words are the name of a command, in any letter case. -/
structure Names (casemap : Casemap) (entry : CommandEntry) (words : List Str) (count : Nat) :
    Prop where
  positive : 0 < count
  within : count ≤ words.length
  same : casemap.ciStr entry.first = casemap.ciStr (joined (words.take count))

/-- No more words are the name of a command. -/
structure Longest {casemap : Casemap} (commands : CommandMap casemap) (words : List Str)
    (entry : CommandEntry) (count : Nat) : Prop where
  mem : entry ∈ commands.entries
  names : Names casemap entry words count
  longest : ∀ other ∈ commands.entries, ∀ more, Names casemap other words more → more ≤ count

/-- The words as parameters: the last one may be several words, and none is lost. -/
structure IsParams (maxParams : Nat) (words params : List Str) : Prop where
  separate : maxParams = 0 ∨ words.length ≤ maxParams → params = words
  surplus : 0 < maxParams → maxParams < words.length →
    params = words.take (maxParams - 1) ++ [joined (words.drop (maxParams - 1))]
  whole : joined params = joined words

/-- The longest command is run with the words behind its name. -/
inductive Dispatched {casemap : Casemap} (services : Str → Option Command)
    (commands : CommandMap casemap) (words : List Str) : Outcome → Prop
  | unknown : (∀ entry ∈ commands.entries, ∀ count, ¬Names casemap entry words count) →
      Dispatched services commands words .unknown
  | missing {entry count} : Longest commands words entry count →
      services entry.second.name = none → Dispatched services commands words (.missing entry)
  | run {entry count c params} : Longest commands words entry count →
      services entry.second.name = some c → IsParams c.maxParams (words.drop count) params →
      Dispatched services commands words (.run entry c params)

variable {casemap : Casemap} {services : Str → Option Command} {commands : CommandMap casemap}
  {words params front : List Str} {entry : CommandEntry} {max count : Nat}

/-! ## Joined words -/

theorem joined_cons (word : Str) (words : List Str) :
    joined (word :: words) = word ++ words.flatMap (32 :: ·) := by
  induction words generalizing word with
  | nil => simp [joined, List.intercalate_singleton]
  | cons next words ih =>
      have behind : joined (next :: words) = next ++ words.flatMap (32 :: ·) := ih next
      rw [joined, List.intercalate_cons_cons, ← joined, behind, List.flatMap_cons]
      simp

theorem foldl_words (command : Str) (words : List Str) :
    words.foldl (fun command word => command ++ 32 :: word) command =
      command ++ words.flatMap (32 :: ·) := by
  induction words generalizing command with
  | nil => simp
  | cons word words ih =>
      rw [List.foldl_cons, ih, List.flatMap_cons, List.append_assoc]

theorem fullCommand_eq (params : List Str) (max : Nat) :
    fullCommand params max = joined (params.take max) := by
  rw [fullCommand, foldl_words, List.nil_append]
  cases params.take max with
  | nil => rfl
  | cons word words =>
      rw [joined_cons, List.flatMap_cons]
      rfl

/-- Words that are joined are joined to the others as before. -/
theorem joined_append_joined (front : List Str) (word : Str) (words : List Str) :
    joined (front ++ [joined (word :: words)]) = joined (front ++ word :: words) := by
  cases front with
  | nil => exact joined_cons _ _ |>.trans (List.append_nil _)
  | cons first front =>
      rw [List.cons_append, joined_cons, List.cons_append, joined_cons, List.flatMap_append,
        joined_cons]
      simp

/-! ## Surplus parameters -/

theorem joinSurplus_of_not (fits : ¬(0 < max ∧ max < params.length)) :
    joinSurplus max params = params := by
  rw [joinSurplus, if_neg fits]

/-- One pass joins a parameter to the one before it. -/
theorem eraseIdx_modify (front : List Str) (last word : Str) (surplus : List Str)
    (join : Str → Str) :
    ((front ++ last :: word :: surplus).modify front.length join).eraseIdx (front.length + 1) =
      front ++ join last :: surplus := by
  induction front with
  | nil => rfl
  | cons first front ih => exact congrArg (first :: ·) ih

theorem joinSurplus_append (front : List Str) (last : Str) (surplus : List Str) :
    joinSurplus (front.length + 1) (front ++ last :: surplus) =
      front ++ [joined (last :: surplus)] := by
  induction surplus generalizing last with
  | nil =>
      rw [joinSurplus_of_not (by simp), joined_cons]
      simp
  | cons word surplus ih =>
      have isWord : (front ++ last :: word :: surplus).getD (front.length + 1) [] = word := by
        simp [List.getD]
      rw [joinSurplus, if_pos (by simp), Nat.add_sub_cancel, isWord, eraseIdx_modify, ih,
        joined_cons, joined_cons, List.flatMap_cons, List.append_assoc]

theorem isParams_joinSurplus (maxParams : Nat) (words : List Str) :
    IsParams maxParams words (joinSurplus maxParams words) := by
  by_cases much : 0 < maxParams ∧ maxParams < words.length
  · obtain ⟨positive, long⟩ := much
    have split : words = words.take (maxParams - 1) ++ words.drop (maxParams - 1) :=
      (List.take_append_drop _ _).symm
    have length : (words.take (maxParams - 1)).length + 1 = maxParams := by
      rw [List.length_take]
      omega
    cases isBehind : words.drop (maxParams - 1) with
    | nil =>
        have none := congrArg List.length isBehind
        rw [List.length_drop, List.length_nil] at none
        omega
    | cons last surplus =>
        have is : joinSurplus maxParams words =
            words.take (maxParams - 1) ++ [joined (last :: surplus)] := by
          calc joinSurplus maxParams words
              = joinSurplus ((words.take (maxParams - 1)).length + 1)
                  (words.take (maxParams - 1) ++ last :: surplus) := by
                rw [length, ← isBehind, ← split]
            _ = words.take (maxParams - 1) ++ [joined (last :: surplus)] :=
                joinSurplus_append _ last surplus
        refine ⟨fun few => absurd few (by omega), fun _ _ => ?_, ?_⟩
        · rw [is, isBehind]
        · rw [is, joined_append_joined, ← isBehind, ← split]
  · have is := joinSurplus_of_not much
    refine ⟨fun _ => is, fun positive long => absurd ⟨positive, long⟩ much, ?_⟩
    rw [is]

/-- Words make the same parameters in one way. -/
theorem IsParams.unique {maxParams : Nat} {params' : List Str}
    (isParams : IsParams maxParams words params) (isParams' : IsParams maxParams words params') :
    params = params' := by
  by_cases much : 0 < maxParams ∧ maxParams < words.length
  · rw [isParams.surplus much.1 much.2, isParams'.surplus much.1 much.2]
  · have few : maxParams = 0 ∨ words.length ≤ maxParams := by omega
    rw [isParams.separate few, isParams'.separate few]

/-! ## The search -/

theorem find_eq_some_iff {name : Str} : commands.find name = some entry ↔
    entry ∈ commands.entries ∧ casemap.ciStr entry.first = casemap.ciStr name := by
  rw [CommandMap.find]
  constructor
  · intro found
    have same : entry.key casemap = casemap.ciStr name := Library.Keyed.key_of_find found
    exact ⟨Library.Keyed.mem_of_find found, same⟩
  · rintro ⟨mem, same⟩
    rw [← same]
    exact Library.Keyed.find_of_mem commands.distinct mem

theorem find_eq_none_iff {name : Str} : commands.find name = none ↔
    ∀ entry ∈ commands.entries, casemap.ciStr entry.first ≠ casemap.ciStr name :=
  Library.Keyed.find_eq_none_iff

/-- The search goes down from the longest prefix, and counts what it tries. -/
theorem searchCommand_cases (commands : CommandMap casemap) (words : List Str)
    (within : max ≤ words.length) (count : Nat) :
    (∃ entry more, entry ∈ commands.entries ∧ Names casemap entry words more ∧ more ≤ max ∧
      (∀ other ∈ commands.entries, ∀ most, most ≤ max → Names casemap other words most →
        most ≤ more) ∧
      searchCommand commands.find words max count = (some entry, count + (max - more) + 1)) ∨
    ((∀ entry ∈ commands.entries, ∀ more, more ≤ max → ¬Names casemap entry words more) ∧
      (searchCommand commands.find words max count).1 = none) := by
  induction max generalizing count with
  | zero =>
      refine .inr ⟨fun entry _ more le names => ?_, rfl⟩
      exact Nat.not_lt.mpr le names.positive
  | succ max ih =>
      rw [searchCommand, fullCommand_eq]
      cases found : commands.find (joined (words.take (max + 1))) with
      | some entry =>
          obtain ⟨mem, same⟩ := find_eq_some_iff.mp found
          refine .inl ⟨entry, max + 1, mem, ⟨Nat.succ_pos max, within, same⟩, Nat.le_refl _,
            fun _ _ most le _ => le, ?_⟩
          simp
      | none =>
          have notHere : ∀ other ∈ commands.entries, ¬Names casemap other words (max + 1) :=
            fun other mem names => find_eq_none_iff.mp found other mem names.same
          have below {other : CommandEntry} (mem : other ∈ commands.entries) {most : Nat}
              (le : most ≤ max + 1) (names : Names casemap other words most) : most ≤ max := by
            rcases Nat.lt_or_eq_of_le le with less | rfl
            · exact Nat.le_of_lt_succ less
            · exact absurd names (notHere other mem)
          rcases ih (Nat.le_of_succ_le within) (count + 1) with
            ⟨entry, more, mem, names, le, longest, is⟩ | ⟨none, is⟩
          · refine .inl ⟨entry, more, mem, names, Nat.le_succ_of_le le,
              fun other mem most le names => longest other mem most (below mem le names) names, ?_⟩
            dsimp only
            rw [is]
            congr 1
            omega
          · refine .inr ⟨fun entry mem more le names => ?_, is⟩
            exact none entry mem more (below mem le names) names

/-! ## Dispatch -/

theorem Longest.unique {other : CommandEntry} {more : Nat}
    (longest : Longest commands words entry count) (longest' : Longest commands words other more) :
    entry = other ∧ count = more := by
  have sameCount : count = more :=
    Nat.le_antisymm (longest'.longest entry longest.mem count longest.names)
      (longest.longest other longest'.mem more longest'.names)
  subst sameCount
  have found := find_eq_some_iff.mpr ⟨longest.mem, longest.names.same⟩
  have found' := find_eq_some_iff.mpr ⟨longest'.mem, longest'.names.same⟩
  exact ⟨Option.some.inj (found.symm.trans found'), rfl⟩

theorem Dispatched.unique {outcome outcome' : Outcome}
    (dispatched : Dispatched services commands words outcome)
    (dispatched' : Dispatched services commands words outcome') : outcome = outcome' := by
  cases dispatched with
  | unknown none =>
      cases dispatched' with
      | unknown _ => rfl
      | missing longest _ => exact absurd longest.names (none _ longest.mem _)
      | run longest _ _ => exact absurd longest.names (none _ longest.mem _)
  | missing longest missing =>
      cases dispatched' with
      | unknown none => exact absurd longest.names (none _ longest.mem _)
      | missing longest' _ => rw [(longest.unique longest').1]
      | run longest' loaded _ =>
          rw [(longest.unique longest').1, loaded] at missing
          cases missing
  | run longest loaded isParams =>
      cases dispatched' with
      | unknown none => exact absurd longest.names (none _ longest.mem _)
      | missing longest' missing =>
          rw [(longest.unique longest').1, missing] at loaded
          cases loaded
      | run longest' loaded' isParams' =>
          obtain ⟨rfl, rfl⟩ := longest.unique longest'
          cases Option.some.inj (loaded.symm.trans loaded')
          rw [isParams.unique isParams']

theorem run_dispatched {message : Str} (services : Str → Option Command)
    (commands : CommandMap casemap) (runs : Runs 32 message words) :
    Dispatched services commands words (run services commands message) := by
  rw [run, Sepstream.getTokens_new, runs.tokens_eq]
  rcases searchCommand_cases commands words (Nat.le_refl words.length) 0 with
    ⟨entry, count, mem, names, _, longest, is⟩ | ⟨none, is⟩
  · have isLongest : Longest commands words entry count :=
      ⟨mem, names, fun other mem more names => longest other mem more names.within names⟩
    have behind : words.length - (0 + (words.length - count) + 1 - 1) = count := by
      have within := names.within
      omega
    simp only [is, behind]
    cases loaded : services entry.second.name with
    | none => exact .missing isLongest loaded
    | some c => exact .run isLongest loaded (isParams_joinSurplus _ _)
  · simp only [is]
    exact .unknown fun entry mem count names => none entry mem count names.within names

/-- A message is dispatched to the longest command that its words name, and the words behind it are
the parameters. -/
theorem run_eq_iff_dispatched {casemap : Casemap} (services : Str → Option Command)
    (commands : CommandMap casemap) (message : Str) (outcome : Outcome) :
    run services commands message = outcome ↔
      ∃ words, Runs 32 message words ∧ Dispatched services commands words outcome := by
  constructor
  · rintro rfl
    have runs := Sepstream.runs_getTokens_new message 32
    exact ⟨_, runs, run_dispatched services commands runs⟩
  · rintro ⟨words, runs, dispatched⟩
    exact (run_dispatched services commands runs).unique dispatched

end Anope.Commands
