import Mathlib.Data.List.Induction
import Mathlib.Data.List.Nodup
import Mathlib.Order.Basic
import Mathlib.Tactic.Common

/-!
# Bounded maps in order of insertion

A map that holds a bounded number of keys.  A key that is put in when the map is full
takes the place of the one that has been in it for the longest time; a key that is there
keeps its age when its value is replaced, and one that was taken out has no age.
-/

namespace Library.Fifo

universe u v

variable {κ : Type u} {ν : Type v}

/-- An element: its key, the time at which the key was put in, and its value. -/
structure Held (κ : Type u) (ν : Type v) where
  key : κ
  born : Nat
  value : ν

/-- What changes the map. -/
inductive Call (κ : Type u) (ν : Type v) where
  | remember (key : κ) (value : ν)
  | forget (key : κ)

/-- The youngest elements, as many as there is room for. -/
def newest (capacity : Nat) (held : List (Held κ ν)) : List (Held κ ν) :=
  held.filter fun entry => decide (held.countP (fun other => entry.born < other.born) < capacity)

/-- In order of age, the youngest elements are the last ones. -/
theorem newest_eq_drop (capacity : Nat) {held : List (Held κ ν)}
    (aged : held.Pairwise fun older younger => older.born < younger.born) :
    newest capacity held = held.drop (held.length - capacity) := by
  induction held with
  | nil => exact List.drop_nil.symm
  | cons entry held ih =>
      obtain ⟨younger, aged⟩ := List.pairwise_cons.mp aged
      have older : (entry :: held).countP (fun other => entry.born < other.born) = held.length := by
        rw [List.countP_cons_of_neg (by simp), List.countP_eq_length]
        exact fun other mem => decide_eq_true (younger other mem)
      have rest : (held.filter fun element => decide
            ((entry :: held).countP (fun other => element.born < other.born) < capacity)) =
          newest capacity held := by
        refine List.filter_congr fun element mem => ?_
        rw [List.countP_cons_of_neg (by simpa using Nat.le_of_lt (younger element mem))]
      rw [newest, List.filter_cons, older, rest, ih aged, List.length_cons]
      by_cases room : held.length < capacity
      · rw [if_pos (decide_eq_true room), Nat.sub_eq_zero_of_le (Nat.le_of_lt room),
          Nat.sub_eq_zero_of_le room, List.drop_zero, List.drop_zero]
      · rw [if_neg (by simpa using room), Nat.succ_sub (Nat.le_of_not_lt room), List.drop_succ_cons]

variable [DecidableEq κ]

/-- The element of a key. -/
def find (key : κ) (held : List (Held κ ν)) : Option ν :=
  (held.find? fun entry => entry.key = key).map Held.value

/-- What a call makes of the map. -/
def step (capacity now : Nat) (held : List (Held κ ν)) : Call κ ν → List (Held κ ν)
  | .remember key value =>
      if key ∈ held.map Held.key then
        held.map fun entry => if entry.key = key then { entry with value := value } else entry
      else newest capacity (held ++ [⟨key, now, value⟩])
  | .forget key => held.filter fun entry => entry.key ≠ key

/-- What calls make of a map; the first one is made at the given time. -/
def runFrom (capacity : Nat) : Nat → List (Held κ ν) → List (Call κ ν) → List (Held κ ν)
  | _, held, [] => held
  | now, held, call :: calls => runFrom capacity (now + 1) (step capacity now held call) calls

/-- What calls make of the empty map. -/
def run (capacity : Nat) (calls : List (Call κ ν)) : List (Held κ ν) :=
  runFrom capacity 0 [] calls

theorem runFrom_concat (capacity now : Nat) (held : List (Held κ ν)) (calls : List (Call κ ν))
    (call : Call κ ν) :
    runFrom capacity now held (calls ++ [call]) =
      step capacity (now + calls.length) (runFrom capacity now held calls) call := by
  induction calls generalizing now held with
  | nil => rfl
  | cons first calls ih =>
      rw [List.cons_append, runFrom, ih, runFrom, List.length_cons, Nat.add_assoc, Nat.add_comm 1]

theorem run_concat (capacity : Nat) (calls : List (Call κ ν)) (call : Call κ ν) :
    run capacity (calls ++ [call]) = step capacity calls.length (run capacity calls) call := by
  rw [run, runFrom_concat, Nat.zero_add, run]

/-! ## The shape of a map -/

/-- The elements are in the order of their ages, with different keys, and not too many. -/
structure Sound (capacity now : Nat) (held : List (Held κ ν)) : Prop where
  aged : held.Pairwise fun older younger => older.born < younger.born
  past : ∀ entry ∈ held, entry.born < now
  distinct : (held.map Held.key).Nodup
  bounded : held.length ≤ capacity

section Step

variable {capacity now : Nat} {held : List (Held κ ν)}

/-- A new key, when there is room for it. -/
theorem step_remember_of_room (sound : Sound capacity now held) {key : κ}
    (new : key ∉ held.map Held.key) (room : held.length < capacity) (value : ν) :
    step capacity now held (.remember key value) = held ++ [⟨key, now, value⟩] := by
  have aged : (held ++ [(⟨key, now, value⟩ : Held κ ν)]).Pairwise
      fun older younger => older.born < younger.born :=
    List.pairwise_append.mpr ⟨sound.aged, List.pairwise_singleton _ _, fun entry mem other isNew =>
      List.mem_singleton.mp isNew ▸ sound.past entry mem⟩
  rw [step, if_neg new, newest_eq_drop capacity aged, List.length_append, List.length_singleton,
    Nat.sub_eq_zero_of_le room, List.drop_zero]

/-- A new key, when it takes the place of the oldest one. -/
theorem step_remember_of_full {oldest : Held κ ν} (sound : Sound capacity now (oldest :: held))
    {key : κ} (new : key ∉ (oldest :: held).map Held.key)
    (full : (oldest :: held).length = capacity) (value : ν) :
    step capacity now (oldest :: held) (.remember key value) = held ++ [⟨key, now, value⟩] := by
  have aged : (oldest :: held ++ [(⟨key, now, value⟩ : Held κ ν)]).Pairwise
      fun older younger => older.born < younger.born :=
    List.pairwise_append.mpr ⟨sound.aged, List.pairwise_singleton _ _, fun entry mem other isNew =>
      List.mem_singleton.mp isNew ▸ sound.past entry mem⟩
  rw [step, if_neg new, newest_eq_drop capacity aged, List.length_append, full,
    List.length_singleton, Nat.add_sub_cancel_left, List.cons_append, List.drop_one,
    List.tail_cons]

omit [DecidableEq κ] in
/-- A sound map has room, or it is full and has an oldest element. -/
theorem room_or_full (positive : 0 < capacity) (bounded : held.length ≤ capacity) :
    held.length < capacity ∨
      ∃ oldest younger, held = oldest :: younger ∧ (oldest :: younger).length = capacity := by
  rcases Nat.lt_or_eq_of_le bounded with room | full
  · exact .inl room
  · cases held with
    | nil => exact absurd full (Nat.ne_of_lt positive)
    | cons oldest younger => exact .inr ⟨oldest, younger, rfl, full⟩

theorem Sound.step (positive : 0 < capacity) (sound : Sound capacity now held)
    (call : Call κ ν) : Sound capacity (now + 1) (step capacity now held call) := by
  have later : ∀ entry ∈ held, entry.born < now + 1 := fun entry mem =>
    Nat.lt_succ_of_lt (sound.past entry mem)
  cases call with
  | forget key =>
      exact ⟨sound.aged.filter _, fun entry mem => later entry (List.mem_of_mem_filter mem),
        sound.distinct.sublist (List.filter_sublist.map _),
        Nat.le_trans (List.length_filter_le _ _) sound.bounded⟩
  | remember key value =>
      by_cases known : key ∈ held.map Held.key
      · rw [Fifo.step, if_pos known]
        have keeps : ∀ entry : Held κ ν,
            (if entry.key = key then { entry with value := value } else entry).born = entry.born ∧
              (if entry.key = key then { entry with value := value } else entry).key =
                entry.key := by
          intro entry
          split <;> exact ⟨rfl, rfl⟩
        refine ⟨List.pairwise_map.mpr (sound.aged.imp fun {older younger} before => ?_), ?_, ?_, ?_⟩
        · rwa [(keeps older).1, (keeps younger).1]
        · intro entry mem
          obtain ⟨old, isOld, rfl⟩ := List.mem_map.mp mem
          rw [(keeps old).1]
          exact later old isOld
        · rw [List.map_map]
          exact (List.map_congr_left fun entry _ => (keeps entry).2) ▸ sound.distinct
        · rw [List.length_map]
          exact sound.bounded
      · have appended : ∀ rest : List (Held κ ν), rest.Sublist held → rest.length < capacity →
            Sound capacity (now + 1) (rest ++ [⟨key, now, value⟩]) := by
          intro rest part room
          refine ⟨?_, ?_, ?_, ?_⟩
          · refine List.pairwise_append.mpr
              ⟨sound.aged.sublist part, List.pairwise_singleton _ _, fun entry mem other isNew => ?_⟩
            exact List.mem_singleton.mp isNew ▸ sound.past entry (part.subset mem)
          · intro entry mem
            rcases List.mem_append.mp mem with mem | isNew
            · exact later entry (part.subset mem)
            · exact List.mem_singleton.mp isNew ▸ Nat.lt_succ_self now
          · rw [List.map_append, List.nodup_append]
            refine ⟨sound.distinct.sublist (part.map _), List.nodup_singleton _, ?_⟩
            rintro other mem _ isNew rfl
            rw [List.map_singleton, List.mem_singleton] at isNew
            subst isNew
            exact known ((part.map _).subset mem)
          · rw [List.length_append, List.length_singleton]
            exact room
        rcases room_or_full positive sound.bounded with room | ⟨oldest, younger, rfl, full⟩
        · rw [step_remember_of_room sound known room]
          exact appended held (List.Sublist.refl _) room
        · rw [step_remember_of_full sound known full]
          refine appended younger (List.sublist_cons_self _ _) ?_
          rw [← full, List.length_cons]
          exact Nat.lt_succ_self _

end Step

/-- Every run leaves a sound map. -/
theorem sound_run {capacity : Nat} (positive : 0 < capacity) (calls : List (Call κ ν)) :
    Sound capacity calls.length (run capacity calls) := by
  induction calls using List.reverseRecOn with
  | nil => exact ⟨.nil, fun _ mem => (nomatch mem), .nil, Nat.zero_le _⟩
  | append_singleton calls call ih =>
      rw [run_concat, List.length_append, List.length_singleton]
      exact ih.step positive call

/-! ## Finding -/

section Find

variable {held : List (Held κ ν)} {key : κ}

theorem find_eq_none_iff : find key held = none ↔ key ∉ held.map Held.key := by
  rw [find, Option.map_eq_none_iff, List.find?_eq_none, List.mem_map, not_exists]
  exact forall_congr' fun entry => by simp

theorem find_map_set (value : ν) (other : κ) :
    find other (held.map fun entry =>
        if entry.key = key then { entry with value := value } else entry) =
      if other = key then (find other held).map fun _ => value else find other held := by
  have keeps : ((fun entry : Held κ ν => decide (entry.key = other)) ∘ fun entry =>
      if entry.key = key then { entry with value := value } else entry) =
        fun entry => decide (entry.key = other) := by
    funext entry
    rw [Function.comp_apply]
    split <;> rfl
  rw [find, List.find?_map, keeps, find]
  cases found : held.find? fun entry => decide (entry.key = other) with
  | none => split <;> rfl
  | some entry =>
      have isOther : entry.key = other := by simpa using List.find?_some found
      rw [Option.map_some, Option.map_some, Option.map_some, isOther]
      split <;> rfl

theorem find_concat (new : key ∉ held.map Held.key) (now : Nat) (value : ν) (other : κ) :
    find other (held ++ [⟨key, now, value⟩]) =
      if other = key then some value else find other held := by
  rw [find, List.find?_append]
  by_cases same : other = key
  · subst same
    have absent := Option.map_eq_none_iff.mp (find_eq_none_iff.mpr new)
    rw [absent, if_pos rfl, Option.none_or, List.find?_singleton, if_pos (decide_eq_true rfl)]
    rfl
  · rw [if_neg same, List.find?_singleton, if_neg (by simpa using Ne.symm same), Option.or_none]
    rfl

theorem find_tail {oldest : Held κ ν} (distinct : ((oldest :: held).map Held.key).Nodup)
    (other : κ) :
    find other held = if other = oldest.key then none else find other (oldest :: held) := by
  by_cases same : other = oldest.key
  · rw [if_pos same, find_eq_none_iff, same]
    exact (List.nodup_cons.mp distinct).1
  · rw [if_neg same, find, find, List.find?_cons_of_neg]
    simpa using Ne.symm same

theorem find_filter (other : κ) :
    find other (held.filter fun entry => entry.key ≠ key) =
      if other = key then none else find other held := by
  by_cases same : other = key
  · rw [if_pos same, find_eq_none_iff, same]
    simp
  · rw [if_neg same, find, find, List.find?_filter]
    refine congrArg (fun test => (held.find? test).map Held.value) (funext fun entry => ?_)
    by_cases isOther : entry.key = other
    · simp [isOther, same]
    · simp [isOther]

end Find

/-! ## What the elements stand for -/

/-- The value that a call remembers for a key. -/
def Call.valueFor (key : κ) : Call κ ν → Option ν
  | .remember other value => if other = key then some value else none
  | .forget _ => none

/-- The value that was last remembered for a key. -/
def lastValue (key : κ) (calls : List (Call κ ν)) : Option ν :=
  (calls.filterMap (Call.valueFor key)).getLast?

theorem lastValue_concat (key : κ) (calls : List (Call κ ν)) (call : Call κ ν) :
    lastValue key (calls ++ [call]) = (call.valueFor key).or (lastValue key calls) := by
  rw [lastValue, List.filterMap_append, List.getLast?_append, lastValue]
  cases remembered : call.valueFor key with
  | none => rw [List.filterMap_cons_none remembered]; rfl
  | some value => rw [List.filterMap_cons_some remembered]; rfl

/-- The calls put an element in, when its key was not in the map, and did not take it out
since then; its value is the one that was last remembered. -/
structure Stands (capacity : Nat) (calls : List (Call κ ν)) (entry : Held κ ν) : Prop where
  putIn : ∃ before value after, calls = before ++ .remember entry.key value :: after ∧
    before.length = entry.born ∧ entry.key ∉ (run capacity before).map Held.key ∧
      Call.forget entry.key ∉ after
  latest : lastValue entry.key calls = some entry.value

theorem Stands.concat {capacity : Nat} {calls : List (Call κ ν)} {entry : Held κ ν}
    (stands : Stands capacity calls entry) {call : Call κ ν} (kept : call ≠ .forget entry.key)
    (value : ν) (latest : (call.valueFor entry.key).or (some entry.value) = some value) :
    Stands capacity (calls ++ [call]) { entry with value := value } := by
  obtain ⟨⟨before, first, after, rfl, born, new, stays⟩, last⟩ := stands
  refine ⟨⟨before, first, after ++ [call], ?_, born, new, ?_⟩, ?_⟩
  · rw [List.append_assoc, List.cons_append]
  · rw [List.mem_append, List.mem_singleton, not_or]
    exact ⟨stays, kept.symm⟩
  · rw [lastValue_concat, last, latest]

/-- Every element of the map stands for what the calls did. -/
theorem stands_of_mem_run {capacity : Nat} (positive : 0 < capacity)
    (calls : List (Call κ ν)) : ∀ entry ∈ run capacity calls, Stands capacity calls entry := by
  induction calls using List.reverseRecOn with
  | nil => exact fun _ mem => nomatch mem
  | append_singleton calls call ih =>
      have sound := sound_run positive calls
      intro entry mem
      rw [run_concat] at mem
      cases call with
      | forget key =>
          rw [step, List.mem_filter, decide_eq_true_eq] at mem
          exact (ih entry mem.1).concat (fun is => mem.2 (Call.forget.inj is).symm) entry.value rfl
      | remember key value =>
          have keeps : ∀ old : Held κ ν, Call.remember key value ≠ .forget old.key :=
            fun _ is => nomatch is
          by_cases known : key ∈ (run capacity calls).map Held.key
          · rw [step, if_pos known, List.mem_map] at mem
            obtain ⟨old, isOld, rfl⟩ := mem
            by_cases same : old.key = key
            · rw [if_pos same]
              refine (ih old isOld).concat (keeps old) value ?_
              rw [Call.valueFor, if_pos same.symm]
              rfl
            · rw [if_neg same]
              refine (ih old isOld).concat (keeps old) old.value ?_
              rw [Call.valueFor, if_neg (Ne.symm same)]
              rfl
          · have old_or_new : entry ∈ run capacity calls ∨ entry = ⟨key, calls.length, value⟩ := by
              rw [step, if_neg known] at mem
              exact (List.mem_append.mp (List.mem_of_mem_filter mem)).imp_right
                List.mem_singleton.mp
            rcases old_or_new with isOld | rfl
            · have differs : key ≠ entry.key := fun same =>
                known (same ▸ List.mem_map_of_mem isOld)
              refine (ih entry isOld).concat (keeps entry) entry.value ?_
              rw [Call.valueFor, if_neg differs]
              rfl
            · refine ⟨⟨calls, value, [], rfl, rfl, known, List.not_mem_nil⟩, ?_⟩
              rw [lastValue_concat, Call.valueFor, if_pos rfl]
              rfl

end Library.Fifo
