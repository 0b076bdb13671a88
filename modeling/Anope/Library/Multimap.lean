import Mathlib.Data.List.Lex
import Mathlib.Data.List.Basic
import Mathlib.Order.Lattice
import Mathlib.Tactic.Common

/-!
# Sorted multimaps

A `std::multimap` as the list of its elements in key order.  A new element goes
behind the elements of the same key, so the elements of one key stay in the
order of their insertion.  The operations are described by what they do to the
elements of each key.
-/

namespace Library

universe u v w

/-- The elements of a multimap, sorted by key. -/
structure Multimap (κ : Type u) (ν : Type v) [LinearOrder κ] where
  entries : List (κ × ν)
  sorted : entries.Pairwise fun left right => left.1 ≤ right.1

/-- Where a test passes at most once, erasing the first element that passes it
erases all of them. -/
theorem eraseP_eq_filter {α : Type u} {test : α → Bool} {list : List α}
    (once : list.Pairwise fun left right => test left = true → test right = false) :
    list.eraseP test = list.filter fun element => !test element := by
  induction list with
  | nil => rfl
  | cons element list ih =>
      obtain ⟨first, rest⟩ := List.pairwise_cons.mp once
      by_cases passes : test element = true
      · rw [List.eraseP_cons_of_pos passes, List.filter_cons_of_neg (by simp [passes]), eq_comm,
          List.filter_eq_self]
        intro other mem
        rw [first other mem passes]
        rfl
      · rw [List.eraseP_cons_of_neg passes, List.filter_cons_of_pos (by simp [passes]), ih rest]

namespace Multimap

variable {κ : Type u} {ν : Type v} [LinearOrder κ]

/-- The multimap without elements. -/
def empty : Multimap κ ν where
  entries := []
  sorted := .nil

/-- The values of one key in order. -/
def equalRange (map : Multimap κ ν) (key : κ) : List ν :=
  (map.entries.filter fun entry => entry.1 = key).map Prod.snd

/-- The number of elements of one key. -/
def count (map : Multimap κ ν) (key : κ) : Nat :=
  (map.equalRange key).length

/-- Keys that do not exceed a given one come first in a sorted list. -/
theorem sorted_insert {entries : List (κ × ν)}
    (sorted : entries.Pairwise fun left right => left.1 ≤ right.1) (key : κ) (value : ν) :
    (entries.takeWhile (fun entry => entry.1 ≤ key) ++
      (key, value) :: entries.dropWhile (fun entry => entry.1 ≤ key)).Pairwise
        fun left right => left.1 ≤ right.1 := by
  induction entries with
  | nil => simp
  | cons entry entries ih =>
      obtain ⟨first, rest⟩ := List.pairwise_cons.mp sorted
      by_cases before : entry.1 ≤ key
      · rw [List.takeWhile_cons_of_pos (by simpa using before),
          List.dropWhile_cons_of_pos (by simpa using before), List.cons_append]
        refine List.Pairwise.cons ?_ (ih rest)
        intro other otherMem
        rcases List.mem_append.mp otherMem with taken | dropped
        · exact first other ((List.takeWhile_prefix _).subset taken)
        · rcases List.mem_cons.mp dropped with rfl | dropped
          · exact before
          · exact first other ((List.dropWhile_suffix _).subset dropped)
      · rw [List.takeWhile_cons_of_neg (by simpa using before),
          List.dropWhile_cons_of_neg (by simpa using before), List.nil_append]
        refine List.Pairwise.cons ?_ sorted
        intro other otherMem
        rcases List.mem_cons.mp otherMem with rfl | otherMem
        · exact (le_of_not_ge before)
        · exact (le_of_not_ge before).trans (first other otherMem)

/-- `emplace`: insertion behind the elements of the same key. -/
def emplace (map : Multimap κ ν) (key : κ) (value : ν) : Multimap κ ν where
  entries := map.entries.takeWhile (fun entry => entry.1 ≤ key) ++
    (key, value) :: map.entries.dropWhile (fun entry => entry.1 ≤ key)
  sorted := sorted_insert map.sorted key value

/-- `erase(key)`. -/
def eraseKey (map : Multimap κ ν) (key : κ) : Multimap κ ν where
  entries := map.entries.filter fun entry => entry.1 ≠ key
  sorted := map.sorted.filter _

/-- Erase the first element of a key that passes a test. -/
def eraseFirst (map : Multimap κ ν) (key : κ) (test : ν → Bool) : Multimap κ ν where
  entries := map.entries.eraseP fun entry => decide (entry.1 = key) && test entry.2
  sorted := map.sorted.sublist List.eraseP_sublist

/-- `emplace` adds one element. -/
theorem perm_emplace (map : Multimap κ ν) (key : κ) (value : ν) :
    (map.emplace key value).entries.Perm ((key, value) :: map.entries) := by
  refine List.perm_middle.trans (.cons _ ?_)
  rw [List.takeWhile_append_dropWhile]

/-- Where a test passes at one element of a key at most, erasing the first
erases just that one. -/
theorem mem_eraseFirst_iff {map : Multimap κ ν} {key : κ} {test : ν → Bool}
    (once : map.entries.Pairwise fun left right => test left.2 = true → test right.2 = false)
    {entry : κ × ν} :
    entry ∈ (map.eraseFirst key test).entries ↔
      entry ∈ map.entries ∧ ¬(entry.1 = key ∧ test entry.2 = true) := by
  have atMostOnce : map.entries.Pairwise fun left right =>
      (decide (left.1 = key) && test left.2) = true →
        (decide (right.1 = key) && test right.2) = false := by
    refine once.imp fun other passes => ?_
    rw [Bool.and_eq_true] at passes
    rw [other passes.2, Bool.and_false]
  have erased : (map.eraseFirst key test).entries = map.entries.filter fun entry =>
      !(decide (entry.1 = key) && test entry.2) := eraseP_eq_filter atMostOnce
  rw [erased]
  simp [imp_iff_not_or]

/-- Behind `erase(key)` there is nothing of the key left to erase. -/
theorem eraseFirst_eraseKey (map : Multimap κ ν) (key : κ) (test : ν → Bool) :
    (map.eraseKey key).eraseFirst key test = map.eraseKey key := by
  have none : ∀ entry ∈ (map.eraseKey key).entries,
      ¬(decide (entry.1 = key) && test entry.2) = true := by
    intro entry mem
    have different := (List.mem_filter.mp mem).2
    simp only [ne_eq, decide_not, Bool.not_eq_true', decide_eq_false_iff_not] at different
    simp [different]
  unfold eraseFirst
  congr 1
  exact List.eraseP_of_forall_not none

theorem mem_eraseKey_iff {map : Multimap κ ν} {key : κ} {entry : κ × ν} :
    entry ∈ (map.eraseKey key).entries ↔ entry ∈ map.entries ∧ entry.1 ≠ key := by
  simp [eraseKey]

theorem mem_equalRange_iff {map : Multimap κ ν} {key : κ} {value : ν} :
    value ∈ map.equalRange key ↔ (key, value) ∈ map.entries := by
  simp [equalRange]

theorem filter_dropWhile_le {entries : List (κ × ν)}
    (sorted : entries.Pairwise fun left right => left.1 ≤ right.1) (key : κ) :
    (entries.dropWhile fun entry => entry.1 ≤ key).filter (fun entry => entry.1 = key) = [] := by
  induction entries with
  | nil => rfl
  | cons entry entries ih =>
      obtain ⟨first, rest⟩ := List.pairwise_cons.mp sorted
      by_cases before : entry.1 ≤ key
      · rw [List.dropWhile_cons_of_pos (by simpa using before)]
        exact ih rest
      · rw [List.dropWhile_cons_of_neg (by simpa using before), List.filter_eq_nil_iff]
        intro other otherMem
        have beyond : key < other.1 := by
          rcases List.mem_cons.mp otherMem with rfl | otherMem
          · exact lt_of_not_ge before
          · exact (lt_of_not_ge before).trans_le (first other otherMem)
        simpa using beyond.ne'

@[simp]
theorem equalRange_emplace_self (map : Multimap κ ν) (key : κ) (value : ν) :
    (map.emplace key value).equalRange key = map.equalRange key ++ [value] := by
  have dropped := filter_dropWhile_le map.sorted key
  have taken : (map.entries.takeWhile fun entry => entry.1 ≤ key).filter
      (fun entry => entry.1 = key) = map.entries.filter fun entry => entry.1 = key := by
    conv_rhs => rw [← List.takeWhile_append_dropWhile
      (p := fun entry => decide (entry.1 ≤ key)) (l := map.entries)]
    rw [List.filter_append, dropped, List.append_nil]
  simp [equalRange, emplace, List.filter_append, dropped, taken]

theorem equalRange_emplace_of_ne (map : Multimap κ ν) {key other : κ} (value : ν)
    (different : key ≠ other) :
    (map.emplace key value).equalRange other = map.equalRange other := by
  simp only [equalRange, emplace, List.filter_append]
  rw [List.filter_cons_of_neg (by simpa using different), ← List.filter_append,
    List.takeWhile_append_dropWhile]

@[simp]
theorem equalRange_eraseKey_self (map : Multimap κ ν) (key : κ) :
    (map.eraseKey key).equalRange key = [] := by
  simp [equalRange, eraseKey, List.filter_filter]

theorem equalRange_eraseKey_of_ne (map : Multimap κ ν) {key other : κ} (different : key ≠ other) :
    (map.eraseKey key).equalRange other = map.equalRange other := by
  simp only [equalRange, eraseKey, List.filter_filter]
  congr 2
  funext entry
  by_cases atOther : entry.1 = other
  · simp [atOther, Ne.symm different]
  · simp [atOther]

theorem filter_eraseP_self (entries : List (κ × ν)) (key : κ) (test : ν → Bool) :
    ((entries.eraseP fun entry => decide (entry.1 = key) && test entry.2).filter
        fun entry => entry.1 = key).map Prod.snd =
      ((entries.filter fun entry => entry.1 = key).map Prod.snd).eraseP test := by
  induction entries with
  | nil => rfl
  | cons entry entries ih =>
      by_cases atKey : entry.1 = key
      · by_cases passes : test entry.2 = true
        · simp [atKey, passes]
        · simp [atKey, passes, ih]
      · simp [atKey, ih]

@[simp]
theorem equalRange_eraseFirst_self (map : Multimap κ ν) (key : κ) (test : ν → Bool) :
    (map.eraseFirst key test).equalRange key = (map.equalRange key).eraseP test :=
  filter_eraseP_self map.entries key test

theorem filter_eraseP_of_ne (entries : List (κ × ν)) {key other : κ} (test : ν → Bool)
    (different : key ≠ other) :
    ((entries.eraseP fun entry => decide (entry.1 = key) && test entry.2).filter
        fun entry => entry.1 = other) = entries.filter fun entry => entry.1 = other := by
  induction entries with
  | nil => rfl
  | cons entry entries ih =>
      by_cases atKey : entry.1 = key
      · have notOther : entry.1 ≠ other := atKey ▸ different
        by_cases passes : test entry.2 = true
        · simp [atKey, passes, different]
        · simp [atKey, passes, different, ih]
      · by_cases atOther : entry.1 = other <;> simp [atKey, atOther, Ne.symm different, ih]

theorem equalRange_eraseFirst_of_ne (map : Multimap κ ν) {key other : κ} (test : ν → Bool)
    (different : key ≠ other) :
    (map.eraseFirst key test).equalRange other = map.equalRange other := by
  simp only [equalRange, eraseFirst, filter_eraseP_of_ne map.entries test different]

/-- Sorted elements are determined by the elements of each key. -/
theorem sorted_unique {entries entries' : List (κ × ν)}
    (sorted : entries.Pairwise fun left right => left.1 ≤ right.1)
    (sorted' : entries'.Pairwise fun left right => left.1 ≤ right.1)
    (same : ∀ key, entries.filter (fun entry => entry.1 = key) =
      entries'.filter fun entry => entry.1 = key) : entries = entries' := by
  induction entries generalizing entries' with
  | nil =>
      cases entries' with
      | nil => rfl
      | cons entry' entries' =>
          have found := same entry'.1
          rw [List.filter_nil, List.filter_cons_of_pos (by simp)] at found
          cases found
  | cons entry entries ih =>
      obtain ⟨least, rest⟩ := List.pairwise_cons.mp sorted
      -- The first key of each list is in the other one, so neither is less.
      have mem : entry ∈ entries' := by
        have found : entry ∈ (entry :: entries).filter fun other => other.1 = entry.1 :=
          List.mem_filter.mpr ⟨List.mem_cons_self, decide_eq_true rfl⟩
        rw [same entry.1] at found
        exact (List.mem_filter.mp found).1
      cases entries' with
      | nil => cases mem
      | cons entry' entries' =>
          obtain ⟨least', rest'⟩ := List.pairwise_cons.mp sorted'
          have mem' : entry' ∈ entry :: entries := by
            have found : entry' ∈ (entry' :: entries').filter fun other => other.1 = entry'.1 :=
              List.mem_filter.mpr ⟨List.mem_cons_self, decide_eq_true rfl⟩
            rw [← same entry'.1] at found
            exact (List.mem_filter.mp found).1
          have atMost : entry'.1 ≤ entry.1 := by
            rcases List.mem_cons.mp mem with rfl | later
            · exact le_rfl
            · exact least' entry later
          have atLeast : entry.1 ≤ entry'.1 := by
            rcases List.mem_cons.mp mem' with rfl | later
            · exact le_rfl
            · exact least entry' later
          have sameKey : entry'.1 = entry.1 := le_antisymm atMost atLeast
          have first : entry = entry' := by
            have heads := same entry.1
            rw [List.filter_cons_of_pos (by simp),
              List.filter_cons_of_pos (by simpa using sameKey)] at heads
            exact (List.cons.inj heads).1
          subst first
          rw [ih rest rest']
          intro key
          have both := same key
          by_cases atKey : entry.1 = key
          · rw [List.filter_cons_of_pos (by simpa using atKey),
              List.filter_cons_of_pos (by simpa using atKey)] at both
            exact (List.cons.inj both).2
          · rwa [List.filter_cons_of_neg (by simpa using atKey),
              List.filter_cons_of_neg (by simpa using atKey)] at both

/-- A multimap is determined by the values of each key. -/
theorem ext_equalRange {map map' : Multimap κ ν}
    (same : ∀ key, map.equalRange key = map'.equalRange key) : map = map' := by
  have ofValues : ∀ (map : Multimap κ ν) (key : κ),
      map.entries.filter (fun entry => entry.1 = key) = (map.equalRange key).map (key, ·) := by
    intro map key
    rw [equalRange, List.map_map]
    refine (List.map_id _).symm.trans (List.map_congr_left fun entry mem => ?_)
    have atKey : entry.1 = key := of_decide_eq_true (List.mem_filter.mp mem).2
    rw [Function.comp_apply, ← atKey, id_eq]
  obtain ⟨entries, sorted⟩ := map
  obtain ⟨entries', sorted'⟩ := map'
  have equal : entries = entries' := sorted_unique sorted sorted' fun key => by
    rw [ofValues ⟨entries, sorted⟩ key, ofValues ⟨entries', sorted'⟩ key, same key]
  subst equal
  rfl

/-- Putting an element in the place of all those of its key changes nothing when it is the
one that is there. -/
theorem emplace_eraseKey_eq_self_iff {map : Multimap κ ν} {key : κ} {value : ν} :
    (map.eraseKey key).emplace key value = map ↔ map.equalRange key = [value] := by
  constructor
  · intro equal
    rw [← equal, equalRange_emplace_self, equalRange_eraseKey_self, List.nil_append]
  · intro only
    refine ext_equalRange fun other => ?_
    by_cases same : key = other
    · subst same
      rw [equalRange_emplace_self, equalRange_eraseKey_self, List.nil_append, only]
    · rw [equalRange_emplace_of_ne _ _ same, equalRange_eraseKey_of_ne _ same]

/-- An element more is a change. -/
theorem emplace_ne_self (map : Multimap κ ν) (key : κ) (value : ν) :
    map.emplace key value ≠ map := by
  intro equal
  have lengths := congrArg (fun map : Multimap κ ν => (map.equalRange key).length) equal
  rw [equalRange_emplace_self, List.length_append, List.length_singleton] at lengths
  omega

theorem filterMap_eq_of_only {β : Type w} {entries : List (κ × ν)} (key : κ)
    {f : κ × ν → Option β} (only : ∀ entry ∈ entries, entry.1 ≠ key → f entry = none) :
    entries.filterMap f =
      ((entries.filter fun entry => entry.1 = key).map Prod.snd).filterMap
        fun value => f (key, value) := by
  induction entries with
  | nil => rfl
  | cons entry entries ih =>
      have rest := ih fun other mem => only other (List.mem_cons_of_mem _ mem)
      by_cases atKey : entry.1 = key
      · obtain ⟨entryKey, value⟩ := entry
        simp only at atKey
        subst atKey
        rw [List.filter_cons_of_pos (by simp), List.map_cons, List.filterMap_cons,
          List.filterMap_cons, rest]
      · rw [List.filter_cons_of_neg (by simpa using atKey),
          List.filterMap_cons_none (only _ (List.mem_cons_self ..) atKey), rest]

/-- A partial function that is defined at one key only sees the elements of that
key. -/
theorem filterMap_entries {β : Type w} (map : Multimap κ ν) (key : κ) {f : κ × ν → Option β}
    (only : ∀ entry ∈ map.entries, entry.1 ≠ key → f entry = none) :
    map.entries.filterMap f = (map.equalRange key).filterMap fun value => f (key, value) :=
  filterMap_eq_of_only key only

/-!
## The elements up to a bound

The elements up to a bound stand at the start of a multimap.  A loop that takes the first element
as long as it is one of them goes over just these when what it adds lies beyond the bound.
-/

section UpTo

variable {map : Multimap κ ν} {bound key : κ} {value : ν} {entry : κ × ν} {rest : List (κ × ν)}

/-- The elements up to a bound, in order. -/
def upTo (map : Multimap κ ν) (bound : κ) : List (κ × ν) :=
  map.entries.filter fun entry => entry.1 ≤ bound

theorem mem_upTo_iff : entry ∈ map.upTo bound ↔ entry ∈ map.entries ∧ entry.1 ≤ bound := by
  simp [upTo]

/-- What is added beyond the bound is none of them. -/
theorem upTo_emplace_of_lt (beyond : bound < key) (value : ν) :
    (map.emplace key value).upTo bound = map.upTo bound := by
  simp only [upTo, emplace, List.filter_append]
  rw [List.filter_cons_of_neg (by simpa using beyond), ← List.filter_append,
    List.takeWhile_append_dropWhile]

/-- The first element is the first one up to the bound, if there is any. -/
theorem entries_of_upTo_cons (isFirst : map.upTo bound = entry :: rest) :
    ∃ later, map.entries = entry :: later ∧
      later.filter (fun other => other.1 ≤ bound) = rest := by
  have sorted := map.sorted
  rw [upTo] at isFirst
  cases entries : map.entries with
  | nil =>
      rw [entries] at isFirst
      cases isFirst
  | cons head later =>
      rw [entries] at isFirst sorted
      by_cases inside : head.1 ≤ bound
      · rw [List.filter_cons_of_pos (by simpa using inside)] at isFirst
        cases isFirst
        exact ⟨later, rfl, rfl⟩
      · have mem : entry ∈ (head :: later).filter fun other => other.1 ≤ bound := by
          rw [isFirst]
          exact List.mem_cons_self
        obtain ⟨isLater, isInside⟩ := List.mem_filter.mp mem
        apply absurd _ inside
        rcases List.mem_cons.mp isLater with same | isLater
        · subst same
          simpa using isInside
        · have after := (List.pairwise_cons.mp sorted).1 entry isLater
          exact after.trans (by simpa using isInside)

/-- Erasing the first element leaves the others up to the bound. -/
theorem upTo_eraseFirst (isFirst : map.upTo bound = entry :: rest) {test : ν → Bool}
    (passes : test entry.2 = true) : (map.eraseFirst entry.1 test).upTo bound = rest := by
  obtain ⟨later, entries, isRest⟩ := entries_of_upTo_cons isFirst
  rw [upTo, eraseFirst]
  dsimp only
  rw [entries, List.eraseP_cons_of_pos (by simp [passes]), isRest]

/-- There is none up to the bound when the first element lies beyond it. -/
theorem upTo_eq_nil_iff : map.upTo bound = [] ↔ ∀ other ∈ map.entries, bound < other.1 := by
  simp [upTo, List.filter_eq_nil_iff]

end UpTo

end Multimap

end Library
