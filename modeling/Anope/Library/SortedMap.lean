import Mathlib.Order.Lattice
import Mathlib.Tactic.Common

/-!
# Sorted maps

A `std::map` as the list of its elements in the order of their keys, with the
assignment through `operator[]`.  Assigning the elements of a map in its own
order to an empty map gives the map back.
-/

namespace Library

universe u v

variable {κ : Type u} {ν : Type v} [LinearOrder κ]

/-- The elements of a map, one for each key, sorted by key. -/
structure SortedMap (key : ν → κ) where
  entries : List ν
  sorted : entries.Pairwise fun left right => key left < key right

namespace SortedMap

variable {key : ν → κ}

/-- The map without elements. -/
def empty : SortedMap key where
  entries := []
  sorted := .nil

@[ext]
theorem ext {left right : SortedMap key} (equal : left.entries = right.entries) :
    left = right := by
  cases left
  cases right
  cases equal
  rfl

/-- The elements after `operator[]` and a write to what it returned: `fresh` is
put in where its key is missing. -/
def assignEntries (key : ν → κ) (fresh : ν) (write : ν → ν) : List ν → List ν
  | [] => [write fresh]
  | entry :: entries =>
      if key fresh < key entry then write fresh :: entry :: entries
      else if key fresh = key entry then write entry :: entries
      else entry :: assignEntries key fresh write entries

section Assign

variable {write : ν → ν} (keepsKey : ∀ element, key (write element) = key element)

include keepsKey in
theorem key_of_mem_assignEntries {fresh entry : ν} {entries : List ν}
    (mem : entry ∈ assignEntries key fresh write entries) :
    key entry = key fresh ∨ ∃ old ∈ entries, key entry = key old := by
  induction entries with
  | nil =>
      rw [assignEntries, List.mem_singleton] at mem
      exact .inl (mem ▸ keepsKey fresh)
  | cons first entries ih =>
      rw [assignEntries] at mem
      split at mem
      · rcases List.mem_cons.mp mem with rfl | mem
        · exact .inl (keepsKey fresh)
        · exact .inr ⟨entry, mem, rfl⟩
      · split at mem
        · rcases List.mem_cons.mp mem with rfl | mem
          · exact .inr ⟨first, List.mem_cons_self, keepsKey first⟩
          · exact .inr ⟨entry, List.mem_cons_of_mem _ mem, rfl⟩
        · rcases List.mem_cons.mp mem with rfl | mem
          · exact .inr ⟨entry, List.mem_cons_self, rfl⟩
          · rcases ih mem with isFresh | ⟨old, found, same⟩
            · exact .inl isFresh
            · exact .inr ⟨old, List.mem_cons_of_mem _ found, same⟩

include keepsKey in
theorem sorted_assignEntries (fresh : ν) {entries : List ν}
    (sorted : entries.Pairwise fun left right => key left < key right) :
    (assignEntries key fresh write entries).Pairwise fun left right => key left < key right := by
  induction entries with
  | nil => exact List.pairwise_singleton _ _
  | cons first entries ih =>
      obtain ⟨behind, rest⟩ := List.pairwise_cons.mp sorted
      rw [assignEntries]
      split
      · rename_i before
        refine .cons (fun entry mem => ?_) sorted
        rw [keepsKey]
        rcases List.mem_cons.mp mem with rfl | mem
        · exact before
        · exact before.trans (behind entry mem)
      · rename_i notBefore
        split
        · refine .cons (fun entry mem => ?_) rest
          rw [keepsKey]
          exact behind entry mem
        · rename_i different
          refine .cons (fun entry mem => ?_) (ih rest)
          rcases key_of_mem_assignEntries keepsKey mem with isFresh | ⟨old, found, same⟩
          · rw [isFresh]
            exact lt_of_le_of_ne (not_lt.mp notBefore) (Ne.symm different)
          · rw [same]
            exact behind old found

/-- `map[key] = …`, where `fresh` is the element `operator[]` puts in. -/
def assign (map : SortedMap key) (fresh : ν) (write : ν → ν)
    (keepsKey : ∀ element, key (write element) = key element) : SortedMap key where
  entries := assignEntries key fresh write map.entries
  sorted := sorted_assignEntries keepsKey fresh map.sorted

end Assign

/-- A key behind all others is put at the end. -/
theorem assignEntries_of_lt {fresh : ν} {entries : List ν}
    (behind : ∀ entry ∈ entries, key entry < key fresh) (write : ν → ν) :
    assignEntries key fresh write entries = entries ++ [write fresh] := by
  induction entries with
  | nil => rfl
  | cons first entries ih =>
      obtain ⟨before, rest⟩ := List.forall_mem_cons.mp behind
      rw [assignEntries, if_neg before.le.not_gt, if_neg before.ne', ih rest, List.cons_append]

/-- Storing sorted elements in their order puts them behind what is there, when
`store` leaves an element that it puts in as it is. -/
theorem entries_foldl {store : SortedMap key → ν → SortedMap key} {entries : List ν}
    (stores : ∀ map : SortedMap key, ∀ entry ∈ entries,
      (∀ other ∈ map.entries, key other < key entry) →
        (store map entry).entries = map.entries ++ [entry]) :
    ∀ {map : SortedMap key},
      (map.entries ++ entries).Pairwise (fun left right => key left < key right) →
      (entries.foldl store map).entries = map.entries ++ entries := by
  induction entries with
  | nil => exact fun _ => (List.append_nil _).symm
  | cons entry entries ih =>
      intro map sorted
      have behind : ∀ other ∈ map.entries, key other < key entry := fun other mem =>
        (List.pairwise_append.mp sorted).2.2 other mem entry List.mem_cons_self
      have stored : (store map entry).entries = map.entries ++ [entry] :=
        stores map entry List.mem_cons_self behind
      rw [List.foldl_cons, ih, stored, List.append_assoc, List.singleton_append]
      · exact fun map entry mem => stores map entry (List.mem_cons_of_mem _ mem)
      · rw [stored, List.append_assoc, List.singleton_append]
        exact sorted

/-- A map is what storing its elements in order makes of the empty map. -/
theorem foldl_empty {store : SortedMap key → ν → SortedMap key} (map : SortedMap key)
    (stores : ∀ other : SortedMap key, ∀ entry ∈ map.entries,
      (∀ element ∈ other.entries, key element < key entry) →
        (store other entry).entries = other.entries ++ [entry]) :
    map.entries.foldl store empty = map :=
  ext (entries_foldl stores map.sorted)

end SortedMap

end Library
