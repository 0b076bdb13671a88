import Mathlib.Data.List.Dedup
import Mathlib.Data.List.Sublists
import Mathlib.Tactic.Common

/-!
# Exclusive or over a list

Combining the hashes of a list by exclusive or keeps only the items that occur an
odd number of times, and nothing of their order.
-/

namespace Library.Parity

universe u

variable {α : Type u} {w : Nat}

/-- The exclusive or of the hashes of a list. -/
def xorAll (hash : α → BitVec w) : List α → BitVec w
  | [] => 0
  | item :: list => hash item ^^^ xorAll hash list

theorem xorAll_append (hash : α → BitVec w) (left right : List α) :
    xorAll hash (left ++ right) = xorAll hash left ^^^ xorAll hash right := by
  induction left with
  | nil => exact BitVec.zero_xor.symm
  | cons item left ih => rw [List.cons_append, xorAll, ih, xorAll, BitVec.xor_assoc]

/-- Two lists have the same exclusive or exactly when that of both together is zero. -/
theorem xorAll_ne_iff (hash : α → BitVec w) (left right : List α) :
    xorAll hash left ≠ xorAll hash right ↔ xorAll hash (left ++ right) ≠ 0 := by
  rw [xorAll_append, not_iff_not, ← BitVec.xor_eq_zero_iff]
  rfl

theorem xorAll_congr {hash other : α → BitVec w} {list : List α}
    (same : ∀ item ∈ list, hash item = other item) : xorAll hash list = xorAll other list := by
  induction list with
  | nil => rfl
  | cons item list ih =>
      obtain ⟨head, tail⟩ := List.forall_mem_cons.mp same
      rw [xorAll, xorAll, head, ih tail]

/-- Items whose hash is replaced by zero drop out. -/
theorem xorAll_filter (hash : α → BitVec w) (keep : α → Bool) (list : List α) :
    xorAll (fun item => if keep item then hash item else 0) list =
      xorAll hash (list.filter keep) := by
  induction list with
  | nil => rfl
  | cons item list ih =>
      rw [xorAll, ih, List.filter_cons]
      split
      · rfl
      · exact BitVec.zero_xor

variable [DecidableEq α]

/-- Whether an item occurs an odd number of times. -/
def isOdd (list : List α) (item : α) : Bool :=
  list.count item % 2 = 1

/-- The items that occur an odd number of times. -/
def oddItems (list : List α) : List α :=
  list.dedup.filter (isOdd list)

theorem isOdd_cons_self (item : α) (list : List α) :
    isOdd (item :: list) item = !isOdd list item := by
  rw [isOdd, isOdd, List.count_cons_self, ← decide_not]
  exact decide_eq_decide.mpr (by omega)

theorem isOdd_cons_ne {item other : α} (different : other ≠ item) (list : List α) :
    isOdd (item :: list) other = isOdd list other := by
  rw [isOdd, isOdd, List.count_cons_of_ne different.symm]

theorem mem_oddItems_iff {list : List α} {item : α} :
    item ∈ oddItems list ↔ isOdd list item = true := by
  rw [oddItems, List.mem_filter, List.mem_dedup]
  refine and_iff_right_of_imp fun odd => ?_
  by_contra absent
  rw [isOdd, List.count_eq_zero_of_not_mem absent] at odd
  exact nomatch odd

/-- Changing the value of one of distinct keys changes the exclusive or by the same. -/
theorem xorAll_change {value changed : α → BitVec w} {keys : List α} {key : α} {other : BitVec w}
    (distinct : keys.Nodup) (present : key ∈ keys) (here : changed key = other ^^^ value key)
    (elsewhere : ∀ item, item ≠ key → changed item = value item) :
    xorAll changed keys = other ^^^ xorAll value keys := by
  induction keys with
  | nil => exact nomatch present
  | cons first keys ih =>
      obtain ⟨new, distinct⟩ := List.nodup_cons.mp distinct
      rw [xorAll, xorAll]
      by_cases same : first = key
      · have rest : xorAll changed keys = xorAll value keys :=
          xorAll_congr fun item mem => elsewhere item fun is => new (same ▸ is ▸ mem)
        rw [rest, same, here, BitVec.xor_assoc]
      · have present := (List.mem_cons.mp present).resolve_left (Ne.symm same)
        rw [elsewhere first same, ih distinct present, ← BitVec.xor_assoc, ← BitVec.xor_assoc,
          BitVec.xor_comm (value first)]

/-- Over distinct keys that include all items, only the odd ones count. -/
theorem xorAll_eq_of_subset (hash : α → BitVec w) {list keys : List α} (distinct : keys.Nodup)
    (subset : list ⊆ keys) :
    xorAll hash list = xorAll (fun item => if isOdd list item then hash item else 0) keys := by
  induction list with
  | nil =>
      have none : keys.filter (isOdd []) = [] :=
        List.filter_eq_nil_iff.mpr fun item _ => by rw [isOdd, List.count_nil]; decide
      rw [xorAll_filter, none]
  | cons item list ih =>
      obtain ⟨present, subset⟩ := List.cons_subset.mp subset
      rw [xorAll, ih subset]
      refine (xorAll_change distinct present ?_ fun other different => ?_).symm
      · rw [isOdd_cons_self]
        cases isOdd list item with
        | false => exact BitVec.xor_zero.symm
        | true => exact BitVec.xor_self.symm
      · rw [isOdd_cons_ne different]

/-- Items that occur an even number of times cancel. -/
theorem xorAll_oddItems (hash : α → BitVec w) (list : List α) :
    xorAll hash (oddItems list) = xorAll hash list := by
  rw [oddItems, ← xorAll_filter]
  exact (xorAll_eq_of_subset hash list.nodup_dedup (List.subset_dedup list)).symm

/-- The hashes of different items of a list never cancel. -/
def CollisionFree (hash : α → BitVec w) (list : List α) : Prop :=
  ∀ items ∈ list.dedup.sublists, items ≠ [] → xorAll hash items ≠ 0

instance instDecidableCollisionFree (hash : α → BitVec w) (list : List α) :
    Decidable (CollisionFree hash list) :=
  inferInstanceAs (Decidable (∀ items ∈ list.dedup.sublists, items ≠ [] → xorAll hash items ≠ 0))

/-- Without collisions, the exclusive or sees exactly the items that occur an odd
number of times. -/
theorem xorAll_ne_zero_iff {hash : α → BitVec w} {list : List α}
    (free : CollisionFree hash list) :
    xorAll hash list ≠ 0 ↔ ∃ item, isOdd list item = true := by
  rw [← xorAll_oddItems]
  constructor
  · intro seen
    obtain ⟨item, mem⟩ : ∃ item, item ∈ oddItems list :=
      List.exists_mem_of_ne_nil _ fun none => seen (by rw [none]; rfl)
    exact ⟨item, mem_oddItems_iff.mp mem⟩
  · rintro ⟨item, odd⟩
    have isSublist : oddItems list ∈ list.dedup.sublists :=
      List.mem_sublists.mpr List.filter_sublist
    exact free _ isSublist (List.ne_nil_of_mem (mem_oddItems_iff.mpr odd))

end Library.Parity
