import Mathlib.Data.List.AList

/-!
# Tables of counters

A table of integers in which a missing key counts zero.  Counting down drops a
counter that is used up, so the table has only the keys that are in use.
-/

namespace Library.Counter

universe u

variable {κ : Type u} [DecidableEq κ]

/-- The count of a key. -/
def count (table : AList fun _ : κ => Int) (key : κ) : Int :=
  (table.lookup key).getD 0

/-- `++table[key]`. -/
def increment (table : AList fun _ : κ => Int) (key : κ) : AList fun _ : κ => Int :=
  table.insert key (count table key + 1)

/-- `if (--table[key] <= 0) table.erase(key)`. -/
def decrement (table : AList fun _ : κ => Int) (key : κ) : AList fun _ : κ => Int :=
  if count table key - 1 ≤ 0 then table.erase key else table.insert key (count table key - 1)

variable {table : AList fun _ : κ => Int} {key : κ}

@[simp]
theorem count_empty : count (∅ : AList fun _ : κ => Int) key = 0 := by
  rw [count, AList.lookup_empty, Option.getD_none]

theorem count_insert (value : Int) (other : κ) :
    count (table.insert key value) other = if other = key then value else count table other := by
  by_cases same : other = key
  · rw [if_pos same, same, count, AList.lookup_insert, Option.getD_some]
  · rw [if_neg same, count, AList.lookup_insert_ne same, count]

theorem count_erase (other : κ) :
    count (table.erase key) other = if other = key then 0 else count table other := by
  by_cases same : other = key
  · rw [if_pos same, same, count, AList.lookup_erase, Option.getD_none]
  · rw [if_neg same, count, AList.lookup_erase_ne same, count]

theorem count_increment (other : κ) :
    count (increment table key) other = count table other + if other = key then 1 else 0 := by
  rw [increment, count_insert]
  by_cases same : other = key
  · rw [if_pos same, if_pos same, same]
  · rw [if_neg same, if_neg same, Int.add_zero]

/-- Counting down a counter in use. -/
theorem count_decrement (used : 0 < count table key) (other : κ) :
    count (decrement table key) other = count table other - if other = key then 1 else 0 := by
  rw [decrement]
  split
  · rename_i last
    rw [count_erase]
    by_cases same : other = key
    · rw [if_pos same, if_pos same, same]
      omega
    · rw [if_neg same, if_neg same, Int.sub_zero]
  · rw [count_insert]
    by_cases same : other = key
    · rw [if_pos same, if_pos same, same]
    · rw [if_neg same, if_neg same, Int.sub_zero]

end Library.Counter
