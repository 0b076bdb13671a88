import Mathlib.Data.List.AList

/-!
# Tables

Association lists with one entry for each key, used as finite maps: changing
values in their places, and equality of tables from their keys and lookups.
-/

namespace Library.Table

universe u v

variable {κ : Type u} {ν : Type v}

/-- Change every value, keeping the order of the entries. -/
def mapValues (change : κ → ν → ν) (table : AList fun _ : κ => ν) : AList fun _ : κ => ν where
  entries := table.entries.map (.map id change)
  nodupKeys := by
    rw [List.NodupKeys, List.keys, List.map_map]
    exact table.nodupKeys

@[simp]
theorem keys_mapValues (change : κ → ν → ν) (table : AList fun _ : κ => ν) :
    (mapValues change table).keys = table.keys := by
  simp only [mapValues, AList.keys, List.keys, List.map_map]
  rfl

variable [DecidableEq κ]

@[simp]
theorem lookup_mapValues (change : κ → ν → ν) (table : AList fun _ : κ => ν) (key : κ) :
    (mapValues change table).lookup key = (table.lookup key).map (change key) :=
  List.dlookup_map₂ key

/-- Change the value of one key in its place. -/
def modify (key : κ) (change : ν → ν) (table : AList fun _ : κ => ν) : AList fun _ : κ => ν :=
  mapValues (fun other value => if other = key then change value else value) table

@[simp]
theorem keys_modify (key : κ) (change : ν → ν) (table : AList fun _ : κ => ν) :
    (modify key change table).keys = table.keys :=
  keys_mapValues _ _

@[simp]
theorem mem_modify (key other : κ) (change : ν → ν) (table : AList fun _ : κ => ν) :
    other ∈ modify key change table ↔ other ∈ table := by
  rw [AList.mem_keys, AList.mem_keys, keys_modify]

@[simp]
theorem lookup_modify_self (key : κ) (change : ν → ν) (table : AList fun _ : κ => ν) :
    (modify key change table).lookup key = (table.lookup key).map change := by
  rw [modify, lookup_mapValues]
  simp only [if_true]

@[simp]
theorem lookup_modify_ne {key other : κ} (different : other ≠ key) (change : ν → ν)
    (table : AList fun _ : κ => ν) :
    (modify key change table).lookup other = table.lookup other := by
  rw [modify, lookup_mapValues]
  simp only [different, if_false, Option.map_id_fun', id]

theorem keys_insert_of_notMem {key : κ} {table : AList fun _ : κ => ν} (new : key ∉ table)
    (value : ν) : (table.insert key value).keys = key :: table.keys := by
  rw [AList.keys_insert, List.erase_of_not_mem fun mem => new (AList.mem_keys.mpr mem)]

theorem keys_erase_eq_filter (key : κ) (table : AList fun _ : κ => ν) :
    (table.erase key).keys = table.keys.filter fun other => decide (other ≠ key) := by
  rw [AList.keys_erase, table.keys_nodup.erase_eq_filter]
  refine List.filter_congr fun other _ => ?_
  by_cases same : other = key <;> simp [same]

theorem perm_keys_erase {key : κ} {table : AList fun _ : κ => ν} (mem : key ∈ table) :
    (key :: (table.erase key).keys).Perm table.keys := by
  rw [AList.keys_erase]
  exact (List.perm_cons_erase (AList.mem_keys.mp mem)).symm

/-- Tables with the same keys in the same order and the same lookups are
equal. -/
theorem ext_of_keys_of_lookup {left right : AList fun _ : κ => ν} (keys : left.keys = right.keys)
    (lookup : ∀ key, left.lookup key = right.lookup key) : left = right := by
  have sameKeys : left.entries.map Sigma.fst = right.entries.map Sigma.fst := keys
  have length : left.entries.length = right.entries.length := by
    have same := congrArg List.length sameKeys
    rwa [List.length_map, List.length_map] at same
  apply AList.ext
  apply List.ext_getElem length
  intro index inLeft inRight
  have sameKey : left.entries[index].1 = right.entries[index].1 := by
    have same := congrArg (fun list => list[index]?) sameKeys
    simpa [List.getElem?_eq_getElem inLeft, List.getElem?_eq_getElem inRight] using same
  have found : left.entries[index] ∈ right.entries := by
    have entry := List.getElem_mem inLeft
    rw [← AList.mem_lookup_iff, lookup] at entry
    exact AList.mem_lookup_iff.mp entry
  exact right.nodupKeys.eq_of_fst_eq found (List.getElem_mem inRight) sameKey

/-- A view of the values that does not show a change of one of them. -/
theorem mapValues_modify {view change : ν → ν} (unseen : ∀ value, view (change value) = view value)
    (key : κ) (table : AList fun _ : κ => ν) :
    mapValues (fun _ => view) (modify key change table) = mapValues (fun _ => view) table := by
  apply ext_of_keys_of_lookup
  · rw [keys_mapValues, keys_mapValues, keys_modify]
  · intro other
    rw [lookup_mapValues, lookup_mapValues]
    by_cases same : other = key
    · rw [same, lookup_modify_self, Option.map_map]
      exact congrArg (Option.map · _) (funext unseen)
    · rw [lookup_modify_ne same]

/-! ## Erasing entries that fail a test -/

section Filter

variable {keep : κ → ν → Bool} {table : AList fun _ : κ => ν} {key : κ} {value : ν}

omit [DecidableEq κ] in
/-- Keep the entries that pass a test, in their order. -/
def filter (keep : κ → ν → Bool) (table : AList fun _ : κ => ν) : AList fun _ : κ => ν where
  entries := table.entries.filter fun entry => keep entry.1 entry.2
  nodupKeys := table.nodupKeys.sublist List.filter_sublist

theorem lookup_filter_eq_some :
    (filter keep table).lookup key = some value ↔
      table.lookup key = some value ∧ keep key value = true := by
  rw [← Option.mem_def, ← Option.mem_def, AList.mem_lookup_iff, AList.mem_lookup_iff]
  exact List.mem_filter

end Filter

/-! ## What is read through a table

A change of a table that what is read from its values does not show. -/

section Read

variable {α : Type*} {read : ν → Option α} {table : AList fun _ : κ => ν} {key : κ}

theorem bind_lookup_modify {change : ν → ν} (unseen : ∀ value, read (change value) = read value)
    (other : κ) :
    ((modify key change table).lookup other).bind read = (table.lookup other).bind read := by
  by_cases same : other = key
  · rw [same, lookup_modify_self]
    cases table.lookup key with
    | none => rfl
    | some value => exact unseen value
  · rw [lookup_modify_ne same]

theorem bind_lookup_insert {value : ν} (new : key ∉ table) (unseen : read value = none)
    (other : κ) :
    ((table.insert key value).lookup other).bind read = (table.lookup other).bind read := by
  by_cases same : other = key
  · rw [same, AList.lookup_insert, AList.lookup_eq_none.mpr new]
    exact unseen
  · rw [AList.lookup_insert_ne same]

theorem bind_lookup_erase (unseen : (table.lookup key).bind read = none) (other : κ) :
    ((table.erase key).lookup other).bind read = (table.lookup other).bind read := by
  by_cases same : other = key
  · rw [same, AList.lookup_erase, unseen]
    rfl
  · rw [AList.lookup_erase_ne same]

end Read

/-! ## Tables of tables -/

section Nested

variable {κ' ν' : Type*} [DecidableEq κ'] {table : AList fun _ : κ => ν} {key : κ} {inner : κ'}
  (field : ν → AList fun _ : κ' => ν') {change : ν → ν}

/-- Inserting into the inner table of one key. -/
theorem bind_lookup_modify_insert {entry : ν'} (present : key ∈ table)
    (changed : ∀ value, field (change value) = (field value).insert inner entry)
    (other : κ) (otherInner : κ') :
    ((modify key change table).lookup other).bind (fun value => (field value).lookup otherInner) =
      if other = key ∧ otherInner = inner then some entry
      else (table.lookup other).bind fun value => (field value).lookup otherInner := by
  rcases Option.isSome_iff_exists.mp (AList.lookup_isSome.mpr present) with ⟨value, found⟩
  by_cases same : other = key
  · subst same
    rw [lookup_modify_self, found, Option.map_some, Option.bind_some, Option.bind_some, changed]
    by_cases sameInner : otherInner = inner
    · subst sameInner
      rw [AList.lookup_insert, if_pos ⟨rfl, rfl⟩]
    · rw [AList.lookup_insert_ne sameInner, if_neg fun both => sameInner both.2]
  · rw [lookup_modify_ne same, if_neg fun both => same both.1]

/-- Erasing from the inner table of one key. -/
theorem bind_lookup_modify_erase
    (changed : ∀ value, field (change value) = (field value).erase inner)
    (other : κ) (otherInner : κ') :
    ((modify key change table).lookup other).bind (fun value => (field value).lookup otherInner) =
      if other = key ∧ otherInner = inner then none
      else (table.lookup other).bind fun value => (field value).lookup otherInner := by
  by_cases same : other = key
  · subst same
    rw [lookup_modify_self]
    cases table.lookup other with
    | none =>
        split <;> rfl
    | some value =>
        rw [Option.map_some, Option.bind_some, Option.bind_some, changed]
        by_cases sameInner : otherInner = inner
        · subst sameInner
          rw [AList.lookup_erase, if_pos ⟨rfl, rfl⟩]
        · rw [AList.lookup_erase_ne sameInner, if_neg fun both => sameInner both.2]
  · rw [lookup_modify_ne same, if_neg fun both => same both.1]

end Nested

/-! ## Counting values -/

section Count

variable {test : ν → Bool} {table : AList fun _ : κ => ν} {key : κ} {value : ν}

/-- The number of values that pass a test. -/
def count (test : ν → Bool) (table : AList fun _ : κ => ν) : Nat :=
  table.entries.countP fun entry => test entry.2

omit [DecidableEq κ] in
theorem count_le_length (test : ν → Bool) (table : AList fun _ : κ => ν) :
    count test table ≤ table.keys.length := by
  have most := List.countP_le_length (p := fun entry : Sigma fun _ : κ => ν => test entry.2)
    (l := table.entries)
  rwa [AList.keys, List.keys, List.length_map]

omit [DecidableEq κ] in
/-- Values that a view does not change for the test. -/
theorem count_mapValues {view : ν → ν} (same : ∀ value, test (view value) = test value) :
    count test (mapValues (fun _ => view) table) = count test table := by
  rw [count, mapValues, List.countP_map]
  apply List.countP_congr
  rintro ⟨key, value⟩ _
  exact Bool.eq_iff_iff.mp (same value)

/-- What is found in a table without a key is found in the table. -/
theorem lookup_of_erase {other : κ} (found : (table.erase key).lookup other = some value) :
    table.lookup other = some value := by
  by_cases same : other = key
  · rw [same, AList.lookup_erase] at found
    cases found
  · rwa [AList.lookup_erase_ne same] at found

/-- Tests that agree on the values of a table count the same. -/
theorem count_congr {other : ν → Bool}
    (same : ∀ {key value}, table.lookup key = some value → test value = other value) :
    count test table = count other table := by
  apply List.countP_congr
  rintro ⟨key, value⟩ mem
  exact Bool.eq_iff_iff.mp (same (AList.mem_lookup_iff.mpr mem))

theorem count_eq_zero_iff :
    count test table = 0 ↔ ∀ {key value}, table.lookup key = some value → test value ≠ true := by
  rw [count, List.countP_eq_zero]
  constructor
  · exact fun none _ _ found => none _ (AList.mem_lookup_iff.mp found)
  · rintro none ⟨key, value⟩ mem
    exact none (AList.mem_lookup_iff.mpr mem)

theorem count_insert (new : key ∉ table) :
    count test (table.insert key value) = count test table + if test value then 1 else 0 := by
  rw [count, AList.entries_insert_of_notMem new, List.countP_cons]
  rfl

theorem count_eq_erase (found : table.lookup key = some value) :
    count test table = count test (table.erase key) + if test value then 1 else 0 := by
  have mem : (⟨key, value⟩ : Sigma fun _ : κ => ν) ∈ table.entries := AList.mem_lookup_iff.mp found
  have present : key ∈ table.entries.keys := List.mem_keys_of_mem mem
  rcases List.exists_of_kerase present with ⟨other, before, behind, _, entries, erased⟩
  have same : value = other := by
    have otherMem : (⟨key, other⟩ : Sigma fun _ : κ => ν) ∈ table.entries := by
      rw [entries]
      exact List.mem_append_right _ List.mem_cons_self
    have looked := AList.mem_lookup_iff.mpr otherMem
    rw [found] at looked
    exact Option.some.inj looked
  have erasedEntries : (table.erase key).entries = before ++ behind := erased
  rw [count, count, erasedEntries, entries, List.countP_append, List.countP_append,
    List.countP_cons, same]
  exact (Nat.add_assoc _ _ _).symm

theorem erase_modify (key : κ) (change : ν → ν) (table : AList fun _ : κ => ν) :
    (modify key change table).erase key = table.erase key := by
  apply ext_of_keys_of_lookup
  · rw [AList.keys_erase, AList.keys_erase, keys_modify]
  · intro other
    by_cases same : other = key
    · rw [same, AList.lookup_erase, AList.lookup_erase]
    · rw [AList.lookup_erase_ne same, AList.lookup_erase_ne same, lookup_modify_ne same]

/-- Changing one value moves the count by the difference of its two tests. -/
theorem count_modify {change : ν → ν} (found : table.lookup key = some value) :
    count test (modify key change table) + (if test value then 1 else 0) =
      count test table + if test (change value) then 1 else 0 := by
  have changed : (modify key change table).lookup key = some (change value) := by
    rw [lookup_modify_self, found, Option.map_some]
  rw [count_eq_erase changed, count_eq_erase found, erase_modify]
  omega

end Count

end Library.Table
