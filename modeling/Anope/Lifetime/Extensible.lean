import Anope.Library.Run
import Anope.Library.Table
import Mathlib.Data.Finset.Sort

/-!
# Extension items

An extension item keeps a value for each object that it extends, and the object keeps the set of
the items that extend it.  The destructor of either side goes over its own record to clear the
other one.  An object that is copied takes over the set, and the items do not know of it.
-/

namespace Anope.Lifetime.Extensible

open Library.Run

/-- Where an item or an object is. -/
abbrev Addr := Nat

/-- A `BaseExtensibleItem`, whose `Create` returns a null pointer for `bool`: its map `items`, with
the values by the order in which they were made. -/
structure Item where
  isBool : Bool
  items : AList fun _ : Addr => Option Nat

/-- The live items, and the live objects with their sets `extension_items`.  Counted are the values
that were made, and how often each was deleted; `dangling` says whether memory was accessed that is
not a live item or object. -/
structure Heap where
  extensible_items : Addr → Option Item
  objects : Addr → Option (Finset Addr)
  made : Nat
  deleted : Nat → Nat
  dangling : Bool

namespace Heap

/-- No items and no objects yet. -/
def initial : Heap := ⟨fun _ => none, fun _ => none, 0, fun _ => 0, false⟩

/-- What an item holds for an object. -/
def entry (heap : Heap) (item obj : Addr) : Option (Option Nat) :=
  (heap.extensible_items item).bind fun data => data.items.lookup obj

/-- The set `extension_items` of an object. -/
def extensions (heap : Heap) (obj : Addr) : Finset Addr :=
  (heap.objects obj).getD ∅

/-- `BaseExtensibleItem::Get`. -/
def get (heap : Heap) (item obj : Addr) : Option Nat :=
  (heap.entry item obj).join

/-- An access to an item and to an object. -/
def touch (heap : Heap) (item obj : Addr) : Heap :=
  { heap with
    dangling := heap.dangling || (heap.extensible_items item).isNone || (heap.objects obj).isNone }

/-- `BaseExtensibleItem::Unset`, and a pass of the loop in the destructor. -/
def unset (heap : Heap) (item obj : Addr) : Heap :=
  let value := heap.get item obj
  let heap := heap.touch item obj
  { heap with
    extensible_items := Function.update heap.extensible_items item
      ((heap.extensible_items item).map fun data => { data with items := data.items.erase obj })
    objects := Function.update heap.objects obj
      ((heap.objects obj).map fun extension_items => extension_items.erase item)
    deleted := match value with
      | some value => Function.update heap.deleted value (heap.deleted value + 1)
      | none => heap.deleted }

/-- `BaseExtensibleItem::Set`, with the value that `Create` makes. -/
def set (heap : Heap) (item obj : Addr) (isBool : Bool) : Heap :=
  let value := if isBool then none else some heap.made
  let heap := if isBool then heap else { heap with made := heap.made + 1 }
  let heap := heap.unset item obj
  { heap with
    extensible_items := Function.update heap.extensible_items item
      ((heap.extensible_items item).map fun data =>
        { data with items := data.items.insert obj value })
    objects := Function.update heap.objects obj
      ((heap.objects obj).map fun extension_items => insert item extension_items) }

/-- The destructor of an item: the loop takes the first entry until there is none. -/
def destroyItem (heap : Heap) (item : Addr) (data : Item) : Heap :=
  let heap := data.items.keys.foldl (fun heap obj => heap.unset item obj) heap
  { heap with extensible_items := Function.update heap.extensible_items item none }

/-- `Extensible::UnsetExtensibles`: the loop calls `Unset` of the first item in the set until there
is none, and `Unset` takes the item out of the set. -/
def unsetExtensibles (heap : Heap) (obj : Addr) : Heap :=
  ((heap.extensions obj).sort (· ≤ ·)).foldl (fun heap item => heap.unset item obj) heap

/-- The destructor of an object. -/
def destroyObject (heap : Heap) (obj : Addr) : Heap :=
  let heap := heap.unsetExtensibles obj
  { heap with objects := Function.update heap.objects obj none }

end Heap

/-- What is done to items and objects. -/
inductive Action where
  | createItem (item : Addr) (isBool : Bool)
  | destroyItem (item : Addr)
  | createObject (obj : Addr)
  | copyObject (obj other : Addr)
  | destroyObject (obj : Addr)
  | set (item obj : Addr)
  | unset (item obj : Addr)
  | require (item obj : Addr)

/-- What an action does.  Something new is made where nothing is, and the pointers that are passed
are those of live items and objects.  A copy of an object takes over the set of its items. -/
def step (heap : Heap) : Action → Option Heap
  | .createItem item isBool =>
      if (heap.extensible_items item).isNone then
        some { heap with
          extensible_items := Function.update heap.extensible_items item (some ⟨isBool, ∅⟩) }
      else none
  | .destroyItem item => (heap.extensible_items item).map (heap.destroyItem item)
  | .createObject obj =>
      if (heap.objects obj).isNone then
        some { heap with objects := Function.update heap.objects obj (some ∅) }
      else none
  | .copyObject obj other =>
      if (heap.objects obj).isNone then
        (heap.objects other).map fun extension_items =>
          { heap with objects := Function.update heap.objects obj (some extension_items) }
      else none
  | .destroyObject obj => (heap.objects obj).map fun _ => heap.destroyObject obj
  | .set item obj =>
      (heap.extensible_items item).bind fun data =>
        (heap.objects obj).map fun _ => heap.set item obj data.isBool
  | .unset item obj =>
      (heap.extensible_items item).bind fun _ => (heap.objects obj).map fun _ => heap.unset item obj
  | .require item obj =>
      (heap.extensible_items item).bind fun data =>
        (heap.objects obj).map fun _ =>
          if (heap.get item obj).isSome then heap else heap.set item obj data.isBool

namespace Heap

/-- Every value is held for one object by one item, which the object knows, or has been deleted
once. -/
structure Owned (heap : Heap) : Prop where
  known : ∀ {item obj}, heap.entry item obj ≠ none →
    (heap.objects obj).isSome ∧ item ∈ heap.extensions obj
  held : ∀ {item obj value}, heap.entry item obj = some (some value) →
    value < heap.made ∧ heap.deleted value = 0
  once : ∀ {item obj item' obj' value}, heap.entry item obj = some (some value) →
    heap.entry item' obj' = some (some value) → item = item' ∧ obj = obj'
  spent : ∀ value < heap.made, heap.deleted value = 1 ∨
    ∃ item obj, heap.entry item obj = some (some value)
  fresh : ∀ value, heap.made ≤ value → heap.deleted value = 0

/-- The items know just the objects that know them, and no access went astray. -/
structure Agreement (heap : Heap) : Prop where
  agree : ∀ item obj, item ∈ heap.extensions obj ↔ heap.entry item obj ≠ none
  intact : heap.dangling = false

variable {heap next : Heap} {item obj item' obj' : Addr}

/-! ## What `Unset` does -/

theorem entry_unset :
    (heap.unset item obj).entry item' obj' =
      if item' = item ∧ obj' = obj then none else heap.entry item' obj' := by
  by_cases isItem : item' = item
  · subst isItem
    by_cases isObj : obj' = obj
    · subst isObj
      simp [entry, unset, touch, Option.bind_map]
    · simp [entry, unset, touch, isObj, Option.bind_map, AList.lookup_erase_ne isObj]
  · simp [entry, unset, touch, isItem]

theorem extensions_unset :
    (heap.unset item obj).extensions obj' =
      if obj' = obj then (heap.extensions obj).erase item else heap.extensions obj' := by
  by_cases isObj : obj' = obj
  · subst isObj
    cases isObject : heap.objects obj' <;> simp [extensions, unset, touch, isObject]
  · simp [extensions, unset, touch, isObj]

theorem isSome_items_unset :
    ((heap.unset item obj).extensible_items item').isSome =
      (heap.extensible_items item').isSome := by
  by_cases isItem : item' = item <;> simp [unset, touch, isItem]

theorem isSome_objects_unset :
    ((heap.unset item obj).objects obj').isSome = (heap.objects obj').isSome := by
  by_cases isObj : obj' = obj <;> simp [unset, touch, isObj]

theorem deleted_unset (value : Nat) :
    (heap.unset item obj).deleted value =
      if heap.entry item obj = some (some value) then heap.deleted value + 1
      else heap.deleted value := by
  cases isEntry : heap.entry item obj with
  | none => simp [unset, get, touch, isEntry]
  | some holds =>
      cases holds with
      | none => simp [unset, get, touch, isEntry]
      | some other =>
          by_cases same : value = other
          · simp [unset, get, touch, isEntry, same]
          · simp [unset, get, touch, isEntry, same, Ne.symm same]

@[simp]
theorem made_unset : (heap.unset item obj).made = heap.made := rfl

theorem Owned.unset (owned : heap.Owned) (item obj : Addr) : (heap.unset item obj).Owned where
  known {item' obj'} entry := by
    rw [entry_unset] at entry
    split at entry
    · exact absurd rfl entry
    · next differ =>
        obtain ⟨live, mem⟩ := owned.known entry
        refine ⟨isSome_objects_unset.trans live, ?_⟩
        rw [extensions_unset]
        split
        · next isObj =>
            exact Finset.mem_erase.mpr ⟨fun isItem => differ ⟨isItem, isObj⟩, isObj ▸ mem⟩
        · exact mem
  held {item' obj' value} isEntry := by
    rw [entry_unset] at isEntry
    split at isEntry
    · cases isEntry
    · next differ =>
        refine ⟨(owned.held isEntry).1, ?_⟩
        rw [deleted_unset, if_neg fun isEntry' => differ (owned.once isEntry isEntry')]
        exact (owned.held isEntry).2
  once isEntry isEntry' := by
    rw [entry_unset] at isEntry isEntry'
    split at isEntry
    · cases isEntry
    · split at isEntry'
      · cases isEntry'
      · exact owned.once isEntry isEntry'
  spent value less := by
    rw [deleted_unset]
    split
    · next isEntry => exact .inl (by rw [(owned.held isEntry).2])
    · next differ =>
        refine (owned.spent value less).imp_right ?_
        rintro ⟨item', obj', isEntry⟩
        refine ⟨item', obj', ?_⟩
        rw [entry_unset, if_neg]
        · exact isEntry
        · rintro ⟨rfl, rfl⟩
          exact differ isEntry
  fresh value less := by
    rw [deleted_unset, if_neg fun isEntry => Nat.not_lt.mpr less (owned.held isEntry).1]
    exact owned.fresh value less

theorem Agreement.unset (agreement : heap.Agreement)
    (live : (heap.extensible_items item).isSome) (live' : (heap.objects obj).isSome) :
    (heap.unset item obj).Agreement where
  agree item' obj' := by
    rw [extensions_unset, entry_unset]
    by_cases isObj : obj' = obj
    · subst isObj
      rw [if_pos rfl, Finset.mem_erase, agreement.agree]
      by_cases isItem : item' = item <;> simp [isItem]
    · rw [if_neg isObj, if_neg fun both => isObj both.2]
      exact agreement.agree item' obj'
  intact := by
    obtain ⟨data, isItem⟩ := Option.isSome_iff_exists.mp live
    obtain ⟨known, isObject⟩ := Option.isSome_iff_exists.mp live'
    simp [Heap.unset, touch, agreement.intact, isItem, isObject]

/-! ## The loops of the destructors -/

/-- `Unset` of one pair of an item and an object after the other. -/
def unsetAll (heap : Heap) (pairs : List (Addr × Addr)) : Heap :=
  pairs.foldl (fun heap pair => heap.unset pair.1 pair.2) heap

variable {pairs : List (Addr × Addr)}

theorem entry_unsetAll : (heap.unsetAll pairs).entry item obj =
    if (item, obj) ∈ pairs then none else heap.entry item obj := by
  induction pairs generalizing heap with
  | nil => rfl
  | cons pair pairs ih =>
      rw [unsetAll, List.foldl_cons, ← unsetAll, ih, entry_unset]
      by_cases first : (item, obj) = pair
      · subst first
        simp
      · have differ : ¬(item = pair.1 ∧ obj = pair.2) := fun both => first (Prod.ext both.1 both.2)
        simp [first, differ]

theorem mem_extensions_unsetAll : item ∈ (heap.unsetAll pairs).extensions obj ↔
    item ∈ heap.extensions obj ∧ (item, obj) ∉ pairs := by
  induction pairs generalizing heap with
  | nil => simp [unsetAll]
  | cons pair pairs ih =>
      rw [unsetAll, List.foldl_cons, ← unsetAll, ih, extensions_unset, List.mem_cons, not_or,
        ← and_assoc]
      refine and_congr_left fun _ => ?_
      split
      · next isObj =>
          subst isObj
          rw [Finset.mem_erase, and_comm]
          refine and_congr_right fun _ => not_congr ?_
          exact ⟨fun isItem => Prod.ext isItem rfl, fun same => congrArg Prod.fst same⟩
      · next differ => exact (and_iff_left fun same => differ (congrArg Prod.snd same)).symm

theorem Owned.unsetAll (owned : heap.Owned) : (heap.unsetAll pairs).Owned := by
  induction pairs generalizing heap with
  | nil => exact owned
  | cons pair pairs ih => exact ih (owned.unset pair.1 pair.2)

theorem Agreement.unsetAll (agreement : heap.Agreement)
    (live : ∀ pair ∈ pairs, (heap.extensible_items pair.1).isSome ∧ (heap.objects pair.2).isSome) :
    (heap.unsetAll pairs).Agreement := by
  induction pairs generalizing heap with
  | nil => exact agreement
  | cons pair pairs ih =>
      obtain ⟨first, rest⟩ := List.forall_mem_cons.mp live
      refine ih (agreement.unset first.1 first.2) fun pair' mem => ?_
      rw [isSome_items_unset, isSome_objects_unset]
      exact rest pair' mem

theorem isSome_items_of_entry (entry : heap.entry item obj ≠ none) :
    (heap.extensible_items item).isSome := by
  cases isItem : heap.extensible_items item with
  | none => exact absurd (by simp [Heap.entry, isItem]) entry
  | some data => rfl

theorem destroyItem_eq (heap : Heap) (item : Addr) (data : Item) :
    heap.destroyItem item data =
      let heap := heap.unsetAll (data.items.keys.map (item, ·))
      { heap with extensible_items := Function.update heap.extensible_items item none } := by
  rw [destroyItem, unsetAll, List.foldl_map]

theorem unsetExtensibles_eq (heap : Heap) (obj : Addr) :
    heap.unsetExtensibles obj =
      heap.unsetAll (((heap.extensions obj).sort (· ≤ ·)).map (·, obj)) := by
  rw [unsetExtensibles, unsetAll, List.foldl_map]

theorem mem_keys_iff {data : Item} (isItem : heap.extensible_items item = some data) :
    obj ∈ data.items.keys ↔ heap.entry item obj ≠ none := by
  rw [← AList.mem_keys, ← AList.lookup_isSome, Heap.entry, isItem, Option.bind_some,
    Option.isSome_iff_ne_none]

/-- After the loop the set is empty, and no item holds anything for the object. -/
theorem extensions_unsetExtensibles : (heap.unsetExtensibles obj).extensions obj = ∅ := by
  refine Finset.eq_empty_of_forall_notMem fun item mem => ?_
  rw [unsetExtensibles_eq, mem_extensions_unsetAll] at mem
  refine mem.2 (List.mem_map.mpr ⟨item, ?_, rfl⟩)
  exact (Finset.mem_sort _).mpr mem.1

theorem entry_removeItem (none : ∀ obj, heap.entry item obj = none) :
    Heap.entry
      { heap with extensible_items := Function.update heap.extensible_items item Option.none }
      item' obj' = heap.entry item' obj' := by
  by_cases isItem : item' = item
  · subst isItem
    rw [none]
    simp [Heap.entry]
  · simp [Heap.entry, isItem]

/-- What holds of the values stays, where the items hold what they have held. -/
theorem Owned.of_same (owned : heap.Owned)
    (entries : ∀ item obj, next.entry item obj = heap.entry item obj) (made : next.made = heap.made)
    (deleted : next.deleted = heap.deleted)
    (known : ∀ item obj, heap.entry item obj ≠ none → (heap.objects obj).isSome ∧
      item ∈ heap.extensions obj → (next.objects obj).isSome ∧ item ∈ next.extensions obj) :
    next.Owned where
  known {item obj} entry := by
    rw [entries] at entry
    exact known item obj entry (owned.known entry)
  held entry := by
    rw [made, deleted]
    exact owned.held ((entries _ _).symm.trans entry)
  once entry entry' :=
    owned.once ((entries _ _).symm.trans entry) ((entries _ _).symm.trans entry')
  spent value less := by
    simp only [deleted, entries]
    exact owned.spent value (made ▸ less)
  fresh value less := by
    rw [deleted]
    exact owned.fresh value (made ▸ less)

/-- An item goes whose entries are gone. -/
theorem Owned.removeItem (owned : heap.Owned) (none : ∀ obj, heap.entry item obj = none) :
    Owned
      { heap with extensible_items := Function.update heap.extensible_items item Option.none } :=
  owned.of_same (fun _ _ => entry_removeItem none) rfl rfl fun _ _ _ known => known

theorem Agreement.removeItem (agreement : heap.Agreement)
    (none : ∀ obj, heap.entry item obj = none) :
    Agreement
      { heap with extensible_items := Function.update heap.extensible_items item Option.none } where
  agree item' obj' := by
    rw [entry_removeItem none]
    exact agreement.agree item' obj'
  intact := agreement.intact

theorem entry_destroyed {data : Item} (isItem : heap.extensible_items item = some data)
    (obj : Addr) : (heap.unsetAll (data.items.keys.map (item, ·))).entry item obj = none := by
  rw [entry_unsetAll]
  split
  · rfl
  · next notMem =>
      refine Decidable.of_not_not fun entry => notMem ?_
      exact List.mem_map.mpr ⟨obj, (mem_keys_iff isItem).mpr entry, rfl⟩

theorem Owned.destroyItem {data : Item} (owned : heap.Owned)
    (isItem : heap.extensible_items item = some data) : (heap.destroyItem item data).Owned := by
  rw [destroyItem_eq]
  exact owned.unsetAll.removeItem (entry_destroyed isItem)

theorem Agreement.destroyItem {data : Item} (agreement : heap.Agreement) (owned : heap.Owned)
    (isItem : heap.extensible_items item = some data) :
    (heap.destroyItem item data).Agreement := by
  rw [destroyItem_eq]
  refine Agreement.removeItem (agreement.unsetAll fun pair mem => ?_) (entry_destroyed isItem)
  obtain ⟨obj, isKey, rfl⟩ := List.mem_map.mp mem
  have entry := (mem_keys_iff isItem).mp isKey
  exact ⟨isSome_items_of_entry entry, (owned.known entry).1⟩

/-- An object goes that no item extends. -/
theorem Owned.removeObject (owned : heap.Owned) (none : heap.extensions obj = ∅) :
    Owned { heap with objects := Function.update heap.objects obj Option.none } := by
  refine owned.of_same (fun _ _ => rfl) rfl rfl fun item obj' _ known => ?_
  have differ : obj' ≠ obj := by
    rintro rfl
    exact absurd (none ▸ known.2) (Finset.notMem_empty item)
  simpa [extensions, differ] using known

theorem Agreement.removeObject (agreement : heap.Agreement) (none : heap.extensions obj = ∅) :
    Agreement { heap with objects := Function.update heap.objects obj Option.none } where
  agree item obj' := by
    refine Iff.trans ?_ (agreement.agree item obj')
    by_cases isObj : obj' = obj
    · subst isObj
      rw [none]
      simp [extensions]
    · simp [extensions, isObj]
  intact := agreement.intact

theorem Owned.destroyObject (owned : heap.Owned) (obj : Addr) : (heap.destroyObject obj).Owned := by
  refine Owned.removeObject ?_ extensions_unsetExtensibles
  rw [unsetExtensibles_eq]
  exact owned.unsetAll

theorem Agreement.destroyObject (agreement : heap.Agreement) (owned : heap.Owned) (obj : Addr) :
    (heap.destroyObject obj).Agreement := by
  refine Agreement.removeObject ?_ extensions_unsetExtensibles
  rw [unsetExtensibles_eq]
  refine agreement.unsetAll fun pair mem => ?_
  obtain ⟨item, extends_, rfl⟩ := List.mem_map.mp mem
  have entry := (agreement.agree item obj).mp ((Finset.mem_sort _).mp extends_)
  exact ⟨isSome_items_of_entry entry, (owned.known entry).1⟩

/-! ## What `Set` does -/

/-- The value that `Create` makes. -/
def created (heap : Heap) (isBool : Bool) : Option Nat :=
  if isBool then none else some heap.made

/-- What `Set` does after `Unset`. -/
def put (heap : Heap) (item obj : Addr) (isBool : Bool) : Heap :=
  { heap with
    extensible_items := Function.update heap.extensible_items item
      ((heap.extensible_items item).map fun data =>
        { data with items := data.items.insert obj (heap.created isBool) })
    objects := Function.update heap.objects obj
      ((heap.objects obj).map fun extension_items => insert item extension_items)
    made := if isBool then heap.made else heap.made + 1 }

variable {isBool : Bool}

theorem set_eq : heap.set item obj isBool = (heap.unset item obj).put item obj isBool := by
  cases isBool <;> rfl

theorem entry_put (live : (heap.extensible_items item).isSome) :
    (heap.put item obj isBool).entry item' obj' =
      if item' = item ∧ obj' = obj then some (heap.created isBool)
      else heap.entry item' obj' := by
  obtain ⟨data, isItem⟩ := Option.isSome_iff_exists.mp live
  by_cases same : item' = item
  · subst same
    by_cases isObj : obj' = obj
    · subst isObj
      simp [entry, put, isItem]
    · simp [entry, put, isItem, isObj, AList.lookup_insert_ne isObj]
  · simp [entry, put, same]

theorem mem_extensions_put (live : (heap.objects obj).isSome) :
    item' ∈ (heap.put item obj isBool).extensions obj' ↔
      (item' = item ∧ obj' = obj) ∨ item' ∈ heap.extensions obj' := by
  obtain ⟨known, isObject⟩ := Option.isSome_iff_exists.mp live
  by_cases isObj : obj' = obj
  · subst isObj
    by_cases same : item' = item <;> simp [extensions, put, isObject, same]
  · simp [extensions, put, isObj]

/-- An item takes a new value for an object for which it has none. -/
theorem Owned.put (owned : heap.Owned) (live : (heap.extensible_items item).isSome)
    (live' : (heap.objects obj).isSome) (none : heap.entry item obj = none) :
    (heap.put item obj isBool).Owned where
  known {item' obj'} entry := by
    rw [entry_put live] at entry
    rw [mem_extensions_put live']
    by_cases isObj : obj' = obj
    · subst isObj
      refine ⟨by simpa [Heap.put] using live', ?_⟩
      split at entry
      · next both => exact .inl both
      · exact .inr (owned.known entry).2
    · rw [if_neg fun both => isObj both.2] at entry
      exact ⟨by simpa [Heap.put, isObj] using (owned.known entry).1, .inr (owned.known entry).2⟩
  held {item' obj' value} isEntry := by
    rw [entry_put live] at isEntry
    split at isEntry
    · cases isBool with
      | true => cases isEntry
      | false =>
          cases isEntry
          exact ⟨Nat.lt_succ_self _, owned.fresh _ (Nat.le_refl _)⟩
    · obtain ⟨less, notDeleted⟩ := owned.held isEntry
      refine ⟨?_, notDeleted⟩
      cases isBool with
      | true => exact less
      | false => exact Nat.lt_succ_of_lt less
  once {item₁ obj₁ item₂ obj₂ value} isEntry isEntry' := by
    rw [entry_put live] at isEntry isEntry'
    have new : some (heap.created isBool) = some (some value) → value = heap.made := by
      cases isBool with
      | true => exact fun isNew => by cases isNew
      | false => exact fun isNew => by cases isNew; rfl
    split at isEntry <;> split at isEntry'
    · next first second => exact ⟨first.1.trans second.1.symm, first.2.trans second.2.symm⟩
    · exact absurd (owned.held isEntry').1 (by simp [new isEntry])
    · exact absurd (owned.held isEntry).1 (by simp [new isEntry'])
    · exact owned.once isEntry isEntry'
  spent value less := by
    by_cases old : value < heap.made
    · refine (owned.spent value old).imp_right ?_
      rintro ⟨item', obj', isEntry⟩
      refine ⟨item', obj', ?_⟩
      rw [entry_put live, if_neg]
      · exact isEntry
      · rintro ⟨rfl, rfl⟩
        cases none.symm.trans isEntry
    · cases isBool with
      | true => exact absurd less old
      | false =>
          refine .inr ⟨item, obj, (entry_put live).trans ?_⟩
          rw [if_pos ⟨rfl, rfl⟩]
          have same := Nat.le_antisymm (Nat.not_lt.mp old) (Nat.le_of_lt_succ less)
          exact congrArg (some ∘ some) same
  fresh value less := by
    cases isBool with
    | true => exact owned.fresh value less
    | false => exact owned.fresh value (Nat.le_of_succ_le less)

theorem Agreement.put (agreement : heap.Agreement) (live : (heap.extensible_items item).isSome)
    (live' : (heap.objects obj).isSome) : (heap.put item obj isBool).Agreement where
  agree item' obj' := by
    rw [mem_extensions_put live', entry_put live, agreement.agree]
    split
    · next both => exact iff_of_true (.inl both) (by simp)
    · next differ => exact or_iff_right differ
  intact := agreement.intact

/-! ## New items and objects -/

theorem entry_createItem (new : heap.extensible_items item = none) :
    Heap.entry { heap with
      extensible_items := Function.update heap.extensible_items item (some ⟨isBool, ∅⟩) }
      item' obj' = heap.entry item' obj' := by
  by_cases isItem : item' = item
  · subst isItem
    simp [entry, new]
  · simp [entry, isItem]

theorem Owned.createItem (owned : heap.Owned) (new : heap.extensible_items item = none) :
    Owned { heap with
      extensible_items := Function.update heap.extensible_items item (some ⟨isBool, ∅⟩) } :=
  owned.of_same (fun _ _ => entry_createItem new) rfl rfl fun _ _ _ known => known

theorem Owned.entry_eq_none (owned : heap.Owned) (new : heap.objects obj = none) (item : Addr) :
    heap.entry item obj = none := by
  refine Decidable.of_not_not fun entry => ?_
  have live := (owned.known entry).1
  rw [new] at live
  cases live

/-- An object with any set of items is new to the items. -/
theorem Owned.createObject (owned : heap.Owned) (new : heap.objects obj = none)
    (extension_items : Finset Addr) :
    Owned { heap with objects := Function.update heap.objects obj (some extension_items) } := by
  refine owned.of_same (fun _ _ => rfl) rfl rfl fun item obj' entry known => ?_
  have differ : obj' ≠ obj := by
    rintro rfl
    exact entry (owned.entry_eq_none new item)
  simpa [extensions, differ] using known

theorem Agreement.createObject_iff (agreement : heap.Agreement) (owned : heap.Owned)
    (new : heap.objects obj = none) (extension_items : Finset Addr) :
    Agreement { heap with objects := Function.update heap.objects obj (some extension_items) } ↔
      extension_items = ∅ := by
  constructor
  · intro after
    refine Finset.eq_empty_of_forall_notMem fun item mem => ?_
    refine (after.agree item obj).mp ?_ (owned.entry_eq_none new item)
    simpa [extensions] using mem
  · rintro rfl
    refine ⟨fun item obj' => Iff.trans ?_ (agreement.agree item obj'), agreement.intact⟩
    by_cases isObj : obj' = obj
    · subst isObj
      simp [extensions, new]
    · simp [extensions, isObj]

end Heap

/-! ## Runs -/

open Heap

variable {heap next : Heap} {action : Action}

/-- What is copied is an object that no item extends. -/
def CopiesBare (heap : Heap) : Action → Prop
  | .copyObject _ other => heap.extensions other = ∅
  | _ => True

theorem set_keeps (owned : heap.Owned) {item obj : Addr} (isBool : Bool)
    (live : (heap.extensible_items item).isSome) (live' : (heap.objects obj).isSome) :
    (heap.set item obj isBool).Owned ∧
      (heap.Agreement → (heap.set item obj isBool).Agreement) := by
  rw [set_eq]
  have unsetItem : ((heap.unset item obj).extensible_items item).isSome :=
    isSome_items_unset.trans live
  have unsetObject : ((heap.unset item obj).objects obj).isSome := isSome_objects_unset.trans live'
  refine ⟨(owned.unset item obj).put unsetItem unsetObject ?_, fun agreement => ?_⟩
  · rw [entry_unset, if_pos ⟨rfl, rfl⟩]
  · exact (agreement.unset live live').put unsetItem unsetObject

/-- What an action does to the invariant, and when it keeps the agreement. -/
theorem step_spec (owned : heap.Owned) (stepped : step heap action = some next) :
    next.Owned ∧ (heap.Agreement → (next.Agreement ↔ CopiesBare heap action)) := by
  cases action with
  | createItem item isBool =>
      obtain ⟨new, rfl⟩ := Option.ite_none_right_eq_some.mp stepped |>.imp_right Option.some.inj
      have new := Option.isNone_iff_eq_none.mp new
      refine ⟨owned.createItem new, fun agreement => iff_of_true ?_ trivial⟩
      refine ⟨fun item' obj' => (agreement.agree item' obj').trans ?_, agreement.intact⟩
      rw [entry_createItem new]
  | destroyItem item =>
      obtain ⟨data, isItem, rfl⟩ := Option.map_eq_some_iff.mp stepped
      exact ⟨owned.destroyItem isItem,
        fun agreement => iff_of_true (agreement.destroyItem owned isItem) trivial⟩
  | createObject obj =>
      obtain ⟨new, rfl⟩ := Option.ite_none_right_eq_some.mp stepped |>.imp_right Option.some.inj
      have new := Option.isNone_iff_eq_none.mp new
      exact ⟨owned.createObject new ∅, fun agreement =>
        (agreement.createObject_iff owned new ∅).trans (iff_of_true rfl trivial)⟩
  | copyObject obj other =>
      obtain ⟨new, copied⟩ := Option.ite_none_right_eq_some.mp stepped
      obtain ⟨extension_items, isObject, rfl⟩ := Option.map_eq_some_iff.mp copied
      have new := Option.isNone_iff_eq_none.mp new
      have same : heap.extensions other = extension_items := by simp [extensions, isObject]
      refine ⟨owned.createObject new extension_items, fun agreement => ?_⟩
      rw [agreement.createObject_iff owned new, CopiesBare, same]
  | destroyObject obj =>
      obtain ⟨extension_items, -, rfl⟩ := Option.map_eq_some_iff.mp stepped
      exact ⟨owned.destroyObject obj,
        fun agreement => iff_of_true (agreement.destroyObject owned obj) trivial⟩
  | set item obj =>
      obtain ⟨data, isItem, stepped⟩ := Option.bind_eq_some_iff.mp stepped
      obtain ⟨known, isObject, rfl⟩ := Option.map_eq_some_iff.mp stepped
      exact (set_keeps owned data.isBool (Option.isSome_of_mem isItem)
        (Option.isSome_of_mem isObject)).imp_right fun keeps agreement =>
          iff_of_true (keeps agreement) trivial
  | unset item obj =>
      obtain ⟨data, isItem, stepped⟩ := Option.bind_eq_some_iff.mp stepped
      obtain ⟨known, isObject, rfl⟩ := Option.map_eq_some_iff.mp stepped
      exact ⟨owned.unset item obj, fun agreement => iff_of_true
        (agreement.unset (Option.isSome_of_mem isItem) (Option.isSome_of_mem isObject)) trivial⟩
  | require item obj =>
      obtain ⟨data, isItem, stepped⟩ := Option.bind_eq_some_iff.mp stepped
      obtain ⟨known, isObject, rfl⟩ := Option.map_eq_some_iff.mp stepped
      split
      · exact ⟨owned, fun agreement => iff_of_true agreement trivial⟩
      · exact (set_keeps owned data.isBool (Option.isSome_of_mem isItem)
          (Option.isSome_of_mem isObject)).imp_right fun keeps agreement =>
            iff_of_true (keeps agreement) trivial

theorem initial_owned : initial.Owned where
  known entry := absurd rfl entry
  held entry := by cases entry
  once entry := by cases entry
  spent value less := absurd less (Nat.not_lt_zero value)
  fresh _ _ := rfl

theorem initial_agreement : initial.Agreement where
  agree _ _ := iff_of_false (Finset.notMem_empty _) fun entry => entry rfl
  intact := rfl

/-- Whatever is done, each value that was made is held for one object by one item, or has been
deleted once: none is lost, and none is deleted twice. -/
theorem always_owned (actions : List Action) : Always step Heap.Owned initial actions :=
  always_of_step (fun owned stepped => (step_spec owned stepped).1) initial_owned actions

/-- Items and objects know each other in the whole of a run, with no access to memory that is gone,
exactly when no object is copied that an item extends. -/
theorem always_known_iff (actions : List Action) :
    Always step Heap.Agreement initial actions ↔ EachStep step CopiesBare initial actions :=
  always_iff_eachStep Heap.Owned (fun owned stepped => (step_spec owned stepped).1)
    (fun owned agreement stepped => (step_spec owned stepped).2 agreement) initial_owned
    initial_agreement actions

/-- A channel is cloned, the module of an item goes, and so does the clone. -/
example :
    (run step initial
        [.createItem 1 true, .createObject 2, .set 1 2, .copyObject 3 2, .destroyItem 1,
          .destroyObject 3]).map Heap.dangling = some true := by
  decide +kernel

end Anope.Lifetime.Extensible
