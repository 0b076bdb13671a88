import Anope.Storage.JsonRoundTrip

/-!
# Objects in the JSON database

The rows that objects are serialized to, and which fields of an object have their
values again when its row was saved and read.
-/

namespace Anope.Storage.Json

open Library Anope.Text Anope.Text.Convert

variable {casemap : Casemap} {ρ : Type} {floats : Floats ρ}

/-- The entry that a field stores. -/
def Field.entry (field : Field) : Str × Str :=
  (field.key, field.type.toText field.value)

/-- Storing fields under new keys appends their entries. -/
theorem data_foldl_store {fields : List Field} {row : Row}
    (distinct : ((row.data ++ fields.map Field.entry).map (entryKey casemap)).Nodup) :
    (fields.foldl (fun row field => row.store casemap field.type field.key field.value) row).data =
      row.data ++ fields.map Field.entry := by
  induction fields generalizing row with
  | nil => exact (List.append_nil _).symm
  | cons field fields ih =>
      rw [List.foldl_cons]
      have absent : ∀ entry ∈ row.data, entryKey casemap entry ≠ casemap.ciStr field.key := by
        intro entry mem same
        rw [List.map_append, List.nodup_append] at distinct
        exact distinct.2.2 _ (List.mem_map_of_mem mem) _ List.mem_cons_self same
      have grown : (row.store casemap field.type field.key field.value).data =
          row.data ++ [field.entry] := by
        rw [Row.store, update_of_absent absent]
        rfl
      rw [List.map_cons, List.append_cons, ← grown] at distinct ⊢
      exact ih distinct

theorem types_store (row : Row) (field : Field) :
    (row.store casemap field.type field.key field.value).types =
      if field.type = .text then row.types
      else Function.update row.types field.key (some field.type.dataType) :=
  rfl

/-- The types of other keys stay. -/
theorem getType_foldl_store_ne {key : Str} {fields : List Field}
    (absent : ∀ field ∈ fields, field.key ≠ key) (row : Row) :
    (fields.foldl (fun row field => row.store casemap field.type field.key field.value)
      row).getType key = row.getType key := by
  induction fields generalizing row with
  | nil => rfl
  | cons field fields ih =>
      rw [List.foldl_cons, ih fun other mem => absent other (List.mem_cons_of_mem field mem)]
      rw [Row.getType, types_store]
      split
      · rfl
      · rw [Function.update_of_ne (absent field List.mem_cons_self).symm, Row.getType]

/-- Storing under a key without a type sets the type of the field. -/
theorem getType_store {row : Row} {field : Field} (untyped : row.getType field.key = .text) :
    (row.store casemap field.type field.key field.value).getType field.key =
      field.type.dataType := by
  rw [Row.getType, types_store]
  split
  · rename_i isText
    rw [isText]
    exact untyped
  · rw [Function.update_self, Option.getD_some]

/-- Every stored field has the type it was stored as. -/
theorem getType_foldl_store {fields : List Field}
    (distinct : (fields.map Field.key).Nodup) {row : Row}
    (untyped : ∀ field ∈ fields, row.getType field.key = .text) {field : Field}
    (mem : field ∈ fields) :
    (fields.foldl (fun row field => row.store casemap field.type field.key field.value)
      row).getType field.key = field.type.dataType := by
  induction fields generalizing row with
  | nil => cases mem
  | cons first fields ih =>
      rw [List.map_cons, List.nodup_cons] at distinct
      have others : ∀ other ∈ fields, other.key ≠ first.key := fun other inRest same =>
        distinct.1 (same ▸ List.mem_map_of_mem inRest)
      rw [List.foldl_cons]
      rcases List.mem_cons.mp mem with rfl | inRest
      · rw [getType_foldl_store_ne others]
        exact getType_store (untyped field List.mem_cons_self)
      · refine ih distinct.2 (fun other inRest => ?_) inRest
        have same : (row.store casemap first.type first.key first.value).getType other.key =
            row.getType other.key := by
          have alone : ∀ only ∈ [first], only.key ≠ other.key := fun only is =>
            List.mem_singleton.mp is ▸ (others other inRest).symm
          exact getType_foldl_store_ne alone row
        exact same.trans (untyped other (List.mem_cons_of_mem first inRest))

namespace Object

variable (object : Object casemap)

theorem map_entryKey : (object.fields.map Field.entry).map (entryKey casemap) =
    object.fields.map fun field => casemap.ciStr field.key := by
  rw [List.map_map]
  rfl

theorem data_serialize : object.serialize.data = object.fields.map Field.entry := by
  have distinct := object.distinct
  rw [← map_entryKey] at distinct
  exact data_foldl_store distinct

theorem getType_serialize {field : Field} (mem : field ∈ object.fields) :
    object.serialize.getType field.key = field.type.dataType := by
  have distinct : (object.fields.map Field.key).Nodup := by
    have folded := object.distinct
    rw [← Function.comp_def casemap.ciStr, ← List.map_map] at folded
    exact folded.of_map _
  exact getType_foldl_store distinct (fun _ _ => rfl) mem

theorem wellKeyed_serialize : WellKeyed casemap object.serialize.data where
  distinct := by
    rw [data_serialize, map_entryKey]
    exact object.distinct
  terminated entry mem := by
    rw [data_serialize] at mem
    rcases List.mem_map.mp mem with ⟨field, inFields, rfl⟩
    exact object.terminated field inFields

/-- A field is found under its key. -/
theorem find_serialize {field : Field} (mem : field ∈ object.fields) :
    Keyed.find (entryKey casemap) (casemap.ciStr field.key) object.serialize.data =
      some field.entry := by
  have inData : field.entry ∈ object.serialize.data := by
    rw [data_serialize]
    exact List.mem_map_of_mem mem
  exact Keyed.find_of_mem object.wellKeyed_serialize.distinct inData

end Object

/-! ## What comes back -/

/-- The entries that are left after reading hold no key of the backend. -/
theorem find_fieldsOf (key : Str) (data : List (Str × Str)) :
    Keyed.find (entryKey casemap) (casemap.ciStr key) (fieldsOf casemap data) =
      if IsId casemap key then none
      else Keyed.find (entryKey casemap) (casemap.ciStr key) data := by
  have sameKey : ∀ entry : Str × Str, entryKey casemap entry = casemap.ciStr key →
      (IsId casemap entry.1 ↔ IsId casemap key) := by
    intro entry same
    rw [IsId, IsId, Casemap.equalsCi_iff, Casemap.equalsCi_iff, ← same, entryKey]
  split
  · rename_i isId
    refine Keyed.find_eq_none_iff.mpr fun entry mem same => ?_
    have field := (List.mem_filter.mp mem).2
    rw [decide_eq_true ((sameKey entry same).mpr isId)] at field
    exact Bool.noConfusion field
  · rename_i isField
    refine Keyed.find_filter fun entry same => ?_
    rw [decide_eq_false fun isId => isField ((sameKey entry same).mp isId)]
    rfl

/-- What is loaded of a field after any number of rounds. -/
theorem load_rounds_succ (visit : Nat → Iteration) (object : Object casemap) (n : Nat)
    {field : Field} (mem : field ∈ object.fields) :
    (object.serialize.rounds casemap floats visit (n + 1)).load casemap field.type field.key =
      field.type.load (if IsId casemap field.key then none
        else some (resave floats field.type.dataType (field.type.toText field.value))) := by
  have plain : Plain casemap (object.serialize.reload casemap floats (visit 0)) := plain_read _
  have distinct := object.wellKeyed_serialize.distinct
  have sameKeys : ∀ entry : Str × Str, entryKey casemap (entry.1,
      resave floats (object.serialize.getType entry.1) entry.2) = entryKey casemap entry :=
    fun _ => rfl
  rw [Row.load, Keyed.find_perm plain.wellKeyed.distinct (data_rounds_succ visit _ n),
    data_reload (visit 0) object.wellKeyed_serialize, Keyed.find_map sameKeys, find_fieldsOf]
  split
  · rfl
  · rw [Keyed.find_perm distinct ((visit 0).perm _), object.find_serialize mem, Option.map_some,
      Option.map_some]
    change field.type.load (some (resave floats (object.serialize.getType field.key) _)) = _
    rw [object.getType_serialize mem]
    rfl

/-- The fields that come back: under the reserved key only a default does, and
else the values that fit. -/
def Field.Survives (casemap : Casemap) (field : Field) : Prop :=
  if IsId casemap field.key then field.value = field.type.zero
  else InRange field.type field.value

theorem load_rounds_field_iff (visit : Nat → Iteration) (object : Object casemap) (n : Nat)
    {field : Field} (mem : field ∈ object.fields) :
    (object.serialize.rounds casemap floats visit (n + 1)).load casemap field.type field.key =
      field.value ↔ field.Survives casemap := by
  rw [load_rounds_succ visit object n mem, Field.Survives]
  split
  · exact eq_comm
  · exact load_resave_iff (object.standard field mem) field.value

/-- Which objects come back from the database with all their fields, and that a
row whose type is not loaded always comes back. -/
theorem load_rounds_iff (casemap : Casemap) (floats : Floats ρ) (visit : Nat → Iteration)
    (n : Nat) :
    (∀ object : Object casemap,
      (∀ field ∈ object.fields,
        (object.serialize.rounds casemap floats visit (n + 1)).load casemap field.type field.key =
          field.value) ↔ ∀ field ∈ object.fields, field.Survives casemap) ∧
      ∀ element : Element ρ,
        (((Row.read casemap floats element).rounds casemap floats visit n).data).Perm
            (Row.read casemap floats element).data ∧
          ((Row.read casemap floats element).rounds casemap floats visit n).id =
            (Row.read casemap floats element).id := by
  constructor
  · intro object
    exact forall₂_congr fun field mem => load_rounds_field_iff visit object n mem
  · intro element
    exact ((plain_read element).rounds visit n).2

/-- An object that expires at the start of the year 2100. -/
def expiring : Object .ascii where
  id := 1
  fields := [⟨ascii "expires", .signed 64, 4102444800⟩]
  distinct := List.nodup_singleton _
  terminated field mem := by
    rw [List.mem_singleton.mp mem]
    decide
  standard field mem := by
    rw [List.mem_singleton.mp mem]
    exact le_refl 64

/-- A time after 2038 comes back as another one. -/
theorem not_load_reload_expiring : ¬∀ (floats : Floats Unit) (visit : Iteration),
    ∀ field ∈ expiring.fields,
      (expiring.serialize.reload .ascii floats visit).load .ascii field.type field.key =
        field.value := by
  intro same
  have back := same ⟨fun _ => (), fun _ => [], fun _ => List.not_mem_nil⟩
    ⟨id, List.Perm.refl⟩ _ List.mem_cons_self
  have survives := (load_rounds_field_iff (fun _ => ⟨id, List.Perm.refl⟩) expiring 0
    List.mem_cons_self).mp back
  exact absurd survives.2 (by decide)

end Anope.Storage.Json
