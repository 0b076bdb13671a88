import Anope.Database.Tidy

/-!
# What a save writes

Along the runs in which modules bring types of their own and owners of databases
stay loaded, a save uses the databases of loaded modules, each with its own file,
and writes every object once.
-/

namespace Anope.Database

open Library Anope.Text Anope.Storage

variable {casemap : Casemap} {ρ : Type} {setup : Setup casemap ρ}

namespace State

/-- An entry in the database of an owner. -/
def HasEntry (state : State casemap ρ) (owner : Option Nat) (entry : Entry) : Prop :=
  ∃ database ∈ state.databases, database.1 = owner ∧ entry ∈ database.2

/-- How often an object is in a database. -/
def copiesIn (address : Nat) (database : Option Nat × List Entry) : Nat :=
  database.2.countP fun entry => decide (entry.source = some address)

/-- How often an object is in the databases. -/
def copies (state : State casemap ρ) (address : Nat) : Nat :=
  (state.databases.map (copiesIn address)).sum

variable {state : State casemap ρ} {owner : Option Nat} {entry : Entry}

/-! ## Clearing -/

theorem hasEntry_clear (has : (state.clear setup).HasEntry owner entry) :
    setup.preserveUnknownData = true ∧ state.HasEntry owner entry := by
  rcases has with ⟨database, mem, isOwner, inDatabase⟩
  rw [clear] at mem
  cases preserve : setup.preserveUnknownData with
  | false =>
      rw [preserve] at mem
      cases mem
  | true =>
      rw [preserve] at mem
      exact ⟨rfl, database, mem, isOwner, inDatabase⟩

theorem hasEntry_clearType {type : SerializeType}
    (has : (state.clearType type).HasEntry owner entry) : state.HasEntry owner entry := by
  rcases has with ⟨database, mem, rfl, inDatabase⟩
  rcases Keyed.mem_alter mem with old | ⟨found, ofOwner, is⟩
  · exact ⟨database, old, rfl, inDatabase⟩
  · rw [← Option.some.inj is] at inDatabase ⊢
    cases found with
    | none => exact nomatch inDatabase
    | some old =>
        rcases ofOwner old rfl with ⟨isOld, sameOwner⟩
        exact ⟨old, isOld, sameOwner, List.mem_of_mem_filter inDatabase⟩

theorem keeps_clearType (type : SerializeType) :
    Keyed.Keeps Prod.fst type.owner fun found : Option (Option Nat × List Entry) =>
      some (type.owner, (found.elim [] Prod.snd).filter
        fun entry => !decide (entry.IsOf casemap type.name)) :=
  fun _ _ _ is => Option.some.inj is ▸ rfl

theorem nodup_keys_clearType (distinct : state.keys.Nodup) (type : SerializeType) :
    (state.clearType type).keys.Nodup :=
  Keyed.nodup_alter (keeps_clearType type) distinct

/-- Nothing of a type is left in the database of its owner. -/
theorem not_isOf_of_hasEntry_clearType (distinct : state.keys.Nodup) {type : SerializeType}
    (has : (state.clearType type).HasEntry type.owner entry) : ¬entry.IsOf casemap type.name := by
  rcases has with ⟨database, mem, isOwner, inDatabase⟩
  have found := Keyed.find_of_mem (nodup_keys_clearType distinct type) mem
  rw [isOwner] at found
  have same := Option.some.inj
    (found.symm.trans (Keyed.find_alter_self (keeps_clearType type) distinct))
  rw [same] at inDatabase
  have kept := (List.mem_filter.mp inDatabase).2
  exact fun isOf => by
    rw [decide_eq_true isOf] at kept
    exact Bool.noConfusion kept

theorem hasEntry_foldl_clearType {types : List SerializeType}
    (has : (types.foldl clearType state).HasEntry owner entry) : state.HasEntry owner entry := by
  induction types generalizing state with
  | nil => exact has
  | cons type types ih => exact hasEntry_clearType (ih has)

theorem nodup_keys_foldl_clearType (distinct : state.keys.Nodup) (types : List SerializeType) :
    (types.foldl clearType state).keys.Nodup := by
  induction types generalizing state with
  | nil => exact distinct
  | cons type types ih => exact ih (nodup_keys_clearType distinct type)

theorem not_isOf_of_hasEntry_foldl (distinct : state.keys.Nodup) {types : List SerializeType}
    {type : SerializeType} (mem : type ∈ types)
    (has : (types.foldl clearType state).HasEntry type.owner entry) :
    ¬entry.IsOf casemap type.name := by
  induction types generalizing state with
  | nil => cases mem
  | cons first types ih =>
      rcases List.mem_cons.mp mem with rfl | later
      · exact not_isOf_of_hasEntry_clearType distinct (hasEntry_foldl_clearType has)
      · exact ih (nodup_keys_clearType distinct first) later has

/-! ## Storing -/

/-- The entry of an object. -/
def entryOf (type : SerializeType) (item : Item casemap) : Entry :=
  ⟨type.name, item.object.serialize, some item.address⟩

theorem hasEntry_storeItem {item : Item casemap}
    (has : (state.storeItem item).HasEntry owner entry) :
    state.HasEntry owner entry ∨
      ∃ type, state.registry.typeOf item = some type ∧ type.owner = owner ∧
        entry = entryOf type item := by
  rw [storeItem] at has
  split at has
  · split at has
    · exact Or.inl has
    · rename_i type isType
      rcases has with ⟨database, mem, rfl, inDatabase⟩
      rcases Keyed.mem_alter mem with old | ⟨found, ofOwner, is⟩
      · exact Or.inl ⟨database, old, rfl, inDatabase⟩
      · rcases Option.map_eq_some_iff.mp is with ⟨old, rfl, rfl⟩
        rcases ofOwner old rfl with ⟨isOld, sameOwner⟩
        rcases List.mem_append.mp inDatabase with before | last
        · exact Or.inl ⟨old, isOld, sameOwner, before⟩
        · exact Or.inr ⟨type, isType, rfl, List.mem_singleton.mp last⟩
  · exact Or.inl has

theorem registry_storeItem (item : Item casemap) :
    (state.storeItem item).registry = state.registry := by
  rw [storeItem_eq]

theorem hasEntry_foldl_storeItem {items : List (Item casemap)}
    (has : (items.foldl storeItem state).HasEntry owner entry) :
    state.HasEntry owner entry ∨
      ∃ item ∈ items, ∃ type, state.registry.typeOf item = some type ∧ type.owner = owner ∧
        entry = entryOf type item := by
  induction items generalizing state with
  | nil => exact Or.inl has
  | cons item items ih =>
      rcases ih has with before | ⟨other, mem, type, isType, rest⟩
      · rcases hasEntry_storeItem before with old | ⟨type, made⟩
        · exact Or.inl old
        · exact Or.inr ⟨item, List.mem_cons_self, type, made⟩
      · rw [registry_storeItem] at isType
        exact Or.inr ⟨other, List.mem_cons_of_mem item mem, type, isType, rest⟩

/-- The entries that a save writes: those that were preserved, and one of every
object. -/
theorem hasEntry_stored (has : (state.stored setup).HasEntry owner entry) :
    (setup.preserveUnknownData = true ∧ state.HasEntry owner entry) ∨
      ∃ item ∈ state.registry.items, ∃ type, state.registry.typeOf item = some type ∧
        type.owner = owner ∧ entry = entryOf type item := by
  have sameRegistry : (state.registered.foldl clearType (state.clear setup)).registry =
      state.registry := registry_foldl_clearType _ _
  rcases hasEntry_foldl_storeItem has with before | made
  · exact Or.inl (hasEntry_clear (hasEntry_foldl_clearType before))
  · rw [sameRegistry] at made
    exact Or.inr made

theorem nodup_keys_clear (distinct : state.keys.Nodup) : (state.clear setup).keys.Nodup := by
  rw [keys, clear]
  cases setup.preserveUnknownData with
  | true => exact distinct
  | false => exact List.nodup_nil

theorem nodup_keys_stored (distinct : state.keys.Nodup) : (state.stored setup).keys.Nodup := by
  rw [stored, keys_foldl_storeItem]
  exact nodup_keys_foldl_clearType (nodup_keys_clear distinct) _

/-! ## Counting -/

/-- An object that is saved as an object of a type. -/
def Saved (registry : Registry casemap) (item : Item casemap) : Bool :=
  item.shouldCommit && (registry.typeOf item).isSome

theorem copies_eq_zero {address : Nat}
    (absent : ∀ owner entry, state.HasEntry owner entry → entry.source ≠ some address) :
    state.copies address = 0 := by
  refine List.sum_eq_zero_iff_forall_eq_nat.mpr fun count mem => ?_
  rcases List.mem_map.mp mem with ⟨database, inDatabases, rfl⟩
  refine List.countP_eq_zero.mpr fun entry inDatabase isSource => ?_
  exact absent database.1 entry ⟨database, inDatabases, rfl, inDatabase⟩
    (of_decide_eq_true isSource)

/-- The state after an object of a type is stored. -/
def storeItemOf (state : State casemap ρ) (type : SerializeType) (item : Item casemap) :
    State casemap ρ :=
  { state with
    databases := Keyed.alter Prod.fst type.owner
      (fun found => found.map fun database => (type.owner, database.2 ++ [entryOf type item]))
      state.databases }

/-- Storing an object adds one copy of it and of no other. -/
theorem copies_storeItem {item : Item casemap}
    (present : ∀ type, state.registry.typeOf item = some type → type.owner ∈ state.keys)
    (address : Nat) :
    (state.storeItem item).copies address = state.copies address +
      if (decide (item.address = address) && Saved state.registry item) = true then 1 else 0 := by
  rw [storeItem, Saved]
  cases item.shouldCommit with
  | false =>
      rw [if_neg Bool.false_ne_true, Bool.false_and, Bool.and_false, if_neg Bool.false_ne_true]
      rfl
  | true =>
      rw [if_pos rfl, Bool.true_and]
      cases isType : state.registry.typeOf item with
      | none =>
          rw [Option.isSome_none, Bool.and_false, if_neg Bool.false_ne_true]
          rfl
      | some type =>
          rcases List.mem_map.mp (present type isType) with ⟨database, mem, isOwner⟩
          have isFound : ∃ found, Keyed.find Prod.fst type.owner state.databases = some found := by
            cases is : Keyed.find Prod.fst type.owner state.databases with
            | some found => exact ⟨found, rfl⟩
            | none => exact absurd isOwner (Keyed.find_eq_none_iff.mp is database mem)
          rcases isFound with ⟨found, is⟩
          have counted : (state.storeItemOf type item).copies address +
              (found.2.countP fun entry => decide (entry.source = some address)) =
                state.copies address + (found.2 ++ [entryOf type item]).countP
                  fun entry => decide (entry.source = some address) :=
            Keyed.sum_map_alter (copiesIn address)
              (fun found => found.map fun database : Option Nat × List Entry =>
                (type.owner, database.2 ++ [entryOf type item])) is rfl
          rw [List.countP_append, List.countP_singleton] at counted
          rw [Option.isSome_some, Bool.and_true]
          have sameTest : (decide ((entryOf type item).source = some address) = true) =
              (decide (item.address = address) = true) := by
            rw [decide_eq_true_eq, decide_eq_true_eq, entryOf, Option.some.injEq]
          simp only [sameTest] at counted
          rw [← Nat.add_assoc, Nat.add_right_comm] at counted
          exact Nat.add_right_cancel counted

/-- Storing some objects adds one copy of each that is saved. -/
theorem copies_foldl_storeItem {items : List (Item casemap)}
    (present : ∀ item ∈ items, ∀ type, state.registry.typeOf item = some type →
      type.owner ∈ state.keys) (address : Nat) :
    (items.foldl storeItem state).copies address = state.copies address +
      items.countP fun item => decide (item.address = address) && Saved state.registry item := by
  induction items generalizing state with
  | nil => rfl
  | cons item items ih =>
      have first := copies_storeItem (present item List.mem_cons_self) address
      have presentAfter : ∀ other ∈ items, ∀ type,
          (state.storeItem item).registry.typeOf other = some type →
            type.owner ∈ (state.storeItem item).keys := by
        intro other mem type isType
        rw [registry_storeItem] at isType
        rw [keys_storeItem]
        exact present other (List.mem_cons_of_mem item mem) type isType
      have rest := ih presentAfter
      rw [List.foldl_cons, rest, first, registry_storeItem, List.countP_cons, Nat.add_assoc,
        Nat.add_comm (ite _ _ _)]

end State

/-! ## One save -/

/-- What a save of the databases gets right: the modules whose databases it writes
are loaded, no two databases have one file, and every object of a registered type
that is to be committed is in them once. -/
structure SavesOnce (setup : Setup casemap ρ) (state : State casemap ρ) : Prop where
  loaded : ∀ address, some address ∈ (state.stored setup).keys → state.registry.Loaded address
  files : ((state.stored setup).keys.map
    (State.getDatabaseFile setup state.registry)).Nodup
  once : ∀ item ∈ state.registry.items, item.shouldCommit = true → item.type ≠ none →
    (state.stored setup).copies item.address = 1

namespace Tidy

variable {state : State casemap ρ} (tidy : Tidy setup state)

include tidy

theorem registered_eq : state.registered = state.registry.types :=
  tidy.registry.filterMap_find

theorem mem_owners_of_stored {owner : Option Nat} (mem : owner ∈ (state.stored setup).keys) :
    owner ∈ state.registry.owners := by
  rcases (State.mem_keys_stored state).mp mem with ⟨preserve, old⟩ | ⟨type, inTypes, rfl⟩
  · exact tidy.keys preserve owner old
  · exact Registry.mem_owners_of_mem (tidy.registered_eq ▸ inTypes)

/-- Before the objects are stored there is nothing left of one that will be. -/
theorem copies_cleared {item : Item casemap} (mem : item ∈ state.registry.items)
    {type : SerializeType} (isType : state.registry.typeOf item = some type) :
    (state.registered.foldl State.clearType (state.clear setup)).copies item.address = 0 := by
  rcases tidy.registry.typeOf_eq_some_iff.mp isType with ⟨inTypes, isAddress⟩
  refine State.copies_eq_zero fun owner entry has isSource => ?_
  rcases State.hasEntry_clear (State.hasEntry_foldl_clearType has) with
    ⟨preserve, database, inDatabases, rfl, inDatabase⟩
  have isOwner := tidy.placed preserve database inDatabases entry inDatabase item mem isSource
    type inTypes isAddress
  rw [isOwner] at has
  have registered : type ∈ state.registered := tidy.registered_eq.symm ▸ inTypes
  refine State.not_isOf_of_hasEntry_foldl (State.nodup_keys_clear tidy.distinct) registered has ?_
  rcases tidy.registry.typed item mem type.address isAddress with ⟨other, inOther, isName, same⟩
  have named := (tidy.sources database inDatabases entry inDatabase item.address isSource).2
    item mem rfl
  rw [Entry.IsOf, named, ← isName, tidy.registry.eq_of_address inOther inTypes same]

/-- A save of tidy databases writes every object once. -/
theorem savesOnce : SavesOnce setup state where
  loaded address mem := tidy.registry.loaded_of_owner (tidy.mem_owners_of_stored mem)
  files := by
    refine List.Nodup.map_on (fun owner mem other inKeys same => ?_)
      (State.nodup_keys_stored tidy.distinct)
    exact tidy.files owner (tidy.mem_owners_of_stored mem) other
      (tidy.mem_owners_of_stored inKeys) same
  once item mem commit isTyped := by
    rcases Option.ne_none_iff_exists'.mp isTyped with ⟨address, isAddress⟩
    rcases tidy.registry.typed item mem address isAddress with ⟨type, inTypes, _, rfl⟩
    have isType := tidy.registry.typeOf_eq_some_iff.mpr ⟨inTypes, isAddress⟩
    have sameRegistry : (state.registered.foldl State.clearType (state.clear setup)).registry =
        state.registry := State.registry_foldl_clearType _ _
    have present : ∀ other ∈ state.registry.items, ∀ type,
        (state.registered.foldl State.clearType (state.clear setup)).registry.typeOf other =
          some type →
        type.owner ∈ (state.registered.foldl State.clearType (state.clear setup)).keys := by
      intro other _ type isOther
      rw [sameRegistry] at isOther
      rw [State.mem_keys_foldl_clearType, tidy.registered_eq]
      exact Or.inr ⟨type, (tidy.registry.typeOf_eq_some_iff.mp isOther).1, rfl⟩
    have saved : State.Saved state.registry item = true := by
      rw [State.Saved, commit, isType]
      rfl
    rw [State.stored, sameRegistry, State.copies_foldl_storeItem present,
      tidy.copies_cleared mem isType, sameRegistry, Nat.zero_add]
    exact Keyed.countP_key tidy.registry.items mem saved

/-- Saving leaves the databases tidy. -/
theorem onSaveDatabase : Tidy setup (state.onSaveDatabase setup) := by
  have wrote : State.Wrote setup ((state.stored setup).targets setup) (state.stored setup)
      (state.onSaveDatabase setup) :=
    State.wrote_onSaveDatabase state
  have sameRegistry : (state.stored setup).registry = state.registry := by
    rw [State.stored_eq]
  have stored : Tidy setup (state.stored setup) := by
    constructor
    · rw [sameRegistry]
      exact tidy.registry
    · rw [sameRegistry]
      exact tidy.files
    · exact State.nodup_keys_stored tidy.distinct
    · rw [sameRegistry]
      exact fun _ owner mem => tidy.mem_owners_of_stored mem
    · intro database inDatabases entry inDatabase address isSource
      rw [sameRegistry]
      rcases State.hasEntry_stored ⟨database, inDatabases, rfl, inDatabase⟩ with
        ⟨_, old, isOld, _, inOld⟩ | ⟨item, mem, type, isType, _, rfl⟩
      · exact tidy.sources old isOld entry inOld address isSource
      · rcases tidy.registry.typeOf_eq_some_iff.mp isType with ⟨inTypes, isAddress⟩
        rcases tidy.registry.typed item mem _ isAddress with ⟨other, inOther, isName, same⟩
        rw [← Option.some.inj isSource]
        refine ⟨tidy.registry.itemsBelow item mem, fun found inItems isFound => ?_⟩
        rw [tidy.registry.item_eq inItems mem isFound, ← isName,
          tidy.registry.eq_of_address inOther inTypes same]
        rfl
    · intro preserve database inDatabases entry inDatabase item mem isSource type inTypes isAddress
      rw [sameRegistry] at mem inTypes
      rcases State.hasEntry_stored ⟨database, inDatabases, rfl, inDatabase⟩ with
        ⟨_, old, isOld, isOwner, inOld⟩ | ⟨other, inItems, found, isFound, isOwner, rfl⟩
      · rw [← isOwner]
        exact tidy.placed preserve old isOld entry inOld item mem isSource type inTypes isAddress
      · have isItem := tidy.registry.item_eq inItems mem (Option.some.inj isSource)
        have isType := tidy.registry.typeOf_eq_some_iff.mpr ⟨inTypes, isAddress⟩
        rw [isItem, isType] at isFound
        rw [← isOwner, Option.some.inj isFound]
  exact stored.of_eq wrote.registry wrote.databases

/-- One orderly act. -/
theorem step {next : State casemap ρ} {act : Act casemap} (orderly : Orderly setup state act)
    (stepped : Database.step setup state act = some next) : Tidy setup next := by
  cases act with
  | start =>
      cases stepped
      exact tidy.onLoadDatabase
  | attach =>
      cases stepped
      exact ⟨tidy.registry, tidy.files, List.nodup_nil, fun _ _ mem => (nomatch mem),
        fun _ mem => (nomatch mem), fun _ _ mem => (nomatch mem)⟩
  | load address name types =>
      rcases Option.ite_none_right_eq_some.mp stepped with ⟨can, is⟩
      cases is
      exact (tidy.attachModule can.2 orderly).createTypes
  | loadFailed address name types =>
      rcases Option.ite_none_right_eq_some.mp stepped with ⟨can, is⟩
      cases is
      exact tidy.loadFailed can.2 orderly.1 orderly.2
  | unload address =>
      rcases Option.ite_none_right_eq_some.mp stepped with ⟨_, is⟩
      cases is
      exact tidy.detachModule orderly
  | construct name object =>
      cases stepped
      exact tidy.construct name object
  | destruct address =>
      cases stepped
      exact tidy.destruct address
  | discard address =>
      cases stepped
      exact tidy.discard address
  | save =>
      cases stepped
      exact tidy.onSaveDatabase

end Tidy

/-! ## Runs -/

theorem tidy_boot (files : Str → File ρ) : Tidy setup (boot casemap files) where
  registry := Registry.sound_core
  files := by
    have isCore : ∀ owner ∈ (Registry.core casemap).owners, owner = none := by
      intro owner mem
      rcases Registry.mem_owners_iff.mp mem with isNone | ⟨type, inTypes, rfl⟩
      · exact isNone
      · rw [types_core] at inTypes
        rcases List.mem_map.mp inTypes with ⟨_, _, rfl⟩
        rfl
    exact fun owner mem other inOwners _ => (isCore owner mem).trans (isCore other inOwners).symm
  distinct := List.nodup_nil
  keys _ _ mem := nomatch mem
  sources _ mem := nomatch mem
  placed _ _ mem := nomatch mem

/-- In every state of a run of orderly acts a save gets everything right. -/
theorem always_savesOnce (setup : Setup casemap ρ) (files : Str → File ρ)
    (acts : List (Act casemap))
    (orderly : Run.EachStep (step setup) (Orderly setup) (boot casemap files) acts) :
    Run.Always (step setup) (SavesOnce setup) (boot casemap files) acts := by
  have tidy : Run.Always (step setup) (Tidy setup) (boot casemap files) acts :=
    Run.always_of_eachStep (fun before isOrderly stepped => before.step isOrderly stepped)
      (tidy_boot files) orderly
  exact tidy.imp fun _ tidy => tidy.savesOnce

/-- A module with a database of its own is loaded. -/
theorem always_savesOnce_load :
    Run.Always (step defaultSetup) (SavesOnce defaultSetup)
      (boot .ascii fun _ => .object ⟨1, some []⟩)
      [.start, .load 1 (ascii "m_third") [(ascii "Third", true)], .save] := by
  refine always_savesOnce _ _ _ fun started isStarted => ⟨trivial, fun loaded _ => ⟨?_, ?_⟩⟩
  · cases isStarted
    refine ⟨List.nodup_singleton _, ?_, ?_, fun _ _ _ _ mem => nomatch mem⟩
    · intro type mem
      rw [List.mem_singleton.mp mem]
      decide
    · intro _ _ _ owner mem
      have isCore : owner = none := by
        rcases Registry.mem_owners_iff.mp mem with isNone | ⟨type, inTypes, rfl⟩
        · exact isNone
        · change type ∈ (Registry.core .ascii).types at inTypes
          rw [types_core] at inTypes
          rcases List.mem_map.mp inTypes with ⟨_, _, rfl⟩
          rfl
      rw [isCore]
      decide
  · exact fun _ _ => ⟨trivial, trivial⟩

/-- A module that owns a database is deleted before a save. -/
theorem not_always_savesOnce_unload :
    ¬Run.Always (step defaultSetup) (SavesOnce defaultSetup)
      (boot .ascii fun _ => .object ⟨1, some []⟩)
      [.start, .load 1 (ascii "m_third") [(ascii "Third", true)], .unload 1, .save] := by
  rintro ⟨-, afterStart⟩
  have afterLoad := (afterStart _ rfl).2 _ rfl
  have beforeSave := (afterLoad.2 _ rfl).head
  have isLoaded := beforeSave.loaded 1 (List.mem_cons_of_mem _ List.mem_cons_self)
  rcases isLoaded with ⟨_, mem, _⟩
  exact nomatch mem

end Anope.Database
