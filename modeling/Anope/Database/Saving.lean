import Anope.Database.Backend

/-!
# What is saved

The owners whose databases a save writes, the files of these, and that a file
which was written can be read again.
-/

namespace Anope.Database

open Library Anope.Text Anope.Storage

variable {casemap : Casemap} {ρ : Type} {setup : Setup casemap ρ}

/-- A file that `ReadDatabase` does not refuse. -/
def Readable (setup : Setup casemap ρ) (file : File ρ) : Prop :=
  (readDatabase setup file).isSome = true

/-- A database that was written can be read. -/
theorem readable_document (entries : List Entry) : Readable setup (document setup entries) := by
  rw [Readable, document, readDatabase, if_neg fun unsupported => unsupported.2 rfl]
  rfl

namespace State

/-- The owners that have an entry in `databases`. -/
def keys (state : State casemap ρ) : List (Option Nat) :=
  state.databases.map Prod.fst

section

variable (state : State casemap ρ)

theorem mem_keys_clearType {type : SerializeType} {owner : Option Nat} :
    owner ∈ (state.clearType type).keys ↔ owner ∈ state.keys ∨ owner = type.owner := by
  refine Keyed.mem_map_key_alter_iff ?_
  exact fun found => ⟨_, rfl, rfl⟩

theorem mem_keys_foldl_clearType {types : List SerializeType} {owner : Option Nat} :
    owner ∈ (types.foldl clearType state).keys ↔
      owner ∈ state.keys ∨ ∃ type ∈ types, type.owner = owner := by
  induction types generalizing state with
  | nil => exact (or_iff_left fun ⟨_, mem, _⟩ => nomatch mem).symm
  | cons first types ih =>
      rw [List.foldl_cons, ih, mem_keys_clearType, or_assoc, eq_comm]
      refine or_congr_right ?_
      simp only [List.mem_cons, exists_eq_or_imp]

theorem keeps_emplace (owner : Option Nat) (entries : List Entry) :
    Keyed.Keeps Prod.fst owner fun found : Option (Option Nat × List Entry) =>
      some (found.getD (owner, entries)) := by
  intro found ofOwner database is
  rw [← Option.some.inj is]
  cases found with
  | none => rfl
  | some old => exact ofOwner old rfl

theorem mem_keys_emplace {owner other : Option Nat} {entries : List Entry}
    (mem : other ∈ (state.emplace owner entries).keys) : other ∈ state.keys ∨ other = owner :=
  Keyed.map_key_alter_subset (keeps_emplace owner entries) mem

@[simp]
theorem keys_storeItem (item : Item casemap) : (state.storeItem item).keys = state.keys := by
  rw [storeItem]
  split
  · split
    · rfl
    · exact Keyed.map_key_alter_of_present rfl fun _ _ => ⟨_, rfl, rfl⟩
  · rfl

@[simp]
theorem keys_foldl_storeItem (items : List (Item casemap)) :
    (items.foldl storeItem state).keys = state.keys := by
  induction items generalizing state with
  | nil => rfl
  | cons item items ih => rw [List.foldl_cons, ih, keys_storeItem]

@[simp]
theorem registry_foldl_clearType (types : List SerializeType) :
    (types.foldl clearType state).registry = state.registry := by
  induction types generalizing state with
  | nil => rfl
  | cons type types ih => exact ih (state.clearType type)

end

/-- Storing an object changes nothing but the databases. -/
theorem storeItem_eq (state : State casemap ρ) (item : Item casemap) :
    state.storeItem item = { state with databases := (state.storeItem item).databases } := by
  rw [storeItem]
  split
  · split <;> rfl
  · rfl

theorem foldl_storeItem_eq (items : List (Item casemap)) (state : State casemap ρ) :
    items.foldl storeItem state =
      { state with databases := (items.foldl storeItem state).databases } := by
  induction items generalizing state with
  | nil => rfl
  | cons item items ih =>
      rw [List.foldl_cons, ih, storeItem_eq]

theorem foldl_clearType_eq (types : List SerializeType) (state : State casemap ρ) :
    types.foldl clearType state =
      { state with databases := (types.foldl clearType state).databases } := by
  induction types generalizing state with
  | nil => rfl
  | cons type types ih =>
      rw [List.foldl_cons, ih]
      rfl

/-- Collecting the databases changes nothing else. -/
theorem stored_eq (setup : Setup casemap ρ) (state : State casemap ρ) :
    state.stored setup = { state with databases := (state.stored setup).databases } := by
  rw [stored, foldl_storeItem_eq, foldl_clearType_eq]
  rfl

/-- The owners whose databases are written: those that were kept, and those of the
registered types. -/
theorem mem_keys_stored (state : State casemap ρ) {owner : Option Nat} :
    owner ∈ (state.stored setup).keys ↔
      (setup.preserveUnknownData = true ∧ owner ∈ state.keys) ∨
        ∃ type ∈ state.registered, type.owner = owner := by
  have cleared : owner ∈ (state.clear setup).keys ↔
      setup.preserveUnknownData = true ∧ owner ∈ state.keys := by
    rw [keys, clear]
    cases setup.preserveUnknownData with
    | true => exact (and_iff_right rfl).symm
    | false => exact iff_of_false List.not_mem_nil fun both => Bool.noConfusion both.1
  rw [stored, keys_foldl_storeItem, mem_keys_foldl_clearType, cleared]

theorem mem_types_of_registered {state : State casemap ρ} {type : SerializeType}
    (mem : type ∈ state.registered) : type ∈ state.registry.types := by
  rcases List.mem_filterMap.mp mem with ⟨name, _, found⟩
  rcases Option.bind_eq_some_iff.mp found with ⟨address, _, isType⟩
  exact Keyed.mem_of_find isType

/-! ## Files -/

/-- The file that is written for an entry of `databases`. -/
def target (setup : Setup casemap ρ) (registry : Registry casemap)
    (database : Option Nat × List Entry) : Option Str :=
  (getDatabaseFile setup registry database.1).filter fun file => setup.writable file

theorem target_eq_some_iff {registry : Registry casemap} {database : Option Nat × List Entry}
    {file : Str} :
    target setup registry database = some file ↔
      getDatabaseFile setup registry database.1 = some file ∧ setup.writable file = true := by
  rw [target, Option.filter_eq_some_iff]

/-- The files that a save writes. -/
def targets (setup : Setup casemap ρ) (state : State casemap ρ) : List Str :=
  state.databases.filterMap (target setup state.registry)

theorem mem_targets {state : State casemap ρ} {file : Str} :
    file ∈ state.targets setup ↔
      ∃ owner ∈ state.keys, getDatabaseFile setup state.registry owner = some file ∧
        setup.writable file = true := by
  rw [targets, keys, List.mem_filterMap]
  constructor
  · rintro ⟨database, mem, is⟩
    exact ⟨database.1, List.mem_map_of_mem mem, target_eq_some_iff.mp is⟩
  · rintro ⟨owner, mem, is⟩
    rcases List.mem_map.mp mem with ⟨database, inDatabases, rfl⟩
    exact ⟨database, inDatabases, target_eq_some_iff.mpr is⟩

/-- What writing one database changes. -/
theorem write_cases (state : State casemap ρ) (database : Option Nat × List Entry) :
    (target setup state.registry database = none ∧
        (state.write setup database = state ∨
          state.write setup database = { state with quitting := true })) ∨
      ∃ file, target setup state.registry database = some file ∧
        state.write setup database = { state with
          files := Function.update state.files file (document setup database.2)
          trace := state.trace ++ [.wrote file] } := by
  rw [write, target]
  cases getDatabaseFile setup state.registry database.1 with
  | none => exact Or.inl ⟨rfl, Or.inl rfl⟩
  | some file =>
      cases able : setup.writable file with
      | true => exact Or.inr ⟨file, Option.filter_some_pos able, if_pos able⟩
      | false =>
          exact Or.inl ⟨Option.filter_some_neg able, Or.inr (if_neg (Bool.eq_false_iff.mp able))⟩

/-- What writing some files changes. -/
structure Wrote (setup : Setup casemap ρ) (written : List Str) (state final : State casemap ρ) :
    Prop where
  registry : final.registry = state.registry
  databases : final.databases = state.databases
  loaded : final.loaded = state.loaded
  trace : final.trace = state.trace ++ written.map Event.wrote
  readable : ∀ file ∈ written, Readable setup (final.files file)
  unchanged : ∀ file ∉ written, final.files file = state.files file

theorem Wrote.trans {first second : List Str} {state middle final : State casemap ρ}
    (before : Wrote setup first state middle) (after : Wrote setup second middle final) :
    Wrote setup (first ++ second) state final where
  registry := after.registry.trans before.registry
  databases := after.databases.trans before.databases
  loaded := after.loaded.trans before.loaded
  trace := by rw [after.trace, before.trace, List.map_append, List.append_assoc]
  readable file mem := by
    by_cases later : file ∈ second
    · exact after.readable file later
    · rw [after.unchanged file later]
      exact before.readable file ((List.mem_append.mp mem).resolve_right later)
  unchanged file notMem := by
    rw [List.mem_append, not_or] at notMem
    rw [after.unchanged file notMem.2, before.unchanged file notMem.1]

/-- Writing one database. -/
theorem wrote_write (state : State casemap ρ) (database : Option Nat × List Entry) :
    Wrote setup (target setup state.registry database).toList state
      (state.write setup database) := by
  rcases write_cases state database with ⟨noTarget, is | is⟩ | ⟨file, isTarget, is⟩
  · rw [noTarget, is]
    exact ⟨rfl, rfl, rfl, (List.append_nil _).symm, fun _ mem => (nomatch mem), fun _ _ => rfl⟩
  · rw [noTarget, is]
    exact ⟨rfl, rfl, rfl, (List.append_nil _).symm, fun _ mem => (nomatch mem), fun _ _ => rfl⟩
  · rw [isTarget, is]
    refine ⟨rfl, rfl, rfl, rfl, fun other mem => ?_, fun other notMem => ?_⟩
    · rw [List.mem_singleton.mp mem]
      change Readable setup (Function.update state.files file (document setup database.2) file)
      rw [Function.update_self]
      exact readable_document database.2
    · exact Function.update_of_ne (List.ne_of_not_mem_cons notMem) _ _

/-- Writing a number of databases. -/
theorem wrote_foldl (databases : List (Option Nat × List Entry)) (state : State casemap ρ) :
    Wrote setup (databases.filterMap (target setup state.registry)) state
      (databases.foldl (write setup) state) := by
  induction databases generalizing state with
  | nil =>
      exact ⟨rfl, rfl, rfl, (List.append_nil _).symm, fun _ mem => (nomatch mem), fun _ _ => rfl⟩
  | cons database databases ih =>
      have first : Wrote setup (target setup state.registry database).toList state
          (state.write setup database) :=
        wrote_write state database
      have rest := ih (state.write setup database)
      rw [first.registry] at rest
      have all := first.trans rest
      rw [List.foldl_cons]
      rw [List.filterMap_cons]
      cases is : target setup state.registry database with
      | none =>
          rw [is] at all
          exact all
      | some file =>
          rw [is] at all
          exact all

/-- What a save writes. -/
theorem wrote_onSaveDatabase (state : State casemap ρ) :
    Wrote setup ((state.stored setup).targets setup) (state.stored setup)
      (state.onSaveDatabase setup) :=
  wrote_foldl _ _

end State

end Anope.Database

/-!
## Runs of services

What happens around the backend: services start, modules are loaded and deleted,
objects come and go, and the databases are saved.  The lemmas say what loading
leaves as it is.
-/

namespace Anope.Database

open Library Anope.Text Anope.Storage

/-- What may happen. -/
inductive Act (casemap : Casemap) where
  /-- `OnLoadDatabase` at the end of the start. -/
  | start
  /-- The backend itself is loaded again. -/
  | attach
  /-- `ModuleManager::LoadModule`. -/
  | load (address : Nat) (name : Str) (types : List (Str × Bool))
  /-- A module that is constructed and deleted since its configuration is bad. -/
  | loadFailed (address : Nat) (name : Str) (types : List (Str × Bool))
  /-- `ModuleManager::UnloadModule`. -/
  | unload (address : Nat)
  | construct (name : Str) (object : Json.Object casemap)
  | destruct (address : Nat)
  | discard (address : Nat)
  /-- `Anope::SaveDatabases`. -/
  | save

variable {casemap : Casemap} {ρ : Type} {setup : Setup casemap ρ}

/-- Whether a module is loaded at an address. -/
def Registry.Loaded (registry : Registry casemap) (address : Nat) : Prop :=
  ∃ loaded ∈ registry.modules, loaded.address = address

instance decidableLoaded (registry : Registry casemap) (address : Nat) :
    Decidable (registry.Loaded address) :=
  inferInstanceAs (Decidable (∃ loaded ∈ registry.modules, loaded.address = address))

/-- A module can be loaded when no other has its name; its address is free. -/
def Registry.CanLoad (registry : Registry casemap) (address : Nat) (name : Str) : Prop :=
  registry.findModule name = none ∧ ¬registry.Loaded address

instance decidableCanLoad (registry : Registry casemap) (address : Nat) (name : Str) :
    Decidable (registry.CanLoad address name) :=
  inferInstanceAs (Decidable (_ ∧ _))

/-- One act, where it is possible. -/
def step (setup : Setup casemap ρ) (state : State casemap ρ) :
    Act casemap → Option (State casemap ρ)
  | .start => some (state.onLoadDatabase setup)
  | .attach => some { state with databases := [], loaded := false }
  | .load address name types =>
      if state.registry.CanLoad address name then
        some (State.createTypes setup
          { state with registry := state.registry.attachModule address name types })
      else
        none
  | .loadFailed address name types =>
      if state.registry.CanLoad address name then
        some { state with
          registry := (state.registry.attachModule address name types).detachModule address }
      else
        none
  | .unload address =>
      if state.registry.Loaded address then
        some { state with registry := state.registry.detachModule address }
      else
        none
  | .construct name object =>
      some { state with registry := state.registry.construct name object }
  | .destruct address => some { state with registry := state.registry.destruct address }
  | .discard address => some { state with registry := state.registry.discard address }
  | .save => some (state.onSaveDatabase setup)

/-- The default configuration, with one text for every double and objects that
cannot be read. -/
def defaultSetup : Setup .ascii Unit where
  floats := ⟨fun _ => (), fun _ => [], fun _ => List.not_mem_nil⟩
  visit := ⟨id, List.Perm.refl⟩
  database := ascii "anope.json"
  moduleDatabase name := name ++ ascii ".module.json"
  preserveUnknownData := true
  writable _ := true
  unserialize _ _ _ := none

/-! ## Modules and their types -/

namespace Registry

variable (registry : Registry casemap)

/-- Loading objects of a type changes nothing but the objects. -/
theorem loadEntry_frame (setup : Setup casemap ρ) (type : SerializeType) (entry : Entry) :
    let final := loadEntry setup type registry entry
    final.modules = registry.modules ∧ final.types = registry.types ∧
      final.order = registry.order ∧ final.table = registry.table := by
  rw [loadEntry]
  cases setup.unserialize registry.items type.name entry.row with
  | none => exact ⟨rfl, rfl, rfl, rfl⟩
  | some object => exact ⟨rfl, rfl, rfl, rfl⟩

theorem loadType_frame (setup : Setup casemap ρ) (type : SerializeType) (entries : List Entry) :
    let final := loadType setup registry type entries
    final.modules = registry.modules ∧ final.types = registry.types ∧
      final.order = registry.order ∧ final.table = registry.table := by
  rw [loadType]
  induction entries.filter fun entry => decide (entry.IsOf casemap type.name) generalizing
      registry with
  | nil => exact ⟨rfl, rfl, rfl, rfl⟩
  | cons entry entries ih =>
      rcases ih (loadEntry setup type registry entry) with ⟨modules', types', order', table'⟩
      rcases loadEntry_frame registry setup type entry with ⟨modules, types, order, table⟩
      exact ⟨modules'.trans modules, types'.trans types, order'.trans order, table'.trans table⟩

/-- The modules while the members of one are constructed. -/
theorem modules_foldl_registerType (address : Nat) (types : List (Str × Bool)) :
    (types.foldl (fun registry type =>
        registry.registerType (some address) (if type.2 then some address else none) type.1)
      registry).modules = registry.modules := by
  induction types generalizing registry with
  | nil => rfl
  | cons type types ih => exact ih _

theorem modules_attachModule (address : Nat) (name : Str) (types : List (Str × Bool)) :
    (registry.attachModule address name types).modules =
      registry.modules ++ [⟨address, name⟩] :=
  modules_foldl_registerType _ address types

/-- The types while the members of a module are constructed. -/
theorem mem_types_foldl_registerType {address : Nat} {types : List (Str × Bool)}
    {type : SerializeType}
    (mem : type ∈ (types.foldl (fun registry type =>
        registry.registerType (some address) (if type.2 then some address else none) type.1)
      registry).types) :
    type ∈ registry.types ∨ (type.home = some address ∧
      (type.owner = none ∨ type.owner = some address ∧ ∃ member ∈ types, member.2 = true)) := by
  induction types generalizing registry with
  | nil => exact Or.inl mem
  | cons first types ih =>
      rw [List.foldl_cons] at mem
      rcases ih _ mem with old | ⟨home, owner⟩
      · rcases List.mem_append.mp old with old | new
        · exact Or.inl old
        · rw [List.mem_singleton.mp new]
          refine Or.inr ⟨rfl, ?_⟩
          by_cases owned : first.2 = true
          · exact Or.inr ⟨if_pos owned, first, List.mem_cons_self, owned⟩
          · exact Or.inl (if_neg owned)
      · refine Or.inr ⟨home, owner.imp_right fun ⟨is, member, inTypes, owned⟩ => ?_⟩
        exact ⟨is, member, List.mem_cons_of_mem first inTypes, owned⟩

/-- The types after a module was constructed: the old ones, and members that are
owned by the core or by the module. -/
theorem mem_types_attachModule {address : Nat} {name : Str} {types : List (Str × Bool)}
    {type : SerializeType} (mem : type ∈ (registry.attachModule address name types).types) :
    type ∈ registry.types ∨ (type.home = some address ∧
      (type.owner = none ∨ type.owner = some address ∧ ∃ member ∈ types, member.2 = true)) :=
  mem_types_foldl_registerType { registry with modules := registry.modules ++ [⟨address, name⟩] }
    mem

theorem modules_foldl_removeType (types : List SerializeType) :
    (types.foldl removeType registry).modules = registry.modules := by
  induction types generalizing registry with
  | nil => rfl
  | cons type types ih => exact ih _

theorem types_foldl_removeType (removed : List SerializeType) :
    (removed.foldl removeType registry).types =
      registry.types.filter fun type => removed.all fun other => type.address ≠ other.address := by
  induction removed generalizing registry with
  | nil => exact (List.filter_true _).symm
  | cons first removed ih =>
      rw [List.foldl_cons, ih, removeType, List.filter_filter]
      refine List.filter_congr fun type _ => ?_
      rw [List.all_cons, Bool.and_comm]

/-- The types after a module was deleted are not members of it. -/
theorem mem_types_detachModule {address : Nat} {type : SerializeType}
    (mem : type ∈ (registry.detachModule address).types) :
    type ∈ registry.types ∧ type.home ≠ some address := by
  have left : type ∈ ((registry.members address).reverse.foldl removeType registry).types := mem
  rw [types_foldl_removeType] at left
  rcases List.mem_filter.mp left with ⟨old, others⟩
  refine ⟨old, fun home => ?_⟩
  have isMember : type ∈ (registry.members address).reverse :=
    List.mem_reverse.mpr (List.mem_filter.mpr ⟨old, decide_eq_true home⟩)
  exact of_decide_eq_true (List.all_eq_true.mp others type isMember) rfl

theorem modules_detachModule (address : Nat) :
    (registry.detachModule address).modules =
      registry.modules.filter (·.address ≠ address) := by
  change List.filter _ ((registry.members address).reverse.foldl removeType registry).modules = _
  rw [modules_foldl_removeType]

end Registry

/-! ## Files of owners -/

namespace State

theorem getDatabaseFile_congr {registry other : Registry casemap}
    (modules : other.modules = registry.modules) (owner : Option Nat) :
    getDatabaseFile setup other owner = getDatabaseFile setup registry owner := by
  cases owner with
  | none => rfl
  | some address => rw [getDatabaseFile, modules, getDatabaseFile]

/-- A module has a file exactly while it is loaded. -/
theorem getDatabaseFile_some_iff {registry : Registry casemap} {address : Nat} :
    (∃ file, getDatabaseFile setup registry (some address) = some file) ↔
      registry.Loaded address := by
  rw [getDatabaseFile]
  cases found : Keyed.find Module.address address registry.modules with
  | none =>
      apply iff_of_false
      · rintro ⟨file, isFile⟩
        cases isFile
      · rintro ⟨loaded, mem, is⟩
        exact Keyed.find_eq_none_iff.mp found loaded mem is
  | some loaded =>
      refine iff_of_true ⟨_, rfl⟩ ?_
      exact ⟨loaded, Keyed.mem_of_find found, Keyed.key_of_find found⟩

/-- A module that is loaded keeps its file when another is loaded. -/
theorem getDatabaseFile_attachModule {registry : Registry casemap} {owner : Option Nat}
    {file : Str} (found : getDatabaseFile setup registry owner = some file) (address : Nat)
    (name : Str) (types : List (Str × Bool)) :
    getDatabaseFile setup (registry.attachModule address name types) owner = some file := by
  cases owner with
  | none => exact found
  | some other =>
      rw [getDatabaseFile] at found ⊢
      rcases Option.map_eq_some_iff.mp found with ⟨loaded, isFound, is⟩
      rw [Registry.modules_attachModule, Keyed.find, List.find?_append,
        show List.find? _ registry.modules = some loaded from isFound]
      exact congrArg some is

/-- A module that stays loaded keeps its file. -/
theorem getDatabaseFile_detachModule {registry : Registry casemap} {owner : Option Nat}
    {address : Nat} (different : owner ≠ some address) :
    getDatabaseFile setup (registry.detachModule address) owner =
      getDatabaseFile setup registry owner := by
  cases owner with
  | none => rfl
  | some other =>
      have kept : ∀ loaded : Module, loaded.address = other →
          decide (loaded.address ≠ address) = true := fun loaded is =>
        decide_eq_true fun same => different (congrArg some (is.symm.trans same))
      rw [getDatabaseFile, Registry.modules_detachModule, Keyed.find_filter kept, getDatabaseFile]

end State

end Anope.Database
