import Anope.Database.Sound

/-!
# Databases of loaded owners

What holds of the databases between saves while their owners stay loaded: every
owner has its own file, and what is left of an object from an earlier save is in
the database of the owner of its type.
-/

namespace Anope.Database

open Library Anope.Text Anope.Storage

variable {casemap : Casemap} {ρ : Type} {setup : Setup casemap ρ}

/-- The core and the owners of the registered types. -/
def Registry.owners (registry : Registry casemap) : List (Option Nat) :=
  none :: registry.types.map SerializeType.owner

/-- The owners are loaded and have files of their own, and the databases are theirs.
Without `preserve_unknown_data` a save forgets what was there before. -/
structure Tidy (setup : Setup casemap ρ) (state : State casemap ρ) : Prop where
  registry : state.registry.Sound
  files : ∀ owner ∈ state.registry.owners, ∀ other ∈ state.registry.owners,
    State.getDatabaseFile setup state.registry owner =
      State.getDatabaseFile setup state.registry other → owner = other
  distinct : state.keys.Nodup
  keys : setup.preserveUnknownData = true → ∀ owner ∈ state.keys, owner ∈ state.registry.owners
  sources : ∀ database ∈ state.databases, ∀ entry ∈ database.2, ∀ address,
    entry.source = some address → address < state.registry.next ∧
      ∀ item ∈ state.registry.items, item.address = address → entry.name = item.name
  placed : setup.preserveUnknownData = true → ∀ database ∈ state.databases,
    ∀ entry ∈ database.2, ∀ item ∈ state.registry.items, entry.source = some item.address →
      ∀ type ∈ state.registry.types, item.type = some type.address → database.1 = type.owner

theorem Registry.mem_owners_of_mem {registry : Registry casemap} {type : SerializeType}
    (mem : type ∈ registry.types) : type.owner ∈ registry.owners :=
  List.mem_cons_of_mem _ (List.mem_map_of_mem mem)

theorem Registry.mem_owners_iff {registry : Registry casemap} {owner : Option Nat} :
    owner ∈ registry.owners ↔ owner = none ∨ ∃ type ∈ registry.types, type.owner = owner := by
  rw [owners, List.mem_cons, List.mem_map]

/-- An owner that is a module is loaded. -/
theorem Registry.Sound.loaded_of_owner {registry : Registry casemap} (sound : registry.Sound)
    {address : Nat} (mem : some address ∈ registry.owners) : registry.Loaded address := by
  rcases Registry.mem_owners_iff.mp mem with isNone | ⟨type, inTypes, isOwner⟩
  · exact nomatch isNone
  · exact sound.loaded type inTypes address (sound.homes type inTypes address isOwner)

/-- What is read from a file comes from no object. -/
theorem source_of_mem_readDatabase {file : File ρ} {entries : List Entry}
    (read : readDatabase setup file = some entries) {entry : Entry} (mem : entry ∈ entries) :
    entry.source = none := by
  cases file with
  | absent | unreadable | malformed | notObject => exact nomatch read
  | object root =>
      rw [readDatabase] at read
      rcases Option.ite_none_left_eq_some.mp read with ⟨_, isData⟩
      rcases Option.map_eq_some_iff.mp isData with ⟨members, _, rfl⟩
      rcases List.mem_flatMap.mp mem with ⟨member, _, inMember⟩
      rcases List.mem_map.mp inMember with ⟨element, _, rfl⟩
      rfl

/-- A database is there already or is the one that is emplaced. -/
theorem State.mem_databases_emplace {state : State casemap ρ} {owner : Option Nat}
    {entries : List Entry} {database : Option Nat × List Entry}
    (mem : database ∈ (state.emplace owner entries).databases) :
    database ∈ state.databases ∨ database = (owner, entries) := by
  rcases Keyed.mem_alter mem with old | ⟨found, ofOwner, is⟩
  · exact Or.inl old
  · cases found with
    | none => exact Or.inr (Option.some.inj is).symm
    | some old => exact Or.inl (Option.some.inj is ▸ (ofOwner old rfl).1)

namespace Tidy

variable {state : State casemap ρ} (tidy : Tidy setup state)

include tidy

/-! ## Objects -/

/-- Objects that are left or changed in place keep the databases tidy. -/
theorem of_items {registry : Registry casemap} (sound : registry.Sound)
    (modules : registry.modules = state.registry.modules)
    (types : ∀ type ∈ registry.types, ∃ old ∈ state.registry.types,
      type.owner = old.owner ∧ type.address = old.address)
    (owners : ∀ owner, owner ∈ registry.owners ↔ owner ∈ state.registry.owners)
    (next : state.registry.next ≤ registry.next)
    (items : ∀ item ∈ registry.items, state.registry.next ≤ item.address ∨
      ∃ old ∈ state.registry.items, item.address = old.address ∧ item.name = old.name ∧
        item.type = old.type) :
    Tidy setup { state with registry := registry } where
  registry := sound
  files owner mem other inOwners same := by
    refine tidy.files owner ((owners owner).mp mem) other ((owners other).mp inOwners) ?_
    rwa [← State.getDatabaseFile_congr modules, ← State.getDatabaseFile_congr modules other]
  distinct := tidy.distinct
  keys preserve owner mem := (owners owner).mpr (tidy.keys preserve owner mem)
  sources database mem entry inDatabase address isSource := by
    rcases tidy.sources database mem entry inDatabase address isSource with ⟨below, named⟩
    refine ⟨Nat.lt_of_lt_of_le below next, fun item inItems isAddress => ?_⟩
    rcases items item inItems with new | ⟨old, isOld, sameAddress, sameName, -⟩
    · omega
    · rw [sameName]
      exact named old isOld (sameAddress.symm.trans isAddress)
  placed preserve database mem entry inDatabase item inItems isSource type inTypes isType := by
    rcases types type inTypes with ⟨oldType, isOldType, sameOwner, sameTypeAddress⟩
    rcases items item inItems with new | ⟨old, isOld, sameAddress, -, sameType⟩
    · have below := (tidy.sources database mem entry inDatabase _ isSource).1
      omega
    · rw [sameOwner]
      refine tidy.placed preserve database mem entry inDatabase old isOld ?_ oldType isOldType ?_
      · rw [isSource, sameAddress]
      · rw [← sameType, isType, sameTypeAddress]

theorem construct (name : Str) (object : Json.Object casemap) :
    Tidy setup { state with registry := state.registry.construct name object } := by
  refine tidy.of_items (tidy.registry.construct name object) rfl
    (fun type mem => ⟨type, mem, rfl, rfl⟩) (fun _ => Iff.rfl) (Nat.le_succ _) fun item mem => ?_
  rcases List.mem_append.mp mem with old | last
  · exact Or.inr ⟨item, old, rfl, rfl, rfl⟩
  · rw [List.mem_singleton.mp last]
    exact Or.inl (Nat.le_refl _)

theorem destruct (address : Nat) :
    Tidy setup { state with registry := state.registry.destruct address } :=
  tidy.of_items (tidy.registry.destruct address) rfl (fun type mem => ⟨type, mem, rfl, rfl⟩)
    (fun _ => Iff.rfl) (Nat.le_refl _) fun item mem =>
      Or.inr ⟨item, List.mem_of_mem_filter mem, rfl, rfl, rfl⟩

theorem discard (address : Nat) :
    Tidy setup { state with registry := state.registry.discard address } := by
  refine tidy.of_items (tidy.registry.discard address) rfl
    (fun type mem => ⟨type, mem, rfl, rfl⟩) (fun _ => Iff.rfl) (Nat.le_refl _) fun item mem => ?_
  rcases List.mem_map.mp mem with ⟨old, inItems, rfl⟩
  refine Or.inr ⟨old, inItems, ?_⟩
  split
  · exact ⟨rfl, rfl, rfl⟩
  · exact ⟨rfl, rfl, rfl⟩

theorem markCreated (address : Nat) :
    Tidy setup { state with registry := state.registry.markCreated address } := by
  have sameOwners : (state.registry.markCreated address).owners = state.registry.owners := by
    rw [Registry.owners, Registry.markCreated, List.map_map]
    refine congrArg _ (List.map_congr_left fun type _ => ?_)
    rw [Function.comp_apply]
    split <;> rfl
  refine tidy.of_items (tidy.registry.markCreated address) rfl (fun type mem => ?_)
    (fun owner => by rw [sameOwners]) (Nat.le_refl _) fun item mem =>
      Or.inr ⟨item, mem, rfl, rfl, rfl⟩
  rcases List.mem_map.mp mem with ⟨old, inTypes, rfl⟩
  refine ⟨old, inTypes, ?_⟩
  split
  · exact ⟨rfl, rfl⟩
  · exact ⟨rfl, rfl⟩

/-! ## Loading -/

/-- A database that was read is kept under its owner. -/
theorem emplace {owner : Option Nat} (isOwner : owner ∈ state.registry.owners)
    {entries : List Entry} (read : ∀ entry ∈ entries, entry.source = none) :
    Tidy setup (state.emplace owner entries) where
  registry := tidy.registry
  files := tidy.files
  distinct := Keyed.nodup_alter (State.keeps_emplace owner entries) tidy.distinct
  keys preserve other mem := by
    rcases State.mem_keys_emplace _ mem with old | rfl
    · exact tidy.keys preserve other old
    · exact isOwner
  sources database mem entry inDatabase address isSource := by
    rcases State.mem_databases_emplace mem with old | rfl
    · exact tidy.sources database old entry inDatabase address isSource
    · exact nomatch (read entry inDatabase).symm.trans isSource
  placed preserve database mem entry inDatabase item inItems isSource := by
    rcases State.mem_databases_emplace mem with old | rfl
    · exact tidy.placed preserve database old entry inDatabase item inItems isSource
    · exact nomatch (read entry inDatabase).symm.trans isSource

theorem load (type : SerializeType) : Tidy setup (state.load setup type) := by
  rw [State.load, loadType]
  have one : ∀ registry entry, Tidy setup { state with registry := registry } →
      Tidy setup { state with registry := loadEntry setup type registry entry } := by
    intro registry entry before
    rw [loadEntry]
    cases setup.unserialize registry.items type.name entry.row with
    | none => exact before
    | some object => exact before.construct _ _
  refine List.foldlRecOn _ (loadEntry setup type)
    (motive := fun registry => Tidy setup { state with registry := registry }) tidy ?_
  exact fun registry before entry _ => one registry entry before

/-- Logging a refused file and the other fields of the state do not matter. -/
theorem of_eq {other : State casemap ρ} (registry : other.registry = state.registry)
    (databases : other.databases = state.databases) : Tidy setup other := by
  constructor
  · rw [registry]
    exact tidy.registry
  · rw [registry]
    exact tidy.files
  · rw [State.keys, databases]
    exact tidy.distinct
  · rw [State.keys, registry, databases]
    exact tidy.keys
  · rw [registry, databases]
    exact tidy.sources
  · rw [registry, databases]
    exact tidy.placed

theorem onSerializeTypeCreate {type : SerializeType} (mem : type ∈ state.registry.types) :
    Tidy setup (state.onSerializeTypeCreate setup type) := by
  rw [State.onSerializeTypeCreate]
  split
  · exact tidy
  · split
    · exact tidy.load type
    · split
      · exact tidy
      · split
        · exact tidy.of_eq rfl rfl
        · rename_i entries read
          have emplaced := tidy.emplace (Registry.mem_owners_of_mem mem)
            fun entry inEntries => source_of_mem_readDatabase read inEntries
          exact emplaced.load type

theorem create {type : SerializeType} (mem : type ∈ state.registry.types) :
    Tidy setup (state.create setup type) := by
  rw [State.create]
  split
  · exact tidy
  · exact (tidy.onSerializeTypeCreate mem).markCreated type.address

theorem createTypes : Tidy setup (state.createTypes setup) := by
  rw [State.createTypes]
  refine List.foldlRecOn _ _ (motive := Tidy setup) tidy ?_
  intro middle before name _
  cases found : middle.registry.find name with
  | none => exact before
  | some type =>
      rcases Option.bind_eq_some_iff.mp found with ⟨address, _, isType⟩
      exact before.create (Keyed.mem_of_find isType)

theorem onLoadDatabase : Tidy setup (state.onLoadDatabase setup) := by
  rw [State.onLoadDatabase]
  cases read : readDatabase setup (state.files setup.database) with
  | none => exact tidy.of_eq rfl rfl
  | some entries =>
      have emplaced : Tidy setup (state.emplace none entries) :=
        tidy.emplace List.mem_cons_self fun entry mem => source_of_mem_readDatabase read mem
      have filled : Tidy setup (state.registry.order.foldl (State.loadCoreType setup)
          (state.emplace none entries)) := by
        refine List.foldlRecOn _ _ (motive := Tidy setup) emplaced ?_
        intro middle before name _
        rw [State.loadCoreType]
        split
        · exact before
        · split
          · exact before.load _
          · exact before
      exact filled.of_eq rfl rfl

/-! ## Modules -/

/-- A type is registered whose name is new, whose owner has a file of its own, and
which adopts no object that is left in the database of another owner. -/
theorem registerType {home owner : Option Nat} {name : Str}
    (fresh : name ∉ state.registry.order)
    (atHome : ∀ address, home = some address → state.registry.Loaded address)
    (owned : ∀ address, owner = some address → home = some address)
    (file : ∀ other ∈ state.registry.owners,
      State.getDatabaseFile setup state.registry other =
        State.getDatabaseFile setup state.registry owner → other = owner)
    (orphans : setup.preserveUnknownData = true → ∀ item ∈ state.registry.items,
      item.type = none → item.name = name → ∀ database ∈ state.databases,
        ∀ entry ∈ database.2, entry.source = some item.address → database.1 = owner) :
    Tidy setup { state with registry := state.registry.registerType home owner name } := by
  have sound := tidy.registry
  have ownersAfter : ∀ other, other ∈ (state.registry.registerType home owner name).owners ↔
      other ∈ state.registry.owners ∨ other = owner := by
    intro other
    rw [Registry.owners, Registry.registerType, List.map_append, ← List.cons_append,
      List.mem_append]
    exact or_congr_right List.mem_singleton
  constructor
  · exact sound.registerType fresh atHome owned
  · intro first inFirst second inSecond same
    rcases (ownersAfter first).mp inFirst with old | rfl
    · rcases (ownersAfter second).mp inSecond with oldSecond | rfl
      · exact tidy.files first old second oldSecond same
      · exact file first old same
    · rcases (ownersAfter second).mp inSecond with oldSecond | rfl
      · exact (file second oldSecond same.symm).symm
      · rfl
  · exact tidy.distinct
  · exact fun preserve other mem => (ownersAfter other).mpr (Or.inl (tidy.keys preserve other mem))
  · intro database mem entry inDatabase address isSource
    rcases tidy.sources database mem entry inDatabase address isSource with ⟨below, named⟩
    refine ⟨Nat.lt_succ_of_lt below, fun item inItems isAddress => ?_⟩
    rcases List.mem_map.mp inItems with ⟨old, isOld, rfl⟩
    rw [Item.address_adopt] at isAddress
    rw [Item.name_adopt]
    exact named old isOld isAddress
  · intro preserve database mem entry inDatabase item inItems isSource type inTypes isType
    rcases List.mem_map.mp inItems with ⟨old, isOld, rfl⟩
    rw [Item.address_adopt] at isSource
    rw [Item.adopt] at isType
    split at isType
    · rename_i adopted
      have isLast : type = ⟨state.registry.next, name, owner, home, false⟩ := by
        rcases List.mem_append.mp inTypes with before | last
        · exact absurd (Option.some.inj isType).symm (Nat.ne_of_lt (sound.below type before))
        · exact List.mem_singleton.mp last
      rw [isLast]
      exact orphans preserve old isOld adopted.1 adopted.2 database mem entry inDatabase isSource
    · rcases List.mem_append.mp inTypes with before | last
      · exact tidy.placed preserve database mem entry inDatabase old isOld isSource type before
          isType
      · rw [List.mem_singleton.mp last] at isType
        rcases sound.typed old isOld _ isType with ⟨other, inOld, _, isAddress⟩
        exact absurd isAddress (Nat.ne_of_lt (sound.below other inOld))

/-- A type is destroyed whose owner has no database, or one that stays. -/
theorem removeType {type : SerializeType} (mem : type ∈ state.registry.types)
    (unused : setup.preserveUnknownData = true → type.owner ∈ state.keys → type.owner = none) :
    Tidy setup { state with registry := state.registry.removeType type } := by
  have left : ∀ {other}, other ∈ (state.registry.removeType type).types ↔
      other ∈ state.registry.types ∧ other.address ≠ type.address := fun {other} => by
    change other ∈ List.filter _ state.registry.types ↔ _
    rw [List.mem_filter, decide_eq_true_iff]
  have ownersBefore : ∀ owner ∈ (state.registry.removeType type).owners,
      owner ∈ state.registry.owners := by
    intro owner inOwners
    rw [Registry.mem_owners_iff] at inOwners ⊢
    refine inOwners.imp_right ?_
    rintro ⟨other, inTypes, isOwner⟩
    exact ⟨other, (left.mp inTypes).1, isOwner⟩
  constructor
  · exact tidy.registry.removeType mem
  · exact fun owner inOwners other inOthers same => tidy.files owner (ownersBefore owner inOwners)
      other (ownersBefore other inOthers) same
  · exact tidy.distinct
  · intro preserve owner inKeys
    rcases Registry.mem_owners_iff.mp (tidy.keys preserve owner inKeys) with
      isNone | ⟨other, inTypes, rfl⟩
    · exact Registry.mem_owners_iff.mpr (Or.inl isNone)
    · by_cases same : other.address = type.address
      · rw [tidy.registry.eq_of_address inTypes mem same] at inKeys ⊢
        exact Registry.mem_owners_iff.mpr (Or.inl (unused preserve inKeys))
      · exact Registry.mem_owners_iff.mpr (Or.inr ⟨other, left.mpr ⟨inTypes, same⟩, rfl⟩)
  · intro database inDatabases entry inDatabase address isSource
    rcases tidy.sources database inDatabases entry inDatabase address isSource with
      ⟨below, named⟩
    refine ⟨below, fun item inItems isAddress => ?_⟩
    rcases List.mem_map.mp inItems with ⟨old, isOld, rfl⟩
    rw [Item.address_orphan] at isAddress
    rw [Item.name_orphan]
    exact named old isOld isAddress
  · intro preserve database inDatabases entry inDatabase item inItems isSource other inTypes isType
    rcases List.mem_map.mp inItems with ⟨old, isOld, rfl⟩
    rw [Item.address_orphan] at isSource
    rw [Item.orphan] at isType
    split at isType
    · cases isType
    · exact tidy.placed preserve database inDatabases entry inDatabase old isOld isSource other
        (left.mp inTypes).1 isType

/-- Modules come and go that own no database. -/
theorem of_modules {modules : List Module}
    (loaded : ∀ type ∈ state.registry.types, ∀ address, type.home = some address →
      ∃ found ∈ modules, found.address = address)
    (files : ∀ owner ∈ state.registry.owners,
      State.getDatabaseFile setup { state.registry with modules := modules } owner =
        State.getDatabaseFile setup state.registry owner) :
    Tidy setup { state with registry := { state.registry with modules := modules } } where
  registry := tidy.registry.of_modules loaded
  files owner mem other inOwners same := by
    refine tidy.files owner mem other inOwners ?_
    rw [← files owner mem, ← files other inOwners]
    exact same
  distinct := tidy.distinct
  keys := tidy.keys
  sources := tidy.sources
  placed := tidy.placed

/-- The members of a module that is loaded are registered one after another. -/
theorem foldl_registerType {address : Nat} {types : List (Str × Bool)}
    (loaded : state.registry.Loaded address) (distinct : (types.map Prod.fst).Nodup)
    (fresh : ∀ type ∈ types, type.1 ∉ state.registry.order)
    (file : ∀ type ∈ types, type.2 = true → ∀ other ∈ state.registry.owners,
      State.getDatabaseFile setup state.registry other =
        State.getDatabaseFile setup state.registry (some address) → other = some address)
    (orphans : setup.preserveUnknownData = true → ∀ type ∈ types,
      ∀ item ∈ state.registry.items, item.type = none → item.name = type.1 →
        ∀ database ∈ state.databases, ∀ entry ∈ database.2, entry.source = some item.address →
          database.1 = if type.2 then some address else none) :
    Tidy setup { state with
      registry := types.foldl (fun registry type =>
        registry.registerType (some address) (if type.2 then some address else none) type.1)
          state.registry } := by
  induction types generalizing state with
  | nil => exact tidy
  | cons type types ih =>
      rw [List.map_cons, List.nodup_cons] at distinct
      have registered : Tidy setup { state with
          registry := state.registry.registerType (some address)
            (if type.2 then some address else none) type.1 } := by
        refine tidy.registerType (fresh type List.mem_cons_self)
          (fun other is => Option.some.inj is ▸ loaded) (fun other is => ?_) ?_
          fun preserve => orphans preserve type List.mem_cons_self
        · split at is
          · exact is
          · cases is
        · split
          · exact file type List.mem_cons_self ‹_›
          · exact fun other mem same =>
              tidy.files other mem none List.mem_cons_self same
      rw [List.foldl_cons]
      refine ih registered loaded distinct.2 ?_ ?_ ?_
      · intro other mem inOrder
        rcases List.mem_append.mp inOrder with old | last
        · exact fresh other (List.mem_cons_of_mem type mem) old
        · exact distinct.1 (List.mem_singleton.mp last ▸ List.mem_map_of_mem mem)
      · intro member mem owned other isOwner same
        rcases Registry.mem_owners_iff.mp isOwner with isNone | ⟨owning, inTypes, rfl⟩
        · exact file member (List.mem_cons_of_mem type mem) owned other
            (Registry.mem_owners_iff.mpr (Or.inl isNone)) same
        · rcases List.mem_append.mp inTypes with old | last
          · exact file member (List.mem_cons_of_mem type mem) owned _
              (Registry.mem_owners_of_mem old) same
          · rw [List.mem_singleton.mp last] at same ⊢
            by_cases owns : type.2 = true
            · exact if_pos owns
            · rw [if_neg owns] at same ⊢
              exact file member (List.mem_cons_of_mem type mem) owned none List.mem_cons_self same
      · intro preserve member mem item inItems isOrphan isName database inDatabases entry inDatabase
          isSource
        rcases List.mem_map.mp inItems with ⟨old, isOld, rfl⟩
        rw [Item.name_adopt] at isName
        rw [Item.address_adopt] at isSource
        rw [Item.adopt] at isOrphan
        split at isOrphan
        · cases isOrphan
        · exact orphans preserve member (List.mem_cons_of_mem type mem) old isOld isOrphan isName
            database inDatabases entry inDatabase isSource

/-- The members of a module that is deleted are destroyed one after another. -/
theorem foldl_removeType {removed : List SerializeType}
    (mem : ∀ type ∈ removed, type ∈ state.registry.types)
    (distinct : (removed.map SerializeType.address).Nodup)
    (unused : setup.preserveUnknownData = true → ∀ type ∈ removed, type.owner ∈ state.keys →
      type.owner = none) :
    Tidy setup { state with registry := removed.foldl Registry.removeType state.registry } := by
  induction removed generalizing state with
  | nil => exact tidy
  | cons type removed ih =>
      rw [List.map_cons, List.nodup_cons] at distinct
      have isMember := mem type List.mem_cons_self
      have first := tidy.removeType isMember fun preserve =>
        unused preserve type List.mem_cons_self
      refine ih first (fun other later => ?_) distinct.2 fun preserve other later =>
        unused preserve other (List.mem_cons_of_mem type later)
      refine List.mem_filter.mpr ⟨mem other (List.mem_cons_of_mem type later), ?_⟩
      exact decide_eq_true fun same => distinct.1 (same ▸ List.mem_map_of_mem later)

/-- The file of an owner while another module is loaded. -/
theorem getDatabaseFile_append {owner : Option Nat} (mem : owner ∈ state.registry.owners)
    (address : Nat) (name : Str) :
    State.getDatabaseFile setup { state.registry with
        modules := state.registry.modules ++ [⟨address, name⟩] } owner =
      State.getDatabaseFile setup state.registry owner := by
  have found : ∃ file, State.getDatabaseFile setup state.registry owner = some file := by
    cases owner with
    | none => exact ⟨_, rfl⟩
    | some other =>
        exact State.getDatabaseFile_some_iff.mpr (tidy.registry.loaded_of_owner mem)
  rcases found with ⟨file, isFile⟩
  rw [isFile]
  exact State.getDatabaseFile_attachModule isFile address name []

end Tidy

/-- A module is loaded whose types have new names, whose database has a file of its
own, and which adopts no object that is left in the database of another owner. -/
structure Admits (setup : Setup casemap ρ) (state : State casemap ρ) (address : Nat) (name : Str)
    (types : List (Str × Bool)) : Prop where
  distinct : (types.map Prod.fst).Nodup
  fresh : ∀ type ∈ types, type.1 ∉ state.registry.order
  file : ∀ type ∈ types, type.2 = true → ∀ owner ∈ state.registry.owners,
    State.getDatabaseFile setup state.registry owner ≠ some (setup.moduleDatabase name)
  orphans : setup.preserveUnknownData = true → ∀ type ∈ types,
    ∀ item ∈ state.registry.items, item.type = none → item.name = type.1 →
      ∀ database ∈ state.databases, ∀ entry ∈ database.2, entry.source = some item.address →
        database.1 = if type.2 then some address else none

/-- The acts after which saving is in order: modules bring types of their own, and a
module that owns a database stays loaded where databases are preserved. -/
def Orderly (setup : Setup casemap ρ) (state : State casemap ρ) : Act casemap → Prop
  | .load address name types => Admits setup state address name types
  | .loadFailed _ _ types =>
      (types.map Prod.fst).Nodup ∧ ∀ type ∈ types, type.1 ∉ state.registry.order
  | .unload address => setup.preserveUnknownData = true → some address ∉ state.keys
  | .start | .attach | .construct _ _ | .destruct _ | .discard _ | .save => True

namespace Tidy

variable {state : State casemap ρ} (tidy : Tidy setup state)

include tidy

theorem attachModule {address : Nat} {name : Str} {types : List (Str × Bool)}
    (free : ¬state.registry.Loaded address) (admits : Admits setup state address name types) :
    Tidy setup { state with registry := state.registry.attachModule address name types } := by
  have appended : Tidy setup { state with registry := { state.registry with
      modules := state.registry.modules ++ [⟨address, name⟩] } } := by
    refine tidy.of_modules (fun type mem other isHome => ?_) fun owner mem =>
      tidy.getDatabaseFile_append mem address name
    rcases tidy.registry.loaded type mem other isHome with ⟨found, inModules, isAddress⟩
    exact ⟨found, List.mem_append_left _ inModules, isAddress⟩
  refine appended.foldl_registerType
    ⟨_, List.mem_append_right _ List.mem_cons_self, rfl⟩ admits.distinct admits.fresh ?_
    admits.orphans
  intro type mem owned owner isOwner same
  refine absurd ?_ (admits.file type mem owned owner isOwner)
  have isFile : State.getDatabaseFile setup { state.registry with
      modules := state.registry.modules ++ [⟨address, name⟩] } (some address) =
        some (setup.moduleDatabase name) := by
    have absent : state.registry.modules.find? (fun found => decide (found.address = address)) =
        none :=
      Keyed.find_eq_none_iff.mpr fun found inModules is => free ⟨found, inModules, is⟩
    have last : [(⟨address, name⟩ : Module)].find? (fun found => decide (found.address = address)) =
        some ⟨address, name⟩ :=
      Keyed.find_cons_self rfl
    rw [State.getDatabaseFile, Keyed.find, List.find?_append, absent, Option.none_or, last]
    rfl
  rw [← tidy.getDatabaseFile_append isOwner address name, ← isFile]
  exact same

theorem detachModule {address : Nat}
    (unused : setup.preserveUnknownData = true → some address ∉ state.keys) :
    Tidy setup { state with registry := state.registry.detachModule address } := by
  have isMember : ∀ type ∈ (state.registry.members address).reverse,
      type ∈ state.registry.types ∧ type.home = some address := fun type mem => by
    rcases List.mem_filter.mp (List.mem_reverse.mp mem) with ⟨inTypes, isHome⟩
    exact ⟨inTypes, of_decide_eq_true isHome⟩
  have distinct : ((state.registry.members address).reverse.map SerializeType.address).Nodup := by
    rw [List.map_reverse, List.nodup_reverse]
    exact tidy.registry.addresses.sublist (List.filter_sublist.map _)
  have removed := tidy.foldl_removeType (fun type mem => (isMember type mem).1) distinct
    fun preserve type mem inKeys => by
      cases isOwner : type.owner with
      | none => rfl
      | some other =>
          have home := tidy.registry.homes type (isMember type mem).1 other isOwner
          rw [(isMember type mem).2] at home
          rw [isOwner, ← Option.some.inj home] at inKeys
          exact absurd inKeys (unused preserve)
  have notMember : ∀ type ∈ ((state.registry.members address).reverse.foldl Registry.removeType
      state.registry).types, type.home ≠ some address := fun type mem =>
    (Registry.mem_types_detachModule state.registry mem).2
  refine removed.of_modules (fun type mem other isHome => ?_) fun owner mem => ?_
  · rcases removed.registry.loaded type mem other isHome with ⟨found, inModules, isAddress⟩
    refine ⟨found, List.mem_filter.mpr ⟨inModules, decide_eq_true fun same => ?_⟩, isAddress⟩
    refine notMember type mem ?_
    rw [isHome, ← isAddress, same]
  · have different : owner ≠ some address := by
      rintro rfl
      rcases Registry.mem_owners_iff.mp mem with isNone | ⟨type, inTypes, isOwner⟩
      · exact nomatch isNone
      · exact notMember type inTypes (removed.registry.homes type inTypes address isOwner)
    have same : State.getDatabaseFile setup (state.registry.detachModule address) owner =
        State.getDatabaseFile setup state.registry owner :=
      State.getDatabaseFile_detachModule different
    have sameModules := Registry.modules_foldl_removeType state.registry
      (state.registry.members address).reverse
    exact same.trans (State.getDatabaseFile_congr sameModules owner).symm

/-- A module that is deleted right away leaves the databases tidy. -/
theorem loadFailed {address : Nat} {name : Str} {types : List (Str × Bool)}
    (free : ¬state.registry.Loaded address) (distinct : (types.map Prod.fst).Nodup)
    (fresh : ∀ type ∈ types, type.1 ∉ state.registry.order) :
    Tidy setup { state with
      registry := (state.registry.attachModule address name types).detachModule address } := by
  rw [tidy.registry.detachModule_attachModule free distinct fresh]
  have sound := tidy.registry
  refine tidy.of_items ?_ rfl (fun type mem => ⟨type, mem, rfl, rfl⟩) (fun _ => Iff.rfl)
    (Nat.le_add_right _ _) fun item mem => Or.inr ⟨item, mem, rfl, rfl, rfl⟩
  exact ⟨sound.order, sound.distinct, sound.addresses, sound.found, sound.table,
    fun type mem => Nat.lt_add_right _ (sound.below type mem), sound.homes, sound.loaded,
    sound.items, fun item mem => Nat.lt_add_right _ (sound.itemsBelow item mem), sound.typed⟩

end Tidy

end Anope.Database
