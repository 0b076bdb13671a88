import Anope.Library.Run
import Anope.Storage.Json

/-!
# Types, objects and modules

`Serialize::Type` and `Serializable`: the registered types, the objects that may
be saved, and the modules that types belong to.  A type of a module is created
and destroyed with the module; its objects stay and are adopted when a type of
their name comes back.
-/

namespace Anope.Database

open Library Anope.Text Anope.Storage

/-- A loaded module.  Its address may be that of a module that was deleted
before. -/
structure Module where
  address : Nat
  name : Str

/-- `Serialize::Type`.  `home` is the module that the type is a member of, and
`owner` the one whose database it is saved to; both are missing for the core. -/
structure SerializeType where
  address : Nat
  name : Str
  owner : Option Nat
  home : Option Nat
  created : Bool

/-- `Serializable` with the fields that its type stores. -/
structure Item (casemap : Casemap) where
  address : Nat
  name : Str
  type : Option Nat
  shouldCommit : Bool
  object : Json.Object casemap

variable {casemap : Casemap}

namespace Item

/-- What `Serialize::Type::Type` does to an object. -/
def adopt (name : Str) (address : Nat) (item : Item casemap) : Item casemap :=
  if item.type = none ∧ item.name = name then { item with type := some address } else item

/-- What `Serialize::Type::~Type` does to an object. -/
def orphan (address : Nat) (item : Item casemap) : Item casemap :=
  if item.type = some address then { item with type := none } else item

variable (name : Str) (address : Nat) (item : Item casemap)

@[simp]
theorem address_adopt : (item.adopt name address).address = item.address := by
  rw [adopt]
  split <;> rfl

@[simp]
theorem name_adopt : (item.adopt name address).name = item.name := by
  rw [adopt]
  split <;> rfl

@[simp]
theorem address_orphan : (item.orphan address).address = item.address := by
  rw [orphan]
  split <;> rfl

@[simp]
theorem name_orphan : (item.orphan address).name = item.name := by
  rw [orphan]
  split <;> rfl

end Item

/-- The modules, `TypeOrder`, `Types` and `SerializableItems`.  `next` is an
address that no type and no object had so far. -/
structure Registry (casemap : Casemap) where
  modules : List Module
  types : List SerializeType
  order : List Str
  table : Str → Option Nat
  items : List (Item casemap)
  next : Nat

namespace Registry

/-- Before any type is registered. -/
def empty (casemap : Casemap) : Registry casemap where
  modules := []
  types := []
  order := []
  table _ := none
  items := []
  next := 0

variable (registry : Registry casemap)

/-- `Serialize::Type::Find`. -/
def find (name : Str) : Option SerializeType :=
  (registry.table name).bind fun address =>
    Keyed.find SerializeType.address address registry.types

/-- `GetSerializableType`. -/
def typeOf (item : Item casemap) : Option SerializeType :=
  item.type.bind fun address => Keyed.find SerializeType.address address registry.types

/-- `ModuleManager::FindModule`. -/
def findModule (name : Str) : Option Module :=
  registry.modules.find? fun loaded => casemap.equalsCi loaded.name name

/-- `Serialize::Type::Type`. -/
def registerType (home owner : Option Nat) (name : Str) : Registry casemap where
  modules := registry.modules
  types := registry.types ++ [⟨registry.next, name, owner, home, false⟩]
  order := registry.order ++ [name]
  table := Function.update registry.table name (some registry.next)
  items := registry.items.map (Item.adopt name registry.next)
  next := registry.next + 1

/-- `Serialize::Type::~Type`. -/
def removeType (type : SerializeType) : Registry casemap where
  modules := registry.modules
  types := registry.types.filter (·.address ≠ type.address)
  order := registry.order.erase type.name
  table := Function.update registry.table type.name none
  items := registry.items.map (Item.orphan type.address)
  next := registry.next

/-- The type has been announced to the modules. -/
def markCreated (address : Nat) : Registry casemap where
  modules := registry.modules
  types := registry.types.map fun type =>
    if type.address = address then { type with created := true } else type
  order := registry.order
  table := registry.table
  items := registry.items
  next := registry.next

/-- `Serializable::Serializable`. -/
def construct (name : Str) (object : Json.Object casemap) : Registry casemap where
  modules := registry.modules
  types := registry.types
  order := registry.order
  table := registry.table
  items := registry.items ++ [⟨registry.next, name, registry.table name, true, object⟩]
  next := registry.next + 1

/-- `Serializable::~Serializable`. -/
def destruct (address : Nat) : Registry casemap where
  modules := registry.modules
  types := registry.types
  order := registry.order
  table := registry.table
  items := registry.items.filter (·.address ≠ address)
  next := registry.next

/-- What `InsertUnique` does to the object that another one replaces. -/
def discard (address : Nat) : Registry casemap where
  modules := registry.modules
  types := registry.types
  order := registry.order
  table := registry.table
  items := registry.items.map fun item =>
    if item.address = address then { item with shouldCommit := false } else item
  next := registry.next

/-- The constructor of a module with the types that are its members; a type is
saved to the database of the module if the flag is set. -/
def attachModule (address : Nat) (name : Str) (types : List (Str × Bool)) : Registry casemap :=
  types.foldl (fun registry type =>
      registry.registerType (some address) (if type.2 then some address else none) type.1)
    { registry with modules := registry.modules ++ [⟨address, name⟩] }

/-- The types that are members of a module. -/
def members (address : Nat) : List SerializeType :=
  registry.types.filter (·.home = some address)

/-- The destructor of a module, which destroys its members in reverse order. -/
def detachModule (address : Nat) : Registry casemap :=
  let removed := (registry.members address).reverse.foldl removeType registry
  { removed with modules := removed.modules.filter (·.address ≠ address) }

end Registry

/-- The names in `Serialize::RegisterTypes`. -/
def coreTypes : List Str :=
  [ascii "NickCore", ascii "NickAlias", ascii "BotInfo", ascii "ChannelInfo", ascii "ChanAccess",
    ascii "Memo", ascii "XLine"]

/-- `Serialize::RegisterTypes`; no module is told of these types. -/
def Registry.core (casemap : Casemap) : Registry casemap :=
  let registered := coreTypes.foldl (fun registry name => registry.registerType none none name)
    (Registry.empty casemap)
  { registered with types := registered.types.map fun type => { type with created := true } }

theorem types_core : (Registry.core casemap).types =
    coreTypes.zipIdx.map fun name => ⟨name.2, name.1, none, none, true⟩ :=
  rfl

end Anope.Database

/-!
## The JSON backend

`DBJSON`: reading a database file, loading the objects of a type from it, and
saving the objects of all types.  A type is saved to the database of its owner,
the core or a module; `databases` is keyed by the owner.
-/

namespace Anope.Database

open Library Anope.Text Anope.Storage

/-- An object of the JSON document of a database; an entry of `data` whose value
is not an array has none. -/
structure Root (ρ : Type) where
  version : Nat
  data : Option (List (Str × Option (List (Json.Element ρ))))

/-- A file where a database is looked for.  `malformed` is no JSON, and
`notObject` JSON with another root. -/
inductive File (ρ : Type) where
  | absent
  | unreadable
  | malformed
  | notObject
  | object (root : Root ρ)

/-- An element of `DBData`.  `source` is the object that it was stored from;
there is none for an element of a file. -/
structure Entry where
  name : Str
  row : Json.Row
  source : Option Nat

/-- What the backend depends on besides its own state. -/
structure Setup (casemap : Casemap) (ρ : Type) where
  floats : Json.Floats ρ
  visit : Json.Iteration
  /-- The file of the core database. -/
  database : Str
  /-- The file that the template gives for the name of a module. -/
  moduleDatabase : Str → Str
  preserveUnknownData : Bool
  /-- Whether a file can be written. -/
  writable : Str → Bool
  /-- `Unserialize` of the type of a name, which may look at the other objects. -/
  unserialize : List (Item casemap) → Str → Json.Row → Option (Json.Object casemap)

/-- What happens to a file: `ReadDatabase` refuses it although it exists, or
`OnSaveDatabase` writes it. -/
inductive Event where
  | refused (file : Str)
  | wrote (file : Str)
  deriving DecidableEq

/-- The state of services and of `DBJSON`. -/
structure State (casemap : Casemap) (ρ : Type) where
  registry : Registry casemap
  databases : List (Option Nat × List Entry)
  loaded : Bool
  files : Str → File ρ
  quitting : Bool
  trace : List Event

variable {casemap : Casemap} {ρ : Type}

/-- `ANOPE_DATABASE_VERSION`. -/
def databaseVersion : Nat :=
  1

/-- `ReadDatabase`. -/
def readDatabase (setup : Setup casemap ρ) (file : File ρ) : Option (List Entry) :=
  match file with
  | .absent | .unreadable | .malformed | .notObject => none
  | .object root =>
      if root.version ≠ 0 ∧ root.version ≠ databaseVersion then
        none
      else
        root.data.map fun members => members.flatMap fun member =>
          (member.2.getD []).map fun element =>
            ⟨Json.astr member.1, Json.Row.read casemap setup.floats element, none⟩

/-- Whether an element is found under the name of a type. -/
def Entry.IsOf (casemap : Casemap) (name : Str) (entry : Entry) : Prop :=
  casemap.ciStr entry.name = casemap.ciStr name

instance decidableIsOf (name : Str) (entry : Entry) : Decidable (entry.IsOf casemap name) :=
  inferInstanceAs (Decidable (_ = _))

/-- `SaveType`. -/
def saveType (setup : Setup casemap ρ) (members : List (Str × Option (List (Json.Element ρ))))
    (entry : Entry) : List (Str × Option (List (Json.Element ρ))) :=
  let saved := entry.row.save setup.floats (setup.visit.order entry.row.data)
  let element := saved.map fun member => (member.1, member.2.reread)
  Keyed.alter Prod.fst entry.name
    (fun found => some (entry.name, some ((found.bind Prod.snd).getD [] ++ [element]))) members

/-- The document of a database. -/
def document (setup : Setup casemap ρ) (entries : List Entry) : File ρ :=
  .object ⟨databaseVersion, some (entries.foldl (saveType setup) [])⟩

/-- `LoadType` for one element. -/
def loadEntry (setup : Setup casemap ρ) (type : SerializeType) (registry : Registry casemap)
    (entry : Entry) : Registry casemap :=
  match setup.unserialize registry.items type.name entry.row with
  | none => registry
  | some object =>
      registry.construct type.name
        { object with id := if entry.row.id ≠ 0 then entry.row.id else object.id }

/-- `LoadType`. -/
def loadType (setup : Setup casemap ρ) (registry : Registry casemap) (type : SerializeType)
    (entries : List Entry) : Registry casemap :=
  (entries.filter fun entry => decide (entry.IsOf casemap type.name)).foldl
    (loadEntry setup type) registry

namespace State

/-- The entries of an owner. -/
def databaseOf (state : State casemap ρ) (owner : Option Nat) :
    Option (Option Nat × List Entry) :=
  Keyed.find Prod.fst owner state.databases

variable (setup : Setup casemap ρ) (state : State casemap ρ)

/-- `GetDatabaseFile`; a module that was deleted has no name to read. -/
def getDatabaseFile (registry : Registry casemap) : Option Nat → Option Str
  | none => some setup.database
  | some address =>
      (Keyed.find Module.address address registry.modules).map fun found =>
        setup.moduleDatabase found.name

/-- A file that `ReadDatabase` refuses is logged when there is one. -/
def refuse (file : Str) : State casemap ρ where
  registry := state.registry
  databases := state.databases
  loaded := state.loaded
  files := state.files
  quitting := state.quitting
  trace := match state.files file with
    | .absent => state.trace
    | .unreadable | .malformed | .notObject | .object _ => state.trace ++ [.refused file]

/-- `databases.emplace`, which keeps an element that is there. -/
def emplace (owner : Option Nat) (entries : List Entry) : State casemap ρ :=
  { state with
    databases := Keyed.alter Prod.fst owner (fun found => some (found.getD (owner, entries)))
      state.databases }

/-- `LoadType` from the database of the owner. -/
def load (type : SerializeType) : State casemap ρ :=
  { state with
    registry := loadType setup state.registry type
      ((state.databaseOf type.owner).elim [] Prod.snd) }

/-- `OnSerializeTypeCreate`. -/
def onSerializeTypeCreate (type : SerializeType) : State casemap ρ :=
  if state.loaded = false then
    state
  else if (state.databaseOf type.owner).isSome then
    state.load setup type
  else
    match getDatabaseFile setup state.registry type.owner with
    | none => state
    | some file =>
        match readDatabase setup (state.files file) with
        | none => state.refuse file
        | some entries => (state.emplace type.owner entries).load setup type

/-- `Serialize::Type::Create`. -/
def create (type : SerializeType) : State casemap ρ :=
  if type.created then
    state
  else
    let announced := state.onSerializeTypeCreate setup type
    { announced with registry := announced.registry.markCreated type.address }

/-- `Serialize::CreateTypes`. -/
def createTypes : State casemap ρ :=
  state.registry.order.foldl
    (fun state name => (state.registry.find name).elim state (state.create setup)) state

/-- One turn of the loop of `OnLoadDatabase`. -/
def loadCoreType (name : Str) : State casemap ρ :=
  match state.registry.find name with
  | none => state
  | some type => if type.owner = none then state.load setup type else state

/-- `OnLoadDatabase`. -/
def onLoadDatabase : State casemap ρ :=
  match readDatabase setup (state.files setup.database) with
  | none => state.refuse setup.database
  | some entries =>
      let emplaced := state.emplace none entries
      let filled := emplaced.registry.order.foldl (loadCoreType setup) emplaced
      { filled with loaded := true }

/-- Step 0 of `OnSaveDatabase`. -/
def clear : State casemap ρ :=
  { state with databases := if setup.preserveUnknownData then state.databases else [] }

/-- Step 1 of `OnSaveDatabase` for one type. -/
def clearType (type : SerializeType) : State casemap ρ :=
  { state with
    databases := Keyed.alter Prod.fst type.owner
      (fun found => some (type.owner, (found.elim [] Prod.snd).filter
        fun entry => !decide (entry.IsOf casemap type.name))) state.databases }

/-- The types that step 1 finds. -/
def registered : List SerializeType :=
  state.registry.order.filterMap state.registry.find

/-- Step 2 of `OnSaveDatabase` for one object. -/
def storeItem (item : Item casemap) : State casemap ρ :=
  if item.shouldCommit then
    match state.registry.typeOf item with
    | none => state
    | some type =>
        { state with
          databases := Keyed.alter Prod.fst type.owner
            (fun found => found.map fun database => (type.owner, database.2 ++
              [⟨type.name, item.object.serialize, some item.address⟩])) state.databases }
  else
    state

/-- What `OnSaveDatabase` is about to write. -/
def stored : State casemap ρ :=
  let cleared := state.registered.foldl clearType (state.clear setup)
  cleared.registry.items.foldl storeItem cleared

/-- Step 3 of `OnSaveDatabase` for one database. -/
def write (database : Option Nat × List Entry) : State casemap ρ :=
  match getDatabaseFile setup state.registry database.1 with
  | none => state
  | some file =>
      if setup.writable file then
        { state with
          files := Function.update state.files file (document setup database.2)
          trace := state.trace ++ [.wrote file] }
      else
        { state with quitting := true }

/-- `OnSaveDatabase`. -/
def onSaveDatabase : State casemap ρ :=
  (state.stored setup).databases.foldl (write setup) (state.stored setup)

end State

/-- The state before services are started. -/
def boot (casemap : Casemap) (files : Str → File ρ) : State casemap ρ where
  registry := .core casemap
  databases := []
  loaded := false
  files := files
  quitting := false
  trace := []

end Anope.Database
