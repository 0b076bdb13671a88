import Anope.Database.Saving

/-!
# Registries without name clashes

As long as no two types have one name, `TypeOrder` and `Types` list exactly the
types there are, and every object that has a type has one of its name.
-/

namespace Anope.Database.Registry

open Library Anope.Text Anope.Storage

variable {casemap : Casemap}

/-- A registry whose types have different names. -/
structure Sound (registry : Registry casemap) : Prop where
  order : registry.order = registry.types.map SerializeType.name
  distinct : registry.order.Nodup
  addresses : (registry.types.map SerializeType.address).Nodup
  found : ∀ type ∈ registry.types, registry.table type.name = some type.address
  table : ∀ name address, registry.table name = some address →
    ∃ type ∈ registry.types, type.name = name ∧ type.address = address
  below : ∀ type ∈ registry.types, type.address < registry.next
  homes : ∀ type ∈ registry.types, ∀ address, type.owner = some address →
    type.home = some address
  loaded : ∀ type ∈ registry.types, ∀ address, type.home = some address →
    registry.Loaded address
  items : (registry.items.map Item.address).Nodup
  itemsBelow : ∀ item ∈ registry.items, item.address < registry.next
  typed : ∀ item ∈ registry.items, ∀ address, item.type = some address →
    ∃ type ∈ registry.types, type.name = item.name ∧ type.address = address

namespace Sound

variable {registry : Registry casemap} (sound : Sound registry)

include sound

/-- A type is found under its name. -/
theorem find_eq {type : SerializeType} (mem : type ∈ registry.types) :
    registry.find type.name = some type := by
  rw [find, sound.found type mem, Option.bind_some]
  exact Keyed.find_of_mem sound.addresses mem

theorem typeOf_eq_some_iff {item : Item casemap} {type : SerializeType} :
    registry.typeOf item = some type ↔
      type ∈ registry.types ∧ item.type = some type.address := by
  rw [typeOf, Option.bind_eq_some_iff]
  constructor
  · rintro ⟨address, isAddress, isFound⟩
    refine ⟨Keyed.mem_of_find isFound, ?_⟩
    rw [isAddress, ← Keyed.key_of_find isFound]
  · rintro ⟨mem, isAddress⟩
    exact ⟨type.address, isAddress, Keyed.find_of_mem sound.addresses mem⟩

/-- `TypeOrder` finds all types. -/
theorem filterMap_find : registry.order.filterMap registry.find = registry.types := by
  have all : ∀ types : List SerializeType, (∀ type ∈ types, type ∈ registry.types) →
      (types.map SerializeType.name).filterMap registry.find = types := by
    intro types
    induction types with
    | nil => exact fun _ => rfl
    | cons type types ih =>
        intro mem
        rw [List.map_cons, List.filterMap_cons, sound.find_eq (mem type List.mem_cons_self)]
        exact congrArg _ (ih fun other inRest => mem other (List.mem_cons_of_mem type inRest))
  rw [sound.order]
  exact all registry.types fun _ mem => mem

/-- Two types of one name are one. -/
theorem eq_of_name {type other : SerializeType} (mem : type ∈ registry.types)
    (inTypes : other ∈ registry.types) (same : type.name = other.name) : type = other := by
  have isFound := sound.find_eq mem
  rw [same, sound.find_eq inTypes] at isFound
  exact (Option.some.inj isFound).symm

theorem eq_of_address {type other : SerializeType} (mem : type ∈ registry.types)
    (inTypes : other ∈ registry.types) (same : type.address = other.address) : type = other :=
  List.inj_on_of_nodup_map sound.addresses mem inTypes same

/-- Two objects at one address are one. -/
theorem item_eq {item other : Item casemap} (mem : item ∈ registry.items)
    (inItems : other ∈ registry.items) (same : item.address = other.address) : item = other :=
  List.inj_on_of_nodup_map sound.items mem inItems same

/-! ## Types -/

/-- A type with a new name is registered. -/
theorem registerType {home owner : Option Nat} {name : Str} (fresh : name ∉ registry.order)
    (atHome : ∀ address, home = some address → registry.Loaded address)
    (owned : ∀ address, owner = some address → home = some address) :
    Sound (registry.registerType home owner name) where
  order := by
    change registry.order ++ [name] = List.map _ (registry.types ++ [_])
    rw [List.map_append, sound.order]
    rfl
  distinct := by
    change (registry.order ++ [name]).Nodup
    refine List.nodup_append.mpr ⟨sound.distinct, List.nodup_singleton _, ?_⟩
    rintro other mem last inLast rfl
    exact fresh (List.mem_singleton.mp inLast ▸ mem)
  addresses := by
    change (List.map _ (registry.types ++ [_])).Nodup
    rw [List.map_append]
    refine List.nodup_append.mpr ⟨sound.addresses, List.nodup_singleton _, ?_⟩
    rintro address mem last inLast rfl
    rcases List.mem_map.mp mem with ⟨type, inTypes, rfl⟩
    exact absurd (List.mem_singleton.mp inLast) (Nat.ne_of_lt (sound.below type inTypes))
  found type mem := by
    change Function.update registry.table name (some registry.next) type.name = _
    rcases List.mem_append.mp mem with old | last
    · have different : type.name ≠ name := fun same => by
        refine fresh ?_
        rw [← same, sound.order]
        exact List.mem_map_of_mem old
      rw [Function.update_of_ne different, sound.found type old]
    · rw [List.mem_singleton.mp last, Function.update_self]
  table other address is := by
    change Function.update registry.table name (some registry.next) other = _ at is
    by_cases same : other = name
    · rw [same, Function.update_self] at is
      exact ⟨_, List.mem_append_right _ List.mem_cons_self, same.symm, Option.some.inj is⟩
    · rw [Function.update_of_ne same] at is
      rcases sound.table other address is with ⟨type, mem, isName, isAddress⟩
      exact ⟨type, List.mem_append_left _ mem, isName, isAddress⟩
  below type mem := by
    rcases List.mem_append.mp mem with old | last
    · exact Nat.lt_succ_of_lt (sound.below type old)
    · rw [List.mem_singleton.mp last]
      exact Nat.lt_succ_self _
  homes type mem address isOwner := by
    rcases List.mem_append.mp mem with old | last
    · exact sound.homes type old address isOwner
    · rw [List.mem_singleton.mp last] at isOwner ⊢
      exact owned address isOwner
  loaded type mem address isHome := by
    rcases List.mem_append.mp mem with old | last
    · exact sound.loaded type old address isHome
    · rw [List.mem_singleton.mp last] at isHome
      exact atHome address isHome
  items := by
    change (List.map Item.address (registry.items.map (Item.adopt name registry.next))).Nodup
    rw [List.map_map]
    simpa only [Function.comp_def, Item.address_adopt] using sound.items
  itemsBelow item mem := by
    rcases List.mem_map.mp mem with ⟨old, inItems, rfl⟩
    rw [Item.address_adopt]
    exact Nat.lt_succ_of_lt (sound.itemsBelow old inItems)
  typed item mem address isType := by
    rcases List.mem_map.mp mem with ⟨old, inItems, rfl⟩
    rw [Item.name_adopt]
    rw [Item.adopt] at isType
    split at isType
    · rename_i adopted
      refine ⟨_, List.mem_append_right _ List.mem_cons_self, adopted.2.symm, ?_⟩
      exact Option.some.inj isType
    · rcases sound.typed old inItems address isType with ⟨type, inTypes, isName, isAddress⟩
      exact ⟨type, List.mem_append_left _ inTypes, isName, isAddress⟩

/-- A type is destroyed. -/
theorem removeType {type : SerializeType} (mem : type ∈ registry.types) :
    Sound (registry.removeType type) := by
  have kept : ∀ other ∈ registry.types, other.address ≠ type.address ↔ other.name ≠ type.name :=
    fun other inTypes =>
      not_congr ⟨fun same => congrArg _ (sound.eq_of_address inTypes mem same),
        fun same => congrArg _ (sound.eq_of_name inTypes mem same)⟩
  have left : ∀ {other}, other ∈ (registry.removeType type).types ↔
      other ∈ registry.types ∧ other.address ≠ type.address := fun {other} => by
    change other ∈ List.filter _ registry.types ↔ _
    rw [List.mem_filter, decide_eq_true_iff]
  have sublist : (registry.removeType type).types.Sublist registry.types := List.filter_sublist
  constructor
  · change registry.order.erase type.name = List.map _ (List.filter _ registry.types)
    rw [sound.distinct.erase_eq_filter, sound.order, List.filter_map]
    refine congrArg _ (List.filter_congr fun other inTypes => ?_)
    rw [Function.comp_apply, Bool.eq_iff_iff, bne_iff_ne, decide_eq_true_iff]
    exact (kept other inTypes).symm
  · exact sound.distinct.erase type.name
  · exact sound.addresses.sublist (sublist.map _)
  · intro other inTypes
    rcases left.mp inTypes with ⟨old, different⟩
    change Function.update registry.table type.name none other.name = _
    rw [Function.update_of_ne ((kept other old).mp different), sound.found other old]
  · intro name address is
    change Function.update registry.table type.name none name = _ at is
    by_cases same : name = type.name
    · rw [same, Function.update_self] at is
      cases is
    · rw [Function.update_of_ne same] at is
      rcases sound.table name address is with ⟨other, inTypes, rfl, isAddress⟩
      exact ⟨other, left.mpr ⟨inTypes, (kept other inTypes).mpr same⟩, rfl, isAddress⟩
  · exact fun other inTypes => sound.below other (left.mp inTypes).1
  · exact fun other inTypes => sound.homes other (left.mp inTypes).1
  · exact fun other inTypes => sound.loaded other (left.mp inTypes).1
  · change (List.map Item.address (registry.items.map (Item.orphan type.address))).Nodup
    rw [List.map_map]
    simpa only [Function.comp_def, Item.address_orphan] using sound.items
  · intro item inItems
    rcases List.mem_map.mp inItems with ⟨old, isOld, rfl⟩
    rw [Item.address_orphan]
    exact sound.itemsBelow old isOld
  · intro item inItems address isType
    rcases List.mem_map.mp inItems with ⟨old, isOld, rfl⟩
    rw [Item.name_orphan]
    rw [Item.orphan] at isType
    split at isType
    · cases isType
    · rename_i other
      rcases sound.typed old isOld address isType with ⟨found, inTypes, isName, isAddress⟩
      refine ⟨found, left.mpr ⟨inTypes, fun same => other ?_⟩, isName, isAddress⟩
      rw [isType, ← isAddress, same]

/-- Types that are changed in place keep what the registry knows of them. -/
theorem of_types {change : SerializeType → SerializeType}
    (same : ∀ type, (change type).name = type.name ∧ (change type).address = type.address ∧
      (change type).owner = type.owner ∧ (change type).home = type.home) :
    Sound { registry with types := registry.types.map change } := by
  have back : ∀ {type}, type ∈ registry.types.map change →
      ∃ old ∈ registry.types, type.name = old.name ∧ type.address = old.address ∧
        type.owner = old.owner ∧ type.home = old.home := by
    intro type mem
    rcases List.mem_map.mp mem with ⟨old, inTypes, rfl⟩
    exact ⟨old, inTypes, same old⟩
  have forth : ∀ old ∈ registry.types, ∃ type ∈ registry.types.map change,
      type.name = old.name ∧ type.address = old.address := fun old inTypes =>
    ⟨_, List.mem_map_of_mem inTypes, (same old).1, (same old).2.1⟩
  have names : (registry.types.map change).map SerializeType.name =
      registry.types.map SerializeType.name := by
    rw [List.map_map]
    exact List.map_congr_left fun type _ => (same type).1
  have addresses : (registry.types.map change).map SerializeType.address =
      registry.types.map SerializeType.address := by
    rw [List.map_map]
    exact List.map_congr_left fun type _ => (same type).2.1
  constructor
  · exact sound.order.trans names.symm
  · exact sound.distinct
  · rw [addresses]
    exact sound.addresses
  · intro type mem
    rcases back mem with ⟨old, inTypes, isName, isAddress, -⟩
    rw [isName, isAddress]
    exact sound.found old inTypes
  · intro name other is
    rcases sound.table name other is with ⟨old, inTypes, isName, isAddress⟩
    rcases forth old inTypes with ⟨type, mem, sameName, sameAddress⟩
    exact ⟨type, mem, sameName.trans isName, sameAddress.trans isAddress⟩
  · intro type mem
    rcases back mem with ⟨old, inTypes, -, isAddress, -⟩
    rw [isAddress]
    exact sound.below old inTypes
  · intro type mem
    rcases back mem with ⟨old, inTypes, -, -, isOwner, isHome⟩
    rw [isOwner, isHome]
    exact sound.homes old inTypes
  · intro type mem
    rcases back mem with ⟨old, inTypes, -, -, -, isHome⟩
    rw [isHome]
    exact sound.loaded old inTypes
  · exact sound.items
  · exact sound.itemsBelow
  · intro item mem other isType
    rcases sound.typed item mem other isType with ⟨old, inTypes, isName, isAddress⟩
    rcases forth old inTypes with ⟨type, inMarked, sameName, sameAddress⟩
    exact ⟨type, inMarked, sameName.trans isName, sameAddress.trans isAddress⟩

/-- A type that was announced is the same but for the flag. -/
theorem markCreated (address : Nat) : Sound (registry.markCreated address) := by
  refine sound.of_types fun type => ?_
  split
  · exact ⟨rfl, rfl, rfl, rfl⟩
  · exact ⟨rfl, rfl, rfl, rfl⟩

/-! ## Objects -/

/-- Objects that are changed in place keep their addresses, names and types. -/
theorem of_items {items : List (Item casemap)}
    (distinct : (items.map Item.address).Nodup)
    (kept : ∀ item ∈ items, ∃ old ∈ registry.items, item.address = old.address ∧
      item.name = old.name ∧ item.type = old.type) :
    Sound { registry with items := items } where
  order := sound.order
  distinct := sound.distinct
  addresses := sound.addresses
  found := sound.found
  table := sound.table
  below := sound.below
  homes := sound.homes
  loaded := sound.loaded
  items := distinct
  itemsBelow item mem := by
    rcases kept item mem with ⟨old, inItems, isAddress, -⟩
    rw [isAddress]
    exact sound.itemsBelow old inItems
  typed item mem := by
    rcases kept item mem with ⟨old, inItems, -, isName, isType⟩
    rw [isName, isType]
    exact sound.typed old inItems

theorem destruct (address : Nat) : Sound (registry.destruct address) :=
  sound.of_items (sound.items.sublist (List.filter_sublist.map _)) fun item mem =>
    ⟨item, List.mem_of_mem_filter mem, rfl, rfl, rfl⟩

theorem discard (address : Nat) : Sound (registry.discard address) := by
  have same : ∀ item : Item casemap,
      let changed := if item.address = address then { item with shouldCommit := false } else item
      changed.address = item.address ∧ changed.name = item.name ∧ changed.type = item.type := by
    intro item
    dsimp only
    split
    · exact ⟨rfl, rfl, rfl⟩
    · exact ⟨rfl, rfl, rfl⟩
  refine sound.of_items ?_ fun item mem => ?_
  · rw [List.map_map]
    have sameAddress : (Item.address ∘ fun item : Item casemap =>
        if item.address = address then { item with shouldCommit := false } else item) =
          Item.address := funext fun item => (same item).1
    rw [sameAddress]
    exact sound.items
  · rcases List.mem_map.mp mem with ⟨old, inItems, rfl⟩
    exact ⟨old, inItems, same old⟩

theorem construct (name : Str) (object : Json.Object casemap) :
    Sound (registry.construct name object) where
  order := sound.order
  distinct := sound.distinct
  addresses := sound.addresses
  found := sound.found
  table := sound.table
  below type mem := Nat.lt_succ_of_lt (sound.below type mem)
  homes := sound.homes
  loaded := sound.loaded
  items := by
    change (List.map _ (registry.items ++ [_])).Nodup
    rw [List.map_append]
    refine List.nodup_append.mpr ⟨sound.items, List.nodup_singleton _, ?_⟩
    rintro address mem last inLast rfl
    rcases List.mem_map.mp mem with ⟨item, inItems, rfl⟩
    exact absurd (List.mem_singleton.mp inLast) (Nat.ne_of_lt (sound.itemsBelow item inItems))
  itemsBelow item mem := by
    rcases List.mem_append.mp mem with old | last
    · exact Nat.lt_succ_of_lt (sound.itemsBelow item old)
    · rw [List.mem_singleton.mp last]
      exact Nat.lt_succ_self _
  typed item mem address isType := by
    rcases List.mem_append.mp mem with old | last
    · exact sound.typed item old address isType
    · rw [List.mem_singleton.mp last] at isType ⊢
      exact sound.table name address isType

/-! ## Modules -/

/-- Modules come and go around the types. -/
theorem of_modules {modules : List Module}
    (loaded : ∀ type ∈ registry.types, ∀ address, type.home = some address →
      ∃ found ∈ modules, found.address = address) :
    Sound { registry with modules := modules } :=
  ⟨sound.order, sound.distinct, sound.addresses, sound.found, sound.table, sound.below,
    sound.homes, loaded, sound.items, sound.itemsBelow, sound.typed⟩

end Sound

/-! ## A module that is deleted right away -/

/-- The members of a module with the addresses that they get. -/
def memberTypes (address : Nat) : Nat → List (Str × Bool) → List SerializeType
  | _, [] => []
  | next, type :: types =>
      ⟨next, type.1, if type.2 then some address else none, some address, false⟩ ::
        memberTypes address (next + 1) types

theorem home_of_mem_memberTypes {address next : Nat} {types : List (Str × Bool)}
    {type : SerializeType} (mem : type ∈ memberTypes address next types) :
    type.home = some address := by
  induction types generalizing next with
  | nil => exact nomatch mem
  | cons first types ih =>
      rcases List.mem_cons.mp mem with rfl | later
      · rfl
      · exact ih later

theorem types_foldl_registerType (address : Nat) (types : List (Str × Bool))
    (registry : Registry casemap) :
    (types.foldl (fun registry type =>
        registry.registerType (some address) (if type.2 then some address else none) type.1)
      registry).types = registry.types ++ memberTypes address registry.next types := by
  induction types generalizing registry with
  | nil => exact (List.append_nil _).symm
  | cons type types ih =>
      rw [List.foldl_cons, ih, memberTypes, List.append_cons]
      rfl

/-- Destroying the type that was registered last undoes the registration. -/
theorem Sound.removeType_registerType {registry : Registry casemap} (sound : Sound registry)
    {home owner : Option Nat} {name : Str} (fresh : name ∉ registry.order) :
    (registry.registerType home owner name).removeType
        ⟨registry.next, name, owner, home, false⟩ =
      { registry with next := registry.next + 1 } := by
  have unknown : registry.table name = none := by
    cases is : registry.table name with
    | none => rfl
    | some address =>
        rcases sound.table name address is with ⟨type, mem, isName, _⟩
        refine absurd ?_ fresh
        rw [sound.order, ← isName]
        exact List.mem_map_of_mem mem
  have types : (registry.types ++
      [(⟨registry.next, name, owner, home, false⟩ : SerializeType)]).filter
        (·.address ≠ registry.next) = registry.types := by
    have kept : ∀ type ∈ registry.types, decide (type.address ≠ registry.next) = true :=
      fun type mem => decide_eq_true (Nat.ne_of_lt (sound.below type mem))
    rw [List.filter_append, List.filter_eq_self.mpr kept, List.filter_cons_of_neg (by simp),
      List.filter_nil, List.append_nil]
  have order : (registry.order ++ [name]).erase name = registry.order := by
    rw [List.erase_append_right _ fresh, List.erase_cons_head, List.append_nil]
  have table : Function.update (Function.update registry.table name (some registry.next)) name
      none = registry.table := by
    rw [Function.update_idem, ← unknown, Function.update_eq_self]
  have items : (registry.items.map (Item.adopt name registry.next)).map
      (Item.orphan registry.next) = registry.items := by
    rw [List.map_map]
    refine (List.map_congr_left fun item mem => ?_).trans (List.map_id _)
    rw [Function.comp_apply, id_eq, Item.adopt]
    split
    · rename_i adopted
      rw [Item.orphan, if_pos rfl]
      exact congrArg (fun type => { item with type := type }) adopted.1.symm
    · refine if_neg fun isType => ?_
      rcases sound.typed item mem _ isType with ⟨type, inTypes, _, isAddress⟩
      exact absurd isAddress (Nat.ne_of_lt (sound.below type inTypes))
  rw [Registry.registerType, Registry.removeType]
  exact Registry.mk.injEq .. |>.mpr ⟨rfl, types, order, table, items, rfl⟩

/-- Destroying the members in reverse order undoes their registrations. -/
theorem Sound.foldl_removeType_foldl_registerType {address : Nat} {types : List (Str × Bool)}
    (distinct : (types.map Prod.fst).Nodup) {registry : Registry casemap}
    (sound : Sound registry) (loaded : registry.Loaded address)
    (fresh : ∀ type ∈ types, type.1 ∉ registry.order) :
    (memberTypes address registry.next types).reverse.foldl Registry.removeType
        (types.foldl (fun registry type =>
          registry.registerType (some address) (if type.2 then some address else none) type.1)
        registry) = { registry with next := registry.next + types.length } := by
  induction types generalizing registry with
  | nil => rfl
  | cons type types ih =>
      rw [List.map_cons, List.nodup_cons] at distinct
      have freshFirst := fresh type List.mem_cons_self
      have soundAfter : Sound (registry.registerType (some address)
          (if type.2 then some address else none) type.1) := by
        refine sound.registerType freshFirst (fun other is => Option.some.inj is ▸ loaded)
          fun other is => ?_
        split at is
        · exact is
        · exact nomatch is
      have freshAfter : ∀ other ∈ types, other.1 ∉ (registry.registerType (some address)
          (if type.2 then some address else none) type.1).order := by
        intro other mem inOrder
        rcases List.mem_append.mp inOrder with old | last
        · exact fresh other (List.mem_cons_of_mem type mem) old
        · exact distinct.1 (List.mem_singleton.mp last ▸ List.mem_map_of_mem mem)
      have undone := ih distinct.2 soundAfter loaded freshAfter
      rw [List.foldl_cons, memberTypes, List.reverse_cons, List.foldl_append]
      refine (congrArg (fun final => [_].foldl Registry.removeType final) undone).trans ?_
      have first : (registry.registerType (some address)
          (if type.2 then some address else none) type.1).removeType
            ⟨registry.next, type.1, if type.2 then some address else none, some address, false⟩ =
          { registry with next := registry.next + 1 } :=
        sound.removeType_registerType freshFirst
      rw [List.length_cons, Nat.add_comm types.length, ← Nat.add_assoc]
      exact congrArg (fun final : Registry casemap =>
        { final with next := registry.next + 1 + types.length }) first

/-- A module that is deleted right away leaves the registry as it was. -/
theorem Sound.detachModule_attachModule {registry : Registry casemap} (sound : Sound registry)
    {address : Nat} {name : Str} {types : List (Str × Bool)}
    (free : ¬registry.Loaded address) (distinct : (types.map Prod.fst).Nodup)
    (fresh : ∀ type ∈ types, type.1 ∉ registry.order) :
    (registry.attachModule address name types).detachModule address =
      { registry with next := registry.next + types.length } := by
  have soundModules : Sound { registry with modules := registry.modules ++ [⟨address, name⟩] } :=
    sound.of_modules fun type mem other isHome => by
      rcases sound.loaded type mem other isHome with ⟨found, inModules, isAddress⟩
      exact ⟨found, List.mem_append_left _ inModules, isAddress⟩
  have loaded : Registry.Loaded { registry with
      modules := registry.modules ++ [⟨address, name⟩] } address :=
    ⟨_, List.mem_append_right _ List.mem_cons_self, rfl⟩
  have noMember : registry.types.filter (·.home = some address) = [] := by
    refine List.filter_eq_nil_iff.mpr fun type mem isHome => ?_
    exact free (sound.loaded type mem address (of_decide_eq_true isHome))
  have allMembers : (memberTypes address registry.next types).filter (·.home = some address) =
      memberTypes address registry.next types :=
    List.filter_eq_self.mpr fun type mem => decide_eq_true (home_of_mem_memberTypes mem)
  have members : (registry.attachModule address name types).members address =
      memberTypes address registry.next types := by
    rw [Registry.members, attachModule, types_foldl_registerType, List.filter_append, noMember,
      allMembers, List.nil_append]
  have undone := soundModules.foldl_removeType_foldl_registerType distinct loaded fresh
  have modules : (registry.modules ++ [(⟨address, name⟩ : Module)]).filter
      (·.address ≠ address) = registry.modules := by
    have kept : ∀ other ∈ registry.modules, decide (other.address ≠ address) = true :=
      fun other mem => decide_eq_true fun same => free ⟨other, mem, same⟩
    rw [List.filter_append, List.filter_eq_self.mpr kept, List.filter_cons_of_neg (by simp),
      List.filter_nil, List.append_nil]
  rw [Registry.detachModule, members]
  rw [attachModule, undone]
  exact congrArg (fun modules => { registry with
    modules := modules, next := registry.next + types.length }) modules

theorem sound_empty : Sound (Registry.empty casemap) where
  order := rfl
  distinct := List.nodup_nil
  addresses := List.nodup_nil
  found _ mem := nomatch mem
  table _ _ is := nomatch is
  below _ mem := nomatch mem
  homes _ mem := nomatch mem
  loaded _ mem := nomatch mem
  items := List.nodup_nil
  itemsBelow _ mem := nomatch mem
  typed _ mem := nomatch mem

/-- The core types have different names. -/
theorem sound_core : Sound (Registry.core casemap) := by
  have all : ∀ names : List Str, names.Nodup → ∀ registry : Registry casemap, Sound registry →
      (∀ name ∈ names, name ∉ registry.order) →
      Sound (names.foldl (fun registry name => registry.registerType none none name)
        registry) := by
    intro names distinct
    induction names with
    | nil => exact fun _ sound _ => sound
    | cons name names ih =>
        intro registry sound fresh
        rw [List.nodup_cons] at distinct
        refine ih distinct.2 _ (sound.registerType (fresh name List.mem_cons_self)
          (fun _ is => nomatch is) fun _ is => nomatch is) fun other mem inOrder => ?_
        rcases List.mem_append.mp inOrder with old | last
        · exact fresh other (List.mem_cons_of_mem name mem) old
        · exact distinct.1 (List.mem_singleton.mp last ▸ mem)
  have registered := all coreTypes (by decide) _ sound_empty fun _ _ => List.not_mem_nil
  exact registered.of_types fun _ => ⟨rfl, rfl, rfl, rfl⟩

end Anope.Database.Registry
