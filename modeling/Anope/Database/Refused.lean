import Anope.Database.Saving

/-!
# Databases that could not be read

Along which runs a file that `ReadDatabase` refused is never written: a save
makes a database for the owner of every registered type that has none, also where
its file was refused.
-/

namespace Anope.Database

open Library Anope.Text Anope.Storage

variable {casemap : Casemap} {ρ : Type} {setup : Setup casemap ρ}

/-- No file was written after it was refused. -/
def Kept (trace : List Event) : Prop :=
  trace.Pairwise fun earlier later => ∀ file, earlier = .refused file → later ≠ .wrote file

/-- A save finds no registered type whose owner has a file that was refused. -/
def SavesRead (setup : Setup casemap ρ) (state : State casemap ρ) (act : Act casemap) : Prop :=
  act = .save → ∀ type ∈ state.registered, ∀ file,
    State.getDatabaseFile setup state.registry type.owner = some file →
      .refused file ∈ state.trace → setup.writable file = false

/-- What holds as long as no refused file is written: the owners are loaded, the
databases that are kept have files that can be read, and a refused file stays as
it is. -/
structure Guarded (setup : Setup casemap ρ) (state : State casemap ρ) : Prop where
  owners : ∀ type ∈ state.registry.types, ∃ file,
    State.getDatabaseFile setup state.registry type.owner = some file
  databases : ∀ owner ∈ state.keys, ∃ file,
    State.getDatabaseFile setup state.registry owner = some file ∧
      (Readable setup (state.files file) ∨ setup.writable file = false)
  refused : ∀ file, .refused file ∈ state.trace → ¬Readable setup (state.files file)

/-! ## The trace -/

theorem kept_append_wrote {trace : List Event} {files : List Str} :
    Kept (trace ++ files.map Event.wrote) ↔
      Kept trace ∧ ∀ file ∈ files, .refused file ∉ trace := by
  have writes : (files.map Event.wrote).Pairwise fun earlier later =>
      ∀ file, earlier = .refused file → later ≠ .wrote file :=
    List.pairwise_map.mpr (List.pairwise_of_forall fun _ _ _ is => nomatch is)
  rw [Kept, List.pairwise_append, ← Kept]
  constructor
  · rintro ⟨before, -, between⟩
    refine ⟨before, fun file mem refused => ?_⟩
    exact between _ refused _ (List.mem_map_of_mem mem) file rfl rfl
  · rintro ⟨before, unrefused⟩
    refine ⟨before, writes, fun earlier mem later inLater file is wrote => ?_⟩
    rcases List.mem_map.mp inLater with ⟨written, inFiles, rfl⟩
    rw [Event.wrote.inj wrote] at inFiles
    exact unrefused file inFiles (is ▸ mem)

theorem kept_append_refused {trace : List Event} {file : Str} (kept : Kept trace) :
    Kept (trace ++ [.refused file]) := by
  rw [Kept, List.pairwise_append]
  refine ⟨kept, List.pairwise_singleton _ _, fun _ _ later inLater other _ => ?_⟩
  rw [List.mem_singleton.mp inLater]
  exact fun wrote => nomatch wrote

/-! ## Loading -/

namespace Guarded

variable {state : State casemap ρ} (guarded : Guarded setup state)

include guarded

/-- Acts on objects keep the guard. -/
theorem of_registry {registry : Registry casemap}
    (modules : registry.modules = state.registry.modules)
    (types : ∀ type ∈ registry.types, ∃ old ∈ state.registry.types, old.owner = type.owner) :
    Guarded setup { state with registry := registry } where
  owners type mem := by
    rcases types type mem with ⟨old, inTypes, sameOwner⟩
    rw [← sameOwner, State.getDatabaseFile_congr modules]
    exact guarded.owners old inTypes
  databases owner mem := by
    rw [State.getDatabaseFile_congr modules]
    exact guarded.databases owner mem
  refused := guarded.refused

theorem load (type : SerializeType) : Guarded setup (state.load setup type) := by
  have frame := Registry.loadType_frame state.registry setup type
    ((state.databaseOf type.owner).elim [] Prod.snd)
  refine guarded.of_registry frame.1 fun other mem => ?_
  rw [frame.2.1] at mem
  exact ⟨other, mem, rfl⟩

theorem markCreated (address : Nat) :
    Guarded setup { state with registry := state.registry.markCreated address } := by
  refine guarded.of_registry rfl fun type mem => ?_
  rcases List.mem_map.mp mem with ⟨old, inTypes, rfl⟩
  refine ⟨old, inTypes, ?_⟩
  split <;> rfl

theorem refuse {file : Str} (unreadable : readDatabase setup (state.files file) = none) :
    Guarded setup (state.refuse file) where
  owners := guarded.owners
  databases := guarded.databases
  refused other mem := by
    have old : .refused other ∈ state.trace ∨ other = file := by
      rw [State.refuse] at mem
      revert mem
      cases state.files file with
      | absent => exact Or.inl
      | unreadable | malformed | notObject | object _ =>
          intro mem
          exact (List.mem_append.mp mem).imp_right fun last =>
            Event.refused.inj (List.mem_singleton.mp last)
    rcases old with old | rfl
    · exact guarded.refused other old
    · intro readable
      have isSome : (readDatabase setup (state.files other)).isSome = true := readable
      rw [unreadable] at isSome
      exact Bool.noConfusion isSome

theorem emplace {owner : Option Nat} {file : Str} {entries : List Entry}
    (isFile : State.getDatabaseFile setup state.registry owner = some file)
    (read : readDatabase setup (state.files file) = some entries) :
    Guarded setup (state.emplace owner entries) where
  owners := guarded.owners
  databases other mem := by
    rcases State.mem_keys_emplace _ mem with old | rfl
    · exact guarded.databases other old
    · refine ⟨file, isFile, Or.inl ?_⟩
      change (readDatabase setup (state.files file)).isSome = true
      rw [read]
      rfl
  refused := guarded.refused

end Guarded

/-- The trace only grows by the refused file. -/
theorem kept_refuse {state : State casemap ρ} (kept : Kept state.trace) (file : Str) :
    Kept (state.refuse file).trace := by
  rw [State.refuse]
  cases state.files file with
  | absent => exact kept
  | unreadable | malformed | notObject | object _ => exact kept_append_refused kept

section

variable {state : State casemap ρ}

/-- Announcing a type writes nothing. -/
theorem guarded_onSerializeTypeCreate (guarded : Guarded setup state) (kept : Kept state.trace)
    (type : SerializeType) :
    Guarded setup (state.onSerializeTypeCreate setup type) ∧
      Kept (state.onSerializeTypeCreate setup type).trace := by
  rw [State.onSerializeTypeCreate]
  split
  · exact ⟨guarded, kept⟩
  · split
    · exact ⟨guarded.load type, kept⟩
    · cases isFile : State.getDatabaseFile setup state.registry type.owner with
      | none => exact ⟨guarded, kept⟩
      | some file =>
          dsimp only
          cases read : readDatabase setup (state.files file) with
          | none => exact ⟨guarded.refuse read, kept_refuse kept file⟩
          | some entries => exact ⟨(guarded.emplace isFile read).load type, kept⟩

theorem guarded_create (guarded : Guarded setup state) (kept : Kept state.trace)
    (type : SerializeType) :
    Guarded setup (state.create setup type) ∧ Kept (state.create setup type).trace := by
  rw [State.create]
  split
  · exact ⟨guarded, kept⟩
  · rcases guarded_onSerializeTypeCreate guarded kept type with ⟨guardedAfter, keptAfter⟩
    exact ⟨guardedAfter.markCreated type.address, keptAfter⟩

/-- Announcing all types writes nothing. -/
theorem guarded_createTypes (guarded : Guarded setup state) (kept : Kept state.trace) :
    Guarded setup (state.createTypes setup) ∧ Kept (state.createTypes setup).trace := by
  rw [State.createTypes]
  induction state.registry.order generalizing state with
  | nil => exact ⟨guarded, kept⟩
  | cons name order ih =>
      rw [List.foldl_cons]
      cases state.registry.find name with
      | none => exact ih guarded kept
      | some type =>
          rcases guarded_create guarded kept type with ⟨guardedAfter, keptAfter⟩
          exact ih guardedAfter keptAfter

theorem guarded_loadCoreType (guarded : Guarded setup state) (kept : Kept state.trace)
    (name : Str) :
    Guarded setup (state.loadCoreType setup name) ∧
      Kept (state.loadCoreType setup name).trace := by
  rw [State.loadCoreType]
  split
  · exact ⟨guarded, kept⟩
  · split
    · exact ⟨guarded.load _, kept⟩
    · exact ⟨guarded, kept⟩

/-- Loading the core database writes nothing. -/
theorem guarded_onLoadDatabase (guarded : Guarded setup state) (kept : Kept state.trace) :
    Guarded setup (state.onLoadDatabase setup) ∧ Kept (state.onLoadDatabase setup).trace := by
  rw [State.onLoadDatabase]
  cases read : readDatabase setup (state.files setup.database) with
  | none => exact ⟨guarded.refuse read, kept_refuse kept setup.database⟩
  | some entries =>
      have emplaced : Guarded setup (state.emplace none entries) := guarded.emplace rfl read
      have filled : ∀ order : List Str,
          Guarded setup (order.foldl (State.loadCoreType setup) (state.emplace none entries)) ∧
            Kept (order.foldl (State.loadCoreType setup) (state.emplace none entries)).trace := by
        intro order
        refine List.foldlRecOn order (State.loadCoreType setup)
          (motive := fun middle => Guarded setup middle ∧ Kept middle.trace) ⟨emplaced, kept⟩ ?_
        intro middle safe name _
        exact guarded_loadCoreType safe.1 safe.2 name
      rcases filled state.registry.order with ⟨guardedFilled, keptFilled⟩
      exact ⟨⟨guardedFilled.owners, guardedFilled.databases, guardedFilled.refused⟩, keptFilled⟩

end

/-! ## Modules -/

namespace Guarded

variable {state : State casemap ρ} (guarded : Guarded setup state)

include guarded

/-- The members of a module are owned by the core or by it. -/
theorem attachModule (address : Nat) (name : Str) (types : List (Str × Bool)) :
    Guarded setup { state with registry := state.registry.attachModule address name types } where
  owners type mem := by
    rcases Registry.mem_types_attachModule _ mem with old | ⟨_, isCore | ⟨isOwner, _⟩⟩
    · rcases guarded.owners type old with ⟨file, isFile⟩
      exact ⟨file, State.getDatabaseFile_attachModule isFile address name types⟩
    · rw [isCore]
      exact ⟨_, rfl⟩
    · rw [isOwner]
      refine State.getDatabaseFile_some_iff.mpr ⟨⟨address, name⟩, ?_, rfl⟩
      change _ ∈ (state.registry.attachModule address name types).modules
      rw [Registry.modules_attachModule]
      exact List.mem_append_right _ List.mem_cons_self
  databases owner mem := by
    rcases guarded.databases owner mem with ⟨file, isFile, able⟩
    exact ⟨file, State.getDatabaseFile_attachModule isFile address name types, able⟩
  refused := guarded.refused

/-- A module that is deleted right away leaves the others. -/
theorem detachModule {address : Nat} (free : ¬state.registry.Loaded address) (name : Str)
    (types : List (Str × Bool)) :
    Guarded setup { state with
      registry := (state.registry.attachModule address name types).detachModule address } := by
  have notFree : ∀ {owner file},
      State.getDatabaseFile setup state.registry owner = some file → owner ≠ some address := by
    rintro owner file isFile rfl
    exact free (State.getDatabaseFile_some_iff.mp ⟨file, isFile⟩)
  have keeps : ∀ {owner file}, State.getDatabaseFile setup state.registry owner = some file →
      State.getDatabaseFile setup
        ((state.registry.attachModule address name types).detachModule address) owner =
          some file := by
    intro owner file isFile
    rw [State.getDatabaseFile_detachModule (notFree isFile)]
    exact State.getDatabaseFile_attachModule isFile address name types
  constructor
  · intro type mem
    rcases Registry.mem_types_detachModule _ mem with ⟨attached, notMember⟩
    rcases Registry.mem_types_attachModule _ attached with old | ⟨isMember, _⟩
    · rcases guarded.owners type old with ⟨file, isFile⟩
      exact ⟨file, keeps isFile⟩
    · exact absurd isMember notMember
  · intro owner mem
    rcases guarded.databases owner mem with ⟨file, isFile, able⟩
    exact ⟨file, keeps isFile, able⟩
  · exact guarded.refused

end Guarded

/-! ## Saving -/

section

variable {state : State casemap ρ} (guarded : Guarded setup state)

include guarded

/-- Every owner whose database is written has a file. -/
theorem Guarded.stored {owner : Option Nat} (mem : owner ∈ (state.stored setup).keys) :
    ∃ file, State.getDatabaseFile setup state.registry owner = some file := by
  rcases (State.mem_keys_stored state).mp mem with ⟨_, old⟩ | ⟨type, isRegistered, rfl⟩
  · rcases guarded.databases owner old with ⟨file, isFile, _⟩
    exact ⟨file, isFile⟩
  · exact guarded.owners type (State.mem_types_of_registered isRegistered)

/-- A save writes a refused file exactly when it finds a type of its owner. -/
theorem savesRead_iff :
    SavesRead setup state .save ↔
      ∀ file ∈ (state.stored setup).targets setup, .refused file ∉ state.trace := by
  have sameRegistry : (state.stored setup).registry = state.registry := by
    rw [State.stored_eq]
  constructor
  · intro read file mem isRefused
    rcases State.mem_targets.mp mem with ⟨owner, inKeys, isFile, able⟩
    rw [sameRegistry] at isFile
    rcases (State.mem_keys_stored state).mp inKeys with ⟨_, old⟩ | ⟨type, isRegistered, rfl⟩
    · rcases guarded.databases owner old with ⟨other, isOther, readable | unable⟩
      · rw [Option.some.inj (isFile.symm.trans isOther)] at isRefused
        exact guarded.refused other isRefused readable
      · rw [Option.some.inj (isFile.symm.trans isOther), unable] at able
        exact Bool.noConfusion able
    · rw [read rfl type isRegistered file isFile isRefused] at able
      exact Bool.noConfusion able
  · intro unrefused _ type isRegistered file isFile isRefused
    refine Bool.eq_false_iff.mpr fun able => unrefused file ?_ isRefused
    refine State.mem_targets.mpr ⟨type.owner, ?_, sameRegistry.symm ▸ isFile, able⟩
    exact (State.mem_keys_stored state).mpr (Or.inr ⟨type, isRegistered, rfl⟩)

/-- The trace after a save. -/
theorem kept_onSaveDatabase_iff (kept : Kept state.trace) :
    Kept (state.onSaveDatabase setup).trace ↔ SavesRead setup state .save := by
  have sameTrace : (state.stored setup).trace = state.trace := by
    rw [State.stored_eq]
  rw [(State.wrote_onSaveDatabase state).trace, sameTrace, kept_append_wrote,
    savesRead_iff guarded]
  exact and_iff_right kept

/-- A save that writes no refused file keeps the guard. -/
theorem Guarded.onSaveDatabase (read : SavesRead setup state .save) :
    Guarded setup (state.onSaveDatabase setup) := by
  have wrote : State.Wrote setup ((state.stored setup).targets setup) (state.stored setup)
      (state.onSaveDatabase setup) :=
    State.wrote_onSaveDatabase state
  have unrefused := (savesRead_iff guarded).mp read
  have same := State.stored_eq setup state
  have sameRegistry : (state.onSaveDatabase setup).registry = state.registry := by
    rw [wrote.registry, same]
  have sameFiles : (state.stored setup).files = state.files := by
    rw [same]
  have sameTrace : (state.stored setup).trace = state.trace := by
    rw [same]
  constructor
  · rw [sameRegistry]
    exact guarded.owners
  · intro owner mem
    rw [State.keys, wrote.databases] at mem
    rw [sameRegistry]
    rcases guarded.stored mem with ⟨file, isFile⟩
    refine ⟨file, isFile, ?_⟩
    cases able : setup.writable file with
    | false => exact Or.inr rfl
    | true =>
        refine Or.inl (wrote.readable file (State.mem_targets.mpr ⟨owner, mem, ?_, able⟩))
        rw [same]
        exact isFile
  · intro file isRefused
    have before : .refused file ∈ state.trace := by
      rw [wrote.trace, sameTrace] at isRefused
      refine (List.mem_append.mp isRefused).resolve_right fun inWritten => ?_
      rcases List.mem_map.mp inWritten with ⟨_, _, is⟩
      cases is
    have notWritten : file ∉ (state.stored setup).targets setup := fun mem =>
      unrefused file mem before
    rw [wrote.unchanged file notWritten, sameFiles]
    exact guarded.refused file before

end

/-! ## Runs -/

/-- Starting, loading modules, changing objects and saving. -/
abbrev LoadAct (casemap : Casemap) :=
  { act : Act casemap // ∀ address, act ≠ .unload address }

/-- One act other than deleting a module. -/
def loadStep (setup : Setup casemap ρ) (state : State casemap ρ) (act : LoadAct casemap) :
    Option (State casemap ρ) :=
  step setup state act.val

/-- Every act other than a save writes nothing. -/
theorem guarded_loadStep {state next : State casemap ρ} {act : LoadAct casemap}
    (guarded : Guarded setup state) (kept : Kept state.trace)
    (stepped : loadStep setup state act = some next) (notSave : act.val ≠ .save) :
    Guarded setup next ∧ Kept next.trace := by
  rcases act with ⟨act, notUnload⟩
  cases act with
  | start =>
      cases stepped
      exact guarded_onLoadDatabase guarded kept
  | attach =>
      cases stepped
      exact ⟨⟨guarded.owners, fun _ mem => (nomatch mem), guarded.refused⟩, kept⟩
  | load address name types =>
      rcases Option.ite_none_right_eq_some.mp stepped with ⟨_, is⟩
      cases is
      exact guarded_createTypes (guarded.attachModule address name types) kept
  | loadFailed address name types =>
      rcases Option.ite_none_right_eq_some.mp stepped with ⟨can, is⟩
      cases is
      exact ⟨guarded.detachModule can.2 name types, kept⟩
  | unload address => exact absurd rfl (notUnload address)
  | construct name object =>
      cases stepped
      exact ⟨guarded.of_registry rfl fun type mem => ⟨type, mem, rfl⟩, kept⟩
  | destruct address =>
      cases stepped
      exact ⟨guarded.of_registry rfl fun type mem => ⟨type, mem, rfl⟩, kept⟩
  | discard address =>
      cases stepped
      exact ⟨guarded.of_registry rfl fun type mem => ⟨type, mem, rfl⟩, kept⟩
  | save => exact absurd rfl notSave

theorem savesRead_of_ne {state : State casemap ρ} {act : Act casemap} (notSave : act ≠ .save) :
    SavesRead setup state act := fun isSave => absurd isSave notSave

/-- One act writes no refused file exactly when it is no save, or one that finds no
registered type of an owner whose file was refused. -/
theorem kept_loadStep_iff {state next : State casemap ρ} {act : LoadAct casemap}
    (guarded : Guarded setup state) (kept : Kept state.trace)
    (stepped : loadStep setup state act = some next) :
    Kept next.trace ↔ SavesRead setup state act.val := by
  by_cases isSave : act.val = .save
  · rw [loadStep, isSave] at stepped
    cases stepped
    rw [isSave]
    exact kept_onSaveDatabase_iff guarded kept
  · exact iff_of_true (guarded_loadStep guarded kept stepped isSave).2 (savesRead_of_ne isSave)

/-- The guard stays as long as no refused file is written. -/
theorem Guarded.loadStep {state next : State casemap ρ} {act : LoadAct casemap}
    (guarded : Guarded setup state) (kept : Kept state.trace) (keptAfter : Kept next.trace)
    (stepped : loadStep setup state act = some next) : Guarded setup next := by
  have read := (kept_loadStep_iff guarded kept stepped).mp keptAfter
  by_cases isSave : act.val = .save
  · rw [Database.loadStep, isSave] at stepped
    rw [isSave] at read
    cases stepped
    exact guarded.onSaveDatabase read
  · exact (guarded_loadStep guarded kept stepped isSave).1

/-- Nothing is guarded against before the start. -/
theorem guarded_boot (files : Str → File ρ) : Guarded setup (boot casemap files) where
  owners type mem := by
    have isCore : type.owner = none := by
      change type ∈ (Registry.core casemap).types at mem
      rw [types_core] at mem
      rcases List.mem_map.mp mem with ⟨_, _, rfl⟩
      rfl
    rw [isCore]
    exact ⟨_, rfl⟩
  databases _ mem := nomatch mem
  refused _ mem := nomatch mem

/-- Along which runs no file is written after it was refused. -/
theorem always_kept_iff (setup : Setup casemap ρ) (files : Str → File ρ)
    (acts : List (LoadAct casemap)) :
    Run.Always (loadStep setup) (fun state => Kept state.trace) (boot casemap files) acts ↔
      Run.EachStep (loadStep setup) (fun state act => SavesRead setup state act.val)
        (boot casemap files) acts :=
  Run.always_iff_eachStep_of_kept (Guarded setup)
    (fun guarded kept keptAfter stepped => guarded.loadStep kept keptAfter stepped)
    (fun guarded kept stepped => kept_loadStep_iff guarded kept stepped)
    (guarded_boot files) List.Pairwise.nil acts

/-- A core database that is no JSON is overwritten by the first save. -/
theorem not_always_kept_malformed :
    ¬Run.Always (loadStep defaultSetup) (fun state => Kept state.trace)
      (boot .ascii fun _ => .malformed)
      [⟨.start, fun _ is => nomatch is⟩, ⟨.save, fun _ is => nomatch is⟩] := by
  intro always
  have kept := always.of_run rfl
  have overwritten : Kept [.refused (ascii "anope.json"), .wrote (ascii "anope.json")] := kept
  exact List.rel_of_pairwise_cons overwritten List.mem_cons_self _ rfl rfl

end Anope.Database
