import Anope.Bridge.Service.Reservations
import Anope.Bridge.Service.Retiring
import Anope.Library.Keyed

/-!
# Bridges of one channel

The commands and the rows that they save.  `CommandBSAdd` looks for a bridge of the IRC
channel and for one of the foreign channel, `CommandBSSet` for one of the foreign channel,
`Unserialize` of a new bridge for one of the IRC channel, and `Unserialize` of a bridge that
is loaded for none.  A row is written some time after the command that changes the bridge,
and it is read back when the database sees fit.
-/

namespace Anope.BridgeServ

open Library Library.Run Anope.Text

/-- The service, and the rows of its bridges in the database. -/
structure Stored where
  service : State
  rows : AList fun _ : Nat => Bridge

namespace Stored

def initial : Stored where
  service := .initial
  rows := ∅

end Stored

/-- A command, or an access to the database. -/
inductive StoreEvent where
  /-- `CommandBSAdd`. -/
  | add (ircChannel space foreignChannel suffix : Str)
  /-- `CommandBSSet`. -/
  | set (ircChannel space foreignChannel suffix : Str)
  /-- `CommandBSDel`. -/
  | del (ircChannel : Str)
  /-- The row of a bridge is written. -/
  | save (id : Nat)
  /-- The row of a bridge is read. -/
  | reload (id : Nat)
  /-- Services are restarted. -/
  | restart
  deriving DecidableEq, Repr

namespace Stored

/-- The row of a bridge is read: into the bridge when it is loaded, and else into a new one,
whose row it is then. -/
def reload (env : Env) (stored : Stored) (id : Nat) (row : Bridge) : Option Stored :=
  if (findBridge stored.service id).isSome then
    (act env stored.service (.update row)).map fun service => { stored with service }
  else
    (act env stored.service (.load row)).map fun service =>
      if service.nextBridge = stored.service.nextBridge then { stored with service }
      else
        { service
          rows := (stored.rows.erase id).insert stored.service.nextBridge
            { row with id := stored.service.nextBridge } }

/-- One event. -/
def step (env : Env) (stored : Stored) : StoreEvent → Option Stored
  | .add ircChannel space foreignChannel suffix =>
      (act env stored.service (.add ircChannel space foreignChannel suffix)).map fun service =>
        { stored with service }
  | .set ircChannel space foreignChannel suffix =>
      (act env stored.service (.set ircChannel space foreignChannel suffix)).map fun service =>
        { stored with service }
  | .del ircChannel =>
      (act env stored.service (.del ircChannel)).map fun service =>
        { service
          rows :=
            match findIrc env stored.service ircChannel with
            | none => stored.rows
            | some bridge => stored.rows.erase bridge.id }
  | .save id =>
      (findBridge stored.service id).map fun bridge =>
        { stored with rows := stored.rows.insert id bridge }
  | .reload id => (stored.rows.lookup id).bind (stored.reload env id)
  | .restart =>
      some { stored with
        service := { State.initial with nextBridge := stored.service.nextBridge } }

end Stored

/-! ## Clashes -/

/-- Two bridges have one IRC channel, or one foreign channel. -/
def Clash (env : Env) (bridge other : Bridge) : Prop :=
  env.casemap.equalsCi bridge.ircChannel other.ircChannel = true ∨
    env.casemap.equalsCi bridge.protocol other.protocol = true ∧
      env.casemap.equalsCi bridge.foreignChannel other.foreignChannel = true

instance instDecidableClash (env : Env) (bridge other : Bridge) :
    Decidable (Clash env bridge other) :=
  inferInstanceAs (Decidable (_ ∨ _ ∧ _))

theorem Clash.symm {env : Env} {bridge other : Bridge} (clash : Clash env bridge other) :
    Clash env other bridge := by
  simp only [Clash, Casemap.equalsCi_iff] at clash ⊢
  exact clash.imp Eq.symm (And.imp Eq.symm Eq.symm)

/-- No two bridges share an IRC channel, or a foreign channel of one protocol. -/
def Unique (env : Env) (bridges : List Bridge) : Prop :=
  ∀ bridge ∈ bridges, ∀ other ∈ bridges, bridge.id ≠ other.id → ¬Clash env bridge other

/-- The numbers tell the bridges apart. -/
structure Numbered (state : State) : Prop where
  distinct : (state.bridges.map Bridge.id).Nodup
  older : ∀ bridge ∈ state.bridges, bridge.id < state.nextBridge

section Bridges

variable {env : Env} {state next : State}

theorem Numbered.eq_of_id (numbered : Numbered state) {bridge other : Bridge}
    (mem : bridge ∈ state.bridges) (mem' : other ∈ state.bridges) (same : bridge.id = other.id) :
    bridge = other :=
  List.inj_on_of_nodup_map numbered.distinct mem mem' same

theorem numbered_addBridge (numbered : Numbered state) (bridge : Bridge) :
    Numbered (addBridge bridge state) := by
  obtain ⟨distinct, older⟩ := @Library.Keyed.numbered_concat _ state.bridges Bridge.id _
    { bridge with id := state.nextBridge } numbered.distinct numbered.older rfl
  exact ⟨distinct, older⟩

theorem numbered_modifyBridge (numbered : Numbered state) (id : Nat) {change : Bridge → Bridge}
    (same : ∀ bridge, bridge.id = id → (change bridge).id = id) :
    Numbered (state.modifyBridge id change) := by
  have ids (bridge : Bridge) : (if bridge.id = id then change bridge else bridge).id =
      bridge.id := by
    split
    case isTrue isId => rw [same bridge isId, isId]
    case isFalse => rfl
  constructor
  · rw [State.modifyBridge, List.map_map]
    exact (List.map_congr_left fun bridge _ => ids bridge) ▸ numbered.distinct
  · intro other mem
    obtain ⟨bridge, isBridge, rfl⟩ := List.mem_map.mp mem
    rw [ids bridge]
    exact numbered.older bridge isBridge

theorem Numbered.of_sublist (numbered : Numbered state)
    (sublist : next.bridges.Sublist state.bridges)
    (nextBridge : next.nextBridge = state.nextBridge) :
    Numbered next where
  distinct := numbered.distinct.sublist (sublist.map _)
  older := fun bridge mem => nextBridge ▸ numbered.older bridge (sublist.subset mem)

/-- A new bridge keeps the others apart when it clashes with none of them. -/
theorem unique_addBridge_iff (numbered : Numbered state) (unique : Unique env state.bridges)
    (bridge : Bridge) : Unique env (addBridge bridge state).bridges ↔
      ∀ other ∈ state.bridges, ¬Clash env bridge other := by
  constructor
  · intro after other mem clash
    refine after _ (List.mem_append_right _ (List.mem_singleton_self _)) other
      (List.mem_append_left _ mem) ?_ clash
    exact (Nat.ne_of_lt (numbered.older other mem)).symm
  · intro apart first mem second mem' differs
    rcases List.mem_append.mp mem with old | new <;> rcases List.mem_append.mp mem' with old' | new'
    · exact unique first old second old' differs
    · cases List.mem_singleton.mp new'
      exact fun clash => apart first old clash.symm
    · cases List.mem_singleton.mp new
      exact apart second old'
    · cases List.mem_singleton.mp new
      cases List.mem_singleton.mp new'
      exact absurd rfl differs

/-- A bridge that is changed keeps the others apart when it clashes with none of them. -/
theorem unique_modifyBridge_iff {id : Nat} {bridge : Bridge} {change : Bridge → Bridge}
    (numbered : Numbered state) (unique : Unique env state.bridges) (mem : bridge ∈ state.bridges)
    (isId : bridge.id = id) (same : (change bridge).id = id) :
    Unique env (state.modifyBridge id change).bridges ↔
      ∀ other ∈ state.bridges, other.id ≠ id → ¬Clash env (change bridge) other := by
  have changed : change bridge ∈ (state.modifyBridge id change).bridges :=
    List.mem_map.mpr ⟨bridge, mem, if_pos isId⟩
  have kept {other : Bridge} (isOther : other ∈ state.bridges) (differs : other.id ≠ id) :
      other ∈ (state.modifyBridge id change).bridges :=
    List.mem_map.mpr ⟨other, isOther, if_neg differs⟩
  have cases_mem {other : Bridge} (isOther : other ∈ (state.modifyBridge id change).bridges) :
      other = change bridge ∨ other ∈ state.bridges ∧ other.id ≠ id := by
    obtain ⟨old, isOld, rfl⟩ := List.mem_map.mp isOther
    by_cases isIt : old.id = id
    · rw [if_pos isIt, numbered.eq_of_id isOld mem (isIt.trans isId.symm)]
      exact .inl rfl
    · rw [if_neg isIt]
      exact .inr ⟨isOld, isIt⟩
  constructor
  · intro after other isOther differs clash
    exact after _ changed other (kept isOther differs) (same ▸ differs.symm) clash
  · intro apart first isFirst second isSecond differs
    rcases cases_mem isFirst with rfl | ⟨old, notIt⟩ <;>
      rcases cases_mem isSecond with rfl | ⟨old', notIt'⟩
    · exact absurd rfl differs
    · exact apart second old' notIt'
    · exact fun clash => apart first old notIt clash.symm
    · exact unique first old second old' differs

theorem unique_of_sublist {bridges bridges' : List Bridge} (unique : Unique env bridges)
    (sublist : bridges'.Sublist bridges) : Unique env bridges' :=
  fun bridge mem other mem' => unique bridge (sublist.subset mem) other (sublist.subset mem')

/-! ## The lookups -/

theorem findIrc_eq_none_iff {ircChannel : Str} : findIrc env state ircChannel = none ↔
    ∀ bridge ∈ state.bridges, env.casemap.equalsCi bridge.ircChannel ircChannel ≠ true :=
  List.find?_eq_none

theorem findRemote_eq_none_iff {protocol channel : Str} :
    findRemote env state protocol channel = none ↔ ∀ bridge ∈ state.bridges,
      ¬(env.casemap.equalsCi bridge.protocol protocol = true ∧
        env.casemap.equalsCi bridge.foreignChannel channel = true) := by
  rw [findRemote, List.find?_eq_none]
  simp only [Bool.and_eq_true]

theorem not_clash_of_lookups {bridge other : Bridge}
    (noIrc : findIrc env state bridge.ircChannel = none)
    (noRemote : findRemote env state bridge.protocol bridge.foreignChannel = none)
    (mem : other ∈ state.bridges) : ¬Clash env bridge other := by
  intro clash
  rcases clash.symm with irc | remote
  · exact findIrc_eq_none_iff.mp noIrc other mem irc
  · exact findRemote_eq_none_iff.mp noRemote other mem remote

/-! ## The commands -/

variable {ircChannel space foreignChannel suffix : Str}

/-- `CommandBSAdd` makes a bridge when both lookups find nothing. -/
theorem act_add_checked
    (stepped : act env state (.add ircChannel space foreignChannel suffix) = some next) :
    next = state ∨ ∃ protocol, findIrc env state ircChannel = none ∧
      findRemote env state protocol foreignChannel = none ∧
        next = addBridge (newBridge protocol ircChannel space foreignChannel suffix) state := by
  rw [act.eq_def] at stepped
  dsimp only at stepped
  split at stepped
  · cases stepped
    exact .inl rfl
  · rename_i protocol _
    split at stepped
    · rename_i checked
      cases stepped
      exact .inr ⟨protocol, Option.isNone_iff_eq_none.mp checked.2.1,
        Option.isNone_iff_eq_none.mp checked.2.2, rfl⟩
    · cases stepped
      exact .inl rfl

/-- `CommandBSSet` points a bridge to a channel that no other bridge is found for. -/
theorem act_set_checked
    (stepped : act env state (.set ircChannel space foreignChannel suffix) = some next) :
    next = state ∨ ∃ bridge protocol, findIrc env state ircChannel = some bridge ∧
      (∀ other, findRemote env state protocol foreignChannel = some other →
        other.id = bridge.id) ∧
        next = retireClients env bridge
          (state.modifyBridge bridge.id (pointed protocol space foreignChannel suffix)) := by
  rw [act.eq_def] at stepped
  dsimp only at stepped
  split at stepped
  · rename_i bridge protocol found _
    split at stepped
    · rename_i checked
      cases stepped
      refine .inr ⟨bridge, protocol, found, fun other isOther => ?_, rfl⟩
      rw [isOther, Option.all_some] at checked
      exact of_decide_eq_true checked
    · cases stepped
      exact .inl rfl
  · cases stepped
    exact .inl rfl

theorem nextBridge_partClient (client : BridgeClient) (name : Str) :
    (partClient env client name state).nextBridge = state.nextBridge := by
  rw [partClient]
  cases client.user <;> rfl

theorem nextBridge_removeClient (client : BridgeClient) :
    (removeClient client state).nextBridge = state.nextBridge := by
  rw [removeClient]
  cases client.user with
  | none => rfl
  | some user =>
      dsimp only [quitUser]
      rw [onUserQuit]
      split <;> rfl

theorem nextBridge_retireClients (bridge : Bridge) :
    (retireClients env bridge state).nextBridge = state.nextBridge := by
  refine List.foldlRecOn (motive := fun after : State => after.nextBridge = state.nextBridge)
    _ _ rfl fun middle same client _ => ?_
  rw [retireClient]
  split
  · exact (nextBridge_removeClient _).trans ((nextBridge_partClient _ _).trans same)
  · exact (nextBridge_partClient _ _).trans same

theorem releaseNicks_keeps (bridge : Bridge) :
    (releaseNicks env bridge state).bridges = state.bridges ∧
      (releaseNicks env bridge state).nextBridge = state.nextBridge := by
  refine List.foldlRecOn (motive := fun after : State => after.bridges = state.bridges ∧
    after.nextBridge = state.nextBridge) _ _ ⟨rfl, rfl⟩ fun middle same nick _ => ?_
  rw [releaseNick]
  split
  · exact same
  · rw [sendReservation]
    split <;> exact same

theorem nextBridge_pruneChannels :
    (pruneChannels env state).nextBridge = state.nextBridge := by
  refine List.foldlRecOn (motive := fun after : State => after.nextBridge = state.nextBridge)
    _ _ rfl fun middle same entry _ => ?_
  exact List.foldlRecOn (motive := fun after : State => after.nextBridge = state.nextBridge)
    _ _ same fun _ same' chan _ => (nextBridge_partClient _ _).trans same'

theorem dropBridge_keeps (bridge : Bridge) :
    (dropBridge env bridge state).bridges =
        state.bridges.filter (fun other => other.id ≠ bridge.id) ∧
      (dropBridge env bridge state).nextBridge = state.nextBridge := by
  rw [dropBridge, bridges_pruneChannels, nextBridge_pruneChannels]
  exact releaseNicks_keeps bridge

/-- A command keeps the numbers, and keeps the bridges apart. -/
theorem command_keeps (numbered : Numbered state) (unique : Unique env state.bridges)
    {action : Action} (isCommand :
      (∃ ircChannel space foreignChannel suffix,
        action = .add ircChannel space foreignChannel suffix) ∨
      (∃ ircChannel space foreignChannel suffix,
        action = .set ircChannel space foreignChannel suffix) ∨
      ∃ ircChannel, action = .del ircChannel)
    (stepped : act env state action = some next) : Numbered next ∧ Unique env next.bridges := by
  rcases isCommand with ⟨ircChannel, space, foreignChannel, suffix, rfl⟩ |
    ⟨ircChannel, space, foreignChannel, suffix, rfl⟩ | ⟨ircChannel, rfl⟩
  · rcases act_add_checked stepped with rfl | ⟨protocol, noIrc, noRemote, rfl⟩
    · exact ⟨numbered, unique⟩
    · exact ⟨numbered_addBridge numbered _, (unique_addBridge_iff numbered unique _).mpr
        fun other mem => not_clash_of_lookups noIrc noRemote mem⟩
  · rcases act_set_checked stepped with rfl | ⟨bridge, protocol, found, own, rfl⟩
    · exact ⟨numbered, unique⟩
    · have mem := List.mem_of_find?_eq_some found
      constructor
      · refine (@numbered_modifyBridge _ numbered bridge.id
          (pointed protocol space foreignChannel suffix) fun _ => id).of_sublist ?_
          (nextBridge_retireClients _)
        rw [bridges_retireClients]
      · rw [bridges_retireClients]
        refine (unique_modifyBridge_iff numbered unique mem rfl rfl).mpr
          fun other isOther differs clash => ?_
        rcases clash.symm with irc | remote
        · exact unique other isOther bridge mem differs (.inl irc)
        · cases isFound : findRemote env state protocol foreignChannel with
          | none => exact findRemote_eq_none_iff.mp isFound other isOther remote
          | some holder =>
              have isBridge := numbered.eq_of_id (List.mem_of_find?_eq_some isFound) mem
                (own holder isFound)
              have holds := List.find?_some isFound
              rw [isBridge, Bool.and_eq_true] at holds
              simp only [Casemap.equalsCi_iff] at holds remote
              refine unique other isOther bridge mem differs (.inr ?_)
              simp only [Casemap.equalsCi_iff]
              exact ⟨remote.1.trans holds.1.symm, remote.2.trans holds.2.symm⟩
  · rcases act_del_cases stepped with ⟨_, rfl⟩ | ⟨bridge, _, rfl⟩
    · exact ⟨numbered, unique⟩
    · have sublist : (dropBridge env bridge state).bridges.Sublist state.bridges := by
        rw [(dropBridge_keeps bridge).1]
        exact List.filter_sublist
      exact ⟨numbered.of_sublist sublist (dropBridge_keeps bridge).2,
        unique_of_sublist unique sublist⟩

/-! ## Rows -/

/-- A row that `Unserialize` does not skip. -/
def Usable (row : Bridge) : Prop :=
  row.ircChannel ≠ [] ∧ row.space ≠ [] ∧ row.foreignChannel ≠ []

theorem act_update_eq {row : Bridge} : act env state (.update row) =
    if row.ircChannel = [] ∨ row.space = [] ∨ row.foreignChannel = [] then some state
    else some (state.modifyBridge row.id fun _ => row) := by
  rw [act]

theorem act_load_eq {row : Bridge} : act env state (.load row) =
    if row.ircChannel = [] ∨ row.space = [] ∨ row.foreignChannel = [] ∨
        (findIrc env state row.ircChannel).isSome then some state
    else some (addBridge row state) := by
  rw [act]

end Bridges

/-- The numbers of the bridges, and those of the rows. -/
structure Stored.Sound (stored : Stored) : Prop where
  numbered : Numbered stored.service
  keyed : ∀ id row, stored.rows.lookup id = some row → row.id = id

/-- A row that is read puts a bridge where no other one is: read into a bridge it clashes with
no other, and of a new bridge, if there is none of the IRC channel, the foreign channel is free. -/
def Stored.ReadsApart (env : Env) (stored : Stored) : StoreEvent → Prop
  | .reload id => ∀ row, stored.rows.lookup id = some row → Usable row →
      if (findBridge stored.service id).isSome then
        ∀ other ∈ stored.service.bridges, other.id ≠ id → ¬Clash env row other
      else (findIrc env stored.service row.ircChannel).isSome ∨
        findRemote env stored.service row.protocol row.foreignChannel = none
  | _ => True

namespace Stored

variable {env : Env} {stored next : Stored}

theorem sound_initial : Sound initial where
  numbered := ⟨List.nodup_nil, fun _ mem => by cases mem⟩
  keyed := fun _ _ found => by cases found

theorem Sound.of_command (sound : Sound stored) {action : Action} {service : State}
    (rows : AList fun _ : Nat => Bridge) (unique : Unique env stored.service.bridges)
    (isCommand :
      (∃ ircChannel space foreignChannel suffix,
        action = .add ircChannel space foreignChannel suffix) ∨
      (∃ ircChannel space foreignChannel suffix,
        action = .set ircChannel space foreignChannel suffix) ∨
      ∃ ircChannel, action = .del ircChannel)
    (stepped : act env stored.service action = some service)
    (fewer : ∀ id row, rows.lookup id = some row → stored.rows.lookup id = some row) :
    Sound { service, rows } ∧ Unique env service.bridges := by
  obtain ⟨numbered, apart⟩ := command_keeps sound.numbered unique isCommand stepped
  exact ⟨⟨numbered, fun id row found => sound.keyed id row (fewer id row found)⟩, apart⟩

/-- What reading a row does, in one step. -/
theorem reload_keeps (sound : Sound stored) (unique : Unique env stored.service.bridges) {id : Nat}
    {row : Bridge} (found : stored.rows.lookup id = some row)
    (reloaded : stored.reload env id row = some next) :
    Sound next ∧ (Unique env next.service.bridges ↔ (Usable row →
      if (findBridge stored.service id).isSome then
        ∀ other ∈ stored.service.bridges, other.id ≠ id → ¬Clash env row other
      else (findIrc env stored.service row.ircChannel).isSome ∨
        findRemote env stored.service row.protocol row.foreignChannel = none)) := by
  have isId : row.id = id := sound.keyed id row found
  rw [reload] at reloaded
  by_cases isLoaded : (findBridge stored.service id).isSome
  · rw [if_pos isLoaded, act_update_eq] at reloaded
    rw [if_pos isLoaded]
    by_cases skipped : row.ircChannel = [] ∨ row.space = [] ∨ row.foreignChannel = []
    · rw [if_pos skipped] at reloaded
      cases reloaded
      refine ⟨sound, iff_of_true unique fun isUsable => ?_⟩
      exact absurd skipped (by simp only [not_or]; exact isUsable)
    · rw [if_neg skipped] at reloaded
      cases reloaded
      simp only [not_or] at skipped
      have isUsable : Usable row := skipped
      obtain ⟨bridge, isBridge⟩ := Option.isSome_iff_exists.mp isLoaded
      refine ⟨⟨numbered_modifyBridge sound.numbered _ fun _ _ => rfl, sound.keyed⟩, ?_⟩
      rw [forall_prop_of_true isUsable, ← isId]
      exact @unique_modifyBridge_iff _ _ _ _ (fun _ => row) sound.numbered unique
        (List.mem_of_find?_eq_some isBridge) ((id_of_findBridge isBridge).trans isId.symm) rfl
  · rw [if_neg isLoaded, act_load_eq] at reloaded
    rw [if_neg isLoaded]
    by_cases skipped : row.ircChannel = [] ∨ row.space = [] ∨ row.foreignChannel = [] ∨
        (findIrc env stored.service row.ircChannel).isSome
    · rw [if_pos skipped] at reloaded
      cases reloaded
      have same : ({ service := stored.service, rows := stored.rows } : Stored) = stored := rfl
      dsimp only
      rw [if_pos rfl, same]
      refine ⟨sound, iff_of_true unique fun isUsable => .inl ?_⟩
      rcases skipped with noIrc | noSpace | noForeign | isFound
      · exact absurd noIrc isUsable.1
      · exact absurd noSpace isUsable.2.1
      · exact absurd noForeign isUsable.2.2
      · exact isFound
    · rw [if_neg skipped] at reloaded
      cases reloaded
      simp only [not_or] at skipped
      have isUsable : Usable row := ⟨skipped.1, skipped.2.1, skipped.2.2.1⟩
      have noIrc : findIrc env stored.service row.ircChannel = none := by
        simpa using skipped.2.2.2
      have grown : (addBridge row stored.service).nextBridge ≠ stored.service.nextBridge :=
        Nat.succ_ne_self _
      dsimp only
      rw [if_neg grown]
      refine ⟨⟨numbered_addBridge sound.numbered row, fun other row' isRow => ?_⟩, ?_⟩
      · by_cases same : other = stored.service.nextBridge
        · subst same
          rw [AList.lookup_insert] at isRow
          cases isRow
          rfl
        · rw [AList.lookup_insert_ne same] at isRow
          by_cases isErased : other = id
          · subst isErased
            rw [AList.lookup_erase] at isRow
            cases isRow
          · rw [AList.lookup_erase_ne isErased] at isRow
            exact sound.keyed other row' isRow
      · rw [forall_prop_of_true isUsable, noIrc]
        refine (unique_addBridge_iff sound.numbered unique row).trans ⟨?_, ?_⟩
        · intro apart
          refine .inr (findRemote_eq_none_iff.mpr fun other mem remote => ?_)
          exact apart other mem (Clash.symm (.inr remote))
        · rintro (isFound | noRemote)
          · cases isFound
          · exact fun other mem => not_clash_of_lookups noIrc noRemote mem

/-- Only a row that is read can make bridges clash. -/
theorem exact_step (sound : Sound stored) (unique : Unique env stored.service.bridges)
    {event : StoreEvent} (stepped : stored.step env event = some next) :
    Sound next ∧ (Unique env next.service.bridges ↔ stored.ReadsApart env event) := by
  cases event with
  | add ircChannel space foreignChannel suffix =>
      obtain ⟨service, acted, rfl⟩ := Option.map_eq_some_iff.mp stepped
      obtain ⟨sound', apart⟩ := sound.of_command stored.rows unique
        (.inl ⟨_, _, _, _, rfl⟩) acted fun _ _ found => found
      exact ⟨sound', iff_of_true apart trivial⟩
  | set ircChannel space foreignChannel suffix =>
      obtain ⟨service, acted, rfl⟩ := Option.map_eq_some_iff.mp stepped
      obtain ⟨sound', apart⟩ := sound.of_command stored.rows unique
        (.inr (.inl ⟨_, _, _, _, rfl⟩)) acted fun _ _ found => found
      exact ⟨sound', iff_of_true apart trivial⟩
  | del ircChannel =>
      obtain ⟨service, acted, rfl⟩ := Option.map_eq_some_iff.mp stepped
      have fewer (id : Nat) (row : Bridge)
          (found : (match findIrc env stored.service ircChannel with
            | none => stored.rows
            | some bridge => stored.rows.erase bridge.id).lookup id = some row) :
          stored.rows.lookup id = some row := by
        cases isFound : findIrc env stored.service ircChannel with
        | none => rwa [isFound] at found
        | some bridge =>
            rw [isFound] at found
            by_cases same : id = bridge.id
            · subst same
              rw [AList.lookup_erase] at found
              cases found
            · rwa [AList.lookup_erase_ne same] at found
      obtain ⟨sound', apart⟩ := sound.of_command _ unique (.inr (.inr ⟨_, rfl⟩)) acted fewer
      exact ⟨sound', iff_of_true apart trivial⟩
  | save id =>
      obtain ⟨bridge, isBridge, rfl⟩ := Option.map_eq_some_iff.mp stepped
      refine ⟨⟨sound.numbered, fun other row isRow => ?_⟩, iff_of_true unique trivial⟩
      by_cases same : other = id
      · subst same
        rw [AList.lookup_insert] at isRow
        cases isRow
        exact id_of_findBridge isBridge
      · rw [AList.lookup_insert_ne same] at isRow
        exact sound.keyed other row isRow
  | reload id =>
      obtain ⟨row, found, reloaded⟩ := Option.bind_eq_some_iff.mp stepped
      obtain ⟨sound', same⟩ := reload_keeps sound unique found reloaded
      refine ⟨sound', same.trans ⟨fun apart row' found' => ?_, fun apart => apart row found⟩⟩
      cases found.symm.trans found'
      exact apart
  | restart =>
      cases stepped
      refine ⟨⟨⟨List.nodup_nil, fun _ mem => by cases mem⟩, sound.keyed⟩, ?_⟩
      exact iff_of_true (fun _ mem => by cases mem) trivial

/-- Bridges stay apart in every state of a run exactly when every row that is read puts its
bridge where no other one is. -/
theorem always_unique_iff (env : Env) (events : List StoreEvent) :
    Always (step env) (fun stored => Unique env stored.service.bridges) initial events ↔
      EachStep (step env) (ReadsApart env) initial events :=
  always_iff_eachStep_of_kept Sound
    (fun sound unique _ stepped => (exact_step sound unique stepped).1)
    (fun sound unique stepped => (exact_step sound unique stepped).2)
    sound_initial (fun _ mem => by cases mem) events

/-- A bridge that was pointed away goes back to its first channel when its row is read, and
another bridge is there. -/
theorem not_unique_stale_row : ¬∀ env events,
    Always (step env) (fun stored => Unique env stored.service.bridges) initial events := by
  intro always
  have evaluated : ((run (step .lenient) initial
      [.add (ascii "#a") (ascii "1") (ascii "10") [], .save 0,
        .set (ascii "#a") (ascii "1") (ascii "20") [],
        .add (ascii "#b") (ascii "1") (ascii "10") [], .save 1, .reload 0]).map fun stored =>
          stored.service.bridges.map fun bridge =>
            (bridge.id, bridge.protocol, bridge.foreignChannel)) =
      some [(0, ascii "discord", ascii "10"), (1, ascii "discord", ascii "10")] := by
    decide +kernel
  obtain ⟨stored, reached, bridges⟩ := Option.map_eq_some_iff.mp evaluated
  have unique := (always .lenient _).of_run reached
  obtain ⟨first, rest, isList, isFirst, isRest⟩ := List.map_eq_cons_iff.mp bridges
  obtain ⟨second, rest', rfl, isSecond, -⟩ := List.map_eq_cons_iff.mp isRest
  rw [Prod.mk.injEq, Prod.mk.injEq] at isFirst isSecond
  refine unique first (isList ▸ List.mem_cons_self) second
    (isList ▸ List.mem_cons_of_mem _ List.mem_cons_self) ?_ (.inr ⟨?_, ?_⟩)
  · rw [isFirst.1, isSecond.1]
    decide
  · rw [isFirst.2.1, isSecond.2.1, Casemap.equalsCi_iff]
  · rw [isFirst.2.2, isSecond.2.2, Casemap.equalsCi_iff]

end Stored

end Anope.BridgeServ
