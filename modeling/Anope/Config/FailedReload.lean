import Anope.Config.Unchanged
import Mathlib.Data.List.Basic

/-!
# When a failed reload changes nothing

How the constructor of `Conf` ends: the checks ahead of the first change fail, or one of the
loops over the blocks `service`, `command` and `fantasy` stops at a block that does not
validate.  What was done to the tables before stays.
-/

namespace Anope.Config

open Anope.Text Library.Attempt Library.Routed

section

variable {env : ReloadEnv} {reading : Except ConfigException Block} {world : World} {head : Head}

/-- The blocks `service` validate. -/
def ServicesPass (env : ReloadEnv) (head : Head) : Prop :=
  ∀ service ∈ head.block.getBlocks env.casemap (ascii "service"),
    validateService env.casemap head.settings.servername service = .ok ()

/-- The blocks `command` validate. -/
def CommandsPass (env : ReloadEnv) (head : Head) : Prop :=
  ∀ command ∈ head.block.getBlocks env.casemap (ascii "command"),
    validateCommand env.casemap command = .ok ()

/-- The blocks `fantasy` validate. -/
def FantasyPass (env : ReloadEnv) (head : Head) : Prop :=
  ∀ fantasy ∈ head.block.getBlocks env.casemap (ascii "fantasy"),
    validateFantasy env.casemap fantasy = .ok ()

/-- The blocks `service` ahead of the first that does not validate. -/
def passedServices (env : ReloadEnv) (head : Head) : List Block :=
  passed (validateService env.casemap head.settings.servername)
    (head.block.getBlocks env.casemap (ascii "service"))

/-- The blocks `command` ahead of the first that does not validate. -/
def passedCommands (env : ReloadEnv) (head : Head) : List Block :=
  passed (validateCommand env.casemap) (head.block.getBlocks env.casemap (ascii "command"))

/-! ## How the constructor ends -/

/-- The tables when the loop over the blocks `service` ends or stops. -/
def World.behindServices (env : ReloadEnv) (head : Head) (world : World) : World :=
  world.afterServices env.casemap head.settings.servername (passedServices env head)

/-- The tables when the loop over the blocks `command` ends or stops. -/
def World.behindCommands (env : ReloadEnv) (head : Head) (world : World) : World :=
  (world.behindServices env head).afterCommands env.casemap head.block (passedCommands env head)

/-- The tables when the privileges have been read. -/
def World.behindPrivileges (env : ReloadEnv) (head : Head) (world : World) : World :=
  { world.behindCommands env head with
    privileges := declaredPrivileges env.casemap head.block }

theorem loadServices_of_pass (pass : ServicesPass env head) :
    ∃ logInfos, loadServices env head world = .ok logInfos (world.behindServices env head) := by
  refine ⟨(head.block.getBlocks env.casemap (ascii "log")).map
    (readLog env.casemap (world.behindServices env head)), ?_⟩
  refine (modify_bind _ _ _).trans ?_
  refine (bind_of_ok (forM_of_ok pass _) _).trans ?_
  rw [World.behindServices, passedServices, passed_eq_self pass]
  rfl

theorem loadServices_of_not_pass (fails : ¬ServicesPass env head) :
    ∃ exception, loadServices env head world =
      .error exception (world.behindServices env head) := by
  rcases forM_of_not_all _ fails world.clearConf with ⟨exception, stops⟩
  refine ⟨exception, ?_⟩
  refine (modify_bind _ _ _).trans ?_
  exact bind_of_error stops _

theorem loadCommands_of_pass (pass : CommandsPass env head) :
    loadCommands env head (world.behindServices env head) =
      .ok () (world.behindPrivileges env head) := by
  refine (modify_bind _ _ _).trans ?_
  refine (bind_of_ok (forM_of_ok pass _) _).trans ?_
  rw [World.behindPrivileges, World.behindCommands, passedCommands, passed_eq_self pass]
  rfl

theorem loadCommands_of_not_pass (fails : ¬CommandsPass env head) :
    ∃ exception, loadCommands env head (world.behindServices env head) =
      .error exception (world.behindCommands env head) := by
  rcases forM_of_not_all _ fails (world.behindServices env head).clearCommands with
    ⟨exception, stops⟩
  refine ⟨exception, ?_⟩
  refine (modify_bind _ _ _).trans ?_
  exact bind_of_error stops _

theorem loadFantasy_of_pass (pass : FantasyPass env head) :
    ∃ fantasy, loadFantasy env head world = .ok fantasy world := by
  refine ⟨readFantasy env.casemap (head.block.getBlocks env.casemap (ascii "fantasy")), ?_⟩
  refine (bind_of_ok (forM_of_ok pass _) _).trans ?_
  rw [List.foldl_fixed]
  rfl

theorem loadFantasy_of_not_pass (fails : ¬FantasyPass env head) :
    ∃ exception, loadFantasy env head world = .error exception world := by
  rcases forM_of_not_all (fun _ world => world) fails world with ⟨exception, stops⟩
  rw [List.foldl_fixed] at stops
  exact ⟨exception, bind_of_error stops _⟩

theorem construct_of_head_error {exception : ConfigException}
    (stops : readHead env reading world = .error exception) :
    construct env reading world = .error exception world := by
  refine (get_bind _ _).trans ?_
  exact bind_of_error (attempt_error stops world) _

section Goes

variable (goes : readHead env reading world = .ok head)

include goes

theorem construct_of_services_fail (fails : ¬ServicesPass env head) :
    ∃ exception, construct env reading world =
      .error exception (world.behindServices env head) := by
  rcases loadServices_of_not_pass fails with ⟨exception, stops⟩
  refine ⟨exception, (get_bind _ _).trans ?_⟩
  refine (bind_of_ok (attempt_ok goes world) _).trans ?_
  exact bind_of_error stops _

theorem construct_of_commands_fail (services : ServicesPass env head)
    (fails : ¬CommandsPass env head) :
    ∃ exception, construct env reading world =
      .error exception (world.behindCommands env head) := by
  rcases loadServices_of_pass services with ⟨logInfos, loaded⟩
  rcases loadCommands_of_not_pass fails with ⟨exception, stops⟩
  refine ⟨exception, (get_bind _ _).trans ?_⟩
  refine (bind_of_ok (attempt_ok goes world) _).trans ?_
  refine (bind_of_ok loaded _).trans ?_
  exact bind_of_error stops _

theorem construct_of_fantasy_fail (services : ServicesPass env head)
    (commands : CommandsPass env head) (fails : ¬FantasyPass env head) :
    ∃ exception, construct env reading world =
      .error exception (world.behindPrivileges env head) := by
  rcases loadServices_of_pass services with ⟨logInfos, loaded⟩
  rcases loadFantasy_of_not_pass fails with ⟨exception, stops⟩
  refine ⟨exception, (get_bind _ _).trans ?_⟩
  refine (bind_of_ok (attempt_ok goes world) _).trans ?_
  refine (bind_of_ok loaded _).trans ?_
  refine (bind_of_ok (loadCommands_of_pass commands) _).trans ?_
  exact bind_of_error stops _

/-- Where all blocks validate, nothing throws. -/
theorem construct_of_pass (services : ServicesPass env head) (commands : CommandsPass env head)
    (fantasy : FantasyPass env head) :
    ∃ conf, construct env reading world =
      .ok conf ((world.behindPrivileges env head).tieOpers env.casemap head.opers) := by
  rcases loadServices_of_pass services with ⟨logInfos, loaded⟩
  rcases loadFantasy_of_pass fantasy with ⟨linked, read⟩
  refine ⟨⟨head, logInfos, linked, (head.block.getBlocks env.casemap (ascii "command_group")).map
    (readCommandGroup env.casemap), chooseCasemap env head.block⟩, (get_bind _ _).trans ?_⟩
  refine (bind_of_ok (attempt_ok goes world) _).trans ?_
  refine (bind_of_ok loaded _).trans ?_
  refine (bind_of_ok (loadCommands_of_pass commands) _).trans ?_
  exact (bind_of_ok read _).trans rfl

end Goes

/-! ## When nothing has changed -/

theorem tables_behindServices_iff :
    (world.behindServices env head).tables = world.tables ↔
      ServicesAgree env.casemap (passedServices env head) world := by
  have bots := bots_eq_iff head.settings.servername (passedServices env head) world env.casemap
    fun _ commands => commands
  rw [World.tables_eq_iff]
  constructor
  · rintro ⟨same, _, _⟩
    exact (bots.mp same).1
  · intro agree
    refine ⟨bots.mpr ⟨agree, fun _ _ _ => rfl⟩, ?_⟩
    rw [World.behindServices, afterServices_eq]
    exact ⟨rfl, rfl⟩

theorem privileges_behindCommands :
    (world.behindCommands env head).privileges = world.privileges := by
  rw [World.behindCommands, afterCommands_eq, World.behindServices, afterServices_eq]

variable (env head world) in
/-- The tables behind the commands, with any privileges. -/
theorem tables_behindCommands_iff (privileges : List Privilege) :
    ({ world.behindCommands env head with privileges := privileges } : World).tables =
        world.tables ↔
      ServicesAgree env.casemap (passedServices env head) world ∧
        CommandsAgree env.casemap head.block (passedCommands env head) world ∧
        privileges = world.privileges := by
  have bots := bots_eq_iff head.settings.servername (passedServices env head) world env.casemap
    fun key _ =>
      linkedBy env.casemap
        (itemsAt (clientKey env.casemap head.block) key (passedCommands env head))
  have opers : (world.behindCommands env head).opers = world.opers := by
    rw [World.behindCommands, afterCommands_eq, World.behindServices, afterServices_eq]
  rw [World.tables_eq_iff]
  change (∀ key, ((world.behindCommands env head).bots key).map Bot.tables = _) ∧ _ ∧
    (world.behindCommands env head).opers = _ ↔ _
  rw [and_iff_left opers, ← and_assoc]
  refine and_congr_left fun _ => ?_
  rw [World.behindCommands, World.behindServices]
  simp only [bots_afterCommands]
  refine bots.trans (and_congr_right fun _ => ?_)
  exact forall₃_congr fun _ _ _ => eq_comm

/-- An exception of the constructor leaves the tables as they were. -/
def FailsClean (env : ReloadEnv) (reading : Except ConfigException Block) (world : World) : Prop :=
  ∀ exception after, construct env reading world = .error exception after →
    after.tables = world.tables

theorem failsClean_of_error {exception : ConfigException} {after : World}
    (stops : construct env reading world = .error exception after) :
    FailsClean env reading world ↔ after.tables = world.tables := by
  constructor
  · exact fun clean => clean exception after stops
  · intro same other behind is
    rw [stops] at is
    cases is
    exact same

/-- The running tables are already those that the blocks ahead of the first that does not
validate ask for. -/
structure AsAsked (env : ReloadEnv) (head : Head) (world : World) : Prop where
  services : ServicesAgree env.casemap (passedServices env head) world
  /-- The commands are reached when all blocks `service` validate. -/
  commands : ServicesPass env head →
    CommandsAgree env.casemap head.block (passedCommands env head) world
  /-- The privileges are reached when all blocks `command` validate as well. -/
  privileges : ServicesPass env head → CommandsPass env head →
    declaredPrivileges env.casemap head.block = world.privileges

/-- The three places behind the first change where the constructor stops, and the end. -/
theorem failsClean_of_head_iff (goes : readHead env reading world = .ok head) :
    FailsClean env reading world ↔
      ServicesPass env head ∧ CommandsPass env head ∧ FantasyPass env head ∨
        AsAsked env head world := by
  by_cases services : ServicesPass env head
  swap
  · rcases construct_of_services_fail goes services with ⟨exception, stops⟩
    rw [or_iff_right fun pass => services pass.1, failsClean_of_error stops,
      tables_behindServices_iff]
    constructor
    · exact fun agree => ⟨agree, fun pass => absurd pass services, fun pass => absurd pass services⟩
    · exact AsAsked.services
  by_cases commands : CommandsPass env head
  swap
  · rcases construct_of_commands_fail goes services commands with ⟨exception, stops⟩
    have behind := tables_behindCommands_iff env world head
      (world.behindCommands env head).privileges
    rw [or_iff_right fun pass => commands pass.2.1, failsClean_of_error stops]
    refine behind.trans ?_
    constructor
    · rintro ⟨agree, linked, _⟩
      exact ⟨agree, fun _ => linked, fun _ pass => absurd pass commands⟩
    · intro asked
      exact ⟨asked.services, asked.commands services, privileges_behindCommands⟩
  by_cases fantasy : FantasyPass env head
  swap
  · rcases construct_of_fantasy_fail goes services commands fantasy with ⟨exception, stops⟩
    rw [or_iff_right fun pass => fantasy pass.2.2, failsClean_of_error stops]
    refine (tables_behindCommands_iff _ _ _ _).trans ?_
    constructor
    · rintro ⟨agree, linked, same⟩
      exact ⟨agree, fun _ => linked, fun _ _ => same⟩
    · intro asked
      exact ⟨asked.services, asked.commands services, asked.privileges services commands⟩
  · rcases construct_of_pass goes services commands fantasy with ⟨conf, ends⟩
    refine iff_of_true (fun exception after stops => ?_) (Or.inl ⟨services, commands, fantasy⟩)
    rw [ends] at stops
    cases stops

/-- A failed reload changes nothing exactly when the checks ahead of the first change fail, or
when the blocks that have had an effect ask for what there already is. -/
theorem failsClean_iff :
    FailsClean env reading world ↔
      ∀ head, readHead env reading world = .ok head →
        ServicesPass env head ∧ CommandsPass env head ∧ FantasyPass env head ∨
          AsAsked env head world := by
  cases goes : readHead env reading world with
  | error exception =>
      refine iff_of_true ?_ fun head isOk => by cases isOk
      rw [failsClean_of_error (construct_of_head_error goes)]
  | ok head =>
      rw [failsClean_of_head_iff goes]
      constructor
      · exact fun condition other is => Except.ok.inj is ▸ condition
      · exact fun condition => condition head rfl

end

/-! ### A command without its name -/

/-- The text of a configuration with one bot and one command, whose last line is given. -/
def oneCommandText (command : Str) : List Str :=
  [ascii "serverinfo \x7b name = \"services.net\"; description = \"d\"",
    ascii "pid = \"p\"; motd = \"m\" \x7d",
    ascii "options \x7b readtimeout = \"5\" \x7d",
    ascii "service \x7b nick = \"ChanServ\" \x7d",
    command]

/-- The command is linked under its name. -/
def namedCommand : Str :=
  ascii "command \x7b service = \"ChanServ\"; name = \"HELP\"; command = \"generic/help\" \x7d"

/-- The name is forgotten. -/
def namelessCommand : Str :=
  ascii "command \x7b service = \"ChanServ\"; command = \"generic/help\" \x7d"

/-- One file, and no modules. -/
def oneFileEnv (lines : List Str) : ReloadEnv where
  casemap := .ascii
  getenv := fun _ => none
  files := fun _ _ => some lines
  onReload := fun _ conf => .ok conf
  locale := fun _ => none

/-- Services that have not loaded a configuration. -/
def noWorld : World where
  config := none
  bots := fun _ => none
  privileges := []
  aliases := fun _ => none
  opers := fun _ => none

/-- What a load makes of services, when it goes well. -/
def loaded (lines : List Str) (world : World) : World :=
  match reload (oneFileEnv lines) 1 world with
  | some (.ok conf after) => { after with config := some conf.head.block }
  | _ => world

/-- Services with the command under its name. -/
def oneCommandWorld : World :=
  loaded (oneCommandText namedCommand) noWorld

/-- Whether a bot has a command. -/
def hasCommand (world : World) (nick name : Str) : Bool :=
  (world.tables.bots (Casemap.ascii.ciStr nick)).any fun bot =>
    (bot.commands (Casemap.ascii.ciStr name)).isSome

/-- The exception for the missing name comes when the commands have been cleared. -/
theorem not_failsClean_namelessCommand :
    ∃ reading, readFiles (oneFileEnv (oneCommandText namelessCommand)) 1 = some reading ∧
      ¬FailsClean (oneFileEnv (oneCommandText namelessCommand)) reading oneCommandWorld := by
  -- Both are evaluated at once, since the second load starts with what the first one makes.
  have both : hasCommand oneCommandWorld (ascii "ChanServ") (ascii "HELP") = true ∧
      ((reload (oneFileEnv (oneCommandText namelessCommand)) 1 oneCommandWorld).any
        fun result => match result with
          | .ok _ _ => false
          | .error _ after => !hasCommand after (ascii "ChanServ") (ascii "HELP")) = true := by
    decide +kernel
  obtain ⟨before, after⟩ := both
  rw [reload] at after
  cases read : readFiles (oneFileEnv (oneCommandText namelessCommand)) 1 with
  | none =>
      rw [read] at after
      cases after
  | some reading =>
      refine ⟨reading, rfl, fun clean => ?_⟩
      rw [read, Option.map_some, Option.any_some] at after
      cases ends : construct (oneFileEnv (oneCommandText namelessCommand)) reading
          oneCommandWorld with
      | ok conf world =>
          rw [ends] at after
          cases after
      | error exception world =>
          rw [ends] at after
          have lost := Bool.not_eq_true' _ ▸ after
          rw [hasCommand, clean exception world ends, ← hasCommand, before] at lost
          cases lost

end Anope.Config
