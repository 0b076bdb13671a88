import Anope.Config.Reload
import Anope.Library.Routed

/-!
# What a failed reload leaves behind

The bots, the privileges and the operators after the blocks that the constructor went
through before it threw, and when they are those from before the reload.
-/

namespace Anope.Config

open Anope.Text Library.Attempt Library.Routed

/-! ## The tables -/

/-- The flag, the channels and the commands of a bot. -/
structure BotTables where
  conf : Bool
  botchannels : List Str
  chans : Str → Bool
  commands : CommandMap

/-- What a reload works on. -/
structure Tables where
  bots : Str → Option BotTables
  privileges : List Privilege
  opers : Str → Option OperRef

def Bot.tables (bot : Bot) : BotTables :=
  ⟨bot.conf, bot.botchannels, bot.chans, bot.commands⟩

def World.tables (world : World) : Tables where
  bots := fun key => (world.bots key).map Bot.tables
  privileges := world.privileges
  opers := world.opers

theorem World.tables_eq_iff {world other : World} :
    world.tables = other.tables ↔
      (∀ key, (world.bots key).map Bot.tables = (other.bots key).map Bot.tables) ∧
        world.privileges = other.privileges ∧ world.opers = other.opers := by
  rw [World.tables, World.tables, Tables.mk.injEq, funext_iff]

/-! ## The channels of a bot -/

section Channels

variable {casemap : Casemap} {tokens : List Str} {chans : Str → Bool} {place : Str}

/-- The folded names of the channels of a list. -/
def places (casemap : Casemap) (tokens : List Str) : List Str :=
  tokens.map fun token => casemap.ciStr (channelName token)

theorem joinAll_eq_true_iff :
    joinAll casemap chans tokens place = true ↔
      place ∈ places casemap tokens ∨ chans place = true := by
  induction tokens generalizing chans with
  | nil => exact (or_iff_right List.not_mem_nil).symm
  | cons token tokens ih =>
      change joinAll casemap (Function.update chans _ true) tokens place = true ↔ _
      rw [ih, places, places, List.map_cons, List.mem_cons]
      by_cases same : place = casemap.ciStr (channelName token)
      · rw [same, Function.update_self]
        exact iff_of_true (Or.inr rfl) (Or.inl (Or.inl rfl))
      · rw [Function.update_of_ne same]
        exact or_congr_left (or_iff_right same).symm

theorem any_found_iff {botchannels : List Str} {chname : Str} :
    (botchannels.any fun botchannel => casemap.equalsCi chname (channelName botchannel)) = true ↔
      casemap.ciStr chname ∈ places casemap botchannels := by
  rw [List.any_eq_true, places, List.mem_map]
  apply exists_congr
  intro botchannel
  rw [Casemap.equalsCi_iff]
  exact and_congr_right fun _ => eq_comm

theorem partOld_eq_true_iff {botchannels : List Str} :
    partOld casemap botchannels chans tokens place = true ↔
      chans place = true ∧
        (place ∈ places casemap tokens → place ∈ places casemap botchannels) := by
  induction tokens generalizing chans with
  | nil => exact (and_iff_left fun mem => absurd mem List.not_mem_nil).symm
  | cons token tokens ih =>
      rw [partOld, List.foldl_cons]
      change partOld casemap botchannels (if _ then chans else _) tokens place = true ↔ _
      rw [ih, places, places, places, List.map_cons, List.mem_cons, ← places, ← places]
      by_cases found : casemap.ciStr (channelName token) ∈ places casemap botchannels
      · rw [if_pos (any_found_iff.mpr found)]
        apply and_congr_right
        intro _
        constructor
        · rintro kept (rfl | mem)
          · exact found
          · exact kept mem
        · exact fun kept mem => kept (Or.inr mem)
      · rw [if_neg fun any => found (any_found_iff.mp any)]
        by_cases same : place = casemap.ciStr (channelName token)
        · rw [same, Function.update_self]
          exact iff_of_false (fun both => Bool.false_ne_true both.1)
            fun both => found (both.2 (Or.inl rfl))
        · rw [Function.update_of_ne same, or_iff_right same]

/-- Afterwards the bot is in the channels of the new list, and it has left the others of the
old one. -/
theorem chans_configure {bot : Bot} {botalias channels : Str} :
    (bot.configure casemap botalias channels).chans place = true ↔
      place ∈ places casemap (commaTokens channels) ∨
        place ∉ places casemap bot.botchannels ∧ bot.chans place = true := by
  rw [Bot.configure, partOld_eq_true_iff, joinAll_eq_true_iff]
  by_cases listed : place ∈ places casemap (commaTokens channels)
  · exact iff_of_true ⟨Or.inl listed, fun _ => listed⟩ (Or.inl listed)
  · rw [or_iff_right listed, or_iff_right listed, and_comm]
    exact and_congr_left fun _ => imp_iff_not listed

end Channels

/-! ## The blocks `service` of a bot -/

section Services

variable {casemap : Casemap} {servername : Str} {bot : Bot} {services : List Block}

/-- `service:channels`. -/
def channelsOf (casemap : Casemap) (service : Block) : List Str :=
  commaTokens (service.get casemap (ascii "channels"))

/-- What a block makes of its bot. -/
def Bot.configureBy (casemap : Casemap) (service : Block) (bot : Bot) : Bot :=
  bot.configure casemap
    (service.getD casemap (ascii "alias")
      ((service.get casemap (ascii "nick")).map casemap.toupper))
    (service.get casemap (ascii "channels"))

/-- What the blocks of a bot make of it. -/
def Bot.configuredBy (casemap : Casemap) (services : List Block) (bot : Bot) : Bot :=
  services.foldl (fun bot service => bot.configureBy casemap service) bot

theorem configuredBy_concat (service : Block) :
    bot.configuredBy casemap (services ++ [service]) =
      (bot.configuredBy casemap services).configureBy casemap service := by
  rw [Bot.configuredBy, List.foldl_append]
  rfl

theorem foldl_serviceBot (services : List Block) (bot : Bot) :
    services.foldl (fun found service => serviceBot casemap servername service found) (some bot) =
      some (bot.configuredBy casemap services) := by
  induction services generalizing bot with
  | nil => rfl
  | cons service services ih => exact ih _

variable (casemap servername) in
/-- A bot that was not there is there after a block of its own. -/
theorem isSome_foldl_serviceBot (found : Option Bot) (some : services ≠ []) :
    (services.foldl (fun found service => serviceBot casemap servername service found)
      found).isSome = true := by
  cases services with
  | nil => exact absurd rfl some
  | cons service services =>
      rw [List.foldl_cons, serviceBot, foldl_serviceBot]
      rfl

theorem commands_configuredBy : (bot.configuredBy casemap services).commands = bot.commands := by
  induction services generalizing bot with
  | nil => rfl
  | cons service services ih => exact ih

theorem conf_configuredBy :
    (bot.configuredBy casemap services).conf = true ↔ bot.conf = true ∨ services ≠ [] := by
  induction services generalizing bot with
  | nil => exact (or_iff_left fun some => some rfl).symm
  | cons service services ih =>
      have set : (bot.configureBy casemap service).conf = true := rfl
      exact iff_of_true (ih.mpr (Or.inl set)) (Or.inr (List.cons_ne_nil service services))

/-- The last block counts. -/
theorem botchannels_configuredBy :
    (bot.configuredBy casemap services).botchannels =
      (services.getLast?.map (channelsOf casemap)).getD bot.botchannels := by
  induction services using List.reverseRecOn with
  | nil => rfl
  | append_singleton services service _ =>
      rw [configuredBy_concat, List.getLast?_concat]
      rfl

/-- A bot is in the channels of its last list, and it has left those of the lists before. -/
theorem chans_configuredBy {place : Str} :
    (bot.configuredBy casemap services).chans place = true ↔
      (∃ service, services.getLast? = some service ∧
          place ∈ places casemap (channelsOf casemap service)) ∨
        (services ≠ [] → place ∉ places casemap bot.botchannels) ∧
          (∀ service ∈ services, place ∉ places casemap (channelsOf casemap service)) ∧
          bot.chans place = true := by
  induction services using List.reverseRecOn with
  | nil =>
      constructor
      · intro isIn
        exact Or.inr ⟨fun some => absurd rfl some, fun _ mem => absurd mem List.not_mem_nil, isIn⟩
      · rintro (⟨_, is, _⟩ | ⟨_, _, isIn⟩)
        · cases is
        · exact isIn
  | append_singleton services last ih =>
      rw [configuredBy_concat, Bot.configureBy, chans_configure, List.getLast?_concat, ih,
        botchannels_configuredBy]
      by_cases listed : place ∈ places casemap (channelsOf casemap last)
      · exact iff_of_true (Or.inl listed) (Or.inl ⟨last, rfl, listed⟩)
      have notLast : ¬∃ service, some last = some service ∧
          place ∈ places casemap (channelsOf casemap service) := by
        rintro ⟨service, is, mem⟩
        exact listed (Option.some.inj is ▸ mem)
      rw [channelsOf] at listed
      rw [or_iff_right listed, or_iff_right notLast]
      rw [← channelsOf] at listed
      cases before : services.getLast? with
      | none =>
          rw [List.getLast?_eq_none_iff.mp before]
          simp [listed]
      | some service =>
          have mem := List.mem_of_getLast? before
          constructor
          · rintro ⟨left, ⟨other, is, there⟩ | ⟨never, lists, isIn⟩⟩
            · exact absurd (Option.some.inj is ▸ there) left
            · refine ⟨fun _ => never (List.ne_nil_of_mem mem), fun other memOther => ?_, isIn⟩
              rcases List.mem_append.mp memOther with inServices | isLast
              · exact lists other inServices
              · exact List.mem_singleton.mp isLast ▸ listed
          · rintro ⟨never, lists, isIn⟩
            have earlier : ∀ other ∈ services, place ∉ places casemap (channelsOf casemap other) :=
              fun other memOther => lists other (List.mem_append_left _ memOther)
            have nonempty : services ++ [last] ≠ [] := List.concat_ne_nil last services
            exact ⟨earlier service mem, Or.inr ⟨fun _ => never nonempty, earlier, isIn⟩⟩

/-- A bot is as these blocks, which are its own, have it. -/
structure PlacedBy (casemap : Casemap) (services : List Block) (bot : Bot) : Prop where
  /-- It is a bot of the configuration when there is a block. -/
  conf : bot.conf = true ↔ services ≠ []
  botchannels : ∀ service, services.getLast? = some service →
    bot.botchannels = channelsOf casemap service
  /-- Of the channels of all blocks it is in those of its list. -/
  chans : ∀ service ∈ services, ∀ place ∈ places casemap (channelsOf casemap service),
    (bot.chans place = true ↔ place ∈ places casemap bot.botchannels)

variable (bot) in
theorem chans_eq_iff
    (agree : ∀ service, services.getLast? = some service →
      bot.botchannels = channelsOf casemap service) :
    (bot.configuredBy casemap services).chans = bot.chans ↔
      ∀ service ∈ services, ∀ place ∈ places casemap (channelsOf casemap service),
        (bot.chans place = true ↔ place ∈ places casemap bot.botchannels) := by
  constructor
  · intro same service mem place listed
    rw [← same, chans_configuredBy]
    constructor
    · rintro (⟨last, is, there⟩ | ⟨_, never, _⟩)
      · exact agree last is ▸ there
      · exact absurd listed (never service mem)
    · intro own
      cases last : services.getLast? with
      | none => exact absurd (List.getLast?_eq_none_iff.mp last) (List.ne_nil_of_mem mem)
      | some final => exact Or.inl ⟨final, rfl, agree final last ▸ own⟩
  · intro inOwn
    funext place
    rw [Bool.eq_iff_iff, chans_configuredBy]
    constructor
    · rintro (⟨last, is, there⟩ | ⟨_, _, isIn⟩)
      · exact (inOwn last (List.mem_of_getLast? is) place there).mpr (agree last is ▸ there)
      · exact isIn
    · intro isIn
      by_cases listed : ∃ service ∈ services, place ∈ places casemap (channelsOf casemap service)
      · rcases listed with ⟨service, mem, there⟩
        have own := (inOwn service mem place there).mp isIn
        cases last : services.getLast? with
        | none => exact absurd (List.getLast?_eq_none_iff.mp last) (List.ne_nil_of_mem mem)
        | some final => exact Or.inl ⟨final, rfl, agree final last ▸ own⟩
      · refine Or.inr ⟨fun some own => ?_, ?_, isIn⟩
        swap
        · exact fun service mem there => listed ⟨service, mem, there⟩
        have final := List.getLast?_eq_some_getLast some
        exact listed ⟨_, List.mem_of_getLast? final, agree _ final ▸ own⟩

/-- The blocks leave a bot, with its flag cleared, as it was exactly when it is placed by
them. -/
theorem configuredBy_eq_iff :
    ((bot.clearConf.configuredBy casemap services).conf = bot.conf ∧
      (bot.clearConf.configuredBy casemap services).botchannels =
        bot.botchannels ∧
      (bot.clearConf.configuredBy casemap services).chans = bot.chans) ↔
      PlacedBy casemap services bot := by
  have sameConf : (bot.clearConf.configuredBy casemap services).conf =
      bot.conf ↔ (bot.conf = true ↔ services ≠ []) := by
    have cleared : bot.clearConf.conf ≠ true := Bool.false_ne_true
    rw [Bool.eq_iff_iff, conf_configuredBy, or_iff_right cleared]
    exact Iff.comm
  have sameList : (bot.clearConf.configuredBy casemap services).botchannels =
      bot.botchannels ↔ ∀ service, services.getLast? = some service →
        bot.botchannels = channelsOf casemap service := by
    rw [botchannels_configuredBy]
    cases services.getLast? with
    | none => exact iff_of_true rfl fun _ is => by cases is
    | some last =>
        constructor
        · rintro same service is
          exact Option.some.inj is ▸ same.symm
        · exact fun agree => (agree last rfl).symm
  rw [sameConf, sameList]
  constructor
  · rintro ⟨conf, agree, same⟩
    exact ⟨conf, agree, (chans_eq_iff bot.clearConf agree).mp same⟩
  · rintro ⟨conf, agree, inOwn⟩
    exact ⟨conf, agree, (chans_eq_iff bot.clearConf agree).mpr inOwn⟩

end Services

/-! ## The blocks `command` of a bot -/

section Commands

variable {casemap : Casemap} {blocks : List Block} {name : Str}

/-- The folded name of a block `command`. -/
def commandKey (casemap : Casemap) (command : Block) : Str :=
  casemap.ciStr (command.get casemap (ascii "name"))

/-- The commands that blocks link: the spelling of a name is that of its first block, the
command that of its last. -/
def linkedBy (casemap : Casemap) (blocks : List Block) : CommandMap := fun name =>
  let named := itemsAt (commandKey casemap) name blocks
  named.head?.bind fun first =>
    named.getLast?.map fun last =>
      (first.get casemap (ascii "name"), commandInfo casemap last)

/-- What a block does to the entry of its name. -/
def linkEntry (casemap : Casemap) (command : Block) (entry : Option (Str × CommandInfo)) :
    Option (Str × CommandInfo) :=
  some ((entry.map Prod.fst).getD (command.get casemap (ascii "name")), commandInfo casemap command)

/-- The entry that blocks of one name leave. -/
theorem foldl_linkEntry (named : List Block) :
    named.foldl (fun entry command => linkEntry casemap command entry) none =
      named.head?.bind fun first => named.getLast?.map fun last =>
        (first.get casemap (ascii "name"), commandInfo casemap last) := by
  induction named using List.reverseRecOn with
  | nil => rfl
  | append_singleton named last ih =>
      rw [List.foldl_append, List.foldl_cons, List.foldl_nil, ih, List.getLast?_concat]
      cases named with
      | nil => rfl
      | cons first rest =>
          cases final : (first :: rest).getLast? with
          | none => exact absurd (List.getLast?_eq_none_iff.mp final) (List.cons_ne_nil first rest)
          | some before => rfl

/-- The blocks of a bot link their commands into its empty table. -/
theorem commands_foldl_setCommand (bot : Bot) (none : bot.commands = fun _ => none) :
    (blocks.foldl (fun bot command => bot.setCommand casemap command) bot).commands =
      linkedBy casemap blocks := by
  have folded : ∀ bot : Bot,
      (blocks.foldl (fun bot command => bot.setCommand casemap command) bot).commands =
        route (commandKey casemap) (linkEntry casemap) blocks bot.commands := by
    induction blocks with
    | nil => exact fun _ => rfl
    | cons command blocks ih => exact fun bot => ih (bot.setCommand casemap command)
  funext name
  rw [folded, route_apply, none, foldl_linkEntry]
  rfl

/-- Only its commands are changed. -/
theorem tables_foldl_setCommand (bot : Bot) :
    blocks.foldl (fun bot command => bot.setCommand casemap command) bot =
      { bot with
        commands :=
          (blocks.foldl (fun bot command => bot.setCommand casemap command) bot).commands } := by
  induction blocks generalizing bot with
  | nil => rfl
  | cons command blocks ih => exact ih (bot.setCommand casemap command)

theorem foldl_map_setCommand (found : Option Bot) :
    blocks.foldl (fun found command => found.map (Bot.setCommand casemap command)) found =
      found.map fun bot =>
        blocks.foldl (fun bot command => bot.setCommand casemap command) bot := by
  induction blocks generalizing found with
  | nil => exact Option.map_id'.symm ▸ rfl
  | cons command blocks ih =>
      rw [List.foldl_cons, ih, Option.map_map]
      rfl

end Commands

/-! ## The tables after the blocks -/

section World

variable {env : ReloadEnv} {servername : Str} {conf : Block} {services commands : List Block}
  {world : World}

/-- The flags are cleared, and blocks `service` have had their effects. -/
def World.afterServices (casemap : Casemap) (servername : Str) (services : List Block)
    (world : World) : World :=
  services.foldl (fun world service => applyService casemap servername service world)
    world.clearConf

/-- The commands are cleared, and blocks `command` have had their effects. -/
def World.afterCommands (casemap : Casemap) (conf : Block) (commands : List Block)
    (world : World) : World :=
  commands.foldl (fun world command => applyCommand casemap conf command world)
    world.clearCommands

theorem bots_clearConf (key : Str) :
    world.clearConf.bots key = (world.bots key).map Bot.clearConf :=
  rfl

theorem bots_clearCommands (key : Str) :
    world.clearCommands.bots key = (world.bots key).map Bot.clearCommands :=
  rfl

theorem afterServices_eq (casemap : Casemap) :
    world.afterServices casemap servername services =
      { world with
        bots := route (nickKey casemap) (serviceBot casemap servername) services
          world.clearConf.bots } := by
  rw [World.afterServices, World.clearConf]
  generalize (fun key => (world.bots key).map Bot.clearConf) = bots
  induction services generalizing bots with
  | nil => rfl
  | cons service services ih => exact ih _

theorem afterCommands_eq (casemap : Casemap) :
    world.afterCommands casemap conf commands =
      { world with
        bots := route (clientKey casemap conf)
          (fun command found => found.map (Bot.setCommand casemap command)) commands
          world.clearCommands.bots } := by
  rw [World.afterCommands, World.clearCommands]
  generalize (fun key => (world.bots key).map Bot.clearCommands) = bots
  induction commands generalizing bots with
  | nil => rfl
  | cons command commands ih => exact ih _

/-- The running bots are those of these blocks `service`, placed by them. -/
structure ServicesAgree (casemap : Casemap) (services : List Block) (world : World) : Prop where
  /-- No block makes a new bot. -/
  running : ∀ service ∈ services, (world.bots (nickKey casemap service)).isSome = true
  placed : ∀ key bot, world.bots key = some bot →
    PlacedBy casemap (itemsAt (nickKey casemap) key services) bot

/-- The running bots have the commands of these blocks `command`. -/
def CommandsAgree (casemap : Casemap) (conf : Block) (commands : List Block) (world : World) :
    Prop :=
  ∀ key bot, world.bots key = some bot →
    bot.commands = linkedBy casemap (itemsAt (clientKey casemap conf) key commands)

theorem bots_afterServices_of_some {casemap : Casemap} {key : Str} {bot : Bot}
    (found : world.bots key = some bot) :
    (world.afterServices casemap servername services).bots key =
      some (bot.clearConf.configuredBy casemap
        (itemsAt (nickKey casemap) key services)) := by
  rw [afterServices_eq]
  change route _ _ _ _ key = _
  rw [route_apply, bots_clearConf, found]
  exact foldl_serviceBot _ _

theorem bots_afterServices_eq_none_iff {casemap : Casemap} {key : Str}
    (absent : world.bots key = none) :
    (world.afterServices casemap servername services).bots key = none ↔
      itemsAt (nickKey casemap) key services = [] := by
  rw [afterServices_eq]
  change route _ _ _ _ key = _ ↔ _
  rw [route_apply, bots_clearConf, absent, Option.map_none]
  constructor
  · intro isNone
    by_contra some
    have isSome := isSome_foldl_serviceBot casemap servername none some
    rw [isNone] at isSome
    cases isSome
  · intro isNil
    rw [isNil]
    rfl

theorem bots_afterCommands {casemap : Casemap} (key : Str) :
    ((world.afterCommands casemap conf commands).bots key).map Bot.tables =
      (world.bots key).map fun bot =>
        { bot.tables with
          commands := linkedBy casemap (itemsAt (clientKey casemap conf) key commands) } := by
  rw [afterCommands_eq]
  change Option.map _ (route _ _ _ _ key) = _
  rw [route_apply, bots_clearCommands, foldl_map_setCommand, Option.map_map, Option.map_map]
  refine congrArg (Option.map · _) (funext fun bot => ?_)
  change Bot.tables (List.foldl _ bot.clearCommands _) = _
  rw [tables_foldl_setCommand, commands_foldl_setCommand _ rfl]
  rfl

variable (world servername services) in
/-- Whatever the commands of the bots become, the bots are as before exactly when the blocks
`service` agree with them and their commands stay. -/
theorem bots_eq_iff (casemap : Casemap) (link : Str → CommandMap → CommandMap) :
    (∀ key, ((world.afterServices casemap servername services).bots key).map (fun bot =>
        { bot.tables with commands := link key bot.commands }) =
      (world.bots key).map Bot.tables) ↔
      ServicesAgree casemap services world ∧
        ∀ key bot, world.bots key = some bot → link key bot.commands = bot.commands := by
  constructor
  · intro same
    have running : ∀ service ∈ services, (world.bots (nickKey casemap service)).isSome = true := by
      intro service mem
      cases found : world.bots (nickKey casemap service) with
      | some bot => rfl
      | none =>
          have here := same (nickKey casemap service)
          rw [found, Option.map_none, Option.map_eq_none_iff,
            bots_afterServices_eq_none_iff found] at here
          exact absurd here (List.ne_nil_of_mem (mem_itemsAt_iff.mpr ⟨mem, rfl⟩))
    have each : ∀ key bot, world.bots key = some bot →
        PlacedBy casemap (itemsAt (nickKey casemap) key services) bot ∧
          link key bot.commands = bot.commands := by
      intro key bot found
      have here := same key
      rw [found, bots_afterServices_of_some found, Option.map_some, Option.map_some,
        Option.some.injEq, Bot.tables, Bot.tables, BotTables.mk.injEq,
        commands_configuredBy] at here
      exact ⟨configuredBy_eq_iff.mp ⟨here.1, here.2.1, here.2.2.1⟩, here.2.2.2⟩
    exact ⟨⟨running, fun key bot found => (each key bot found).1⟩,
      fun key bot found => (each key bot found).2⟩
  · rintro ⟨⟨running, placed⟩, kept⟩ key
    cases found : world.bots key with
    | none =>
        have empty : itemsAt (nickKey casemap) key services = [] := by
          apply List.eq_nil_iff_forall_not_mem.mpr
          intro service mem
          rcases mem_itemsAt_iff.mp mem with ⟨inServices, rfl⟩
          have isSome := running service inServices
          rw [found] at isSome
          cases isSome
        rw [(bots_afterServices_eq_none_iff found).mpr empty]
        rfl
    | some bot =>
        have ⟨conf, botchannels, chans⟩ := configuredBy_eq_iff.mpr (placed key bot found)
        rw [bots_afterServices_of_some found, Option.map_some, Option.map_some, Option.some.injEq,
          Bot.tables, Bot.tables, BotTables.mk.injEq, commands_configuredBy]
        exact ⟨conf, botchannels, chans, kept key bot found⟩

end World

end Anope.Config
