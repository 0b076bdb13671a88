import Anope.BotServ.Kickers
import Anope.Library.Run

/-!
# The AMSG kicker

The AMSG kicker compares the channel of a message with the one that the last line of the user went
to.  But the last line is remembered for each membership: it always went to the same channel, and
the kicker never acts.
-/

namespace Anope.BotServ

open Library.Run Anope.Text

variable {υ γ : Type} [DecidableEq υ] [DecidableEq γ]

/-! ## Runs -/

/-- What happens to users and channels. -/
inductive Action (υ γ : Type) where
  | privmsg (u : υ) (c : γ) (msg : Str)
  | join (u : υ) (c : γ) (status : List Str)
  /-- A part, or a kick by someone else. -/
  | leave (u : υ) (c : γ)
  | setStatus (u : υ) (c : γ) (status : List Str)
  /-- A new user in the place of another one. -/
  | setUser (u : υ) (user : User)
  | changeUser (u : υ) (user : User)
  | register (c : γ) (ci : ChannelInfo υ)
  | drop (c : γ)
  /-- The settings of a registered channel are changed. -/
  | configure (c : γ) (ci : ChannelInfo υ)
  | tick (seconds : Nat)
  /-- `BanDataPurger::Tick`, given `keepdata`; the time of the last use is never set. -/
  | purge (keepdata : Int)

/-- The state after a message, which the user sent last. -/
def State.afterPrivmsg (config : Config) (state : State υ γ) (u : υ) (c : γ) (msg : Str) :
    State υ γ :=
  { (onPrivmsg config state u c msg).state with
    last := Function.update state.last u (some (c, msg)) }

/-- A transition.  A channel is registered under its own name, in some case. -/
def step (config : Config) (chanName : γ → Str) (state : State υ γ) :
    Action υ γ → Option (State υ γ)
  | .privmsg u c msg => some (state.afterPrivmsg config u c msg)
  | .join u c status =>
      if (state.findUser u c).isNone then
        some { state with
          chans := Function.update state.chans u (state.chans u ++ [(c, ⟨status, none⟩)]) }
      else none
  | .leave u c => some (state.deleteUser u c)
  | .setStatus u c status =>
      some (state.updateMember u c fun memb => { memb with status := status })
  | .setUser u user =>
      some { state with
        users := Function.update state.users u user
        chans := Function.update state.chans u []
        last := Function.update state.last u none }
  | .changeUser u user => some { state with users := Function.update state.users u user }
  | .register c ci =>
      if (state.ci c).isNone ∧ config.casemap.equalsCi ci.name (chanName c) then
        some { state with ci := Function.update state.ci c (some ci) }
      else none
  | .drop c => some { state with ci := Function.update state.ci c none }
  | .configure c ci =>
      if (state.ci c).any fun old => old.name = ci.name then
        some { state with ci := Function.update state.ci c (some ci) }
      else none
  | .tick seconds => some { state with curTime := state.curTime + seconds }
  | .purge keepdata =>
      some (if state.curTime > keepdata then { state with bandata := fun _ _ _ => 0 } else state)

/-- Nobody is in a channel, and no channel is registered. -/
def initial (curTime : Int) (users : υ → User) : State υ γ where
  curTime := curTime
  users := users
  ci _ := none
  chans _ := []
  bandata _ _ _ := 0
  last _ := none

/-! ## Repeated messages -/

/-- A registered channel with the AMSG kicker, that does not protect a user. -/
def Watches (config : Config) (state : State υ γ) (u : υ) (c : γ) : Prop :=
  ∃ ci kd, state.ci c = some ci ∧ ci.kickerdata = some kd ∧ kd.amsgs = true ∧
    exempt config state u c ci kd = false

/-- An unprotected user sends to a channel what he has sent to another one just before. -/
def Repeats (config : Config) (state : State υ γ) : Action υ γ → Prop
  | .privmsg u c msg =>
      (state.users u).isProtected = false ∧ Watches config state u c ∧
        ∃ other before, state.last u = some (other, before) ∧ other ≠ c ∧
          Watches config state u other ∧ config.casemap.equalsCi before msg = true
  | _ => False

/-- The AMSG kicker acts. -/
def Fires (config : Config) (state : State υ γ) : Action υ γ → Prop
  | .privmsg u c msg => ∃ fired ∈ (onPrivmsg config state u c msg).fired, fired.ttb = .amsgs
  | _ => False

/-! ## What is remembered -/

/-- What is remembered about a membership was last changed for its channel. -/
def OwnTarget (casemap : Casemap) (chanName : γ → Str) (c : γ) (ud : UserData) : Prop :=
  ud.lasttarget = [] ∨ casemap.ciStr ud.lasttarget = casemap.ciStr (chanName c)

/-- Each channel is registered under its own name, and each membership remembers its own channel. -/
structure State.Sound (casemap : Casemap) (chanName : γ → Str) (state : State υ γ) : Prop where
  names : ∀ c ci, state.ci c = some ci → casemap.ciStr ci.name = casemap.ciStr (chanName c)
  targets : ∀ u, ∀ entry ∈ state.chans u, ∀ ud ∈ entry.2.userdata,
    OwnTarget casemap chanName entry.1 ud

section Sound

variable {casemap : Casemap} {config : Config} {chanName : γ → Str} {state : State υ γ} {u : υ}
  {c : γ} {kd : KickerData}

namespace State

omit [DecidableEq υ] [DecidableEq γ] in
theorem sound_initial (curTime : Int) (users : υ → User) :
    (initial curTime users : State υ γ).Sound casemap chanName where
  names _ _ found := by cases found
  targets _ _ mem := by cases mem

omit [DecidableEq γ] in
/-- The channels of a user are changed. -/
theorem Sound.setChans (sound : state.Sound casemap chanName) {chans : List (γ × Member)}
    (targets : ∀ entry ∈ chans, ∀ ud ∈ entry.2.userdata, OwnTarget casemap chanName entry.1 ud) :
    { state with chans := Function.update state.chans u chans }.Sound casemap chanName where
  names := sound.names
  targets other entry mem := by
    change entry ∈ Function.update state.chans u chans other at mem
    by_cases same : other = u
    · subst same
      rw [Function.update_self] at mem
      exact targets entry mem
    · rw [Function.update_of_ne same] at mem
      exact sound.targets other entry mem

theorem Sound.deleteUser (sound : state.Sound casemap chanName) (u : υ) (c : γ) :
    (state.deleteUser u c).Sound casemap chanName :=
  sound.setChans fun entry mem => sound.targets u entry (List.mem_of_mem_filter mem)

/-- A change of memberships in a channel. -/
theorem Sound.updateMember (sound : state.Sound casemap chanName) {change : Member → Member}
    (keeps : ∀ memb, ∀ ud ∈ (change memb).userdata,
      ud ∈ memb.userdata ∨ OwnTarget casemap chanName c ud) :
    (state.updateMember u c change).Sound casemap chanName := by
  apply sound.setChans
  intro entry mem ud isData
  obtain ⟨old, isOld, rfl⟩ := List.mem_map.mp mem
  by_cases same : old.1 = c
  · rw [if_pos same] at isData ⊢
    rcases keeps old.2 ud isData with kept | own
    · exact sound.targets u old isOld ud kept
    · rwa [same]
  · rw [if_neg same] at isData ⊢
    exact sound.targets u old isOld ud isData

theorem Sound.setUserData (sound : state.Sound casemap chanName) {ud : UserData}
    (own : OwnTarget casemap chanName c ud) : (state.setUserData u c ud).Sound casemap chanName := by
  apply sound.updateMember
  intro memb other isData
  cases isData
  exact .inr own

omit [DecidableEq υ] in
theorem Sound.checkBan (sound : state.Sound casemap chanName) (ttbtype : Ttb) :
    (state.checkBan config u c kd ttbtype).2.Sound casemap chanName := by
  rw [State.checkBan]
  split
  · exact sound
  · dsimp only
    split
    · exact ⟨sound.names, sound.targets⟩
    · exact ⟨sound.names, sound.targets⟩

theorem Sound.botKick (sound : state.Sound casemap chanName) (u : υ) (c : γ) :
    (state.botKick u c).2.Sound casemap chanName := by
  rw [State.botKick]
  split
  · exact sound
  · split
    · exact sound
    · exact sound.deleteUser u c

theorem Sound.fire {out : Outcome υ γ} (sound : out.state.Sound casemap chanName)
    (verdict : Ttb × Str) : (out.fire config u c kd verdict).state.Sound casemap chanName :=
  (sound.checkBan verdict.1).botKick u c

end State

/-! ## What a message leads to -/

/-- A kicker that does not look at several channels. -/
def Verdict.Local (verdict : Verdict) : Prop :=
  ∀ acts ∈ verdict, acts.1 ≠ Ttb.amsgs

theorem Verdict.Local.orElse {first second : Verdict} (firstLocal : first.Local)
    (secondLocal : second.Local) : Verdict.Local (first <|> second) := by
  cases first with
  | none => exact secondLocal
  | some verdict => exact firstLocal

theorem local_chrKicker {ttb : Ttb} (other : ttb ≠ .amsgs) (enabled : Bool) (chr : UInt8)
    (reason : String) (realbuf : Str) :
    (chrKicker enabled chr ttb reason realbuf).Local := by
  rw [chrKicker]
  split
  · rintro _ ⟨⟩
    exact other
  · rintro _ ⟨⟩

theorem local_capsKicker (kd : KickerData) (realbuf : Str) : (capsKicker kd realbuf).Local := by
  rw [capsKicker]
  split
  · dsimp only
    split
    · rintro _ ⟨⟩
      exact Ttb.noConfusion
    · rintro _ ⟨⟩
  · rintro _ ⟨⟩

theorem local_wordsKicker (kd : KickerData) (realbuf : Str) (config : Config)
    (badwords : Option (List BadWord)) : (wordsKicker kd realbuf config badwords).Local := by
  rw [wordsKicker]
  split
  · intro verdict acts
    obtain ⟨bw, _, rfl⟩ := Option.map_eq_some_iff.mp acts
    exact Ttb.noConfusion
  · rintro _ ⟨⟩

theorem local_textKicker (kd : KickerData) (realbuf : Str) (config : Config)
    (badwords : Option (List BadWord)) : (textKicker kd realbuf config badwords).Local := by
  have chr {ttb : Ttb} (other : ttb ≠ .amsgs) (enabled : Bool) (chr : UInt8) (reason : String) :=
    local_chrKicker other enabled chr reason realbuf
  apply (chr (by decide) _ _ _).orElse
  apply (chr (by decide) _ _ _).orElse
  apply (chr (by decide) _ _ _).orElse
  apply (chr (by decide) _ _ _).orElse
  apply (chr (by decide) _ _ _).orElse
  apply (local_capsKicker kd realbuf).orElse
  exact local_wordsKicker kd realbuf config badwords

theorem UserData.lasttarget_countLine (curTime : Int) (kd : KickerData) (ud : UserData) :
    (ud.countLine curTime kd).lasttarget = ud.lasttarget := by
  rw [UserData.countLine]
  split
  · rfl
  · rfl

theorem UserData.lasttarget_countRepeat (casemap : Casemap) (realbuf : Str) (ud : UserData) :
    (ud.countRepeat casemap realbuf).lasttarget = ud.lasttarget := by
  rw [UserData.countRepeat]
  split
  · rfl
  · rfl

/-- No kicker acts that looks at several channels, and the state stays sound. -/
structure Outcome.Own (casemap : Casemap) (chanName : γ → Str) (out : Outcome υ γ) : Prop where
  sound : out.state.Sound casemap chanName
  fired : ∀ fired ∈ out.fired, fired.ttb ≠ .amsgs

theorem Outcome.Own.fire {out : Outcome υ γ} (own : out.Own casemap chanName)
    {verdict : Ttb × Str} (other : verdict.1 ≠ .amsgs) :
    (out.fire config u c kd verdict).Own casemap chanName where
  sound := own.sound.fire verdict
  fired fired mem := by
    rcases List.mem_append.mp mem with old | new
    · exact own.fired fired old
    · rw [List.mem_singleton] at new
      subst new
      exact other

omit [DecidableEq υ] in
theorem own_findUser (sound : state.Sound casemap chanName) {memb : Member}
    (found : state.findUser u c = some memb) :
    OwnTarget casemap chanName c (memb.userdata.getD (.new state.curTime)) := by
  obtain ⟨entry, isFound, rfl⟩ := Option.map_eq_some_iff.mp found
  have isChannel : entry.1 = c := by simpa using List.find?_some isFound
  cases data : entry.2.userdata with
  | none => exact .inl rfl
  | some ud =>
      have own := sound.targets u entry (List.mem_of_find?_eq_some isFound) ud data
      rwa [isChannel] at own

theorem own_memoryKickers (sound : state.Sound config.casemap chanName) {ci : ChannelInfo υ}
    {realbuf : Str} {memb : Member} (isCi : state.ci c = some ci)
    (found : state.findUser u c = some memb) :
    (memoryKickers config state u c ci kd realbuf memb).Own config.casemap chanName := by
  have stored {ud : UserData} (own : OwnTarget config.casemap chanName c ud) :
      (Outcome.mk (state.setUserData u c ud) []).Own config.casemap chanName :=
    ⟨sound.setUserData own, fun _ mem => by cases mem⟩
  rw [memoryKickers]
  dsimp only
  have own := own_findUser sound found
  generalize memb.userdata.getD (.new state.curTime) = ud at own ⊢
  have own : OwnTarget config.casemap chanName c
      (if kd.flood then ud.countLine state.curTime kd else ud) := by
    split
    · rwa [OwnTarget, UserData.lasttarget_countLine]
    · exact own
  generalize (if kd.flood then ud.countLine state.curTime kd else ud) = ud at own ⊢
  split
  · exact (stored own).fire Ttb.noConfusion
  · have own : OwnTarget config.casemap chanName c
        (if kd.repeats then ud.countRepeat config.casemap realbuf else ud) := by
      split
      · rwa [OwnTarget, UserData.lasttarget_countRepeat]
      · exact own
    generalize (if kd.repeats then ud.countRepeat config.casemap realbuf else ud) = ud at own ⊢
    split
    · exact (stored own).fire Ttb.noConfusion
    · -- the last target is the channel itself
      have isName := sound.names c ci isCi
      have sameTarget : ¬(config.casemap.equalsCi ud.lastline realbuf = true ∧ ud.lasttarget ≠ [] ∧
          (!config.casemap.equalsCi ud.lasttarget ci.name) = true) := by
        rintro ⟨_, some, differs⟩
        rcases own with none | isTarget
        · exact some none
        · rw [Bool.not_eq_true', Bool.eq_false_iff] at differs
          exact differs ((Casemap.equalsCi_iff _ _ _).mpr (isTarget.trans isName.symm))
      rw [if_neg sameTarget]
      exact ⟨(stored own).sound.setUserData (.inr isName), (stored own).fired⟩

/-- What a message leads to. -/
theorem own_onPrivmsg (sound : state.Sound config.casemap chanName) (u : υ) (c : γ) (msg : Str) :
    (onPrivmsg config state u c msg).Own config.casemap chanName := by
  have nothing : (Outcome.mk state []).Own config.casemap chanName :=
    ⟨sound, fun _ mem => by cases mem⟩
  rw [onPrivmsg]
  split
  · exact nothing
  next ci isCi =>
    split
    · exact nothing
    next kd isKd =>
      dsimp only
      split
      · exact nothing
      · split
        next verdict acts => exact nothing.fire (local_textKicker _ _ _ _ _ acts)
        · split
          · exact nothing
          next memb found => exact own_memoryKickers sound isCi found

/-! ## Every run -/

omit [DecidableEq υ] in
/-- A registration is changed to one with the name of the channel. -/
theorem State.Sound.setCi (sound : state.Sound casemap chanName) {ci : Option (ChannelInfo υ)}
    (named : ∀ info ∈ ci, casemap.ciStr info.name = casemap.ciStr (chanName c)) :
    { state with ci := Function.update state.ci c ci }.Sound casemap chanName where
  names other info found := by
    change Function.update state.ci c ci other = some info at found
    by_cases same : other = c
    · subst same
      rw [Function.update_self] at found
      exact named info found
    · rw [Function.update_of_ne same] at found
      exact sound.names other info found
  targets := sound.targets

theorem State.Sound.step {next : State υ γ} (sound : state.Sound config.casemap chanName)
    {action : Action υ γ} (stepped : step config chanName state action = some next) :
    next.Sound config.casemap chanName := by
  cases action with
  | privmsg u c msg =>
      cases stepped
      have own := own_onPrivmsg sound u c msg
      exact ⟨own.sound.names, own.sound.targets⟩
  | join u c status =>
      rw [BotServ.step] at stepped
      split at stepped
      · cases stepped
        apply sound.setChans
        intro entry mem ud isData
        rcases List.mem_append.mp mem with old | new
        · exact sound.targets u entry old ud isData
        · rw [List.mem_singleton] at new
          subst new
          cases isData
      · cases stepped
  | leave u c =>
      cases stepped
      exact sound.deleteUser u c
  | setStatus u c status =>
      cases stepped
      exact sound.updateMember fun memb ud isData => .inl isData
  | setUser u user =>
      cases stepped
      have gone : { state with chans := Function.update state.chans u [] }.Sound _ chanName :=
        sound.setChans fun _ mem => by cases mem
      exact ⟨gone.names, gone.targets⟩
  | changeUser u user =>
      cases stepped
      exact ⟨sound.names, sound.targets⟩
  | register c ci =>
      rw [BotServ.step] at stepped
      split at stepped
      next free =>
        cases stepped
        apply sound.setCi
        rintro _ ⟨⟩
        exact (Casemap.equalsCi_iff _ _ _).mp free.2
      · cases stepped
  | drop c =>
      cases stepped
      exact sound.setCi fun _ none => by cases none
  | configure c ci =>
      rw [BotServ.step] at stepped
      split at stepped
      next named =>
        cases stepped
        obtain ⟨old, isOld, same⟩ := (Option.any_eq_true _ _).mp named
        apply sound.setCi
        rintro _ ⟨⟩
        rw [← of_decide_eq_true same]
        exact sound.names c old isOld
      · cases stepped
  | tick seconds =>
      cases stepped
      exact ⟨sound.names, sound.targets⟩
  | purge keepdata =>
      cases stepped
      split
      · exact ⟨sound.names, sound.targets⟩
      · exact sound

/-- The AMSG kicker does not act. -/
theorem State.Sound.not_fires (sound : state.Sound config.casemap chanName)
    (action : Action υ γ) : ¬Fires config state action := by
  cases action with
  | privmsg u c msg =>
      rintro ⟨fired, mem, isAmsg⟩
      exact (own_onPrivmsg sound u c msg).fired fired mem isAmsg
  | _ => exact id

end Sound

theorem repeats_fire_iff_of_sound {config : Config} {chanName : γ → Str} {state : State υ γ}
    (sound : state.Sound config.casemap chanName) (actions : List (Action υ γ)) :
    EachStep (step config chanName) (fun state action =>
        Repeats config state action → Fires config state action) state actions ↔
      EachStep (step config chanName) (fun state action => ¬Repeats config state action) state
        actions := by
  apply eachStep_congr_of_kept (fun state => state.Sound config.casemap chanName)
  · exact fun sound stepped => sound.step stepped
  · intro state sound action
    constructor
    · exact fun noticed repeats => sound.not_fires action (noticed repeats)
    · exact fun never repeats => absurd repeats never
  · exact sound

/-- The AMSG kicker acts on every message that repeats one to another channel exactly in the runs
that have no such message. -/
theorem repeats_fire_iff (config : Config) (chanName : γ → Str) (curTime : Int) (users : υ → User)
    (actions : List (Action υ γ)) :
    EachStep (step config chanName) (fun state action =>
        Repeats config state action → Fires config state action) (initial curTime users) actions ↔
      EachStep (step config chanName) (fun state action => ¬Repeats config state action)
        (initial curTime users) actions :=
  repeats_fire_iff_of_sound (State.sound_initial curTime users) actions

/-! ## A repeated message -/

def exampleConfig : Config where
  casemap := .ascii
  casesensitive := false
  gentlebadwordreason := false
  statusModes := []

def exampleName (c : Bool) : Str :=
  if c then ascii "#b" else ascii "#a"

/-- A channel with the AMSG kicker. -/
def amsgChannel (c : Bool) : ChannelInfo Unit where
  name := exampleName c
  bi := true
  kickerdata := some { KickerData.new with amsgs := true }
  badwords := none
  noKick _ := false

/-- Someone joins two channels with the AMSG kicker, and sends a message to one. -/
def beforeRepeat : List (Action Unit Bool) :=
  [.register false (amsgChannel false), .register true (amsgChannel true), .join () false [],
    .join () true [], .privmsg () false (ascii "hi")]

/-- The same message to the other one is not noticed. -/
theorem not_noticed_hi :
    ¬EachStep (step exampleConfig exampleName) (fun state action =>
        Repeats exampleConfig state action → Fires exampleConfig state action)
      (initial 0 fun _ => ⟨false, ascii "*!*@host"⟩)
      (beforeRepeat ++ [.privmsg () true (ascii "hi")]) := by
  rw [repeats_fire_iff_of_sound (State.sound_initial 0 _)]
  intro never
  have watches {state : State Unit Bool} (c : Bool) (isCi : state.ci c = some (amsgChannel c)) :
      Watches exampleConfig state () c := ⟨_, _, isCi, rfl, rfl, rfl⟩
  apply never.of_run rfl rfl
  exact ⟨rfl, watches true rfl, false, ascii "hi", rfl, Bool.false_ne_true, watches false rfl, rfl⟩

end Anope.BotServ
