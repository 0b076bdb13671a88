import Anope.BotServ.BadWords

/-!
# Kickers

`bs_kick` looks at every message to a registered channel that has kickers.  What it remembers of a
user (the flood, the last line and where it went) belongs to the membership in the channel that
the message is sent to.
-/

namespace Anope.BotServ

open Anope.Text

/-- The indices of the times to ban. -/
inductive Ttb where
  | bolds
  | colors
  | reverses
  | underlines
  | badwords
  | caps
  | flood
  | repeats
  | italics
  | amsgs
  deriving DecidableEq, Repr

/-- `KickerData`. -/
structure KickerData where
  amsgs : Bool
  badwords : Bool
  bolds : Bool
  caps : Bool
  colors : Bool
  flood : Bool
  italics : Bool
  repeats : Bool
  reverses : Bool
  underlines : Bool
  ttb : Ttb → Int16
  capsmin : Int16
  capspercent : Int16
  floodlines : Int16
  floodsecs : Int16
  repeattimes : Int16
  dontkickops : Bool
  dontkickvoices : Bool

/-- `KickerDataImpl::KickerDataImpl`. -/
def KickerData.new : KickerData where
  amsgs := false
  badwords := false
  bolds := false
  caps := false
  colors := false
  flood := false
  italics := false
  repeats := false
  reverses := false
  underlines := false
  ttb _ := 0
  capsmin := 0
  capspercent := 0
  floodlines := 0
  floodsecs := 0
  repeattimes := 0
  dontkickops := false
  dontkickvoices := false

/-- `ChannelInfo`: its name, whether a bot is assigned, its kickers and bad words, and who has the
privilege `NOKICK`. -/
structure ChannelInfo (υ : Type) where
  name : Str
  bi : Bool
  kickerdata : Option KickerData
  badwords : Option (List BadWord)
  noKick : υ → Bool

/-- `UserData`. -/
structure UserData where
  lines : Int16
  lastStart : Int
  lasttarget : Str
  times : Int16
  lastline : Str
  deriving DecidableEq

/-- `UserData::UserData`. -/
def UserData.new (curTime : Int) : UserData where
  lines := 0
  lastStart := curTime
  lasttarget := []
  times := 0
  lastline := []

/-- `ChanUserContainer`: the status modes, and what is remembered. -/
structure Member where
  status : List Str
  userdata : Option UserData

/-- `User`: whether he is protected, and what `GetMask` gives. -/
structure User where
  isProtected : Bool
  mask : Str

/-- The users `υ`, the channels `γ`, and what is known of them.  The channels of a user are in the
order of `User::chans`. -/
structure State (υ γ : Type) where
  curTime : Int
  users : υ → User
  ci : γ → Option (ChannelInfo υ)
  chans : υ → List (γ × Member)
  bandata : γ → Str → Ttb → Int16
  /-- The last message of a user to a channel. -/
  last : υ → Option (γ × Str)

/-- The configuration: the case map, `casesensitive`, `gentlebadwordreason`, and the status modes
that exist. -/
structure Config where
  casemap : Casemap
  casesensitive : Bool
  gentlebadwordreason : Bool
  statusModes : List Str

/-- What a kicker has done about a user of a channel. -/
structure Fired (γ : Type) where
  chan : γ
  ttb : Ttb
  reason : Str
  banned : Bool
  kicked : Bool

/-- What a message has led to. -/
structure Outcome (υ γ : Type) where
  state : State υ γ
  fired : List (Fired γ)

/-! ## Kickers that look at the text -/

/-- A kicker that is to act: its index and the reason that it gives. -/
abbrev Verdict := Option (Ttb × Str)

/-- A kicker that looks for a character. -/
def chrKicker (enabled : Bool) (chr : UInt8) (ttb : Ttb) (reason : String) (realbuf : Str) :
    Verdict :=
  if enabled ∧ chr ∈ realbuf then some (ttb, ascii reason) else none

section Text

variable (kd : KickerData) (realbuf : Str)

def boldsKicker : Verdict :=
  chrKicker kd.bolds 2 .bolds "Don't use bolds on this channel!" realbuf

def colorsKicker : Verdict :=
  chrKicker kd.colors 3 .colors "Don't use colors on this channel!" realbuf

def reversesKicker : Verdict :=
  chrKicker kd.reverses 22 .reverses "Don't use reverses on this channel!" realbuf

def italicsKicker : Verdict :=
  chrKicker kd.italics 29 .italics "Don't use italics on this channel!" realbuf

def underlinesKicker : Verdict :=
  chrKicker kd.underlines 31 .underlines "Don't use underlines on this channel!" realbuf

/-- `isupper`. -/
def isUpper (chr : UInt8) : Bool :=
  65 ≤ chr ∧ chr ≤ 90

/-- `islower`. -/
def isLower (chr : UInt8) : Bool :=
  97 ≤ chr ∧ chr ≤ 122

/-- The caps kicker. -/
def capsKicker : Verdict :=
  if kd.caps ∧ kd.capsmin.toInt % 2 ^ 32 ≤ realbuf.length then
    let i : Int := realbuf.countP isUpper
    let l : Int := realbuf.countP isLower
    if (i ≠ 0 ∨ l ≠ 0) ∧ i ≥ kd.capsmin.toInt ∧ i * 100 / (i + l) ≥ kd.capspercent.toInt then
      some (.caps, ascii "Turn caps lock OFF!")
    else none
  else none

/-- What is said about a bad word. -/
def badWordReason (config : Config) (bw : BadWord) : Str :=
  if config.gentlebadwordreason then ascii "Watch your language!"
  else ascii "Don't use the word \"" ++ cStr bw.word ++ ascii "\" on this channel!"

/-- The bad words kicker, for the bad words of a channel. -/
def wordsKicker (config : Config) (badwords : Option (List BadWord)) : Verdict :=
  if kd.badwords then
    (badwords.bind fun words =>
      badWordsKicker config.casemap config.casesensitive words realbuf).map fun bw =>
        (.badwords, badWordReason config bw)
  else none

/-- The kickers that look at the text, the first of which acts. -/
def textKicker (config : Config) (badwords : Option (List BadWord)) : Verdict :=
  boldsKicker kd realbuf <|> colorsKicker kd realbuf <|> reversesKicker kd realbuf <|>
    italicsKicker kd realbuf <|> underlinesKicker kd realbuf <|> capsKicker kd realbuf <|>
    wordsKicker kd realbuf config badwords

end Text

/-! ## Members and bans -/

section State

variable {υ γ : Type} [DecidableEq υ] [DecidableEq γ]

namespace State

/-- `FindUser` and `FindChannel`. -/
def findUser (state : State υ γ) (u : υ) (c : γ) : Option Member :=
  ((state.chans u).find? fun entry => entry.1 = c).map Prod.snd

/-- `DeleteUser`. -/
def deleteUser (state : State υ γ) (u : υ) (c : γ) : State υ γ :=
  { state with
    chans := Function.update state.chans u ((state.chans u).filter fun entry => entry.1 ≠ c) }

/-- A change of what belongs to a membership, if there is one. -/
def updateMember (state : State υ γ) (u : υ) (c : γ) (change : Member → Member) : State υ γ :=
  { state with
    chans := Function.update state.chans u ((state.chans u).map fun entry =>
      if entry.1 = c then (entry.1, change entry.2) else entry) }

/-- The data of a membership is set. -/
def setUserData (state : State υ γ) (u : υ) (c : γ) (ud : UserData) : State υ γ :=
  state.updateMember u c fun memb => { memb with userdata := some ud }

/-- `HasUserStatus`.  For a mode that does not exist, this asks whether there is no status. -/
def hasUserStatus (config : Config) (state : State υ γ) (u : υ) (c : γ) (mname : String) : Bool :=
  match state.findUser u c with
  | none => false
  | some memb =>
      if config.statusModes.contains (ascii mname) then memb.status.contains (ascii mname)
      else memb.status.isEmpty

/-- `check_ban`: the times are counted; whether a ban is set. -/
def checkBan (config : Config) (state : State υ γ) (u : υ) (c : γ) (kd : KickerData)
    (ttbtype : Ttb) : Bool × State υ γ :=
  if (state.users u).isProtected then (false, state)
  else
    let mask := config.casemap.ciStr (state.users u).mask
    let count := state.bandata c mask ttbtype + 1
    let set (count : Int16) : State υ γ :=
      { state with
        bandata := Function.update state.bandata c
          (Function.update (state.bandata c) mask
            (Function.update (state.bandata c mask) ttbtype count)) }
    if kd.ttb ttbtype ≠ 0 ∧ count ≥ kd.ttb ttbtype then (true, set 0) else (false, set count)

/-- `bot_kick`: whether the user is kicked. -/
def botKick (state : State υ γ) (u : υ) (c : γ) : Bool × State υ γ :=
  match state.ci c with
  | none => (false, state)
  | some ci =>
      if !ci.bi || (state.users u).isProtected || (state.findUser u c).isNone then (false, state)
      else (true, state.deleteUser u c)

end State

/-- A kicker acts: `check_ban`, then `bot_kick`. -/
def Outcome.fire (config : Config) (out : Outcome υ γ) (u : υ) (c : γ) (kd : KickerData)
    (verdict : Ttb × Str) : Outcome υ γ :=
  let (banned, counted) := out.state.checkBan config u c kd verdict.1
  let (kicked, left) := counted.botKick u c
  { state := left, fired := out.fired ++ [⟨c, verdict.1, verdict.2, banned, kicked⟩] }

/-! ## Kickers that remember -/

/-- A line is counted. -/
def UserData.countLine (curTime : Int) (kd : KickerData) (ud : UserData) : UserData :=
  let ud :=
    if curTime - ud.lastStart > kd.floodsecs.toInt then
      { ud with lastStart := curTime, lines := 0 }
    else ud
  { ud with lines := ud.lines + 1 }

/-- A line is compared with the last one. -/
def UserData.countRepeat (casemap : Casemap) (realbuf : Str) (ud : UserData) : UserData :=
  if !casemap.equalsCi ud.lastline realbuf then { ud with times := 0 }
  else { ud with times := ud.times + 1 }

/-- The loop of the AMSG kicker over the channels of the user. -/
def amsgKicker (config : Config) (out : Outcome υ γ) (u : υ) (kd : KickerData) : Outcome υ γ :=
  (out.state.chans u).foldl (fun out entry =>
    match out.state.ci entry.1 with
    | none => out
    | some ci =>
        if kd.amsgs && !ci.noKick u then
          out.fire config u entry.1 kd (.amsgs, ascii "Don't use AMSGs!")
        else out) out

/-- The flood, repeat and AMSG kickers. -/
def memoryKickers (config : Config) (state : State υ γ) (u : υ) (c : γ) (ci : ChannelInfo υ)
    (kd : KickerData) (realbuf : Str) (memb : Member) : Outcome υ γ :=
  let ud := memb.userdata.getD (.new state.curTime)
  let ud := if kd.flood then ud.countLine state.curTime kd else ud
  if kd.flood ∧ ud.lines ≥ kd.floodlines then
    Outcome.fire config ⟨state.setUserData u c ud, []⟩ u c kd (.flood, ascii "Stop flooding!")
  else
    let ud := if kd.repeats then ud.countRepeat config.casemap realbuf else ud
    if kd.repeats ∧ ud.times ≥ kd.repeattimes then
      Outcome.fire config ⟨state.setUserData u c ud, []⟩ u c kd
        (.repeats, ascii "Stop repeating yourself!")
    else
      let out : Outcome υ γ := ⟨state.setUserData u c ud, []⟩
      let out :=
        if config.casemap.equalsCi ud.lastline realbuf ∧ ud.lasttarget ≠ [] ∧
            !config.casemap.equalsCi ud.lasttarget ci.name then
          amsgKicker config out u kd
        else out
      -- the data is gone with the membership if the user was kicked
      { out with
        state := out.state.setUserData u c { ud with lasttarget := ci.name, lastline := realbuf } }

/-- Whether a user is not kicked from a channel. -/
def exempt (config : Config) (state : State υ γ) (u : υ) (c : γ) (ci : ChannelInfo υ)
    (kd : KickerData) : Bool :=
  ci.noKick u ||
    (kd.dontkickops &&
      (state.hasUserStatus config u c "HALFOP" || state.hasUserStatus config u c "OP" ||
        state.hasUserStatus config u c "PROTECT" || state.hasUserStatus config u c "OWNER")) ||
    (kd.dontkickvoices && state.hasUserStatus config u c "VOICE")

/-- The text of a message, or of an action. -/
def realText (casemap : Casemap) (msg : Str) : Str :=
  match parseCtcp msg with
  | none => msg
  | some (ctcpname, ctcpbody) =>
      if casemap.equalsCi ctcpname (ascii "ACTION") then ctcpbody else msg

/-- `OnPrivmsg`. -/
def onPrivmsg (config : Config) (state : State υ γ) (u : υ) (c : γ) (msg : Str) : Outcome υ γ :=
  match state.ci c with
  | none => ⟨state, []⟩
  | some ci =>
      match ci.kickerdata with
      | none => ⟨state, []⟩
      | some kd =>
          let realbuf := realText config.casemap msg
          if exempt config state u c ci kd || realbuf = [] then ⟨state, []⟩
          else
            match textKicker kd realbuf config ci.badwords with
            | some verdict => Outcome.fire config ⟨state, []⟩ u c kd verdict
            | none =>
                match state.findUser u c with
                | none => ⟨state, []⟩
                | some memb => memoryKickers config state u c ci kd realbuf memb

end State

end Anope.BotServ
