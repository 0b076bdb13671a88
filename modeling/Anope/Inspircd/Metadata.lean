import Anope.Inspircd.Reach
import Anope.Mode.Lock

/-!
# Channel metadata

What `METADATA` asks of services.  `SendChannelMetadata` writes the timestamp of the channel
between its name and the key, but `IRCDMessageMetadata::Run` looks for the key in the place of the
timestamp, and nothing calls `HandleTopicLock`.  So the metadata of a channel is not acted on; that
of users and servers, which has no timestamp, is.
-/

namespace Anope.Inspircd

open Anope.Mode Anope.Mode.Lock
open Anope.Text
open Anope.Text.Convert
open Library.Split (tokens)

/-! ## The functions of the keys -/

/-- `ListLimits`, a `std::map<char, unsigned>`. -/
abbrev ListLimits := UInt8 → Option Nat

/-- `limits.emplace`. -/
def ListLimits.emplace (limits : ListLimits) (letter : UInt8) (limit : Nat) : ListLimits :=
  Function.update limits letter (some ((limits letter).getD limit))

/-- The loop of `HandleMaxList`. -/
def readLimits (limits : ListLimits) : List Str → ListLimits
  | modechr :: modelimit :: rest =>
      readLimits (limits.emplace (first modechr) (convertUnsigned 32 modelimit 0)) rest
  | _ => limits

/-- What a channel that is registered has of the extensions that metadata is about. -/
structure Registration where
  /-- `CHANSERV_MODE_LOCK_EXT`. -/
  modelocks : Option (List ModeLock)
  /-- `HasExt("TOPICLOCK")`. -/
  topicLock : Bool

/-- The channels and modes as the functions of the keys find them. -/
structure Channels (χ μ : Type) where
  name : χ → Str
  /-- `c->ci`. -/
  ci : χ → Option Registration
  manager : ModeManager μ
  findChannelModeByName : Str → Option μ

/-- What the functions of the keys change: the extension `maxlist` of the channels, and what is
sent to the uplink, as the parameters of `METADATA`. -/
structure Exchange (χ : Type) where
  maxlist : χ → Option ListLimits
  sent : List (List Str)

section Keys

variable {υ σ χ κ μ : Type} [DecidableEq χ] (env : Env υ σ χ κ) (channels : Channels χ μ)
  (state : Exchange χ)

/-- `HandleMaxList`. -/
def handleMaxList (c : χ) (value : Str) : Exchange χ :=
  { state with
    maxlist := Function.update state.maxlist c
      (some (readLimits (fun _ => none) (tokens 32 value))) }

omit [DecidableEq χ] in
/-- `SendChannelMetadata`. -/
def sendChannelMetadata (c : χ) (metadataname value : Str) : Exchange χ :=
  { state with
    sent := state.sent ++
      [[channels.name c, signedDecimal (env.created c), metadataname, value]] }

omit [DecidableEq χ] in
/-- The letters of the modes that a registered channel locks. -/
def lockedModes (registration : Registration) : Str :=
  match registration.modelocks with
  | none => []
  | some modelocks =>
      -- the two calls of `replace_all_cs` take out each sign
      ((getMLockAsString channels.manager channels.findChannelModeByName modelocks false).filter
        (· ≠ 43)).filter (· ≠ 45)

omit [DecidableEq χ] in
/-- `HandleMLock`. -/
def handleMLock (c : χ) (value : Str) : Exchange χ :=
  match channels.ci c with
  | none => state
  | some ci =>
      let modes := lockedModes channels ci
      if modes ≠ value then sendChannelMetadata env channels state c (ascii "mlock") modes
      else state

omit [DecidableEq χ] in
/-- `HandleTopicLock`, which nothing calls. -/
def handleTopicLock (c : χ) (value : Str) : Exchange χ :=
  match channels.ci c with
  | none => state
  | some ci =>
      let remotestate := (tryConvert extractBool value).getD false
      if ci.topicLock ≠ remotestate then
        sendChannelMetadata env channels state c (ascii "topiclock") (boolText ci.topicLock)
      else state

/-- What a call of the handler of `METADATA` does with a channel; the others are not about
channels. -/
def act (state : Exchange χ) : Call υ σ χ κ → Exchange χ
  | .handleMaxList c value => handleMaxList state c value
  | .handleMLock c value => handleMLock env channels state c value
  | _ => state

end Keys

/-- The letters and limits of a value, in pairs. -/
def limitPairs : List Str → List (UInt8 × Nat)
  | modechr :: modelimit :: rest =>
      (first modechr, convertUnsigned 32 modelimit 0) :: limitPairs rest
  | _ => []

/-- The limits that a value gives: for each letter that of its first pair. -/
def limitsOf (value : Str) : ListLimits := fun letter =>
  ((limitPairs (tokens 32 value)).find? fun pair => pair.1 = letter).map Prod.snd

/-- The loop of `HandleMaxList` adds the limits of the pairs that it reads. -/
theorem readLimits_apply (limits : ListLimits) (list : List Str) (letter : UInt8) :
    readLimits limits list letter =
      (limits letter).or
        (((limitPairs list).find? fun pair => pair.1 = letter).map Prod.snd) := by
  induction list using limitPairs.induct generalizing limits with
  | case1 modechr modelimit rest ih =>
      rw [readLimits, ih, limitPairs, List.find?_cons]
      by_cases same : first modechr = letter
      · subst same
        cases present : limits (first modechr) <;> simp [ListLimits.emplace, present]
      · simp [ListLimits.emplace, Function.update_of_ne (Ne.symm same), same]
  | case2 list short =>
      rw [readLimits.eq_def, limitPairs.eq_def]
      split
      · exact absurd rfl (short _ _ _)
      · simp

/-- `HandleMaxList` sets exactly the limits of the value. -/
theorem readLimits_tokens (value : Str) :
    readLimits (fun _ => none) (tokens 32 value) = limitsOf value := by
  funext letter
  rw [readLimits_apply, Option.none_or, limitsOf]

/-! ## Messages as they are sent -/

/-- A message `METADATA`; that of a channel is what `SendChannelMetadata` writes. -/
inductive Form (υ χ : Type) where
  | channel (name : Str) (c : χ) (ts : Int) (key value : Str)
  | user (uid : Str) (u : υ) (key : Str) (value : Option Str)
  | server (key : Str) (value : Option Str)

section Forms

variable {υ σ χ κ μ : Type} [DecidableEq χ] (env : Env υ σ χ κ) (channels : Channels χ μ)
  (source : Source υ σ) (state : Exchange χ)

/-- The parameters of a message. -/
def Form.params : Form υ χ → List Str
  | .channel name _ ts key value => [name, signedDecimal ts, key, value]
  | .user uid _ key value => uid :: key :: value.toList
  | .server key value => ascii "*" :: key :: value.toList

omit [DecidableEq χ] in
/-- The message is about something known, and a channel's comes from a server that bursts. -/
def Form.Known : Form υ χ → Prop
  | .channel name c _ _ _ =>
      first name = 35 ∧ env.findChannel name = some c ∧
        ∃ s, source.server = some s ∧ env.isSynced s = false
  | .user uid u _ _ => isDigit (first uid) = true ∧ env.findUser uid = some u
  | .server _ _ => source.server ≠ none

omit [DecidableEq χ] in
/-- Services answer with their own value when it is not the one received. -/
def answer {α : Type} [DecidableEq α] (c : χ) (key : Str) (own received : α) (text : α → Str) :
    Exchange χ :=
  if own = received then state
  else sendChannelMetadata env channels state c key (text own)

/-- What the metadata of a channel asks for. -/
def requested (c : χ) (key value : Str) : Exchange χ :=
  if env.casemap.equalsCi key (ascii "maxlist") then
    { state with maxlist := Function.update state.maxlist c (some (limitsOf value)) }
  else
    match channels.ci c with
    | none => state
    | some ci =>
        if env.casemap.equalsCi key (ascii "mlock") then
          answer env channels state c (ascii "mlock") (lockedModes channels ci) value id
        else if env.casemap.equalsCi key (ascii "topiclock") then
          answer env channels state c (ascii "topiclock") ci.topicLock
            ((tryConvert extractBool value).getD false) boolText
        else state

omit [DecidableEq χ] in
/-- The call for a key of a table. -/
def callFor {τ : Type} (table : List (Str × (τ → Str → Call υ σ χ κ))) (target : τ) (key : Str)
    (value : Option Str) : List (Call υ σ χ κ) :=
  ((table.find? fun entry => env.casemap.equalsCi key entry.1).map fun entry =>
    entry.2 target (value.getD [])).toList

/-- The message is acted on by the key that was sent. -/
def ReadsAsSent : Form υ χ → Prop
  | .channel name c ts key value =>
      ∃ calls : List (Call υ σ χ κ),
        metadata env source (Form.channel name c ts key value : Form υ χ).params = .ok calls ∧
          calls.foldl (act env channels) state = requested env channels state c key value
  | .user uid u key value =>
      metadata env source (Form.user uid u key value : Form υ χ).params =
        .ok (callFor env
          [(ascii "accountname", .handleAccountName), (ascii "ssl_cert", .handleSslCert)] u key
          value)
  | .server key value => ∀ s, source.server = some s →
      metadata env source (Form.server key value : Form υ χ).params =
        .ok (callFor env
          [(ascii "cloakmethods", .handleCloakMethods), (ascii "modules", .handleModules)] s key
          value)

omit [DecidableEq χ] in
/-- Nothing is left to do for the metadata of a channel. -/
def NothingAsked : Form υ χ → Prop
  | .channel _ c _ key value =>
      if env.casemap.equalsCi key (ascii "maxlist") then state.maxlist c = some (limitsOf value)
      else ∀ ci, channels.ci c = some ci →
        if env.casemap.equalsCi key (ascii "mlock") then lockedModes channels ci = value
        else env.casemap.equalsCi key (ascii "topiclock") →
          ci.topicLock = (tryConvert extractBool value).getD false
  | .user _ _ _ _ => True
  | .server _ _ => True

end Forms

section Proofs

variable {υ σ χ κ μ : Type} [DecidableEq χ] {env : Env υ σ χ κ} {channels : Channels χ μ}
  {source : Source υ σ} {state : Exchange χ}

omit [DecidableEq χ] in
/-- What services send is in the form of a channel's metadata. -/
theorem sent_sendChannelMetadata (c : χ) (key value : Str) :
    (sendChannelMetadata env channels state c key value).sent =
      state.sent ++
        [(Form.channel (channels.name c) c (env.created c) key value : Form υ χ).params] :=
  rfl

/-- The functions of the keys do what the metadata of a channel asks for. -/
theorem requested_eq (c : χ) (key value : Str) :
    requested env channels state c key value =
      if env.casemap.equalsCi key (ascii "maxlist") then handleMaxList state c value
      else if env.casemap.equalsCi key (ascii "mlock") then handleMLock env channels state c value
      else if env.casemap.equalsCi key (ascii "topiclock") then
        handleTopicLock env channels state c value
      else state := by
  unfold requested handleMaxList handleMLock handleTopicLock answer
  rw [readLimits_tokens]
  cases channels.ci c with
  | none => simp
  | some ci => simp

/-- A number starts with its sign or a digit. -/
theorem exists_signedDecimal (ts : Int) :
    ∃ c rest, signedDecimal ts = c :: rest ∧ (c = 45 ∨ isDigit c = true) := by
  by_cases negative : ts < 0
  · exact ⟨45, decimal ts.natAbs, if_pos negative, .inl rfl⟩
  · obtain ⟨c, rest, digits⟩ := List.exists_cons_of_ne_nil (decimal_ne_nil ts.natAbs)
    have isFirst : c ∈ decimal ts.natAbs := by simp [digits]
    exact ⟨c, rest, (if_neg negative).trans digits, .inr (isDigit_of_mem_decimal isFirst)⟩

/-- A number is no word that starts with an `m`. -/
theorem equalsCi_signedDecimal {casemap : Casemap}
    (letter : ∀ c, casemap.toupper c = casemap.toupper 109 → c = 109 ∨ c = 77) (ts : Int)
    (word : Str) : casemap.equalsCi (signedDecimal ts) (109 :: word) = false := by
  obtain ⟨c, rest, number, isFirst⟩ := exists_signedDecimal ts
  have notLetter : c ≠ 0 ∧ c ≠ 109 ∧ c ≠ 77 := by
    refine ⟨?_, ?_, ?_⟩
    all_goals
      rintro rfl
      revert isFirst
      decide
  rw [number, ← Bool.not_eq_true, Casemap.equalsCi_iff]
  intro same
  simp only [Casemap.ciStr, ne_eq, notLetter.1, not_false_eq_true, decide_true,
    List.takeWhile_cons_of_pos, List.map_cons] at same
  rcases letter c (by simpa using congrArg List.head? same) with isM | isM
  · exact notLetter.2.1 isM
  · exact notLetter.2.2 isM

omit [DecidableEq χ] in
/-- The metadata of a channel calls nothing. -/
theorem metadata_channel
    (letter : ∀ c, env.casemap.toupper c = env.casemap.toupper 109 → c = 109 ∨ c = 77)
    {name : Str} {c : χ} {ts : Int} {key value : Str}
    (known : (Form.channel name c ts key value : Form υ χ).Known env source) :
    metadata env source (Form.channel name c ts key value : Form υ χ).params = .ok [] := by
  obtain ⟨hash, found, s, server, bursting⟩ := known
  have notMaxlist : env.casemap.equalsCi (signedDecimal ts) (ascii "maxlist") = false :=
    equalsCi_signedDecimal letter ts _
  have notMlock : env.casemap.equalsCi (signedDecimal ts) (ascii "mlock") = false :=
    equalsCi_signedDecimal letter ts _
  simp [metadata, Form.params, param, optional, deref, hash, found, server, bursting, notMaxlist,
    notMlock, pure, Except.pure, bind, Except.bind]

omit [DecidableEq χ] in
/-- Services are silent when the value received is their own. -/
theorem answer_eq_self_iff {α : Type} [DecidableEq α] {c : χ} {key : Str} {own received : α}
    {text : α → Str} :
    answer env channels state c key own received text = state ↔ own = received := by
  unfold answer
  constructor
  · intro silent
    by_contra differs
    rw [if_neg differs] at silent
    have longer := congrArg (fun state => state.sent.length) silent
    simp [sendChannelMetadata] at longer
  · intro same
    exact if_pos same

/-- What the metadata of a channel asks for is there exactly when nothing is asked. -/
theorem requested_eq_self_iff {c : χ} {key value : Str} (name : Str) (ts : Int) :
    requested env channels state c key value = state ↔
      NothingAsked env channels state (Form.channel name c ts key value : Form υ χ) := by
  unfold requested NothingAsked
  dsimp only
  by_cases maxlist : env.casemap.equalsCi key (ascii "maxlist") = true
  · rw [if_pos maxlist, if_pos maxlist]
    constructor
    · intro same
      rw [← same]
      exact Function.update_self _ _ _
    · intro same
      rw [← same, Function.update_eq_self]
  · rw [if_neg maxlist, if_neg maxlist]
    cases channels.ci c with
    | none => simp
    | some ci =>
        by_cases mlock : env.casemap.equalsCi key (ascii "mlock") = true
        · simp only [mlock, if_true, Option.some_inj, forall_eq']
          exact answer_eq_self_iff
        · by_cases topiclock : env.casemap.equalsCi key (ascii "topiclock") = true
          · simp only [mlock, topiclock, if_true, if_false, Option.some_inj, forall_eq',
              Bool.false_eq_true, forall_const]
            exact answer_eq_self_iff
          · simp [mlock, topiclock]

omit [DecidableEq χ] in
/-- The metadata of a user is acted on by its key. -/
theorem metadata_user {uid : Str} {u : υ} {key : Str} {value : Option Str}
    (known : (Form.user uid u key value : Form υ χ).Known env source) :
    metadata env source (Form.user uid u key value : Form υ χ).params =
      .ok (callFor env
        [(ascii "accountname", .handleAccountName), (ascii "ssl_cert", .handleSslCert)] u key
        value) := by
  obtain ⟨digit, found⟩ := known
  have notHash : first uid ≠ 35 := by
    intro hash
    rw [hash] at digit
    revert digit
    decide
  have isValue : optional (uid :: key :: value.toList) 2 = .ok (value.getD []) := by
    cases value <;> rfl
  rw [metadata]
  simp only [Form.params, param, List.getElem?_cons_zero, List.getElem?_cons_succ, notHash, digit,
    found, isValue, if_true, if_false, bind, Except.bind, pure, Except.pure, callFor,
    List.find?_cons, List.find?_nil]
  by_cases account : env.casemap.equalsCi key (ascii "accountname") = true
  · simp [account]
  · by_cases cert : env.casemap.equalsCi key (ascii "ssl_cert") = true
    · simp [account, cert]
    · simp [account, cert]

omit [DecidableEq χ] in
/-- The metadata of a server is acted on by its key. -/
theorem metadata_server {s : σ} {key : Str} {value : Option Str} (server : source.server = some s) :
    metadata env source (Form.server key value : Form υ χ).params =
      .ok (callFor env
        [(ascii "cloakmethods", .handleCloakMethods), (ascii "modules", .handleModules)] s key
        value) := by
  have notHash : first (ascii "*") ≠ 35 := by decide
  have notDigit : isDigit (first (ascii "*")) = false := by decide
  have isValue : optional (ascii "*" :: key :: value.toList) 2 = .ok (value.getD []) := by
    cases value <;> rfl
  rw [metadata]
  simp only [Form.params, param, List.getElem?_cons_zero, List.getElem?_cons_succ, notHash,
    notDigit, server, isValue, if_true, if_false, bind, Except.bind, pure, Except.pure, callFor,
    List.find?_cons, List.find?_nil, Bool.false_eq_true]
  by_cases cloak : env.casemap.equalsCi key (ascii "cloakmethods") = true
  · simp [cloak]
  · by_cases modules : env.casemap.equalsCi key (ascii "modules") = true
    · simp [cloak, modules]
    · simp [cloak, modules]

/-- The metadata of a channel is read as it is sent exactly when it asks for nothing; that of
users and servers always is. -/
theorem readsAsSent_iff (env : Env υ σ χ κ) (channels : Channels χ μ) (source : Source υ σ)
    (state : Exchange χ)
    (letter : ∀ c, env.casemap.toupper c = env.casemap.toupper 109 → c = 109 ∨ c = 77)
    (form : Form υ χ) (known : form.Known env source) :
    ReadsAsSent env channels source state form ↔ NothingAsked env channels state form := by
  cases form with
  | channel name c ts key value =>
      rw [← requested_eq_self_iff name ts]
      rw [ReadsAsSent, metadata_channel letter known]
      constructor
      · rintro ⟨calls, handled, acted⟩
        cases handled
        exact acted.symm
      · intro same
        exact ⟨[], rfl, same.symm⟩
  | user uid u key value => exact iff_of_true (metadata_user known) trivial
  | server key value => exact iff_of_true (fun _ server => metadata_server server) trivial

end Proofs

/-- A network on which the channel `#chan` is known and a server bursts. -/
def bursting : Env Unit Unit Unit Unit :=
  { alone with findChannel := fun name => if name = ascii "#chan" then some () else none }

/-- The channel is registered, without mode locks and with its topic locked. -/
def topicLocked : Channels Unit Unit where
  name _ := ascii "#chan"
  ci _ := some ⟨none, true⟩
  manager := oneMode
  findChannelModeByName _ := none

/-- A server that services know. -/
def fromServer : Source Unit Unit where
  source := ascii "36D"
  server := some ()
  user := none

/-- Only the two letters themselves fold to an `M`. -/
theorem letter_ascii (c : UInt8) :
    Casemap.ascii.toupper c = Casemap.ascii.toupper 109 → c = 109 ∨ c = 77 := by
  revert c
  exact Library.Bits.forall_byte (by decide +kernel)

/-- Services have their topic lock confirmed. -/
theorem readsAsSent_topicLock :
    ReadsAsSent bursting topicLocked fromServer ⟨fun _ => none, []⟩
      (.channel (ascii "#chan") () 69 (ascii "topiclock") (ascii "1")) :=
  (readsAsSent_iff bursting topicLocked fromServer ⟨fun _ => none, []⟩ letter_ascii
    (.channel (ascii "#chan") () 69 (ascii "topiclock") (ascii "1"))
    ⟨by decide, by decide, (), rfl, rfl⟩).mpr (by unfold NothingAsked; decide +kernel)

/-- The limits of a channel's lists are not taken over. -/
theorem not_readsAsSent_maxlist :
    (Form.channel (ascii "#chan") () 69 (ascii "maxlist") (ascii "b 100") : Form Unit Unit).Known
        bursting fromServer ∧
      ¬ReadsAsSent bursting topicLocked fromServer ⟨fun _ => none, []⟩
        (.channel (ascii "#chan") () 69 (ascii "maxlist") (ascii "b 100")) := by
  refine ⟨⟨by decide, by decide, (), rfl, rfl⟩, ?_⟩
  rintro ⟨calls, handled, acted⟩
  have nothing : metadata bursting fromServer
      [ascii "#chan", signedDecimal 69, ascii "maxlist", ascii "b 100"] = .ok [] :=
    rfl
  cases nothing.symm.trans handled
  have limits := congrArg (fun state => (state.maxlist ()).isSome) acted
  revert limits
  decide +kernel

end Anope.Inspircd
