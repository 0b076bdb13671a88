import Anope.Account.Identify
import Anope.Library.Split
import Anope.Library.Table
import Anope.Text.Base64

/-!
# SASL sessions

The SASL service keeps a session for a uid while a client authenticates itself.  A mechanism answers
the messages of the session; `PLAIN` makes a request to identify, which may be answered much later,
and by then looks up the session of the uid again.  The destructor of a session takes its uid out of
the table of the service.
-/

namespace Anope.Account.Sasl

open Library Library.Run Identify

/-! ## Messages of the PLAIN mechanism -/

/-- The checks on a decoded message of `PLAIN`: the account and the password.  The list of
characters that a password must not have is a C string and ends before its NUL. -/
def plainMessage (isNickValid : Str → Bool) (message : Str) : Option (Str × Str) :=
  (Split.cut 0 message).bind fun (authzid, rest) =>
    (Split.cut 0 rest).bind fun (authcid, passwd) =>
      if !authzid.isEmpty && authzid != authcid then none
      else if authcid.isEmpty || passwd.isEmpty || !isNickValid authcid
          || passwd.any fun c => c == 13 || c == 10 then none
      else some (authcid, passwd)

/-- What a message of `PLAIN` says that is accepted. -/
structure Accepted (isNickValid : Str → Bool) (authzid authcid passwd : Str) : Prop where
  authzid : authzid = [] ∨ authzid = authcid
  noNul : 0 ∉ authcid
  nonempty : authcid ≠ []
  valid : isNickValid authcid = true
  password : passwd ≠ []
  oneLine : ∀ c ∈ passwd, c ≠ 13 ∧ c ≠ 10

/-- A message of `PLAIN` is understood as an account and a password exactly when it consists of a
name to act as, the account and the password with a NUL between them, all of them in order. -/
theorem plainMessage_eq_some_iff {isNickValid : Str → Bool} {message authcid passwd : Str} :
    plainMessage isNickValid message = some (authcid, passwd) ↔
      ∃ authzid, message = authzid ++ 0 :: authcid ++ 0 :: passwd ∧
        Accepted isNickValid authzid authcid passwd := by
  constructor
  · intro parsed
    obtain ⟨⟨authzid, rest⟩, isZid, afterZid⟩ := Option.bind_eq_some_iff.mp parsed
    obtain ⟨⟨cid, password⟩, isCid, checked⟩ := Option.bind_eq_some_iff.mp afterZid
    obtain ⟨rfl, -⟩ := Split.cut_eq_some_iff.mp isZid
    obtain ⟨rfl, noNul⟩ := Split.cut_eq_some_iff.mp isCid
    obtain ⟨zid, checked⟩ := Option.ite_none_left_eq_some.mp checked
    obtain ⟨rest, same⟩ := Option.ite_none_left_eq_some.mp checked
    cases same
    simp only [Bool.or_eq_true, not_or, Bool.not_eq_true, List.isEmpty_eq_false_iff] at rest
    obtain ⟨⟨⟨nonempty, password⟩, valid⟩, oneLine⟩ := rest
    refine ⟨authzid, by simp, ⟨?_, noNul, nonempty, by simpa using valid, password, ?_⟩⟩
    · by_cases empty : authzid = []
      · exact .inl empty
      · exact .inr (by simpa [empty] using zid)
    · simpa using oneLine
  · rintro ⟨authzid, rfl, accepted⟩
    have noNul : 0 ∉ authzid := by
      rcases accepted.authzid with rfl | rfl
      · exact List.not_mem_nil
      · exact accepted.noNul
    have first : Split.cut 0 (authzid ++ 0 :: authcid ++ 0 :: passwd) =
        some (authzid, authcid ++ 0 :: passwd) := by
      rw [List.append_assoc, List.cons_append]
      exact Split.cut_append noNul _
    rw [plainMessage, first, Option.bind_some]
    dsimp only
    rw [Split.cut_append accepted.noNul, Option.bind_some]
    have zid : (!authzid.isEmpty && authzid != authcid) = false := by
      rcases accepted.authzid with rfl | rfl <;> simp
    have oneLine : (passwd.any fun c => c == 13 || c == 10) = false := by
      simpa using accepted.oneLine
    simp [zid, oneLine, accepted.nonempty, accepted.password, accepted.valid]

/-! ## The service -/

/-- The mechanisms of the repository. -/
inductive Mechanism where
  | plain
  | external
  | anonymous
  deriving DecidableEq

/-- The types of messages that are told apart. -/
inductive MessageType where
  | S
  | H
  | C
  | D
  | other
  deriving DecidableEq

variable {υ μ α : Type}

/-- A `SASL::Message` that is meant for the services.  Uids are the same up to case. -/
structure Message (υ : Type) where
  source : υ
  type : MessageType
  data : List Str

/-- A live `SASL::Session`, with the certificates of an `EXTERNAL` session. -/
structure Session (υ : Type) where
  created : Nat
  uid : υ
  mech : Option Mechanism
  certs : List Str

/-- The fields of a `SASLIdentifyRequest`, and the session in which it was made, which the code does
not keep. -/
structure Fields (υ : Type) where
  uid : υ
  account : Str
  session : Nat

/-- What is sent to a client: a list of mechanisms, a challenge, a success with the login it comes
with, a failure, and an abort. -/
inductive Reply (α : Type) where
  | mechs
  | challenge
  | success (account : Option α)
  | failure
  | aborted

/-- A message to a client: for a session of the table or for the temporary one, and because of a
request or not. -/
structure Sent (υ α : Type) where
  session : Option Nat
  uid : υ
  reply : Reply α
  request : Option (Fields υ)

/-- A message that ends a session. -/
def Reply.final : Reply α → Bool
  | .mechs | .challenge => false
  | .success _ | .failure | .aborted => true

/-- How many messages have ended a session. -/
def endings (sent : List (Sent υ α)) (s : Nat) : Nat :=
  sent.countP fun message => message.session == some s && message.reply.final

theorem endings_append (sent : List (Sent υ α)) (message : Sent υ α) (s : Nat) :
    endings (sent ++ [message]) s =
      endings sent s + if message.session = some s ∧ message.reply.final then 1 else 0 := by
  rw [endings, endings, List.countP_append, List.countP_singleton]
  simp

/-- What the service asks of others: the mechanisms by name, the accounts of certificates, which
accounts are suspended or unconfirmed, and how many users are logged in to them. -/
structure World (α : Type) where
  mechs : Str → Option Mechanism
  findAccountFromCert : Str → Option α
  barred : α → Bool
  users : α → Nat

/-- The table of sessions, the live sessions by the order in which they were made, the requests, and
what was sent. -/
structure State (υ μ α : Type) where
  now : Nat
  world : World α
  sessions : AList fun _ : υ => Nat
  live : Nat → Option (Session υ)
  made : Nat
  reqs : Requests μ (Fields υ)
  sent : List (Sent υ α)

/-- The setting `maxlogins`, the check of nicks, and the module of `PLAIN`. -/
structure Setup (μ : Type) where
  maxlogins : Nat
  isNickValid : Str → Bool
  plainOwner : μ

variable [DecidableEq υ]

namespace State

/-- Nothing has happened. -/
def initial (world : World α) : State υ μ α := ⟨0, world, ∅, fun _ => none, 0, .initial, []⟩

/-- `SASLService::GetSession`. -/
def getSession (st : State υ μ α) (uid : υ) : Option Nat :=
  st.sessions.lookup uid

/-- `SASLService::SendMessage`. -/
def sendMessage (st : State υ μ α) (session : Option Nat) (uid : υ) (reply : Reply α)
    (request : Option (Fields υ)) : State υ μ α :=
  { st with sent := st.sent ++ [⟨session, uid, reply, request⟩] }

/-- `SASLService::RemoveSession`, which the destructor of a session calls. -/
def removeSession (st : State υ μ α) (uid : υ) : State υ μ α :=
  { st with sessions := st.sessions.erase uid }

/-- A session of a uid is deleted. -/
def deleteSession (st : State υ μ α) (s : Nat) (uid : υ) : State υ μ α :=
  { st.removeSession uid with live := Function.update st.live s none }

/-- A session is made and put in the table. -/
def newSession (st : State υ μ α) (uid : υ) (mech : Option Mechanism) : State υ μ α :=
  { st with
    live := Function.update st.live st.made (some ⟨st.now, uid, mech, []⟩)
    sessions := st.sessions.insert uid st.made
    made := st.made + 1 }

/-- The end of a session with a message. -/
def endSession (st : State υ μ α) (s : Nat) (uid : υ) (reply : Reply α)
    (request : Option (Fields υ)) : State υ μ α :=
  (st.sendMessage (some s) uid reply request).deleteSession s uid

/-- `SASLIdentifyRequest::OnFail`. -/
def onFail (st : State υ μ α) (fields : Fields υ) : State υ μ α :=
  match st.getSession fields.uid with
  | some s => st.endSession s fields.uid .failure (some fields)
  | none => st

variable (setup : Setup μ)

/-- `SASLIdentifyRequest::OnSuccess` and `OnFail`. -/
def answer (st : State υ μ α) : Answer (Fields υ) α → State υ μ α
  | .onSuccess _ fields nc =>
      if st.world.barred nc || (setup.maxlogins != 0 && setup.maxlogins ≤ st.world.users nc) then
        st.onFail fields
      else
        match st.getSession fields.uid with
        | some s => st.endSession s fields.uid (.success (some nc)) (some fields)
        | none => st
  | .onFail _ fields => st.onFail fields

/-- What happens to the requests, with the answers that they give. -/
def changeRequests (st : State υ μ α) (out : Requests μ (Fields υ) × List (Answer (Fields υ) α)) :
    State υ μ α :=
  out.2.foldl (answer setup) { st with reqs := out.1 }

/-- A certificate of an account that may log in. -/
def certAccount (st : State υ μ α) (cert : Str) : Option α :=
  (st.world.findAccountFromCert cert).filter fun nc => !st.world.barred nc

/-- `External::ProcessMessage`. -/
def external (st : State υ μ α) (s : Nat) (session : Session υ) (m : Message υ) :
    State υ μ α × Bool :=
  match m.type with
  | .S =>
      if m.data.length < 2 then (st, false)
      else
        let st :=
          { st with
            live := Function.update st.live s (some { session with certs := m.data.tail }) }
        (st.sendMessage (some s) m.source .challenge none, true)
  | .C =>
      match session.certs.findSome? st.certAccount with
      | some nc => (st.endSession s m.source (.success (some nc)) none, true)
      | none => (st, false)
  | _ => (st, true)

/-- `Anonymous::ProcessMessage`, which leaves the session in the table. -/
def anonymous (st : State υ μ α) (s : Nat) (m : Message υ) : State υ μ α × Bool :=
  match m.type with
  | .S => (st.sendMessage (some s) m.source .challenge none, true)
  | .C => (st.sendMessage (some s) m.source (.success none) none, true)
  | _ => (st, true)

/-- A pass of the loop in `SASLService::DeleteSessions`, for a mechanism that goes. -/
def abortSession (mech : Mechanism) (st : State υ μ α) (uid : υ) : State υ μ α :=
  match st.getSession uid with
  | some s =>
      if (st.live s).bind Session.mech = some mech then st.endSession s uid .aborted none else st
  | none => st

/-- A pass of the loop over the sessions in `SASLService::Tick`. -/
def expireSession (st : State υ μ α) (uid : υ) : State υ μ α :=
  match st.getSession uid with
  | some s =>
      if (st.live s).any fun session => session.created + 60 < st.now then st.deleteSession s uid
      else st
  | none => st

variable [DecidableEq μ]

/-- What is done to a request, where it is not over. -/
def useRequest (st : State υ μ α) (action : Identify.Action μ (Fields υ) α) : State υ μ α :=
  match act st.reqs action with
  | some out => st.changeRequests setup out
  | none => st

end State

/-- What a module does with a request that is shown to it. -/
inductive Hook (μ α : Type) where
  | hold (m : μ)
  | release (m : μ)
  | success (nc : α)

/-- The call of a hook for a request. -/
def Hook.action (r : Nat) : Hook μ α → Identify.Action μ (Fields υ) α
  | .hold m => .hold r m
  | .release m => .release r m
  | .success nc => .success r nc

namespace State

variable [DecidableEq μ] (setup : Setup μ)

/-- `Plain::ProcessMessage`: whether the session goes on.  The hooks are what the modules do while
they see the request. -/
def plain (st : State υ μ α) (s : Nat) (m : Message υ) (hooks : List (Hook μ α)) :
    State υ μ α × Bool :=
  match m.type with
  | .S => (st.sendMessage (some s) m.source .challenge none, true)
  | .C =>
      match plainMessage setup.isNickValid (Text.Base64.b64Decode (m.data.headD [])) with
      | none => (st, false)
      | some (authcid, _) =>
          let r := st.reqs.made
          let st := { st with reqs := st.reqs.create setup.plainOwner ⟨m.source, authcid, s⟩ }
          let st := hooks.foldl (fun st hook => st.useRequest setup (hook.action r)) st
          (st.useRequest setup (.dispatch r), true)
  | _ => (st, true)

/-- The end of `SASLService::ProcessMessage`: the mechanism of a session sees the message. -/
def mechMessage (st : State υ μ α) (s : Nat) (m : Message υ) (hooks : List (Hook μ α)) :
    State υ μ α :=
  match st.live s with
  | none => st
  | some session =>
      let out := match session.mech with
        | none => (st, true)
        | some .plain => st.plain setup s m hooks
        | some .external => st.external s session m
        | some .anonymous => st.anonymous s m
      if out.2 then out.1 else out.1.endSession s m.source .failure none

/-- `SASLService::ProcessMessage`.  For a mechanism that is not there a temporary session is made,
whose destructor takes the uid out of the table. -/
def processMessage (st : State υ μ α) (m : Message υ) (hooks : List (Hook μ α)) : State υ μ α :=
  match m.data with
  | [] => st
  | first :: _ =>
      let session := st.getSession m.source
      match m.type with
      | .S =>
          match st.world.mechs first with
          | none =>
              let st := st.sendMessage none m.source .mechs none
              (st.sendMessage none m.source .failure none).removeSession m.source
          | some mech =>
              let st := session.elim st fun s => st.deleteSession s m.source
              (st.newSession m.source (some mech)).mechMessage setup st.made m hooks
      | .D => session.elim st fun s => st.deleteSession s m.source
      | .H =>
          match session with
          | some s => st.mechMessage setup s m hooks
          | none => st.newSession m.source none
      | .C | .other => session.elim st fun s => st.mechMessage setup s m hooks

end State

/-- What happens. -/
inductive Step (υ μ α : Type) where
  | time (now : Nat)
  | world (world : World α)
  | message (m : Message υ) (hooks : List (Hook μ α))
  | tick
  | unloadMechanism (mech : Mechanism)
  | hook (r : Nat) (hook : Hook μ α)
  | unloadModule (m : μ)

/-- The state after something has happened. -/
def step [DecidableEq μ] (setup : Setup μ) (st : State υ μ α) : Step υ μ α → Option (State υ μ α)
  | .time now => some { st with now }
  | .world world => some { st with world }
  | .message m hooks => some (st.processMessage setup m hooks)
  | .tick => some (st.sessions.keys.foldl State.expireSession st)
  | .unloadMechanism mech => some (st.sessions.keys.foldl (State.abortSession mech) st)
  | .hook r hook => some (st.useRequest setup (hook.action r))
  | .unloadModule m => some (st.useRequest setup (.moduleUnload m))

/-! ## What steps consist of -/

section Moves

variable {leaks stays restarts : Prop} {known : Fields υ → Prop} {st st' next : State υ μ α}
  {uid : υ} {s : Nat}

/-- A part of a step.  `known` are the fields of the requests that the step may come to.  The three
propositions say whether the step may take a session out of the table without deleting it, may
leave a session alive that it has ended, and may begin a session for the uid of a known request. -/
inductive Move (leaks stays restarts : Prop) (known : Fields υ → Prop) (st : State υ μ α) :
    State υ μ α → Prop where
  | quiet {st' : State υ μ α} (sessions : st'.sessions = st.sessions)
      (live : ∀ s, (st'.live s).map Session.uid = (st.live s).map Session.uid)
      (made : st'.made = st.made) (reqs : st'.reqs.Covered known)
      (sent : st'.sent = st.sent ∨ ∃ message, st'.sent = st.sent ++ [message] ∧
        message.request = none ∧ (message.session = none ∨ message.reply.final = false)) :
      Move leaks stays restarts known st st'
  | create (uid : υ) (mech : Option Mechanism) (new : st.getSession uid = none)
      (may : restarts ∨ ∀ fields, known fields → fields.uid ≠ uid) :
      Move leaks stays restarts known st (st.newSession uid mech)
  | refuse (uid : υ) (mech : Option Mechanism) (new : st.getSession uid = none) :
      Move leaks stays restarts known st
        ((st.newSession uid mech).endSession st.made uid .failure none)
  | drop (uid : υ) (s : Nat) (found : st.getSession uid = some s) :
      Move leaks stays restarts known st (st.deleteSession s uid)
  | finish (uid : υ) (s : Nat) (reply : Reply α) (request : Option (Fields υ))
      (found : st.getSession uid = some s)
      (own : ∀ fields, request = some fields → known fields ∧ fields.uid = uid) :
      Move leaks stays restarts known st (st.endSession s uid reply request)
  | leak (uid : υ) (may : leaks ∨ st.getSession uid = none) :
      Move leaks stays restarts known st (st.removeSession uid)
  | stay (uid : υ) (s : Nat) (reply : Reply α) (found : st.getSession uid = some s) (may : stays) :
      Move leaks stays restarts known st (st.sendMessage (some s) uid reply none)

/-- A part of a step after the other. -/
abbrev Moves (leaks stays restarts : Prop) (known : Fields υ → Prop) :
    State υ μ α → State υ μ α → Prop :=
  Relation.ReflTransGen (Move leaks stays restarts known)

theorem Move.of_sendMessage (covered : st.reqs.Covered known) {session : Option Nat}
    {reply : Reply α} (open_ : session = none ∨ reply.final = false) :
    Move leaks stays restarts known st (st.sendMessage session uid reply none) :=
  .quiet rfl (fun _ => rfl) rfl covered (.inr ⟨_, rfl, rfl, open_⟩)

theorem moves_onFail {fields : Fields υ} (isKnown : known fields) :
    Moves leaks stays restarts known st (st.onFail fields) := by
  unfold State.onFail
  split
  · next s found =>
      refine .single (.finish _ s .failure _ found fun other isOther => ?_)
      exact Option.some.inj isOther ▸ ⟨isKnown, rfl⟩
  · exact .refl

theorem Move.covered (move : Move leaks stays restarts known st st')
    (covered : st.reqs.Covered known) : st'.reqs.Covered known := by
  cases move with
  | quiet _ _ _ reqs _ => exact reqs
  | create | refuse | drop | finish | leak | stay => exact covered

/-- What every move keeps is kept. -/
theorem Moves.keeps {property : State υ μ α → Prop}
    (keeps : ∀ {st st'}, Move leaks stays restarts known st st' → property st → property st')
    (moves : Moves leaks stays restarts known st st') (before : property st) : property st' := by
  induction moves with
  | refl => exact before
  | tail _ move ih => exact keeps move ih

theorem Moves.covered (moves : Moves leaks stays restarts known st st')
    (covered : st.reqs.Covered known) : st'.reqs.Covered known :=
  moves.keeps Move.covered covered

variable (setup : Setup μ)

theorem moves_answer {answer : Answer (Fields υ) α} (isKnown : known answer.fields) :
    Moves leaks stays restarts known st (st.answer setup answer) := by
  cases answer with
  | onFail r fields => exact moves_onFail isKnown
  | onSuccess r fields nc =>
      unfold State.answer
      dsimp only
      split
      · exact moves_onFail isKnown
      · split
        · next s found =>
            refine .single (.finish _ s (.success (some nc)) _ found fun other isOther => ?_)
            exact Option.some.inj isOther ▸ ⟨isKnown, rfl⟩
        · exact .refl

variable [DecidableEq μ]

theorem moves_useRequest {action : Identify.Action μ (Fields υ) α} (covered : st.reqs.Covered known)
    (old : ∀ owner fields, action ≠ .create owner fields) :
    Moves leaks stays restarts known st (st.useRequest setup action) := by
  unfold State.useRequest
  split
  · next out acted =>
      have covers := covers_act covered acted fun owner fields isNew =>
        absurd isNew (old owner fields)
      refine Relation.ReflTransGen.head
        (.quiet rfl (fun _ => rfl) rfl covers.1 (.inl rfl) :
          Move _ _ _ _ st { st with reqs := out.1 })
        ?_
      unfold State.changeRequests
      generalize ({ st with reqs := out.1 } : State υ μ α) = between
      have answers := covers.2
      generalize out.2 = answered at answers
      induction answered generalizing between with
      | nil => exact .refl
      | cons answer answered ih =>
          obtain ⟨first, rest⟩ := List.forall_mem_cons.mp answers
          exact (moves_answer setup first).trans (ih _ rest)
  · exact .refl

theorem moves_hooks (hooks : List (Hook μ α)) (r : Nat) (covered : st.reqs.Covered known) :
    Moves leaks stays restarts known st
      (hooks.foldl (fun st hook => st.useRequest setup (hook.action r)) st) := by
  induction hooks generalizing st with
  | nil => exact .refl
  | cons hook hooks ih =>
      have first : Moves leaks stays restarts known st (st.useRequest setup (hook.action r)) :=
        moves_useRequest setup covered fun owner fields isNew => by cases hook <;> cases isNew
      exact first.trans (ih (first.covered covered))

/-- A request is shown to the modules and dispatched. -/
theorem moves_shown (hooks : List (Hook μ α)) (r : Nat) (covered : st.reqs.Covered known) :
    Moves leaks stays restarts known st
      ((hooks.foldl (fun st hook => st.useRequest setup (hook.action r)) st).useRequest setup
        (.dispatch r)) := by
  have shown : Moves leaks stays restarts known st
      (hooks.foldl (fun st hook => st.useRequest setup (hook.action r)) st) :=
    moves_hooks setup hooks r covered
  exact shown.trans (moves_useRequest setup (shown.covered covered) fun _ _ isNew => by cases isNew)

/-- What the mechanism of a session does with a message. -/
theorem moves_mechMessage {m : Message υ} (hooks : List (Hook μ α))
    (found : st.getSession m.source = some s) (covered : st.reqs.Covered known)
    (asks : m.type = .C → ∀ account, known ⟨m.source, account, s⟩)
    (may : m.type = .C → (st.live s).bind Session.mech = some .anonymous → stays) :
    Moves leaks stays restarts known st (st.mechMessage setup s m hooks) := by
  have failure : Moves leaks stays restarts known st
      (st.endSession s m.source .failure none) :=
    .single (.finish _ s .failure none found fun fields isSome => by cases isSome)
  have challenge : Moves leaks stays restarts known st
      (st.sendMessage (some s) m.source .challenge none) :=
    .single (.of_sendMessage covered (.inr rfl))
  unfold State.mechMessage
  split
  · exact .refl
  next session isLive =>
  have isMech : (st.live s).bind Session.mech = session.mech := by rw [isLive]; rfl
  dsimp only
  cases mech : session.mech with
  | none => exact .refl
  | some mechanism =>
    cases mechanism with
    | plain =>
        unfold State.plain
        cases type : m.type with
        | S => exact challenge
        | C =>
            dsimp only
            split
            · exact failure
            · next authcid _ _ =>
                have new : (st.reqs.create setup.plainOwner
                    ⟨m.source, authcid, s⟩).Covered known :=
                  covered_create covered (asks type authcid)
                have made : Move leaks stays restarts known st
                    { st with reqs := st.reqs.create setup.plainOwner ⟨m.source, authcid, s⟩ } :=
                  .quiet rfl (fun _ => rfl) rfl new (.inl rfl)
                exact Relation.ReflTransGen.head made (moves_shown setup hooks _ new)
        | H | D | other => exact .refl
    | external =>
        unfold State.external
        cases type : m.type with
        | S =>
            dsimp only
            split
            · exact failure
            · refine .single (.quiet rfl (fun s' => ?_) rfl covered (.inr ⟨_, rfl, rfl, .inr rfl⟩))
              by_cases same : s' = s
              · subst same
                simp [State.sendMessage, isLive]
              · simp [State.sendMessage, same]
        | C =>
            dsimp only
            split
            · next nc _ =>
                exact .single (.finish _ s (.success (some nc)) none found
                  fun fields isSome => by cases isSome)
            · exact failure
        | H | D | other => exact .refl
    | anonymous =>
        unfold State.anonymous
        cases type : m.type with
        | S => exact challenge
        | C => exact .single (.stay _ s (.success none) found (may type (isMech.trans mech)))
        | H | D | other => exact .refl

end Moves

/-! ## Steps as moves -/

section Steps

variable (setup : Setup μ) {st next : State υ μ α} {action : Step υ μ α} {uid : υ} {s : Nat}

/-- A request of a uid is not over. -/
def Pending (st : State υ μ α) (uid : υ) : Prop :=
  ∃ r request, st.reqs.requests r = some request ∧ request.fields.uid = uid

/-- A client that has a session asks for a mechanism that is not there. -/
def Leaks (st : State υ μ α) : Step υ μ α → Prop
  | .message m _ =>
      m.type = .S ∧ m.data.head?.map st.world.mechs = some none ∧
        (st.getSession m.source).isSome
  | _ => False

/-- A client answers a challenge of the mechanism `ANONYMOUS`. -/
def Stays (st : State υ μ α) : Step υ μ α → Prop
  | .message m _ =>
      m.type = .C ∧ m.data ≠ [] ∧
        ((st.getSession m.source).bind st.live).bind Session.mech = some .anonymous
  | _ => False

/-- A session begins for a uid with a request that is not over. -/
def Restarts (st : State υ μ α) : Step υ μ α → Prop
  | .message m _ =>
      Pending st m.source ∧
        (m.type = .S ∧ (∃ mech, m.data.head?.bind st.world.mechs = some mech ∧
            ¬(mech = .external ∧ m.data.length < 2)) ∨
          m.type = .H ∧ m.data ≠ [] ∧ st.getSession m.source = none)
  | _ => False

/-- The fields of the requests that are not over, and of those that are made in a step. -/
def Known (st : State υ μ α) (action : Step υ μ α) (fields : Fields υ) : Prop :=
  (∃ r request, st.reqs.requests r = some request ∧ request.fields = fields) ∨
    (∃ m hooks, action = .message m hooks ∧ m.type = .C) ∧
      st.getSession fields.uid = some fields.session

theorem covered_known : st.reqs.Covered (Known st action) :=
  fun r request isLive => .inl ⟨r, request, isLive, rfl⟩

theorem getSession_deleteSession : (st.deleteSession s uid).getSession uid = none :=
  AList.lookup_erase _ _

theorem moves_foldl {pass : State υ μ α → υ → State υ μ α} {leaks stays restarts : Prop}
    {known : Fields υ → Prop} (moves : ∀ st uid, Moves leaks stays restarts known st (pass st uid))
    (uids : List υ) (st : State υ μ α) :
    Moves leaks stays restarts known st (uids.foldl pass st) := by
  induction uids generalizing st with
  | nil => exact .refl
  | cons uid uids ih => exact (moves st uid).trans (ih _)

/-- Where a session begins, no request is known of its uid but one that is not over. -/
theorem restarts_or {m : Message υ} {hooks : List (Hook μ α)} (notC : m.type ≠ .C)
    (restarts : Pending st m.source → Restarts st (.message m hooks)) :
    Restarts st (.message m hooks) ∨
      ∀ fields, Known st (.message m hooks) fields → fields.uid ≠ m.source := by
  by_cases pending : Pending st m.source
  · exact .inl (restarts pending)
  · refine .inr ?_
    rintro fields (⟨r, request, isLive, rfl⟩ | ⟨⟨m', hooks', same, isC⟩, -⟩) isUid
    · exact pending ⟨r, request, isLive, isUid⟩
    · cases same
      exact notC isC

variable [DecidableEq μ]

/-- A session that begins, by its first message. -/
theorem moves_begin {leaks stays restarts : Prop} {known : Fields υ → Prop} {m : Message υ}
    {mech : Mechanism} (hooks : List (Hook μ α)) (type : m.type = .S)
    (new : st.getSession m.source = none) (covered : st.reqs.Covered known)
    (may : ¬(mech = .external ∧ m.data.length < 2) →
      restarts ∨ ∀ fields, known fields → fields.uid ≠ m.source) :
    Moves leaks stays restarts known st
      ((st.newSession m.source (some mech)).mechMessage setup st.made m hooks) := by
  have found : (st.newSession m.source (some mech)).getSession m.source = some st.made :=
    AList.lookup_insert _
  by_cases short : mech = .external ∧ m.data.length < 2
  · obtain ⟨rfl, short⟩ := short
    have refused : (st.newSession m.source (some .external)).mechMessage setup st.made m hooks =
        (st.newSession m.source (some .external)).endSession st.made m.source .failure none := by
      simp [State.mechMessage, State.newSession, State.external, type, short]
    rw [refused]
    exact .single (.refuse m.source _ new)
  · refine Relation.ReflTransGen.head (.create m.source (some mech) new (may short)) ?_
    refine moves_mechMessage setup hooks found covered (fun isC => ?_) fun isC => ?_
    · cases type.symm.trans isC
    · cases type.symm.trans isC

theorem moves_processMessage (m : Message υ) (hooks : List (Hook μ α)) :
    Moves (Leaks st (.message m hooks)) (Stays st (.message m hooks))
      (Restarts st (.message m hooks)) (Known st (.message m hooks)) st
      (st.processMessage setup m hooks) := by
  unfold State.processMessage
  split
  · exact .refl
  next first rest isData =>
  have head : m.data.head? = some first := by rw [isData]; rfl
  have covered : st.reqs.Covered (Known st (.message m hooks)) := covered_known
  cases type : m.type with
  | S =>
      dsimp only
      split
      · next isMech =>
          have say (reply : Reply α) (st' : State υ μ α) (same : st'.reqs = st.reqs) :
              Move (Leaks st (.message m hooks)) (Stays st (.message m hooks))
                (Restarts st (.message m hooks)) (Known st (.message m hooks)) st'
                (st'.sendMessage none m.source reply none) :=
            .of_sendMessage (same ▸ covered) (.inl rfl)
          refine .head (say .mechs st rfl) (.head (say .failure _ rfl) (.single (.leak _ ?_)))
          cases found : st.getSession m.source with
          | none => exact .inr found
          | some s => exact .inl ⟨type, by rw [head, Option.map_some, isMech], by rw [found]; rfl⟩
      · next mech isMech =>
          have may : ¬(mech = .external ∧ m.data.length < 2) → Restarts st (.message m hooks) ∨
              ∀ fields, Known st (.message m hooks) fields → fields.uid ≠ m.source :=
            fun long => restarts_or (by simp [type]) fun pending =>
              ⟨pending, .inl ⟨type, mech, by rw [head, Option.bind_some, isMech], long⟩⟩
          cases found : st.getSession m.source with
          | none => exact moves_begin setup hooks type found covered may
          | some s =>
              refine .head (.drop m.source s found) ?_
              exact moves_begin setup hooks type getSession_deleteSession covered may
  | D =>
      dsimp only
      cases found : st.getSession m.source with
      | none => exact .refl
      | some s => exact .single (.drop m.source s found)
  | H =>
      dsimp only
      split
      · next s found =>
          refine moves_mechMessage setup hooks found covered (fun isC => ?_) fun isC => ?_
          · cases type.symm.trans isC
          · cases type.symm.trans isC
      · next new =>
          refine .single (.create m.source none new ?_)
          refine restarts_or (by simp [type]) fun pending => ?_
          exact ⟨pending, .inr ⟨type, by simp [isData], new⟩⟩
  | C =>
      dsimp only
      cases found : st.getSession m.source with
      | none => exact .refl
      | some s =>
          refine moves_mechMessage setup hooks found covered (fun _ account => ?_)
            fun _ isMech => ?_
          · exact .inr ⟨⟨m, hooks, rfl, type⟩, found⟩
          · exact ⟨type, by simp [isData], by rw [found]; exact isMech⟩
  | other =>
      dsimp only
      cases found : st.getSession m.source with
      | none => exact .refl
      | some s =>
          refine moves_mechMessage setup hooks found covered (fun isC => ?_) fun isC => ?_
          · cases type.symm.trans isC
          · cases type.symm.trans isC

theorem moves_step (stepped : step setup st action = some next) :
    Moves (Leaks st action) (Stays st action) (Restarts st action) (Known st action) st next := by
  have covered : st.reqs.Covered (Known st action) := covered_known
  cases action with
  | time now =>
      cases stepped
      exact .single (.quiet rfl (fun _ => rfl) rfl covered (.inl rfl))
  | world world =>
      cases stepped
      exact .single (.quiet rfl (fun _ => rfl) rfl covered (.inl rfl))
  | message m hooks =>
      cases stepped
      exact moves_processMessage setup m hooks
  | tick =>
      cases stepped
      refine moves_foldl (fun st uid => ?_) _ _
      unfold State.expireSession
      split
      · next s found =>
          split
          · exact .single (.drop uid s found)
          · exact .refl
      · exact .refl
  | unloadMechanism mech =>
      cases stepped
      refine moves_foldl (fun st uid => ?_) _ _
      unfold State.abortSession
      split
      · next s found =>
          split
          · exact .single (.finish uid s .aborted none found fun fields isSome => by cases isSome)
          · exact .refl
      · exact .refl
  | hook r hook =>
      cases stepped
      exact moves_useRequest setup covered fun owner fields isNew => by cases hook <;> cases isNew
  | unloadModule m =>
      cases stepped
      exact moves_useRequest setup covered fun owner fields isNew => by cases isNew

end Steps

end Anope.Account.Sasl
