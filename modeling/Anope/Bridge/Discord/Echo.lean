import Anope.Bridge.Discord.Steps

/-!
# Echoes

The gateway tells of every message in a channel, those that services have posted included, and
`HandleMessage` drops an own one by the webhook or the user that it is from.  The webhooks that it
knows are those of the bridges now: once an endpoint is replaced or removed, the messages that were
posted through it are taken for those of somebody else, and are relayed when their channel is still
bridged.
-/

namespace Anope.Discord

open Library.Run Anope.Text

variable {env : Env} {state before after next : State}

/-- No message that services posted has been relayed to IRC. -/
def Silent (state : State) : Prop :=
  ∀ message ∈ state.relayed, message.own = false

/-- No message that services posted has been relayed, or is queued to be. -/
structure Unheard (state : State) : Prop where
  silent : Silent state
  queued : ∀ message channel edit, .relayToIrc message channel edit ∈ state.mailbox.jobs →
    message.own = false

/-- When the gateway tells of a message that services posted, and its text and its channel let it
be relayed, the filter knows its webhook or its author. -/
def Recognised (state : State) : Event → Prop
  | .discord (.echo index _) => ∀ message ∈ state.posted[index]?, message.own = true →
      message.text ≠ [] → state.filter.bridgedChannel message ≠ [] →
        state.filter.isOwnWebhook message.webhookId = true ∨
          state.filter.isSelf message.authorId = true
  | _ => True

instance decidableRecognised (state : State) (event : Event) :
    Decidable (Recognised state event) := by
  unfold Recognised
  split <;> infer_instance

/-! ## Messages that are queued -/

theorem handleMessage_eq_some_iff {filter : Filter} {message : Message} {edit : Bool} {job : Job} :
    filter.handleMessage message edit = some job ↔
      filter.bridgedChannel message ≠ [] ∧ filter.isOwnWebhook message.webhookId = false ∧
        filter.isSelf message.authorId = false ∧ message.text ≠ [] ∧
          job = .relayToIrc message (filter.bridgedChannel message) edit := by
  rw [Filter.handleMessage]
  by_cases elsewhere : filter.bridgedChannel message = []
  · simp [elsewhere]
  · cases isOwn : filter.isOwnWebhook message.webhookId with
    | true => simp
    | false =>
        cases isSelf : filter.isSelf message.authorId with
        | true => simp
        | false =>
            by_cases isEmpty : message.text = []
            · simp [elsewhere, isEmpty]
            · simp [elsewhere, isEmpty, eq_comm]

theorem completed_ne_relayToIrc (request : Request) (reply : Reply) (message : Message)
    (channel : Str) (edit : Bool) :
    request.completed reply ≠ some (.relayToIrc message channel edit) := by
  intro isRelay
  cases request with
  | getChannelWebhooks number key wanted name =>
      cases reply with
      | webhooks hooks =>
          rw [Request.completed_webhooks] at isRelay
          split at isRelay
          · cases isRelay
          · split at isRelay
            · cases isRelay
            · cases isRelay
      | error status => cases isRelay
      | malformed => cases isRelay
      | webhook hook => cases isRelay
      | message => cases isRelay
  | createWebhook number key channel hookChannel hookName => cases reply <;> cases isRelay
  | deleteWebhook number key hook => cases reply <;> cases isRelay
  | executeWebhook number key hook token text ircMsgid =>
      cases reply with
      | message =>
          rw [Request.completed_executeWebhook] at isRelay
          split at isRelay
          · cases isRelay
          · cases isRelay
      | error status => cases isRelay
      | malformed => cases isRelay
      | webhooks hooks => cases isRelay
      | webhook hook => cases isRelay
  | messageCreate number channel text ircMsgid =>
      cases reply with
      | message =>
          rw [Request.completed_messageCreate] at isRelay
          split at isRelay
          · cases isRelay
          · cases isRelay
      | error status => cases isRelay
      | malformed => cases isRelay
      | webhooks hooks => cases isRelay
      | webhook hook => cases isRelay

/-- A job that a signal posts relays a message of somebody else, unless it comes from an echo. -/
theorem own_of_receive {signal : Signal} {message : Message} {channel : Str} {edit : Bool}
    (received : receive state signal = some (after, some (.relayToIrc message channel edit)))
    (isOwn : message.own = true) :
    ∃ index, signal = .echo index edit ∧ state.posted[index]? = some message ∧
      state.filter.handleMessage message edit = some (.relayToIrc message channel edit) := by
  cases signal with
  | answer index reply =>
      obtain ⟨request, _, isAfter⟩ := Option.map_eq_some_iff.mp received
      exact absurd (congrArg Prod.snd isAfter) (completed_ne_relayToIrc _ _ _ _ _)
  | accept index place =>
      obtain ⟨account, _, accepted⟩ := Option.bind_eq_some_iff.mp received
      obtain ⟨request, _, accepted⟩ := Option.bind_eq_some_iff.mp accepted
      obtain ⟨message, _, isAfter⟩ := Option.map_eq_some_iff.mp accepted
      cases congrArg Prod.snd isAfter
  | echo index edit' =>
      obtain ⟨account, _, accepted⟩ := Option.bind_eq_some_iff.mp received
      obtain ⟨posted, isPosted, isAfter⟩ := Option.map_eq_some_iff.mp accepted
      have handled : state.filter.handleMessage posted edit' =
          some (.relayToIrc message channel edit) := congrArg Prod.snd isAfter
      obtain ⟨_, _, _, _, isJob⟩ := handleMessage_eq_some_iff.mp handled
      cases isJob
      exact ⟨index, rfl, isPosted, handled⟩
  | message posted edit' =>
      obtain ⟨account, _, isAfter⟩ := Option.map_eq_some_iff.mp received
      have handled : state.filter.handleMessage { posted with own := false } edit' =
          some (.relayToIrc message channel edit) := congrArg Prod.snd isAfter
      obtain ⟨_, _, _, _, isJob⟩ := handleMessage_eq_some_iff.mp handled
      cases isJob
      cases isOwn
  | ready owner =>
      obtain ⟨account, _, isAfter⟩ := Option.map_eq_some_iff.mp received
      cases congrArg Prod.snd isAfter
  | stopped =>
      obtain ⟨account, _, isAfter⟩ := Option.map_eq_some_iff.mp received
      cases congrArg Prod.snd isAfter
  | other =>
      obtain ⟨account, _, isAfter⟩ := Option.map_eq_some_iff.mp received
      cases congrArg Prod.snd isAfter

/-! ## Steps -/

theorem Unheard.of_same (unheard : Unheard before) (mailbox : after.mailbox = before.mailbox)
    (relayed : after.relayed = before.relayed) : Unheard after where
  silent := by
    rw [Silent, relayed]
    exact unheard.silent
  queued := by
    rw [mailbox]
    exact unheard.queued

theorem unheard_notify (sound : Sound env state) (unheard : Unheard state) (delivered : Bool) :
    Unheard (notify env delivered state) := by
  cases isQueued : state.mailbox.jobs with
  | nil =>
      rw [notify_of_empty delivered isQueued]
      exact ⟨unheard.silent, unheard.queued⟩
  | cons job jobs =>
      rw [notify_of_cons delivered isQueued]
      obtain ⟨left, perm⟩ := sound_left sound isQueued
      have queued {job' : Job} (mem : job' ∈ jobs) : job' ∈ state.mailbox.jobs :=
        isQueued ▸ List.mem_cons_of_mem job mem
      have stays : Unheard (state.left jobs) :=
        ⟨unheard.silent, fun message channel edit mem =>
          unheard.queued message channel edit (queued mem)⟩
      by_cases isRelay : ∃ message channel edit, job = .relayToIrc message channel edit
      · obtain ⟨message, channel, edit, rfl⟩ := isRelay
        rw [runJob]
        rcases @relayToIrc_cases env (state.left jobs) message channel edit delivered with
          same | sent
        · rw [same]
          exact stays
        · rw [sent]
          refine ⟨fun other mem => ?_, stays.queued⟩
          rcases List.mem_append.mp mem with old | new
          · exact unheard.silent other old
          · rw [List.mem_singleton.mp new]
            exact unheard.queued message channel edit (isQueued ▸ List.mem_cons_self)
      · push Not at isRelay
        have fresh := @fresh_of_perm env state (state.left jobs) sound rfl job.setup perm
        have works := works_runJob left delivered (fun _ => fresh) isRelay
        exact stays.of_same works.mailbox works.relayed

/-- A signal lets no message of services be heard exactly when it is no echo, or one that the
filter recognises. -/
theorem unheard_signal_iff (sound : Sound env state) (unheard : Unheard state) {signal : Signal}
    {job : Option Job} (received : receive state signal = some (after, job)) :
    Unheard (after.postAny job) ↔ Recognised state (.discord signal) := by
  obtain ⟨-, -, relayed⟩ := signal_keeps sound received
  obtain ⟨_, _, _, mailbox, _, _⟩ := receive_keeps received
  constructor
  · intro kept
    cases signal with
    | echo index edit =>
        intro message isPosted isOwn isText isBridged
        obtain ⟨account, _, accepted⟩ := Option.bind_eq_some_iff.mp received
        obtain ⟨posted, isEchoed, isAfter⟩ := Option.map_eq_some_iff.mp accepted
        cases isEchoed.symm.trans isPosted
        by_contra unknown
        rw [not_or, Bool.not_eq_true, Bool.not_eq_true] at unknown
        have handled : state.filter.handleMessage message edit =
            some (.relayToIrc message (state.filter.bridgedChannel message) edit) :=
          handleMessage_eq_some_iff.mpr ⟨isBridged, unknown.1, unknown.2, isText, rfl⟩
        rw [handled] at isAfter
        cases isAfter
        obtain ⟨dropped, isPost⟩ := post_eq sound.owner
          (.relayToIrc message (state.filter.bridgedChannel message) edit)
        have heard := kept.queued message (state.filter.bridgedChannel message) edit (by
          rw [State.postAny, isPost]
          exact List.mem_append_right _ (List.mem_singleton.mpr rfl))
        rw [isOwn] at heard
        cases heard
    | answer | accept | message | ready | stopped | other => trivial
  · intro recognised
    refine ⟨?_, fun message channel edit mem => ?_⟩
    · rw [Silent, relayed]
      exact unheard.silent
    · cases job with
      | none => exact unheard.queued message channel edit (mailbox ▸ mem)
      | some job =>
          obtain ⟨dropped, isPost⟩ := post_eq (mailbox ▸ sound.owner) job
          rw [State.postAny, isPost] at mem
          rcases List.mem_append.mp mem with old | new
          · exact unheard.queued message channel edit (mailbox ▸ List.mem_of_mem_drop old)
          · cases List.mem_singleton.mp new
            rw [← Bool.not_eq_true]
            intro isOwn
            obtain ⟨index, rfl, isPosted, handled⟩ := own_of_receive received isOwn
            obtain ⟨isBridged, isOther, isElse, isText, _⟩ := handleMessage_eq_some_iff.mp handled
            rcases recognised message isPosted isOwn isText isBridged with known | known
            · cases isOther.symm.trans known
            · cases isElse.symm.trans known

/-- One event lets no message of services be heard exactly when the filter recognises it. -/
theorem unheard_step_iff (sound : Sound env state) (unheard : Unheard state) {event : Event}
    (stepped : step env state event = some next) : Unheard next ↔ Recognised state event := by
  cases event with
  | discord signal =>
      obtain ⟨⟨after, job⟩, received, rfl⟩ := Option.map_eq_some_iff.mp stepped
      exact unheard_signal_iff sound unheard received
  | notify delivered =>
      cases stepped
      exact iff_of_true (unheard_notify sound unheard delivered) trivial
  | configure token name usePresence =>
      cases stepped
      refine iff_of_true ?_ trivial
      cases restarted : restarts state token usePresence with
      | false =>
          have works := @works_configure env state sound token name usePresence restarted
          exact unheard.of_same works.mailbox works.relayed
      | true =>
          obtain ⟨-, -, mailbox, -, -, -, relayed⟩ :=
            @configure_of_restarts env state token name usePresence restarted
          exact unheard.of_same mailbox relayed
  | relay | relayEvent | add | set | del | load | update | bridgesChanged | setTime =>
      have works : Works env state next := by
        refine works_step sound stepped ?_ ?_ ?_
        · exact fun _ isEvent => by cases isEvent
        · exact fun _ isEvent => by cases isEvent
        · exact fun _ _ _ isEvent => by cases isEvent
      exact iff_of_true (unheard.of_same works.mailbox works.relayed) trivial

/-! ## Runs -/

theorem always_unheard_iff (env : Env) (curTime : Int) (events : List Event) :
    Always (step env) Unheard (State.initial curTime) events ↔
      EachStep (step env) Recognised (State.initial curTime) events :=
  always_iff_eachStep (Sound env) (fun sound stepped => sound.step stepped)
    (fun sound unheard stepped => unheard_step_iff sound unheard stepped)
    (sound_initial env curTime)
    ⟨fun _ mem => (List.not_mem_nil mem).elim, fun _ _ _ mem => (List.not_mem_nil mem).elim⟩ events

/-- In a run whose echoes are recognised no message that services posted is relayed to IRC. -/
theorem always_silent (env : Env) (curTime : Int) (events : List Event)
    (recognised : EachStep (step env) Recognised (State.initial curTime) events) :
    Always (step env) Silent (State.initial curTime) events :=
  ((always_unheard_iff env curTime events).mpr recognised).imp fun _ unheard => unheard.silent

/-- A webhook is adopted, and a line is posted through it. -/
def posting : List Event :=
  opening ++ [.discord (.answer 0 (.webhooks [⟨ascii "5", ascii "k", ascii "n"⟩])), .notify true,
    .relay (ascii "#a") (ascii "hi") [],
    .discord (.accept 0 ⟨ascii "9", ascii "2", [], ascii "1"⟩)]

/-- The echo of a message that was posted through the webhook that is still in use. -/
theorem always_silent_posting :
    Always (step .lenient) Silent (State.initial 0)
      (posting ++ [.discord (.echo 0 false), .notify true]) :=
  always_silent .lenient 0 _ (by decide +kernel)

/-- The webhook is replaced because of a new name before the echo comes. -/
theorem not_silent_replaced :
    ¬Always (step .lenient) Silent (State.initial 0)
      (posting ++ [.configure (ascii "t") (ascii "m") false, .discord (.echo 0 false),
        .notify true]) := by
  intro always
  have heard : (run (step .lenient) (State.initial 0)
      (posting ++ [.configure (ascii "t") (ascii "m") false, .discord (.echo 0 false),
        .notify true])).any (fun final => final.relayed.any fun message => message.own) = true := by
    decide +kernel
  obtain ⟨final, reached, isHeard⟩ := (Option.any_eq_true _ _).mp heard
  obtain ⟨message, mem, isOwn⟩ := List.any_eq_true.mp isHeard
  cases (always.of_run reached message mem).symm.trans isOwn

end Anope.Discord
