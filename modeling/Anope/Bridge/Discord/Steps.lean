import Anope.Bridge.Discord.Sound
import Anope.Library.Keyed

/-!
# Events of the Discord side

What each event does to the bridges and to the completions under way.  Commands and rows of the
database work as services do; a signal from Discord hands a completion over, and may push another
one out of the mailbox; a turn of `OnNotify` takes one and runs it; a restart of the cluster
forgets those in flight.
-/

namespace Anope.Discord

open Library.Run Anope.Text

variable {env : Env} {state before middle after next : State}

/-! ## Bridges that come and go -/

theorem works_addBridge (sound : Sound env state) {bridge : Bridge}
    (free : findIrc env state bridge.ircChannel = none) (idle : bridge.endpointPending = false) :
    Works env state (addBridge env bridge state) := by
  have added : Works env state { state with
      bridges := state.bridges ++ [{ bridge with id := state.nextBridge }]
      nextBridge := state.nextBridge + 1 } := by
    have unlike {name : Nat × Str} (mem : name ∈ state.names) :
        ¬env.casemap.equalsCi name.2 bridge.ircChannel = true := by
      obtain ⟨other, isOther, rfl⟩ := List.mem_map.mp mem
      exact not_equalsCi_of_findIrc free isOther
    have names : ({ state with
        bridges := state.bridges ++ [{ bridge with id := state.nextBridge }]
        nextBridge := state.nextBridge + 1 } : State).names =
        state.names ++ [(state.nextBridge, bridge.ircChannel)] := List.map_append
    have numbered := @Library.Keyed.numbered_concat _ state.names Prod.fst _
      (state.nextBridge, bridge.ircChannel) sound.ids sound.older rfl
    rw [← names] at numbered
    refine ⟨⟨numbered.1, numbered.2, ?_, sound.numbers, sound.sent, sound.owner, sound.capacity⟩,
      rfl, rfl, rfl, fun _ => id, ?_⟩
    · rw [names]
      intro left isLeft right isRight same
      rcases List.mem_append.mp isLeft with isLeft | isLeft
      · rcases List.mem_append.mp isRight with isRight | isRight
        · exact sound.channels left isLeft right isRight same
        · rw [List.mem_singleton.mp isRight] at same
          exact absurd same (unlike isLeft)
      · rw [List.mem_singleton.mp isLeft] at same ⊢
        rcases List.mem_append.mp isRight with isRight | isRight
        · rw [Casemap.equalsCi_iff] at same
          exact absurd ((Casemap.equalsCi_iff _ _ _).mpr same.symm) (unlike isRight)
        · rw [List.mem_singleton.mp isRight]
    · intro other mem pending
      rcases List.mem_append.mp mem with old | new
      · exact .inr ⟨other, old, pending, rfl⟩
      · rw [List.mem_singleton.mp new] at pending
        cases pending.symm.trans idle
  exact added.trans (works_onBridgesChanged added.sound)

theorem works_dropBridge (sound : Sound env state) (bridge : Bridge) :
    Works env state (dropBridge env bridge state) := by
  have erased : Works env state { state with
      bridges := state.bridges.filter fun other => other.id ≠ bridge.id } :=
    ⟨sound.of_fewer (List.filter_sublist.map _) rfl rfl [] (.refl _) rfl rfl, rfl, rfl, rfl,
      fun _ => id, fun other mem pending => .inr ⟨other, List.mem_of_mem_filter mem, pending, rfl⟩⟩
  rw [dropBridge]
  split
  · have removed := works_onBridgeRemoved erased.sound bridge
    exact (erased.trans removed).trans (works_onBridgesChanged removed.sound)
  · exact erased.trans (works_onBridgesChanged erased.sound)

/-- A change of a bridge that leaves its requests alone, and then `BridgesChanged`. -/
theorem works_changeBridge (sound : Sound env state) {change : Bridge → Bridge} (id : Nat)
    (same : ∀ bridge, (change bridge).id = bridge.id ∧ (change bridge).setup = bridge.setup ∧
      (change bridge).endpointPending = bridge.endpointPending) :
    Works env state (onBridgesChanged env (state.modifyBridge id change)) := by
  have changed : Works env state (state.modifyBridge id change) := by
    refine works_modifyBridge sound id (fun bridge => ?_) fun bridge _ _ pending => .inr ?_
    · obtain ⟨isId, isSetup, _⟩ := same bridge
      have isChannel : (change bridge).ircChannel = bridge.ircChannel := congrArg Prod.snd isSetup
      rw [isId, isChannel]
    · obtain ⟨_, isSetup, isPending⟩ := same bridge
      exact ⟨isPending.symm.trans pending, isSetup.symm⟩
  exact changed.trans (works_onBridgesChanged changed.sound)

theorem works_add (sound : Sound env state) (ircChannel space foreignChannel : Str) :
    Works env state (add env ircChannel space foreignChannel state) := by
  rw [add]
  split
  case isTrue accepted =>
    simp only [Bool.and_eq_true, Option.isNone_iff_eq_none] at accepted
    exact works_addBridge sound accepted.1.2 rfl
  case isFalse => exact .refl sound

theorem works_set (sound : Sound env state) (ircChannel space foreignChannel : Str) :
    Works env state (set env ircChannel space foreignChannel state) := by
  rw [set]
  cases findIrc env state ircChannel with
  | none => exact .refl sound
  | some bridge =>
      dsimp only
      split
      · rw [point]
        split
        · have removed := works_onBridgeRemoved sound bridge
          exact removed.trans (works_changeBridge removed.sound bridge.id fun _ => ⟨rfl, rfl, rfl⟩)
        · exact works_changeBridge sound bridge.id fun _ => ⟨rfl, rfl, rfl⟩
      · exact .refl sound

theorem works_del (sound : Sound env state) (ircChannel : Str) :
    Works env state (del env ircChannel state) := by
  rw [del]
  cases findIrc env state ircChannel with
  | none => exact .refl sound
  | some bridge => exact works_dropBridge sound bridge

theorem works_load (sound : Sound env state) (ircChannel : Str) (row : Row) :
    Works env state (load env ircChannel row state) := by
  rw [load]
  split
  · exact .refl sound
  · split
    · exact .refl sound
    case isFalse free => exact works_addBridge sound (Option.not_isSome_iff_eq_none.mp free) rfl

theorem works_update (sound : Sound env state) (id : Nat) (row : Row) :
    Works env state (update env id row state) := by
  rw [update]
  split
  · exact .refl sound
  · exact works_changeBridge sound id fun _ => ⟨rfl, rfl, rfl⟩

/-! ## The connection -/

/-- `Configure` without a restart. -/
theorem works_configure (sound : Sound env state) {token name : Str} {usePresence : Bool}
    (stays : restarts state token usePresence = false) :
    Works env state (configure env token name usePresence state) := by
  have named : Works env state { state with webhookName := name } :=
    works_of_bridges sound rfl rfl rfl rfl rfl rfl rfl
  have started : (restarts { state with webhookName := name } token usePresence) = false := stays
  rw [configure]
  dsimp only
  rw [started, if_neg Bool.false_ne_true]
  split
  · have replaced := works_replaceWebhooks named.sound
    exact (named.trans replaced).trans (works_onBridgesChanged replaced.sound)
  · exact named.trans (works_onBridgesChanged named.sound)

/-- `Configure` with a restart: nothing is in flight, and a bridge of the protocol does not wait
when there is a token. -/
theorem configure_of_restarts {token name : Str} {usePresence : Bool}
    (restarted : restarts state token usePresence = true) :
    let next := configure env token name usePresence state
    next.bridges = (if token = [] then state.bridges else state.bridges.map fun bridge =>
        if isDiscord env bridge then { bridge with endpointPending := false } else bridge) ∧
      next.inFlight = [] ∧ next.mailbox = state.mailbox ∧ next.nextBridge = state.nextBridge ∧
      next.nextRequest = state.nextRequest ∧ next.posted = state.posted ∧
      next.relayed = state.relayed := by
  have started : (restarts { state with webhookName := name } token usePresence) = true := restarted
  rw [configure]
  dsimp only
  rw [started, if_pos rfl, startCluster, stopCluster]
  dsimp only
  rw [Option.isSome_none, if_neg Bool.false_ne_true]
  by_cases none : token = []
  · rw [if_pos none, if_pos none, State.isUp, onBridgesChanged]
    simp [refreshFilter]
  · rw [if_neg none, if_neg none, State.isUp, onBridgesChanged]
    simp [refreshFilter]

theorem sound_configure (sound : Sound env state) (token name : Str) (usePresence : Bool) :
    Sound env (configure env token name usePresence state) := by
  cases restarted : restarts state token usePresence with
  | false => exact (works_configure sound restarted).sound
  | true =>
      obtain ⟨bridges, inFlight, mailbox, nextBridge, nextRequest, -⟩ :=
        @configure_of_restarts env state token name usePresence restarted
      have names : (configure env token name usePresence state).names = state.names := by
        rw [State.names, bridges]
        split
        · rfl
        · rw [List.map_map]
          refine List.map_congr_left fun bridge _ => ?_
          rw [Function.comp_apply]
          split
          · rfl
          · rfl
      refine sound.of_fewer (names ▸ List.Sublist.refl _) nextBridge nextRequest
        (state.inFlight.filterMap Request.setup) ?_ (congrArg _ mailbox) (congrArg _ mailbox)
      rw [State.setups, State.setups, State.queued, State.queued, inFlight, mailbox]
      exact .refl _

/-! ## Jobs -/

theorem relayToIrc_cases (message : Message) (channel : Str) (edit delivered : Bool) :
    relayToIrc env message channel edit delivered state = state ∨
      relayToIrc env message channel edit delivered state =
        { state with relayed := state.relayed ++ [message] } := by
  rw [relayToIrc]
  cases findRemote env state (ascii "discord") channel with
  | none => exact .inl rfl
  | some bridge =>
      dsimp only
      split
      · exact .inl rfl
      · split
        · exact .inl rfl
        · split
          · exact .inl rfl
          · split
            · exact .inr rfl
            · exact .inl rfl

/-- A job that does not relay a message works as services do. -/
theorem works_runJob (sound : Sound env state) {job : Job} (delivered : Bool)
    (fresh : ∀ setup, job.setup = some setup →
      setup.1 < state.nextRequest ∧ ∀ other ∈ state.setups, other.1 ≠ setup.1)
    (isOther : ∀ message channel edit, job ≠ .relayToIrc message channel edit) :
    Works env state (runJob env delivered job state) := by
  cases job with
  | onWebhookReady number key channel id token =>
      exact works_onWebhookReady sound key channel id token
  | onWebhookFailed number key => exact works_onWebhookFailed sound key
  | createWebhook number key channel =>
      obtain ⟨sent, unlike⟩ := fresh (number, key) rfl
      exact works_createWebhook sound key channel sent unlike
  | onWebhookSendFailed key status through => exact works_onWebhookSendFailed sound key status
  | relayToIrc message channel edit => exact absurd rfl (isOther message channel edit)
  | onReady => exact works_onReady sound
  | onStopped => exact works_of_bridges sound rfl rfl rfl rfl rfl rfl rfl
  | other => exact .refl sound

/-- The state with these jobs left. -/
def State.left (jobs : List Job) (state : State) : State :=
  { state with mailbox := { state.mailbox with jobs } }

/-- A job that is taken from the mailbox. -/
theorem sound_left (sound : Sound env state) {job : Job} {jobs : List Job}
    (isQueued : state.mailbox.jobs = job :: jobs) :
    Sound env (state.left jobs) ∧
      (job.setup.toList ++ (state.left jobs).setups).Perm state.setups := by
  have perm : (job.setup.toList ++ (state.left jobs).setups).Perm state.setups := by
    have queued : state.queued = job.setup.toList ++ jobs.filterMap Job.setup := by
      rw [State.queued, isQueued]
      cases isSetup : job.setup with
      | none => rw [List.filterMap_cons_none isSetup]; rfl
      | some setup => rw [List.filterMap_cons_some isSetup]; rfl
    rw [State.setups, State.setups, queued, State.queued, State.left]
    dsimp only
    rw [← List.append_assoc, ← List.append_assoc]
    exact List.perm_append_comm.append_right _
  exact ⟨sound.of_fewer (.refl _) rfl rfl _ perm rfl rfl, perm⟩

/-- The completion of a job that is taken is not under way any more. -/
theorem fresh_of_perm (sound : Sound env before)
    (nextRequest : after.nextRequest = before.nextRequest)
    {gone : Option (Nat × Str)} (perm : (gone.toList ++ after.setups).Perm before.setups)
    {setup : Nat × Str} (isGone : gone = some setup) :
    setup.1 < after.nextRequest ∧ ∀ other ∈ after.setups, other.1 ≠ setup.1 := by
  subst isGone
  have numbers := (perm.map Prod.fst).nodup_iff.mpr sound.numbers
  rw [Option.toList_some, List.singleton_append, List.map_cons, List.nodup_cons] at numbers
  refine ⟨nextRequest ▸ sound.sent setup (perm.subset List.mem_cons_self), ?_⟩
  exact fun other under same => numbers.1 (same ▸ List.mem_map_of_mem under)

theorem notify_of_empty (delivered : Bool) (isEmpty : state.mailbox.jobs = []) :
    notify env delivered state =
      { state with mailbox := { state.mailbox with dropped := 0 } } := by
  rw [notify, Anope.Bridge.Mailbox.pop, isEmpty]
  rfl

theorem notify_of_cons (delivered : Bool) {job : Job} {jobs : List Job}
    (isQueued : state.mailbox.jobs = job :: jobs) :
    notify env delivered state = runJob env delivered job (state.left jobs) := by
  rw [notify, Anope.Bridge.Mailbox.pop, isQueued]
  rfl

theorem sound_notify (sound : Sound env state) (delivered : Bool) :
    Sound env (notify env delivered state) := by
  cases isQueued : state.mailbox.jobs with
  | nil =>
      rw [notify_of_empty delivered isQueued]
      exact sound.of_fewer (.refl _) rfl rfl [] (.refl _) rfl rfl
  | cons job jobs =>
      rw [notify_of_cons delivered isQueued]
      obtain ⟨popped, perm⟩ := sound_left sound isQueued
      by_cases isRelay : ∃ message channel edit, job = .relayToIrc message channel edit
      · obtain ⟨message, channel, edit, rfl⟩ := isRelay
        rw [runJob]
        rcases @relayToIrc_cases env _ message channel edit delivered with same | sent
        · rw [same]
          exact popped
        · rw [sent]
          exact popped.of_fewer (.refl _) rfl rfl [] (.refl _) rfl rfl
      · push Not at isRelay
        have fresh := @fresh_of_perm env state (state.left jobs) sound rfl job.setup perm
        exact (works_runJob popped delivered (fun _ => fresh) isRelay).sound

/-! ## Signals -/

/-- The job that a `Post` pushes out of the mailbox. -/
def State.pushedOut (state : State) : Option Job :=
  if state.mailbox.capacity ≤ state.mailbox.jobs.length then state.mailbox.jobs.head? else none

theorem setup_handleMessage (filter : Filter) (message : Message) (edit : Bool) :
    (filter.handleMessage message edit).bind Job.setup = none := by
  rw [Filter.handleMessage]
  split
  · rfl
  · split
    · rfl
    · split
      · rfl
      · rfl

/-- A signal does not touch what services keep; the completion of a call goes over to the job. -/
theorem receive_keeps {signal : Signal} {job : Option Job}
    (received : receive state signal = some (after, job)) :
    after.bridges = state.bridges ∧ after.nextBridge = state.nextBridge ∧
      after.nextRequest = state.nextRequest ∧ after.mailbox = state.mailbox ∧
      after.relayed = state.relayed ∧
      ((job.bind Job.setup).toList ++ after.setups).Perm state.setups := by
  cases signal with
  | answer index reply =>
      obtain ⟨request, isRequest, isAfter⟩ := Option.map_eq_some_iff.mp received
      cases isAfter
      refine ⟨rfl, rfl, rfl, rfl, rfl, ?_⟩
      obtain ⟨inside, isRequest⟩ := List.getElem?_eq_some_iff.mp isRequest
      have perm := (List.getElem_cons_eraseIdx_perm inside).filterMap Request.setup
      rw [isRequest] at perm
      rw [setup_completed, State.setups, State.setups, State.queued, State.queued]
      rw [← List.append_assoc]
      refine List.Perm.append_right _ (List.Perm.trans ?_ perm)
      cases isSetup : request.setup with
      | none => rw [List.filterMap_cons_none isSetup]; exact .refl _
      | some setup => rw [List.filterMap_cons_some isSetup]; exact .refl _
  | accept index place =>
      obtain ⟨account, _, accepted⟩ := Option.bind_eq_some_iff.mp received
      obtain ⟨request, _, accepted⟩ := Option.bind_eq_some_iff.mp accepted
      obtain ⟨message, _, isAfter⟩ := Option.map_eq_some_iff.mp accepted
      cases isAfter
      exact ⟨rfl, rfl, rfl, rfl, rfl, .refl _⟩
  | echo index edit =>
      obtain ⟨account, _, accepted⟩ := Option.bind_eq_some_iff.mp received
      obtain ⟨message, _, isAfter⟩ := Option.map_eq_some_iff.mp accepted
      cases isAfter
      rw [setup_handleMessage]
      exact ⟨rfl, rfl, rfl, rfl, rfl, .refl _⟩
  | message message edit =>
      obtain ⟨account, _, isAfter⟩ := Option.map_eq_some_iff.mp received
      cases isAfter
      rw [setup_handleMessage]
      exact ⟨rfl, rfl, rfl, rfl, rfl, .refl _⟩
  | ready owner =>
      obtain ⟨account, _, isAfter⟩ := Option.map_eq_some_iff.mp received
      cases isAfter
      split
      · exact ⟨rfl, rfl, rfl, rfl, rfl, .refl _⟩
      · exact ⟨rfl, rfl, rfl, rfl, rfl, .refl _⟩
  | stopped =>
      obtain ⟨account, _, isAfter⟩ := Option.map_eq_some_iff.mp received
      cases isAfter
      exact ⟨rfl, rfl, rfl, rfl, rfl, .refl _⟩
  | other =>
      obtain ⟨account, _, isAfter⟩ := Option.map_eq_some_iff.mp received
      cases isAfter
      exact ⟨rfl, rfl, rfl, rfl, rfl, .refl _⟩

/-- `Post` of an attached mailbox. -/
theorem post_eq (owner : state.mailbox.owner = true) (job : Job) :
    ∃ dropped, state.post job = { state with
      mailbox := { state.mailbox with
        jobs := state.mailbox.jobs.drop state.pushedOut.toList.length ++ [job]
        dropped } } := by
  rw [State.post, Anope.Bridge.Mailbox.post, if_pos owner, State.pushedOut]
  split
  · refine ⟨state.mailbox.dropped + 1, ?_⟩
    cases state.mailbox.jobs with
    | nil => rfl
    | cons head rest => rfl
  · exact ⟨state.mailbox.dropped, rfl⟩

/-- A `Post` adds one completion, and may lose another. -/
theorem post_perm (owner : state.mailbox.owner = true) (job : Job) :
    ((state.pushedOut.bind Job.setup).toList ++ (state.post job).setups).Perm
      (job.setup.toList ++ state.setups) := by
  obtain ⟨dropped, isPosted⟩ := post_eq owner job
  have queued : (state.pushedOut.bind Job.setup).toList ++
      (state.mailbox.jobs.drop state.pushedOut.toList.length).filterMap Job.setup =
      state.queued := by
    rw [State.pushedOut, State.queued]
    split
    · cases state.mailbox.jobs with
      | nil => rfl
      | cons head rest =>
          rw [List.head?_cons, Option.bind_some, Option.toList_some, List.length_singleton,
            List.drop_one, List.tail_cons]
          cases isSetup : head.setup with
          | none => rw [List.filterMap_cons_none isSetup]; rfl
          | some setup => rw [List.filterMap_cons_some isSetup]; rfl
    · rfl
  have last : [job].filterMap Job.setup = job.setup.toList := by
    cases isSetup : job.setup with
    | none => rw [List.filterMap_cons_none isSetup]; rfl
    | some setup => rw [List.filterMap_cons_some isSetup]; rfl
  rw [isPosted, State.setups, State.setups, ← queued, State.queued]
  dsimp only
  rw [List.filterMap_append, last]
  generalize (state.pushedOut.bind Job.setup).toList = lost
  generalize state.inFlight.filterMap Request.setup = flying
  generalize (state.mailbox.jobs.drop _).filterMap Job.setup = kept
  generalize job.setup.toList = new
  calc
    lost ++ (flying ++ (kept ++ new)) = lost ++ flying ++ kept ++ new := by
      rw [List.append_assoc, List.append_assoc]
    List.Perm _ (new ++ (lost ++ flying ++ kept)) := List.perm_append_comm
    List.Perm _ (new ++ (flying ++ (lost ++ kept))) := by
      rw [← List.append_assoc flying]
      exact (List.perm_append_comm.append_right kept).append_left new

/-- The completion that is lost when a signal posts a job. -/
def State.lost (state : State) (job : Option Job) : Option (Nat × Str) :=
  job.bind fun _ => state.pushedOut.bind Job.setup

/-- A signal loses at most the completion that it pushes out. -/
theorem signal_perm (sound : Sound env state) {signal : Signal} {job : Option Job}
    (received : receive state signal = some (after, job)) :
    ((state.lost job).toList ++ (after.postAny job).setups).Perm state.setups := by
  obtain ⟨_, _, _, mailbox, _, perm⟩ := receive_keeps received
  cases job with
  | none => exact perm
  | some job =>
      have pushedOut : after.pushedOut = state.pushedOut := by
        rw [State.pushedOut, State.pushedOut, mailbox]
      have posted := post_perm (mailbox ▸ sound.owner) job
      rw [pushedOut] at posted
      exact posted.trans perm

/-- What a signal leaves of the bridges. -/
theorem signal_keeps (sound : Sound env state) {signal : Signal} {job : Option Job}
    (received : receive state signal = some (after, job)) :
    Sound env (after.postAny job) ∧ (after.postAny job).bridges = state.bridges ∧
      (after.postAny job).relayed = state.relayed := by
  obtain ⟨bridges, nextBridge, nextRequest, mailbox, relayed, _⟩ := receive_keeps received
  have perm := signal_perm sound received
  cases job with
  | none =>
      have names : (after.postAny none).names = state.names := by
        rw [State.postAny, State.names, bridges, State.names]
      exact ⟨sound.of_fewer (names ▸ List.Sublist.refl _) nextBridge nextRequest _ perm
        (congrArg _ mailbox) (congrArg _ mailbox), bridges, relayed⟩
  | some job =>
      obtain ⟨dropped, isPosted⟩ := post_eq (mailbox ▸ sound.owner) job
      rw [State.postAny] at perm ⊢
      have names : (after.post job).names = state.names := by
        rw [isPosted, State.names, bridges, State.names]
      refine ⟨sound.of_fewer (names ▸ List.Sublist.refl _) ?_ ?_ _ perm ?_ ?_, ?_, ?_⟩
      · rw [isPosted, nextBridge]
      · rw [isPosted, nextRequest]
      · rw [isPosted, mailbox]
      · rw [isPosted, mailbox]
      · rw [isPosted, bridges]
      · rw [isPosted, relayed]

/-! ## Runs -/

theorem sound_initial (env : Env) (curTime : Int) : Sound env (State.initial curTime) :=
  ⟨.nil, fun _ => (List.not_mem_nil · |>.elim), fun _ isLeft => (List.not_mem_nil isLeft).elim,
    .nil, fun _ => (List.not_mem_nil · |>.elim), rfl, rfl⟩

/-- What services do at an event that runs no job and does not come from Discord. -/
theorem works_step (sound : Sound env state) {event : Event}
    (stepped : step env state event = some next)
    (noJob : ∀ delivered, event ≠ .notify delivered) (noSignal : ∀ signal, event ≠ .discord signal)
    (noRestart : ∀ token name usePresence, event = .configure token name usePresence →
      restarts state token usePresence = false) : Works env state next := by
  cases event with
  | notify delivered => exact absurd rfl (noJob delivered)
  | discord signal => exact absurd rfl (noSignal signal)
  | configure token name usePresence =>
      cases stepped
      exact works_configure sound (noRestart token name usePresence rfl)
  | relay ircChannel text ircMsgid =>
      cases stepped
      exact works_withProtocol (fun bridge => works_relay sound bridge text ircMsgid) sound _
  | relayEvent ircChannel text =>
      cases stepped
      exact works_withProtocol (fun bridge => works_notice sound bridge text) sound _
  | add ircChannel space foreignChannel =>
      cases stepped
      exact works_add sound ircChannel space foreignChannel
  | set ircChannel space foreignChannel =>
      cases stepped
      exact works_set sound ircChannel space foreignChannel
  | del ircChannel =>
      cases stepped
      exact works_del sound ircChannel
  | load ircChannel row =>
      cases stepped
      exact works_load sound ircChannel row
  | update id row =>
      cases stepped
      exact works_update sound id row
  | bridgesChanged =>
      cases stepped
      exact works_onBridgesChanged sound
  | setTime curTime =>
      cases stepped
      exact works_of_bridges sound rfl rfl rfl rfl rfl rfl rfl

/-- A step to a state in which bridges and completions can be told apart. -/
theorem Sound.step (sound : Sound env state) {event : Event}
    (stepped : step env state event = some next) : Sound env next := by
  by_cases isJob : ∃ delivered, event = .notify delivered
  · obtain ⟨delivered, rfl⟩ := isJob
    cases stepped
    exact sound_notify sound delivered
  · by_cases isSignal : ∃ signal, event = .discord signal
    · obtain ⟨signal, rfl⟩ := isSignal
      obtain ⟨⟨after, job⟩, received, rfl⟩ := Option.map_eq_some_iff.mp stepped
      exact (signal_keeps sound received).1
    · push Not at isJob isSignal
      by_cases restarted : ∃ token name usePresence, event = .configure token name usePresence
      · obtain ⟨token, name, usePresence, rfl⟩ := restarted
        cases stepped
        exact sound_configure sound token name usePresence
      · refine (works_step sound stepped isJob isSignal
          fun token name usePresence isEvent => ?_).sound
        exact absurd ⟨token, name, usePresence, isEvent⟩ restarted

end Anope.Discord
