import Anope.Bridge.Discord.Steps

/-!
# Bridges that wait for an endpoint

`endpoint_pending` keeps a second request from being made while one is under way, so a bridge that
waits for a completion which never comes has no endpoint for good.  A bridge is pursued when its
completion is still in flight or queued.  Two things lose completions: a `Post` on a full mailbox
pushes the oldest job out, and a cluster that is stopped takes the calls in flight with it, while
the flags are reset only when a new one starts.
-/

namespace Anope.Discord

open Library.Run Anope.Text

variable {env : Env} {state before middle after next : State}

/-- Every bridge that waits has its completion under way. -/
def Pursued (state : State) : Prop :=
  ∀ bridge ∈ state.bridges, bridge.endpointPending = true → bridge.setup ∈ state.setups

/-- A bridge waits for this completion. -/
def Awaited (state : State) (setup : Nat × Str) : Prop :=
  ∃ bridge ∈ state.bridges, bridge.endpointPending = true ∧ bridge.setup = setup

/-- The events that lose no completion which a bridge waits for: a job that is posted pushes none
out, and when the cluster is restarted every bridge that waits either has its completion queued or
is of the protocol, with a token to start the next cluster with. -/
def Reliable (env : Env) (state : State) : Event → Prop
  | .discord signal => ∀ after job, receive state signal = some (after, job) →
      ∀ setup, state.lost job = some setup → ¬Awaited state setup
  | .configure token _ usePresence => restarts state token usePresence = true →
      ∀ bridge ∈ state.bridges, bridge.endpointPending = true →
        token ≠ [] ∧ isDiscord env bridge = true ∨ bridge.setup ∈ state.queued
  | _ => True

theorem Works.pursued (works : Works env before after) (pursued : Pursued before) :
    Pursued after := by
  intro bridge mem pending
  rcases works.pending bridge mem pending with under | ⟨old, isOld, waits, same⟩
  · exact under
  · exact works.setups _ (same ▸ pursued old isOld waits)

/-! ## Jobs -/

/-- A bridge that waited for this completion waits for one that is under way. -/
def Settled (setup : Nat × Str) (state : State) : Prop :=
  ∀ bridge ∈ state.bridges, bridge.endpointPending = true → bridge.setup = setup →
    bridge.setup ∈ state.setups

/-- No bridge with this key waits. -/
def Idle (key : Str) (state : State) : Prop :=
  ∀ bridge ∈ state.bridges, bridge.ircChannel = key → bridge.endpointPending = false

theorem Idle.settled {key : Str} (idle : Idle key middle) (works : Works env middle after)
    (number : Nat) : Settled (number, key) after := by
  intro bridge mem pending isSetup
  rcases works.pending bridge mem pending with under | ⟨old, isOld, waits, same⟩
  · exact under
  · have isKey : old.ircChannel = key := congrArg Prod.snd (same.trans isSetup)
    rw [idle old isOld isKey] at waits
    cases waits

theorem idle_of_none {key : Str} (none : findIrc env state key = none) : Idle key state := by
  intro bridge mem isKey
  exact absurd (isKey ▸ equalsCi_refl _ _) (not_equalsCi_of_findIrc none mem)

theorem idle_modifyBridge (sound : Sound env state) {key : Str} {found : Bridge}
    (isFound : findIrc env state key = some found) {change : Bridge → Bridge}
    (same : ∀ bridge, ((change bridge).id, (change bridge).ircChannel) =
      (bridge.id, bridge.ircChannel))
    (cleared : ∀ bridge, (change bridge).endpointPending = false) :
    Idle key (state.modifyBridge found.id change) := by
  intro bridge mem isKey
  have names : (state.modifyBridge found.id change).names = state.names :=
    map_modifyBridge _ same found.id
  have isName : (bridge.id, bridge.ircChannel) ∈ state.names := names ▸ mem_names mem
  refine not_pending_modifyBridge cleared mem (sound.id_of_findIrc isFound isName ?_)
  rw [isKey]
  exact equalsCi_refl _ _

theorem idle_onWebhookFailed (sound : Sound env state) (key : Str) :
    Idle key (onWebhookFailed env key state) := by
  rw [onWebhookFailed]
  cases isFound : findIrc env state key with
  | none => exact idle_of_none isFound
  | some bridge => exact idle_modifyBridge sound isFound (fun _ => rfl) fun _ => rfl

theorem settled_onWebhookFailed (sound : Sound env state) (number : Nat) (key : Str) :
    Settled (number, key) (onWebhookFailed env key state) :=
  (idle_onWebhookFailed sound key).settled (.refl (works_onWebhookFailed sound key).sound) number

/-- The guard that is released is set again only with a new request. -/
theorem settled_releaseWebhook (sound : Sound env state) (number : Nat) {key : Str}
    {bridge : Bridge} (isFound : findIrc env state key = some bridge) :
    Settled (number, key) (releaseWebhook env bridge.id state) := by
  have released := @works_modifyBridge_of_cleared env state sound
    (fun bridge => { bridge with endpointPending := false }) bridge.id (fun _ => rfl) fun _ => rfl
  have idle : Idle key (state.modifyBridge bridge.id fun bridge =>
      { bridge with endpointPending := false }) :=
    idle_modifyBridge sound isFound (fun _ => rfl) fun _ => rfl
  exact idle.settled (works_ensureWebhook released.sound bridge.id) number

theorem settled_createWebhook (sound : Sound env state) (number : Nat) (key channel : Str) :
    Settled (number, key) (createWebhook env number key channel state) := by
  rw [createWebhook]
  cases isFound : findIrc env state key with
  | none => exact (idle_of_none isFound).settled (.refl sound) number
  | some bridge =>
      dsimp only
      split
      · exact settled_releaseWebhook sound number isFound
      · split
        · exact settled_onWebhookFailed sound number key
        · split
          · exact settled_onWebhookFailed sound number key
          · -- the listing goes on as a creation with the same number
            intro other _ _ isSetup
            rw [isSetup]
            exact List.mem_append_left _ (List.mem_filterMap.mpr
              ⟨.createWebhook number key channel bridge.foreignChannel state.webhookName,
                List.mem_append_right _ (List.mem_singleton.mpr rfl), rfl⟩)

theorem settled_onWebhookReady (sound : Sound env state) (number : Nat)
    (key channel id token : Str) :
    Settled (number, key) (onWebhookReady env key channel id token state) := by
  rw [onWebhookReady]
  cases isFound : findIrc env state key with
  | none => exact (idle_of_none isFound).settled (.refl sound) number
  | some bridge =>
      dsimp only
      split
      · exact settled_releaseWebhook sound number isFound
      · have ready := @idle_modifyBridge env state sound key bridge isFound (fun bridge =>
          { bridge with
            endpointPending := false
            endpointRetryAt := 0
            endpointId := id
            endpointToken := token }) (fun _ => rfl) fun _ => rfl
        intro other mem pending isSetup
        have isKey : other.ircChannel = key := congrArg Prod.snd isSetup
        rw [ready other mem isKey] at pending
        cases pending

theorem settled_runJob (sound : Sound env state) {job : Job} (delivered : Bool)
    {setup : Nat × Str} (isSetup : job.setup = some setup) :
    Settled setup (runJob env delivered job state) := by
  cases job with
  | onWebhookReady number key channel id token =>
      cases isSetup
      exact settled_onWebhookReady sound number key channel id token
  | onWebhookFailed number key =>
      cases isSetup
      exact settled_onWebhookFailed sound number key
  | createWebhook number key channel =>
      cases isSetup
      exact settled_createWebhook sound number key channel
  | onWebhookSendFailed key status through => cases isSetup
  | relayToIrc message channel edit => cases isSetup
  | onReady => cases isSetup
  | onStopped => cases isSetup
  | other => cases isSetup

/-- A turn of `OnNotify` settles the completion that it takes. -/
theorem pursued_notify (sound : Sound env state) (pursued : Pursued state) (delivered : Bool) :
    Pursued (notify env delivered state) := by
  cases isQueued : state.mailbox.jobs with
  | nil =>
      rw [notify_of_empty delivered isQueued]
      exact pursued
  | cons job jobs =>
      rw [notify_of_cons delivered isQueued]
      obtain ⟨left, perm⟩ := sound_left sound isQueued
      have under {setup : Nat × Str} (mem : setup ∈ state.setups) :
          job.setup = some setup ∨ setup ∈ (state.left jobs).setups := by
        rcases List.mem_append.mp (perm.mem_iff.mpr mem) with taken | stays
        · exact .inl (Option.mem_toList.mp taken)
        · exact .inr stays
      by_cases isRelay : ∃ message channel edit, job = .relayToIrc message channel edit
      · obtain ⟨message, channel, edit, rfl⟩ := isRelay
        have stays : Pursued (state.left jobs) := fun bridge mem pending =>
          (under (pursued bridge mem pending)).resolve_left fun isSetup => by cases isSetup
        rw [runJob]
        rcases @relayToIrc_cases env (state.left jobs) message channel edit delivered with
          same | sent
        · rw [same]
          exact stays
        · rw [sent]
          exact stays
      · push Not at isRelay
        have fresh := @fresh_of_perm env state (state.left jobs) sound rfl job.setup perm
        have works := works_runJob left delivered (fun _ => fresh) isRelay
        intro bridge mem pending
        rcases works.pending bridge mem pending with isUnder | ⟨old, isOld, waits, same⟩
        · exact isUnder
        · rcases under (pursued old isOld waits) with isSetup | stays
          · exact settled_runJob left delivered isSetup bridge mem pending same.symm
          · exact works.setups _ (same ▸ stays)

/-! ## Completions that are lost -/

/-- A signal leaves every bridge pursued exactly when it pushes out no completion that is
awaited. -/
theorem pursued_signal_iff (sound : Sound env state) (pursued : Pursued state) {signal : Signal}
    {job : Option Job} (received : receive state signal = some (after, job)) :
    Pursued (after.postAny job) ↔ ∀ setup, state.lost job = some setup → ¬Awaited state setup := by
  have perm := signal_perm sound received
  obtain ⟨-, bridges, -⟩ := signal_keeps sound received
  constructor
  · rintro kept setup isLost ⟨bridge, mem, pending, isSetup⟩
    have numbers := (perm.map Prod.fst).nodup_iff.mpr sound.numbers
    rw [isLost, Option.toList_some, List.singleton_append, List.map_cons, List.nodup_cons]
      at numbers
    have under := kept bridge (bridges ▸ mem) pending
    exact numbers.1 (isSetup ▸ List.mem_map_of_mem under)
  · intro spared bridge mem pending
    rw [bridges] at mem
    rcases List.mem_append.mp (perm.mem_iff.mpr (pursued bridge mem pending)) with gone | under
    · exact absurd ⟨bridge, mem, pending, rfl⟩ (spared _ (Option.mem_toList.mp gone))
    · exact under

/-- A restart leaves every bridge pursued exactly when those that go on waiting have their
completions queued. -/
theorem pursued_restart_iff {token name : Str} {usePresence : Bool}
    (restarted : restarts state token usePresence = true) :
    Pursued (configure env token name usePresence state) ↔
      ∀ bridge ∈ state.bridges, bridge.endpointPending = true →
        token ≠ [] ∧ isDiscord env bridge = true ∨ bridge.setup ∈ state.queued := by
  obtain ⟨bridges, inFlight, mailbox, -⟩ :=
    @configure_of_restarts env state token name usePresence restarted
  have setups : (configure env token name usePresence state).setups = state.queued := by
    rw [State.setups, State.queued, State.queued, inFlight, mailbox]
    rfl
  rw [Pursued, bridges, setups]
  by_cases none : token = []
  · rw [if_pos none]
    refine forall_congr' fun bridge => forall_congr' fun _ => forall_congr' fun _ => ?_
    rw [or_iff_right fun started => started.1 none]
  · rw [if_neg none, List.forall_mem_map]
    refine forall_congr' fun bridge => forall_congr' fun _ => ?_
    cases isDiscord env bridge with
    | false =>
        rw [if_neg Bool.false_ne_true]
        exact forall_congr' fun _ => (or_iff_right fun started => Bool.false_ne_true started.2).symm
    | true =>
        rw [if_pos rfl]
        exact iff_of_true (fun pending => by cases pending) fun _ => .inl ⟨none, rfl⟩

/-- One event leaves every bridge pursued exactly when it is reliable. -/
theorem pursued_step_iff (sound : Sound env state) (pursued : Pursued state) {event : Event}
    (stepped : step env state event = some next) : Pursued next ↔ Reliable env state event := by
  cases event with
  | discord signal =>
      obtain ⟨⟨after, job⟩, received, rfl⟩ := Option.map_eq_some_iff.mp stepped
      rw [pursued_signal_iff sound pursued received]
      constructor
      · intro spared other other' isReceived
        cases received.symm.trans isReceived
        exact spared
      · exact fun reliable => reliable after job received
  | notify delivered =>
      cases stepped
      exact iff_of_true (pursued_notify sound pursued delivered) trivial
  | configure token name usePresence =>
      cases stepped
      cases restarted : restarts state token usePresence with
      | false =>
          refine iff_of_true ((works_configure sound restarted).pursued pursued) fun other => ?_
          cases restarted.symm.trans other
      | true =>
          rw [pursued_restart_iff restarted, Reliable, forall_prop_of_true restarted]
  | relay | relayEvent | add | set | del | load | update | bridgesChanged | setTime =>
      refine iff_of_true (Works.pursued (works_step sound stepped ?_ ?_ ?_) pursued) trivial
      · exact fun _ isEvent => by cases isEvent
      · exact fun _ isEvent => by cases isEvent
      · exact fun _ _ _ isEvent => by cases isEvent

/-- In every run, bridges that wait have their completions under way exactly when every event is
reliable. -/
theorem always_pursued_iff (env : Env) (curTime : Int) (events : List Event) :
    Always (step env) Pursued (State.initial curTime) events ↔
      EachStep (step env) (Reliable env) (State.initial curTime) events :=
  always_iff_eachStep (Sound env) (fun sound stepped => sound.step stepped)
    (fun sound pursued stepped => pursued_step_iff sound pursued stepped)
    (sound_initial env curTime) (fun _ mem => (List.not_mem_nil mem).elim) events

/-! ## Bridges that are stuck -/

theorem not_pursued {state : State}
    (waits : state.bridges.any (fun bridge => bridge.endpointPending) = true)
    (none : state.setups = []) : ¬Pursued state := by
  intro pursued
  obtain ⟨bridge, mem, pending⟩ := List.any_eq_true.mp waits
  have under := pursued bridge mem pending
  rw [none] at under
  exact List.not_mem_nil under

/-- Jobs that fit into the mailbox are queued behind the others. -/
theorem run_other {account : Str} (count : Nat) (isUp : state.cluster = some account)
    (owner : state.mailbox.owner = true)
    (room : state.mailbox.jobs.length + count ≤ state.mailbox.capacity) :
    run (step env) state (List.replicate count (.discord .other)) =
      some (state.left (state.mailbox.jobs ++ List.replicate count .other)) := by
  induction count generalizing state with
  | zero => rw [List.replicate_zero, List.replicate_zero, List.append_nil]; rfl
  | succ count ih =>
      have posted : step env state (.discord .other) =
          some (state.left (state.mailbox.jobs ++ [.other])) := by
        have fits : ¬state.mailbox.capacity ≤ state.mailbox.jobs.length := by omega
        rw [step, receive, isUp]
        change some (state.post .other) = _
        rw [State.post, Anope.Bridge.Mailbox.post, if_pos owner, if_neg fits]
        rfl
      have room' : (state.left (state.mailbox.jobs ++ [.other])).mailbox.jobs.length + count ≤
          state.mailbox.capacity := by
        rw [State.left, List.length_append, List.length_singleton]
        omega
      have rest := @ih (state.left (state.mailbox.jobs ++ [.other])) isUp owner room'
      rw [List.replicate_succ, run, posted, Option.bind_some, rest, State.left, State.left,
        State.left, List.append_assoc, List.singleton_append, ← List.replicate_succ]

/-- Jobs that fill the mailbox and one more push out the only job before them. -/
theorem run_overflow {account : Str} {job : Job} {total : Nat}
    (isUp : state.cluster = some account) (owner : state.mailbox.owner = true)
    (alone : state.mailbox.jobs = [job]) (positive : 0 < total)
    (capacity : state.mailbox.capacity = total) (inFlight : state.inFlight = []) :
    ∃ final, run (step env) state (List.replicate total (.discord .other)) = some final ∧
      final.bridges = state.bridges ∧ final.setups = [] := by
  obtain ⟨count, rfl⟩ := Nat.exists_eq_add_one.mpr positive
  have room : state.mailbox.jobs.length + count ≤ state.mailbox.capacity := by
    rw [alone, capacity, List.length_singleton, Nat.add_comm]
  have full : (state.left (state.mailbox.jobs ++ List.replicate count .other)).mailbox.capacity ≤
      (state.left (state.mailbox.jobs ++ List.replicate count .other)).mailbox.jobs.length := by
    rw [State.left, List.length_append, List.length_replicate, alone, capacity,
      List.length_singleton, Nat.add_comm]
  refine ⟨(state.left (state.mailbox.jobs ++ List.replicate count .other)).post .other, ?_, ?_, ?_⟩
  · have last : step env (state.left (state.mailbox.jobs ++ List.replicate count .other))
        (.discord .other) =
          some ((state.left (state.mailbox.jobs ++ List.replicate count .other)).post .other) := by
      rw [step, receive, State.left, isUp]
      rfl
    rw [List.replicate_succ', run_append, run_other count isUp owner room, Option.bind_some, run,
      last]
    rfl
  · rw [State.post, State.left]
  · have others : (List.replicate count Job.other ++ [Job.other]).filterMap Job.setup = [] := by
      rw [← List.replicate_succ', List.filterMap_eq_nil_iff]
      intro job isOther
      rw [List.eq_of_mem_replicate isOther]
      rfl
    have queued : ((state.left (state.mailbox.jobs ++ List.replicate count .other)).post
        .other).mailbox.jobs = List.replicate count .other ++ [.other] := by
      have pushed := @Anope.Bridge.Mailbox.post_of_full _
        (state.left (state.mailbox.jobs ++ List.replicate count .other)).mailbox Job.other owner
        full
      rw [State.post, pushed, State.left, alone]
      rfl
    rw [State.setups, State.queued, queued, others, State.post, State.left, inFlight]
    rfl

/-- A bridge is stuck when the cluster is stopped for want of a token while its listing is in
flight, and when its completion is the oldest job of a mailbox that overflows. -/
theorem not_always_pursued :
    (¬Always (step .lenient) Pursued (State.initial 0)
      (opening ++ [.configure [] (ascii "n") false])) ∧
    ¬Always (step .lenient) Pursued (State.initial 0)
      (opening ++ [.discord (.answer 0 (.error 500))] ++
        List.replicate 4096 (.discord .other)) := by
  constructor
  · intro always
    have stuck : (run (step .lenient) (State.initial 0)
        (opening ++ [.configure [] (ascii "n") false])).any (fun final =>
          final.bridges.any (fun bridge => bridge.endpointPending) && final.setups.isEmpty) =
        true := by decide +kernel
    obtain ⟨final, reached, isStuck⟩ := (Option.any_eq_true _ _).mp stuck
    rw [Bool.and_eq_true, List.isEmpty_iff] at isStuck
    exact not_pursued isStuck.1 isStuck.2 (always.of_run reached)
  · intro always
    have answered : (run (step .lenient) (State.initial 0)
        (opening ++ [.discord (.answer 0 (.error 500))])).any (fun middle =>
          middle.bridges.any (fun bridge => bridge.endpointPending) && middle.inFlight.isEmpty &&
            middle.mailbox.owner && decide (middle.cluster = some (ascii "t")) &&
            decide (middle.mailbox.capacity = 4096) && decide (middle.mailbox.jobs.length = 1)) =
        true := by decide +kernel
    obtain ⟨middle, reached, facts⟩ := (Option.any_eq_true _ _).mp answered
    simp only [Bool.and_eq_true, decide_eq_true_eq, List.isEmpty_iff] at facts
    obtain ⟨⟨⟨⟨⟨waits, inFlight⟩, owner⟩, isUp⟩, capacity⟩, length⟩ := facts
    obtain ⟨job, alone⟩ := List.length_eq_one_iff.mp length
    obtain ⟨final, flooded, bridges, none⟩ := @run_overflow .lenient middle _ job 4096 isUp owner
      alone (by decide) capacity inFlight
    refine not_pursued (bridges ▸ waits) none (always.of_run ?_)
    rw [run_append, reached, Option.bind_some]
    exact flooded

end Anope.Discord
