import Anope.Bridge.Discord.Steps

/-!
# Posts that fail

The completion of a post through a webhook tells `OnWebhookSendFailed` the channel on IRC and the
status, and not the webhook that was posted through.  The bridge may have another endpoint by
then: a failure discards whichever endpoint is there, so a late failure discards a newer one.
-/

namespace Anope.Discord

open Library.Run Anope.Text

variable {env : Env} {state before after : State}

/-- The endpoints of the bridges. -/
def State.endpoints (state : State) : List (Nat × Str) :=
  state.bridges.map fun bridge => (bridge.id, bridge.endpointId)

/-- A bridge loses its endpoint from one state to another. -/
def Discards (before after : State) (bridge : Bridge) : Prop :=
  bridge ∈ before.bridges ∧ bridge.endpointId ≠ [] ∧ (bridge.id, []) ∈ after.endpoints

/-- A failed post makes a bridge discard only the endpoint that was posted through. -/
def DiscardsItsOwn (env : Env) (state : State) : Event → Prop
  | .notify delivered => ∀ key status through,
      state.mailbox.jobs.head? = some (.onWebhookSendFailed key status through) →
        ∀ bridge, Discards state (notify env delivered state) bridge → bridge.endpointId = through
  | _ => True

/-- When the failure of a post is run whose status says that the webhook is unusable, the bridge
that has the channel has no endpoint, or still the one that was posted through. -/
def InTime (env : Env) (state : State) : Event → Prop
  | .notify _ => ∀ key status through,
      state.mailbox.jobs.head? = some (.onWebhookSendFailed key status through) →
        isUnusable status = true → ∀ bridge, findIrc env state key = some bridge →
          bridge.endpointId = [] ∨ bridge.endpointId = through
  | _ => True

/-! ## What a failure does to the endpoints -/

theorem endpoints_modifyBridge {change : Bridge → Bridge}
    (same : ∀ bridge, ((change bridge).id, (change bridge).endpointId) =
      (bridge.id, bridge.endpointId)) (id : Nat) :
    (state.modifyBridge id change).endpoints = state.endpoints :=
  map_modifyBridge _ same id

theorem endpoints_onWebhookFailed (key : Str) :
    (onWebhookFailed env key state).endpoints = state.endpoints := by
  rw [onWebhookFailed]
  cases findIrc env state key with
  | none => rfl
  | some bridge =>
      exact @endpoints_modifyBridge state (fun bridge =>
        { bridge with endpointPending := false, endpointRetryAt := state.curTime + 60 })
        (fun _ => rfl) bridge.id

theorem endpoints_ensureWebhook (id : Nat) :
    (ensureWebhook env id state).endpoints = state.endpoints := by
  rw [ensureWebhook]
  cases state.findBridge id with
  | none => rfl
  | some bridge =>
      have marked := @endpoints_modifyBridge state (fun bridge =>
        { bridge with endpointPending := true, endpointRequest := state.nextRequest })
        (fun _ => rfl) bridge.id
      dsimp only
      split
      · rfl
      · split
        · rfl
        · split
          · rfl
          · rw [requestWebhook]
            split
            · rw [endpoints_onWebhookFailed]
              exact marked
            · exact marked

/-- The bridge that `FindIrc` finds discards its endpoint when the status says that the webhook is
unusable, whichever it is. -/
theorem discards_onWebhookSendFailed (sound : Sound env state) (key : Str) (status : UInt16)
    (bridge : Bridge) :
    Discards state (onWebhookSendFailed env key status state) bridge ↔
      isUnusable status = true ∧ findIrc env state key = some bridge ∧ bridge.endpointId ≠ [] := by
  have kept (same : onWebhookSendFailed env key status state = state) :
      ¬Discards state (onWebhookSendFailed env key status state) bridge := by
    rw [same]
    rintro ⟨mem, isSet, gone⟩
    obtain ⟨other, isOther, isGone⟩ := List.mem_map.mp gone
    rw [sound.eq_of_id isOther mem (congrArg Prod.fst isGone)] at isGone
    exact isSet (congrArg Prod.snd isGone)
  cases isFound : findIrc env state key with
  | none =>
      refine iff_of_false (kept (by rw [onWebhookSendFailed, isFound])) ?_
      rintro ⟨_, isBridge, _⟩
      cases isBridge
  | some found =>
      obtain ⟨isBridge, _⟩ := mem_of_findIrc isFound
      cases unusable : isUnusable status with
      | false =>
          refine iff_of_false (kept ?_) (fun facts => Bool.false_ne_true facts.1)
          rw [onWebhookSendFailed, isFound]
          dsimp only
          rw [unusable, if_neg Bool.false_ne_true]
      | true =>
          have endpoints : (onWebhookSendFailed env key status state).endpoints =
              (state.modifyBridge found.id (discarded state.curTime)).endpoints := by
            rw [onWebhookSendFailed, isFound]
            dsimp only
            rw [unusable, if_pos rfl, endpoints_ensureWebhook]
            rfl
          rw [Discards, endpoints]
          constructor
          · rintro ⟨mem, isSet, gone⟩
            obtain ⟨changed, isChanged, isGone⟩ := List.mem_map.mp gone
            obtain ⟨old, isOld, rfl⟩ := List.mem_map.mp isChanged
            by_cases isId : old.id = found.id
            · rw [if_pos isId] at isGone
              have same : old.id = bridge.id := congrArg Prod.fst isGone
              cases sound.eq_of_id isBridge mem (isId.symm.trans same)
              exact ⟨rfl, rfl, isSet⟩
            · rw [if_neg isId] at isGone
              rw [sound.eq_of_id isOld mem (congrArg Prod.fst isGone)] at isGone
              exact absurd (congrArg Prod.snd isGone) isSet
          · rintro ⟨-, isSame, isSet⟩
            cases isSame
            exact ⟨isBridge, isSet, List.mem_map.mpr ⟨discarded state.curTime bridge,
              List.mem_map.mpr ⟨bridge, isBridge, if_pos rfl⟩, rfl⟩⟩

/-- A failure discards only its own endpoint exactly when it comes in time. -/
theorem discardsItsOwn_iff (sound : Sound env state) (event : Event) :
    DiscardsItsOwn env state event ↔ InTime env state event := by
  cases event with
  | notify delivered =>
      refine forall_congr' fun key => forall_congr' fun status => forall_congr' fun through =>
        forall_congr' fun isHead => ?_
      obtain ⟨jobs, isQueued⟩ := List.head?_eq_some_iff.mp isHead
      obtain ⟨left, -⟩ := sound_left sound isQueued
      have discards (bridge : Bridge) := discards_onWebhookSendFailed left key status bridge
      rw [notify_of_cons delivered isQueued, runJob]
      constructor
      · intro itsOwn unusable bridge isFound
        by_cases isEmpty : bridge.endpointId = []
        · exact .inl isEmpty
        · exact .inr (itsOwn bridge ((discards bridge).mpr ⟨unusable, isFound, isEmpty⟩))
      · intro inTime bridge gone
        obtain ⟨unusable, isFound, isSet⟩ := (discards bridge).mp gone
        exact (inTime unusable bridge isFound).resolve_left isSet
  | relay | relayEvent | add | set | del | load | update | configure | bridgesChanged | setTime
  | discord => exact Iff.rfl

/-- In every run, failed posts make bridges discard only the endpoints that were posted through
exactly when every such failure comes in time. -/
theorem eachStep_discardsItsOwn_iff (env : Env) (curTime : Int) (events : List Event) :
    EachStep (step env) (DiscardsItsOwn env) (State.initial curTime) events ↔
      EachStep (step env) (InTime env) (State.initial curTime) events :=
  eachStep_congr_of_kept (Sound env) (fun sound stepped => sound.step stepped)
    (fun sound event => discardsItsOwn_iff sound event) (sound_initial env curTime) events

/-- A line is posted through a webhook, the webhook is replaced because of a new name, and then
the post fails: the bridge discards the new webhook. -/
theorem not_discardsItsOwn_replaced :
    ¬EachStep (step .lenient) (DiscardsItsOwn .lenient) (State.initial 0)
      (opening ++ [.discord (.answer 0 (.webhooks [⟨ascii "5", ascii "k", ascii "n"⟩])),
        .notify true, .relay (ascii "#a") (ascii "hi") [],
        .configure (ascii "t") (ascii "m") false,
        .discord (.answer 2 (.webhooks [⟨ascii "6", ascii "l", ascii "m"⟩])), .notify true,
        .discord (.answer 0 (.error 404))] ++ [.notify true]) := by
  intro each
  have late : (run (step .lenient) (State.initial 0)
      (opening ++ [.discord (.answer 0 (.webhooks [⟨ascii "5", ascii "k", ascii "n"⟩])),
        .notify true, .relay (ascii "#a") (ascii "hi") [],
        .configure (ascii "t") (ascii "m") false,
        .discord (.answer 2 (.webhooks [⟨ascii "6", ascii "l", ascii "m"⟩])), .notify true,
        .discord (.answer 0 (.error 404))])).any (fun middle =>
          decide (middle.mailbox.jobs.head? =
            some (.onWebhookSendFailed (ascii "#a") 404 (ascii "5"))) &&
          decide (middle.endpoints = [(0, ascii "6")]) &&
          decide ((notify .lenient true middle).endpoints = [(0, [])])) = true := by
    decide +kernel
  obtain ⟨middle, reached, facts⟩ := (Option.any_eq_true _ _).mp late
  simp only [Bool.and_eq_true, decide_eq_true_eq] at facts
  obtain ⟨⟨isHead, isNew⟩, isGone⟩ := facts
  have isBridge : (0, ascii "6") ∈ middle.endpoints := isNew ▸ List.mem_singleton.mpr rfl
  obtain ⟨bridge, mem, isPair⟩ := List.mem_map.mp isBridge
  have isNewer : bridge.endpointId = ascii "6" := congrArg Prod.snd isPair
  have itsOwn := (each.of_run reached rfl) _ _ _ isHead bridge ⟨mem, ?_, ?_⟩
  · rw [isNewer] at itsOwn
    cases itsOwn
  · rw [isNewer]
    exact List.cons_ne_nil _ _
  · rw [isGone, show bridge.id = 0 from congrArg Prod.fst isPair]
    exact List.mem_singleton.mpr rfl

end Anope.Discord
