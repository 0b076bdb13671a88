import Anope.Bridge.Discord.Core
import Mathlib.Data.List.Perm.Basic

/-!
# Bridges and completions

What every event keeps: bridges differ by number and by channel on IRC, and the completions that
are under way differ by number.  A completion is under way as a call in flight, or as the job that
its callback has posted.  What services do themselves is summed up in one relation; it keeps the
completions, and starts one for every bridge that it leaves pending.
-/

namespace Anope.Discord

open Library.Run Anope.Text

/-! ## Completions -/

/-- The completion that a pending bridge waits for: its number, and the key that it comes with. -/
def Bridge.setup (bridge : Bridge) : Nat × Str :=
  (bridge.endpointRequest, bridge.ircChannel)

/-- The completion that a call leads to. -/
def Request.setup : Request → Option (Nat × Str)
  | .getChannelWebhooks number key _ _ => some (number, key)
  | .createWebhook number key _ _ _ => some (number, key)
  | _ => none

/-- The completion that a job is. -/
def Job.setup : Job → Option (Nat × Str)
  | .onWebhookReady number key _ _ _ => some (number, key)
  | .onWebhookFailed number key => some (number, key)
  | .createWebhook number key _ => some (number, key)
  | _ => none

/-- The completions that are queued. -/
def State.queued (state : State) : List (Nat × Str) :=
  state.mailbox.jobs.filterMap Job.setup

/-- The completions that are under way. -/
def State.setups (state : State) : List (Nat × Str) :=
  state.inFlight.filterMap Request.setup ++ state.queued

/-- What tells bridges apart. -/
def State.names (state : State) : List (Nat × Str) :=
  state.bridges.map fun bridge => (bridge.id, bridge.ircChannel)

/-- A callback posts the completion of its call, and no other. -/
theorem setup_completed (request : Request) (reply : Reply) :
    (request.completed reply).bind Job.setup = request.setup := by
  cases request with
  | getChannelWebhooks number key channel wanted =>
      cases reply with
      | webhooks hooks =>
          rw [Request.completed_webhooks]
          split
          · rfl
          · split
            · rfl
            · rfl
      | error status => rfl
      | malformed => rfl
      | webhook hook => rfl
      | message => rfl
  | createWebhook number key channel hookChannel hookName => cases reply <;> rfl
  | deleteWebhook number key hook => cases reply <;> rfl
  | executeWebhook number key hook token text ircMsgid =>
      cases reply with
      | message =>
          rw [Request.completed_executeWebhook]
          split
          · rfl
          · rfl
      | error status => rfl
      | malformed => rfl
      | webhooks hooks => rfl
      | webhook hook => rfl
  | messageCreate number channel text ircMsgid =>
      cases reply with
      | message =>
          rw [Request.completed_messageCreate]
          split
          · rfl
          · rfl
      | error status => rfl
      | malformed => rfl
      | webhooks hooks => rfl
      | webhook hook => rfl

/-! ## What every event keeps -/

/-- Bridges and completions can be told apart. -/
structure Sound (env : Env) (state : State) : Prop where
  ids : (state.names.map Prod.fst).Nodup
  older : ∀ name ∈ state.names, name.1 < state.nextBridge
  channels : ∀ left ∈ state.names, ∀ right ∈ state.names,
    env.casemap.equalsCi left.2 right.2 = true → left.1 = right.1
  numbers : (state.setups.map Prod.fst).Nodup
  sent : ∀ setup ∈ state.setups, setup.1 < state.nextRequest
  owner : state.mailbox.owner = true
  capacity : state.mailbox.capacity = 4096

variable {env : Env} {state before middle after : State}

theorem equalsCi_refl (casemap : Casemap) (text : Str) : casemap.equalsCi text text = true :=
  (casemap.equalsCi_iff text text).mpr rfl

theorem mem_names {bridge : Bridge} (mem : bridge ∈ state.bridges) :
    (bridge.id, bridge.ircChannel) ∈ state.names :=
  List.mem_map.mpr ⟨bridge, mem, rfl⟩

theorem Sound.eq_of_id (sound : Sound env state) {left right : Bridge}
    (isLeft : left ∈ state.bridges) (isRight : right ∈ state.bridges) (same : left.id = right.id) :
    left = right := by
  have ids := sound.ids
  rw [State.names, List.map_map] at ids
  exact List.inj_on_of_nodup_map ids isLeft isRight same

theorem Sound.eq_of_channel (sound : Sound env state) {left right : Bridge}
    (isLeft : left ∈ state.bridges) (isRight : right ∈ state.bridges)
    (same : env.casemap.equalsCi left.ircChannel right.ircChannel = true) : left = right :=
  sound.eq_of_id isLeft isRight
    (sound.channels _ (mem_names isLeft) _ (mem_names isRight) same)

theorem mem_of_findBridge {id : Nat} {bridge : Bridge} (found : state.findBridge id = some bridge) :
    bridge ∈ state.bridges ∧ bridge.id = id := by
  rw [State.findBridge] at found
  have isId := List.find?_some found
  exact ⟨List.mem_of_find?_eq_some found, of_decide_eq_true isId⟩

theorem mem_of_findIrc {key : Str} {bridge : Bridge} (found : findIrc env state key = some bridge) :
    bridge ∈ state.bridges ∧ env.casemap.equalsCi bridge.ircChannel key = true := by
  rw [findIrc] at found
  have isKey := List.find?_some found
  exact ⟨List.mem_of_find?_eq_some found, isKey⟩

theorem not_equalsCi_of_findIrc {key : Str} (none : findIrc env state key = none) {bridge : Bridge}
    (mem : bridge ∈ state.bridges) : ¬env.casemap.equalsCi bridge.ircChannel key = true := by
  rw [findIrc, List.find?_eq_none] at none
  exact none bridge mem

/-- `FindIrc` finds a bridge by its own channel. -/
theorem Sound.findIrc_of_mem (sound : Sound env state) {bridge : Bridge}
    (mem : bridge ∈ state.bridges) : findIrc env state bridge.ircChannel = some bridge := by
  cases found : findIrc env state bridge.ircChannel with
  | none => exact absurd (equalsCi_refl _ _) (not_equalsCi_of_findIrc found mem)
  | some other =>
      obtain ⟨isOther, same⟩ := mem_of_findIrc found
      rw [sound.eq_of_channel isOther mem same]

/-! ## What services do -/

/-- What services do without running a job or stopping the cluster. -/
structure Works (env : Env) (before after : State) : Prop where
  sound : Sound env after
  mailbox : after.mailbox = before.mailbox
  posted : after.posted = before.posted
  relayed : after.relayed = before.relayed
  setups : ∀ setup ∈ before.setups, setup ∈ after.setups
  pending : ∀ bridge ∈ after.bridges, bridge.endpointPending = true →
    bridge.setup ∈ after.setups ∨
      ∃ old ∈ before.bridges, old.endpointPending = true ∧ old.setup = bridge.setup

theorem Works.refl (sound : Sound env state) : Works env state state :=
  ⟨sound, rfl, rfl, rfl, fun _ => id, fun bridge mem pending => .inr ⟨bridge, mem, pending, rfl⟩⟩

theorem Works.trans (first : Works env before middle) (second : Works env middle after) :
    Works env before after where
  sound := second.sound
  mailbox := second.mailbox.trans first.mailbox
  posted := second.posted.trans first.posted
  relayed := second.relayed.trans first.relayed
  setups := fun setup under => second.setups setup (first.setups setup under)
  pending := by
    intro bridge mem pending
    rcases second.pending bridge mem pending with under | ⟨old, isOld, waits, same⟩
    · exact .inl under
    · rcases first.pending old isOld waits with under | ⟨older, isOlder, waits, same'⟩
      · exact .inl (same ▸ second.setups _ under)
      · exact .inr ⟨older, isOlder, waits, same'.trans same⟩

/-- Bridges and completions may go away. -/
theorem Sound.of_fewer (sound : Sound env before) (names : after.names.Sublist before.names)
    (nextBridge : after.nextBridge = before.nextBridge)
    (nextRequest : after.nextRequest = before.nextRequest) (gone : List (Nat × Str))
    (perm : (gone ++ after.setups).Perm before.setups)
    (owner : after.mailbox.owner = before.mailbox.owner)
    (capacity : after.mailbox.capacity = before.mailbox.capacity) : Sound env after where
  ids := sound.ids.sublist (names.map Prod.fst)
  older := fun name mem => nextBridge ▸ sound.older name (names.subset mem)
  channels := fun left isLeft right isRight =>
    sound.channels left (names.subset isLeft) right (names.subset isRight)
  numbers := by
    have numbers := (perm.map Prod.fst).nodup_iff.mpr sound.numbers
    rw [List.map_append] at numbers
    exact (List.nodup_append.mp numbers).2.1
  sent := fun setup under =>
    nextRequest ▸ sound.sent setup (perm.subset (List.mem_append_right gone under))
  owner := owner.trans sound.owner
  capacity := capacity.trans sound.capacity

theorem Sound.of_same (sound : Sound env before) (names : after.names = before.names)
    (nextBridge : after.nextBridge = before.nextBridge)
    (nextRequest : after.nextRequest = before.nextRequest)
    (inFlight : after.inFlight = before.inFlight) (mailbox : after.mailbox = before.mailbox) :
    Sound env after ∧ after.setups = before.setups := by
  have setups : after.setups = before.setups := by
    rw [State.setups, State.setups, State.queued, State.queued, inFlight, mailbox]
  refine ⟨sound.of_fewer (names ▸ List.Sublist.refl _) nextBridge nextRequest [] ?_
    (congrArg _ mailbox) (congrArg _ mailbox), setups⟩
  rw [setups, List.nil_append]

/-- A step that changes no bridge and makes no call. -/
theorem works_of_bridges (sound : Sound env before) (bridges : after.bridges = before.bridges)
    (nextBridge : after.nextBridge = before.nextBridge)
    (nextRequest : after.nextRequest = before.nextRequest)
    (inFlight : after.inFlight = before.inFlight) (mailbox : after.mailbox = before.mailbox)
    (posted : after.posted = before.posted) (relayed : after.relayed = before.relayed) :
    Works env before after := by
  have names : after.names = before.names := by rw [State.names, State.names, bridges]
  obtain ⟨sound', setups⟩ := sound.of_same names nextBridge nextRequest inFlight mailbox
  refine ⟨sound', mailbox, posted, relayed, fun setup under => setups ▸ under, ?_⟩
  rw [bridges]
  exact fun bridge mem pending => .inr ⟨bridge, mem, pending, rfl⟩

/-- What a change of a bridge does not touch. -/
theorem map_modifyBridge {α : Type} (project : Bridge → α) {change : Bridge → Bridge}
    (same : ∀ bridge, project (change bridge) = project bridge) (id : Nat) :
    (state.modifyBridge id change).bridges.map project = state.bridges.map project := by
  rw [State.modifyBridge, List.map_map]
  refine List.map_congr_left fun bridge _ => ?_
  rw [Function.comp_apply]
  split
  · rw [same]
  · rfl

/-- Two changes of a bridge are one. -/
theorem modifyBridge_modifyBridge {first second : Bridge → Bridge}
    (same : ∀ bridge, (first bridge).id = bridge.id) (id : Nat) :
    (state.modifyBridge id first).modifyBridge id second =
      state.modifyBridge id fun bridge => second (first bridge) := by
  rw [State.modifyBridge, State.modifyBridge, State.modifyBridge, List.map_map]
  refine congrArg (fun bridges => { state with bridges }) (List.map_congr_left fun bridge _ => ?_)
  rw [Function.comp_apply]
  by_cases isId : bridge.id = id
  · rw [if_pos isId, if_pos isId, if_pos ((same bridge).trans isId)]
  · rw [if_neg isId, if_neg isId, if_neg isId]

/-- A change of a bridge that makes it wait only for what is under way. -/
theorem works_modifyBridge (sound : Sound env state) {change : Bridge → Bridge} (id : Nat)
    (same : ∀ bridge, ((change bridge).id, (change bridge).ircChannel) =
      (bridge.id, bridge.ircChannel))
    (waits : ∀ bridge ∈ state.bridges, bridge.id = id → (change bridge).endpointPending = true →
      (change bridge).setup ∈ state.setups ∨
        bridge.endpointPending = true ∧ bridge.setup = (change bridge).setup) :
    Works env state (state.modifyBridge id change) := by
  have names : (state.modifyBridge id change).names = state.names :=
    map_modifyBridge _ same id
  obtain ⟨sound', setups⟩ := sound.of_same names rfl rfl rfl rfl
  refine ⟨sound', rfl, rfl, rfl, fun setup under => setups ▸ under, ?_⟩
  rw [setups]
  intro bridge mem pending
  obtain ⟨old, isOld, rfl⟩ := List.mem_map.mp mem
  by_cases isId : old.id = id
  · rw [if_pos isId] at pending ⊢
    rcases waits old isOld isId pending with under | ⟨waited, isSetup⟩
    · exact .inl under
    · exact .inr ⟨old, isOld, waited, isSetup⟩
  · rw [if_neg isId] at pending ⊢
    exact .inr ⟨old, isOld, pending, rfl⟩

/-- A change of a bridge that keeps it from waiting. -/
theorem works_modifyBridge_of_cleared (sound : Sound env state) {change : Bridge → Bridge}
    (id : Nat)
    (same : ∀ bridge, ((change bridge).id, (change bridge).ircChannel) =
      (bridge.id, bridge.ircChannel))
    (cleared : ∀ bridge, (change bridge).endpointPending = false) :
    Works env state (state.modifyBridge id change) :=
  works_modifyBridge sound id same fun bridge _ _ pending => by
    rw [cleared bridge] at pending
    cases pending

/-- The pending flag of a bridge is cleared. -/
theorem not_pending_modifyBridge {change : Bridge → Bridge} {id : Nat}
    (cleared : ∀ bridge, (change bridge).endpointPending = false) {bridge : Bridge}
    (mem : bridge ∈ (state.modifyBridge id change).bridges) (isId : bridge.id = id) :
    bridge.endpointPending = false := by
  obtain ⟨old, _, rfl⟩ := List.mem_map.mp mem
  by_cases isOld : old.id = id
  · rw [if_pos isOld]
    exact cleared old
  · rw [if_neg isOld] at isId
    exact absurd isId isOld

/-- A call with a number that no other completion has. -/
theorem works_send (sound : Sound env state) {request : Request}
    (fresh : ∀ setup, request.setup = some setup → setup.1 ≤ state.nextRequest ∧
      ∀ other ∈ state.setups, other.1 ≠ setup.1) :
    Works env state (state.send request) := by
  have setups (setup : Nat × Str) : setup ∈ (state.send request).setups ↔
      setup ∈ state.setups ∨ request.setup = some setup := by
    rw [State.setups, State.send, State.setups, List.filterMap_append, State.queued, State.queued]
    simp only [List.mem_append, List.mem_filterMap, List.mem_singleton, exists_eq_left]
    exact or_right_comm
  have perm : (state.send request).setups.Perm (request.setup.toList ++ state.setups) := by
    rw [State.setups, State.send, State.setups, List.filterMap_append, State.queued, State.queued,
      List.append_assoc, ← List.append_assoc request.setup.toList]
    refine List.Perm.trans ?_ (List.perm_append_comm.append_right _)
    rw [List.append_assoc]
    cases isSetup : request.setup with
    | none => rw [List.filterMap_cons_none isSetup]; exact .refl _
    | some setup => rw [List.filterMap_cons_some isSetup]; exact .refl _
  refine ⟨⟨sound.ids, sound.older, sound.channels, ?_, ?_, sound.owner, sound.capacity⟩,
    rfl, rfl, rfl, fun setup under => (setups setup).mpr (.inl under), ?_⟩
  · rw [(perm.map Prod.fst).nodup_iff, List.map_append, List.nodup_append]
    refine ⟨?_, sound.numbers, ?_⟩
    · cases request.setup with
      | none => exact List.nodup_nil
      | some setup => exact List.nodup_singleton _
    · intro number isNew number' isOld same
      obtain ⟨setup, isSetup, rfl⟩ := List.mem_map.mp isNew
      obtain ⟨other, under, rfl⟩ := List.mem_map.mp isOld
      exact (fresh setup (Option.mem_toList.mp isSetup)).2 other under same.symm
  · intro setup under
    rcases (setups setup).mp under with old | isSetup
    · exact Nat.lt_succ_of_lt (sound.sent setup old)
    · exact Nat.lt_succ_of_le (fresh setup isSetup).1
  · exact fun bridge mem pending => .inr ⟨bridge, mem, pending, rfl⟩

/-- A call that no bridge waits for. -/
theorem works_send_other (sound : Sound env state) {request : Request}
    (isOther : request.setup = none) : Works env state (state.send request) :=
  works_send sound fun setup isSetup => by
    rw [isOther] at isSetup
    cases isSetup

/-! ### Webhooks -/

/-- `FindIrc` finds the only bridge with a key. -/
theorem Sound.id_of_findIrc (sound : Sound env state) {key : Str} {found : Bridge}
    (isFound : findIrc env state key = some found) {name : Nat × Str} (mem : name ∈ state.names)
    (isKey : env.casemap.equalsCi name.2 key = true) : name.1 = found.id := by
  obtain ⟨isBridge, same⟩ := mem_of_findIrc isFound
  refine sound.channels name mem _ (mem_names isBridge) ?_
  rw [Casemap.equalsCi_iff] at isKey same ⊢
  exact isKey.trans same.symm

theorem works_onWebhookFailed (sound : Sound env state) (key : Str) :
    Works env state (onWebhookFailed env key state) := by
  rw [onWebhookFailed]
  cases findIrc env state key with
  | none => exact .refl sound
  | some bridge => exact works_modifyBridge_of_cleared sound _ (fun _ => rfl) fun _ => rfl

theorem works_requestWebhook (sound : Sound env state) {bridge : Bridge}
    (mem : bridge ∈ state.bridges) : Works env state (requestWebhook env bridge state) := by
  rw [requestWebhook]
  split
  · -- the bridge that is found is the one that has been marked
    let mark (bridge : Bridge) : Bridge :=
      { bridge with endpointPending := true, endpointRequest := state.nextRequest }
    have names : (state.modifyBridge bridge.id mark).names = state.names :=
      @map_modifyBridge state _ _ mark (fun _ => rfl) bridge.id
    obtain ⟨marked, -⟩ := @Sound.of_same _ _ (state.modifyBridge bridge.id mark) sound names
      rfl rfl rfl rfl
    have isMarked : mark bridge ∈ (state.modifyBridge bridge.id mark).bridges :=
      List.mem_map.mpr ⟨bridge, mem, if_pos rfl⟩
    have found : findIrc env (state.modifyBridge bridge.id mark) bridge.ircChannel =
        some (mark bridge) := marked.findIrc_of_mem isMarked
    rw [onWebhookFailed, found]
    dsimp only
    have isId : (mark bridge).id = bridge.id := rfl
    rw [isId, @modifyBridge_modifyBridge state mark _ (fun _ => rfl) bridge.id]
    exact works_modifyBridge_of_cleared sound _ (fun _ => rfl) fun _ => rfl
  · have sent := @works_send _ _ sound
      (.getChannelWebhooks state.nextRequest bridge.ircChannel bridge.foreignChannel
        state.webhookName) (by
      rintro setup isSetup
      cases isSetup
      exact ⟨le_rfl, fun other under => Nat.ne_of_lt (sound.sent other under)⟩)
    refine sent.trans (works_modifyBridge sent.sound bridge.id (fun _ => rfl) ?_)
    intro other isOther isId _
    rw [sound.eq_of_id isOther mem isId]
    exact .inl (List.mem_append_left _ (List.mem_filterMap.mpr
      ⟨.getChannelWebhooks state.nextRequest bridge.ircChannel bridge.foreignChannel
        state.webhookName, List.mem_append_right _ (List.mem_singleton.mpr rfl), rfl⟩))

theorem works_ensureWebhook (sound : Sound env state) (id : Nat) :
    Works env state (ensureWebhook env id state) := by
  rw [ensureWebhook]
  cases found : state.findBridge id with
  | none => exact .refl sound
  | some bridge =>
      dsimp only
      split
      · exact .refl sound
      · split
        · exact .refl sound
        · split
          · exact .refl sound
          · exact works_requestWebhook sound (mem_of_findBridge found).1

theorem works_releaseWebhook (sound : Sound env state) (id : Nat) :
    Works env state (releaseWebhook env id state) := by
  have released : Works env state (state.modifyBridge id fun bridge =>
      { bridge with endpointPending := false }) :=
    works_modifyBridge_of_cleared sound id (fun _ => rfl) fun _ => rfl
  exact released.trans (works_ensureWebhook released.sound id)

theorem works_createWebhook (sound : Sound env state) {number : Nat} (key channel : Str)
    (sent : number < state.nextRequest) (fresh : ∀ other ∈ state.setups, other.1 ≠ number) :
    Works env state (createWebhook env number key channel state) := by
  rw [createWebhook]
  cases findIrc env state key with
  | none => exact .refl sound
  | some bridge =>
      dsimp only
      split
      · exact works_releaseWebhook sound bridge.id
      · split
        · exact works_onWebhookFailed sound key
        · split
          · exact works_onWebhookFailed sound key
          · refine works_send sound fun setup isSetup => ?_
            cases isSetup
            exact ⟨sent.le, fresh⟩

theorem works_onWebhookReady (sound : Sound env state) (key channel id token : Str) :
    Works env state (onWebhookReady env key channel id token state) := by
  rw [onWebhookReady]
  cases findIrc env state key with
  | none => exact .refl sound
  | some bridge =>
      dsimp only
      split
      · exact works_releaseWebhook sound bridge.id
      · have ready := @works_modifyBridge_of_cleared env state sound (fun bridge =>
          { bridge with
            endpointPending := false
            endpointRetryAt := 0
            endpointId := id
            endpointToken := token }) bridge.id (fun _ => rfl) fun _ => rfl
        exact ready.trans (works_of_bridges ready.sound rfl rfl rfl rfl rfl rfl rfl)

theorem works_onWebhookSendFailed (sound : Sound env state) (key : Str) (status : UInt16) :
    Works env state (onWebhookSendFailed env key status state) := by
  rw [onWebhookSendFailed]
  cases findIrc env state key with
  | none => exact .refl sound
  | some bridge =>
      dsimp only
      split
      · have emptied := @works_modifyBridge_of_cleared env state sound (discarded state.curTime)
          bridge.id (fun _ => rfl) fun _ => rfl
        refine emptied.trans ?_
        have forgotten : Works env (state.modifyBridge bridge.id (discarded state.curTime))
            { state.modifyBridge bridge.id (discarded state.curTime) with
              filter := state.filter.delOwnWebhook bridge.endpointId } :=
          works_of_bridges emptied.sound rfl rfl rfl rfl rfl rfl rfl
        exact forgotten.trans (works_ensureWebhook forgotten.sound bridge.id)
      · exact .refl sound

/-- A loop over the bridges. -/
theorem works_forBridges {body : Bridge → State → State}
    (works : ∀ {state : State} {bridge : Bridge}, Sound env state → bridge ∈ state.bridges →
      Works env state (body bridge state))
    (sound : Sound env state) : Works env state (forBridges env body state) := by
  rw [forBridges]
  refine List.foldlRecOn (motive := fun after : State => Works env state after) _ _
    (.refl sound) fun middle before id _ => ?_
  cases found : middle.findBridge id with
  | none => exact before
  | some bridge =>
      dsimp only
      split
      · exact before.trans (works before.sound (mem_of_findBridge found).1)
      · exact before

theorem works_onReady (sound : Sound env state) : Works env state (onReady env state) := by
  have connected : Works env state { state with connected := true } :=
    works_of_bridges sound rfl rfl rfl rfl rfl rfl rfl
  refine connected.trans (works_forBridges (fun {state bridge} sound _ => ?_) connected.sound)
  have reset : Works env state (state.modifyBridge bridge.id fun bridge =>
      { bridge with endpointRetryAt := 0 }) :=
    works_modifyBridge sound bridge.id (fun _ => rfl) fun _ _ _ pending => .inr ⟨pending, rfl⟩
  exact reset.trans (works_ensureWebhook reset.sound bridge.id)

/-! ### Bridges -/

theorem works_deleteWebhook (sound : Sound env state) (bridge : Bridge) :
    Works env state (deleteWebhook env bridge state) := by
  rw [deleteWebhook]
  split
  · exact .refl sound
  · exact works_send_other sound rfl

theorem works_onBridgeRemoved (sound : Sound env state) (bridge : Bridge) :
    Works env state (onBridgeRemoved env bridge state) := by
  rw [onBridgeRemoved]
  split
  · exact .refl sound
  · dsimp only
    have forgotten : Works env state
        { state with filter := state.filter.delOwnWebhook bridge.endpointId } :=
      works_of_bridges sound rfl rfl rfl rfl rfl rfl rfl
    split
    · have deleted := works_deleteWebhook forgotten.sound bridge
      exact (forgotten.trans deleted).trans
        (works_modifyBridge_of_cleared deleted.sound _ (fun _ => rfl) fun _ => rfl)
    · exact forgotten.trans
        (works_modifyBridge_of_cleared forgotten.sound _ (fun _ => rfl) fun _ => rfl)

theorem works_replaceWebhooks (sound : Sound env state) :
    Works env state (replaceWebhooks env state) := by
  refine works_forBridges (fun {state bridge} sound _ => ?_) sound
  split
  · exact .refl sound
  · have removed := works_onBridgeRemoved sound bridge
    exact removed.trans (works_ensureWebhook removed.sound bridge.id)

theorem works_onBridgesChanged (sound : Sound env state) :
    Works env state (onBridgesChanged env state) := by
  have refreshed : Works env state (refreshFilter env state) :=
    works_of_bridges sound rfl rfl rfl rfl rfl rfl rfl
  rw [onBridgesChanged]
  split
  · exact refreshed.trans (works_forBridges
      (fun {_ bridge} sound _ => works_ensureWebhook sound bridge.id) refreshed.sound)
  · exact refreshed

/-! ### Messages -/

theorem works_relay (sound : Sound env state) (bridge : Bridge) (text ircMsgid : Str) :
    Works env state (relay env bridge text ircMsgid state) := by
  rw [relay]
  split
  · exact .refl sound
  · split
    · exact .refl sound
    · dsimp only
      split
      · exact works_send_other sound rfl
      · split
        · exact works_ensureWebhook sound bridge.id
        · have sent := @works_send_other env state sound
            (.messageCreate state.nextRequest bridge.foreignChannel text ircMsgid) rfl
          exact sent.trans (works_ensureWebhook sent.sound bridge.id)

theorem works_notice (sound : Sound env state) (bridge : Bridge) (text : Str) :
    Works env state (notice env bridge text state) := by
  rw [notice]
  split
  · exact .refl sound
  · split
    · exact .refl sound
    · dsimp only
      split
      · exact .refl sound
      · exact works_send_other sound rfl

theorem works_withProtocol {body : Bridge → State → State}
    (works : ∀ bridge, Works env state (body bridge state)) (sound : Sound env state)
    (ircChannel : Str) : Works env state (withProtocol env ircChannel body state) := by
  rw [withProtocol]
  cases findIrc env state ircChannel with
  | none => exact .refl sound
  | some bridge =>
      dsimp only
      split
      · exact works bridge
      · exact .refl sound

end Anope.Discord
