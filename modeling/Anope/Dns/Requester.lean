import Anope.Dns.Reply
import Anope.Library.Run
import Anope.Library.While
import Mathlib.Data.Finset.Card
import Mathlib.Order.Interval.Finset.Nat

/-!
# Sending DNS requests

`MyManager::GetID` and `Process`, and what happens to the requests and to the packets that
wait in the socket.  `GetID` looks for an identifier that no request has, and what keeps it
from looking forever is the number of packets: a packet is gone when it is written, and its
request waits for the reply.
-/

namespace Anope.Dns

open Library Library.Run Library.While

/-- A `MyManager` with what it sends through. -/
structure Requester extends Resolver where
  curId : UInt16
  /-- `udpsock`, with its packets. -/
  udpsock : Option (List Packet)
  /-- The addresses in `notify`; one that `pton` does not read is `none`. -/
  notify : List (Option Endpoint)

/-- A pass of the loop of `GetID`. -/
def idPass (requests : AList fun _ : UInt16 => Request) (curId : UInt16) : Pass UInt16 UInt16 :=
  let curId := curId + 1
  if curId = 0 ∨ curId ∈ requests then .goOn curId else .done curId

/-- What a call of `GetID` comes to. -/
inductive Fetch where
  | returned (id : UInt16)
  | thrown (reason : String)
  /-- A null pointer is followed. -/
  | crashes
  /-- The loop does not end. -/
  | hangs
  deriving DecidableEq, Repr

/-- What a call of `Process` comes to. -/
inductive Outcome where
  | finished (next : Requester)
  | thrown (reason : String)
  | crashes
  | hangs

namespace Requester

/-- `MyManager::GetID`; after 65536 passes every identifier has been looked at. -/
def getID (manager : Requester) : Fetch :=
  match manager.udpsock with
  | none => .crashes
  | some packets =>
      if packets.length = 65535 then .thrown "DNS queue full"
      else
        match within (idPass manager.requests) 65536 manager.curId with
        | some id => .returned id
        | none => .hangs

/-- The packet for a request. -/
def requestPacket (req : Request) : Packet where
  id := req.id
  flags := 0x100
  questions := [req.toQuestion]
  answers := []
  authorities := []
  additional := []

/-- `MyManager::Process` for a new request. -/
def process (manager : Requester) (question : Question) (useCache : Bool) : Outcome :=
  let req : Request := { question with id := 0, useCache := useCache }
  if useCache = true ∧ (manager.checkCache question).isSome then
    .finished { manager with toResolver := manager.removeRequest req }
  else
    match manager.udpsock with
    | none => .thrown "No dns socket"
    | some packets =>
        match manager.getID with
        | .returned id =>
            let req := { req with id := id }
            .finished
              { manager with
                curId := id
                requests := manager.requests.insert id req
                udpsock := some (packets ++ [requestPacket req]) }
        | .thrown reason => .thrown reason
        | .crashes => .crashes
        | .hangs => .hangs

/-- The loop of `MyManager::Notify`; `none` when a call of `GetID` does not return. -/
def notifyAll (manager : Requester) : List (Option Endpoint) → Option Requester
  | [] => some manager
  | none :: _ => some manager
  | some _ :: rest =>
      match manager.getID with
      | .returned id => notifyAll { manager with curId := id } rest
      | .thrown _ => notifyAll manager rest
      | .crashes | .hangs => none

end Requester

/-- What happens to a manager. -/
inductive RequestEvent where
  /-- `Process`. -/
  | process (question : Question) (useCache : Bool)
  /-- `UDPSocket::ProcessWrite`. -/
  | write
  /-- `HandlePacket` with a packet that was read. -/
  | receive (onDnsRequest : OnDnsRequest) (sender : Option Endpoint) (packet : Packet)
  /-- A request times out, or its module is unloaded. -/
  | destroy (id : UInt16)
  /-- `SetIPPort`, which may fail before or after it has a socket. -/
  | setIPPort (addrs : Endpoint) (opened bound : Bool) (notify : List (Option Endpoint))
  /-- `Notify`. -/
  | notify
  /-- `Tick`. -/
  | tick
  | timeStep (seconds : Int)

namespace Requester

/-- One event; `none` when it cannot happen, or when a call in it does not return. -/
def step (manager : Requester) : RequestEvent → Option Requester
  | .process question useCache =>
      match manager.process question useCache with
      | .finished next => some next
      | .thrown _ => some manager
      | .crashes | .hangs => none
  | .write => manager.udpsock.map fun packets =>
      { manager with udpsock := some packets.tail }
  | .receive onDnsRequest sender packet =>
      let (next, effects) := manager.handle onDnsRequest sender packet
      let replies := effects.filterMap fun effect =>
        match effect with
        | .reply reply => some reply.toPacket
        | _ => none
      match sender with
      -- What comes over TCP is answered there.
      | none => some { manager with toResolver := next }
      | some _ => manager.udpsock.map fun packets =>
          { manager with toResolver := next, udpsock := some (packets ++ replies) }
  | .destroy id => (manager.requests.lookup id).map fun request =>
      { manager with toResolver := manager.removeRequest request }
  | .setIPPort addrs opened bound notify =>
      some { manager with
        addrs := addrs
        udpsock := if opened then some [] else none
        listen := manager.listen || (opened && bound)
        notify := notify }
  | .notify => manager.notifyAll manager.notify
  | .tick => some { manager with toMyManager := manager.tick }
  | .timeStep seconds => some { manager with curTime := manager.curTime + seconds }

/-- A new `MyManager`, whose `cur_id` is random. -/
def new (curTime : Int) (curId : UInt16) : Requester where
  curTime := curTime
  cache := ∅
  requests := ∅
  addrs := ⟨.unspec, 0⟩
  listen := false
  nameservers := []
  curId := curId
  udpsock := none
  notify := []

/-! ## The search for an identifier -/

/-- No request has the identifier. -/
def IsFree (manager : Requester) (id : UInt16) : Prop :=
  id ≠ 0 ∧ id ∉ manager.requests

section Search

variable {requests : AList fun _ : UInt16 => Request}

theorem idPass_goOn {curId next : UInt16} (isNext : idPass requests curId = .goOn next) :
    next = curId + 1 ∧ (next = 0 ∨ next ∈ requests) := by
  unfold idPass at isNext
  dsimp only at isNext
  split at isNext
  case isTrue taken =>
    cases isNext
    exact ⟨rfl, taken⟩
  case isFalse => cases isNext

theorem idPass_done {curId id : UInt16} (isDone : idPass requests curId = .done id) :
    id ≠ 0 ∧ id ∉ requests := by
  unfold idPass at isDone
  dsimp only at isDone
  split at isDone
  case isTrue => cases isDone
  case isFalse free =>
    cases isDone
    exact not_or.mp free

/-- One identifier after the other is looked at, so that a free one is found. -/
theorem within_idPass_of_free {id : UInt16} (nonzero : id ≠ 0) (free : id ∉ requests)
    (curId : UInt16) : ∃ found, within (idPass requests) 65536 curId = some found := by
  -- The distance that is left to the identifier.
  refine within_of_measure (fun _ => True)
    (fun curId => (id.toNat + 65535 - curId.toNat) % 65536) ?_ trivial (Nat.mod_lt _ (by decide))
  intro curId next _ isNext
  obtain ⟨isNext, taken⟩ := idPass_goOn isNext
  have other : id.toNat ≠ next.toNat := by
    intro same
    rw [UInt16.toNat_inj] at same
    subst same
    exact taken.elim nonzero free
  have position : next.toNat = (curId.toNat + 1) % 65536 := by
    rw [isNext, UInt16.toNat_add]
    rfl
  have idBound := id.toNat_lt
  have curBound := curId.toNat_lt
  refine ⟨trivial, ?_⟩
  omega

/-- The loop that has looked at every identifier without result does not end. -/
theorem diverges_idPass_iff (curId : UInt16) :
    Diverges (idPass requests) curId ↔ within (idPass requests) 65536 curId = none := by
  constructor
  · exact fun diverges => diverges 65536
  · intro none
    refine diverges_of_invariant (fun _ => True) (fun {curId} _ => ?_) trivial
    cases pass : idPass requests curId with
    | goOn next => exact ⟨next, rfl, trivial⟩
    | done id =>
        obtain ⟨nonzero, free⟩ := idPass_done pass
        obtain ⟨found, isFound⟩ := within_idPass_of_free nonzero free _
        cases none.symm.trans isFound

end Search

variable {manager next : Requester}

theorem getID_of_free {packets : List Packet} {id : UInt16}
    (socket : manager.udpsock = some packets)
    (room : packets.length ≠ 65535) (free : manager.IsFree id) :
    ∃ found, manager.getID = .returned found ∧ manager.IsFree found := by
  obtain ⟨found, isFound⟩ := within_idPass_of_free free.1 free.2 manager.curId
  refine ⟨found, ?_, ?_⟩
  · rw [getID, socket]
    dsimp only
    rw [if_neg room, isFound]
  · exact Ends.of_passes (fun _ => True) (fun _ _ => trivial)
      (fun _ isDone => idPass_done isDone) trivial ⟨_, isFound⟩

theorem getID_of_taken {packets : List Packet} (socket : manager.udpsock = some packets)
    (room : packets.length ≠ 65535) (taken : ∀ id, ¬manager.IsFree id) :
    manager.getID = .hangs := by
  have none : within (idPass manager.requests) 65536 manager.curId = none := by
    rw [← diverges_idPass_iff, diverges_iff]
    intro id ends
    exact taken id (ends.of_passes (fun _ => True) (fun _ _ => trivial)
      (fun _ isDone => idPass_done isDone) trivial)
  rw [getID, socket]
  dsimp only
  rw [if_neg room, none]

theorem getID_of_full {packets : List Packet} (socket : manager.udpsock = some packets)
    (full : packets.length = 65535) : manager.getID = .thrown "DNS queue full" := by
  rw [getID, socket]
  exact if_pos full

/-! ## The number of requests -/

/-- The identifier of a request that has not been sent is that of no request. -/
def Sound (manager : Requester) : Prop :=
  0 ∉ manager.requests

/-- There is a free identifier as long as there are fewer requests than identifiers. -/
theorem exists_isFree_iff (sound : manager.Sound) :
    (∃ id, manager.IsFree id) ↔ manager.requests.keys.length < 65535 := by
  have injective : Function.Injective UInt16.toNat := fun _ _ same => UInt16.toNat_inj.mp same
  have nodup : (manager.requests.keys.map UInt16.toNat).Nodup :=
    manager.requests.keys_nodup.map injective
  have card : (manager.requests.keys.map UInt16.toNat).toFinset.card =
      manager.requests.keys.length := by
    rw [List.toFinset_card_of_nodup nodup, List.length_map]
  have within : (manager.requests.keys.map UInt16.toNat).toFinset ⊆ Finset.Ico 1 65536 := by
    intro number mem
    rw [List.mem_toFinset, List.mem_map] at mem
    obtain ⟨id, isKey, rfl⟩ := mem
    have nonzero : id.toNat ≠ 0 := by
      intro zero
      rw [← UInt16.toNat_zero, UInt16.toNat_inj] at zero
      subst zero
      exact sound (AList.mem_keys.mpr isKey)
    exact Finset.mem_Ico.mpr ⟨Nat.one_le_iff_ne_zero.mpr nonzero, id.toNat_lt⟩
  have size : (Finset.Ico 1 65536).card = 65535 := Nat.card_Ico 1 65536
  constructor
  · rintro ⟨id, nonzero, free⟩
    rw [← card, ← size]
    refine Finset.card_lt_card ((Finset.ssubset_iff_of_subset within).mpr ⟨id.toNat, ?_, ?_⟩)
    · refine Finset.mem_Ico.mpr ⟨Nat.one_le_iff_ne_zero.mpr fun zero => nonzero ?_, id.toNat_lt⟩
      rwa [← UInt16.toNat_zero, UInt16.toNat_inj] at zero
    · rw [List.mem_toFinset, List.mem_map_of_injective injective]
      exact fun isKey => free (AList.mem_keys.mpr isKey)
  · intro fewer
    rw [← card, ← size] at fewer
    obtain ⟨number, inside, notTaken⟩ := Finset.exists_mem_notMem_of_card_lt_card fewer
    obtain ⟨positive, bound⟩ := Finset.mem_Ico.mp inside
    have isNumber : (UInt16.ofNat number).toNat = number := UInt16.toNat_ofNat_of_lt' bound
    refine ⟨UInt16.ofNat number, ?_, ?_⟩
    · intro zero
      rw [zero, UInt16.toNat_zero] at isNumber
      omega
    · intro isKey
      refine notTaken (List.mem_toFinset.mpr (List.mem_map.mpr ⟨_, ?_, isNumber⟩))
      exact AList.mem_keys.mp isKey

/-! ## Runs -/

theorem requests_notifyAll {targets : List (Option Endpoint)}
    (notified : manager.notifyAll targets = some next) :
    next.requests = manager.requests ∧ next.udpsock = manager.udpsock := by
  induction targets generalizing manager with
  | nil =>
      cases notified
      exact ⟨rfl, rfl⟩
  | cons target targets ih =>
      cases target with
      | none =>
          cases notified
          exact ⟨rfl, rfl⟩
      | some target =>
          rw [notifyAll] at notified
          cases fetched : manager.getID with
          | returned id =>
              rw [fetched] at notified
              exact @ih { manager with curId := id } notified
          | thrown reason =>
              rw [fetched] at notified
              exact ih notified
          | crashes | hangs =>
              rw [fetched] at notified
              cases notified

/-- A new request is put under an identifier that was free. -/
theorem requests_process {question : Question} {useCache : Bool}
    (finished : manager.process question useCache = .finished next) :
    (∃ request, next.requests = (manager.removeRequest request).requests) ∨
      ∃ id request, manager.IsFree id ∧ next.requests = manager.requests.insert id request := by
  rw [process] at finished
  dsimp only at finished
  split at finished
  · cases finished
    exact .inl ⟨_, rfl⟩
  · cases socket : manager.udpsock with
    | none =>
        rw [socket] at finished
        cases finished
    | some packets =>
        rw [socket] at finished
        cases fetched : manager.getID with
        | returned id =>
            rw [fetched] at finished
            cases finished
            refine .inr ⟨id, _, ?_, rfl⟩
            rw [getID, socket] at fetched
            dsimp only at fetched
            split at fetched
            · cases fetched
            · split at fetched
              next found isFound =>
                cases fetched
                exact Ends.of_passes (fun _ => True) (fun _ _ => trivial)
                  (fun _ isDone => idPass_done isDone) trivial ⟨_, isFound⟩
              next => cases fetched
        | thrown reason | crashes | hangs =>
            rw [fetched] at finished
            cases finished

theorem requests_handle (resolver : Resolver) (onDnsRequest : OnDnsRequest)
    (sender : Option Endpoint) (packet : Packet) :
    (resolver.handle onDnsRequest sender packet).1.requests = resolver.requests ∨
      ∃ request, (resolver.handle onDnsRequest sender packet).1.requests =
        (resolver.removeRequest request).requests := by
  unfold Resolver.handle
  split
  · split <;> exact .inl rfl
  · split
    · exact .inl rfl
    · split
      · exact .inl rfl
      · rename_i request _
        refine .inr ⟨request, ?_⟩
        unfold Resolver.complete
        split
        · rfl
        · split
          · rfl
          · split <;> rfl

theorem sound_removeRequest {resolver : Resolver} (sound : 0 ∉ resolver.requests)
    (request : Request) : 0 ∉ (resolver.removeRequest request).requests := by
  rw [Resolver.removeRequest, AList.mem_erase]
  exact fun mem => sound mem.2

/-- Every event keeps the identifiers of the requests nonzero. -/
theorem Sound.step {event : RequestEvent} (sound : manager.Sound)
    (stepped : manager.step event = some next) : next.Sound := by
  cases event with
  | process question useCache =>
      rw [Requester.step] at stepped
      cases outcome : manager.process question useCache with
      | finished other =>
          rw [outcome] at stepped
          cases stepped
          rw [Sound]
          rcases requests_process outcome with ⟨request, same⟩ | ⟨id, request, free, same⟩
          · rw [same]
            exact sound_removeRequest sound request
          · rw [same, AList.mem_insert]
            exact not_or.mpr ⟨free.1.symm, sound⟩
      | thrown reason =>
          rw [outcome] at stepped
          cases stepped
          exact sound
      | crashes | hangs =>
          rw [outcome] at stepped
          cases stepped
  | write =>
      obtain ⟨packets, -, rfl⟩ := Option.map_eq_some_iff.mp stepped
      exact sound
  | receive onDnsRequest sender packet =>
      have kept : 0 ∉ (manager.handle onDnsRequest sender packet).1.requests := by
        rcases requests_handle manager.toResolver onDnsRequest sender packet with
          same | ⟨request, same⟩
        · rwa [same]
        · rw [same]
          exact sound_removeRequest sound request
      cases sender with
      | none =>
          cases stepped
          exact kept
      | some sender =>
          obtain ⟨packets, -, rfl⟩ := Option.map_eq_some_iff.mp stepped
          exact kept
  | destroy id =>
      obtain ⟨request, -, rfl⟩ := Option.map_eq_some_iff.mp stepped
      exact sound_removeRequest sound request
  | notify =>
      rw [Sound, (requests_notifyAll stepped).1]
      exact sound
  | setIPPort | tick | timeStep =>
      cases stepped
      exact sound

theorem sound_new (curTime : Int) (curId : UInt16) : (new curTime curId).Sound :=
  List.not_mem_nil

/-- What `GetID` and `Process` do in a state: where `GetID` can be called it ends, and returns
a free identifier when there is one; `Process` throws when there is none. -/
structure IdsSound (manager : Requester) : Prop where
  ends : (manager.udpsock ≠ none ∨ ∃ target, manager.notify.head? = some (some target)) →
    manager.getID ≠ .crashes ∧ manager.getID ≠ .hangs
  returns : manager.udpsock ≠ none → (∃ id, manager.IsFree id) →
    ∃ id, manager.getID = .returned id ∧ manager.IsFree id
  rejects : (∀ id, ¬manager.IsFree id) → ∀ question useCache,
    (useCache = true → manager.checkCache question = none) →
      ∃ reason, manager.process question useCache = .thrown reason

/-- There is nobody to notify without a socket, and the test for a full queue tells whether an
identifier is free. -/
structure Guarded (manager : Requester) : Prop where
  socket : manager.udpsock = none → ∀ target, manager.notify.head? ≠ some (some target)
  agree : ∀ packets, manager.udpsock = some packets →
    (manager.requests.keys.length < 65535 ↔ packets.length ≠ 65535)

theorem not_cached {question : Question} {useCache : Bool}
    (uncached : useCache = true → manager.checkCache question = none) :
    ¬(useCache = true ∧ (manager.checkCache question).isSome) := by
  rintro ⟨use, cached⟩
  rw [uncached use] at cached
  cases cached

theorem process_of_thrown {packets : List Packet} (socket : manager.udpsock = some packets)
    {question : Question} {useCache : Bool}
    (uncached : useCache = true → manager.checkCache question = none) :
    (∃ reason, manager.process question useCache = .thrown reason) ↔
      ∃ reason, manager.getID = .thrown reason := by
  rw [process]
  dsimp only
  rw [if_neg (not_cached uncached), socket]
  cases manager.getID <;> simp

theorem idsSound_iff (sound : manager.Sound) : manager.IdsSound ↔ manager.Guarded := by
  have some_free := exists_isFree_iff sound
  constructor
  · intro ids
    constructor
    · intro socket target isTarget
      refine (ids.ends (.inr ⟨target, isTarget⟩)).1 ?_
      rw [getID, socket]
    · intro packets socket
      have opened : manager.udpsock ≠ none := by rw [socket]; exact Option.some_ne_none _
      constructor
      · intro fewer full
        obtain ⟨id, returned, -⟩ := ids.returns opened (some_free.mpr fewer)
        cases (getID_of_full socket full).symm.trans returned
      · intro room
        by_contra all
        have taken := not_exists.mp (mt some_free.mp all)
        exact (ids.ends (.inl opened)).2 (getID_of_taken socket room taken)
  · intro guarded
    cases socket : manager.udpsock with
    | none =>
        constructor
        · rintro (opened | ⟨target, isTarget⟩)
          · exact absurd socket opened
          · exact absurd isTarget (guarded.socket socket target)
        · exact fun opened => absurd socket opened
        · intro _ question useCache uncached
          refine ⟨"No dns socket", ?_⟩
          rw [process]
          dsimp only
          rw [if_neg (not_cached uncached), socket]
    | some packets =>
        have agree := some_free.trans (guarded.agree packets socket)
        by_cases room : packets.length = 65535
        · have full := getID_of_full socket room
          constructor
          · intro _
            rw [full]
            exact ⟨Fetch.noConfusion, Fetch.noConfusion⟩
          · exact fun _ free => absurd room (agree.mp free)
          · exact fun _ question useCache uncached =>
              (process_of_thrown socket uncached).mpr ⟨_, full⟩
        · obtain ⟨id, free⟩ := agree.mpr room
          obtain ⟨found, returned, isFree⟩ := getID_of_free socket room free
          constructor
          · intro _
            rw [returned]
            exact ⟨Fetch.noConfusion, Fetch.noConfusion⟩
          · exact fun _ _ => ⟨found, returned, isFree⟩
          · exact fun taken => absurd free (taken id)

/-- In the states of a run identifiers are found, and requests rejected, exactly as long as the
test for a full queue agrees with the number of requests. -/
theorem always_idsSound_iff (curTime : Int) (curId : UInt16) (events : List RequestEvent) :
    Always step IdsSound (new curTime curId) events ↔
      Always step Guarded (new curTime curId) events :=
  always_congr Sound Sound.step (fun sound => idsSound_iff sound)
    (sound_new curTime curId) events

/-! ## Requests without replies -/

/-- A request and the writing of its packet, some number of times. -/
def unanswered (question : Question) : Nat → List RequestEvent
  | 0 => []
  | count + 1 => unanswered question count ++ [.process question false, .write]

/-- The first identifiers are taken, and nothing waits in the socket. -/
structure Waiting (count : Nat) (manager : Requester) : Prop where
  last : manager.curId.toNat = count
  taken : ∀ id, id ∈ manager.requests ↔ 0 < id.toNat ∧ id.toNat ≤ count
  written : manager.udpsock = some []

/-- The next identifier is taken by the next request. -/
theorem Waiting.succ {count : Nat} (waiting : Waiting count manager) (room : count < 65535)
    (question : Question) : ∃ next,
      run step manager [.process question false, .write] = some next ∧
        Waiting (count + 1) next := by
  have position : (manager.curId + 1).toNat = count + 1 := by
    rw [UInt16.toNat_add, waiting.last]
    exact Nat.mod_eq_of_lt (Nat.add_lt_of_lt_sub room)
  have nonzero : manager.curId + 1 ≠ 0 := by
    intro zero
    rw [zero, UInt16.toNat_zero] at position
    omega
  have free : manager.curId + 1 ∉ manager.requests := by
    rw [waiting.taken, position]
    omega
  have pass : idPass manager.requests manager.curId = .done (manager.curId + 1) := by
    rw [idPass]
    exact if_neg (not_or.mpr ⟨nonzero, free⟩)
  have fetched : manager.getID = .returned (manager.curId + 1) := by
    rw [getID, waiting.written]
    dsimp only
    rw [if_neg (by decide), within_of_done pass]
  have processed : manager.process question false = .finished
      { manager with
        curId := manager.curId + 1
        requests := manager.requests.insert (manager.curId + 1)
          { question with id := manager.curId + 1, useCache := false }
        udpsock := some [requestPacket { question with
          id := manager.curId + 1, useCache := false }] } := by
    rw [process]
    dsimp only
    rw [if_neg fun cached => Bool.noConfusion cached.1, waiting.written, fetched]
    rfl
  refine ⟨_, by rw [run, step, processed]; rfl, position, fun id => ?_, rfl⟩
  rw [AList.mem_insert, waiting.taken, ← UInt16.toNat_inj, position]
  omega

theorem Waiting.unanswered {count : Nat} (room : count ≤ 65535) (waiting : Waiting 0 manager)
    (question : Question) : ∃ next,
      run step manager (unanswered question count) = some next ∧ Waiting count next := by
  induction count with
  | zero => exact ⟨manager, rfl, waiting⟩
  | succ count ih =>
      obtain ⟨middle, reached, waits⟩ := ih (Nat.le_of_succ_le room)
      obtain ⟨next, stepped, waits'⟩ := waits.succ room question
      refine ⟨next, ?_, waits'⟩
      rw [Requester.unanswered, run_append, reached]
      exact stepped

/-- When 65535 requests wait for replies and their packets are written, `GetID` looks for an
identifier forever. -/
theorem not_idsSound_unanswered : ¬∀ curTime curId events,
    Always step IdsSound (new curTime curId) events := by
  intro always
  obtain ⟨count, isCount⟩ : ∃ count, count = 65535 := ⟨_, rfl⟩
  have opened : step (new 0 0) (.setIPPort ⟨.unspec, 53⟩ true false []) =
      some { new 0 0 with addrs := ⟨.unspec, 53⟩, udpsock := some [] } := rfl
  have initially : Waiting 0 { new 0 0 with addrs := ⟨.unspec, 53⟩, udpsock := some [] } := by
    refine ⟨rfl, fun id => iff_of_false List.not_mem_nil ?_, rfl⟩
    rintro ⟨positive, none⟩
    exact Nat.lt_irrefl 0 (Nat.lt_of_lt_of_le positive none)
  obtain ⟨final, reached, waiting⟩ := initially.unanswered (Nat.le_of_eq isCount) ⟨[], .a, 1⟩
  have sound : final.IdsSound := by
    refine (always 0 0 (.setIPPort ⟨.unspec, 53⟩ true false [] ::
      Requester.unanswered ⟨[], .a, 1⟩ count)).of_run ?_
    rw [run, opened]
    exact reached
  subst isCount
  have socket : final.udpsock ≠ none := by
    rw [waiting.written]
    exact Option.some_ne_none _
  refine (sound.ends (.inl socket)).2 (getID_of_taken waiting.written (by decide) fun id free => ?_)
  refine free.2 ((waiting.taken id).mpr ⟨Nat.pos_of_ne_zero fun zero => free.1 ?_, ?_⟩)
  · rwa [← UInt16.toNat_zero, UInt16.toNat_inj] at zero
  · exact Nat.le_of_lt_succ id.toNat_lt

end Requester

end Anope.Dns
