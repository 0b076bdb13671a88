import Anope.Dns.Cache
import Anope.Dns.RoundTrip

/-!
# Replies to DNS requests

`MyManager::HandlePacket`.  A reply is tied to a request by its identifier and
its sender: its question is not compared with the one that was asked, and it is
the question of the reply under which the answer is cached.
-/

namespace Anope.Dns

open Library.Scan
open Library.Split (tokens)
open Anope.Net

/-! ## Handling a packet -/

/-- `DNS::Error`. -/
inductive ErrorCode where
  | none
  | unknown
  | unloaded
  | timedOut
  | notAnAnswer
  | nonstandardQuery
  | formatError
  | serverFailure
  | domainNotFound
  | notImplemented
  | refused
  | noRecords
  | invalidType
  deriving DecidableEq, Repr

/-- A packet with the error in its `Query`. -/
structure Reply extends Packet where
  error : ErrorCode
  deriving DecidableEq

/-- A `DNS::Request`, which is a question. -/
structure Request extends Question where
  id : UInt16
  useCache : Bool
  deriving DecidableEq

/-- The address and the port of a `sockaddrs`. -/
structure Endpoint where
  addr : Sockaddrs
  port : UInt16
  deriving DecidableEq

/-- A `MyManager` with the requests that wait for a reply, the address of the
nameserver, and the settings for questions of others. -/
structure Resolver extends MyManager where
  requests : AList fun _ : UInt16 => Request
  addrs : Endpoint
  listen : Bool
  nameservers : Str

/-- What a packet makes the manager do. -/
inductive Effect where
  | reply (reply : Reply)
  | onError (request : Request) (query : Reply)
  | onLookupComplete (request : Request) (query : Packet)

/-- The handlers of `OnDnsRequest`, which see the packet and change the response. -/
abbrev OnDnsRequest := Packet → Reply → Packet × Reply

/-- The error for the response code of a reply. -/
def rcodeError (rcode : UInt16) : ErrorCode :=
  if rcode = 1 then .formatError
  else if rcode = 2 then .serverFailure
  else if rcode = 3 then .domainNotFound
  else if rcode = 4 then .notImplemented
  else if rcode = 5 then .refused
  else .unknown

namespace Resolver

/-- A new `ResourceRecord` of a name and a type. -/
def newRecord (resolver : Resolver) (name : Str) (type : QueryType) (rdata : Str) :
    ResourceRecord where
  name := name
  type := type
  qclass := 1
  ttl := 0
  rdata := rdata
  rdataobj := none
  created := resolver.curTime

/-- The response to a question of somebody else. -/
def respond (onDnsRequest : OnDnsRequest) (resolver : Resolver) (recvPacket : Packet) : Reply :=
  let zone := recvPacket.questions.find? fun q => q.type = .axfr ∨ q.type = .soa
  let answers :=
    match zone with
    | none => []
    | some q =>
        resolver.newRecord q.name .soa [] ::
          if q.type = .axfr then
            (tokens 32 resolver.nameservers).map (resolver.newRecord q.name .ns)
          else []
  let packet : Reply :=
    { recvPacket with
      flags := recvPacket.flags ||| 0x8000 ||| 0x400
      answers := answers
      authorities := []
      additional := []
      error := .none }
  let (recvPacket, packet) := onDnsRequest recvPacket packet
  let packet :=
    match recvPacket.questions.find? fun q => q.type = .axfr with
    | none => packet
    | some q => { packet with answers := packet.answers ++ [resolver.newRecord q.name .soa []] }
  if packet.answers = [] ∧ packet.authorities = [] ∧ packet.additional = [] ∧
      packet.error = .none then
    { packet with error := .refused }
  else packet

/-- `MyManager::RemoveRequest`. -/
def removeRequest (resolver : Resolver) (request : Request) : Resolver :=
  { resolver with requests := resolver.requests.erase request.id }

/-- A reply to a request, which is destroyed then. -/
def complete (resolver : Resolver) (recvPacket : Packet) (request : Request) :
    Resolver × List Effect :=
  if recvPacket.flags &&& 0x7800 ≠ 0 then
    (resolver.removeRequest request,
      [.onError request { recvPacket with error := .nonstandardQuery }])
  else if recvPacket.flags &&& 0xF ≠ 0 then
    (resolver.removeRequest request,
      [.onError request { recvPacket with error := rcodeError (recvPacket.flags &&& 0xF) }])
  else if present : recvPacket.questions ≠ [] ∧ recvPacket.answers ≠ [] then
    let r : Query :=
      { recvPacket with
        asked := present.1
        answered := present.2 }
    ({ resolver with toMyManager := resolver.addCache r }.removeRequest request,
      [.onLookupComplete request recvPacket])
  else
    (resolver.removeRequest request,
      [.onError request { recvPacket with error := .noRecords }])

/-- What `HandlePacket` does with a packet that it could read. -/
def handle (onDnsRequest : OnDnsRequest) (resolver : Resolver) (sender : Option Endpoint)
    (recvPacket : Packet) : Resolver × List Effect :=
  if recvPacket.flags &&& 0x8000 = 0 then
    if resolver.listen = false ∨ recvPacket.questions = [] then (resolver, [])
    else (resolver, [.reply (resolver.respond onDnsRequest recvPacket)])
  else if sender ≠ some resolver.addrs then (resolver, [])
  else
    match resolver.requests.lookup recvPacket.id with
    | none => (resolver, [])
    | some request => resolver.complete recvPacket request

/-- The packet in a buffer, whose length `Fill` takes as an `unsigned short`. -/
def receive (lib : Inet) (resolver : Resolver) (packetBuffer : Str) : Result Packet :=
  fill lib resolver.curTime (packetBuffer.take (UInt16.ofNat packetBuffer.length).toNat)

/-- `MyManager::HandlePacket`; over TCP there is no sender. -/
def handlePacket (lib : Inet) (onDnsRequest : OnDnsRequest) (resolver : Resolver)
    (packetBuffer : Str) (sender : Option Endpoint) : Result (Resolver × List Effect) :=
  if packetBuffer.length < headerLength then .ok (resolver, [])
  else
    match resolver.receive lib packetBuffer with
    | .ok recvPacket => .ok (resolver.handle onDnsRequest sender recvPacket)
    | .error (.thrown _) => .ok (resolver, [])
    | .error .outOfBounds => .error .outOfBounds

/-! ## Accepted replies -/

/-- A packet passes every check of `HandlePacket` and answers a request. -/
structure Accepts (resolver : Resolver) (sender : Option Endpoint) (packet : Packet)
    (request : Request) : Prop where
  response : packet.flags &&& 0x8000 ≠ 0
  sender : sender = some resolver.addrs
  outstanding : resolver.requests.lookup packet.id = some request
  opcode : packet.flags &&& 0x7800 = 0
  rcode : packet.flags &&& 0xF = 0
  asked : packet.questions ≠ []
  answered : packet.answers ≠ []

/-- The manager and its effects complete a request or change what is cached. -/
def Completes (resolver next : Resolver) (effects : List Effect) : Prop :=
  (∃ request query, .onLookupComplete request query ∈ effects) ∨
    ∃ question, next.checkCache question ≠ resolver.checkCache question

variable {onDnsRequest : OnDnsRequest} {resolver : Resolver} {sender : Option Endpoint}
  {packet : Packet} {request : Request}

theorem completes_complete_iff :
    Completes resolver (resolver.complete packet request).1
        (resolver.complete packet request).2 ↔
      packet.flags &&& 0x7800 = 0 ∧ packet.flags &&& 0xF = 0 ∧ packet.questions ≠ [] ∧
        packet.answers ≠ [] := by
  unfold complete
  split
  next opcode => simp [Completes, removeRequest, MyManager.checkCache, opcode]
  next opcode =>
    split
    next rcode => simp [Completes, removeRequest, MyManager.checkCache, rcode]
    next rcode =>
      split
      next present =>
        refine iff_of_true (.inl ⟨request, packet, List.mem_singleton_self _⟩) ?_
        exact ⟨not_not.mp opcode, not_not.mp rcode, present⟩
      next absent =>
        simp [Completes, removeRequest, MyManager.checkCache, not_not.mp opcode,
          not_not.mp rcode]
        simpa using absent

/-- A packet completes a request or changes the cache exactly when it is
accepted. -/
theorem completes_handle_iff :
    Completes resolver (resolver.handle onDnsRequest sender packet).1
        (resolver.handle onDnsRequest sender packet).2 ↔
      ∃ request, resolver.Accepts sender packet request := by
  unfold handle
  split
  next query =>
    have never : ¬∃ request, resolver.Accepts sender packet request := fun ⟨_, accepts⟩ =>
      accepts.response query
    refine iff_of_false ?_ never
    split <;> simp [Completes]
  next response =>
    split
    next stranger =>
      have never : ¬∃ request, resolver.Accepts sender packet request := fun ⟨_, accepts⟩ =>
        stranger accepts.sender
      exact iff_of_false (by simp [Completes]) never
    next known =>
      cases found : resolver.requests.lookup packet.id with
      | none =>
          have never : ¬∃ request, resolver.Accepts sender packet request :=
            fun ⟨_, accepts⟩ => Option.some_ne_none _ (accepts.outstanding.symm.trans found)
          exact iff_of_false (by simp [Completes]) never
      | some request =>
          rw [completes_complete_iff]
          constructor
          · rintro ⟨opcode, rcode, asked, answered⟩
            exact ⟨request, response, not_not.mp known, found, opcode, rcode, asked, answered⟩
          · rintro ⟨_, accepts⟩
            exact ⟨accepts.opcode, accepts.rcode, accepts.asked, accepts.answered⟩

/-! ## The question of a reply -/

/-- The question of a packet is the one that was sent for the request: the name
up to case, the type and the class. -/
def AsksFor (env : PackEnv) (request : Request) (packet : Packet) : Prop :=
  ∃ question name, packet.questions.head? = some question ∧
    questionName env request.toQuestion = .ok name ∧
    env.casemap.equalsCi question.name name = true ∧
    question.type = request.type ∧ question.qclass = request.qclass

/-- Handling a packet completes a request or changes what is cached only when the
question of the packet is that of the request with its identifier. -/
def AnswersOwnQuestion (env : PackEnv) (onDnsRequest : OnDnsRequest) (resolver : Resolver)
    (packetBuffer : Str) (sender : Option Endpoint) : Prop :=
  ∀ next effects,
    resolver.handlePacket env.lib onDnsRequest packetBuffer sender = .ok (next, effects) →
      Completes resolver next effects →
        ∃ packet request, resolver.receive env.lib packetBuffer = .ok packet ∧
          resolver.requests.lookup packet.id = some request ∧ AsksFor env request packet

theorem headerLength_le_of_receive {lib : Inet} {packetBuffer : Str}
    (received : resolver.receive lib packetBuffer = .ok packet) :
    headerLength ≤ packetBuffer.length := by
  obtain ⟨_, long, _⟩ := bind_eq_ok_iff.mp received
  rw [require_eq_ok_iff, List.length_take] at long
  exact long.trans (min_le_right _ _)

/-- A reply is checked against the question of its request nowhere else: replies
answer their own questions exactly when every one that is accepted happens to
have the question of the request. -/
theorem answersOwnQuestion_iff (env : PackEnv) (onDnsRequest : OnDnsRequest)
    (resolver : Resolver) (packetBuffer : Str) (sender : Option Endpoint) :
    AnswersOwnQuestion env onDnsRequest resolver packetBuffer sender ↔
      ∀ packet request, resolver.receive env.lib packetBuffer = .ok packet →
        resolver.Accepts sender packet request → AsksFor env request packet := by
  constructor
  · intro own packet request received accepts
    have handled : resolver.handlePacket env.lib onDnsRequest packetBuffer sender =
        .ok (resolver.handle onDnsRequest sender packet) := by
      rw [handlePacket, if_neg (Nat.not_lt.mpr (headerLength_le_of_receive received)), received]
    obtain ⟨packet', request', received', outstanding, asks⟩ :=
      own _ _ handled (completes_handle_iff.mpr ⟨request, accepts⟩)
    cases received.symm.trans received'
    cases accepts.outstanding.symm.trans outstanding
    exact asks
  · intro asks next effects handled completes
    have unchanged : ¬Completes resolver resolver [] := by simp [Completes]
    unfold handlePacket at handled
    split at handled
    · cases handled
      exact absurd completes unchanged
    · split at handled
      next packet received =>
        rw [Except.ok.injEq] at handled
        obtain ⟨rfl, rfl⟩ := Prod.ext_iff.mp handled
        obtain ⟨request, accepts⟩ := completes_handle_iff.mp completes
        exact ⟨packet, request, received, accepts.outstanding, asks packet request received accepts⟩
      next =>
        cases handled
        exact absurd completes unchanged
      next => cases handled

/-- A manager that waits for the address of one name. -/
def waitingResolver : Resolver where
  curTime := 0
  cache := ∅
  requests := AList.singleton 1 ⟨⟨ascii "dnsbl.example", .a, 1⟩, 1, true⟩
  addrs := ⟨.inet (.replicate 4 1), 53⟩
  listen := false
  nameservers := []

/-- A reply with its identifier and the address of another name. -/
def foreignReply : Packet where
  id := 1
  flags := 0x8180
  questions := [⟨ascii "uplink.example", .a, 1⟩]
  answers := [⟨⟨ascii "uplink.example", .a, 1⟩, 60, ascii "1.1.1.1", none, 0⟩]
  authorities := []
  additional := []

theorem receive_foreignReply :
    waitingResolver.receive defaultEnv.lib (encodePacket defaultEnv foreignReply) =
      .ok foreignReply := by
  have isName : IsName (ascii "uplink.example") :=
    ⟨⟨[ascii "uplink", ascii "example"], by decide, by decide, by decide⟩, by decide⟩
  have isPacket : IsPacket defaultEnv foreignReply := by
    constructor
    · intro question mem
      cases List.mem_singleton.mp mem
      exact ⟨by decide, isName⟩
    · intro record mem
      cases List.mem_singleton.mp mem
      exact ⟨isName, ⟨.replicate 4 1, by decide +kernel, by decide +kernel⟩, rfl⟩
  have whole : (encodePacket defaultEnv foreignReply).take
      (UInt16.ofNat (encodePacket defaultEnv foreignReply).length).toNat =
        encodePacket defaultEnv foreignReply :=
    List.take_of_length_le (by decide)
  rw [receive, whole]
  exact fill_encodePacket isPacket ⟨by decide, fun _ none => by contradiction⟩ 0

/-- The reply completes the request and is cached. -/
theorem not_answersOwnQuestion_foreignReply :
    ¬AnswersOwnQuestion defaultEnv Prod.mk waitingResolver
      (encodePacket defaultEnv foreignReply) (some waitingResolver.addrs) := by
  intro own
  have accepts : waitingResolver.Accepts (some waitingResolver.addrs) foreignReply
      ⟨⟨ascii "dnsbl.example", .a, 1⟩, 1, true⟩ :=
    ⟨by decide, rfl, by decide, by decide, by decide, by decide, by decide⟩
  have handled : waitingResolver.handlePacket defaultEnv.lib Prod.mk
      (encodePacket defaultEnv foreignReply) (some waitingResolver.addrs) =
        .ok (waitingResolver.handle Prod.mk (some waitingResolver.addrs) foreignReply) := by
    rw [handlePacket, if_neg (by decide), receive_foreignReply]
  have completes := (@completes_handle_iff Prod.mk _ _ _).mpr ⟨_, accepts⟩
  obtain ⟨packet, request, received, outstanding, question, name, first, sent, same, _⟩ :=
    own _ _ handled completes
  cases receive_foreignReply.symm.trans received
  cases accepts.outstanding.symm.trans outstanding
  cases first
  cases sent
  revert same
  decide

end Resolver

end Anope.Dns
