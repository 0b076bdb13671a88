import Anope.Library.BigEndian
import Anope.Library.Scan
import Anope.Net.Cidr.Core

/-!
# The DNS packet parser

`Packet::Fill` and what it calls.  A read outside the buffer is a result of its
own.  Positions are natural numbers: they stay within the buffer, whose length
is an `unsigned short`.
-/

namespace Anope.Dns

open Library.BigEndian
open Library.Scan
open Anope.Net

/-! ## Records -/

/-- The values of the enumerators of `QueryType`. -/
def namedTypes : List UInt16 :=
  [0, 1, 2, 5, 6, 12, 16, 28, 33, 252, 255]

/-- A `QueryType`.  The parser casts any sixteen bits to it, so that there are
values without an enumerator. -/
inductive QueryType where
  | none
  | a
  | ns
  | cname
  | soa
  | ptr
  | txt
  | aaaa
  | srv
  | axfr
  | any
  | other (code : UInt16) (unnamed : code ∉ namedTypes)
  deriving DecidableEq, Repr

/-- The cast to `QueryType`. -/
def QueryType.ofCode (code : UInt16) : QueryType :=
  if code = 0 then .none
  else if code = 1 then .a
  else if code = 2 then .ns
  else if code = 5 then .cname
  else if code = 6 then .soa
  else if code = 12 then .ptr
  else if code = 16 then .txt
  else if code = 28 then .aaaa
  else if code = 33 then .srv
  else if code = 252 then .axfr
  else if code = 255 then .any
  else if unnamed : code ∉ namedTypes then .other code unnamed
  else .none

/-- The value of a `QueryType`. -/
def QueryType.code : QueryType → UInt16
  | none => 0
  | a => 1
  | ns => 2
  | cname => 5
  | soa => 6
  | ptr => 12
  | txt => 16
  | aaaa => 28
  | srv => 33
  | axfr => 252
  | any => 255
  | other code _ => code

/-- A `Question`. -/
structure Question where
  name : Str
  type : QueryType
  qclass : UInt16
  deriving DecidableEq, Repr

/-- A `Record::SRV`. -/
structure Srv where
  priority : UInt16
  weight : UInt16
  port : UInt16
  host : Str
  deriving DecidableEq, Repr

/-- A `ResourceRecord`. -/
structure ResourceRecord extends Question where
  ttl : UInt32
  rdata : Str
  rdataobj : Option Srv
  created : Int
  deriving DecidableEq, Repr

/-- A `Packet`, without the socket address and the manager. -/
structure Packet where
  id : UInt16
  flags : UInt16
  questions : List Question
  answers : List ResourceRecord
  authorities : List ResourceRecord
  additional : List ResourceRecord
  deriving DecidableEq, Repr

/-! ## Names -/

/-- `Packet::IsValidName`. -/
def isValidName (name : Str) : Bool :=
  name.all fun c =>
    (48 ≤ c ∧ c ≤ 57) ∨ (97 ≤ c ∧ c ≤ 122) ∨ (65 ≤ c ∧ c ≤ 90) ∨ c = 46 ∨ c = 45

/-- A label behind the labels read so far. -/
def appendLabel (name label : Str) : Str :=
  if name = [] then label else name ++ 46 :: label

/-- The place a compression pointer leads to, from its two bytes. -/
def pointerTarget (offset low : UInt8) : Nat :=
  (offset &&& 0x3F).toNat * 256 + low.toNat

/-- The loop of `Packet::UnpackName`, with its local variables. -/
def unpackNameLoop (input : Str) (posPtr lowestPtr pos : Nat) (compressed : Bool) (name : Str) :
    Result (Str × Nat) :=
  match input[posPtr]? with
  | none => .error .outOfBounds
  | some offset =>
      if offset = 0 then .ok (name, pos + 1)
      else if offset &&& 0xC0 ≠ 0 then
        if offset &&& 0xC0 ≠ 0xC0 then
          .error (.thrown "Unable to unpack name - bogus compression header")
        else if posPtr + 1 ≥ input.length then
          .error (.thrown "Unable to unpack name - bogus compression header")
        else
          match input[posPtr + 1]? with
          | none => .error .outOfBounds
          | some low =>
              -- Only the first pointer moves `pos`, to its second byte.
              let pos := if compressed then pos else pos + 1
              if _back : pointerTarget offset low ≥ lowestPtr then
                .error (.thrown "Unable to unpack name - bogus compression pointer")
              else
                unpackNameLoop input (pointerTarget offset low) (pointerTarget offset low) pos
                  true name
      else if _inside : posPtr + offset.toNat + 1 ≥ input.length then
        .error (.thrown "Unable to unpack name - offset too large")
      else
        match readAt input (posPtr + 1) offset.toNat with
        | .error fault => .error fault
        | .ok label =>
            let next := posPtr + (offset.toNat + 1)
            unpackNameLoop input next lowestPtr (if compressed then pos else next) compressed
              (appendLabel name label)
termination_by (lowestPtr, input.length - posPtr)

/-- `Packet::UnpackName`. -/
def unpackName (input : Str) (pos : Nat) : Result (Str × Nat) := do
  require (pos < input.length) "Unable to unpack name - no input"
  unpackNameLoop input pos input.length pos false []

/-! ## Questions and records -/

/-- A number in network order. -/
def readNumber (input : Str) (pos count : Nat) : Result Nat := do
  let bytes ← readAt input pos count
  return ofBytes bytes

/-- `Packet::UnpackQuestion`. -/
def unpackQuestion (input : Str) (pos : Nat) : Result (Question × Nat) := do
  let (name, pos) ← unpackName input pos
  require (pos + 4 ≤ input.length) "Unable to unpack question"
  require (isValidName name) "Invalid question name"
  let type ← readNumber input pos 2
  let qclass ← readNumber input (pos + 2) 2
  return (⟨name, .ofCode (.ofNat type), .ofNat qclass⟩, pos + 4)

/-- The address that some bytes are. -/
def addressOf (size : Nat) (bytes : Str) : Vector UInt8 size :=
  .ofFn fun index => bytes.getD index 0

/-- `sockaddrs::ntop`, with `inet_ntop` and the member of the union for a family:
without a text for it the address is cleared. -/
def ntop {size : Nat} (format : Vector UInt8 size → Option Str)
    (store : Vector UInt8 size → Sockaddrs) (src : Vector UInt8 size) : Sockaddrs :=
  if (format src).isSome then store src else .unspec

/-- A number as `%hu` prints it. -/
def decimal (number : UInt16) : Str :=
  ascii (toString number.toNat)

/-- The text of an `SRV` record, by the format `"%hu %hu %hu %s"`. -/
def Srv.text (srv : Srv) : Str :=
  decimal srv.priority ++ 32 :: decimal srv.weight ++ 32 :: decimal srv.port ++ 32 :: srv.host

/-- The cases `QUERY_A` and `QUERY_AAAA` of `Packet::UnpackResourceRecord`. -/
def unpackAddress (lib : Inet) {size : Nat} (format : Vector UInt8 size → Option Str)
    (store : Vector UInt8 size → Sockaddrs) (input : Str) (pos : Nat) :
    Result ((Str × Option Srv) × Nat) := do
  require (pos + size ≤ input.length) "Unable to unpack resource record"
  let bytes ← readAt input pos size
  let addrs := ntop format store (addressOf size bytes)
  require addrs.valid "Invalid IP"
  return ((addrs.addr lib, none), pos + size)

/-- The data of a record, by its type: the text, the object, and the position
behind it. -/
def unpackData (lib : Inet) (input : Str) (type : QueryType) (rdlength pos : Nat) :
    Result ((Str × Option Srv) × Nat) :=
  match type with
  | .a => unpackAddress lib lib.ntop4 .inet input pos
  | .aaaa => unpackAddress lib lib.ntop6 .inet6 input pos
  | .cname | .ptr => do
      let (rdata, pos) ← unpackName input pos
      require (isValidName rdata) "Invalid cname/ptr record data"
      return ((rdata, none), pos)
  | .txt => do
      require (pos + rdlength ≤ input.length) "Unable to unpack TXT resource record"
      let txtlength ← readNumber input pos 1
      let pos := pos + 1
      require (pos + txtlength ≤ input.length) "Unable to unpack TXT resource record"
      let rdata ← readAt input pos txtlength
      return ((rdata, none), pos + rdlength - 1)
  | .srv => do
      require (6 ≤ rdlength ∧ pos + rdlength ≤ input.length)
        "Unable to unpack SRV resource record"
      let priority ← readNumber input pos 2
      let weight ← readNumber input (pos + 2) 2
      let port ← readNumber input (pos + 4) 2
      let (host, pos) ← unpackName input (pos + 6)
      require (isValidName host) "Invalid name in SRV resource record"
      let srv : Srv := ⟨.ofNat priority, .ofNat weight, .ofNat port, host⟩
      return ((srv.text, some srv), pos)
  | _ => return (([], none), pos)

/-- `Packet::UnpackResourceRecord` at a time `now`. -/
def unpackResourceRecord (lib : Inet) (now : Int) (input : Str) (pos : Nat) :
    Result (ResourceRecord × Nat) := do
  let (question, pos) ← unpackQuestion input pos
  require (pos + 6 ≤ input.length) "Unable to unpack resource record"
  let ttl ← readNumber input pos 4
  let rdlength ← readNumber input (pos + 4) 2
  let ((rdata, rdataobj), pos) ← unpackData lib input question.type rdlength (pos + 6)
  return ({ question with ttl := .ofNat ttl, rdata, rdataobj, created := now }, pos)

/-- `Packet::HEADER_LENGTH`. -/
def headerLength : Nat := 12

/-- The loops inside the `try` of `Packet::Fill`. -/
def unpackRest (lib : Inet) (now : Int) (input : Str) (nscount arcount pos : Nat) :
    Result (List ResourceRecord × List ResourceRecord) := do
  let (authorities, caught) ← manyCaught (unpackResourceRecord lib now input) nscount pos
  match caught with
  | none => return (authorities, [])
  | some pos => do
      let (additional, _) ← manyCaught (unpackResourceRecord lib now input) arcount pos
      return (authorities, additional)

/-- `Packet::Fill` on a new packet at a time `now`. -/
def fill (lib : Inet) (now : Int) (input : Str) : Result Packet := do
  require (headerLength ≤ input.length) "Unable to fill packet"
  let id ← readNumber input 0 2
  let flags ← readNumber input 2 2
  let qdcount ← readNumber input 4 2
  let ancount ← readNumber input 6 2
  let nscount ← readNumber input 8 2
  let arcount ← readNumber input 10 2
  let (questions, pos) ← many (unpackQuestion input) qdcount headerLength
  let (answers, pos) ← many (unpackResourceRecord lib now input) ancount pos
  let (authorities, additional) ← unpackRest lib now input nscount arcount pos
  return { id := .ofNat id, flags := .ofNat flags, questions, answers, authorities, additional }

end Anope.Dns
