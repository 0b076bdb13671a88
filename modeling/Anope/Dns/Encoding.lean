import Anope.Dns.Wire
import Anope.Mode.Entry

/-!
# Writing DNS packets

`Packet::Pack` and `Packet::PackName`.  The output is the list of the bytes written
so far, so that its length is the position.
-/

namespace Anope.Dns

open Library.BigEndian
open Library.Scan
open Library.Split (tokens)
open Anope.Mode (sockaddrsOf)
open Anope.Net
open Anope.Text (Casemap)

/-- What `Pack` takes from outside the packet: the tables and functions behind
`sockaddrs`, the size of the output, and the settings for a start of authority. -/
structure PackEnv where
  casemap : Casemap
  lib : Inet
  outputSize : UInt16
  nameservers : Str
  admin : Str
  refresh : UInt32
  serial : UInt32

/-- The bytes of a name: each token of it behind its length, and a zero. -/
def encodeName (name : Str) : Str :=
  (tokens 46 name).flatMap (fun token => UInt8.ofNat token.length :: token) ++ [0]

/-- The bytes of a sixteen-bit number in network order. -/
def bytes16 (number : UInt16) : Str :=
  toBytes 2 number.toNat

/-- The bytes of a 32-bit number in network order. -/
def bytes32 (number : UInt32) : Str :=
  toBytes 4 number.toNat

/-- The text of an address backwards, by `sockaddrs::reverse`. -/
def reverse (lib : Inet) : Sockaddrs → Str
  | .inet ip => (lib.ntop4 ip.reverse).getD []
  | .inet6 ip =>
      let hex := ascii "0123456789abcdef"
      (ip.toList.reverse.flatMap fun byte : UInt8 =>
        [hex.getD (byte &&& 0xF).toNat 0, 46, hex.getD (byte >>> 4).toNat 0, 46]).dropLast
  | .unspec | .unix _ => []

/-- The member `sa4.sin_addr` of an address; an IPv6 address has its flow label
there, which is zero. -/
def sinAddr : Sockaddrs → Addr4
  | .inet ip => ip
  | .unspec | .inet6 _ | .unix _ => .replicate 4 0

/-- The member `sa6.sin6_addr` of an address; an IPv4 address has only zeros there. -/
def sin6Addr : Sockaddrs → Addr6
  | .inet6 ip => ip
  | .unspec | .inet _ | .unix _ => .replicate 16 0

section

variable (env : PackEnv)

/-- `Packet::PackName`. -/
def packName (output name : Str) : Result Str := do
  require (output.length + name.length + 2 ≤ env.outputSize.toNat) "Unable to pack name"
  return output ++ encodeName name

/-- The name that a question is packed with: an address for a `PTR` question is
turned into the name of its reverse zone. -/
def questionName (question : Question) : Result Str :=
  match question.type with
  | .ptr =>
      match sockaddrsOf env.casemap env.lib question.name with
      | .unspec => .error (.thrown "Invalid IP")
      | .inet6 ip => .ok (reverse env.lib (.inet6 ip) ++ ascii ".ip6.arpa")
      | .inet ip => .ok (reverse env.lib (.inet ip) ++ ascii ".in-addr.arpa")
      | .unix _ => .error (.thrown "Unsupported IP Family")
  | _ => .ok question.name

/-- A question behind the output. -/
def packQuestion (output : Str) (question : Question) : Result Str := do
  let name ← questionName env question
  let output ← packName env output name
  require (output.length + 4 < env.outputSize.toNat) "Unable to pack packet"
  return output ++ bytes16 question.type.code ++ bytes16 question.qclass

/-- Two bytes are left free, and filled with the number of bytes that were written
behind them. -/
def backPatch (output : Str) (write : Str → Result Str) : Result Str := do
  let written ← write (output ++ [0, 0])
  return output ++ toBytes 2 (written.length - output.length - 2) ++
    written.drop (output.length + 2)

/-- The length and the data of a record behind the output. -/
def packData (output : Str) (record : ResourceRecord) : Result Str :=
  match record.type with
  | .a => do
      require (output.length + 6 ≤ env.outputSize.toNat) "Unable to pack packet"
      let a := sockaddrsOf env.casemap env.lib record.rdata
      require a.valid "Invalid IP"
      return output ++ toBytes 2 4 ++ (sinAddr a).toList
  | .aaaa => do
      require (output.length + 18 ≤ env.outputSize.toNat) "Unable to pack packet"
      let a := sockaddrsOf env.casemap env.lib record.rdata
      require a.valid "Invalid IP"
      return output ++ toBytes 2 16 ++ (sin6Addr a).toList
  | .ns | .cname | .ptr => do
      require (output.length + 2 < env.outputSize.toNat) "Unable to pack packet"
      backPatch output fun output => packName env output record.rdata
  | .soa => do
      require (output.length + 2 < env.outputSize.toNat) "Unable to pack packet"
      backPatch output fun output => do
        let output ← packName env output ((tokens 32 env.nameservers).headD [])
        let output ← packName env output (env.admin.map fun c => if c = 64 then 46 else c)
        require (output.length + 20 < env.outputSize.toNat) "Unable to pack SOA"
        return output ++ bytes32 env.serial ++ bytes32 env.refresh ++ bytes32 env.refresh ++
          toBytes 4 604800 ++ toBytes 4 0
  | _ => .ok output

/-- A record behind the output. -/
def packRecord (output : Str) (record : ResourceRecord) : Result Str := do
  let output ← packName env output record.name
  require (output.length + 8 < env.outputSize.toNat) "Unable to pack packet"
  packData env
    (output ++ bytes16 record.type.code ++ bytes16 record.qclass ++ bytes32 record.ttl) record

/-- The header of a packet. -/
def encodeHeader (packet : Packet) : Str :=
  bytes16 packet.id ++ bytes16 packet.flags ++ toBytes 2 packet.questions.length ++
    toBytes 2 packet.answers.length ++ toBytes 2 packet.authorities.length ++
    toBytes 2 packet.additional.length

/-- `Packet::Pack`. -/
def pack (packet : Packet) : Result Str := do
  require (headerLength ≤ env.outputSize.toNat) "Unable to pack packet"
  let output ← packet.questions.foldlM (packQuestion env) (encodeHeader packet)
  let output ← packet.answers.foldlM (packRecord env) output
  let output ← packet.authorities.foldlM (packRecord env) output
  packet.additional.foldlM (packRecord env) output

end

/-!
## The bytes of questions and records

What stands in the bytes of a name, a question or a record is what they were written
from, as far as names have the characters that `IsValidName` allows and addresses are
written the way `inet_ntop` writes them.
-/

open Library.Split (tokens tokens_append tokens_of_not_mem)

/-! ## Names -/

/-- A label that can be written. -/
def IsLabel (label : Str) : Prop :=
  label ≠ [] ∧ label.length ≤ 63 ∧ 46 ∉ label

instance instDecidableIsLabel (label : Str) : Decidable (IsLabel label) :=
  inferInstanceAs (Decidable (_ ∧ _))

/-- A name of one or more labels. -/
def HasLabels (name : Str) : Prop :=
  ∃ labels, labels ≠ [] ∧ (∀ label ∈ labels, IsLabel label) ∧ name = joinLabels labels

theorem foldl_appendLabel {name : Str} (nonempty : name ≠ []) (labels : List Str) :
    labels.foldl appendLabel name = name ++ labels.flatMap fun label => 46 :: label := by
  induction labels generalizing name with
  | nil => exact (List.append_nil name).symm
  | cons label labels ih =>
      rw [List.foldl_cons, appendLabel, if_neg nonempty,
        ih (List.append_ne_nil_of_left_ne_nil nonempty _), List.flatMap_cons, List.append_assoc]

theorem joinLabels_cons {label : Str} (nonempty : label ≠ []) (labels : List Str) :
    joinLabels (label :: labels) = label ++ labels.flatMap fun label => 46 :: label := by
  rw [joinLabels, List.foldl_cons, appendLabel, if_pos rfl, foldl_appendLabel nonempty]

/-- The tokens of a name are its labels. -/
theorem tokens_joinLabels {labels : List Str} (nonempty : labels ≠ [])
    (isLabel : ∀ label ∈ labels, IsLabel label) : tokens 46 (joinLabels labels) = labels := by
  induction labels with
  | nil => contradiction
  | cons label labels ih =>
      obtain ⟨⟨some, _, noDot⟩, rest⟩ := List.forall_mem_cons.mp isLabel
      rw [joinLabels_cons some]
      cases labels with
      | nil =>
          rw [List.flatMap_nil, List.append_nil]
          exact tokens_of_not_mem noDot some
      | cons next labels =>
          have tail := ih (List.cons_ne_nil _ _) rest
          rw [joinLabels_cons (rest next List.mem_cons_self).1] at tail
          rw [List.flatMap_cons, List.cons_append, tokens_append noDot some, tail]

/-- The bytes of some labels, without the zero behind them. -/
def encodeLabels (labels : List Str) : Str :=
  labels.flatMap fun label => UInt8.ofNat label.length :: label

theorem encodeName_joinLabels {labels : List Str} (nonempty : labels ≠ [])
    (isLabel : ∀ label ∈ labels, IsLabel label) :
    encodeName (joinLabels labels) = encodeLabels labels ++ [0] := by
  rw [encodeName, tokens_joinLabels nonempty isLabel, encodeLabels]

/-- A name takes the two bytes more that `PackName` asks for. -/
theorem length_encodeName {name : Str} (hasLabels : HasLabels name) :
    (encodeName name).length = name.length + 2 := by
  obtain ⟨labels, nonempty, isLabel, rfl⟩ := hasLabels
  obtain ⟨label, rest, rfl⟩ := List.exists_cons_of_ne_nil nonempty
  rw [encodeName_joinLabels nonempty isLabel, joinLabels_cons (isLabel _ List.mem_cons_self).1]
  have same : (encodeLabels rest).length = (rest.flatMap fun label => 46 :: label).length := by
    simp [encodeLabels, List.length_flatMap]
  rw [encodeLabels, List.flatMap_cons, ← encodeLabels]
  simp only [List.length_append, List.length_cons, List.length_nil, same]
  omega

/-- The length of a label fits its byte, and is not taken for a pointer. -/
theorem labelLength {length : Nat} (small : length ≤ 63) :
    (UInt8.ofNat length).toNat = length ∧ UInt8.ofNat length &&& 0xC0 = 0 := by
  have all : ∀ length : Fin 64, (UInt8.ofNat length.val).toNat = length.val ∧
      UInt8.ofNat length.val &&& 0xC0 = 0 := by
    decide
  exact all ⟨length, Nat.lt_succ_of_le small⟩

/-- The labels stand where they were written. -/
theorem labelsAt_encodeLabels {labels : List Str} (isLabel : ∀ label ∈ labels, IsLabel label)
    (before after : Str) (limit : Nat) :
    LabelsAt (before ++ (encodeLabels labels ++ 0 :: after)) before.length limit labels
      (before.length + (encodeLabels labels).length + 1) := by
  induction labels generalizing before with
  | nil => exact .root (by simp [encodeLabels])
  | cons label labels ih =>
      obtain ⟨⟨some, short, _⟩, rest⟩ := List.forall_mem_cons.mp isLabel
      obtain ⟨length, plain⟩ := labelLength short
      have size : (encodeLabels (label :: labels)).length =
          label.length + 1 + (encodeLabels labels).length := by
        simp [encodeLabels]
        omega
      have input : before ++ (encodeLabels (label :: labels) ++ 0 :: after) =
          before ++ UInt8.ofNat label.length :: (label ++ (encodeLabels labels ++ 0 :: after)) := by
        simp [encodeLabels]
      have tail := ih rest (before ++ UInt8.ofNat label.length :: label)
      simp only [List.append_assoc, List.cons_append, List.length_append, List.length_cons] at tail
      rw [input, size, ← Nat.add_assoc]
      generalize UInt8.ofNat label.length = offset at length plain tail ⊢
      have nonzero : offset ≠ 0 := by
        rintro rfl
        exact some (List.eq_nil_of_length_eq_zero length.symm)
      rw [← length] at tail
      have next := LabelsAt.label (by simp) nonzero plain (by simp; omega) tail
      rw [← List.drop_drop, List.drop_left, List.drop_one, List.tail_cons, length,
        List.take_left] at next
      exact next

theorem nameAt_encodeName {name : Str} (hasLabels : HasLabels name) (before after : Str) :
    NameAt (before ++ (encodeName name ++ after)) before.length name
      (before.length + (encodeName name).length) := by
  obtain ⟨labels, nonempty, isLabel, rfl⟩ := hasLabels
  rw [encodeName_joinLabels nonempty isLabel, List.append_assoc, List.singleton_append,
    List.length_append, List.length_singleton, ← Nat.add_assoc]
  exact ⟨labels, labelsAt_encodeLabels isLabel before after _, rfl⟩

/-! ## Numbers -/

theorem numberAt_toBytes {count number : Nat} (fits : number < 256 ^ count)
    (before after : Str) :
    numberAt (before ++ (toBytes count number ++ after)) before.length count = number := by
  have length := length_toBytes count number
  rw [numberAt, List.drop_left, List.take_append_of_le_length length.ge,
    List.take_of_length_le length.le, ofBytes_toBytes fits]

theorem numberAt_of_split {input before after : Str} {pos count number : Nat}
    (split : input = before ++ (toBytes count number ++ after)) (place : before.length = pos)
    (fits : number < 256 ^ count) : numberAt input pos count = number := by
  rw [split, ← place, numberAt_toBytes fits]

theorem numberAt_bytes16 (number : UInt16) (before after : Str) :
    numberAt (before ++ (bytes16 number ++ after)) before.length 2 = number.toNat :=
  numberAt_toBytes number.toNat_lt before after

theorem numberAt_bytes32 (number : UInt32) (before after : Str) :
    numberAt (before ++ (bytes32 number ++ after)) before.length 4 = number.toNat :=
  numberAt_toBytes number.toNat_lt before after

@[simp]
theorem length_bytes16 (number : UInt16) : (bytes16 number).length = 2 :=
  length_toBytes 2 _

@[simp]
theorem length_bytes32 (number : UInt32) : (bytes32 number).length = 4 :=
  length_toBytes 4 _

/-! ## Questions -/

/-- A type is found again by its value. -/
theorem QueryType.ofCode_code (type : QueryType) : ofCode type.code = type := by
  cases type with
  | other code unnamed =>
      have differs := unnamed
      simp only [namedTypes, List.mem_cons, List.not_mem_nil, or_false, not_or] at differs
      simp [ofCode, QueryType.code, differs, unnamed]
  | none | a | ns | cname | soa | ptr | txt | aaaa | srv | axfr | any => rfl

/-- The bytes of a question. -/
def encodeQuestion (question : Question) : Str :=
  encodeName question.name ++ bytes16 question.type.code ++ bytes16 question.qclass

theorem length_encodeQuestion (question : Question) :
    (encodeQuestion question).length = (encodeName question.name).length + 4 := by
  simp only [encodeQuestion, List.length_append, length_bytes16]

/-- A name that is read back. -/
structure IsName (name : Str) : Prop where
  labels : HasLabels name
  valid : isValidName name = true

theorem questionAt_encodeQuestion {question : Question} (isName : IsName question.name)
    (before after : Str) :
    QuestionAt (before ++ (encodeQuestion question ++ after)) before.length question
      (before.length + (encodeQuestion question).length) := by
  have type := numberAt_bytes16 question.type.code (before ++ encodeName question.name)
    (bytes16 question.qclass ++ after)
  have qclass := numberAt_bytes16 question.qclass
    (before ++ encodeName question.name ++ bytes16 question.type.code) after
  have name := nameAt_encodeName isName.labels before
    (bytes16 question.type.code ++ (bytes16 question.qclass ++ after))
  simp only [List.append_assoc, List.length_append, length_bytes16] at type qclass
  have size := length_encodeQuestion question
  have typePlace : before.length + (encodeQuestion question).length - 4 =
      before.length + (encodeName question.name).length := by
    omega
  have classPlace : before.length + (encodeQuestion question).length - 2 =
      before.length + ((encodeName question.name).length + 2) := by
    omega
  refine ⟨isName.valid, ⟨before.length + (encodeName question.name).length, ?_, ?_⟩, ?_, ?_, ?_⟩
  · simp only [encodeQuestion, List.append_assoc]
    exact name
  · rw [size, Nat.add_assoc]
  · simp only [List.length_append]
    omega
  · rw [typePlace]
    simp only [encodeQuestion, List.append_assoc, type, UInt16.ofNat_toNat,
      QueryType.ofCode_code]
  · rw [classPlace]
    simp only [encodeQuestion, List.append_assoc, qclass, UInt16.ofNat_toNat]

/-! ## Records -/

/-- The data of a record, as it is written for an address or a name. -/
def encodeData (env : PackEnv) (record : ResourceRecord) : Str :=
  match record.type with
  | .a => (sinAddr (sockaddrsOf env.casemap env.lib record.rdata)).toList
  | .aaaa => (sin6Addr (sockaddrsOf env.casemap env.lib record.rdata)).toList
  | .cname | .ptr => encodeName record.rdata
  | _ => []

/-- The bytes of a record. -/
def encodeRecord (env : PackEnv) (record : ResourceRecord) : Str :=
  encodeQuestion record.toQuestion ++ bytes32 record.ttl ++
    toBytes 2 (encodeData env record).length ++ encodeData env record

theorem length_encodeRecord (env : PackEnv) (record : ResourceRecord) :
    (encodeRecord env record).length =
      (encodeQuestion record.toQuestion).length + 6 + (encodeData env record).length := by
  simp only [encodeRecord, List.length_append, length_bytes32, length_toBytes]

/-- The data of a record that is read back: an address the way the library writes
it, or a name. -/
def IsData (env : PackEnv) (record : ResourceRecord) : Prop :=
  match record.type with
  | .a => ∃ ip, sockaddrsOf env.casemap env.lib record.rdata = .inet ip ∧
      env.lib.ntop4 ip = some record.rdata
  | .aaaa => ∃ ip, sockaddrsOf env.casemap env.lib record.rdata = .inet6 ip ∧
      env.lib.ntop6 ip = some record.rdata
  | .cname | .ptr => IsName record.rdata
  | _ => False

/-- A record that is read back. -/
structure IsRecord (env : PackEnv) (record : ResourceRecord) : Prop where
  name : IsName record.name
  data : IsData env record
  rdataobj : record.rdataobj = none

theorem addressOf_toList {size : Nat} (address : Vector UInt8 size) :
    addressOf size address.toList = address := by
  ext index inside
  simp [addressOf]

/-- An address that stands at a place. -/
theorem addressOf_take_drop {size : Nat} (address : Vector UInt8 size) (before after : Str) :
    addressOf size (((before ++ (address.toList ++ after)).drop before.length).take size) =
      address := by
  rw [List.drop_left, List.take_append_of_le_length (by simp),
    List.take_of_length_le (by simp), addressOf_toList]

theorem dataAt_encodeData {env : PackEnv} {record : ResourceRecord} (isData : IsData env record)
    (rdlength : Nat) (before after : Str) :
    DataAt env.lib (before ++ (encodeData env record ++ after)) record.type rdlength before.length
      (record.rdata, none) (before.length + (encodeData env record).length) := by
  unfold IsData at isData
  unfold encodeData
  generalize record.type = type at isData
  cases type with
  | a =>
      obtain ⟨ip, address, format⟩ := isData
      simp only [address, sinAddr, Vector.length_toList]
      refine .a (by simp) ?_
      rw [addressOf_take_drop, format]
  | aaaa =>
      obtain ⟨ip, address, format⟩ := isData
      simp only [address, sin6Addr, Vector.length_toList]
      refine .aaaa (by simp) ?_
      rw [addressOf_take_drop, format]
  | cname => exact .cname (nameAt_encodeName isData.labels before after) isData.valid
  | ptr => exact .ptr (nameAt_encodeName isData.labels before after) isData.valid
  | none | ns | soa | txt | srv | axfr | any | other => exact isData.elim

theorem recordAt_encodeRecord {env : PackEnv} {record : ResourceRecord}
    (isRecord : IsRecord env record) (now : Int) (before after : Str) :
    RecordAt env.lib now (before ++ (encodeRecord env record ++ after)) before.length
      { record with created := now } (before.length + (encodeRecord env record).length) := by
  have question := questionAt_encodeQuestion isRecord.name before
    (bytes32 record.ttl ++ (toBytes 2 (encodeData env record).length ++
      (encodeData env record ++ after)))
  have ttl := numberAt_bytes32 record.ttl (before ++ encodeQuestion record.toQuestion)
    (toBytes 2 (encodeData env record).length ++ (encodeData env record ++ after))
  have data := dataAt_encodeData isRecord.data
    (numberAt (before ++ (encodeRecord env record ++ after))
      (before.length + (encodeQuestion record.toQuestion).length + 4) 2)
    (before ++ encodeQuestion record.toQuestion ++ bytes32 record.ttl ++
      toBytes 2 (encodeData env record).length) after
  have text : before ++ (encodeRecord env record ++ after) =
      before ++ (encodeQuestion record.toQuestion ++ (bytes32 record.ttl ++
        (toBytes 2 (encodeData env record).length ++ (encodeData env record ++ after)))) := by
    simp only [encodeRecord, List.append_assoc]
  simp only [List.append_assoc, List.length_append, length_bytes32, length_toBytes] at ttl data
  refine ⟨before.length + (encodeQuestion record.toQuestion).length, ?_, ?_, ?_, rfl, ?_⟩
  · rw [text]
    exact question
  · rw [text]
    simp only [List.length_append, length_bytes32, length_toBytes]
    omega
  · rw [text, ttl, UInt32.ofNat_toNat]
  · rw [text] at data ⊢
    have size : before.length + (encodeRecord env record).length =
        before.length + ((encodeQuestion record.toQuestion).length + (4 + 2)) +
          (encodeData env record).length := by
      rw [length_encodeRecord]
      omega
    rw [size, isRecord.rdataobj, Nat.add_assoc _ _ 6]
    exact data

end Anope.Dns
