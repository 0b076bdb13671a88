import Anope.Dns.Wire

/-!
# The parser and the lengths of records

A record says how long its data is.  The parser does not go by that: it advances
by what the type of the record makes it read, and by nothing for other types.  It
stays aligned exactly when the two agree for every record.
-/

namespace Anope.Dns

open Library.Scan
open Anope.Net

/-! ## Well-formed responses -/

/-- Where a record stands and what is in its fixed part. -/
structure Layout where
  start : Nat
  question : Question
  ttl : UInt32
  data : Nat
  rdlength : Nat
  deriving DecidableEq, Repr

/-- The position behind a record, by its own length. -/
def Layout.next (layout : Layout) : Nat :=
  layout.data + layout.rdlength

/-- A record of some layout: a valid name, ten bytes, and as many bytes of data as
they say. -/
structure LayoutAt (input : Str) (pos : Nat) (layout : Layout) (next : Nat) : Prop where
  start : layout.start = pos
  question : ∃ middle, QuestionAt input pos layout.question middle ∧ layout.data = middle + 6
  ttl : layout.ttl = .ofNat (numberAt input (layout.data - 6) 4)
  rdlength : layout.rdlength = numberAt input (layout.data - 2) 2
  ends : layout.next = next
  inside : layout.next ≤ input.length

/-- A response whose header counts the questions and records that are there. -/
structure Response (input : Str) where
  questions : List Question
  answers : List Layout
  authorities : List Layout
  additional : List Layout
  answersAt : Nat
  authoritiesAt : Nat
  additionalAt : Nat
  last : Nat
  long : headerLength ≤ input.length
  qdcount : questions.length = numberAt input 4 2
  ancount : answers.length = numberAt input 6 2
  nscount : authorities.length = numberAt input 8 2
  arcount : additional.length = numberAt input 10 2
  questionsChain : Chain (QuestionAt input) headerLength questions answersAt
  answersChain : Chain (LayoutAt input) answersAt answers authoritiesAt
  authoritiesChain : Chain (LayoutAt input) authoritiesAt authorities additionalAt
  additionalChain : Chain (LayoutAt input) additionalAt additional last

variable {input : Str}

/-- The records of all sections. -/
def Response.records (response : Response input) : List Layout :=
  response.answers ++ response.authorities ++ response.additional

/-- A record is read from its start to its end. -/
def Layout.ReadAs (lib : Inet) (now : Int) (input : Str) (layout : Layout)
    (record : ResourceRecord) : Prop :=
  unpackResourceRecord lib now input layout.start = .ok (record, layout.next)

/-- The parser consumes every record exactly, and the answers it gives are those of
a type it knows, in order. -/
structure Aligned (lib : Inet) (now : Int) (response : Response input) : Prop where
  consumed : ∀ layout ∈ response.records, ∃ record, layout.ReadAs lib now input record
  answers : ∃ packet, fill lib now input = .ok packet ∧
    List.Forall₂ (Layout.ReadAs lib now input)
      (response.answers.filter fun layout => layout.question.type.isKnown) packet.answers

/-! ## Lengths -/

/-- The data of a record is as long as its type is read. -/
def Layout.IsExact (input : Str) (layout : Layout) : Prop :=
  match layout.question.type with
  | .a => layout.rdlength = 4
  | .aaaa => layout.rdlength = 16
  | .cname | .ptr => ∃ name, NameAt input layout.data name layout.next ∧ isValidName name = true
  | .txt =>
      layout.data < input.length ∧ layout.data + 1 + numberAt input layout.data 1 ≤ input.length
  | .srv =>
      6 ≤ layout.rdlength ∧
        ∃ host, NameAt input (layout.data + 6) host layout.next ∧ isValidName host = true
  | _ => layout.rdlength = 0

/-- `inet_ntop` has a text for every address. -/
structure Formats (lib : Inet) : Prop where
  inet : ∀ src, (lib.ntop4 src).isSome
  inet6 : ∀ src, (lib.ntop6 src).isSome

theorem formats_dottedInet : Formats dottedInet where
  inet _ := rfl
  inet6 _ := rfl

variable {lib : Inet} {now : Int} {layout : Layout} {pos next : Nat}

/-- The data of a record is read to its end exactly when it is as long as its type
is read. -/
theorem LayoutAt.exists_dataAt_iff (formats : Formats lib) (at_ : LayoutAt input pos layout next) :
    (∃ data, DataAt lib input layout.question.type layout.rdlength layout.data data layout.next) ↔
      layout.IsExact input := by
  have inside : layout.data + layout.rdlength ≤ input.length := at_.inside
  have ends : layout.next = layout.data + layout.rdlength := rfl
  rw [Layout.IsExact]
  constructor
  · rintro ⟨data, read⟩
    generalize layout.next = next at read ends
    generalize layout.question.type = type at read
    cases read with
    | a | aaaa => exact (Nat.add_left_cancel ends).symm
    | cname name valid | ptr name valid => exact ⟨_, name, valid⟩
    | txt _ first fits => exact ⟨first, fits⟩
    | srv long _ _ _ _ name valid => exact ⟨long, _, name, valid⟩
    | unknown unknown =>
        have empty : layout.rdlength = 0 := by omega
        cases type <;> first | exact empty | contradiction
  · intro exact_
    generalize layout.question.type = type at exact_
    cases type with
    | a =>
        have length : layout.rdlength = 4 := exact_
        obtain ⟨text, format⟩ := Option.isSome_iff_exists.mp
          (formats.inet (addressOf 4 ((input.drop layout.data).take 4)))
        rw [ends, length]
        exact ⟨_, .a (by omega) format⟩
    | aaaa =>
        have length : layout.rdlength = 16 := exact_
        obtain ⟨text, format⟩ := Option.isSome_iff_exists.mp
          (formats.inet6 (addressOf 16 ((input.drop layout.data).take 16)))
        rw [ends, length]
        exact ⟨_, .aaaa (by omega) format⟩
    | cname =>
        obtain ⟨name, found, valid⟩ := exact_
        exact ⟨_, .cname found valid⟩
    | ptr =>
        obtain ⟨name, found, valid⟩ := exact_
        exact ⟨_, .ptr found valid⟩
    | txt => exact ⟨_, .txt inside exact_.1 exact_.2⟩
    | srv =>
        obtain ⟨long, host, found, valid⟩ := exact_
        exact ⟨_, @DataAt.srv _ _ _ _ _ ⟨_, _, _, host⟩ long inside rfl rfl rfl found valid⟩
    | none | ns | soa | axfr | any | other =>
        have empty : layout.rdlength = 0 := exact_
        rw [ends, empty]
        exact ⟨_, .unknown rfl⟩

theorem LayoutAt.readAs_iff (at_ : LayoutAt input pos layout next) {record : ResourceRecord} :
    layout.ReadAs lib now input record ↔
      record.toQuestion = layout.question ∧ record.ttl = layout.ttl ∧ record.created = now ∧
        DataAt lib input layout.question.type layout.rdlength layout.data
          (record.rdata, record.rdataobj) layout.next := by
  obtain ⟨middle, question, data⟩ := at_.question
  have inside : layout.data + layout.rdlength ≤ input.length := at_.inside
  have ttlAt : layout.data - 6 = middle := by omega
  have lengthAt : layout.data - 2 = middle + 4 := by omega
  rw [Layout.ReadAs, unpackResourceRecord_eq_ok_iff, at_.start, at_.ttl, at_.rdlength, ttlAt,
    lengthAt, data]
  constructor
  · rintro ⟨middle', question', _, ttl, created, read⟩
    obtain ⟨same, rfl⟩ := question'.unique question
    rw [← same]
    exact ⟨rfl, ttl, created, read⟩
  · rintro ⟨same, ttl, created, read⟩
    rw [← same] at question read
    exact ⟨middle, question, by omega, ttl, created, read⟩

theorem LayoutAt.exists_readAs_iff (formats : Formats lib) (at_ : LayoutAt input pos layout next) :
    (∃ record, layout.ReadAs lib now input record) ↔ layout.IsExact input := by
  rw [← at_.exists_dataAt_iff formats]
  simp only [at_.readAs_iff]
  constructor
  · rintro ⟨record, _, _, _, read⟩
    exact ⟨_, read⟩
  · rintro ⟨⟨rdata, rdataobj⟩, read⟩
    exact ⟨{ layout.question with ttl := layout.ttl, rdata, rdataobj, created := now }, rfl, rfl,
      rfl, read⟩

/-! ## Sections -/

theorem LayoutAt.recordAt (at_ : LayoutAt input pos layout next) {record : ResourceRecord}
    (read : layout.ReadAs lib now input record) : RecordAt lib now input pos record next := by
  rw [Layout.ReadAs, at_.start, at_.ends] at read
  exact unpackResourceRecord_eq_ok_iff.mp read

/-- Every record of a chain is in a place of its own. -/
theorem layoutAt_of_mem {layouts : List Layout} (chain : Chain (LayoutAt input) pos layouts next)
    (mem : layout ∈ layouts) : ∃ pos next, LayoutAt input pos layout next := by
  induction chain with
  | nil => contradiction
  | cons head tail ih =>
      rcases List.mem_cons.mp mem with rfl | mem
      · exact ⟨_, _, head⟩
      · exact ih mem

/-- Records that are consumed exactly are read one behind the other. -/
theorem exists_chain_recordAt {layouts : List Layout}
    (chain : Chain (LayoutAt input) pos layouts next)
    (consumed : ∀ layout ∈ layouts, ∃ record, layout.ReadAs lib now input record) :
    ∃ records, Chain (RecordAt lib now input) pos records next ∧
      List.Forall₂ (Layout.ReadAs lib now input) layouts records := by
  induction chain with
  | nil => exact ⟨[], .nil _, .nil⟩
  | cons head tail ih =>
      obtain ⟨⟨record, read⟩, rest⟩ := List.forall_mem_cons.mp consumed
      obtain ⟨records, chain, reads⟩ := ih rest
      exact ⟨record :: records, .cons (head.recordAt read) chain, .cons read reads⟩

/-- Where every record is consumed exactly, all answers are given. -/
theorem Response.exists_fill (response : Response input)
    (consumed : ∀ layout ∈ response.records, ∃ record, layout.ReadAs lib now input record) :
    ∃ packet, fill lib now input = .ok packet ∧
      List.Forall₂ (Layout.ReadAs lib now input) response.answers packet.answers := by
  simp only [Response.records, List.forall_mem_append] at consumed
  obtain ⟨⟨ofAnswers, ofAuthorities⟩, ofAdditional⟩ := consumed
  obtain ⟨answers, answersChain, reads⟩ := exists_chain_recordAt response.answersChain ofAnswers
  obtain ⟨authorities, authoritiesChain, reads'⟩ :=
    exists_chain_recordAt response.authoritiesChain ofAuthorities
  obtain ⟨additional, additionalChain, reads''⟩ :=
    exists_chain_recordAt response.additionalChain ofAdditional
  exact ⟨_, fill_of_chains response.long response.qdcount
    (reads.length_eq.symm.trans response.ancount) (reads'.length_eq.symm.trans response.nscount)
    (reads''.length_eq.symm.trans response.arcount) response.questionsChain answersChain
    authoritiesChain additionalChain, reads⟩

theorem Response.layoutAt_of_mem (response : Response input) (mem : layout ∈ response.records) :
    ∃ pos next, LayoutAt input pos layout next := by
  rw [Response.records, List.mem_append, List.mem_append] at mem
  rcases mem with (mem | mem) | mem
  · exact Dns.layoutAt_of_mem response.answersChain mem
  · exact Dns.layoutAt_of_mem response.authoritiesChain mem
  · exact Dns.layoutAt_of_mem response.additionalChain mem

/-- What alignment says of the lengths and types of a packet. -/
theorem Aligned.exact_ (formats : Formats lib) {response : Response input}
    (aligned : Aligned lib now response) :
    (∀ layout ∈ response.records, layout.IsExact input) ∧
      ∀ layout ∈ response.answers, layout.question.type.isKnown = true := by
  constructor
  · intro layout mem
    obtain ⟨pos, next, at_⟩ := response.layoutAt_of_mem mem
    exact (at_.exists_readAs_iff formats).mp (aligned.consumed layout mem)
  · obtain ⟨packet, filled, reads⟩ := aligned.answers
    obtain ⟨packet', filled', reads'⟩ := response.exists_fill aligned.consumed
    rw [filled'] at filled
    cases filled
    exact List.length_filter_eq_length_iff.mp (reads.length_eq.trans reads'.length_eq.symm)

/-- A response with two answers: a record of type `MX` with one byte of data, and an
address. -/
def unknownPacket : Str :=
  [0, 1, 128, 0, 0, 0, 0, 2, 0, 0, 0, 0,
    0, 0, 15, 0, 1, 0, 0, 0, 0, 0, 1, 0,
    0, 0, 1, 0, 1, 0, 0, 0, 60, 0, 4, 1, 2, 3, 4]

def unknownResponse : Response unknownPacket where
  questions := []
  answers := [⟨12, ⟨[], .other 15 (by decide), 1⟩, 0, 23, 1⟩, ⟨24, ⟨[], .a, 1⟩, 60, 35, 4⟩]
  authorities := []
  additional := []
  answersAt := 12
  authoritiesAt := 39
  additionalAt := 39
  last := 39
  long := by decide
  qdcount := by decide
  ancount := by decide
  nscount := by decide
  arcount := by decide
  questionsChain := .nil 12
  answersChain :=
    @Chain.cons _ _ 12 24 39 _ _
      ⟨rfl, ⟨17, ⟨rfl, ⟨13, ⟨[], .root rfl, rfl⟩, rfl⟩, by decide, by decide, by decide⟩, rfl⟩,
        by decide, by decide, rfl, by decide⟩
      (@Chain.cons _ _ 24 39 39 _ _
        ⟨rfl, ⟨29, ⟨rfl, ⟨25, ⟨[], .root rfl, rfl⟩, rfl⟩, by decide, by decide, by decide⟩, rfl⟩,
          by decide, by decide, rfl, by decide⟩
        (.nil 39))
  authoritiesChain := .nil 39
  additionalChain := .nil 39

/-- The data of the unknown record is taken for the next one, and the address behind
it is lost. -/
theorem not_aligned_unknown : ¬Aligned dottedInet 0 unknownResponse := by
  intro aligned
  exact Nat.one_ne_zero ((aligned.exact_ formats_dottedInet).1 _ List.mem_cons_self)

/-- The parser stays aligned in a well-formed response exactly when the data of every
record is as long as its type is read, and every answer is of a type it knows. -/
theorem aligned_iff (formats : Formats lib) (response : Response input) :
    Aligned lib now response ↔
      (∀ layout ∈ response.records, layout.IsExact input) ∧
        ∀ layout ∈ response.answers, layout.question.type.isKnown = true := by
  refine ⟨Aligned.exact_ formats, ?_⟩
  rintro ⟨exact_, known⟩
  have consumed : ∀ layout ∈ response.records, ∃ record, layout.ReadAs lib now input record := by
    intro layout mem
    obtain ⟨pos, next, at_⟩ := response.layoutAt_of_mem mem
    exact (at_.exists_readAs_iff formats).mpr (exact_ layout mem)
  obtain ⟨packet, filled, reads⟩ := response.exists_fill consumed
  refine ⟨consumed, packet, filled, ?_⟩
  rw [List.filter_eq_self.mpr known]
  exact reads

theorem aligned_iff_unknown :
    Aligned dottedInet 0 unknownResponse ↔
      (∀ layout ∈ unknownResponse.records, layout.IsExact unknownPacket) ∧
        ∀ layout ∈ unknownResponse.answers, layout.question.type.isKnown = true :=
  aligned_iff formats_dottedInet unknownResponse

end Anope.Dns
