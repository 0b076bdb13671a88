import Anope.Dns.Encoding

/-!
# Reading a packed packet

`Pack` writes the bytes of a packet that fits, and `Fill` reads the packet back from
them.
-/

namespace Anope.Dns

open Library.BigEndian
open Library.Scan

variable {env : PackEnv}

/-! ## Packing -/

theorem packName_eq_ok {name : Str} (hasLabels : HasLabels name) {output : Str}
    (fits : output.length + (encodeName name).length ≤ env.outputSize.toNat) :
    packName env output name = .ok (output ++ encodeName name) := by
  rw [length_encodeName hasLabels] at fits
  exact bind_eq_ok_iff.mpr ⟨(), require_eq_ok_iff.mpr (by omega), rfl⟩

theorem length_encodeName_pos (name : Str) : 0 < (encodeName name).length := by
  simp [encodeName]

theorem packQuestion_eq_ok {question : Question} (notPtr : question.type ≠ .ptr)
    (hasLabels : HasLabels question.name) {output : Str}
    (fits : output.length + (encodeQuestion question).length < env.outputSize.toNat) :
    packQuestion env output question = .ok (output ++ encodeQuestion question) := by
  have size := length_encodeQuestion question
  have name : questionName env question = .ok question.name := by
    unfold questionName
    split
    · contradiction
    · rfl
  rw [packQuestion, name]
  refine bind_eq_ok_iff.mpr ⟨_, rfl, bind_eq_ok_iff.mpr
    ⟨_, packName_eq_ok hasLabels (by omega), bind_eq_ok_iff.mpr ⟨(), ?_, ?_⟩⟩⟩
  · rw [require_eq_ok_iff, List.length_append]
    omega
  · simp only [encodeQuestion, List.append_assoc]
    rfl

/-- The length of a name is filled in behind it. -/
theorem backPatch_packName {name : Str} (hasLabels : HasLabels name) {output : Str}
    (fits : output.length + 2 + (encodeName name).length ≤ env.outputSize.toNat) :
    (backPatch output fun output => packName env output name) =
      .ok (output ++ toBytes 2 (encodeName name).length ++ encodeName name) := by
  have written := @packName_eq_ok env name hasLabels (output ++ [0, 0]) (by simpa using fits)
  refine bind_eq_ok_iff.mpr ⟨_, written, ?_⟩
  have size : (output ++ [0, 0] ++ encodeName name).length - output.length - 2 =
      (encodeName name).length := by
    simp only [List.length_append, List.length_cons, List.length_nil]
    omega
  have behind : (output ++ [0, 0] ++ encodeName name).drop (output.length + 2) =
      encodeName name :=
    List.drop_left' (by simp)
  rw [size, behind]
  rfl

theorem packData_eq_ok {record : ResourceRecord} (isData : IsData env record) {output : Str}
    (fits : output.length + 2 + (encodeData env record).length ≤ env.outputSize.toNat) :
    packData env output record =
      .ok (output ++ toBytes 2 (encodeData env record).length ++ encodeData env record) := by
  unfold IsData at isData
  unfold encodeData at fits ⊢
  unfold packData
  generalize record.type = type at isData fits
  cases type with
  | a =>
      obtain ⟨ip, address, _⟩ := isData
      simp only [address, sinAddr, Vector.length_toList] at fits ⊢
      exact bind_eq_ok_iff.mpr ⟨(), require_eq_ok_iff.mpr fits, bind_eq_ok_iff.mpr ⟨(), rfl, rfl⟩⟩
  | aaaa =>
      obtain ⟨ip, address, _⟩ := isData
      simp only [address, sin6Addr, Vector.length_toList] at fits ⊢
      exact bind_eq_ok_iff.mpr ⟨(), require_eq_ok_iff.mpr fits, bind_eq_ok_iff.mpr ⟨(), rfl, rfl⟩⟩
  | cname | ptr =>
      have positive := length_encodeName_pos record.rdata
      simp only at fits
      exact bind_eq_ok_iff.mpr ⟨(), require_eq_ok_iff.mpr (by omega),
        backPatch_packName isData.labels fits⟩
  | none | ns | soa | txt | srv | axfr | any | other => exact isData.elim

theorem packRecord_eq_ok {record : ResourceRecord} (isRecord : IsRecord env record) {output : Str}
    (fits : output.length + (encodeRecord env record).length ≤ env.outputSize.toNat) :
    packRecord env output record = .ok (output ++ encodeRecord env record) := by
  have size := length_encodeRecord env record
  have questionSize := length_encodeQuestion record.toQuestion
  refine bind_eq_ok_iff.mpr ⟨_, packName_eq_ok isRecord.name.labels (by omega),
    bind_eq_ok_iff.mpr ⟨(), ?_, ?_⟩⟩
  · rw [require_eq_ok_iff, List.length_append]
    omega
  · rw [packData_eq_ok isRecord.data]
    · simp only [encodeRecord, encodeQuestion, List.append_assoc]
    · simp only [List.length_append, length_bytes16, length_bytes32]
      omega

/-- The records of all sections of a packet. -/
def Packet.records (packet : Packet) : List ResourceRecord :=
  packet.answers ++ (packet.authorities ++ packet.additional)

/-- The bytes of a packet. -/
def encodePacket (env : PackEnv) (packet : Packet) : Str :=
  encodeHeader packet ++ (packet.questions.flatMap encodeQuestion ++
    packet.records.flatMap (encodeRecord env))

/-- A packet fits the output.  With a question and no record behind it the last byte
of the output must stay free. -/
def Fits (env : PackEnv) (packet : Packet) : Prop :=
  (encodePacket env packet).length ≤ env.outputSize.toNat ∧
    (packet.questions ≠ [] → packet.records = [] →
      (encodePacket env packet).length < env.outputSize.toNat)

/-- A packet that is read back.  There are no `PTR` questions, which are rewritten. -/
structure IsPacket (env : PackEnv) (packet : Packet) : Prop where
  questions : ∀ question ∈ packet.questions, question.type ≠ .ptr ∧ IsName question.name
  records : ∀ record ∈ packet.records, IsRecord env record

variable {packet : Packet}

theorem length_encodeHeader (packet : Packet) : (encodeHeader packet).length = 12 := by
  simp [encodeHeader]

theorem length_le_length_flatMap {α : Type} {encode : α → Str} {elements : List α}
    (nonempty : ∀ element, 0 < (encode element).length) :
    elements.length ≤ (elements.flatMap encode).length := by
  induction elements with
  | nil => exact Nat.zero_le _
  | cons element elements ih =>
      have positive := nonempty element
      rw [List.flatMap_cons, List.length_append, List.length_cons]
      omega

theorem length_encodeQuestion_pos (question : Question) : 0 < (encodeQuestion question).length := by
  rw [length_encodeQuestion]
  exact Nat.succ_pos _

theorem length_encodeRecord_pos (env : PackEnv) (record : ResourceRecord) :
    0 < (encodeRecord env record).length := by
  have positive := length_encodeQuestion_pos record.toQuestion
  rw [length_encodeRecord]
  omega

theorem length_encodePacket (env : PackEnv) (packet : Packet) :
    (encodePacket env packet).length = 12 +
      ((packet.questions.flatMap encodeQuestion).length +
        (packet.records.flatMap (encodeRecord env)).length) := by
  rw [encodePacket, List.length_append, List.length_append, length_encodeHeader]

theorem packQuestions_eq_ok
    (isQuestion : ∀ question ∈ packet.questions, question.type ≠ .ptr ∧ IsName question.name)
    (fits : Fits env packet) :
    packet.questions.foldlM (packQuestion env) (encodeHeader packet) =
      .ok (encodeHeader packet ++ packet.questions.flatMap encodeQuestion) := by
  obtain ⟨within, spare⟩ := fits
  rw [length_encodePacket] at within spare
  by_cases none : packet.questions = []
  · rw [none]
    simp [pure, Except.pure]
  · refine @foldlM_write _ _ _ encodeQuestion (env.outputSize.toNat - 1) _
      (fun question mem output fits => ?_) _ ?_
    · have positive := length_encodeQuestion_pos question
      obtain ⟨notPtr, isName⟩ := isQuestion question mem
      exact packQuestion_eq_ok notPtr isName.labels (by omega)
    · rw [length_encodeHeader]
      by_cases noRecords : packet.records = []
      · have last := spare none noRecords
        omega
      · have behind := @length_le_length_flatMap _ _ packet.records (length_encodeRecord_pos env)
        have positive := List.length_pos_of_ne_nil noRecords
        omega

/-- A packet that fits is packed. -/
theorem pack_eq_ok (isPacket : IsPacket env packet) (fits : Fits env packet) :
    pack env packet = .ok (encodePacket env packet) := by
  have within := fits.1
  rw [length_encodePacket] at within
  have records := @foldlM_write _ _ _ (encodeRecord env) env.outputSize.toNat _
    (fun record mem _ fits => packRecord_eq_ok (isPacket.records record mem) fits)
    (encodeHeader packet ++ packet.questions.flatMap encodeQuestion) (by
      rw [List.length_append, length_encodeHeader]
      omega)
  simp only [Packet.records, List.foldlM_append] at records
  refine bind_eq_ok_iff.mpr ⟨(), require_eq_ok_iff.mpr ?_,
    bind_eq_ok_iff.mpr ⟨_, packQuestions_eq_ok isPacket.questions fits, ?_⟩⟩
  · rw [headerLength]
    omega
  · rw [encodePacket, Packet.records, ← List.append_assoc]
    exact records

/-! ## Filling -/

/-- The packet as it is read at a time `now`. -/
def Packet.readAt (packet : Packet) (now : Int) : Packet :=
  { packet with
    answers := packet.answers.map fun record => { record with created := now }
    authorities := packet.authorities.map fun record => { record with created := now }
    additional := packet.additional.map fun record => { record with created := now } }

/-- The counts of the sections fit the header. -/
theorem length_lt_of_fits (fits : Fits env packet) :
    packet.questions.length < 256 ^ 2 ∧ packet.answers.length < 256 ^ 2 ∧
      packet.authorities.length < 256 ^ 2 ∧ packet.additional.length < 256 ^ 2 := by
  have within := fits.1
  have size := env.outputSize.toNat_lt
  have questions := @length_le_length_flatMap _ _ packet.questions length_encodeQuestion_pos
  have records := @length_le_length_flatMap _ _ packet.records (length_encodeRecord_pos env)
  rw [length_encodePacket] at within
  have sections : packet.records.length =
      packet.answers.length + (packet.authorities.length + packet.additional.length) := by
    simp [Packet.records]
  omega

/-- The numbers of the header. -/
theorem numberAt_encodeHeader (fits : Fits env packet) (rest : Str) :
    numberAt (encodeHeader packet ++ rest) 0 2 = packet.id.toNat ∧
      numberAt (encodeHeader packet ++ rest) 2 2 = packet.flags.toNat ∧
      numberAt (encodeHeader packet ++ rest) 4 2 = packet.questions.length ∧
      numberAt (encodeHeader packet ++ rest) 6 2 = packet.answers.length ∧
      numberAt (encodeHeader packet ++ rest) 8 2 = packet.authorities.length ∧
      numberAt (encodeHeader packet ++ rest) 10 2 = packet.additional.length := by
  obtain ⟨qd, an, ns, ar⟩ := length_lt_of_fits fits
  let id := bytes16 packet.id
  let flags := bytes16 packet.flags
  let qdcount := toBytes 2 packet.questions.length
  let ancount := toBytes 2 packet.answers.length
  let nscount := toBytes 2 packet.authorities.length
  have text : encodeHeader packet ++ rest = id ++ (flags ++ (qdcount ++ (ancount ++ (nscount ++
      (toBytes 2 packet.additional.length ++ rest))))) := by
    simp only [encodeHeader, List.append_assoc, id, flags, qdcount, ancount, nscount]
  rw [text]
  refine ⟨numberAt_bytes16 packet.id [] _, ?_, ?_, ?_, ?_, ?_⟩
  · exact numberAt_bytes16 packet.flags id _
  · exact @numberAt_of_split _ (id ++ flags) _ _ _ _ (by simp only [List.append_assoc]; rfl)
      (by simp [id, flags]) qd
  · exact @numberAt_of_split _ (id ++ flags ++ qdcount) _ _ _ _
      (by simp only [List.append_assoc]; rfl) (by simp [id, flags, qdcount]) an
  · exact @numberAt_of_split _ (id ++ flags ++ qdcount ++ ancount) _ _ _ _
      (by simp only [List.append_assoc]; rfl) (by simp [id, flags, qdcount, ancount]) ns
  · exact @numberAt_of_split _ (id ++ flags ++ qdcount ++ ancount ++ nscount) _ _ _ _
      (by simp only [List.append_assoc]; rfl) (by simp [id, flags, qdcount, ancount, nscount]) ar

theorem chain_encodeQuestion {questions : List Question}
    (isName : ∀ question ∈ questions, IsName question.name) (before after : Str) :
    Chain (QuestionAt (before ++ (questions.flatMap encodeQuestion ++ after))) before.length
      questions (before.length + (questions.flatMap encodeQuestion).length) := by
  have chain := @chain_flatMap _ _ encodeQuestion id QuestionAt questions
    (fun question mem => questionAt_encodeQuestion (isName question mem)) before after
  rwa [List.map_id] at chain

theorem chain_encodeRecord {records : List ResourceRecord}
    (isRecord : ∀ record ∈ records, IsRecord env record) (now : Int) (before after : Str) :
    Chain (RecordAt env.lib now (before ++ (records.flatMap (encodeRecord env) ++ after)))
      before.length (records.map fun record => { record with created := now })
      (before.length + (records.flatMap (encodeRecord env)).length) :=
  @chain_flatMap _ _ (encodeRecord env) (fun record => { record with created := now })
    (RecordAt env.lib now) records
    (fun record mem => recordAt_encodeRecord (isRecord record mem) now) before after

/-- What is packed is read back. -/
theorem fill_encodePacket (isPacket : IsPacket env packet) (fits : Fits env packet) (now : Int) :
    fill env.lib now (encodePacket env packet) = .ok (packet.readAt now) := by
  obtain ⟨qd, an, ns, ar⟩ := length_lt_of_fits fits
  have isRecord := isPacket.records
  simp only [Packet.records, List.forall_mem_append] at isRecord
  obtain ⟨ofAnswers, ofAuthorities, ofAdditional⟩ := isRecord
  let header := encodeHeader packet
  let questions := packet.questions.flatMap encodeQuestion
  let answers := packet.answers.flatMap (encodeRecord env)
  let authorities := packet.authorities.flatMap (encodeRecord env)
  let additional := packet.additional.flatMap (encodeRecord env)
  have first := chain_encodeQuestion (fun question mem => (isPacket.questions question mem).2)
    header (answers ++ (authorities ++ additional))
  have second := chain_encodeRecord ofAnswers now (header ++ questions)
    (authorities ++ additional)
  have third := chain_encodeRecord ofAuthorities now (header ++ questions ++ answers) additional
  have fourth := chain_encodeRecord ofAdditional now
    (header ++ questions ++ answers ++ authorities) []
  have text : encodePacket env packet =
      header ++ (questions ++ (answers ++ (authorities ++ additional))) := by
    simp only [encodePacket, Packet.records, List.flatMap_append, header, questions, answers,
      authorities, additional]
  obtain ⟨idAt, flagsAt, qdAt, anAt, nsAt, arAt⟩ := numberAt_encodeHeader fits
    (questions ++ (answers ++ (authorities ++ additional)))
  simp only [List.append_assoc, List.append_nil, List.length_append, ← Nat.add_assoc]
    at first second third fourth
  have place : header.length = headerLength := length_encodeHeader packet
  rw [← text] at first second third fourth idAt flagsAt qdAt anAt nsAt arAt
  rw [place] at first
  have filled := fill_of_chains (by rw [length_encodePacket]; exact Nat.le_add_right _ _)
    qdAt.symm ((List.length_map _).trans anAt.symm) ((List.length_map _).trans nsAt.symm)
    ((List.length_map _).trans arAt.symm) first (place ▸ second) (place ▸ third) (place ▸ fourth)
  rw [filled, idAt, flagsAt, UInt16.ofNat_toNat, UInt16.ofNat_toNat]
  rfl

/-! ## Round trip -/

/-- What is packed is read as the same identifier, flags, questions and answers; an
answer is created when it is read. -/
def RoundTrips (env : PackEnv) (now : Int) (packet : Packet) : Prop :=
  ∃ output, pack env packet = .ok output ∧ ∃ read, fill env.lib now output = .ok read ∧
    read.id = packet.id ∧ read.flags = packet.flags ∧ read.questions = packet.questions ∧
    read.answers = packet.answers.map fun record => { record with created := now }

/-- A setting with the default start of authority. -/
def defaultEnv : PackEnv where
  casemap := .ascii
  lib := dottedInet
  outputSize := 512
  nameservers := ascii "ns1.example.com"
  admin := ascii "admin@example.com"
  refresh := 3600
  serial := 0

/-- A question for the addresses of a name with an underscore. -/
def underscorePacket : Packet where
  id := 1
  flags := 256
  questions := [⟨ascii "a_b", .a, 1⟩]
  answers := []
  authorities := []
  additional := []

/-- A name of one label that fits is refused when it is read. -/
theorem not_roundTrips_underscore :
    HasLabels (ascii "a_b") ∧ Fits defaultEnv underscorePacket ∧
      ¬RoundTrips defaultEnv 0 underscorePacket := by
  have hasLabels : HasLabels (ascii "a_b") := ⟨[ascii "a_b"], by decide, by decide, by decide⟩
  have fits : Fits defaultEnv underscorePacket := ⟨by decide, fun _ _ => by decide⟩
  refine ⟨hasLabels, fits, ?_⟩
  rintro ⟨output, packed, read, filled, _⟩
  have written : pack defaultEnv underscorePacket =
      .ok (encodePacket defaultEnv underscorePacket) := rfl
  rw [written] at packed
  cases packed
  obtain ⟨length, next, chain⟩ := exists_chain_of_fill filled
  have name := nameAt_encodeName hasLabels (encodeHeader underscorePacket)
    (bytes16 1 ++ bytes16 1)
  generalize read.questions = questions at length chain
  cases chain with
  | nil => contradiction
  | cons head _ =>
      obtain ⟨after, found, _⟩ := head.name
      have same := (found.unique name).1
      have valid := head.valid
      rw [same] at valid
      contradiction

/-- A response with an IPv6 address in a given spelling. -/
def zeroPacket (rdata : Str) : Packet where
  id := 1
  flags := 0x8180
  questions := []
  answers := [⟨⟨ascii "a", .aaaa, 1⟩, 60, rdata, none, 0⟩]
  authorities := []
  additional := []

/-- An address that is not spelled as the library spells it is respelled. -/
theorem not_roundTrips_respelled :
    HasLabels (ascii "a") ∧ Fits defaultEnv (zeroPacket (ascii "0:0:0:0:0:0:0:0")) ∧
      ¬RoundTrips defaultEnv 0 (zeroPacket (ascii "0:0:0:0:0:0:0:0")) := by
  have hasLabels : HasLabels (ascii "a") := ⟨[ascii "a"], by decide, by decide, by decide⟩
  have isRecord : ∀ record ∈ (zeroPacket (ascii "::")).records, IsRecord defaultEnv record := by
    intro record mem
    cases List.mem_singleton.mp mem
    exact ⟨⟨hasLabels, by decide⟩, ⟨.replicate 16 0, by decide +kernel, by decide +kernel⟩, rfl⟩
  have isPacket : IsPacket defaultEnv (zeroPacket (ascii "::")) :=
    ⟨fun _ mem => absurd mem List.not_mem_nil, isRecord⟩
  have fits : Fits defaultEnv (zeroPacket (ascii "0:0:0:0:0:0:0:0")) :=
    ⟨by decide +kernel, fun none => absurd rfl none⟩
  have fits' : Fits defaultEnv (zeroPacket (ascii "::")) :=
    ⟨by decide +kernel, fun none => absurd rfl none⟩
  refine ⟨hasLabels, fits, ?_⟩
  rintro ⟨output, packed, read, filled, _, _, _, answers⟩
  have samePack : pack defaultEnv (zeroPacket (ascii "0:0:0:0:0:0:0:0")) =
      .ok (encodePacket defaultEnv (zeroPacket (ascii "::"))) := by
    decide +kernel
  rw [samePack] at packed
  cases packed
  rw [fill_encodePacket isPacket fits'] at filled
  cases filled
  exact absurd answers (by decide)

/-- Neither a name with an underscore nor an address in another spelling makes the
round trip. -/
theorem not_roundTrips_underscore_respelled :
    (HasLabels (ascii "a_b") ∧ Fits defaultEnv underscorePacket ∧
      ¬RoundTrips defaultEnv 0 underscorePacket) ∧
    HasLabels (ascii "a") ∧ Fits defaultEnv (zeroPacket (ascii "0:0:0:0:0:0:0:0")) ∧
      ¬RoundTrips defaultEnv 0 (zeroPacket (ascii "0:0:0:0:0:0:0:0")) :=
  ⟨not_roundTrips_underscore, not_roundTrips_respelled⟩

/-- A packet that fits is packed, and read back from what was packed. -/
theorem roundTrips (isPacket : IsPacket env packet) (fits : Fits env packet) (now : Int) :
    RoundTrips env now packet :=
  ⟨_, pack_eq_ok isPacket fits, _, fill_encodePacket isPacket fits now, rfl, rfl, rfl, rfl⟩

/-- A response with the address of a name. -/
def addressPacket : Packet where
  id := 1
  flags := 0x8180
  questions := [⟨ascii "example.com", .a, 1⟩]
  answers := [⟨⟨ascii "example.com", .a, 1⟩, 60, ascii "1.1.1.1", none, 0⟩]
  authorities := []
  additional := []

theorem roundTrips_address : RoundTrips defaultEnv 7 addressPacket := by
  have isName : IsName (ascii "example.com") :=
    ⟨⟨[ascii "example", ascii "com"], by decide, by decide, by decide⟩, by decide⟩
  refine roundTrips ⟨?_, ?_⟩ ⟨by decide, fun _ none => by contradiction⟩ 7
  · intro question mem
    cases List.mem_singleton.mp mem
    exact ⟨by decide, isName⟩
  · intro record mem
    cases List.mem_singleton.mp mem
    exact ⟨isName, ⟨.replicate 4 1, by decide +kernel, by decide +kernel⟩, rfl⟩

end Anope.Dns
