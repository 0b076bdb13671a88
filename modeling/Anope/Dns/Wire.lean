import Anope.Dns.Core

/-!
# What stands at a position

Names, questions and records as relations between a buffer, a position, a value
and the position behind it.  The parser reads exactly these, and it reads in
bounds except for one kind of record.
-/

namespace Anope.Dns

open Library.BigEndian
open Library.Scan
open Anope.Net

/-! ## Names -/

/-- The labels of a name from a position on, and the position behind what stands
there.  A compression pointer must lead to a place before `limit`. -/
inductive LabelsAt (input : Str) : Nat → Nat → List Str → Nat → Prop
  | root {pos limit : Nat} (zero : input[pos]? = some 0) : LabelsAt input pos limit [] (pos + 1)
  | label {pos limit next : Nat} {offset : UInt8} {labels : List Str}
      (first : input[pos]? = some offset) (nonzero : offset ≠ 0) (plain : offset &&& 0xC0 = 0)
      (inside : pos + offset.toNat + 1 < input.length)
      (tail : LabelsAt input (pos + (offset.toNat + 1)) limit labels next) :
      LabelsAt input pos limit ((input.drop (pos + 1)).take offset.toNat :: labels) next
  | pointer {pos limit next : Nat} {offset low : UInt8} {labels : List Str}
      (first : input[pos]? = some offset) (marked : offset &&& 0xC0 = 0xC0)
      (second : input[pos + 1]? = some low) (back : pointerTarget offset low < limit)
      (tail : LabelsAt input (pointerTarget offset low) (pointerTarget offset low) labels next) :
      LabelsAt input pos limit labels (pos + 2)

/-- The text of some labels, joined by dots. -/
def joinLabels (labels : List Str) : Str :=
  labels.foldl appendLabel []

/-- A name, possibly compressed. -/
def NameAt (input : Str) (pos : Nat) (name : Str) (next : Nat) : Prop :=
  ∃ labels, LabelsAt input pos input.length labels next ∧ name = joinLabels labels

variable {input : Str}

theorem LabelsAt.lt_length {pos limit next : Nat} {labels : List Str}
    (at_ : LabelsAt input pos limit labels next) : pos < input.length := by
  cases at_ with
  | root first | label first | pointer first =>
      exact (List.getElem?_eq_some_iff.mp first).1

theorem LabelsAt.next_bounds {pos limit next : Nat} {labels : List Str}
    (at_ : LabelsAt input pos limit labels next) : pos < next ∧ next ≤ input.length := by
  induction at_ with
  | root zero => exact ⟨Nat.lt_succ_self _, (List.getElem?_eq_some_iff.mp zero).1⟩
  | label first nonzero plain inside tail ih => exact ⟨by omega, ih.2⟩
  | pointer first marked second back tail ih =>
      exact ⟨by omega, (List.getElem?_eq_some_iff.mp second).1⟩

/-- The loop reads the labels that stand there. -/
theorem LabelsAt.unpackNameLoop {posPtr limit next : Nat} {labels : List Str}
    (at_ : LabelsAt input posPtr limit labels next) :
    ∀ {pos : Nat} {compressed : Bool} (_ : compressed = false → pos = posPtr) (name : Str),
      unpackNameLoop input posPtr limit pos compressed name =
        .ok (labels.foldl appendLabel name, if compressed then pos + 1 else next) := by
  induction at_ with
  | root zero =>
      intro pos compressed follows name
      rw [Dns.unpackNameLoop, zero]
      cases compressed with
      | false => simp [follows rfl]
      | true => rfl
  | @label posPtr limit next offset labels first nonzero plain inside tail ih =>
      intro pos compressed follows name
      rw [Dns.unpackNameLoop, first]
      have bound : posPtr + 1 + offset.toNat ≤ input.length := by omega
      simp only [nonzero, plain, if_false, ne_eq, not_true_eq_false, dif_neg inside.not_ge,
        readAt_eq_ok bound]
      rw [ih, List.foldl_cons]
      · cases compressed <;> rfl
      · intro plain
        rw [plain]
        rfl
  | @pointer posPtr limit next offset low labels first marked second back tail ih =>
      intro pos compressed follows name
      rw [Dns.unpackNameLoop, first]
      have nonzero : offset ≠ 0 := by
        rintro rfl
        exact absurd marked (by decide)
      have inside := (List.getElem?_eq_some_iff.mp second).1
      simp only [nonzero, marked, if_false, ne_eq, not_true_eq_false, if_neg inside.not_ge,
        second, dif_neg back.not_ge]
      rw [ih Bool.noConfusion]
      cases compressed with
      | false => simp [follows rfl]
      | true => rfl

/-- Where the loop reads a name there is one. -/
theorem exists_labelsAt {posPtr limit pos : Nat} {compressed : Bool} {name : Str}
    {value : Str × Nat}
    (read : unpackNameLoop input posPtr limit pos compressed name = .ok value) :
    ∃ labels after, LabelsAt input posPtr limit labels after := by
  fun_induction unpackNameLoop input posPtr limit pos compressed name
  case case2 zero => exact ⟨[], _, .root zero⟩
  case case7 first _ _ marked _ low second pos back ih =>
    obtain ⟨labels, after, tail⟩ := ih read
    exact ⟨labels, _, .pointer first (not_not.mp marked) second (not_le.mp back) tail⟩
  case case10 first nonzero plain inside label _ next ih =>
    obtain ⟨labels, after, tail⟩ := ih read
    exact ⟨_, after, .label first nonzero (not_not.mp plain) (not_le.mp inside) tail⟩
  all_goals contradiction

/-- The loop stays in bounds. -/
theorem inBounds_unpackNameLoop {posPtr limit pos : Nat} {compressed : Bool} {name : Str}
    (inside : posPtr < input.length) (limited : limit ≤ input.length) :
    InBounds (unpackNameLoop input posPtr limit pos compressed name) := by
  fun_induction unpackNameLoop input posPtr limit pos compressed name
  case case1 outside => exact absurd (List.getElem?_eq_none_iff.mp outside) inside.not_ge
  case case5 short outside => exact absurd (List.getElem?_eq_none_iff.mp outside) short
  case case7 _ _ _ _ _ _ _ _ back ih =>
    have lower := not_le.mp back
    exact ih (lower.trans_le limited) (lower.le.trans limited)
  case case9 short fault read =>
    rw [readAt_eq_ok (by omega)] at read
    contradiction
  case case10 _ _ _ short _ _ _ ih => exact ih (by omega) limited
  all_goals first | exact inBounds_ok _ | exact inBounds_thrown _

/-- The parser reads the name that stands there. -/
theorem unpackName_eq_ok_iff {pos : Nat} {name : Str} {next : Nat} :
    unpackName input pos = .ok (name, next) ↔ NameAt input pos name next := by
  rw [unpackName, bind_eq_ok_iff]
  constructor
  · rintro ⟨_, _, read⟩
    obtain ⟨labels, after, at_⟩ := exists_labelsAt read
    rw [at_.unpackNameLoop fun _ => rfl] at read
    cases read
    exact ⟨labels, at_, rfl⟩
  · rintro ⟨labels, at_, rfl⟩
    refine ⟨(), require_eq_ok_iff.mpr at_.lt_length, ?_⟩
    rw [at_.unpackNameLoop fun _ => rfl]
    rfl

theorem inBounds_unpackName (input : Str) (pos : Nat) : InBounds (unpackName input pos) := by
  refine inBounds_bind_iff.mpr ⟨inBounds_require, fun _ inside => ?_⟩
  exact inBounds_unpackNameLoop (require_eq_ok_iff.mp inside) le_rfl

/-- There is only one name at a position. -/
theorem NameAt.unique {pos next next' : Nat} {name name' : Str}
    (at_ : NameAt input pos name next) (other : NameAt input pos name' next') :
    name = name' ∧ next = next' := by
  have read := unpackName_eq_ok_iff.mpr at_
  rw [unpackName_eq_ok_iff.mpr other] at read
  cases read
  exact ⟨rfl, rfl⟩

/-! ## Questions -/

/-- The number in some bytes of the buffer. -/
def numberAt (input : Str) (pos count : Nat) : Nat :=
  ofBytes ((input.drop pos).take count)

theorem readNumber_eq_ok {pos count : Nat} (bound : pos + count ≤ input.length) :
    readNumber input pos count = .ok (numberAt input pos count) := by
  rw [readNumber, readAt_eq_ok bound]
  rfl

theorem readNumber_eq_ok_iff {pos count number : Nat} (bound : pos + count ≤ input.length) :
    readNumber input pos count = .ok number ↔ number = numberAt input pos count := by
  rw [readNumber_eq_ok bound, Except.ok.injEq, eq_comm]

theorem inBounds_readNumber {pos count : Nat} (bound : pos + count ≤ input.length) :
    InBounds (readNumber input pos count) := by
  rw [readNumber_eq_ok bound]
  exact inBounds_ok _

/-- A question: a valid name, a type and a class. -/
structure QuestionAt (input : Str) (pos : Nat) (question : Question) (next : Nat) : Prop where
  valid : isValidName question.name = true
  name : ∃ after, NameAt input pos question.name after ∧ next = after + 4
  inside : next ≤ input.length
  type : question.type = .ofCode (.ofNat (numberAt input (next - 4) 2))
  qclass : question.qclass = .ofNat (numberAt input (next - 2) 2)

theorem unpackQuestion_eq_ok_iff {pos : Nat} {question : Question} {next : Nat} :
    unpackQuestion input pos = .ok (question, next) ↔ QuestionAt input pos question next := by
  simp only [unpackQuestion, bind_eq_ok_iff, Prod.exists, unpackName_eq_ok_iff]
  constructor
  · rintro ⟨name, after, at_, _, inside, _, valid, type, readType, qclass, readClass, equal⟩
    rw [require_eq_ok_iff] at inside valid
    rw [readNumber_eq_ok_iff (by omega)] at readType readClass
    cases equal
    subst readType readClass
    exact ⟨valid, ⟨after, at_, rfl⟩, inside, rfl, rfl⟩
  · rintro ⟨valid, ⟨after, at_, rfl⟩, inside, type, qclass⟩
    refine ⟨_, after, at_, (), require_eq_ok_iff.mpr inside, (), require_eq_ok_iff.mpr valid,
      _, readNumber_eq_ok (by omega), _,
      readNumber_eq_ok (by omega), ?_⟩
    obtain ⟨name, questionType, questionClass⟩ := question
    cases type
    cases qclass
    rfl

theorem QuestionAt.unique {pos next next' : Nat} {question question' : Question}
    (at_ : QuestionAt input pos question next) (other : QuestionAt input pos question' next') :
    question = question' ∧ next = next' := by
  have read := unpackQuestion_eq_ok_iff.mpr at_
  rw [unpackQuestion_eq_ok_iff.mpr other] at read
  cases read
  exact ⟨rfl, rfl⟩

theorem inBounds_unpackQuestion (input : Str) (pos : Nat) :
    InBounds (unpackQuestion input pos) := by
  refine inBounds_bind_iff.mpr ⟨inBounds_unpackName input pos, fun (name, after) _ => ?_⟩
  refine inBounds_bind_iff.mpr ⟨inBounds_require, fun _ inside => ?_⟩
  rw [require_eq_ok_iff] at inside
  refine inBounds_bind_iff.mpr ⟨inBounds_require, fun _ _ => ?_⟩
  refine inBounds_bind_iff.mpr ⟨inBounds_readNumber (by omega), fun _ _ => ?_⟩
  exact inBounds_bind_iff.mpr ⟨inBounds_readNumber (by omega), fun _ _ => inBounds_ok _⟩

/-! ## Records -/

/-- Whether `UnpackResourceRecord` has a case for a type. -/
def QueryType.isKnown : QueryType → Bool
  | a | aaaa | cname | ptr | txt | srv => true
  | _ => false

/-- The data of a record, as the parser takes it. -/
inductive DataAt (lib : Inet) (input : Str) :
    QueryType → Nat → Nat → Str × Option Srv → Nat → Prop
  | a {rdlength pos : Nat} {text : Str} (inside : pos + 4 ≤ input.length)
      (formats : lib.ntop4 (addressOf 4 ((input.drop pos).take 4)) = some text) :
      DataAt lib input .a rdlength pos (text, none) (pos + 4)
  | aaaa {rdlength pos : Nat} {text : Str} (inside : pos + 16 ≤ input.length)
      (formats : lib.ntop6 (addressOf 16 ((input.drop pos).take 16)) = some text) :
      DataAt lib input .aaaa rdlength pos (text, none) (pos + 16)
  | cname {rdlength pos next : Nat} {name : Str} (at_ : NameAt input pos name next)
      (valid : isValidName name = true) : DataAt lib input .cname rdlength pos (name, none) next
  | ptr {rdlength pos next : Nat} {name : Str} (at_ : NameAt input pos name next)
      (valid : isValidName name = true) : DataAt lib input .ptr rdlength pos (name, none) next
  | txt {rdlength pos : Nat} (inside : pos + rdlength ≤ input.length) (first : pos < input.length)
      (fits : pos + 1 + numberAt input pos 1 ≤ input.length) :
      DataAt lib input .txt rdlength pos
        ((input.drop (pos + 1)).take (numberAt input pos 1), none) (pos + rdlength)
  | srv {rdlength pos next : Nat} {srv : Srv} (long : 6 ≤ rdlength)
      (inside : pos + rdlength ≤ input.length)
      (priority : srv.priority = .ofNat (numberAt input pos 2))
      (weight : srv.weight = .ofNat (numberAt input (pos + 2) 2))
      (port : srv.port = .ofNat (numberAt input (pos + 4) 2))
      (at_ : NameAt input (pos + 6) srv.host next) (valid : isValidName srv.host = true) :
      DataAt lib input .srv rdlength pos (srv.text, some srv) next
  | unknown {type : QueryType} {rdlength pos : Nat} (unknown : type.isKnown = false) :
      DataAt lib input type rdlength pos ([], none) pos

section Data

variable {lib : Inet} {rdlength pos : Nat}

/-- An address is read where there are enough bytes and a text for them. -/
theorem unpackAddress_eq_ok_iff {size : Nat} {format : Vector UInt8 size → Option Str}
    {store : Vector UInt8 size → Sockaddrs} (valid : ∀ src, (store src).valid = true)
    (addr : ∀ src, (store src).addr lib = (format src).getD []) {data : Str × Option Srv}
    {next : Nat} :
    unpackAddress lib format store input pos = .ok (data, next) ↔
      pos + size ≤ input.length ∧ next = pos + size ∧ data.2 = none ∧
        format (addressOf size ((input.drop pos).take size)) = some data.1 := by
  simp only [unpackAddress, bind_eq_ok_iff]
  constructor
  · rintro ⟨_, inside, bytes, read, _, isValid, equal⟩
    rw [require_eq_ok_iff] at inside isValid
    rw [readAt_eq_ok_iff inside] at read
    subst read
    cases formats : format (addressOf size ((input.drop pos).take size)) with
    | none =>
        rw [ntop, formats] at isValid
        contradiction
    | some text =>
        rw [ntop, formats, Option.isSome_some, if_pos rfl, addr, formats] at equal
        cases equal
        exact ⟨inside, rfl, rfl, rfl⟩
  · rintro ⟨inside, rfl, none, formats⟩
    refine ⟨(), require_eq_ok_iff.mpr inside, _, readAt_eq_ok inside, (), ?_, ?_⟩
    · rw [require_eq_ok_iff, ntop, formats]
      exact valid _
    · rw [ntop, formats, Option.isSome_some, if_pos rfl, addr, formats, ← none]
      rfl

theorem inBounds_unpackAddress {size : Nat} {format : Vector UInt8 size → Option Str}
    {store : Vector UInt8 size → Sockaddrs} :
    InBounds (unpackAddress lib format store input pos) := by
  refine inBounds_bind_iff.mpr ⟨inBounds_require, fun _ inside => ?_⟩
  rw [require_eq_ok_iff] at inside
  refine inBounds_bind_iff.mpr ⟨inBounds_readAt inside, fun _ _ => ?_⟩
  exact inBounds_bind_iff.mpr ⟨inBounds_require, fun _ _ => inBounds_ok _⟩

theorem unpackData_of_dataAt {type : QueryType} {data : Str × Option Srv} {next : Nat}
    (at_ : DataAt lib input type rdlength pos data next) :
    unpackData lib input type rdlength pos = .ok (data, next) := by
  cases at_ with
  | a inside formats =>
      exact (unpackAddress_eq_ok_iff (fun _ => rfl) fun _ => rfl).mpr ⟨inside, rfl, rfl, formats⟩
  | aaaa inside formats =>
      exact (unpackAddress_eq_ok_iff (fun _ => rfl) fun _ => rfl).mpr ⟨inside, rfl, rfl, formats⟩
  | cname at_ valid | ptr at_ valid =>
      simp only [unpackData, bind_eq_ok_iff]
      exact ⟨_, unpackName_eq_ok_iff.mpr at_, (), require_eq_ok_iff.mpr valid, rfl⟩
  | txt inside first fits =>
      simp only [unpackData, bind_eq_ok_iff]
      refine ⟨(), require_eq_ok_iff.mpr inside, _, readNumber_eq_ok first, (),
        require_eq_ok_iff.mpr fits, _, readAt_eq_ok fits, ?_⟩
      rw [Nat.add_right_comm, Nat.add_sub_cancel]
      rfl
  | @srv _ _ _ srv long inside priority weight port at_ valid =>
      simp only [unpackData, bind_eq_ok_iff]
      refine ⟨(), require_eq_ok_iff.mpr ⟨long, inside⟩, _,
        readNumber_eq_ok (by omega), _, readNumber_eq_ok (by omega), _,
        readNumber_eq_ok (by omega), _, unpackName_eq_ok_iff.mpr at_, (),
        require_eq_ok_iff.mpr valid, ?_⟩
      rw [← priority, ← weight, ← port]
      rfl
  | unknown unknown => cases type <;> first | rfl | contradiction

theorem dataAt_of_unpackData {type : QueryType} {data : Str × Option Srv} {next : Nat}
    (read : unpackData lib input type rdlength pos = .ok (data, next)) :
    DataAt lib input type rdlength pos data next := by
  cases type with
  | a =>
      obtain ⟨inside, rfl, none, formats⟩ :=
        (unpackAddress_eq_ok_iff (fun _ => rfl) fun _ => rfl).mp read
      obtain ⟨text, _⟩ := data
      cases none
      exact .a inside formats
  | aaaa =>
      obtain ⟨inside, rfl, none, formats⟩ :=
        (unpackAddress_eq_ok_iff (fun _ => rfl) fun _ => rfl).mp read
      obtain ⟨text, _⟩ := data
      cases none
      exact .aaaa inside formats
  | cname =>
      simp only [unpackData, bind_eq_ok_iff] at read
      obtain ⟨_, at_, _, valid, equal⟩ := read
      cases equal
      exact .cname (unpackName_eq_ok_iff.mp at_) (require_eq_ok_iff.mp valid)
  | ptr =>
      simp only [unpackData, bind_eq_ok_iff] at read
      obtain ⟨_, at_, _, valid, equal⟩ := read
      cases equal
      exact .ptr (unpackName_eq_ok_iff.mp at_) (require_eq_ok_iff.mp valid)
  | txt =>
      simp only [unpackData, bind_eq_ok_iff] at read
      obtain ⟨_, inside, _, readLength, _, fits, _, readText, equal⟩ := read
      rw [require_eq_ok_iff] at inside fits
      have first : pos < input.length := by omega
      rw [readNumber_eq_ok_iff first] at readLength
      subst readLength
      rw [readAt_eq_ok_iff fits] at readText
      cases equal
      subst readText
      rw [Nat.add_right_comm, Nat.add_sub_cancel]
      exact .txt inside first fits
  | srv =>
      simp only [unpackData, bind_eq_ok_iff, Prod.exists] at read
      obtain ⟨_, long, _, readPriority, _, readWeight, _, readPort, _, _, at_, _, valid, equal⟩ :=
        read
      rw [require_eq_ok_iff] at long valid
      rw [readNumber_eq_ok_iff (by omega)] at readPriority readWeight readPort
      cases equal
      subst readPriority readWeight readPort
      exact .srv long.1 long.2 rfl rfl rfl (unpackName_eq_ok_iff.mp at_) valid
  | none | ns | soa | axfr | any | other =>
      cases read
      exact .unknown rfl

theorem unpackData_eq_ok_iff {type : QueryType} {data : Str × Option Srv} {next : Nat} :
    unpackData lib input type rdlength pos = .ok (data, next) ↔
      DataAt lib input type rdlength pos data next :=
  ⟨dataAt_of_unpackData, unpackData_of_dataAt⟩

/-- A library that knows the texts of IPv4 addresses, and those of one IPv6 address. -/
def dottedInet : Inet where
  pton4 text := if text = ascii "1.1.1.1" then some (.replicate 4 1) else none
  pton6 text :=
    if text = ascii "::" ∨ text = ascii "0:0:0:0:0:0:0:0" then some (.replicate 16 0) else none
  ntop4 src := some (joinLabels (src.toList.map fun byte => decimal byte.toUInt16))
  ntop6 _ := some (ascii "::")

/-- Only the length of a text is read without a check: an empty text record at the
end of the buffer is read behind it. -/
theorem inBounds_unpackData_iff {type : QueryType} (within : pos ≤ input.length) :
    InBounds (unpackData lib input type rdlength pos) ↔
      ¬(type = .txt ∧ rdlength = 0 ∧ pos = input.length) := by
  cases type with
  | a | aaaa => exact iff_of_true inBounds_unpackAddress fun txt => by cases txt.1
  | cname | ptr =>
      refine iff_of_true ?_ (fun txt => by cases txt.1)
      refine inBounds_bind_iff.mpr ⟨inBounds_unpackName input pos, fun _ _ => ?_⟩
      exact inBounds_bind_iff.mpr ⟨inBounds_require, fun _ _ => inBounds_ok _⟩
  | txt =>
      simp only [true_and, unpackData, inBounds_bind_iff, inBounds_require, require_eq_ok_iff]
      constructor
      · rintro inBounds ⟨rfl, rfl⟩
        have first := (inBounds () le_rfl).1
        rw [readNumber, inBounds_bind_iff, inBounds_readAt_one_iff] at first
        exact first.1.false
      · intro notEnd _ inside
        have first : pos < input.length := by omega
        refine ⟨inBounds_readNumber first, fun _ _ _ fits => ?_⟩
        exact ⟨inBounds_readAt fits, fun _ _ => inBounds_ok _⟩
  | srv =>
      refine iff_of_true ?_ (fun txt => by cases txt.1)
      refine inBounds_bind_iff.mpr ⟨inBounds_require, fun _ inside => ?_⟩
      rw [require_eq_ok_iff] at inside
      refine inBounds_bind_iff.mpr ⟨inBounds_readNumber (by omega), fun _ _ => ?_⟩
      refine inBounds_bind_iff.mpr ⟨inBounds_readNumber (by omega), fun _ _ => ?_⟩
      refine inBounds_bind_iff.mpr ⟨inBounds_readNumber (by omega), fun _ _ => ?_⟩
      refine inBounds_bind_iff.mpr ⟨inBounds_unpackName input (pos + 6), fun _ _ => ?_⟩
      exact inBounds_bind_iff.mpr ⟨inBounds_require, fun _ _ => inBounds_ok _⟩
  | none | ns | soa | axfr | any | other =>
      exact iff_of_true (inBounds_ok _) fun txt => by cases txt.1

end Data

/-- A record: a question, a time to live, a length and data. -/
def RecordAt (lib : Inet) (now : Int) (input : Str) (pos : Nat) (record : ResourceRecord)
    (next : Nat) : Prop :=
  ∃ middle, QuestionAt input pos record.toQuestion middle ∧ middle + 6 ≤ input.length ∧
    record.ttl = .ofNat (numberAt input middle 4) ∧ record.created = now ∧
    DataAt lib input record.type (numberAt input (middle + 4) 2) (middle + 6)
      (record.rdata, record.rdataobj) next

/-- A text record without data, at the end of the buffer. -/
def EmptyTextAtEnd (input : Str) (pos : Nat) : Prop :=
  ∃ question middle, QuestionAt input pos question middle ∧ question.type = .txt ∧
    numberAt input (middle + 4) 2 = 0 ∧ middle + 6 = input.length

section Record

variable {lib : Inet} {now : Int} {pos : Nat}

theorem unpackResourceRecord_eq_ok_iff {record : ResourceRecord} {next : Nat} :
    unpackResourceRecord lib now input pos = .ok (record, next) ↔
      RecordAt lib now input pos record next := by
  simp only [unpackResourceRecord, bind_eq_ok_iff, Prod.exists, unpackQuestion_eq_ok_iff,
    unpackData_eq_ok_iff]
  constructor
  · rintro ⟨question, middle, at_, _, inside, _, readTtl, _, readLength, _, _, _, data, equal⟩
    rw [require_eq_ok_iff] at inside
    rw [readNumber_eq_ok_iff (by omega)] at readTtl readLength
    cases equal
    subst readTtl readLength
    exact ⟨middle, at_, inside, rfl, rfl, data⟩
  · rintro ⟨middle, at_, inside, ttl, created, data⟩
    refine ⟨_, middle, at_, (), require_eq_ok_iff.mpr inside, _,
      readNumber_eq_ok (by omega), _, readNumber_eq_ok (by omega),
      _, _, _, data, ?_⟩
    rw [← ttl, ← created]
    rfl

theorem inBounds_unpackResourceRecord_iff :
    InBounds (unpackResourceRecord lib now input pos) ↔ ¬EmptyTextAtEnd input pos := by
  rw [unpackResourceRecord, inBounds_bind_iff]
  constructor
  · rintro ⟨_, inBounds⟩ ⟨question, middle, at_, txt, empty, last⟩
    have rest := inBounds _ (unpackQuestion_eq_ok_iff.mpr at_)
    have rest := (inBounds_bind_iff.mp rest).2 () (require_eq_ok_iff.mpr last.le)
    have rest := (inBounds_bind_iff.mp rest).2 _ (readNumber_eq_ok (by omega))
    have rest := (inBounds_bind_iff.mp rest).2 _ (readNumber_eq_ok (by omega))
    exact (inBounds_unpackData_iff last.le).mp (inBounds_bind_iff.mp rest).1 ⟨txt, empty, last⟩
  · intro notEmpty
    refine ⟨inBounds_unpackQuestion input pos, ?_⟩
    rintro ⟨question, middle⟩ at_
    rw [unpackQuestion_eq_ok_iff] at at_
    refine inBounds_bind_iff.mpr ⟨inBounds_require, fun _ inside => ?_⟩
    rw [require_eq_ok_iff] at inside
    refine inBounds_bind_iff.mpr ⟨inBounds_readNumber (by omega), fun _ _ => ?_⟩
    refine inBounds_bind_iff.mpr ⟨inBounds_readNumber (by omega), fun rdlength read => ?_⟩
    rw [readNumber_eq_ok_iff (by omega)] at read
    subst read
    refine inBounds_bind_iff.mpr ⟨(inBounds_unpackData_iff inside).mpr ?_, fun _ _ => ?_⟩
    · rintro ⟨txt, empty, last⟩
      exact notEmpty ⟨question, middle, at_, txt, empty, last⟩
    · exact inBounds_ok _

/-! ## Packets -/

/-- The rest of a packet, when nothing is thrown in it. -/
theorem unpackRest_of_chains {start middle next : Nat}
    {authorities additional : List ResourceRecord}
    (first : Chain (RecordAt lib now input) start authorities middle)
    (second : Chain (RecordAt lib now input) middle additional next) :
    unpackRest lib now input authorities.length additional.length start =
      .ok (authorities, additional) := by
  rw [unpackRest, bind_eq_ok_iff]
  refine ⟨(authorities, some middle),
    (manyCaught_eq_ok_some_iff unpackResourceRecord_eq_ok_iff).mpr ⟨rfl, first⟩, ?_⟩
  exact bind_eq_ok_iff.mpr ⟨(additional, some next),
    (manyCaught_eq_ok_some_iff unpackResourceRecord_eq_ok_iff).mpr ⟨rfl, second⟩, rfl⟩

/-- A packet is read when what the header counts stands behind it. -/
theorem fill_of_chains {answersAt authoritiesAt additionalAt next : Nat}
    {questions : List Question} {answers authorities additional : List ResourceRecord}
    (long : headerLength ≤ input.length)
    (qdcount : questions.length = numberAt input 4 2)
    (ancount : answers.length = numberAt input 6 2)
    (nscount : authorities.length = numberAt input 8 2)
    (arcount : additional.length = numberAt input 10 2)
    (questionsChain : Chain (QuestionAt input) headerLength questions answersAt)
    (answersChain : Chain (RecordAt lib now input) answersAt answers authoritiesAt)
    (authoritiesChain : Chain (RecordAt lib now input) authoritiesAt authorities additionalAt)
    (additionalChain : Chain (RecordAt lib now input) additionalAt additional next) :
    fill lib now input = .ok
      { id := .ofNat (numberAt input 0 2), flags := .ofNat (numberAt input 2 2), questions,
        answers, authorities, additional } := by
  have bound : 12 ≤ input.length := long
  have rest := unpackRest_of_chains authoritiesChain additionalChain
  rw [nscount, arcount] at rest
  simp only [fill, bind_eq_ok_iff]
  exact ⟨(), require_eq_ok_iff.mpr long, _, readNumber_eq_ok (by omega), _,
    readNumber_eq_ok (by omega), _, readNumber_eq_ok (by omega), _, readNumber_eq_ok (by omega), _,
    readNumber_eq_ok (by omega), _, readNumber_eq_ok (by omega), _,
    (many_eq_ok_iff unpackQuestion_eq_ok_iff).mpr ⟨qdcount, questionsChain⟩, _,
    (many_eq_ok_iff unpackResourceRecord_eq_ok_iff).mpr ⟨ancount, answersChain⟩, _, rest, rfl⟩

/-- The questions of a packet that is read stand behind the header. -/
theorem exists_chain_of_fill {packet : Packet} (filled : fill lib now input = .ok packet) :
    packet.questions.length = numberAt input 4 2 ∧
      ∃ next, Chain (QuestionAt input) headerLength packet.questions next := by
  simp only [fill, bind_eq_ok_iff, Prod.exists] at filled
  obtain ⟨_, long, _, _, _, _, _, readCount, _, _, _, _, _, _, questions, next, read, _, _, _, _, _,
    _, equal⟩ := filled
  have bound : 12 ≤ input.length := require_eq_ok_iff.mp long
  rw [readNumber_eq_ok_iff (by omega)] at readCount
  subst readCount
  cases equal
  obtain ⟨length, chain⟩ := (many_eq_ok_iff unpackQuestion_eq_ok_iff).mp read
  exact ⟨length, next, chain⟩

end Record

end Anope.Dns
