import Anope.Dns.Wire

/-!
# Reads outside a packet

`Packet::Fill` looks outside its buffer exactly when it comes to a text record
without data at the end of the buffer: the length of the text is read before
anything says that there is one.
-/

namespace Anope.Dns

open Library.Scan
open Anope.Net

variable {lib : Inet} {now : Int} {input : Str}

/-- The number of records behind the questions, by the header. -/
def recordCount (input : Str) : Nat :=
  numberAt input 6 2 + (numberAt input 8 2 + numberAt input 10 2)

/-- The parser comes to a text record without data at the end of the buffer: it
stands behind the questions and fewer records than the header counts, all of which
can be read. -/
def ReachesEmptyText (lib : Inet) (now : Int) (input : Str) : Prop :=
  headerLength ≤ input.length ∧ ∃ questions start records pos,
    questions.length = numberAt input 4 2 ∧
    Chain (QuestionAt input) headerLength questions start ∧
    records.length < recordCount input ∧
    Chain (RecordAt lib now input) start records pos ∧ EmptyTextAtEnd input pos

theorem inBounds_many_records_iff {count pos : Nat} :
    InBounds (many (unpackResourceRecord lib now input) count pos) ↔
      ∀ records middle, records.length < count →
        Chain (RecordAt lib now input) pos records middle → ¬EmptyTextAtEnd input middle := by
  rw [inBounds_many_iff unpackResourceRecord_eq_ok_iff]
  simp only [inBounds_unpackResourceRecord_iff]

theorem inBounds_manyCaught_records_iff {count pos : Nat} :
    InBounds (manyCaught (unpackResourceRecord lib now input) count pos) ↔
      ∀ records middle, records.length < count →
        Chain (RecordAt lib now input) pos records middle → ¬EmptyTextAtEnd input middle := by
  rw [inBounds_manyCaught_iff unpackResourceRecord_eq_ok_iff]
  simp only [inBounds_unpackResourceRecord_iff]

/-- Inside the `try` every record is read in bounds that comes before an
exception. -/
theorem inBounds_unpackRest_iff {pos nscount arcount : Nat} :
    InBounds (unpackRest lib now input nscount arcount pos) ↔
      ∀ records middle, records.length < nscount + arcount →
        Chain (RecordAt lib now input) pos records middle → ¬EmptyTextAtEnd input middle := by
  rw [unpackRest, inBounds_bind_iff, inBounds_manyCaught_records_iff, forall_chain_add_iff]
  refine and_congr_right fun _ => ?_
  constructor
  · intro inBounds authorities middle length chain
    have read := (manyCaught_eq_ok_some_iff unpackResourceRecord_eq_ok_iff).mpr ⟨length, chain⟩
    exact inBounds_manyCaught_records_iff.mp (inBounds_bind_iff.mp (inBounds _ read)).1
  · rintro each ⟨authorities, caught⟩ read
    cases caught with
    | none => exact inBounds_ok _
    | some middle =>
        obtain ⟨length, chain⟩ :=
          (manyCaught_eq_ok_some_iff unpackResourceRecord_eq_ok_iff).mp read
        refine inBounds_bind_iff.mpr ⟨?_, fun _ _ => inBounds_ok _⟩
        exact inBounds_manyCaught_records_iff.mpr (each authorities middle length chain)

/-- All sections are read in bounds. -/
theorem inBounds_records_iff {pos ancount nscount arcount : Nat} :
    (InBounds (many (unpackResourceRecord lib now input) ancount pos) ∧
      ∀ answers middle, many (unpackResourceRecord lib now input) ancount pos =
          .ok (answers, middle) → InBounds (unpackRest lib now input nscount arcount middle)) ↔
      ∀ records middle, records.length < ancount + (nscount + arcount) →
        Chain (RecordAt lib now input) pos records middle → ¬EmptyTextAtEnd input middle := by
  rw [forall_chain_add_iff, inBounds_many_records_iff]
  simp only [many_eq_ok_iff unpackResourceRecord_eq_ok_iff, inBounds_unpackRest_iff, and_imp]

theorem inBounds_fill (notReached : ¬ReachesEmptyText lib now input) :
    InBounds (fill lib now input) := by
  refine inBounds_bind_iff.mpr ⟨inBounds_require, fun _ long => ?_⟩
  have bound : 12 ≤ input.length := require_eq_ok_iff.mp long
  refine inBounds_bind_iff.mpr ⟨inBounds_readNumber (by omega), fun _ _ => ?_⟩
  refine inBounds_bind_iff.mpr ⟨inBounds_readNumber (by omega), fun _ _ => ?_⟩
  refine inBounds_bind_iff.mpr ⟨inBounds_readNumber (by omega), fun qdcount readQd => ?_⟩
  refine inBounds_bind_iff.mpr ⟨inBounds_readNumber (by omega), fun ancount readAn => ?_⟩
  refine inBounds_bind_iff.mpr ⟨inBounds_readNumber (by omega), fun nscount readNs => ?_⟩
  refine inBounds_bind_iff.mpr ⟨inBounds_readNumber (by omega), fun arcount readAr => ?_⟩
  rw [readNumber_eq_ok_iff (by omega)] at readQd readAn readNs readAr
  subst readQd readAn readNs readAr
  refine inBounds_bind_iff.mpr ⟨?_, fun (questions, start) read => ?_⟩
  · rw [inBounds_many_iff unpackQuestion_eq_ok_iff]
    exact fun _ middle _ _ => inBounds_unpackQuestion input middle
  obtain ⟨length, chain⟩ := (many_eq_ok_iff unpackQuestion_eq_ok_iff).mp read
  have sections := inBounds_records_iff.mpr fun records pos fewer records' empty =>
    notReached ⟨bound, questions, start, records, pos, length, chain, fewer, records', empty⟩
  refine inBounds_bind_iff.mpr ⟨sections.1, fun (answers, middle) read => ?_⟩
  exact inBounds_bind_iff.mpr ⟨sections.2 answers middle read, fun _ _ => inBounds_ok _⟩

theorem not_inBounds_fill (reached : ReachesEmptyText lib now input) :
    ¬InBounds (fill lib now input) := by
  obtain ⟨long, questions, start, records, pos, length, chain, fewer, records', empty⟩ := reached
  have bound : 12 ≤ input.length := long
  intro inBounds
  have rest := (inBounds_bind_iff.mp inBounds).2 () (require_eq_ok_iff.mpr long)
  have rest := (inBounds_bind_iff.mp rest).2 _ (readNumber_eq_ok (by omega))
  have rest := (inBounds_bind_iff.mp rest).2 _ (readNumber_eq_ok (by omega))
  have rest := (inBounds_bind_iff.mp rest).2 _ (readNumber_eq_ok (by omega))
  have rest := (inBounds_bind_iff.mp rest).2 _ (readNumber_eq_ok (by omega))
  have rest := (inBounds_bind_iff.mp rest).2 _ (readNumber_eq_ok (by omega))
  have rest := (inBounds_bind_iff.mp rest).2 _ (readNumber_eq_ok (by omega))
  have rest := (inBounds_bind_iff.mp rest).2 _
    ((many_eq_ok_iff unpackQuestion_eq_ok_iff).mpr ⟨length, chain⟩)
  obtain ⟨ofAnswers, ofRest⟩ := inBounds_bind_iff.mp rest
  refine inBounds_records_iff.mp ⟨ofAnswers, fun answers middle read => ?_⟩ records pos fewer
    records' empty
  exact (inBounds_bind_iff.mp (ofRest _ read)).1

/-- Reading a packet stays in bounds exactly when the parser comes to no text record
without data at the end of the buffer. -/
theorem inBounds_fill_iff (lib : Inet) (now : Int) (input : Str) :
    InBounds (fill lib now input) ↔ ¬ReachesEmptyText lib now input :=
  ⟨fun inBounds reached => not_inBounds_fill reached inBounds, inBounds_fill⟩

/-- A response with one answer, a text record of the root without data. -/
def emptyTextPacket : Str :=
  [0, 1, 128, 0, 0, 0, 0, 1, 0, 0, 0, 0, 0, 0, 16, 0, 1, 0, 0, 0, 0, 0, 0]

/-- The length of the text is looked for behind the packet. -/
theorem not_inBounds_fill_emptyTextPacket : ¬InBounds (fill dottedInet 0 emptyTextPacket) := by
  have root : NameAt emptyTextPacket 12 [] 13 := ⟨[], .root rfl, rfl⟩
  have question : QuestionAt emptyTextPacket 12 ⟨[], .txt, 1⟩ 17 :=
    ⟨rfl, ⟨13, root, rfl⟩, by decide, by decide, by decide⟩
  exact not_inBounds_fill ⟨by decide, [], 12, [], 12, by decide, .nil 12, by decide, .nil 12,
    ⟨_, 17, question, rfl, by decide, rfl⟩⟩

end Anope.Dns
