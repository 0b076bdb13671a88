import Anope.Uplink.Lines

/-!
# Lines do not depend on the reads

What is handed on after some reads is every complete line of the stream that is
not blank, except where a read completes a blank line: then the loop ends and
the lines behind it wait for the next read.  Bytes behind a NUL are lost.
-/

namespace Anope.Uplink

open Library.Split

/-! ## Reads -/

/-- A read that completes a blank line and has a line behind it that is complete
and not blank. -/
def opensBlank (stream read : Str) : Bool :=
  (cut 10 read).any fun (first, rest) =>
    blank (unterminated 10 stream ++ first) && completeLines rest ≠ []

/-- Whether a line waits after some reads, from a stream and whether one waited
there: it does when the last read opened with a blank line and none waited
before it. -/
def waitsAfter (stream : Str) (waiting : Bool) : List Str → Bool
  | [] => waiting
  | read :: reads => waitsAfter (stream ++ read) (!waiting && opensBlank stream read) reads

/-- Whether a line waits for another read after these. -/
def waits (reads : List Str) : Bool :=
  waitsAfter [] false reads

/-- The socket has handed on the lines of a stream, except for those that wait. -/
structure Framed (stream : Str) (waiting : Bool) (socket : UplinkSocket) : Prop where
  lines : socket.handed ++ completeLines socket.readBuffer = completeLines stream
  rest : ltrim (unterminated 10 socket.readBuffer) = ltrim (unterminated 10 stream)
  waiting : 10 ∈ socket.readBuffer ↔ waiting = true
  trimmed : 10 ∈ socket.readBuffer → ltrim socket.readBuffer = socket.readBuffer

theorem framed_initial : Framed [] false .initial where
  lines := rfl
  rest := rfl
  waiting := by simp [UplinkSocket.initial]
  trimmed := by simp [UplinkSocket.initial]

variable {stream read : Str} {waiting : Bool} {socket : UplinkSocket}

/-- Everything is handed on exactly when no line waits. -/
theorem Framed.handed_iff (framed : Framed stream waiting socket) :
    socket.handed = completeLines stream ↔ waiting = false := by
  rw [← framed.lines, List.self_eq_append_right, ← Bool.not_eq_true, ← framed.waiting]
  constructor
  · intro none mem
    rw [← framed.trimmed mem, mem_ltrim_iff] at mem
    exact mem none
  · exact completeLines_of_not_mem

/-- The lines that a buffer and a read have between them. -/
theorem Framed.lines_append (framed : Framed stream waiting socket) (read : Str) :
    socket.handed ++ completeLines (socket.readBuffer ++ read) =
      completeLines (stream ++ read) := by
  have sameRest : completeLines (unterminated 10 socket.readBuffer ++ read) =
      completeLines (unterminated 10 stream ++ read) := by
    rw [← completeLines_ltrim, ltrim_append_congr framed.rest, completeLines_ltrim]
  rw [completeLines_append, ← List.append_assoc, framed.lines, sameRest, ← completeLines_append]

theorem Framed.rest_append (framed : Framed stream waiting socket) (read : Str) :
    ltrim (unterminated 10 (socket.readBuffer ++ read)) =
      ltrim (unterminated 10 (stream ++ read)) := by
  rw [unterminated_append, ← ltrim_unterminated_ltrim, ltrim_append_congr framed.rest,
    ltrim_unterminated_ltrim, ← unterminated_append]

/-- Without a waiting line the read is what completes the first one. -/
theorem Framed.blank_append (framed : Framed stream waiting socket)
    (absent : 10 ∉ socket.readBuffer) (first : Str) :
    blank (socket.readBuffer ++ first) = blank (unterminated 10 stream ++ first) := by
  have rest := framed.rest
  rw [unterminated_of_not_mem absent] at rest
  rw [Bool.eq_iff_iff, ← ltrim_eq_nil_iff, ltrim_append_congr rest, ltrim_eq_nil_iff]

/-- The socket after the loop got every complete line. -/
theorem Framed.flush (framed : Framed stream waiting socket) {read : Str}
    (loop : processLines (socket.readBuffer ++ read) =
      (completeLines (socket.readBuffer ++ read),
        ltrim (unterminated 10 (socket.readBuffer ++ read)))) :
    Framed (stream ++ read) false
      { readBuffer := (processLines (socket.readBuffer ++ read)).2
        handed := socket.handed ++ (processLines (socket.readBuffer ++ read)).1 } := by
  have absent : 10 ∉ ltrim (unterminated 10 (socket.readBuffer ++ read)) := fun mem =>
    not_mem_unterminated 10 _ ((List.dropWhile_sublist isLineEnd).subset mem)
  rw [loop]
  refine ⟨?_, ?_, by simp [absent], by simp [absent]⟩
  · rw [completeLines_of_not_mem absent, List.append_nil, framed.lines_append]
  · rw [unterminated_of_not_mem absent, ltrim_ltrim, framed.rest_append]

/-- One round of reading and handing on. -/
theorem Framed.processLines (framed : Framed stream waiting socket) (read : Str) :
    Framed (stream ++ read) (!waiting && opensBlank stream read)
      { readBuffer := (processLines (socket.readBuffer ++ read)).2
        handed := socket.handed ++ (processLines (socket.readBuffer ++ read)).1 } := by
  cases waiting with
  | true =>
      have mem := framed.waiting.mpr rfl
      have trimmed : ltrim (socket.readBuffer ++ read) = socket.readBuffer ++ read := by
        have notBlank : blank socket.readBuffer ≠ true := by
          rw [Ne, ← ltrim_eq_nil_iff, framed.trimmed mem]
          exact List.ne_nil_of_mem mem
        rw [ltrim_append, if_neg notBlank, framed.trimmed mem]
      have loop := processLines_ltrim (socket.readBuffer ++ read)
      rw [trimmed] at loop
      exact framed.flush loop
  | false =>
      have absent : 10 ∉ socket.readBuffer := by
        rw [framed.waiting]
        exact Bool.false_ne_true
      cases found : cut 10 read with
      | none =>
          have absent' : 10 ∉ socket.readBuffer ++ read := by
            simp [absent, cut_eq_none_iff.mp found]
          rw [processLines_of_not_mem absent', opensBlank, found]
          refine ⟨?_, framed.rest_append read, by simpa using absent', by simp [absent']⟩
          rw [List.append_nil, framed.lines_append]
      | some pieces =>
          obtain ⟨first, rest⟩ := pieces
          obtain ⟨rfl, noEnd⟩ := cut_eq_some_iff.mp found
          have absent' : 10 ∉ socket.readBuffer ++ first := by simp [absent, noEnd]
          have text : socket.readBuffer ++ (first ++ 10 :: rest) =
              socket.readBuffer ++ first ++ 10 :: rest := (List.append_assoc _ _ _).symm
          have blanks := framed.blank_append absent first
          cases isBlank : blank (socket.readBuffer ++ first) with
          | false =>
              have opens : opensBlank stream (first ++ 10 :: rest) = false := by
                rw [opensBlank, found]
                simp [← blanks, isBlank]
              rw [opens]
              refine framed.flush ?_
              rw [text, processLines_cut absent' isBlank, processLines_ltrim,
                completeLines_cut absent', unterminated_cut absent', isBlank]
              rfl
          | true =>
              have opens : (!false && opensBlank stream (first ++ 10 :: rest)) =
                  decide (completeLines rest ≠ []) := by
                rw [opensBlank, found]
                simp [← blanks, isBlank]
              have lines := framed.lines_append (first ++ 10 :: rest)
              have tail := framed.rest_append (first ++ 10 :: rest)
              rw [text, completeLines_cut absent', isBlank, if_pos rfl] at lines
              rw [text, unterminated_cut absent'] at tail
              rw [opens, text, processLines_cut_blank absent' isBlank]
              refine ⟨?_, ?_, ?_, fun _ => ltrim_ltrim rest⟩
              · rw [List.append_nil, completeLines_ltrim, lines]
              · rw [ltrim_unterminated_ltrim, tail]
              · rw [mem_ltrim_iff, decide_eq_true_eq]

/-- The socket after any reads. -/
theorem Framed.foldl (framed : Framed stream waiting socket) (reads : List Str) :
    Framed (stream ++ (reads.map cString).flatten) (waitsAfter stream waiting (reads.map cString))
      (reads.foldl UplinkSocket.processRead socket) := by
  induction reads generalizing stream waiting socket with
  | nil => simpa [waitsAfter] using framed
  | cons read reads ih =>
      have next := ih (framed.processLines (cString read))
      rw [List.map_cons, List.flatten_cons, ← List.append_assoc, waitsAfter]
      exact next

/-! ## NULs -/

/-- No complete line has a NUL. -/
def NulFree (stream : Str) : Prop :=
  ∀ line ∈ terminated 10 stream, 0 ∉ line

/-- What is received of a stream: its complete lines, and what follows them unless
that has a NUL. -/
structure Received (stream text : Str) : Prop where
  lines : terminated 10 text = terminated 10 stream
  rest : 0 ∈ unterminated 10 stream ∨ unterminated 10 text = unterminated 10 stream

theorem cString_of_not_mem {text : Str} (absent : 0 ∉ text) : cString text = text :=
  List.takeWhile_eq_self_iff.mpr fun _ mem =>
    decide_eq_true (ne_of_mem_of_not_mem mem absent)

theorem not_mem_cString {c : UInt8} {text : Str} (absent : c ∉ text) : c ∉ cString text :=
  fun mem => absent ((List.takeWhile_sublist _).subset mem)

theorem cString_cut {before : Str} (absent : 0 ∉ before) (after : Str) :
    cString (before ++ 10 :: after) = before ++ 10 :: cString after := by
  have keeps : ∀ byte ∈ before, decide (byte ≠ 0) = true := fun _ mem =>
    decide_eq_true (ne_of_mem_of_not_mem mem absent)
  rw [cString, List.takeWhile_append_of_pos keeps]
  rfl

theorem nulFree_cut {before after : Str} (noEnd : 10 ∉ before) :
    NulFree (before ++ 10 :: after) ↔ 0 ∉ before ∧ NulFree after := by
  rw [NulFree, terminated_cut noEnd, List.forall_mem_cons, NulFree]

theorem nulFree_append {stream more : Str} :
    NulFree (stream ++ more) ↔ NulFree stream ∧ NulFree (unterminated 10 stream ++ more) := by
  simp only [NulFree, terminated_append stream more, List.forall_mem_append]

/-- A C string loses nothing before the last newline. -/
theorem received_cString {text : Str} (nulFree : NulFree text) : Received text (cString text) := by
  induction text using @cutInduction _ _ (10 : UInt8) with
  | absent text noEnd =>
      refine ⟨?_, ?_⟩
      · rw [terminated_of_not_mem noEnd, terminated_of_not_mem (not_mem_cString noEnd)]
      · rw [unterminated_of_not_mem noEnd, unterminated_of_not_mem (not_mem_cString noEnd)]
        by_cases mem : 0 ∈ text
        · exact .inl mem
        · exact .inr (cString_of_not_mem mem)
  | piece before after noEnd ih =>
      obtain ⟨absent, rest⟩ := (nulFree_cut noEnd).mp nulFree
      rw [cString_cut absent]
      refine ⟨?_, ?_⟩
      · rw [terminated_cut noEnd, terminated_cut noEnd, (ih rest).lines]
      · rw [unterminated_cut noEnd, unterminated_cut noEnd]
        exact (ih rest).rest

/-- A read is received as far as lines go, and completes the same line. -/
theorem Received.append {text : Str} (received : Received stream text)
    (nulFree : NulFree (stream ++ read)) :
    Received (stream ++ read) (text ++ cString read) ∧
      opensBlank stream read = opensBlank text (cString read) := by
  obtain ⟨_, ofRest⟩ := nulFree_append.mp nulFree
  cases found : cut 10 read with
  | none =>
      have noEnd := cut_eq_none_iff.mp found
      have noEnd' := not_mem_cString noEnd
      have absent : 10 ∉ unterminated 10 stream ++ read := by
        simp [not_mem_unterminated, noEnd]
      have absent' : 10 ∉ unterminated 10 text ++ cString read := by
        simp [not_mem_unterminated, noEnd']
      refine ⟨⟨?_, ?_⟩, ?_⟩
      · rw [terminated_append, terminated_append stream, terminated_of_not_mem absent,
          terminated_of_not_mem absent', received.lines]
      · rw [unterminated_append, unterminated_append text, unterminated_of_not_mem absent,
          unterminated_of_not_mem absent']
        rcases received.rest with mem | same
        · exact .inl (List.mem_append_left _ mem)
        · by_cases mem : 0 ∈ read
          · exact .inl (List.mem_append_right _ mem)
          · rw [same, cString_of_not_mem mem]
            exact .inr rfl
      · rw [opensBlank, opensBlank, found, cut_eq_none noEnd']
        rfl
  | some pieces =>
      obtain ⟨first, rest⟩ := pieces
      obtain ⟨rfl, noEnd⟩ := cut_eq_some_iff.mp found
      have absent : 10 ∉ unterminated 10 stream ++ first := by
        simp [not_mem_unterminated, noEnd]
      rw [← List.append_assoc, nulFree_cut absent, List.mem_append, not_or] at ofRest
      obtain ⟨⟨noNul, noNul'⟩, behind⟩ := ofRest
      have same := received.rest.resolve_left noNul
      have after := received_cString behind
      rw [cString_cut noNul']
      refine ⟨⟨?_, ?_⟩, ?_⟩
      · rw [terminated_append, terminated_append stream, same, received.lines,
          ← List.append_assoc, ← List.append_assoc, terminated_cut absent, terminated_cut absent,
          after.lines]
      · rw [unterminated_append, unterminated_append text, same, ← List.append_assoc,
          ← List.append_assoc, unterminated_cut absent, unterminated_cut absent]
        exact after.rest
      · have lines : completeLines (cString rest) = completeLines rest := by
          rw [completeLines, after.lines, completeLines]
        rw [opensBlank, opensBlank, found, cut_append noEnd, same]
        simp [lines]

/-- The reads are received as far as lines go, and wait for the same lines. -/
theorem Received.flatten {text : Str} (received : Received stream text) (reads : List Str)
    (nulFree : NulFree (stream ++ reads.flatten)) (waiting : Bool) :
    Received (stream ++ reads.flatten) (text ++ (reads.map cString).flatten) ∧
      waitsAfter stream waiting reads = waitsAfter text waiting (reads.map cString) := by
  induction reads generalizing stream text waiting with
  | nil => simpa [waitsAfter] using received
  | cons read reads ih =>
      rw [List.flatten_cons, ← List.append_assoc] at nulFree
      obtain ⟨next, opens⟩ := received.append (nulFree_append.mp nulFree).1
      rw [List.map_cons, List.flatten_cons, List.flatten_cons, ← List.append_assoc,
        ← List.append_assoc, waitsAfter, waitsAfter, opens]
      exact ih next nulFree _

/-- Trimming keeps every other byte. -/
theorem mem_trim {byte : UInt8} {line : Str} (notEnd : isLineEnd byte = false)
    (mem : byte ∈ line) : byte ∈ trim line := by
  have kept : ∀ {text : Str}, byte ∈ text → byte ∈ ltrim text := fun {text} mem => by
    rw [← @List.takeWhile_append_dropWhile _ isLineEnd text, List.mem_append] at mem
    rcases mem with mem | mem
    · rw [List.mem_takeWhile_imp mem] at notEnd
      contradiction
    · exact mem
  rw [trim, rtrim, List.rdropWhile, List.mem_reverse]
  exact kept (List.mem_reverse.mpr (kept mem))

theorem mem_of_mem_trim {byte : UInt8} {line : Str} (mem : byte ∈ trim line) : byte ∈ line :=
  (List.dropWhile_sublist isLineEnd).subset ((List.rdropWhile_prefix _ _).subset mem)

/-- A NUL in a complete line is a NUL in a line that is not blank. -/
theorem nulFree_iff {stream : Str} :
    NulFree stream ↔ ∀ line ∈ completeLines stream, 0 ∉ line := by
  constructor
  · intro nulFree line mem
    obtain ⟨untrimmed, found, rfl⟩ := List.mem_map.mp (List.mem_filter.mp mem).1
    exact fun nul => nulFree untrimmed found (mem_of_mem_trim nul)
  · intro lines line mem nul
    have kept : 0 ∈ trim line := mem_trim rfl nul
    have nonempty : decide (trim line ≠ []) = true := decide_eq_true (List.ne_nil_of_mem kept)
    exact lines _ (List.mem_filter.mpr ⟨List.mem_map_of_mem mem, nonempty⟩) kept

theorem nulFree_of_not_mem {text : Str} (absent : 0 ∉ text) : NulFree text := by
  induction text using @cutInduction _ _ (10 : UInt8) with
  | absent text noEnd =>
      rw [NulFree, terminated_of_not_mem noEnd]
      exact fun _ mem => absurd mem List.not_mem_nil
  | piece before after noEnd ih =>
      rw [List.mem_append, List.mem_cons, not_or, not_or] at absent
      exact (nulFree_cut noEnd).mpr ⟨absent.1, ih absent.2.2⟩

/-- What is handed on has no NUL. -/
theorem not_mem_handedLines {reads : List Str} {line : Str} (mem : line ∈ handedLines reads) :
    0 ∉ line := by
  have framed := framed_initial.foldl reads
  have absent : 0 ∉ [] ++ (reads.map cString).flatten := by
    rw [List.nil_append, List.mem_flatten]
    rintro ⟨_, found, nul⟩
    obtain ⟨read, _, rfl⟩ := List.mem_map.mp found
    have notNul := List.mem_takeWhile_imp nul
    contradiction
  refine nulFree_iff.mp (nulFree_of_not_mem absent) line ?_
  rw [← framed.lines]
  exact List.mem_append_left _ mem

/-! ## Two ways to cut a stream -/

/-- Every complete line that is not blank is handed on, exactly when none has a
NUL and none waits for another read. -/
theorem handedLines_eq_iff (reads : List Str) :
    handedLines reads = completeLines reads.flatten ↔
      NulFree reads.flatten ∧ waits reads = false := by
  have noNul : handedLines reads = completeLines reads.flatten → NulFree reads.flatten :=
    fun equal => nulFree_iff.mpr fun line mem => not_mem_handedLines (equal ▸ mem)
  have handed : NulFree reads.flatten →
      (handedLines reads = completeLines reads.flatten ↔ waits reads = false) := by
    intro nulFree
    obtain ⟨received, sameWaits⟩ :=
      Received.flatten (⟨rfl, .inr rfl⟩ : Received [] []) reads nulFree false
    have lines : completeLines reads.flatten = completeLines ([] ++ (reads.map cString).flatten) :=
      congrArg (fun lines => (lines.map trim).filter fun line => line ≠ []) received.lines.symm
    rw [lines, waits, sameWaits]
    exact (framed_initial.foldl reads).handed_iff
  exact ⟨fun equal => ⟨noNul equal, (handed (noNul equal)).mp equal⟩,
    fun ⟨nulFree, done⟩ => (handed nulFree).mpr done⟩

/-- Two sequences of reads give the same lines, which are those of the stream. -/
def SameLines (reads reads' : List Str) : Prop :=
  handedLines reads = handedLines reads' ∧ handedLines reads = completeLines reads.flatten

/-- Two ways to cut a stream into reads give the lines of the stream exactly when
none has a NUL, and after neither a line waits behind a blank one. -/
theorem sameLines_iff {reads reads' : List Str} (same : reads.flatten = reads'.flatten) :
    SameLines reads reads' ↔
      NulFree reads.flatten ∧ waits reads = false ∧ waits reads' = false := by
  have first := handedLines_eq_iff reads
  have second := handedLines_eq_iff reads'
  rw [← same] at second
  constructor
  · rintro ⟨equal, lines⟩
    obtain ⟨nulFree, done⟩ := first.mp lines
    exact ⟨nulFree, done, (second.mp (equal ▸ lines)).2⟩
  · rintro ⟨nulFree, done, done'⟩
    have lines := first.mpr ⟨nulFree, done⟩
    exact ⟨lines.trans (second.mpr ⟨nulFree, done'⟩).symm, lines⟩

/-- A blank line at the start of the second read keeps the line behind it back. -/
theorem not_sameLines_blank :
    [ascii "A\r\n\r\nB\r\n"].flatten = [ascii "A\r\n", ascii "\r\nB\r\n"].flatten ∧
      ¬SameLines [ascii "A\r\n\r\nB\r\n"] [ascii "A\r\n", ascii "\r\nB\r\n"] := by
  refine ⟨by decide, ?_⟩
  rintro ⟨equal, lines⟩
  rw [equal] at lines
  have done := ((handedLines_eq_iff [ascii "A\r\n", ascii "\r\nB\r\n"]).mp lines).2
  exact absurd done (by decide)

/-- The same stream with the blank line inside a read. -/
theorem sameLines_iff_split :
    SameLines [ascii "A\r\n\r\nB\r\n"] [ascii "A\r\n\r\nB", ascii "\r\n"] ↔
      NulFree (ascii "A\r\n\r\nB\r\n") ∧ waits [ascii "A\r\n\r\nB\r\n"] = false ∧
        waits [ascii "A\r\n\r\nB", ascii "\r\n"] = false :=
  sameLines_iff (by decide)

end Anope.Uplink
