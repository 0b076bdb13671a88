import Anope.Library.Outbox
import Anope.Text.Ctcp

/-!
# Writing to sockets

What is written to a socket is buffered until the socket can be written to: in one string
(`BufferedSocket`), or in a queue of blocks, the first of which may be sent in part
(`BinarySocket`).
-/

namespace Anope.Sockets

open Library.Outbox Library.Run Anope.Text

/-- A size as an `int`. -/
def toInt (size : Nat) : Int :=
  (size : Int).bmod (2 ^ 32)

theorem toInt_eq (size : Nat) : toInt size = (size : Int).bmod (2 ^ 32) :=
  rfl

/-- What a call of `Send` does: it fails, or takes the first bytes of those that it is given. -/
inductive Sent where
  | failed
  | took (bytes : Nat)
  deriving DecidableEq, Repr

namespace Sent

/-- The bytes that are taken. -/
def taken : Sent → Nat
  | failed => 0
  | took bytes => bytes

/-- The result of the call, as an `int`. -/
def count : Sent → Int
  | failed => -1
  | took bytes => toInt bytes

/-- The result fits into an `int`. -/
def Fits : Sent → Prop
  | failed => True
  | took bytes => bytes < 2 ^ 31

end Sent

/-- What `ProcessWrite` meets: the call of `Send`, and whether its error is to be ignored. -/
structure Answer where
  sent : Sent
  ignoreErrno : Bool

/-! ## Strings -/

/-- `BufferedSocket`: what is to be written, and whether the socket is polled for it. -/
structure BufferedSocket where
  writeBuffer : Str
  writable : Bool

namespace BufferedSocket

/-- `Write`, which reads the message as a C string and does not look at its length. -/
def write (socket : BufferedSocket) (buffer : Str) : BufferedSocket :=
  { socket with
    writeBuffer := socket.writeBuffer ++ (cStr buffer ++ [13, 10])
    writable := true }

/-- `ProcessWrite`. -/
def processWrite (socket : BufferedSocket) (answer : Answer) : Bool × BufferedSocket :=
  if socket.writeBuffer = [] then (true, socket)
  else
    let count := answer.sent.count
    if count = 0 then (false, socket)
    else if count < 0 then (answer.ignoreErrno, socket)
    else
      let rest := socket.writeBuffer.drop count.toNat
      (true, { writeBuffer := rest, writable := if rest = [] then false else socket.writable })

end BufferedSocket

/-! ## Blocks -/

/-- `BinarySocket::DataBlock`: the bytes, and how many of them were sent. -/
structure DataBlock where
  orig : Str
  cursor : Nat

namespace DataBlock

/-- `buf`. -/
def buf (d : DataBlock) : Str :=
  d.orig.drop d.cursor

/-- `len`. -/
def len (d : DataBlock) : Nat :=
  d.orig.length - d.cursor

/-- `buf += count`, `len -= count`. -/
def advance (d : DataBlock) (count : Nat) : DataBlock :=
  { d with cursor := d.cursor + count }

@[simp]
theorem length_buf (d : DataBlock) : d.buf.length = d.len :=
  List.length_drop

@[simp]
theorem buf_advance (d : DataBlock) (count : Nat) : (d.advance count).buf = d.buf.drop count :=
  List.drop_drop.symm

end DataBlock

/-- `BinarySocket`. -/
structure BinarySocket where
  writeBuffer : List DataBlock
  writable : Bool

namespace BinarySocket

/-- `Write`. -/
def write (socket : BinarySocket) (buffer : Str) : BinarySocket :=
  if buffer.length = 0 then socket
  else { writeBuffer := socket.writeBuffer ++ [⟨buffer, 0⟩], writable := true }

/-- `ProcessWrite`. -/
def processWrite (socket : BinarySocket) (answer : Answer) : Bool × BinarySocket :=
  match socket.writeBuffer with
  | [] => (true, { socket with writable := false })
  | d :: rest =>
      let len := answer.sent.count
      if len ≤ -1 then (false, socket)
      else
        let left := if len.toNat = d.len then rest else d.advance len.toNat :: rest
        (true, { writeBuffer := left, writable := if left = [] then false else socket.writable })

/-- The bytes in the buffer. -/
def bytes (socket : BinarySocket) : Str :=
  socket.writeBuffer.flatMap DataBlock.buf

/-- The block that is sent next. -/
def front (socket : BinarySocket) : Str :=
  (socket.writeBuffer.head?.map DataBlock.buf).getD []

end BinarySocket

/-! ## The counts of what was taken -/

namespace Sent

theorem count_le_taken (sent : Sent) : sent.count.toNat ≤ sent.taken := by
  cases sent with
  | failed => exact Nat.zero_le _
  | took bytes =>
      rw [count, taken, toInt_eq, Int.bmod_def]
      omega

theorem toNat_count_eq_taken_iff (sent : Sent) : sent.count.toNat = sent.taken ↔ sent.Fits := by
  cases sent with
  | failed => exact iff_of_true rfl trivial
  | took bytes =>
      rw [count, taken, Fits, toInt_eq, Int.bmod_def]
      omega

end Sent

/-! ## The sockets as buffers -/

namespace BufferedSocket

variable {socket : BufferedSocket} {answer : Answer}

/-- As many bytes are taken out as were counted. -/
theorem writeBuffer_processWrite (socket : BufferedSocket) (answer : Answer) :
    (socket.processWrite answer).2.writeBuffer =
      socket.writeBuffer.drop answer.sent.count.toNat := by
  rw [processWrite]
  split
  next none => rw [none, List.drop_nil]
  · simp only
    split
    next zero => rw [zero, Int.toNat_zero, List.drop_zero]
    · split
      next negative => rw [Int.toNat_of_nonpos negative.le, List.drop_zero]
      · rfl

theorem writable_processWrite (polled : socket.writeBuffer ≠ [] → socket.writable = true)
    (left : (socket.processWrite answer).2.writeBuffer ≠ []) :
    (socket.processWrite answer).2.writable = true := by
  have some : socket.writeBuffer ≠ [] := by
    rintro none
    rw [writeBuffer_processWrite, none, List.drop_nil] at left
    exact left rfl
  rw [writeBuffer_processWrite] at left
  rw [processWrite, if_neg some]
  simp only
  split
  · exact polled some
  · split
    · exact polled some
    · exact polled some

/-- The whole string is offered. -/
def buffer : Buffer BufferedSocket Str Answer UInt8 where
  buffered := writeBuffer
  offered := writeBuffer
  polled := writable
  write := write
  process socket answer := (socket.processWrite answer).2
  stands message := message ++ [13, 10]
  puts message := cStr message ++ [13, 10]
  taken answer := answer.sent.taken
  counted answer := answer.sent.count.toNat
  offered_prefix _ := List.prefix_rfl
  counted_le answer := answer.sent.count_le_taken
  buffered_write _ _ := rfl
  buffered_process socket answer _ := writeBuffer_processWrite socket answer
  polled_write _ _ _ _ := rfl
  polled_process _ _ _ polled left := writable_processWrite polled left

end BufferedSocket

namespace BinarySocket

variable {socket : BinarySocket} {answer : Answer}

theorem bytes_write (socket : BinarySocket) (buffer : Str) :
    (socket.write buffer).bytes = socket.bytes ++ buffer := by
  rw [write]
  split
  next none => rw [List.length_eq_zero_iff.mp none, List.append_nil]
  · rw [bytes, bytes, List.flatMap_append, List.flatMap_singleton]
    rfl

/-- As many bytes are taken out as were counted. -/
theorem bytes_processWrite (most : answer.sent.count.toNat ≤ socket.front.length) :
    (socket.processWrite answer).2.bytes = socket.bytes.drop answer.sent.count.toNat := by
  rw [processWrite]
  split
  next none =>
    rw [bytes, bytes, none]
    exact List.drop_nil.symm
  next d rest blocks =>
    have front : socket.front = d.buf := by
      rw [BinarySocket.front, blocks]
      rfl
    have all : socket.bytes = d.buf ++ rest.flatMap DataBlock.buf := by
      rw [bytes, blocks, List.flatMap_cons]
    rw [front] at most
    rw [all, List.drop_append_of_le_length most]
    simp only
    split
    next negative =>
      have none : answer.sent.count.toNat = 0 := by omega
      rw [none, List.drop_zero, all]
    · split
      next whole =>
        rw [whole, ← d.length_buf, List.drop_length, List.nil_append]
        rfl
      · rw [← d.buf_advance]
        rfl

theorem bytes_eq_nil_of_writeBuffer (none : socket.writeBuffer = []) : socket.bytes = [] := by
  rw [bytes, none, List.flatMap_nil]

theorem writable_write {buffer : Str} (polled : socket.bytes ≠ [] → socket.writable = true)
    (left : (socket.write buffer).bytes ≠ []) : (socket.write buffer).writable = true := by
  rw [write] at left ⊢
  split
  next none =>
    rw [if_pos none] at left
    exact polled left
  · rfl

theorem writable_processWrite (most : answer.sent.count.toNat ≤ socket.front.length)
    (polled : socket.bytes ≠ [] → socket.writable = true)
    (left : (socket.processWrite answer).2.bytes ≠ []) :
    (socket.processWrite answer).2.writable = true := by
  have blocks : (socket.processWrite answer).2.writeBuffer ≠ [] :=
    fun none => left (bytes_eq_nil_of_writeBuffer none)
  have some : socket.bytes ≠ [] := by
    intro none
    rw [bytes_processWrite most, none, List.drop_nil] at left
    exact left rfl
  rw [processWrite] at blocks ⊢
  split
  next none => exact absurd (bytes_eq_nil_of_writeBuffer none) some
  next d rest isFront =>
    simp only [isFront] at blocks ⊢
    split
    · exact polled some
    next counted =>
      rw [if_neg counted] at blocks
      exact (if_neg blocks).trans (polled some)

/-- The first block is offered. -/
def buffer : Buffer BinarySocket Str Answer UInt8 where
  buffered := bytes
  offered := front
  polled := writable
  write := write
  process socket answer := (socket.processWrite answer).2
  stands message := message
  puts message := message
  taken answer := answer.sent.taken
  counted answer := answer.sent.count.toNat
  offered_prefix socket := by
    rw [bytes, front]
    cases socket.writeBuffer with
    | nil => exact List.prefix_rfl
    | cons d rest => exact List.prefix_append _ _
  counted_le answer := answer.sent.count_le_taken
  buffered_write := bytes_write
  buffered_process _ _ most := bytes_processWrite most
  polled_write _ _ polled left := writable_write polled left
  polled_process _ _ most polled left := writable_processWrite most polled left

end BinarySocket

/-! ## Every run -/

/-- No NUL is written, and what is taken is told in an `int`. -/
def BufferedSocket.Plain : Event Str Answer → Prop
  | .write message => 0 ∉ message
  | .process answer => answer.sent.Fits

/-- What is taken is told in an `int`. -/
def BinarySocket.Plain : Event Str Answer → Prop
  | .write _ => True
  | .process answer => answer.sent.Fits

theorem BufferedSocket.faithful_iff (event : Event Str Answer) :
    BufferedSocket.buffer.Faithful event ↔ BufferedSocket.Plain event := by
  cases event with
  | write message =>
      change cStr message ++ [13, 10] = message ++ [13, 10] ↔ _
      rw [List.append_cancel_right_eq, cStr_eq_self_iff]
      rfl
  | process answer => exact answer.sent.toNat_count_eq_taken_iff

theorem BinarySocket.faithful_iff (event : Event Str Answer) :
    BinarySocket.buffer.Faithful event ↔ BinarySocket.Plain event := by
  cases event with
  | write message => exact iff_of_true rfl trivial
  | process answer => exact answer.sent.toNat_count_eq_taken_iff

theorem BufferedSocket.kept_start (writable : Bool) :
    BufferedSocket.buffer.Kept (.start ⟨[], writable⟩) :=
  ⟨rfl, fun some => absurd rfl some⟩

theorem BinarySocket.kept_start (writable : Bool) :
    BinarySocket.buffer.Kept (.start ⟨[], writable⟩) :=
  ⟨rfl, fun some => absurd rfl some⟩

/-- A run of a `BufferedSocket` keeps what is written to it exactly when no NUL is written and the
counts are told in an `int`; a run of a `BinarySocket` does so exactly when the counts are. -/
theorem writes_kept_iff (writable : Bool) (events : List (Event Str Answer)) :
    (Always BufferedSocket.buffer.step BufferedSocket.buffer.Kept (.start ⟨[], writable⟩) events ↔
        EachStep BufferedSocket.buffer.step (fun _ event => BufferedSocket.Plain event)
          (.start ⟨[], writable⟩) events) ∧
      (Always BinarySocket.buffer.step BinarySocket.buffer.Kept (.start ⟨[], writable⟩) events ↔
        EachStep BinarySocket.buffer.step (fun _ event => BinarySocket.Plain event)
          (.start ⟨[], writable⟩) events) := by
  constructor
  · rw [Buffer.kept_along_iff (BufferedSocket.kept_start writable)]
    exact eachStep_congr fun _ event => BufferedSocket.faithful_iff event
  · rw [Buffer.kept_along_iff (BinarySocket.kept_start writable)]
    exact eachStep_congr fun _ event => BinarySocket.faithful_iff event

/-- What is behind a NUL is not sent. -/
theorem not_writes_kept_nul :
    ¬Always BufferedSocket.buffer.step BufferedSocket.buffer.Kept (.start ⟨[], false⟩)
      [.write [97, 0, 98]] := by
  intro always
  have kept := (always.2 _ rfl).head.bytes
  revert kept
  decide

end Anope.Sockets
