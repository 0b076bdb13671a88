import Anope.Library.Run

/-!
# Buffers of what is to be sent

Messages are put into a buffer.  From time to time the start of the buffer is offered to a
receiver, which takes some of it and tells how much; that much is taken out of the buffer.
-/

namespace Library.Outbox

open Run

universe u v w x

/-- A buffer: what is in it, what of it is offered next, and the two operations.  An answer of the
receiver tells how much it has taken, and is read as a count. -/
structure Buffer (σ : Type u) (μ : Type v) (β : Type w) (α : Type x) where
  buffered : σ → List α
  offered : σ → List α
  /-- Whether the receiver is waited for. -/
  polled : σ → Bool
  write : σ → μ → σ
  process : σ → β → σ
  /-- What a message stands for. -/
  stands : μ → List α
  /-- What is put into the buffer for it. -/
  puts : μ → List α
  taken : β → Nat
  counted : β → Nat
  offered_prefix : ∀ state, offered state <+: buffered state
  counted_le : ∀ answer, counted answer ≤ taken answer
  buffered_write : ∀ state message,
    buffered (write state message) = buffered state ++ puts message
  buffered_process : ∀ state answer, counted answer ≤ (offered state).length →
    buffered (process state answer) = (buffered state).drop (counted answer)
  polled_write : ∀ state message, (buffered state ≠ [] → polled state = true) →
    buffered (write state message) ≠ [] → polled (write state message) = true
  polled_process : ∀ state answer, counted answer ≤ (offered state).length →
    (buffered state ≠ [] → polled state = true) →
    buffered (process state answer) ≠ [] → polled (process state answer) = true

/-- What happens to a buffer. -/
inductive Event (μ : Type v) (β : Type w) where
  | write (message : μ)
  | process (answer : β)

/-- A buffer, what was sent from it, and what was written to it. -/
structure Traffic (σ : Type u) (α : Type x) where
  state : σ
  sent : List α
  written : List α

/-- Nothing was sent or written. -/
def Traffic.start {σ : Type u} {α : Type x} (state : σ) : Traffic σ α :=
  ⟨state, [], []⟩

namespace Buffer

variable {σ : Type u} {μ : Type v} {β : Type w} {α : Type x} (buffer : Buffer σ μ β α)

/-- A transition.  A receiver takes no more than it is offered. -/
def step (traffic : Traffic σ α) : Event μ β → Option (Traffic σ α)
  | .write message =>
      some { traffic with
        state := buffer.write traffic.state message
        written := traffic.written ++ buffer.stands message }
  | .process answer =>
      if buffer.taken answer ≤ (buffer.offered traffic.state).length then
        some { traffic with
          state := buffer.process traffic.state answer
          sent := traffic.sent ++ (buffer.offered traffic.state).take (buffer.taken answer) }
      else none

/-- What was sent, and then what is in the buffer, is what was written; and the receiver is waited
for while something is in the buffer. -/
structure Kept (traffic : Traffic σ α) : Prop where
  bytes : traffic.sent ++ buffer.buffered traffic.state = traffic.written
  polled : buffer.buffered traffic.state ≠ [] → buffer.polled traffic.state = true

/-- A message is put into the buffer as it is, and an answer is read as it is. -/
def Faithful : Event μ β → Prop
  | .write message => buffer.puts message = buffer.stands message
  | .process answer => buffer.counted answer = buffer.taken answer

variable {buffer} {traffic next : Traffic σ α}

theorem kept_write_iff (kept : buffer.Kept traffic) {message : μ}
    (stepped : buffer.step traffic (.write message) = some next) :
    buffer.Kept next ↔ buffer.Faithful (.write message) := by
  cases stepped
  have polled := buffer.polled_write traffic.state message kept.polled
  have bytes : traffic.sent ++ buffer.buffered (buffer.write traffic.state message) =
      traffic.written ++ buffer.puts message := by
    rw [buffer.buffered_write, ← List.append_assoc, kept.bytes]
  constructor
  · intro after
    exact List.append_cancel_left (bytes.symm.trans after.bytes)
  · intro same
    exact ⟨bytes.trans (congrArg _ same), polled⟩

/-- What a receiver takes is taken out of the buffer when it is counted right. -/
theorem take_append_drop_iff {offered buffered : List α} (isPrefix : offered <+: buffered)
    {taken counted : Nat} (most : taken ≤ offered.length) (least : counted ≤ taken) :
    offered.take taken ++ buffered.drop counted = buffered ↔ counted = taken := by
  obtain ⟨rest, rfl⟩ := isPrefix
  constructor
  · intro same
    have lengths := congrArg List.length same
    rw [List.length_append, List.length_take, List.length_drop, List.length_append] at lengths
    omega
  · rintro rfl
    rw [List.drop_append_of_le_length most, ← List.append_assoc, List.take_append_drop]

theorem kept_process_iff (kept : buffer.Kept traffic) {answer : β}
    (stepped : buffer.step traffic (.process answer) = some next) :
    buffer.Kept next ↔ buffer.Faithful (.process answer) := by
  rw [step] at stepped
  split at stepped
  next most =>
    cases stepped
    have least := buffer.counted_le answer
    have inside := Nat.le_trans least most
    have left := buffer.buffered_process traffic.state answer inside
    have polled := buffer.polled_process traffic.state answer inside kept.polled
    have exact_iff := take_append_drop_iff (buffer.offered_prefix traffic.state) most least
    rw [Faithful, ← exact_iff, ← left]
    constructor
    · intro after
      have bytes := after.bytes.trans kept.bytes.symm
      rw [List.append_assoc] at bytes
      exact List.append_cancel_left bytes
    · intro same
      refine ⟨?_, polled⟩
      rw [List.append_assoc, same, kept.bytes]
  · cases stepped

theorem kept_step_iff (kept : buffer.Kept traffic) {event : Event μ β}
    (stepped : buffer.step traffic event = some next) :
    buffer.Kept next ↔ buffer.Faithful event := by
  cases event with
  | write message => exact kept_write_iff kept stepped
  | process answer => exact kept_process_iff kept stepped

/-- Nothing is lost or told twice along a run exactly when each message is put into the buffer as
it is and each answer is read as it is. -/
theorem kept_along_iff (kept : buffer.Kept traffic) (events : List (Event μ β)) :
    Always buffer.step buffer.Kept traffic events ↔
      EachStep buffer.step (fun _ event => buffer.Faithful event) traffic events :=
  always_iff_eachStep (fun _ => True) (fun _ _ => trivial)
    (fun _ kept stepped => kept_step_iff kept stepped) trivial kept events

end Buffer

end Library.Outbox
