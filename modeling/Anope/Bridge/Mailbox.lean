import Mathlib.Algebra.GroupWithZero.Nat
import Mathlib.Data.List.Induction
import Mathlib.Tactic.Common

/-!
# The mailbox of a bridge

`Async::Mailbox`: a bounded queue of jobs between a producer and the owner that runs them.  The
sections under the mutex are the steps, so that an interleaving of the two threads is a list of
calls; the wake that follows an accepted `Post` takes no part in them.
-/

namespace Anope.Bridge

universe u

/-- `Mailbox`. -/
structure Mailbox (Job : Type u) where
  /-- Whether `owner` is not null. -/
  owner : Bool
  capacity : Nat
  jobs : List Job
  dropped : Nat

namespace Mailbox

variable {Job : Type u}

/-- The constructor. -/
def new (owner : Bool) (cap : Nat) : Mailbox Job where
  owner := owner
  capacity := if cap = 0 then 1 else cap
  jobs := []
  dropped := 0

/-- `Post`. -/
def post (mailbox : Mailbox Job) (job : Job) : Bool × Mailbox Job :=
  if mailbox.owner then
    if mailbox.capacity ≤ mailbox.jobs.length then
      (true, { mailbox with jobs := mailbox.jobs.tail ++ [job], dropped := mailbox.dropped + 1 })
    else (true, { mailbox with jobs := mailbox.jobs ++ [job] })
  else (false, mailbox)

/-- `Pop`. -/
def pop (mailbox : Mailbox Job) : Option Job × Mailbox Job :=
  match mailbox.jobs with
  | [] => (none, mailbox)
  | job :: jobs => (some job, { mailbox with jobs := jobs })

/-- `TakeDropped`. -/
def takeDropped (mailbox : Mailbox Job) : Nat × Mailbox Job :=
  (mailbox.dropped, { mailbox with dropped := 0 })

/-- `Detach`. -/
def detach (mailbox : Mailbox Job) : Mailbox Job :=
  { mailbox with owner := false, jobs := [] }

/-- `IsAttached`. -/
def isAttached (mailbox : Mailbox Job) : Bool :=
  mailbox.owner

/-- What either thread does under the mutex. -/
inductive Call (Job : Type u) where
  | post (job : Job)
  | pop
  | takeDropped
  | detach

/-- What a call returns. -/
inductive Answer (Job : Type u) where
  | posted (accepted : Bool)
  | popped (job : Option Job)
  | dropped (count : Nat)
  | detached

/-- One call. -/
def step (mailbox : Mailbox Job) : Call Job → Answer Job × Mailbox Job
  | .post job => (.posted (mailbox.post job).1, (mailbox.post job).2)
  | .pop => (.popped mailbox.pop.1, mailbox.pop.2)
  | .takeDropped => (.dropped mailbox.takeDropped.1, mailbox.takeDropped.2)
  | .detach => (.detached, mailbox.detach)

/-- What calls make of a mailbox. -/
def run (mailbox : Mailbox Job) (calls : List (Call Job)) : Mailbox Job :=
  calls.foldl (fun state call => (state.step call).2) mailbox

/-! ## What calls do to the jobs -/

/-- A call and the mailbox that it is made of. -/
structure Event (Job : Type u) where
  before : Mailbox Job
  call : Call Job

/-- The events of a run. -/
def history (mailbox : Mailbox Job) : List (Call Job) → List (Event Job)
  | [] => []
  | call :: calls => ⟨mailbox, call⟩ :: history (mailbox.step call).2 calls

namespace Event

/-- What the call returns. -/
def answer (event : Event Job) : Answer Job :=
  (event.before.step event.call).1

/-- The mailbox that the call leaves. -/
def after (event : Event Job) : Mailbox Job :=
  (event.before.step event.call).2

/-- The job that is posted. -/
def posted (event : Event Job) : List Job :=
  match event.call with
  | .post job => [job]
  | _ => []

/-- The job for which `Post` returns true. -/
def accepted (event : Event Job) : List Job :=
  match event.call, event.answer with
  | .post job, .posted true => [job]
  | _, _ => []

/-- The job for which `Post` returns false. -/
def refused (event : Event Job) : List Job :=
  match event.call, event.answer with
  | .post job, .posted false => [job]
  | _, _ => []

/-- The job that `Pop` hands out. -/
def popped (event : Event Job) : List Job :=
  match event.answer with
  | .popped (some job) => [job]
  | _ => []

/-- What `TakeDropped` reports. -/
def reported (event : Event Job) : Nat :=
  match event.answer with
  | .dropped count => count
  | _ => 0

/-- The jobs that the queue has lost. -/
def left (event : Event Job) : List Job :=
  (event.before.jobs ++ event.accepted).take
    (event.before.jobs.length + event.accepted.length - event.after.jobs.length)

/-- The jobs that the queue loses to a `Post`. -/
def dropped (event : Event Job) : List Job :=
  match event.call with
  | .post _ => event.left
  | _ => []

/-- The jobs that the queue loses to a `Detach`. -/
def discarded (event : Event Job) : List Job :=
  match event.call with
  | .detach => event.left
  | _ => []

end Event

/-- What has become of a posted job. -/
inductive Fate where
  | popped
  | queued
  | dropped
  | discarded
  | refused
  deriving DecidableEq, Repr

/-- The jobs that share a fate, in their order. -/
def having (fate : Fate) (ledger : List (Job × Fate)) : List Job :=
  (ledger.filter fun entry => entry.2 = fate).map Prod.fst

theorem having_append (fate : Fate) (ledger more : List (Job × Fate)) :
    having fate (ledger ++ more) = having fate ledger ++ having fate more := by
  rw [having, List.filter_append, List.map_append, having, having]

theorem having_map (fate other : Fate) (jobs : List Job) :
    having fate (jobs.map fun job => (job, other)) = if other = fate then jobs else [] := by
  induction jobs with
  | nil => exact (ite_self []).symm
  | cons job jobs ih =>
      rw [having] at ih ⊢
      by_cases same : other = fate
      · rw [if_pos same] at ih ⊢
        rw [List.map_cons, List.filter_cons_of_pos (by simpa using same), List.map_cons, ih]
      · rw [if_neg same] at ih ⊢
        rw [List.map_cons, List.filter_cons_of_neg (by simpa using same), ih]

/-! ## One call -/

/-- A mailbox that calls can lead to. -/
structure Valid (mailbox : Mailbox Job) : Prop where
  positive : 0 < mailbox.capacity
  bounded : mailbox.jobs.length ≤ mailbox.capacity
  closed : mailbox.owner = false → mailbox.jobs = []

/-- The jobs of an event: they leave at the front, all with one fate, and go in at the end. -/
structure Event.Settles (event : Event Job) (fate : Fate) : Prop where
  conserved : event.before.jobs ++ event.accepted = event.left ++ event.after.jobs
  posted : event.posted = event.accepted ++ event.refused
  refused : event.refused = [] ∨ event.after.jobs = []
  popped : event.popped = if fate = .popped then event.left else []
  dropped : event.dropped = if fate = .dropped then event.left else []
  discarded : event.discarded = if fate = .discarded then event.left else []
  notQueued : fate ≠ .queued
  notRefused : fate ≠ .refused
  counted : event.before.dropped + event.dropped.length = event.reported + event.after.dropped
  full : event.dropped ≠ [] → event.before.jobs.length = event.before.capacity

section Step

variable {mailbox : Mailbox Job}

theorem positive_new (owner : Bool) (cap : Nat) : 0 < (new owner cap : Mailbox Job).capacity := by
  simp only [new]
  split
  · exact Nat.one_pos
  · exact Nat.pos_of_ne_zero ‹_›

theorem valid_new (owner : Bool) (cap : Nat) : (new owner cap : Mailbox Job).Valid where
  positive := positive_new owner cap
  bounded := Nat.zero_le _
  closed _ := rfl

theorem post_of_detached (job : Job) (detached : mailbox.owner = false) :
    mailbox.post job = (false, mailbox) := by
  simp [post, detached]

theorem post_of_room (job : Job) (attached : mailbox.owner = true)
    (room : mailbox.jobs.length < mailbox.capacity) :
    mailbox.post job = (true, { mailbox with jobs := mailbox.jobs ++ [job] }) := by
  simp [post, attached, room]

theorem post_of_full (job : Job) (attached : mailbox.owner = true)
    (full : mailbox.capacity ≤ mailbox.jobs.length) :
    mailbox.post job =
      (true,
        { mailbox with jobs := mailbox.jobs.tail ++ [job], dropped := mailbox.dropped + 1 }) := by
  simp [post, attached, full]

section Settles

attribute [local simp] Event.accepted Event.refused Event.posted Event.popped Event.dropped
  Event.discarded Event.reported Event.left Event.after Event.answer step

theorem settles_post (valid : mailbox.Valid) (job : Job) :
    (Event.mk mailbox (.post job)).Settles .dropped := by
  cases attached : mailbox.owner with
  | false =>
      have empty := valid.closed attached
      constructor <;> simp [post_of_detached job attached, empty]
  | true =>
      by_cases room : mailbox.jobs.length < mailbox.capacity
      · constructor <;> simp [post_of_room job attached room]
      · have full := Nat.le_of_not_lt room
        obtain ⟨oldest, younger, jobs⟩ : ∃ oldest younger, mailbox.jobs = oldest :: younger :=
          List.exists_cons_of_length_pos (Nat.lt_of_lt_of_le valid.positive full)
        have exactly := Nat.le_antisymm valid.bounded full
        constructor <;> simp [post_of_full job attached full, jobs, ← exactly]

theorem settles_pop (mailbox : Mailbox Job) :
    (Event.mk mailbox .pop).Settles .popped := by
  cases jobs : mailbox.jobs with
  | nil => constructor <;> simp [pop, jobs]
  | cons job rest => constructor <;> simp [pop, jobs]

theorem settles_takeDropped (mailbox : Mailbox Job) :
    (Event.mk mailbox .takeDropped).Settles .dropped := by
  constructor <;> simp [takeDropped]

theorem settles_detach (mailbox : Mailbox Job) :
    (Event.mk mailbox .detach).Settles .discarded := by
  constructor <;> simp [detach]

end Settles

theorem Valid.settles (valid : mailbox.Valid) (call : Call Job) :
    ∃ fate, (Event.mk mailbox call).Settles fate := by
  cases call with
  | post job => exact ⟨.dropped, settles_post valid job⟩
  | pop => exact ⟨.popped, settles_pop mailbox⟩
  | takeDropped => exact ⟨.dropped, settles_takeDropped mailbox⟩
  | detach => exact ⟨.discarded, settles_detach mailbox⟩

end Step

/-! ## Runs -/

section Runs

variable {mailbox : Mailbox Job}

theorem run_concat (mailbox : Mailbox Job) (calls : List (Call Job)) (call : Call Job) :
    mailbox.run (calls ++ [call]) = ((mailbox.run calls).step call).2 :=
  List.foldl_append ..

theorem history_concat (mailbox : Mailbox Job) (calls : List (Call Job)) (call : Call Job) :
    mailbox.history (calls ++ [call]) = mailbox.history calls ++ [⟨mailbox.run calls, call⟩] := by
  induction calls generalizing mailbox with
  | nil => rfl
  | cons first calls ih =>
      rw [List.cons_append, history, ih, history, List.cons_append]
      rfl

@[simp]
theorem owner_post (mailbox : Mailbox Job) (job : Job) :
    (mailbox.post job).2.owner = mailbox.owner := by
  rw [post]
  split
  · split <;> rfl
  · rfl

@[simp]
theorem owner_pop (mailbox : Mailbox Job) : mailbox.pop.2.owner = mailbox.owner := by
  rw [pop]
  split <;> rfl

theorem capacity_step (mailbox : Mailbox Job) (call : Call Job) :
    (mailbox.step call).2.capacity = mailbox.capacity := by
  cases call with
  | post job =>
      simp only [step, post]
      split
      · split <;> rfl
      · rfl
  | pop =>
      simp only [step, pop]
      split <;> rfl
  | takeDropped => rfl
  | detach => rfl

theorem Valid.step (valid : mailbox.Valid) (call : Call Job) : (mailbox.step call).2.Valid := by
  have positive : 0 < (mailbox.step call).2.capacity := by
    rw [capacity_step]
    exact valid.positive
  refine ⟨positive, ?_, ?_⟩
  · rw [capacity_step]
    cases call with
    | post job =>
        simp only [Mailbox.step, post]
        have bounded := valid.bounded
        have positive := valid.positive
        split
        · split
          · simp only [List.length_append, List.length_tail, List.length_singleton]
            omega
          · simp only [List.length_append, List.length_singleton]
            omega
        · exact bounded
    | pop =>
        simp only [Mailbox.step, pop]
        split
        · exact valid.bounded
        · rename_i jobs
          have bounded := valid.bounded
          rw [jobs, List.length_cons] at bounded
          exact Nat.le_of_succ_le bounded
    | takeDropped => exact valid.bounded
    | detach => exact Nat.zero_le _
  · intro detached
    cases call with
    | post job =>
        have closed := (owner_post mailbox job).symm.trans detached
        rw [Mailbox.step, post_of_detached job closed]
        exact valid.closed closed
    | pop =>
        have closed := valid.closed ((owner_pop mailbox).symm.trans detached)
        rw [Mailbox.step, pop, closed]
        exact closed
    | takeDropped => exact valid.closed detached
    | detach => rfl

theorem valid_run (owner : Bool) (cap : Nat) (calls : List (Call Job)) :
    ((new owner cap).run calls).Valid := by
  induction calls using List.reverseRecOn with
  | nil => exact valid_new owner cap
  | append_singleton calls call ih =>
      rw [run_concat]
      exact ih.step call

theorem capacity_run (mailbox : Mailbox Job) (calls : List (Call Job)) :
    (mailbox.run calls).capacity = mailbox.capacity := by
  induction calls using List.reverseRecOn with
  | nil => rfl
  | append_singleton calls call ih => rw [run_concat, capacity_step, ih]

/-- The owner is gone when there was none or after a `Detach`. -/
theorem isAttached_run (owner : Bool) (cap : Nat) (calls : List (Call Job)) :
    ((new owner cap).run calls).isAttached = true ↔ owner = true ∧ Call.detach ∉ calls := by
  induction calls using List.reverseRecOn with
  | nil => simp [run, new, isAttached]
  | append_singleton calls call ih =>
      rw [run_concat, List.mem_append, not_or, ← and_assoc, ← ih, List.mem_singleton]
      cases call <;> simp [step, takeDropped, detach, isAttached]

/-- A ledger with one fate for each posted job: the jobs that were popped, dropped, discarded or
refused are those of the history, and the others are in the queue. -/
structure Accounts (history : List (Event Job)) (mailbox : Mailbox Job)
    (ledger : List (Job × Fate)) : Prop where
  posted : ledger.map Prod.fst = history.flatMap Event.posted
  queued : having .queued ledger = mailbox.jobs
  popped : having .popped ledger = history.flatMap Event.popped
  dropped : having .dropped ledger = history.flatMap Event.dropped
  discarded : having .discarded ledger = history.flatMap Event.discarded
  refused : having .refused ledger = history.flatMap Event.refused

theorem having_settle (fate left last : Fate) (gone : List (Job × Fate))
    (jobs refused rest : List Job) :
    having fate (gone ++ jobs.map (fun job => (job, left)) ++
        refused.map (fun job => (job, Fate.refused)) ++ rest.map fun job => (job, last)) =
      having fate gone ++ (if left = fate then jobs else []) ++
        (if Fate.refused = fate then refused else []) ++ if last = fate then rest else [] := by
  rw [having_append, having_append, having_append, having_map, having_map, having_map]

/-- The jobs of the queue are the last ones that the ledger has. -/
def Settled (history : List (Event Job)) (mailbox : Mailbox Job) : Prop :=
  ∃ gone : List (Job × Fate), having .queued gone = [] ∧
    Accounts history mailbox (gone ++ mailbox.jobs.map fun job => (job, .queued))

theorem Settled.step {history : List (Event Job)} (settled : Settled history mailbox)
    (valid : mailbox.Valid) (call : Call Job) :
    Settled (history ++ [⟨mailbox, call⟩]) (mailbox.step call).2 := by
  obtain ⟨gone, unqueued, accounts⟩ := settled
  obtain ⟨fate, settles⟩ := valid.settles call
  have before : ∀ other, having other (gone ++ mailbox.jobs.map fun job => (job, Fate.queued)) =
      having other gone ++ if Fate.queued = other then mailbox.jobs else [] := by
    intro other
    rw [having_append, having_map]
  have refuses : ∀ refused : List Job, refused = [] ∨ (mailbox.step call).2.jobs = [] →
      refused ++ (mailbox.step call).2.jobs = (mailbox.step call).2.jobs ++ refused := by
    rintro refused (none | empty)
    · rw [none, List.nil_append, List.append_nil]
    · rw [empty, List.nil_append, List.append_nil]
  refine ⟨gone ++ (Event.mk mailbox call).left.map (fun job => (job, fate)) ++
    (Event.mk mailbox call).refused.map fun job => (job, .refused), ?_, ?_⟩
  · rw [having_append, having_append, having_map, having_map, unqueued, if_neg settles.notQueued]
    rfl
  · constructor
    · have posted := accounts.posted
      rw [List.map_append, List.map_map] at posted
      rw [List.flatMap_append, ← posted, List.flatMap_singleton, settles.posted]
      simp only [List.map_append, List.map_map, Function.comp_def, List.map_id', List.append_assoc]
      rw [refuses _ settles.refused, ← List.append_assoc _ (mailbox.step call).2.jobs,
        ← List.append_assoc mailbox.jobs]
      exact congrArg (fun jobs => gone.map Prod.fst ++ (jobs ++ _)) settles.conserved.symm
    · rw [having_settle, unqueued, if_neg settles.notQueued]
      rfl
    · have popped := accounts.popped
      rw [before] at popped
      rw [having_settle, List.flatMap_append, ← popped, List.flatMap_singleton, settles.popped]
      simp
    · have dropped := accounts.dropped
      rw [before] at dropped
      rw [having_settle, List.flatMap_append, ← dropped, List.flatMap_singleton, settles.dropped]
      simp
    · have discarded := accounts.discarded
      rw [before] at discarded
      rw [having_settle, List.flatMap_append, ← discarded, List.flatMap_singleton,
        settles.discarded]
      simp
    · have refused := accounts.refused
      rw [before] at refused
      rw [having_settle, List.flatMap_append, ← refused, List.flatMap_singleton,
        if_neg settles.notRefused]
      simp

theorem settled_run (owner : Bool) (cap : Nat) (calls : List (Call Job)) :
    Settled ((new owner cap).history calls) ((new owner cap).run calls) := by
  induction calls using List.reverseRecOn with
  | nil => exact ⟨[], rfl, ⟨rfl, rfl, rfl, rfl, rfl, rfl⟩⟩
  | append_singleton calls call ih =>
      rw [run_concat, history_concat]
      exact ih.step (valid_run owner cap calls) call

/-- What is popped has been accepted, in the order of the acceptances. -/
theorem left_append_jobs (owner : Bool) (cap : Nat) (calls : List (Call Job)) :
    ((new owner cap).history calls).flatMap Event.left ++ ((new owner cap).run calls).jobs =
      ((new owner cap).history calls).flatMap Event.accepted := by
  induction calls using List.reverseRecOn with
  | nil => rfl
  | append_singleton calls call ih =>
      obtain ⟨_, settles⟩ := (valid_run owner cap calls).settles call
      rw [run_concat, history_concat, List.flatMap_append, List.flatMap_append, ← ih,
        List.flatMap_singleton, List.flatMap_singleton, List.append_assoc, List.append_assoc]
      exact congrArg _ settles.conserved.symm

theorem Event.popped_sublist (event : Event Job) (valid : event.before.Valid) :
    event.popped.Sublist event.left := by
  obtain ⟨fate, settles⟩ := valid.settles event.call
  rw [settles.popped]
  split
  · exact List.Sublist.refl _
  · exact List.nil_sublist _

theorem popped_sublist (owner : Bool) (cap : Nat) (calls : List (Call Job)) :
    (((new owner cap).history calls).flatMap Event.popped).Sublist
      (((new owner cap).history calls).flatMap Event.left) := by
  induction calls using List.reverseRecOn with
  | nil => exact List.Sublist.refl _
  | append_singleton calls call ih =>
      rw [history_concat, List.flatMap_append, List.flatMap_append, List.flatMap_singleton,
        List.flatMap_singleton]
      exact ih.append (Event.popped_sublist _ (valid_run owner cap calls))

/-- The counter has what `TakeDropped` has not reported. -/
theorem counted_run (owner : Bool) (cap : Nat) (calls : List (Call Job)) :
    (((new owner cap).history calls).flatMap Event.dropped).length =
      (((new owner cap).history calls).map Event.reported).sum +
        ((new owner cap).run calls).dropped := by
  induction calls using List.reverseRecOn with
  | nil => rfl
  | append_singleton calls call ih =>
      obtain ⟨_, settles⟩ := (valid_run owner cap calls).settles call
      have counted := settles.counted
      rw [history_concat, run_concat, List.flatMap_append, List.length_append, List.map_append,
        List.sum_append, ih, List.flatMap_singleton, List.map_singleton, List.sum_singleton]
      rw [Nat.add_assoc, counted, ← Nat.add_assoc]
      rfl

theorem full_of_mem_history {owner : Bool} {cap : Nat} {calls : List (Call Job)}
    {event : Event Job} (mem : event ∈ (new owner cap).history calls)
    (drops : event.dropped ≠ []) :
    event.before.jobs.length = (new owner cap : Mailbox Job).capacity := by
  induction calls using List.reverseRecOn with
  | nil => cases mem
  | append_singleton calls call ih =>
      rw [history_concat] at mem
      rcases List.mem_append.mp mem with old | last
      · exact ih old
      · obtain ⟨_, settles⟩ := (valid_run owner cap calls).settles call
        rw [List.mem_singleton.mp last] at drops ⊢
        exact (settles.full drops).trans (capacity_run _ calls)

theorem post_eq_isAttached (mailbox : Mailbox Job) (job : Job) :
    (mailbox.post job).1 = mailbox.isAttached := by
  rw [post, isAttached]
  split
  · rename_i attached
    split <;> exact attached.symm
  · rename_i detached
    exact (Bool.eq_false_iff.mpr detached).symm

/-- Each posted job has one fate.  What is popped has been accepted and keeps its order; what is
dropped goes from a full queue and is reported once or still counted; a job is refused when the
owner is gone; after `Detach` nothing is accepted or popped. -/
theorem accounts_for_all (owner : Bool) (cap : Nat) (calls : List (Call Job)) :
    (∃ ledger, Accounts ((new owner cap).history calls) ((new owner cap).run calls) ledger) ∧
      (((new owner cap).history calls).flatMap Event.popped).Sublist
        (((new owner cap).history calls).flatMap Event.accepted) ∧
      (((new owner cap).history calls).flatMap Event.dropped).length =
        (((new owner cap).history calls).map Event.reported).sum +
          ((new owner cap).run calls).dropped ∧
      (∀ event ∈ (new owner cap).history calls, event.dropped ≠ [] →
        event.before.jobs.length = (new owner cap : Mailbox Job).capacity) ∧
      ((new owner cap).run calls).jobs.length ≤ (new owner cap : Mailbox Job).capacity ∧
      (∀ job, (((new owner cap).run calls).post job).1 = true ↔
        owner = true ∧ Call.detach ∉ calls) ∧
      (Call.detach ∈ calls → ((new owner cap).run calls).pop.1 = none) := by
  have valid := valid_run owner cap calls
  refine ⟨?_, ?_, counted_run owner cap calls, fun _ => full_of_mem_history, ?_, ?_, ?_⟩
  · obtain ⟨_, _, accounts⟩ := settled_run owner cap calls
    exact ⟨_, accounts⟩
  · rw [← left_append_jobs]
    exact (popped_sublist owner cap calls).trans (List.sublist_append_left _ _)
  · have bounded := valid.bounded
    rwa [capacity_run] at bounded
  · intro job
    rw [post_eq_isAttached]
    exact isAttached_run owner cap calls
  · intro detaches
    have detached : ((new owner cap).run calls).owner = false := by
      rw [Bool.eq_false_iff]
      exact fun attached => ((isAttached_run owner cap calls).mp attached).2 detaches
    rw [pop, valid.closed detached]

end Runs

end Mailbox

end Anope.Bridge
