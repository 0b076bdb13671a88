import Anope.Library.Multimap
import Anope.Library.While
import Mathlib.Algebra.Order.Ring.Int
import Mathlib.Data.List.Pairwise

/-!
# Timers

`TimerManager` keeps the pending timers in a multimap by the time at which they trigger.
`TickTimers` runs the first timer as long as its time has come; a timer that is to go on is put
back its interval later.
-/

namespace Anope.Timers

open Library Library.While

/-- `Timer`; the id stands for its address. -/
structure Timer where
  id : Nat
  trigger : Int
  secs : Int
  deriving DecidableEq, Repr

/-- What a call of `Tick` does: whether the timer is to go on, the timers that it adds, told by
their time and interval, and what it makes of the rest of the program. -/
structure Ticked (ω : Type) where
  again : Bool
  added : List (Int × Int)
  world : ω

/-- The `Tick` functions of the timers, which add only timers due in the future. -/
structure Callbacks (ω : Type) (curTime : Int) where
  tick : Timer → ω → Ticked ω
  future : ∀ timer world new, new ∈ (tick timer world).added → curTime < new.1

/-- `TimerManager` and the rest of the program: the pending timers, the id of the next timer, and
the timers that `Tick` has been called for, as they were then. -/
structure Manager (ω : Type) where
  timers : Multimap Int Timer
  nextId : Nat
  ran : List Timer
  world : ω

section Code

variable {ω : Type}

namespace Manager

/-- `AddTimer`. -/
def addTimer (state : Manager ω) (t : Timer) : Manager ω :=
  { state with timers := state.timers.emplace t.trigger t }

/-- `DelTimer`. -/
def delTimer (state : Manager ω) (t : Timer) : Manager ω :=
  { state with timers := state.timers.eraseFirst t.trigger fun other => other.id = t.id }

/-- `Timer::SetTimer`. -/
def setTimer (state : Manager ω) (t : Timer) (time : Int) : Manager ω :=
  (state.delTimer t).addTimer { t with trigger := time }

/-- A new timer that is pending. -/
def addNew (state : Manager ω) (new : Int × Int) : Manager ω :=
  { state with nextId := state.nextId + 1 }.addTimer ⟨state.nextId, new.1, new.2⟩

/-- `Timer::Timer`. -/
def construct (curTime : Int) (state : Manager ω) (timeFromNow : Int) : Manager ω :=
  if timeFromNow ≠ 0 then state.addNew (curTime + |timeFromNow|, timeFromNow)
  else { state with nextId := state.nextId + 1 }

/-- The call of `Tick`. -/
def tick {curTime : Int} (callbacks : Callbacks ω curTime) (state : Manager ω) (t : Timer) :
    Manager ω :=
  let ticked := callbacks.tick t state.world
  ticked.added.foldl addNew { state with ran := state.ran ++ [t], world := ticked.world }

/-- The body of the loop of `TickTimers`, for a timer whose time has come. -/
def run {curTime : Int} (callbacks : Callbacks ω curTime) (state : Manager ω) (t : Timer) :
    Manager ω :=
  if (callbacks.tick t state.world).again then
    (state.tick callbacks t).setTimer t (curTime + t.secs)
  else (state.tick callbacks t).delTimer t

end Manager

/-- A pass of the loop of `TickTimers`. -/
def tickPass {curTime : Int} (callbacks : Callbacks ω curTime) (state : Manager ω) :
    Pass (Manager ω) (Manager ω) :=
  match state.timers.entries with
  | [] => .done state
  | (_, t) :: _ => if curTime < t.trigger then .done state else .goOn (state.run callbacks t)

/-- Timers that are pending at their time, each once. -/
structure Manager.Sound (state : Manager ω) : Prop where
  key : ∀ entry ∈ state.timers.entries, entry.1 = entry.2.trigger
  distinct : state.timers.entries.Pairwise fun left right => left.2.id ≠ right.2.id
  fresh : ∀ entry ∈ state.timers.entries, entry.2.id < state.nextId

/-- No timer. -/
def Manager.initial (world : ω) : Manager ω where
  timers := .empty
  nextId := 0
  ran := []
  world := world

/-- The timers that are due, in order. -/
def Manager.due (state : Manager ω) (curTime : Int) : List Timer :=
  (state.timers.upTo curTime).map Prod.snd

/-- `TickTimers` ends, has then run each timer that was due once for the time it was due at, and
leaves only timers whose time is in the future. -/
def TicksOnce {curTime : Int} (callbacks : Callbacks ω curTime) (state : Manager ω) : Prop :=
  ∃ final ran, Ends (tickPass callbacks) state final ∧ final.ran = state.ran ++ ran ∧
    ran.Perm (state.due curTime) ∧ ∀ entry ∈ final.timers.entries, curTime < entry.2.trigger

/-- Of these timers, run in this order, none goes on that has no positive interval. -/
def GoesForward {curTime : Int} (callbacks : Callbacks ω curTime) : List Timer → ω → Prop
  | [], _ => True
  | t :: due, world =>
      ((callbacks.tick t world).again = true → 0 < t.secs) ∧
        GoesForward callbacks due (callbacks.tick t world).world

end Code

/-! ## The operations -/

section Sound

variable {ω : Type} {state : Manager ω} {t : Timer} {curTime : Int}
  {callbacks : Callbacks ω curTime}

namespace Manager

theorem sound_initial (world : ω) : (initial world).Sound where
  key _ mem := by cases mem
  distinct := .nil
  fresh _ mem := by cases mem

theorem mem_addTimer_iff {entry : Int × Timer} :
    entry ∈ (state.addTimer t).timers.entries ↔
      entry = (t.trigger, t) ∨ entry ∈ state.timers.entries := by
  rw [addTimer, (Multimap.perm_emplace _ _ _).mem_iff, List.mem_cons]

theorem Sound.addTimer (sound : state.Sound) (isFresh : t.id < state.nextId)
    (absent : ∀ entry ∈ state.timers.entries, entry.2.id ≠ t.id) : (state.addTimer t).Sound where
  key entry mem := by
    rcases mem_addTimer_iff.mp mem with rfl | mem
    · rfl
    · exact sound.key entry mem
  distinct := by
    apply (Multimap.perm_emplace state.timers t.trigger t).symm.pairwise _ Ne.symm
    exact .cons (fun entry mem => (absent entry mem).symm) sound.distinct
  fresh entry mem := by
    rcases mem_addTimer_iff.mp mem with rfl | mem
    · exact isFresh
    · exact sound.fresh entry mem

theorem Sound.addNew (sound : state.Sound) (new : Int × Int) : (state.addNew new).Sound := by
  have later : { state with nextId := state.nextId + 1 }.Sound :=
    ⟨sound.key, sound.distinct, fun entry mem => Nat.lt_succ_of_lt (sound.fresh entry mem)⟩
  apply later.addTimer (Nat.lt_succ_self _)
  intro entry mem
  exact Nat.ne_of_lt (sound.fresh entry mem)

/-- A timer that is built is pending when its delay is not zero. -/
theorem Sound.construct (sound : state.Sound) (curTime timeFromNow : Int) :
    (state.construct curTime timeFromNow).Sound := by
  rw [Manager.construct]
  split
  · exact sound.addNew _
  · exact ⟨sound.key, sound.distinct, fun entry mem => Nat.lt_succ_of_lt (sound.fresh entry mem)⟩

theorem Sound.delTimer (sound : state.Sound) (t : Timer) : (state.delTimer t).Sound where
  key entry mem := sound.key entry (List.eraseP_subset mem)
  distinct := sound.distinct.sublist List.eraseP_sublist
  fresh entry mem := sound.fresh entry (List.eraseP_subset mem)

end Manager

end Sound

end Anope.Timers

/-!
## Timers that are due

A pass of `TickTimers` runs the first timer that is due.  If that one does not go on, or goes on
later, the others that were due are left.  If it goes on with no positive interval, it is due
again at once.
-/

namespace Anope.Timers

open Library Library.While

variable {ω : Type} {state : Manager ω} {t : Timer} {curTime : Int}
  {callbacks : Callbacks ω curTime}

namespace Manager

/-! ## What a callback adds -/

variable {added : List (Int × Int)} {entry : Int × Timer}

theorem Sound.foldl_addNew (sound : state.Sound) (added : List (Int × Int)) :
    (added.foldl Manager.addNew state).Sound := by
  induction added generalizing state with
  | nil => exact sound
  | cons new added ih => exact ih (sound.addNew new)

theorem ran_foldl_addNew (added : List (Int × Int)) (state : Manager ω) :
    (added.foldl addNew state).ran = state.ran := by
  induction added generalizing state with
  | nil => rfl
  | cons new added ih => exact ih (state.addNew new)

theorem world_foldl_addNew (added : List (Int × Int)) (state : Manager ω) :
    (added.foldl addNew state).world = state.world := by
  induction added generalizing state with
  | nil => rfl
  | cons new added ih => exact ih (state.addNew new)

theorem nextId_le_foldl_addNew (added : List (Int × Int)) (state : Manager ω) :
    state.nextId ≤ (added.foldl addNew state).nextId := by
  induction added generalizing state with
  | nil => exact Nat.le_refl _
  | cons new added ih => exact (Nat.le_succ _).trans (ih (state.addNew new))

theorem mem_foldl_addNew (mem : entry ∈ state.timers.entries) (added : List (Int × Int)) :
    entry ∈ (added.foldl addNew state).timers.entries := by
  induction added generalizing state with
  | nil => exact mem
  | cons new added ih => exact ih (mem_addTimer_iff.mpr (.inr mem))

/-- Timers due in the future are not due. -/
theorem upTo_foldl_addNew (future : ∀ new ∈ added, curTime < new.1) :
    (added.foldl addNew state).timers.upTo curTime = state.timers.upTo curTime := by
  induction added generalizing state with
  | nil => rfl
  | cons new added ih =>
      rw [List.forall_mem_cons] at future
      exact (ih future.2).trans (Multimap.upTo_emplace_of_lt future.1 _)

/-! ## Running a timer -/

theorem Sound.tick (sound : state.Sound) (t : Timer) : (state.tick callbacks t).Sound := by
  have called : (Manager.mk state.timers state.nextId (state.ran ++ [t])
      (callbacks.tick t state.world).world).Sound := ⟨sound.key, sound.distinct, sound.fresh⟩
  exact called.foldl_addNew _

theorem mem_tick (mem : entry ∈ state.timers.entries) (t : Timer) :
    entry ∈ (state.tick callbacks t).timers.entries := by
  have called : entry ∈ (Manager.mk state.timers state.nextId (state.ran ++ [t])
      (callbacks.tick t state.world).world).timers.entries := mem
  exact mem_foldl_addNew called _

theorem nextId_le_tick (t : Timer) : state.nextId ≤ (state.tick callbacks t).nextId :=
  nextId_le_foldl_addNew _ (Manager.mk state.timers state.nextId (state.ran ++ [t])
    (callbacks.tick t state.world).world)

theorem upTo_tick (t : Timer) :
    (state.tick callbacks t).timers.upTo curTime = state.timers.upTo curTime :=
  upTo_foldl_addNew fun new mem => callbacks.future t state.world new mem

theorem ran_run (t : Timer) : (state.run callbacks t).ran = state.ran ++ [t] := by
  have ticked : (state.tick callbacks t).ran = state.ran ++ [t] := ran_foldl_addNew _ _
  rw [run]
  split
  · exact ticked
  · exact ticked

theorem world_run (t : Timer) :
    (state.run callbacks t).world = (callbacks.tick t state.world).world := by
  have ticked : (state.tick callbacks t).world = (callbacks.tick t state.world).world :=
    world_foldl_addNew _ _
  rw [run]
  split
  · exact ticked
  · exact ticked

/-- An entry of a pending timer is known by the id. -/
theorem Sound.unique (sound : state.Sound) {left right : Int × Timer}
    (leftMem : left ∈ state.timers.entries) (rightMem : right ∈ state.timers.entries)
    (same : left.2.id = right.2.id) : left = right := by
  have symm : Std.Symm fun left right : Int × Timer => left.2.id ≠ right.2.id :=
    ⟨fun _ _ => Ne.symm⟩
  by_contra different
  exact sound.distinct.forall leftMem rightMem different same

/-- `DelTimer` takes a timer that is pending out, and no other one. -/
theorem Sound.mem_delTimer_iff (sound : state.Sound) (mem : (t.trigger, t) ∈ state.timers.entries) :
    entry ∈ (state.delTimer t).timers.entries ↔
      entry ∈ state.timers.entries ∧ entry.2.id ≠ t.id := by
  have once : state.timers.entries.Pairwise fun left right =>
      decide (left.2.id = t.id) = true → decide (right.2.id = t.id) = false := by
    apply sound.distinct.imp
    intro left right different isLeft
    apply decide_eq_false
    intro isRight
    exact different ((of_decide_eq_true isLeft).trans isRight.symm)
  rw [Manager.delTimer, Multimap.mem_eraseFirst_iff once, decide_eq_true_iff]
  constructor
  · rintro ⟨isEntry, other⟩
    refine ⟨isEntry, fun same => other ⟨?_, same⟩⟩
    rw [sound.unique isEntry mem same]
  · rintro ⟨isEntry, different⟩
    exact ⟨isEntry, fun both => different both.2⟩

section Run

variable (sound : state.Sound) (mem : (t.trigger, t) ∈ state.timers.entries)

include sound mem

theorem Sound.run : (state.run callbacks t).Sound := by
  have ticked : (state.tick callbacks t).Sound := sound.tick t
  have isPending : (t.trigger, t) ∈ (state.tick callbacks t).timers.entries :=
    mem_tick mem t
  rw [Manager.run]
  split
  · apply (ticked.delTimer t).addTimer
    · exact (sound.fresh _ mem).trans_le (nextId_le_tick t)
    · intro entry isEntry
      exact ((ticked.mem_delTimer_iff isPending).mp isEntry).2
  · exact ticked.delTimer t

/-- The other timers are left. -/
theorem mem_run_of_ne (isEntry : entry ∈ state.timers.entries) (different : entry.2.id ≠ t.id) :
    entry ∈ (state.run callbacks t).timers.entries := by
  have left : entry ∈ ((state.tick callbacks t).delTimer t).timers.entries :=
    ((sound.tick t).mem_delTimer_iff (mem_tick mem t)).mpr ⟨mem_tick isEntry t, different⟩
  rw [run]
  split
  · exact mem_addTimer_iff.mpr (.inr left)
  · exact left

end Run

/-- A timer that does not go on, or goes on later, is not due any more. -/
theorem upTo_run {rest : List (Int × Timer)}
    (isFirst : state.timers.upTo curTime = (t.trigger, t) :: rest)
    (forward : (callbacks.tick t state.world).again = true → 0 < t.secs) :
    (state.run callbacks t).timers.upTo curTime = rest := by
  have deleted : ((state.tick callbacks t).delTimer t).timers.upTo curTime = rest :=
    have isStart := (upTo_tick t).trans isFirst
    Multimap.upTo_eraseFirst isStart (decide_eq_true rfl)
  rw [run]
  split
  next again =>
    have later : curTime < curTime + t.secs := by
      have positive := forward again
      omega
    exact (Multimap.upTo_emplace_of_lt later _).trans deleted
  · exact deleted

/-- A timer that goes on with no positive interval is due again. -/
theorem mem_upTo_run (again : (callbacks.tick t state.world).again = true) (back : t.secs ≤ 0) :
    (curTime + t.secs, { t with trigger := curTime + t.secs }) ∈
      (state.run callbacks t).timers.upTo curTime := by
  rw [run, if_pos again]
  apply Multimap.mem_upTo_iff.mpr
  constructor
  · exact mem_addTimer_iff.mpr (.inl rfl)
  · change curTime + t.secs ≤ curTime
    omega

end Manager

/-! ## The loop -/

open Manager

theorem tickPass_of_upTo_eq_nil (sound : state.Sound) (none : state.timers.upTo curTime = []) :
    tickPass callbacks state = .done state := by
  rw [tickPass]
  split
  · rfl
  next key t rest entries =>
    have mem : (key, t) ∈ state.timers.entries := by
      rw [entries]
      exact List.mem_cons_self
    have later := Multimap.upTo_eq_nil_iff.mp none _ mem
    rw [if_pos]
    exact (sound.key _ mem) ▸ later

theorem tickPass_of_upTo_cons {rest : List (Int × Timer)}
    (isFirst : state.timers.upTo curTime = (t.trigger, t) :: rest) :
    tickPass callbacks state = .goOn (state.run callbacks t) := by
  obtain ⟨later, entries, _⟩ := Multimap.entries_of_upTo_cons isFirst
  have due : (t.trigger, t) ∈ state.timers.upTo curTime := by
    rw [isFirst]
    exact List.mem_cons_self
  rw [tickPass, entries]
  exact if_neg (not_lt.mpr (Multimap.mem_upTo_iff.mp due).2)

theorem ends_goOn_iff {body : Manager ω → Pass (Manager ω) (Manager ω)} {next final : Manager ω}
    (isNext : body state = .goOn next) : Ends body state final ↔ Ends body next final := by
  constructor
  · rintro ⟨passes, reached⟩
    cases passes with
    | zero => cases reached
    | succ passes =>
        rw [within_of_goOn isNext] at reached
        exact ⟨passes, reached⟩
  · exact ends_of_goOn isNext

/-- Whoever is due is run before the loop ends. -/
theorem mem_ran_of_ends (sound : state.Sound) {final : Manager ω}
    (ends : Ends (tickPass callbacks) state final) :
    ∃ ran, final.ran = state.ran ++ ran ∧
      ∀ entry ∈ state.timers.upTo curTime, ∃ timer ∈ ran, timer.id = entry.2.id := by
  obtain ⟨passes, reached⟩ := ends
  induction passes generalizing state with
  | zero => cases reached
  | succ passes ih =>
      cases due : state.timers.upTo curTime with
      | nil =>
          rw [within_of_done (tickPass_of_upTo_eq_nil sound due)] at reached
          cases reached
          exact ⟨[], (List.append_nil _).symm, by simp⟩
      | cons first rest =>
          obtain ⟨key, t⟩ := first
          have mem : (key, t) ∈ state.timers.upTo curTime := by
            rw [due]
            exact List.mem_cons_self
          have isPending := (Multimap.mem_upTo_iff.mp mem).1
          have atTime : key = t.trigger := sound.key _ isPending
          subst atTime
          rw [within_of_goOn (tickPass_of_upTo_cons due)] at reached
          obtain ⟨ran, isRan, each⟩ := ih (sound.run isPending) reached
          rw [ran_run] at isRan
          refine ⟨t :: ran, by rw [isRan, List.append_assoc, List.singleton_append], ?_⟩
          intro entry isDue
          rw [← due, Multimap.mem_upTo_iff] at isDue
          by_cases same : entry.2.id = t.id
          · exact ⟨t, List.mem_cons_self, same.symm⟩
          · obtain ⟨timer, isIn, isId⟩ := each entry
              (Multimap.mem_upTo_iff.mpr ⟨mem_run_of_ne sound isPending isDue.1 same, isDue.2⟩)
            exact ⟨timer, List.mem_cons_of_mem t isIn, isId⟩

/-- What the loop has run, after a first timer. -/
theorem ran_of_ends_run (sound : (state.run callbacks t).Sound) {final : Manager ω}
    {ran : List Timer} (ends : Ends (tickPass callbacks) (state.run callbacks t) final)
    (isRan : final.ran = state.ran ++ ran) :
    ∃ later, ran = t :: later ∧
      ∀ entry ∈ (state.run callbacks t).timers.upTo curTime,
        ∃ timer ∈ later, timer.id = entry.2.id := by
  obtain ⟨later, isLater, each⟩ := mem_ran_of_ends sound ends
  rw [isRan, ran_run, List.append_assoc, List.append_cancel_left_eq] at isLater
  exact ⟨later, isLater, each⟩

theorem ticksOnce_iff_of_due (sound : state.Sound) {due : List Timer}
    (isDue : state.due curTime = due) :
    TicksOnce callbacks state ↔ GoesForward callbacks due state.world := by
  induction due generalizing state with
  | nil =>
      have none : state.timers.upTo curTime = [] := List.map_eq_nil_iff.mp isDue
      apply iff_of_true
      · refine ⟨state, [], ends_of_done (tickPass_of_upTo_eq_nil sound none),
          (List.append_nil _).symm, by rw [isDue], ?_⟩
        intro entry mem
        exact (sound.key entry mem) ▸ Multimap.upTo_eq_nil_iff.mp none entry mem
      · trivial
  | cons t due ih =>
      obtain ⟨⟨key, first⟩, rest, isFirst, same, isRest⟩ := List.map_eq_cons_iff.mp isDue
      change first = t at same
      subst first
      have mem : (key, t) ∈ state.timers.upTo curTime := by
        rw [isFirst]
        exact List.mem_cons_self
      have isPending := (Multimap.mem_upTo_iff.mp mem).1
      have atTime : key = t.trigger := sound.key _ isPending
      subst atTime
      have later : (state.run callbacks t).Sound := sound.run isPending
      have goesOn : tickPass callbacks state = .goOn (state.run callbacks t) :=
        tickPass_of_upTo_cons isFirst
      rw [GoesForward]
      by_cases forward : (callbacks.tick t state.world).again = true → 0 < t.secs
      · have left : (state.run callbacks t).due curTime = due :=
          (congrArg _ (upTo_run isFirst forward)).trans isRest
        rw [and_iff_right forward, ← world_run, ← ih later left]
        constructor
        · rintro ⟨final, ran, ends, isRan, perm, future⟩
          rw [ends_goOn_iff goesOn] at ends
          obtain ⟨after, rfl, _⟩ := ran_of_ends_run later ends isRan
          refine ⟨final, after, ends, ?_, ?_, future⟩
          · rw [isRan, ran_run, List.append_assoc, List.singleton_append]
          · rw [left]
            rw [isDue] at perm
            exact (List.perm_cons t).mp perm
        · rintro ⟨final, ran, ends, isRan, perm, future⟩
          refine ⟨final, t :: ran, ends_of_goOn goesOn ends, ?_, ?_, future⟩
          · rw [isRan, ran_run, List.append_assoc, List.singleton_append]
          · rw [isDue, ← left]
            exact perm.cons t
      · -- the timer is due again, so it is run twice
        refine iff_of_false ?_ fun both => forward both.1
        rintro ⟨final, ran, ends, isRan, perm, _⟩
        obtain ⟨again, back⟩ := Classical.not_imp.mp forward
        rw [ends_goOn_iff goesOn] at ends
        obtain ⟨after, rfl, each⟩ := ran_of_ends_run later ends isRan
        rw [isDue, List.perm_cons] at perm
        obtain ⟨timer, isAfter, same⟩ := each _ (mem_upTo_run again (not_lt.mp back))
        have isOther := perm.mem_iff.mp isAfter
        rw [← isRest, List.mem_map] at isOther
        obtain ⟨entry, isEntry, rfl⟩ := isOther
        have distinct := sound.distinct.sublist
          (List.filter_sublist (p := fun entry => decide (entry.1 ≤ curTime)))
        rw [Multimap.upTo] at isFirst
        rw [isFirst, List.pairwise_cons] at distinct
        exact distinct.1 entry isEntry same.symm

/-- Timers are ticked once each exactly where none goes on that has no positive interval. -/
theorem ticksOnce_iff (callbacks : Callbacks ω curTime) (sound : state.Sound) :
    TicksOnce callbacks state ↔ GoesForward callbacks (state.due curTime) state.world :=
  ticksOnce_iff_of_due sound rfl

/-! ## Timers with a negative delay -/

/-- Callbacks that all give the same answer, and do nothing else. -/
def answering (again : Bool) (curTime : Int) : Callbacks Unit curTime where
  tick _ _ := ⟨again, [], ()⟩
  future _ _ _ mem := by cases mem

/-- A minute ago, a timer was built with a delay of minus a minute. -/
def minuteAgo : Manager Unit :=
  (initial ()).construct 0 (-60)

theorem sound_minuteAgo : minuteAgo.Sound :=
  (sound_initial ()).construct 0 (-60)

theorem ticksOnce_backward : TicksOnce (answering false 60) minuteAgo :=
  (ticksOnce_iff (answering false 60) sound_minuteAgo).mpr (by
    rw [show minuteAgo.due 60 = [⟨0, 60, -60⟩] by decide]
    exact ⟨fun again => absurd again Bool.false_ne_true, trivial⟩)

/-- If it is to go on, it is due for ever. -/
theorem not_ticksOnce_backward : ¬TicksOnce (answering true 60) minuteAgo := by
  have isDue : minuteAgo.due 60 = [⟨0, 60, -60⟩] := by decide
  rw [ticksOnce_iff_of_due sound_minuteAgo isDue]
  intro forward
  exact absurd (forward.1 rfl) (by decide)

end Anope.Timers
