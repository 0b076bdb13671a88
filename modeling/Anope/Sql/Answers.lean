import Anope.Sql.Dispatcher

/-!
# Every request is answered once

The invariant of the queues: a request that waits has been executed only if it is the first one
and the thread has not taken it off yet.
-/

namespace Anope.Sql.Dispatcher

variable {σ ι μ ρ : Type}

/-! ## Removals -/

theorem removeLoop_requests_of_le (goes : QueryRequest σ ι → Bool) (i : Nat) :
    ∀ (requests : List (QueryRequest σ ι)) (valid : Bool), i ≤ requests.length →
      (removeLoop goes i requests valid).1 =
        (requests.take i).filter (fun r => !goes r) ++ requests.drop i := by
  induction i with
  | zero => exact fun _ _ _ => rfl
  | succ i ih =>
      intro requests valid inside
      have at_i : requests[i]? = some requests[i] := List.getElem?_eq_getElem inside
      rw [removeLoop, at_i]
      dsimp only
      by_cases isGoing : goes requests[i] = true
      · have short : i ≤ (requests.eraseIdx i).length := by
          rw [List.length_eraseIdx_of_lt inside]
          exact Nat.le_sub_one_of_lt inside
        have length : (requests.take i).length = i :=
          List.length_take_of_le (Nat.le_of_succ_le inside)
        rw [if_pos isGoing, ih _ _ short, List.eraseIdx_eq_take_drop_succ,
          List.take_left' length, List.drop_left' length,
          List.take_succ_eq_append_getElem inside, List.filter_append]
        simp [isGoing]
      · rw [if_neg isGoing, ih _ _ (Nat.le_of_succ_le inside),
          List.take_succ_eq_append_getElem inside, List.filter_append,
          List.drop_eq_getElem_cons inside]
        simp [isGoing]

/-- What is left is what does not go. -/
theorem removeLoop_requests (goes : QueryRequest σ ι → Bool)
    (requests : List (QueryRequest σ ι)) (valid : Bool) :
    (removeLoop goes requests.length requests valid).1 =
      requests.filter fun r => !goes r := by
  rw [removeLoop_requests_of_le goes _ requests valid (Nat.le_refl _), List.take_length,
    List.drop_length, List.append_nil]

theorem head?_eraseIdx {α : Type} (list : List α) {index : Nat} (keeps : index ≠ 0) :
    (list.eraseIdx index).head? = list.head? := by
  cases list with
  | nil => rfl
  | cons first rest =>
      cases index with
      | zero => exact absurd rfl keeps
      | succ index => rfl

/-- As long as the reference is valid the first request stays. -/
theorem head?_removeLoop (goes : QueryRequest σ ι → Bool) (i : Nat) :
    ∀ (requests : List (QueryRequest σ ι)) (valid : Bool),
      (removeLoop goes i requests valid).2 = true →
        valid = true ∧ (removeLoop goes i requests valid).1.head? = requests.head? := by
  induction i with
  | zero => exact fun _ _ isValid => ⟨isValid, rfl⟩
  | succ i ih =>
      intro requests valid isValid
      rw [removeLoop] at isValid ⊢
      cases at_i : requests[i]? with
      | none =>
          rw [at_i] at isValid
          exact ih requests valid isValid
      | some r =>
          rw [at_i] at isValid
          dsimp only at isValid ⊢
          by_cases isGoing : goes r = true
          · rw [if_pos isGoing] at isValid ⊢
            obtain ⟨both, head⟩ := ih _ _ isValid
            obtain ⟨isValid', keeps⟩ := Bool.and_eq_true_iff.mp both
            refine ⟨isValid', head.trans (head?_eraseIdx requests ?_)⟩
            exact (of_decide_eq_true keeps).1
          · rw [if_neg isGoing] at isValid ⊢
            exact ih requests valid isValid

/-! ## The invariant -/

/-- The number of the request that the thread has executed and not compared yet. -/
def Phase.current : Phase ρ → Option Nat
  | done _ id _ => some id
  | _ => none

/-- The reference of the thread is to the first request as long as it is valid. -/
def Phase.Points (requests : List (QueryRequest σ ι)) (executed : List (Nat × ρ)) :
    Phase ρ → Prop
  | idle => True
  | taken valid => valid = true → requests ≠ []
  | done valid id sresult => (id, sresult) ∈ executed ∧
      (valid = true → (requests.head?).map QueryRequest.id = some id)

/-- What holds of the queue and the thread beside the property. -/
structure Sound (state : State σ ι μ ρ) : Prop where
  ids : state.submitted.map QueryRequest.id = List.range state.submitted.length
  bounded : ∀ id ∈ state.executed.map Prod.fst, id < state.submitted.length
  waiting : ∀ r ∈ state.requests, r.id ∈ state.executed.map Prod.fst →
    state.phase.current = some r.id ∧ state.requests.head? = some r
  points : state.phase.Points state.requests state.executed

/-- The invariant. -/
structure Invariant (owner : ι → μ) (state : State σ ι μ ρ) : Prop where
  sound : Sound state
  answers : Answers owner state

section Steps

variable {owner : ι → μ} {state next : State σ ι μ ρ}

theorem invariant_initial (owner : ι → μ) :
    Invariant owner (State.initial : State σ ι μ ρ) := by
  constructor
  · constructor
    · rfl
    · intro id mem
      cases mem
    · intro r mem
      cases mem
    · exact trivial
  · constructor
    · exact List.Perm.refl _
    · exact List.nodup_nil
    · exact List.nodup_nil
    · intro r mem
      cases mem
    · intro r mem
      cases mem
    · intro answer mem
      cases mem
    · exact List.nodup_nil
    · intro removal mem
      cases mem

/-- The requests that wait have numbers of their own, and those that were popped have others. -/
theorem Answers.nodup_ids (answers : Answers owner state) :
    ((state.requests ++ state.popped ++ state.removed.map Prod.fst).map QueryRequest.id).Nodup :=
  (answers.accounts.map _).nodup_iff.mp answers.distinct

theorem Answers.id_lt (answers : Answers owner state) (sound : Sound state)
    {r : QueryRequest σ ι} (mem : r ∈ state.requests) : r.id < state.submitted.length := by
  have listed : r ∈ state.submitted := by
    rw [answers.accounts.mem_iff]
    exact List.mem_append_left _ (List.mem_append_left _ mem)
  have inRange := List.mem_map_of_mem (f := QueryRequest.id) listed
  rw [sound.ids] at inRange
  exact List.mem_range.mp inRange

/-- `MySQLService::Run`. -/
theorem Invariant.run (invariant : Invariant owner state) {r : QueryRequest σ ι}
    (numbered : r.id = state.submitted.length) :
    Invariant owner { state with
      requests := state.requests ++ [r]
      submitted := state.submitted ++ [r] } := by
  obtain ⟨sound, answers⟩ := invariant
  have ids : (state.submitted ++ [r]).map QueryRequest.id =
      List.range (state.submitted.length + 1) := by
    rw [List.map_append, sound.ids, List.range_succ, ← numbered]
    rfl
  constructor
  · constructor
    · simpa only [List.length_append, List.length_singleton] using ids
    · intro id mem
      have bound := sound.bounded id mem
      simp only [List.length_append, List.length_singleton]
      omega
    · intro other mem ran
      rcases List.mem_append.mp mem with old | last
      · obtain ⟨current, head⟩ := sound.waiting other old ran
        refine ⟨current, ?_⟩
        rw [List.head?_append, head]
        rfl
      · rw [List.mem_singleton.mp last, numbered] at ran
        exact absurd (sound.bounded _ ran) (Nat.lt_irrefl _)
    · have points := sound.points
      cases phase : state.phase with
      | idle => exact trivial
      | taken valid => exact fun _ empty => by simp at empty
      | done valid id sresult =>
          rw [phase] at points
          refine ⟨points.1, fun isValid => ?_⟩
          have head := points.2 isValid
          cases requests : state.requests with
          | nil =>
              rw [requests] at head
              cases head
          | cons front rest =>
              rw [requests] at head
              exact head
  · constructor
    · refine (answers.accounts.append_right _).trans ?_
      simp only [List.append_assoc]
      refine List.Perm.append_left _ ?_
      rw [← List.append_assoc]
      exact List.perm_append_comm
    · rw [ids]
      exact List.nodup_range
    · exact answers.once
    · exact answers.executed
    · exact answers.answered
    · exact answers.own
    · exact answers.single
    · exact answers.causes

/-- `OnNotify`. -/
theorem Invariant.onNotify (invariant : Invariant owner state) :
    Invariant owner state.onNotify := by
  obtain ⟨sound, answers⟩ := invariant
  have moved : (([] : List (QueryResult ι ρ)) ++ (state.received ++ state.finished)).Perm
      (state.finished ++ state.received) := by
    rw [List.nil_append]
    exact List.perm_append_comm
  constructor
  · exact ⟨sound.ids, sound.bounded, sound.waiting, sound.points⟩
  · constructor
    · exact answers.accounts
    · exact answers.distinct
    · exact answers.once
    · exact answers.executed
    · intro r mem sqlinterface isInterface
      obtain ⟨sresult, ran, answer⟩ := answers.answered r mem sqlinterface isInterface
      exact ⟨sresult, ran, moved.mem_iff.mpr answer⟩
    · exact fun answer mem => answers.own answer (moved.mem_iff.mp mem)
    · exact (moved.map _).nodup_iff.mpr answers.single
    · exact answers.causes

@[simp] theorem current_invalidate (phase : Phase ρ) (valid : Bool) :
    (phase.invalidate valid).current = phase.current := by
  cases phase with
  | idle => rfl
  | taken before => rfl
  | done before id sresult => rfl

/-- A removal keeps the reference, or invalidates it. -/
theorem Phase.Points.invalidate {requests requests' : List (QueryRequest σ ι)}
    {executed : List (Nat × ρ)} {phase : Phase ρ} (points : phase.Points requests executed)
    {valid : Bool} (head : valid = true → requests'.head? = requests.head?) :
    (phase.invalidate valid).Points requests' executed := by
  cases phase with
  | idle => exact trivial
  | taken before =>
      intro both
      obtain ⟨isValid, kept⟩ := Bool.and_eq_true_iff.mp both
      rintro rfl
      exact points isValid (List.head?_eq_none_iff.mp (head kept).symm)
  | done before id sresult =>
      refine ⟨points.1, fun both => ?_⟩
      obtain ⟨isValid, kept⟩ := Bool.and_eq_true_iff.mp both
      rw [head kept]
      exact points.2 isValid

/-- `OnModuleUnload` and `~MySQLService`. -/
theorem Invariant.removeAll (invariant : Invariant owner state) {goes : QueryRequest σ ι → Bool}
    {cause : Cause σ μ} (reason : ∀ r, goes r = true → cause.Of owner r) :
    Invariant owner (state.removeAll goes cause) := by
  obtain ⟨sound, answers⟩ := invariant
  have left := removeLoop_requests goes state.requests true
  have head := fun isValid =>
    (head?_removeLoop goes state.requests.length state.requests true isValid).2
  constructor
  · constructor
    · exact sound.ids
    · exact sound.bounded
    · intro r mem ran
      simp only [State.removeAll, left, current_invalidate] at mem ran ⊢
      obtain ⟨mem, stays⟩ := List.mem_filter.mp mem
      obtain ⟨current, isHead⟩ := sound.waiting r mem ran
      obtain ⟨rest, requests⟩ := List.head?_eq_some_iff.mp isHead
      refine ⟨current, ?_⟩
      rw [requests, List.filter_cons, if_pos stays]
      rfl
    · exact sound.points.invalidate head
  · constructor
    · simp only [State.removeAll, left]
      refine answers.accounts.trans ?_
      have split := (List.filter_append_perm goes state.requests).symm
      refine ((split.append_right _).append_right _).trans ?_
      simp only [List.map_append, List.map_map, Function.comp_def, List.map_id']
      rw [List.append_assoc, List.append_assoc, ← List.append_assoc _ _ (state.requests.filter goes),
        ← List.append_assoc _ state.popped]
      exact List.perm_append_comm
    · exact answers.distinct
    · exact answers.once
    · exact answers.executed
    · exact answers.answered
    · exact answers.own
    · exact answers.single
    · intro removal mem
      rcases List.mem_append.mp mem with old | new
      · exact answers.causes removal old
      · obtain ⟨r, goes, rfl⟩ := List.mem_map.mp new
        exact reason r (List.mem_filter.mp goes).2

/-- The thread takes the next request when none that waits has been executed. -/
theorem Invariant.loop (ids : state.submitted.map QueryRequest.id =
      List.range state.submitted.length)
    (bounded : ∀ id ∈ state.executed.map Prod.fst, id < state.submitted.length)
    (quiet : ∀ r ∈ state.requests, r.id ∉ state.executed.map Prod.fst)
    (answers : Answers owner state) : Invariant owner state.loop := by
  constructor
  · constructor
    · exact ids
    · exact bounded
    · exact fun r mem ran => absurd ran (quiet r mem)
    · rw [State.loop]
      cases requests : state.requests with
      | nil => exact trivial
      | cons front rest => exact fun _ empty => by cases empty
  · exact ⟨answers.accounts, answers.distinct, answers.once, answers.executed, answers.answered,
      answers.own, answers.single, answers.causes⟩

/-- `RunQuery` through a valid reference. -/
theorem Invariant.runQuery (invariant : Invariant owner state) {front : QueryRequest σ ι}
    {rest : List (QueryRequest σ ι)} (requests : state.requests = front :: rest)
    (taken : state.phase.current = none) (sresult : ρ) :
    Invariant owner { state with
      phase := .done true front.id sresult
      executed := state.executed ++ [(front.id, sresult)] } := by
  obtain ⟨sound, answers⟩ := invariant
  have quiet : ∀ r ∈ state.requests, r.id ∉ state.executed.map Prod.fst := by
    intro r mem ran
    have current := (sound.waiting r mem ran).1
    rw [taken] at current
    cases current
  have mem_front : front ∈ state.requests := requests ▸ List.mem_cons_self
  constructor
  · constructor
    · exact sound.ids
    · intro id mem
      rw [List.map_append, List.mem_append] at mem
      rcases mem with old | last
      · exact sound.bounded id old
      · rw [List.mem_singleton.mp last]
        exact answers.id_lt sound mem_front
    · intro r mem ran
      rw [List.map_append, List.mem_append] at ran
      rcases ran with old | last
      · exact absurd old (quiet r mem)
      · have same : r.id = front.id := List.mem_singleton.mp last
        have nodup := answers.nodup_ids
        rw [List.map_append, List.map_append, List.append_assoc] at nodup
        have isFront := List.inj_on_of_nodup_map nodup.of_append_left mem mem_front same
        rw [isFront, requests]
        exact ⟨rfl, rfl⟩
    · refine ⟨List.mem_append_right _ (List.mem_singleton.mpr rfl), fun _ => ?_⟩
      rw [requests]
      rfl
  · have weaken : ∀ {id : Nat} {sresult' : ρ}, (id, sresult') ∈ state.executed →
        (id, sresult') ∈ state.executed ++ [(front.id, sresult)] :=
      fun ran => List.mem_append_left _ ran
    constructor
    · exact answers.accounts
    · exact answers.distinct
    · rw [List.map_append]
      refine List.nodup_append.mpr ⟨answers.once, List.nodup_singleton _, ?_⟩
      rintro id ran id' last rfl
      rw [List.mem_singleton.mp last] at ran
      exact quiet front mem_front ran
    · intro r mem
      obtain ⟨sresult, ran⟩ := answers.executed r mem
      exact ⟨sresult, weaken ran⟩
    · intro r mem sqlinterface isInterface
      obtain ⟨sresult, ran, answer⟩ := answers.answered r mem sqlinterface isInterface
      exact ⟨sresult, weaken ran, answer⟩
    · intro answer mem
      obtain ⟨r, popped, same, isInterface, ran⟩ := answers.own answer mem
      exact ⟨r, popped, same, isInterface, weaken ran⟩
    · exact answers.single
    · exact answers.causes

section Pop

variable {front r : QueryRequest σ ι} {rest : List (QueryRequest σ ι)}

theorem pop_of_same (requests : state.requests = front :: rest)
    (same : front.query.query = r.query.query) (sresult : ρ) :
    state.pop r sresult = { state with
      requests := rest
      finished := state.finished ++
        r.sqlinterface.toList.map fun sqlinterface => ⟨front.id, sqlinterface, sresult⟩
      popped := state.popped ++ [front] } := by
  rw [State.pop, requests]
  exact if_pos same

theorem pop_of_differs (requests : state.requests = front :: rest)
    (differs : front.query.query ≠ r.query.query) (sresult : ρ) : state.pop r sresult = state := by
  rw [State.pop, requests]
  exact if_neg differs

end Pop

/-- The thread takes the request that it has executed off the queue, with its result. -/
theorem Answers.pop (answers : Answers owner state) {front r : QueryRequest σ ι}
    {rest : List (QueryRequest σ ι)} (requests : state.requests = front :: rest)
    (sameText : front.query.query = r.query.query)
    (sameInterface : front.sqlinterface = r.sqlinterface) {sresult : ρ}
    (ran : (front.id, sresult) ∈ state.executed) : Answers owner (state.pop r sresult) := by
  have nodup := answers.nodup_ids
  rw [requests, List.cons_append, List.cons_append, List.map_cons, List.nodup_cons,
    List.map_append, List.map_append, List.mem_append, List.mem_append] at nodup
  have unpopped : front.id ∉ state.popped.map QueryRequest.id :=
    fun mem => nodup.1 (.inl (.inr mem))
  rw [pop_of_same requests sameText]
  constructor
  · have moved : rest ++ (state.popped ++ [front]) ++ state.removed.map Prod.fst =
        (rest ++ state.popped) ++ front :: state.removed.map Prod.fst := by
      simp only [List.append_assoc, List.singleton_append]
    rw [moved]
    refine answers.accounts.trans ?_
    rw [requests]
    exact List.perm_middle.symm
  · exact answers.distinct
  · exact answers.once
  · intro other mem
    rcases List.mem_append.mp mem with old | last
    · exact answers.executed other old
    · rw [List.mem_singleton.mp last]
      exact ⟨sresult, ran⟩
  · intro other mem sqlinterface isInterface
    rcases List.mem_append.mp mem with old | last
    · obtain ⟨sresult, ran, answer⟩ := answers.answered other old sqlinterface isInterface
      refine ⟨sresult, ran, ?_⟩
      rcases List.mem_append.mp answer with finished | received
      · exact List.mem_append_left _ (List.mem_append_left _ finished)
      · exact List.mem_append_right _ received
    · rw [List.mem_singleton.mp last] at isInterface ⊢
      refine ⟨sresult, ran, List.mem_append_left _ (List.mem_append_right _ ?_)⟩
      rw [← sameInterface, isInterface]
      exact List.mem_singleton.mpr rfl
  · intro answer mem
    have old : answer ∈ state.finished ++ state.received →
        ∃ r ∈ state.popped ++ [front], answer.id = r.id ∧
          r.sqlinterface = some answer.sqlinterface ∧ (r.id, answer.result) ∈ state.executed := by
      intro mem
      obtain ⟨other, popped, rest⟩ := answers.own answer mem
      exact ⟨other, List.mem_append_left _ popped, rest⟩
    rcases List.mem_append.mp mem with finished | received
    · rcases List.mem_append.mp finished with finished | last
      · exact old (List.mem_append_left _ finished)
      · obtain ⟨sqlinterface, isInterface, rfl⟩ := List.mem_map.mp last
        refine ⟨front, List.mem_append_right _ (List.mem_singleton.mpr rfl), rfl, ?_, ran⟩
        rw [sameInterface]
        exact Option.mem_toList.mp isInterface
    · exact old (List.mem_append_right _ received)
  · cases interface : r.sqlinterface with
    | none =>
        rw [Option.toList_none, List.map_nil, List.append_nil]
        exact answers.single
    | some sqlinterface =>
        rw [Option.toList_some, List.map_singleton, List.append_assoc]
        refine (List.perm_middle.map _).nodup_iff.mpr (List.nodup_cons.mpr ⟨?_, answers.single⟩)
        intro answered
        obtain ⟨answer, mem, same⟩ := List.mem_map.mp answered
        obtain ⟨other, popped, isOther, _⟩ := answers.own answer mem
        have isFront : other.id = front.id := isOther.symm.trans same
        exact unpopped (isFront ▸ List.mem_map_of_mem popped)
  · exact answers.causes

/-- What follows `RunQuery`, and the head of the loop. -/
theorem Invariant.finish (invariant : Invariant owner state) {valid : Bool} {id : Nat}
    {sresult : ρ} (phase : state.phase = .done valid id sresult) {stale : QueryRequest σ ι}
    (fits : Fits (μ := μ) state (.finish stale)) :
    Invariant owner (state.pop (state.read valid stale) sresult).loop := by
  obtain ⟨sound, answers⟩ := invariant
  have points := sound.points
  rw [phase] at points
  obtain ⟨ran, first⟩ := points
  cases requests : state.requests with
  | nil =>
      have unchanged : state.pop (state.read valid stale) sresult = state := by
        rw [State.pop, requests]
      rw [unchanged]
      refine Invariant.loop sound.ids sound.bounded ?_ answers
      rw [requests]
      exact fun _ mem => absurd mem List.not_mem_nil
  | cons front rest =>
      have head : state.requests.head? = some front := by rw [requests]; rfl
      -- The texts are equal exactly when the thread has executed the first request.
      have compares : (front.id = id → front.query.query = (state.read valid stale).query.query ∧
            front.sqlinterface = (state.read valid stale).sqlinterface) ∧
          (front.id ≠ id → front.query.query ≠ (state.read valid stale).query.query) := by
        cases valid with
        | true =>
            rw [State.read, if_pos rfl, requests]
            refine ⟨fun _ => ⟨rfl, rfl⟩, fun differs => ?_⟩
            have isFirst := first rfl
            rw [head] at isFirst
            exact absurd (Option.some.inj isFirst) differs
        | false =>
            have fit := fits id sresult phase front head
            rw [State.read, if_neg Bool.false_ne_true]
            constructor
            · intro same
              rwa [if_pos same] at fit
            · intro differs
              rwa [if_neg differs] at fit
      have onlyFront : ∀ r ∈ state.requests, r.id ∈ state.executed.map Prod.fst →
          r.id = id ∧ r = front := by
        intro r mem executed
        obtain ⟨current, isHead⟩ := sound.waiting r mem executed
        rw [phase] at current
        rw [head] at isHead
        exact ⟨(Option.some.inj current).symm, (Option.some.inj isHead).symm⟩
      by_cases same : front.id = id
      · obtain ⟨sameText, sameInterface⟩ := compares.1 same
        have popped := answers.pop requests sameText sameInterface (same ▸ ran)
        rw [pop_of_same requests sameText] at popped ⊢
        refine Invariant.loop sound.ids sound.bounded ?_ popped
        intro r mem executed
        have isFront := (onlyFront r (requests ▸ List.mem_cons_of_mem front mem) executed).2
        have nodup := answers.nodup_ids
        rw [requests, List.cons_append, List.cons_append, List.map_cons, List.nodup_cons] at nodup
        rw [isFront] at mem
        exact nodup.1 (List.mem_map_of_mem (List.mem_append_left _ (List.mem_append_left _ mem)))
      · rw [pop_of_differs requests (compares.2 same)]
        refine Invariant.loop sound.ids sound.bounded ?_ answers
        intro r mem executed
        obtain ⟨isId, isFront⟩ := onlyFront r mem executed
        exact same (isFront ▸ isId)

/-- Step lemma. -/
theorem Invariant.step [DecidableEq σ] [DecidableEq μ] (invariant : Invariant owner state)
    {action : Action σ ι μ ρ} (fits : Fits state action)
    (stepped : step owner state action = some next) : Invariant owner next := by
  cases action with
  | run service sqlinterface query =>
      cases stepped
      exact invariant.run rfl
  | wake =>
      rw [Dispatcher.step] at stepped
      cases phase : state.phase with
      | idle =>
          rw [phase] at stepped
          cases stepped
          refine Invariant.loop invariant.sound.ids invariant.sound.bounded ?_ invariant.answers
          intro r mem ran
          have current := (invariant.sound.waiting r mem ran).1
          rw [phase] at current
          cases current
      | taken valid =>
          rw [phase] at stepped
          cases stepped
      | done valid id sresult =>
          rw [phase] at stepped
          cases stepped
  | runQuery stale sresult =>
      have taken : state.phase = .taken true := fits
      have points := invariant.sound.points
      rw [taken] at points
      obtain ⟨front, rest, requests⟩ := List.exists_cons_of_ne_nil (points rfl)
      rw [Dispatcher.step, taken] at stepped
      cases stepped
      have isFront : state.read true stale = front := by
        rw [State.read, if_pos rfl, requests]
        rfl
      rw [isFront]
      exact invariant.runQuery requests (by rw [taken]; rfl) sresult
  | finish stale =>
      rw [Dispatcher.step] at stepped
      cases phase : state.phase with
      | idle =>
          rw [phase] at stepped
          cases stepped
      | taken valid =>
          rw [phase] at stepped
          cases stepped
      | done valid id sresult =>
          rw [phase] at stepped
          cases stepped
          exact invariant.finish phase fits
  | onModuleUnload m =>
      cases stepped
      refine (invariant.removeAll fun r goes => ?_).onNotify
      rwa [decide_eq_true_iff] at goes
  | deleteService service =>
      cases stepped
      refine invariant.removeAll fun r goes => ?_
      rwa [decide_eq_true_iff] at goes
  | onNotify =>
      cases stepped
      exact invariant.onNotify

end Steps

/-- Every request is answered once by its own result in every run in which what the thread reads
of the first request is there. -/
theorem always_answers [DecidableEq σ] [DecidableEq μ] (owner : ι → μ)
    (actions : List (Action σ ι μ ρ))
    (fit : Library.Run.EachStep (step owner) Fits State.initial actions) :
    Library.Run.Always (step owner) (Answers owner) State.initial actions :=
  (Library.Run.always_of_eachStep (fun invariant fits stepped => invariant.step fits stepped)
    (invariant_initial owner) fit).imp fun _ invariant => invariant.answers

/-- A query without parameters. -/
def commit : Query where
  query := ascii "COMMIT"
  parameters := []
  sorted := List.Pairwise.nil

/-- The interfaces of two modules ask, and the thread executes the query of the first one. -/
def askTwice : List (Action Unit Bool Bool Unit) :=
  [.run () (some false) commit, .run () (some true) commit, .wake,
    .runQuery ⟨0, (), some false, commit⟩ ()]

/-- The module of the second request is unloaded before its turn. -/
theorem always_answers_secondUnloaded :
    Library.Run.Always (step id) (Answers id) (State.initial : State Unit Bool Bool Unit)
      (askTwice ++ [.onModuleUnload true, .finish ⟨0, (), none, commit⟩, .onNotify]) := by
  apply always_answers id
  refine .cons trivial rfl (.cons trivial rfl (.cons trivial rfl (.cons rfl rfl ?_)))
  refine .cons trivial rfl (.cons ?_ rfl (.cons trivial rfl trivial))
  rintro _ _ ⟨⟩

/-- The module of the first request is unloaded before the thread compares, and the reference
still shows what the request was. -/
theorem not_always_answers_firstUnloaded :
    ¬ Library.Run.Always (step id) (Answers id) (State.initial : State Unit Bool Bool Unit)
      (askTwice ++ [.onModuleUnload false, .finish ⟨0, (), some false, commit⟩]) := by
  intro always
  have afterAsking := (((always.2 _ rfl).2 _ rfl).2 _ rfl).2 _ rfl
  have answers := ((afterAsking.2 _ rfl).2 _ rfl).head
  obtain ⟨sresult, ran⟩ := answers.executed ⟨1, (), some true, commit⟩ List.mem_cons_self
  rcases List.mem_singleton.mp ran with ⟨⟩

end Anope.Sql.Dispatcher
