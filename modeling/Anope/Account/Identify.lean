import Anope.Library.Run
import Mathlib.Data.Finset.Basic
import Mathlib.Data.List.Count

/-!
# Requests to identify

An `IdentifyRequest` is shown to the modules that check passwords.  A module that needs time holds
it, and the request is over when it was dispatched and no module holds it any more, or when its
owner is unloaded.  Whoever made it gets one answer.
-/

namespace Anope.Account.Identify

open Library.Run

universe u v w

variable {μ : Type u} {π : Type v} {α : Type w}

/-- A live `IdentifyRequest`, with the fields of the class that was derived. -/
structure Request (μ : Type u) (π : Type v) where
  owner : μ
  fields : π
  holds : Finset μ
  dispatched : Bool
  success : Bool

/-- A call of `OnSuccess` or `OnFail` of a request. -/
inductive Answer (π : Type v) (α : Type w) where
  | onSuccess (r : Nat) (fields : π) (na : α)
  | onFail (r : Nat) (fields : π)

/-- The static set `Requests`, with the requests by the order in which they were made. -/
structure Requests (μ : Type u) (π : Type v) where
  requests : Nat → Option (Request μ π)
  made : Nat

namespace Requests

/-- No requests yet. -/
def initial : Requests μ π := ⟨fun _ => none, 0⟩

/-- A request is written, or is no more. -/
def setRequest (reqs : Requests μ π) (r : Nat) (request : Option (Request μ π)) : Requests μ π :=
  { reqs with requests := Function.update reqs.requests r request }

/-- The constructor. -/
def create (reqs : Requests μ π) (owner : μ) (fields : π) : Requests μ π :=
  { requests := Function.update reqs.requests reqs.made (some ⟨owner, fields, ∅, false, false⟩)
    made := reqs.made + 1 }

/-- `OnFail` of a request that had no success, and its destructor. -/
def finish (reqs : Requests μ π) (r : Nat) (request : Request μ π) :
    Requests μ π × List (Answer π α) :=
  (reqs.setRequest r none, if request.success then [] else [.onFail r request.fields])

/-- `IdentifyRequest::Success`. -/
def success (reqs : Requests μ π) (r : Nat) (na : α) (request : Request μ π) :
    Requests μ π × List (Answer π α) :=
  if request.success then (reqs, [])
  else
    (reqs.setRequest r (some { request with success := true }), [.onSuccess r request.fields na])

variable [DecidableEq μ]

/-- `IdentifyRequest::Hold`. -/
def hold (reqs : Requests μ π) (r : Nat) (m : μ) (request : Request μ π) :
    Requests μ π × List (Answer π α) :=
  (reqs.setRequest r (some { request with holds := insert m request.holds }), [])

/-- `IdentifyRequest::Release`. -/
def release (reqs : Requests μ π) (r : Nat) (m : μ) (request : Request μ π) :
    Requests μ π × List (Answer π α) :=
  let request := { request with holds := request.holds.erase m }
  if request.holds = ∅ ∧ request.dispatched then reqs.finish r request
  else (reqs.setRequest r (some request), [])

/-- `IdentifyRequest::Dispatch`. -/
def dispatch (reqs : Requests μ π) (r : Nat) (request : Request μ π) :
    Requests μ π × List (Answer π α) :=
  if request.holds = ∅ then reqs.finish r request
  else (reqs.setRequest r (some { request with dispatched := true }), [])

/-- A pass of the loop in `IdentifyRequest::ModuleUnload`. -/
def unloadFrom (m : μ) (reqs : Requests μ π) (r : Nat) : Requests μ π × List (Answer π α) :=
  match reqs.requests r with
  | none => (reqs, [])
  | some request =>
      let request := { request with holds := request.holds.erase m }
      if request.holds = ∅ ∧ request.dispatched then reqs.finish r request
      else if request.owner = m then reqs.finish r request
      else (reqs.setRequest r (some request), [])

/-- The pass for one request, after some others. -/
def unloadNext (m : μ) (out : Requests μ π × List (Answer π α)) (r : Nat) :
    Requests μ π × List (Answer π α) :=
  let next : Requests μ π × List (Answer π α) := out.1.unloadFrom m r
  (next.1, out.2 ++ next.2)

/-- `IdentifyRequest::ModuleUnload`. -/
def moduleUnload (m : μ) (reqs : Requests μ π) : Requests μ π × List (Answer π α) :=
  (List.range reqs.made).foldl (unloadNext m) (reqs, [])

end Requests

/-- What is done to requests. -/
inductive Action (μ : Type u) (π : Type v) (α : Type w) where
  | create (owner : μ) (fields : π)
  | hold (r : Nat) (m : μ)
  | release (r : Nat) (m : μ)
  | success (r : Nat) (na : α)
  | dispatch (r : Nat)
  | moduleUnload (m : μ)

/-- The requests, and all answers that were given. -/
structure State (μ : Type u) (π : Type v) (α : Type w) where
  reqs : Requests μ π
  answers : List (Answer π α)

/-- New answers stand behind the earlier ones. -/
def after (answers : List (Answer π α)) (out : Requests μ π × List (Answer π α)) : State μ π α :=
  ⟨out.1, answers ++ out.2⟩

section Acting

variable [DecidableEq μ]

/-- What an action does to the requests, and the answers that it gives.  A request that is over is
not used again. -/
def act (reqs : Requests μ π) : Action μ π α → Option (Requests μ π × List (Answer π α))
  | .create owner fields => some (reqs.create owner fields, [])
  | .hold r m => (reqs.requests r).map (reqs.hold r m)
  | .release r m => (reqs.requests r).map (reqs.release r m)
  | .success r na => (reqs.requests r).map (reqs.success r na)
  | .dispatch r => (reqs.requests r).map (reqs.dispatch r)
  | .moduleUnload m => some (reqs.moduleUnload m)

/-- What an action does, with all answers kept. -/
def step (state : State μ π α) (action : Action μ π α) : Option (State μ π α) :=
  (act state.reqs action).map (after state.answers)

end Acting

/-! ## Answers -/

/-- An answer is a success of a request. -/
def Answer.isSuccess (r : Nat) : Answer π α → Bool
  | .onSuccess r' _ _ => r' = r
  | .onFail _ _ => false

/-- An answer is a failure of a request. -/
def Answer.isFail (r : Nat) : Answer π α → Bool
  | .onSuccess _ _ _ => false
  | .onFail r' _ => r' = r

/-- How often a request was told that it succeeded, and that it failed. -/
def told (answers : List (Answer π α)) (r : Nat) : Nat × Nat :=
  (answers.countP (Answer.isSuccess r), answers.countP (Answer.isFail r))

/-- What a request has been told: while it lives, of its success and of nothing else; when it is
over, of one of the two.  A request that was dispatched and lives is held by a module. -/
structure Settled (state : State μ π α) : Prop where
  live : ∀ {r request}, state.reqs.requests r = some request →
    told state.answers r = (request.success.toNat, 0)
  waiting : ∀ {r request}, state.reqs.requests r = some request → request.dispatched = true →
    request.holds ≠ ∅
  ended : ∀ {r}, r < state.reqs.made → state.reqs.requests r = none →
    told state.answers r = (1, 0) ∨ told state.answers r = (0, 1)
  fresh : ∀ {r}, state.reqs.made ≤ r →
    state.reqs.requests r = none ∧ told state.answers r = (0, 0)

theorem told_append (answers new : List (Answer π α)) (r : Nat) :
    told (answers ++ new) r =
      ((told answers r).1 + (told new r).1, (told answers r).2 + (told new r).2) := by
  simp [told]

theorem told_onSuccess (r r' : Nat) (fields : π) (na : α) :
    told [.onSuccess r fields na] r' = if r = r' then (1, 0) else (0, 0) := by
  by_cases same : r = r' <;> simp [told, Answer.isSuccess, Answer.isFail, same]

theorem told_onFail (r r' : Nat) (fields : π) :
    told ([.onFail r fields] : List (Answer π α)) r' = if r = r' then (0, 1) else (0, 0) := by
  by_cases same : r = r' <;> simp [told, Answer.isSuccess, Answer.isFail, same]

section Steps

variable {reqs next : Requests μ π} {answers new : List (Answer π α)} {r : Nat}
  {request request' : Request μ π} {m : μ}

open Requests

theorem Settled.lt_made (settled : Settled ⟨reqs, answers⟩)
    (isLive : reqs.requests r = some request) :
    r < reqs.made := by
  refine Nat.lt_of_not_le fun beyond => ?_
  cases isLive.symm.trans (settled.fresh beyond).1

/-- What happens to one request leaves the others alone, where its answers are its own. -/
theorem Settled.of_local (settled : Settled ⟨reqs, answers⟩)
    (isLive : reqs.requests r = some request) (after : Option (Request μ π))
    (others : ∀ r', r ≠ r' → told new r' = (0, 0))
    (live : ∀ request', after = some request' →
      told (answers ++ new) r = (request'.success.toNat, 0) ∧
        (request'.dispatched = true → request'.holds ≠ ∅))
    (ended : after = none →
      told (answers ++ new) r = (1, 0) ∨ told (answers ++ new) r = (0, 1)) :
    Settled (State.mk (reqs.setRequest r after) (answers ++ new)) := by
  have same : ∀ r', r ≠ r' → told (answers ++ new) r' = told answers r' := fun r' differ => by
    rw [told_append, others r' differ]
    rfl
  have requests : ∀ r', r ≠ r' → (reqs.setRequest r after).requests r' = reqs.requests r' :=
    fun r' differ => Function.update_of_ne differ.symm _ _
  have own : (reqs.setRequest r after).requests r = after := Function.update_self _ _ _
  refine ⟨fun {r' request'} isLive' => ?_, fun {r' request'} isLive' dispatched => ?_,
    fun {r'} less gone => ?_, fun {r'} beyond => ?_⟩
  · by_cases differ : r = r'
    · subst differ
      exact (live request' (own.symm.trans isLive')).1
    · exact (same r' differ).trans (settled.live ((requests r' differ).symm.trans isLive'))
  · by_cases differ : r = r'
    · subst differ
      exact (live request' (own.symm.trans isLive')).2 dispatched
    · exact settled.waiting ((requests r' differ).symm.trans isLive') dispatched
  · by_cases differ : r = r'
    · subst differ
      exact ended (own.symm.trans gone)
    · rw [same r' differ]
      exact settled.ended less ((requests r' differ).symm.trans gone)
  · have differ : r ≠ r' := fun same => Nat.not_lt.mpr beyond (same ▸ settled.lt_made isLive)
    rw [same r' differ]
    exact ⟨(requests r' differ).trans (settled.fresh beyond).1, (settled.fresh beyond).2⟩

theorem Settled.keep (settled : Settled ⟨reqs, answers⟩) (isLive : reqs.requests r = some request)
    (success : request'.success = request.success)
    (waiting : request'.dispatched = true → request'.holds ≠ ∅) :
    Settled (after answers (reqs.setRequest r (some request'), [])) := by
  refine settled.of_local isLive _ (fun _ _ => rfl) (fun other isOther => ?_) fun none => ?_
  · cases isOther
    rw [List.append_nil, success]
    exact ⟨settled.live isLive, waiting⟩
  · cases none

theorem Settled.finish (settled : Settled ⟨reqs, answers⟩) (isLive : reqs.requests r = some request)
    (success : request'.success = request.success) :
    Settled (after answers (reqs.finish r request')) := by
  have before := settled.live isLive
  rw [after, Requests.finish, success]
  refine settled.of_local isLive none (fun r' differ => ?_) (fun other isOther => ?_) fun _ => ?_
  · dsimp only
    split
    · rfl
    · rw [told_onFail, if_neg differ]
  · cases isOther
  · rw [told_append, before]
    cases request.success with
    | true => exact .inl rfl
    | false => exact .inr (by simp [told_onFail])

theorem Settled.success (settled : Settled ⟨reqs, answers⟩)
    (isLive : reqs.requests r = some request) (na : α) :
    Settled (after answers (reqs.success r na request)) := by
  have before := settled.live isLive
  have waits := settled.waiting isLive
  unfold Requests.success
  split
  · rw [after, List.append_nil]
    exact settled
  · next notYet =>
      refine settled.of_local isLive _ (fun r' differ => ?_) (fun other isOther => ?_)
        fun none => ?_
      · rw [told_onSuccess, if_neg differ]
      · cases isOther
        rw [told_append, before, told_onSuccess, if_pos rfl, Bool.eq_false_of_not_eq_true notYet]
        exact ⟨rfl, waits⟩
      · cases none

theorem Settled.create (settled : Settled ⟨reqs, answers⟩) (owner : μ) (fields : π) :
    Settled (after answers (reqs.create owner fields, [])) := by
  rw [after, List.append_nil]
  obtain ⟨-, unheard⟩ := settled.fresh (Nat.le_refl reqs.made)
  have new : (reqs.create owner fields).requests reqs.made =
      some ⟨owner, fields, ∅, false, false⟩ := Function.update_self _ _ _
  have others : ∀ r, r ≠ reqs.made →
      (reqs.create owner fields).requests r = reqs.requests r :=
    fun r differ => Function.update_of_ne differ _ _
  refine ⟨fun {r request} isLive => ?_, fun {r request} isLive dispatched => ?_,
    fun {r} less gone => ?_, fun {r} beyond => ?_⟩
  · by_cases isNew : r = reqs.made
    · subst isNew
      cases new.symm.trans isLive
      exact unheard
    · exact settled.live ((others r isNew).symm.trans isLive)
  · by_cases isNew : r = reqs.made
    · subst isNew
      cases new.symm.trans isLive
      cases dispatched
    · exact settled.waiting ((others r isNew).symm.trans isLive) dispatched
  · by_cases isNew : r = reqs.made
    · subst isNew
      cases new.symm.trans gone
    · refine settled.ended ?_ ((others r isNew).symm.trans gone)
      exact Nat.lt_of_le_of_ne (Nat.le_of_lt_succ less) isNew
  · have isOld : reqs.made ≤ r := Nat.le_of_succ_le beyond
    have differ : r ≠ reqs.made := Nat.ne_of_gt beyond
    exact ⟨(others r differ).trans (settled.fresh isOld).1, (settled.fresh isOld).2⟩

variable [DecidableEq μ]

theorem Settled.release (settled : Settled ⟨reqs, answers⟩)
    (isLive : reqs.requests r = some request) :
    Settled (after answers (reqs.release r m request)) := by
  unfold Requests.release
  dsimp only
  split
  · exact settled.finish isLive rfl
  · next stays =>
      exact settled.keep isLive rfl fun dispatched none => stays ⟨none, dispatched⟩

theorem Settled.dispatch (settled : Settled ⟨reqs, answers⟩)
    (isLive : reqs.requests r = some request) :
    Settled (after answers (reqs.dispatch r request)) := by
  unfold Requests.dispatch
  split
  · exact settled.finish isLive rfl
  · next held => exact settled.keep isLive rfl fun _ => held

theorem Settled.unloadFrom (settled : Settled ⟨reqs, answers⟩) (m : μ) (r : Nat) :
    Settled (after answers (reqs.unloadFrom m r)) := by
  unfold Requests.unloadFrom
  split
  · rw [after, List.append_nil]
    exact settled
  · next request isLive =>
      dsimp only
      split
      · exact settled.finish isLive rfl
      · next stays =>
          split
          · exact settled.finish isLive rfl
          · exact settled.keep isLive rfl fun dispatched none => stays ⟨none, dispatched⟩

/-- What the loop of `ModuleUnload` has done after some of the requests. -/
theorem Settled.moduleUnload (settled : Settled ⟨reqs, answers⟩) (m : μ) :
    Settled (after answers (reqs.moduleUnload m)) := by
  suffices all : ∀ (rs : List Nat) (out : Requests μ π × List (Answer π α)),
      Settled (after answers out) → Settled (after answers (rs.foldl (unloadNext m) out)) by
    refine all _ _ ?_
    rw [after, List.append_nil]
    exact settled
  intro rs
  induction rs with
  | nil => exact fun out settled => settled
  | cons r rs ih =>
      intro out settled
      refine ih _ ?_
      rw [after, unloadNext, ← List.append_assoc]
      exact settled.unloadFrom m r

end Steps

/-! ## The fields of requests -/

/-- The fields of the request that an answer is for. -/
def Answer.fields : Answer π α → π
  | .onSuccess _ fields _ => fields
  | .onFail _ fields => fields

section Fields

variable {reqs : Requests μ π} {kept : π → Prop} {r : Nat} {request : Request μ π} {m : μ}

/-- What holds of the fields of all live requests. -/
def Requests.Covered (reqs : Requests μ π) (kept : π → Prop) : Prop :=
  ∀ r request, reqs.requests r = some request → kept request.fields

/-- What holds of the fields of all live requests, and of those that were answered. -/
def Covers (kept : π → Prop) (out : Requests μ π × List (Answer π α)) : Prop :=
  out.1.Covered kept ∧ ∀ answer ∈ out.2, kept answer.fields

theorem covered_setRequest (covered : reqs.Covered kept) {after : Option (Request μ π)}
    (same : ∀ request, after = some request → kept request.fields) :
    (reqs.setRequest r after).Covered kept := by
  intro r' request isLive
  have written : (reqs.setRequest r after).requests r' =
      if r' = r then after else reqs.requests r' := Function.update_apply _ _ _ _
  rw [written] at isLive
  split at isLive
  · exact same request isLive
  · exact covered r' request isLive

theorem covers_setRequest (covered : reqs.Covered kept) (same : kept request.fields) :
    Covers kept ((reqs.setRequest r (some request), []) : _ × List (Answer π α)) := by
  refine ⟨covered_setRequest covered fun other isOther => ?_, fun answer mem => ?_⟩
  · exact Option.some.inj isOther ▸ same
  · exact absurd mem List.not_mem_nil

theorem covers_finish (covered : reqs.Covered kept) (same : kept request.fields) :
    Covers kept (reqs.finish r request : _ × List (Answer π α)) := by
  refine ⟨covered_setRequest covered fun other isOther => (by cases isOther), fun answer mem => ?_⟩
  rw [Requests.finish] at mem
  dsimp only at mem
  split at mem
  · exact absurd mem List.not_mem_nil
  · rw [List.mem_singleton.mp mem]
    exact same

theorem covered_create (covered : reqs.Covered kept) {owner : μ} {fields : π}
    (new : kept fields) : (reqs.create owner fields).Covered kept := by
  intro r request isLive
  have written : (reqs.create owner fields).requests r =
      if r = reqs.made then some ⟨owner, fields, ∅, false, false⟩ else reqs.requests r :=
    Function.update_apply _ _ _ _
  rw [written] at isLive
  split at isLive
  · exact Option.some.inj isLive ▸ new
  · exact covered r request isLive

variable [DecidableEq μ]

theorem covers_unloadFrom (covered : reqs.Covered kept) :
    Covers kept (reqs.unloadFrom m r : _ × List (Answer π α)) := by
  unfold Requests.unloadFrom
  split
  · exact ⟨covered, fun answer mem => absurd mem List.not_mem_nil⟩
  · next request isLive =>
      have same := covered r request isLive
      dsimp only
      split
      · exact covers_finish covered same
      · split
        · exact covers_finish covered same
        · exact covers_setRequest covered same

theorem covers_moduleUnload (covered : reqs.Covered kept) :
    Covers kept (reqs.moduleUnload m : _ × List (Answer π α)) := by
  suffices all : ∀ (rs : List Nat) (out : Requests μ π × List (Answer π α)),
      Covers kept out → Covers kept (rs.foldl (Requests.unloadNext m) out) from
    all _ _ ⟨covered, fun answer mem => absurd mem List.not_mem_nil⟩
  intro rs
  induction rs with
  | nil => exact fun out covers => covers
  | cons r rs ih =>
      intro out covers
      have next : Covers kept (out.1.unloadFrom m r : _ × List (Answer π α)) :=
        covers_unloadFrom covers.1
      refine ih _ ⟨next.1, fun answer mem => ?_⟩
      rcases List.mem_append.mp mem with before | new
      · exact covers.2 answer before
      · exact next.2 answer new

/-- An action leaves the fields of requests alone, and answers with them. -/
theorem covers_act {action : Action μ π α} {out : Requests μ π × List (Answer π α)}
    (covered : reqs.Covered kept) (acted : act reqs action = some out)
    (new : ∀ owner fields, action = .create owner fields → kept fields) : Covers kept out := by
  cases action with
  | create owner fields =>
      cases acted
      refine ⟨covered_create covered (new owner fields rfl), fun answer mem => ?_⟩
      exact absurd mem List.not_mem_nil
  | hold r m =>
      obtain ⟨request, isLive, rfl⟩ := Option.map_eq_some_iff.mp acted
      exact covers_setRequest covered (covered r request isLive)
  | release r m =>
      obtain ⟨request, isLive, rfl⟩ := Option.map_eq_some_iff.mp acted
      have same := covered r request isLive
      unfold Requests.release
      dsimp only
      split
      · exact covers_finish covered same
      · exact covers_setRequest covered same
  | success r na =>
      obtain ⟨request, isLive, rfl⟩ := Option.map_eq_some_iff.mp acted
      have same := covered r request isLive
      unfold Requests.success
      split
      · exact ⟨covered, fun answer mem => absurd mem List.not_mem_nil⟩
      · refine ⟨covered_setRequest covered fun other isOther => ?_, fun answer mem => ?_⟩
        · exact Option.some.inj isOther ▸ same
        · rw [List.mem_singleton.mp mem]
          exact same
  | dispatch r =>
      obtain ⟨request, isLive, rfl⟩ := Option.map_eq_some_iff.mp acted
      have same := covered r request isLive
      unfold Requests.dispatch
      split
      · exact covers_finish covered same
      · exact covers_setRequest covered same
  | moduleUnload m =>
      cases acted
      exact covers_moduleUnload covered

end Fields

end Anope.Account.Identify
