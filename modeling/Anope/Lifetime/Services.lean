import Anope.Lifetime.References

/-!
# What a reference to a service refers to

`Reference::operator=` tests its left side by the virtual `operator bool`.  For a `ServiceReference`
the test looks a service up, and it does so before the type and the name are assigned.  So the
left side of an assignment may come to refer to the service that it asked for before.
-/

namespace Anope.Lifetime

open Library Library.Run Heap

variable {aliases : Aliases} {heap next : Heap} {action : Action} {r x obj : Addr}
  {own source : Ref} {id : ServiceId}

/-! ## Asking for a service -/

/-- A service was made under a name to which the aliases lead. -/
def Answers (aliases : Aliases) (heap : Heap) (obj : Addr) (id : ServiceId) : Prop :=
  ∃ n, LeadsTo aliases id.1 id.2 n ∧ heap.serviceOf obj = some (id.1, n)

/-- References to services refer to services that they ask for. -/
def Named (aliases : Aliases) (heap : Heap) : Prop :=
  ∀ r obj id, heap.target r = some obj → heap.asksFor r = some id → Answers aliases heap obj id

theorem Heap.Backed.answers (backed : heap.Backed)
    (found : findService heap.services aliases id = some (some obj)) :
    Answers aliases heap obj id := by
  obtain ⟨n, leads, isService⟩ := exists_lookup_of_findService found
  exact ⟨n, leads, backed.registered isService⟩

@[simp]
theorem refs_attach : (heap.attach r).refs = heap.refs := by
  unfold Heap.attach
  split
  · exact refs_changeReferences _
  · rfl

theorem target_attach : (heap.attach r).target x = heap.target x := by
  simp [Heap.target]

theorem asksFor_setRef (ref : Option Ref) :
    (heap.setRef r ref).asksFor r = ref.bind Ref.service := by
  simp [Heap.asksFor, Heap.setRef]

/-- What a reference refers to and asks for after `operator bool`. -/
theorem resolve_result (resolved : heap.resolve aliases r = some next) :
    (next.refs r).isSome ∧ next.asksFor r = heap.asksFor r ∧
      (next.target r = heap.target r ∧ (heap.asksFor r = none ∨ heap.target r ≠ none) ∨
        ∃ id, heap.asksFor r = some id ∧ heap.target r = none ∧
          findService heap.services aliases id = some (next.target r)) := by
  obtain ⟨ref, isRef, -⟩ := Option.bind_eq_some_iff.mp resolved
  rcases resolve_cases resolved with ⟨rfl, settled⟩ | ⟨id, found, asks, none, isFound, rfl⟩
  · exact ⟨Option.isSome_of_mem isRef, rfl, .inl ⟨rfl, settled⟩⟩
  · refine ⟨by simp [Heap.setRef], ?_, .inr ⟨id, asks, none, ?_⟩⟩
    · rw [asks]
      simp [Heap.asksFor, Heap.setRef]
    · rw [isFound, target_attach, target_setRef, if_pos rfl]
      rfl

/-- An assignment from a reference without a valid object leaves the object that the left side
finds, by what the left side has asked for. -/
theorem assign_result (fit : heap.Fit r)
    (assigned : heap.assign aliases r own source = some next) :
    next.asksFor r = source.service ∧
      (next.target r = source.target ∧ (own.service = none ∨ source.target ≠ none) ∨
        ∃ id, own.service = some id ∧ source.target = none ∧
          findService heap.services aliases id = some (next.target r)) := by
  obtain ⟨first, isFirst, assigned⟩ := Option.bind_eq_some_iff.mp assigned
  obtain ⟨second, isSecond, rfl⟩ := Option.map_eq_some_iff.mp assigned
  obtain ⟨searched, fitFirst, -⟩ := fit.resolve isFirst
  have written := fitFirst.aimed.detach_setRef (some ⟨source.invalid, source.ref, own.service⟩)
  have services := written.services.trans searched.services
  have aims : ((first.detach r).setRef r
      (some ⟨source.invalid, source.ref, own.service⟩)).target r = source.target := by
    simp [Ref.target]
  have asks : ((first.detach r).setRef r
      (some ⟨source.invalid, source.ref, own.service⟩)).asksFor r = own.service :=
    asksFor_setRef _
  obtain ⟨isRef, -, result⟩ := resolve_result isSecond
  obtain ⟨ref, isRef⟩ := Option.isSome_iff_exists.mp isRef
  have aims' : ((second.attach r).setRef r (((second.attach r).refs r).map fun ref =>
      { ref with service := source.service })).target r = second.target r := by
    rw [target_setRef, if_pos rfl, refs_attach, Heap.target, isRef]
    rfl
  rw [asksFor_setRef, refs_attach, isRef, aims']
  rw [aims, asks, services] at result
  exact ⟨rfl, result⟩

/-! ## Steps -/

theorem Answers.of_serviceOf (answers : Answers aliases heap obj id)
    (same : next.serviceOf obj = heap.serviceOf obj) : Answers aliases next obj id := by
  obtain ⟨n, leads, isService⟩ := answers
  exact ⟨n, leads, same.trans isService⟩

/-- An action that leaves alone what references refer to and ask for. -/
theorem Named.of_same (named : Named aliases heap) (backed : heap.Backed)
    (targets : ∀ x obj, next.target x = some obj → heap.target x = some obj)
    (asks : ∀ x, next.asksFor x = heap.asksFor x)
    (services : ∀ x obj, next.target x = some obj → (heap.objects obj).isSome →
      next.serviceOf obj = heap.serviceOf obj) : Named aliases next := by
  intro x obj id aims isId
  have before := targets x obj aims
  have answers := named x obj id before ((asks x).symm.trans isId)
  exact answers.of_serviceOf (services x obj aims (backed.aimed obj before))

theorem Named.of_touches (named : Named aliases heap) (touches : Touches heap next r)
    (answers : ∀ obj id, next.target r = some obj → next.asksFor r = some id →
      Answers aliases next obj id) : Named aliases next := by
  intro x obj id aims isId
  by_cases same : x = r
  · subst same
    exact answers obj id aims isId
  · rw [touches.target same] at aims
    have asks : next.asksFor x = heap.asksFor x :=
      congrArg (Option.bind · Ref.service) (touches.refs same)
    exact (named x obj id aims (asks.symm.trans isId)).of_serviceOf (touches.serviceOf obj)

theorem Named.create {service : Option ServiceId} (named : Named aliases heap)
    (backed : heap.Backed) (new : heap.objects obj = none) {services : Services} :
    Named aliases { heap with
      objects := Function.update heap.objects obj (some ⟨∅, service⟩), services } := by
  refine named.of_same backed (fun _ _ aims => aims) (fun _ => rfl) fun x y _ live => ?_
  have differ : y ≠ obj := by
    rintro rfl
    rw [new] at live
    cases live
  simp [Heap.serviceOf, differ]

theorem Named.setService {change : ServiceId → ServiceId} (named : Named aliases heap)
    (changed : heap.setService r change = some next) : Named aliases next := by
  obtain ⟨ref, rfl, gone⟩ := setService_spec changed
  intro x obj id aims isId
  rw [target_setRef] at aims
  split at aims
  · exact absurd aims (by simp [gone])
  · next differ =>
      have asks : (heap.setRef r (some ref)).asksFor x = heap.asksFor x := by
        simp [Heap.asksFor, Heap.setRef, differ]
      obtain ⟨n, leads, isService⟩ := named x obj id aims (asks.symm.trans isId)
      exact ⟨n, leads, isService⟩

theorem asksFor_destroy {object : Object} :
    (heap.destroy obj object).asksFor x = heap.asksFor x := by
  have same : (heap.destroy obj object).refs x =
      if x ∈ object.references then (heap.refs x).map fun ref => { ref with invalid := true }
      else heap.refs x := by
    unfold Heap.destroy
    cases object.service <;> rfl
  rw [Heap.asksFor, same]
  split
  · rw [Option.bind_map]
    rfl
  · rfl

/-- In an assignment from a reference without a valid object, the service that the left side has
asked for, if there is one, is also one that the right side asks for. -/
def RightName (aliases : Aliases) (heap : Heap) : Action → Prop
  | .assign r other =>
      r ≠ other → heap.target other = none →
        ∀ own id obj, heap.asksFor r = some own → heap.asksFor other = some id →
          findService heap.services aliases own = some (some obj) → Answers aliases heap obj id
  | _ => True

theorem named_assign_iff {other : Addr} (backed : heap.Backed) (named : Named aliases heap)
    (stepped : step aliases heap (.assign r other) = some next) :
    Named aliases next ↔ RightName aliases heap (.assign r other) := by
  obtain ⟨touches, -⟩ := touches_of_step backed rfl stepped
  obtain ⟨own, isOwn, assigned⟩ := Option.bind_eq_some_iff.mp stepped
  obtain ⟨source, isSource, assigned⟩ := Option.bind_eq_some_iff.mp assigned
  have target_other : heap.target other = source.target := by simp [Heap.target, isSource]
  have asks_other : heap.asksFor other = source.service := by simp [Heap.asksFor, isSource]
  have asks_own : heap.asksFor r = own.service := by simp [Heap.asksFor, isOwn]
  split at assigned
  · next same =>
      cases assigned
      exact iff_of_true named fun differ => absurd same differ
  next differ =>
  obtain ⟨-, assigned⟩ := Option.ite_none_right_eq_some.mp assigned
  obtain ⟨asks, result⟩ := assign_result backed.fit assigned
  constructor
  · intro after _ none own' id obj isOwn' isId found
    rw [asks_own] at isOwn'
    rw [asks_other] at isId
    rw [target_other] at none
    rcases result with ⟨-, settled⟩ | ⟨id', isId', -, found'⟩
    · simp [isOwn', none] at settled
    · cases isOwn'.symm.trans isId'
      have aims := Option.some.inj (found'.symm.trans found)
      exact (after r obj id aims (asks.trans isId)).of_serviceOf (touches.serviceOf obj).symm
  · intro right
    refine named.of_touches touches fun obj id aims isId => ?_
    rw [asks] at isId
    refine Answers.of_serviceOf ?_ (touches.serviceOf obj)
    rcases result with ⟨same, -⟩ | ⟨own', isOwn', none, found⟩
    · exact named other obj id (target_other.trans (same.symm.trans aims))
        (asks_other.trans isId)
    · exact right differ (target_other.trans none) own' id obj (asks_own.trans isOwn')
        (asks_other.trans isId) (found.trans (congrArg some aims))

theorem named_step_iff (backed : heap.Backed) (named : Named aliases heap)
    (stepped : step aliases heap action = some next) :
    Named aliases next ↔ RightName aliases heap action := by
  cases action with
  | assign r other => exact named_assign_iff backed named stepped
  | create obj =>
      refine iff_of_true ?_ trivial
      obtain ⟨new, rfl⟩ := Option.ite_none_right_eq_some.mp stepped |>.imp_right Option.some.inj
      exact named.create backed (Option.isNone_iff_eq_none.mp new)
  | createService obj id =>
      refine iff_of_true ?_ trivial
      obtain ⟨new, made⟩ := Option.ite_none_right_eq_some.mp stepped
      split at made
      · exact Option.some.inj made ▸ named
      · exact Option.some.inj made ▸ named.create backed (Option.isNone_iff_eq_none.mp new)
  | destroy obj =>
      refine iff_of_true ?_ trivial
      obtain ⟨object, isObject, rfl⟩ := Option.map_eq_some_iff.mp stepped
      have targets : ∀ x y, (heap.destroy obj object).target x = some y →
          x ∉ heap.references obj ∧ heap.target x = some y := by
        intro x y aims
        rw [target_destroy isObject] at aims
        split at aims
        · cases aims
        · next notMem => exact ⟨notMem, aims⟩
      refine named.of_same backed (fun x y aims => (targets x y aims).2)
        (fun x => asksFor_destroy) fun x y aims _ => ?_
      obtain ⟨notMem, before⟩ := targets x y aims
      exact serviceOf_destroy fun same => notMem (same ▸ backed.known before)
  | unregister obj =>
      refine iff_of_true ?_ trivial
      obtain ⟨id, -, rfl⟩ := Option.map_eq_some_iff.mp stepped
      exact named
  | setServiceName r newname => exact iff_of_true (named.setService stepped) trivial
  | setServiceType r newtype => exact iff_of_true (named.setService stepped) trivial
  | make r obj =>
      refine iff_of_true ?_ trivial
      obtain ⟨touches, -⟩ := touches_of_step backed rfl stepped
      obtain ⟨-, rfl⟩ := Option.ite_none_right_eq_some.mp stepped |>.imp_right Option.some.inj
      refine named.of_touches touches fun y id _ isId => ?_
      simp [Heap.asksFor, Heap.setRef] at isId
  | makeService r id =>
      refine iff_of_true ?_ trivial
      obtain ⟨touches, -⟩ := touches_of_step backed rfl stepped
      obtain ⟨-, rfl⟩ := Option.ite_none_right_eq_some.mp stepped |>.imp_right Option.some.inj
      refine named.of_touches touches fun y id aims _ => ?_
      simp [Ref.target] at aims
  | copy r other =>
      refine iff_of_true ?_ trivial
      obtain ⟨touches, -⟩ := touches_of_step backed rfl stepped
      obtain ⟨-, copied⟩ := Option.ite_none_right_eq_some.mp stepped
      obtain ⟨source, isSource, rfl⟩ := Option.map_eq_some_iff.mp copied
      refine named.of_touches touches fun y id aims isId => ?_
      refine Answers.of_serviceOf (named other y id ?_ ?_) (touches.serviceOf y)
      · rw [target_attach, target_setRef, if_pos rfl] at aims
        simpa [Heap.target, isSource] using aims
      · simpa [Heap.asksFor, Heap.setRef, isSource] using isId
  | test r =>
      refine iff_of_true ?_ trivial
      obtain ⟨touches, -⟩ := touches_of_step backed rfl stepped
      obtain ⟨-, asks, result⟩ := resolve_result stepped
      refine named.of_touches touches fun y id aims isId => ?_
      refine Answers.of_serviceOf ?_ (touches.serviceOf y)
      rw [asks] at isId
      rcases result with ⟨same, -⟩ | ⟨own, isOwn, -, found⟩
      · exact named r y id (same.symm.trans aims) isId
      · cases isOwn.symm.trans isId
        exact backed.answers (found.trans (congrArg some aims))
  | drop r =>
      refine iff_of_true ?_ trivial
      obtain ⟨touches, -⟩ := touches_of_step backed rfl stepped
      obtain ⟨ref, -, rfl⟩ := Option.map_eq_some_iff.mp stepped
      refine named.of_touches touches fun y id aims _ => ?_
      simp at aims

/-- References to services refer to services that they ask for in the whole of a run exactly when
no reference is assigned from one without a valid object while the service that it asked for
before is there and is not one that it asks for afterwards. -/
theorem always_named_iff (aliases : Aliases) (actions : List Action) :
    Always (step aliases) (Named aliases) initial actions ↔
      EachStep (step aliases) (RightName aliases) initial actions :=
  always_iff_eachStep Heap.Backed (fun backed stepped => (step_spec backed stepped).1)
    named_step_iff initial_backed
    (fun r obj id aims _ => by cases aims) actions

/-- A reference that asks for `y` refers to the service `x`. -/
example :
    (run (step ∅) initial
        [.createService 1 ([84], [120]), .makeService 2 ([84], [120]),
          .makeService 3 ([84], [121]), .assign 2 3]).map
      (fun heap => (heap.target 2, heap.asksFor 2)) = some (some 1, some ([84], [121])) := by
  decide

end Anope.Lifetime
