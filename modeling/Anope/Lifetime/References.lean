import Anope.Library.Run
import Anope.Library.While
import Anope.Library.Table
import Anope.Text.Casemap

/-!
# References and services

A `Base` keeps the set of the references to it, and its destructor invalidates them.  A
`ServiceReference` looks its object up by type and name when it is used.  The two sides are separate
pieces of memory: what follows says when they agree.
-/

namespace Anope.Lifetime

open Library Library.Run

/-- Where an object or a reference is. -/
abbrev Addr := Nat

/-- The type and the name of a service. -/
abbrev ServiceId := Str × Str

/-! ## Looking a service up -/

section Finding

open Library.While

/-- The static map `Services`. -/
abbrev Services := AList fun _ : ServiceId => Addr

/-- The static map `Aliases`. -/
abbrev Aliases := AList fun _ : ServiceId => Str

/-- A call of the recursive `FindService`. -/
def findBody (services : Services) (aliases : Aliases) (t : Str) (n : Str) :
    Pass Str (Option Addr) :=
  match services.lookup (t, n) with
  | some service => .done (some service)
  | none =>
      match aliases.lookup (t, n) with
      | some target => .goOn target
      | none => .done none

/-- `FindService` on a type and a name, where its recursion has an end: an alias for each call is
enough. -/
def findService (services : Services) (aliases : Aliases) (id : ServiceId) :
    Option (Option Addr) :=
  if services.keys.any fun key => key.1 = id.1 then
    within (findBody services aliases id.1) (aliases.entries.length + 1) id.2
  else some none

end Finding

/-! ## Memory -/

/-- A live `Base`: its set `references`, which is empty for a null pointer, and for a service its
type and its name. -/
structure Object where
  references : Finset Addr
  service : Option ServiceId

/-- A live `Reference`, and for a `ServiceReference` the type and the name it asks for. -/
structure Ref where
  invalid : Bool
  ref : Option Addr
  service : Option ServiceId

/-- `Reference::operator bool`, and the object where it holds. -/
def Ref.target (r : Ref) : Option Addr :=
  if r.invalid then none else r.ref

/-- The live objects and references by their addresses, and the registered services.  `dangling`
says whether memory was accessed that is not a live object or reference. -/
structure Heap where
  objects : Addr → Option Object
  refs : Addr → Option Ref
  services : Services
  dangling : Bool

namespace Heap

/-- No objects yet. -/
def initial : Heap := ⟨fun _ => none, fun _ => none, ∅, false⟩

/-- The object that a reference validly refers to. -/
def target (heap : Heap) (r : Addr) : Option Addr :=
  (heap.refs r).bind Ref.target

/-- An access to the set `references` of an object. -/
def changeReferences (heap : Heap) (obj : Addr) (change : Finset Addr → Finset Addr) : Heap :=
  match heap.objects obj with
  | some object =>
      { heap with
        objects := Function.update heap.objects obj
          (some { object with references := change object.references }) }
  | none => { heap with dangling := true }

/-- `Base::AddReference`. -/
def addReference (heap : Heap) (obj r : Addr) : Heap :=
  heap.changeReferences obj (insert r)

/-- `Base::DelReference`. -/
def delReference (heap : Heap) (obj r : Addr) : Heap :=
  heap.changeReferences obj fun references => references.erase r

/-- A reference is written, or is no more. -/
def setRef (heap : Heap) (r : Addr) (ref : Option Ref) : Heap :=
  { heap with refs := Function.update heap.refs r ref }

/-- The test before `AddReference` in a constructor or an assignment, with the call. -/
def attach (heap : Heap) (r : Addr) : Heap :=
  match heap.target r with
  | some obj => heap.addReference obj r
  | none => heap

/-- The test before `DelReference` in a destructor or an assignment, with the call. -/
def detach (heap : Heap) (r : Addr) : Heap :=
  match heap.target r with
  | some obj => heap.delReference obj r
  | none => heap

/-- The loop of `Base::~Base` over `references`. -/
def invalidateAll (heap : Heap) (references : Finset Addr) : Heap :=
  { heap with
    refs := fun r =>
      if r ∈ references then (heap.refs r).map fun ref => { ref with invalid := true }
      else heap.refs r
    dangling := heap.dangling || decide (∃ r ∈ references, (heap.refs r).isNone) }

/-- `Service::Unregister`. -/
def unregister (heap : Heap) (id : ServiceId) : Heap :=
  { heap with services := heap.services.erase id }

/-- The destructors of an object: `~Service` for a service, and `~Base`. -/
def destroy (heap : Heap) (obj : Addr) (object : Object) : Heap :=
  let heap := object.service.elim heap heap.unregister
  let heap := heap.invalidateAll object.references
  { heap with objects := Function.update heap.objects obj none }

variable (aliases : Aliases)

/-- `operator bool`, which a `ServiceReference` overrides: without a valid object it looks one up.
It does not return where `FindService` does not. -/
def resolve (heap : Heap) (r : Addr) : Option Heap :=
  (heap.refs r).bind fun ref =>
    match ref.service, ref.target with
    | some id, none =>
        (findService heap.services aliases id).map fun found =>
          (heap.setRef r (some ⟨false, found, some id⟩)).attach r
    | _, _ => some heap

/-- `Reference::operator=`, and for a `ServiceReference` the assignment of the type and the name,
which comes last. -/
def assign (heap : Heap) (r : Addr) (own source : Ref) : Option Heap :=
  (heap.resolve aliases r).bind fun heap =>
    let heap := (heap.detach r).setRef r (some ⟨source.invalid, source.ref, own.service⟩)
    (heap.resolve aliases r).map fun heap =>
      let heap := heap.attach r
      heap.setRef r ((heap.refs r).map fun ref => { ref with service := source.service })

/-- `SetServiceName` and `SetServiceType`. -/
def setService (heap : Heap) (r : Addr) (change : ServiceId → ServiceId) : Option Heap :=
  (heap.refs r).bind fun ref =>
    ref.service.map fun id => heap.setRef r (some ⟨true, ref.ref, some (change id)⟩)

end Heap

/-- What is done to objects and references. -/
inductive Action where
  | create (obj : Addr)
  | createService (obj : Addr) (id : ServiceId)
  | destroy (obj : Addr)
  | unregister (obj : Addr)
  | make (r : Addr) (obj : Option Addr)
  | makeService (r : Addr) (id : ServiceId)
  | copy (r other : Addr)
  | assign (r other : Addr)
  | test (r : Addr)
  | drop (r : Addr)
  | setServiceName (r : Addr) (newname : Str)
  | setServiceType (r : Addr) (newtype : Str)

/-- What an action does.  Something new is made where nothing is, and a pointer that is passed is
null or that of a live object.  The constructor of a second service of one name throws. -/
def step (aliases : Aliases) (heap : Heap) : Action → Option Heap
  | .create obj =>
      if (heap.objects obj).isNone then
        some { heap with objects := Function.update heap.objects obj (some ⟨∅, none⟩) }
      else none
  | .createService obj id =>
      if (heap.objects obj).isNone then
        if id ∈ heap.services then some heap
        else
          some { heap with
            objects := Function.update heap.objects obj (some ⟨∅, some id⟩)
            services := heap.services.insert id obj }
      else none
  | .destroy obj => (heap.objects obj).map (heap.destroy obj)
  | .unregister obj => ((heap.objects obj).bind Object.service).map heap.unregister
  | .make r obj =>
      if (heap.refs r).isNone ∧ obj.all fun obj => (heap.objects obj).isSome then
        some ((heap.setRef r (some ⟨false, obj, none⟩)).attach r)
      else none
  | .makeService r id =>
      if (heap.refs r).isNone then some (heap.setRef r (some ⟨false, none, some id⟩)) else none
  | .copy r other =>
      if (heap.refs r).isNone then
        (heap.refs other).map fun source => (heap.setRef r (some source)).attach r
      else none
  | .assign r other =>
      (heap.refs r).bind fun own => (heap.refs other).bind fun source =>
        if r = other then some heap
        else if own.service.isSome = source.service.isSome then heap.assign aliases r own source
        else none
  | .test r => heap.resolve aliases r
  | .drop r => (heap.refs r).map fun _ => (heap.detach r).setRef r none
  | .setServiceName r newname => heap.setService r fun id => (id.1, newname)
  | .setServiceType r newtype => heap.setService r fun id => (newtype, id.2)

/-! ## What refers to what -/

namespace Heap

/-- The references that an object would invalidate. -/
def references (heap : Heap) (obj : Addr) : Finset Addr :=
  (heap.objects obj).elim ∅ Object.references

/-- The type and the name under which a service was made. -/
def serviceOf (heap : Heap) (obj : Addr) : Option ServiceId :=
  (heap.objects obj).bind Object.service

/-- What a reference to a service asks for. -/
def asksFor (heap : Heap) (r : Addr) : Option ServiceId :=
  (heap.refs r).bind Ref.service

/-- A registered name leads to the live service that was made under it, and an object knows the
references that refer to it. -/
structure Backed (heap : Heap) : Prop where
  registered : ∀ {id obj}, heap.services.lookup id = some obj → heap.serviceOf obj = some id
  known : ∀ {r obj}, heap.target r = some obj → r ∈ heap.references obj

/-- The objects know just the references that refer to them, and no access went astray. -/
structure Agreement (heap : Heap) : Prop where
  agree : ∀ r obj, r ∈ heap.references obj ↔ heap.target r = some obj
  intact : heap.dangling = false

variable {heap next last : Heap} {r x obj y : Addr} {ref : Option Ref} {id : ServiceId}

@[simp]
theorem target_setRef (heap : Heap) (r : Addr) (ref : Option Ref) (x : Addr) :
    (heap.setRef r ref).target x = if x = r then ref.bind Ref.target else heap.target x := by
  by_cases same : x = r <;> simp [setRef, target, same]

@[simp]
theorem references_setRef (heap : Heap) (r : Addr) (ref : Option Ref) (obj : Addr) :
    (heap.setRef r ref).references obj = heap.references obj := rfl

@[simp]
theorem target_changeReferences (change : Finset Addr → Finset Addr) :
    (heap.changeReferences obj change).target r = heap.target r := by
  unfold changeReferences
  split <;> rfl

@[simp]
theorem refs_changeReferences (change : Finset Addr → Finset Addr) :
    (heap.changeReferences obj change).refs = heap.refs := by
  unfold changeReferences
  split <;> rfl

@[simp]
theorem services_changeReferences (change : Finset Addr → Finset Addr) :
    (heap.changeReferences obj change).services = heap.services := by
  unfold changeReferences
  split <;> rfl

@[simp]
theorem serviceOf_changeReferences (change : Finset Addr → Finset Addr) :
    (heap.changeReferences obj change).serviceOf y = heap.serviceOf y := by
  unfold changeReferences
  split
  · next object isObject =>
      by_cases same : y = obj <;>
        simp [serviceOf, same, isObject]
  · rfl

@[simp]
theorem isSome_objects_changeReferences (change : Finset Addr → Finset Addr) :
    ((heap.changeReferences obj change).objects y).isSome = (heap.objects y).isSome := by
  unfold changeReferences
  split
  · next object isObject =>
      by_cases same : y = obj <;> simp [same, isObject]
  · rfl

theorem references_changeReferences (live : (heap.objects obj).isSome)
    (change : Finset Addr → Finset Addr) :
    (heap.changeReferences obj change).references y =
      if y = obj then change (heap.references obj) else heap.references y := by
  obtain ⟨object, isObject⟩ := Option.isSome_iff_exists.mp live
  by_cases same : y = obj <;>
    simp [changeReferences, references, isObject, same]

theorem dangling_changeReferences (live : (heap.objects obj).isSome)
    (change : Finset Addr → Finset Addr) :
    (heap.changeReferences obj change).dangling = heap.dangling := by
  obtain ⟨object, isObject⟩ := Option.isSome_iff_exists.mp live
  simp [changeReferences, isObject]

theorem isSome_objects_of_mem (mem : r ∈ heap.references obj) : (heap.objects obj).isSome := by
  cases isObject : heap.objects obj with
  | none => simp [references, isObject] at mem
  | some object => rfl

theorem isSome_objects_of_serviceOf (isService : heap.serviceOf obj = some id) :
    (heap.objects obj).isSome := by
  cases isObject : heap.objects obj with
  | none => simp [serviceOf, isObject] at isService
  | some object => rfl

/-- Only one reference is written, and what it left behind it had left behind before. -/
structure Touches (heap next : Heap) (r : Addr) : Prop where
  objects : ∀ obj, (next.objects obj).isSome = (heap.objects obj).isSome
  serviceOf : ∀ obj, next.serviceOf obj = heap.serviceOf obj
  services : next.services = heap.services
  dangling : next.dangling = heap.dangling
  refs : ∀ {x}, x ≠ r → next.refs x = heap.refs x
  mem_references : ∀ {x}, x ≠ r → ∀ obj, x ∈ next.references obj ↔ x ∈ heap.references obj
  stale : ∀ {obj}, r ∈ next.references obj →
    next.target r = some obj ∨ (r ∈ heap.references obj ∧ heap.target r ≠ some obj)

theorem Touches.target (touches : Touches heap next r) (other : x ≠ r) :
    next.target x = heap.target x :=
  congrArg (Option.bind · Ref.target) (touches.refs other)

theorem Touches.trans (first : Touches heap next r) (second : Touches next last r) :
    Touches heap last r where
  objects obj := (second.objects obj).trans (first.objects obj)
  serviceOf obj := (second.serviceOf obj).trans (first.serviceOf obj)
  services := second.services.trans first.services
  dangling := second.dangling.trans first.dangling
  refs other := (second.refs other).trans (first.refs other)
  mem_references other obj :=
    (second.mem_references other obj).trans (first.mem_references other obj)
  stale mem := by
    rcases second.stale mem with aimed | ⟨mem, away⟩
    · exact .inl aimed
    · rcases first.stale mem with aimed | before
      · exact absurd aimed away
      · exact .inr before

theorem touches_self (heap : Heap) (r : Addr) : Touches heap heap r where
  objects _ := rfl
  serviceOf _ := rfl
  services := rfl
  dangling := rfl
  refs _ := rfl
  mem_references _ _ := Iff.rfl
  stale {obj} mem := by
    by_cases aimed : heap.target r = some obj
    · exact .inl aimed
    · exact .inr ⟨mem, aimed⟩

theorem touches_setRef (kept : ∀ obj, heap.target r = some obj → ref.bind Ref.target = some obj) :
    Touches heap (heap.setRef r ref) r where
  objects _ := rfl
  serviceOf _ := rfl
  services := rfl
  dangling := rfl
  refs other := Function.update_of_ne other _ _
  mem_references _ _ := Iff.rfl
  stale {obj} mem := by
    rw [target_setRef, if_pos rfl]
    by_cases aimed : heap.target r = some obj
    · exact .inl (kept obj aimed)
    · exact .inr ⟨mem, aimed⟩

/-- What a reference refers to is live. -/
def Aimed (heap : Heap) (r : Addr) : Prop :=
  ∀ obj, heap.target r = some obj → (heap.objects obj).isSome

theorem Aimed.attach (aimed : heap.Aimed r) :
    Touches heap (heap.attach r) r ∧ (heap.attach r).target r = heap.target r ∧
      ∀ obj, heap.target r = some obj → r ∈ (heap.attach r).references obj := by
  unfold Heap.attach
  split
  · next obj isTarget =>
      have live := aimed obj isTarget
      refine ⟨⟨?_, ?_, ?_, ?_, ?_, ?_, ?_⟩, ?_, ?_⟩
      · exact fun _ => isSome_objects_changeReferences _
      · exact fun _ => serviceOf_changeReferences _
      · exact services_changeReferences _
      · exact dangling_changeReferences live _
      · exact fun _ => congrFun (refs_changeReferences _) _
      · intro x other y
        rw [addReference, references_changeReferences live]
        split
        · next same => rw [Finset.mem_insert, same, or_iff_right other]
        · exact Iff.rfl
      · intro y mem
        rw [addReference, target_changeReferences]
        rw [addReference, references_changeReferences live] at mem
        split at mem
        · next same => exact .inl (same ▸ isTarget)
        · next differ =>
            exact .inr ⟨mem, fun aimed => differ (Option.some.inj (aimed.symm.trans isTarget))⟩
      · exact target_changeReferences _
      · intro y isTarget'
        cases isTarget.symm.trans isTarget'
        rw [addReference, references_changeReferences live, if_pos rfl]
        exact Finset.mem_insert_self r _
  · next none =>
      exact ⟨touches_self heap r, rfl, fun obj isTarget => absurd isTarget (by simp [none])⟩

/-- A reference is written after the object that it referred to has dropped it. -/
theorem Aimed.detach_setRef (aimed : heap.Aimed r) (ref : Option Ref) :
    Touches heap ((heap.detach r).setRef r ref) r := by
  unfold Heap.detach
  split
  · next obj isTarget =>
      have live := aimed obj isTarget
      refine ⟨?_, ?_, ?_, ?_, ?_, ?_, ?_⟩
      · exact fun _ => isSome_objects_changeReferences _
      · exact fun _ => serviceOf_changeReferences _
      · exact services_changeReferences _
      · exact dangling_changeReferences live _
      · intro x other
        exact (Function.update_of_ne other _ _).trans (congrFun (refs_changeReferences _) x)
      · intro x other y
        rw [references_setRef, delReference, references_changeReferences live]
        split
        · next same => rw [Finset.mem_erase, same, and_iff_right other]
        · exact Iff.rfl
      · intro y mem
        rw [references_setRef, delReference, references_changeReferences live] at mem
        split at mem
        · exact absurd mem (Finset.notMem_erase r _)
        · next differ =>
            exact .inr ⟨mem, fun aimed => differ (Option.some.inj (aimed.symm.trans isTarget))⟩
  · next none => exact touches_setRef fun obj isTarget => absurd isTarget (by simp [none])

theorem Backed.aimed (backed : heap.Backed) : heap.Aimed r :=
  fun _ isTarget => isSome_objects_of_mem (backed.known isTarget)

/-- The registry and the other references of a heap are in order, and what one reference refers to
is live. -/
structure Fit (heap : Heap) (r : Addr) : Prop where
  registered : ∀ {id obj}, heap.services.lookup id = some obj → heap.serviceOf obj = some id
  aimed : heap.Aimed r

theorem Backed.fit (backed : heap.Backed) : heap.Fit r :=
  ⟨backed.registered, backed.aimed⟩

theorem Fit.of_touches (fit : heap.Fit r) (touches : Touches heap next r)
    (aimed : ∀ obj, next.target r = some obj → (heap.objects obj).isSome) : next.Fit r where
  registered found := by
    rw [touches.serviceOf]
    exact fit.registered (touches.services ▸ found)
  aimed obj isTarget := (touches.objects obj).trans (aimed obj isTarget)

theorem Backed.of_touches (backed : heap.Backed) (touches : Touches heap next r)
    (known : ∀ obj, next.target r = some obj → r ∈ next.references obj) : next.Backed where
  registered found := by
    rw [touches.serviceOf]
    exact backed.registered (touches.services ▸ found)
  known {x obj} isTarget := by
    by_cases same : x = r
    · exact same ▸ known obj (same ▸ isTarget)
    · rw [touches.target same] at isTarget
      exact (touches.mem_references same obj).mpr (backed.known isTarget)

theorem Agreement.of_touches (agreement : heap.Agreement) (touches : Touches heap next r)
    (known : ∀ obj, next.target r = some obj → r ∈ next.references obj) : next.Agreement where
  agree x obj := by
    by_cases same : x = r
    · subst same
      refine ⟨fun mem => ?_, known obj⟩
      rcases touches.stale mem with aimed | ⟨mem, away⟩
      · exact aimed
      · exact absurd ((agreement.agree x obj).mp mem) away
    · rw [touches.target same, touches.mem_references same]
      exact agreement.agree x obj
  intact := touches.dangling.trans agreement.intact

end Heap

section Finding

open Library.While

variable {services : Services} {aliases : Aliases} {id : ServiceId} {obj : Addr}

/-- An alias leads from one name to another one. -/
def LeadsTo (aliases : Aliases) (t : Str) : Str → Str → Prop :=
  Relation.ReflTransGen fun n n' => aliases.lookup (t, n) = some n'

/-- What is found is registered under a name to which the aliases lead. -/
theorem exists_lookup_of_findService (found : findService services aliases id = some (some obj)) :
    ∃ n, LeadsTo aliases id.1 id.2 n ∧ services.lookup (id.1, n) = some obj := by
  unfold findService at found
  split at found
  · refine @Ends.of_passes _ _ _ _ _ (LeadsTo aliases id.1 id.2)
      (fun result => ∀ obj, result = some obj →
        ∃ n, LeadsTo aliases id.1 id.2 n ∧ services.lookup (id.1, n) = some obj)
      ?_ ?_ Relation.ReflTransGen.refl ⟨_, found⟩ obj rfl
    · intro n n' leads pass
      unfold findBody at pass
      split at pass
      · cases pass
      · split at pass
        · next target isAlias =>
            cases pass
            exact leads.tail isAlias
        · cases pass
    · intro n result leads pass obj isObj
      unfold findBody at pass
      split at pass
      · next service isService =>
          cases pass
          cases isObj
          exact ⟨n, leads, isService⟩
      · split at pass <;> cases pass
        cases isObj
  · cases found

end Finding

namespace Heap

variable {aliases : Aliases} {heap next : Heap} {r obj : Addr} {own source : Ref}

/-- What `operator bool` does: nothing, or a search. -/
theorem resolve_cases (resolved : heap.resolve aliases r = some next) :
    (next = heap ∧ (heap.asksFor r = none ∨ heap.target r ≠ none)) ∨
    ∃ id found, heap.asksFor r = some id ∧ heap.target r = none ∧
      findService heap.services aliases id = some found ∧
      next = (heap.setRef r (some ⟨false, found, some id⟩)).attach r := by
  obtain ⟨ref, isRef, resolved⟩ := Option.bind_eq_some_iff.mp resolved
  have asks : heap.asksFor r = ref.service := by simp [asksFor, isRef]
  have isTarget : heap.target r = ref.target := by simp [Heap.target, isRef]
  rw [asks, isTarget]
  split at resolved
  · next id isId none =>
      obtain ⟨found, isFound, rfl⟩ := Option.map_eq_some_iff.mp resolved
      exact .inr ⟨id, found, isId, none, isFound, rfl⟩
  · next differ =>
      refine .inl ⟨(Option.some.inj resolved).symm, ?_⟩
      cases service : ref.service with
      | none => exact .inl rfl
      | some id => exact .inr (differ id service)

theorem Fit.resolve (fit : heap.Fit r) (resolved : heap.resolve aliases r = some next) :
    Touches heap next r ∧ next.Fit r ∧
      ((∀ obj, heap.target r = some obj → r ∈ heap.references obj) →
        ∀ obj, next.target r = some obj → r ∈ next.references obj) := by
  rcases resolve_cases resolved with ⟨rfl, -⟩ | ⟨id, found, -, none, isFound, rfl⟩
  · exact ⟨touches_self _ r, fit, id⟩
  · have written : Touches heap (heap.setRef r (some ⟨false, found, some id⟩)) r :=
      touches_setRef fun obj isTarget => absurd isTarget (by simp [none])
    have isTarget : (heap.setRef r (some ⟨false, found, some id⟩)).target r = found := by
      simp [Ref.target]
    have live : ∀ obj, found = some obj → (heap.objects obj).isSome := by
      rintro obj rfl
      obtain ⟨n, -, isService⟩ := exists_lookup_of_findService isFound
      exact isSome_objects_of_serviceOf (fit.registered isService)
    have aimed : (heap.setRef r (some ⟨false, found, some id⟩)).Aimed r := fun obj aims =>
      live obj (isTarget.symm.trans aims)
    obtain ⟨attached, same, known⟩ := aimed.attach
    refine ⟨written.trans attached, fit.of_touches (written.trans attached) ?_,
      fun _ obj aims => ?_⟩
    · exact fun obj aims => aimed obj (same.symm.trans aims)
    · exact known obj (same.symm.trans aims)

/-- An assignment is a search, a write after the old object has dropped the reference, a second
search, and the call of `AddReference`. -/
theorem Fit.assign (fit : heap.Fit r)
    (live : ∀ obj, source.target = some obj → (heap.objects obj).isSome)
    (assigned : heap.assign aliases r own source = some next) :
    Touches heap next r ∧ ∀ obj, next.target r = some obj → r ∈ next.references obj := by
  obtain ⟨first, isFirst, assigned⟩ := Option.bind_eq_some_iff.mp assigned
  obtain ⟨second, isSecond, rfl⟩ := Option.map_eq_some_iff.mp assigned
  obtain ⟨searched, fitFirst, -⟩ := fit.resolve isFirst
  have written := fitFirst.aimed.detach_setRef (some ⟨source.invalid, source.ref, own.service⟩)
  have fitWritten := fitFirst.of_touches written fun obj aims => by
    rw [searched.objects]
    exact live obj (by simpa [Ref.target] using aims)
  obtain ⟨searched', fitSecond, -⟩ := fitWritten.resolve isSecond
  obtain ⟨attached, same, known⟩ := fitSecond.aimed.attach
  have keeps : (((second.attach r).refs r).map fun ref =>
      { ref with service := source.service }).bind Ref.target = (second.attach r).target r := by
    rw [Option.bind_map]
    rfl
  have renamed := touches_setRef fun obj aims => keeps.trans aims
  refine ⟨(((searched.trans written).trans searched').trans attached).trans renamed, ?_⟩
  intro obj aims
  rw [target_setRef, if_pos rfl, keeps, same] at aims
  exact known obj aims

/-- A new reference with the address of a live object. -/
theorem Fit.make {ref : Ref} (fit : heap.Fit r) (new : heap.refs r = none)
    (live : ∀ obj, ref.target = some obj → (heap.objects obj).isSome) :
    Touches heap ((heap.setRef r (some ref)).attach r) r ∧
      ∀ obj, ((heap.setRef r (some ref)).attach r).target r = some obj →
        r ∈ ((heap.setRef r (some ref)).attach r).references obj := by
  have written : Touches heap (heap.setRef r (some ref)) r :=
    touches_setRef fun obj isTarget => absurd isTarget (by simp [Heap.target, new])
  have isTarget : (heap.setRef r (some ref)).target r = ref.target := by simp
  have fitWritten := fit.of_touches written fun obj aims => live obj (isTarget.symm.trans aims)
  obtain ⟨attached, same, known⟩ := fitWritten.aimed.attach
  exact ⟨written.trans attached, fun obj aims => known obj (same.symm.trans aims)⟩

variable {object : Object} {x y : Addr} {id : ServiceId}

theorem target_destroy (isObject : heap.objects obj = some object) :
    (heap.destroy obj object).target x =
      if x ∈ heap.references obj then none else heap.target x := by
  have same : (heap.destroy obj object).refs x =
      if x ∈ object.references then (heap.refs x).map fun ref => { ref with invalid := true }
      else heap.refs x := by
    unfold Heap.destroy
    cases object.service <;> rfl
  have mem : x ∈ heap.references obj ↔ x ∈ object.references := by
    simp [Heap.references, isObject]
  simp only [Heap.target, same, mem]
  split
  · rw [Option.bind_map]
    cases heap.refs x <;> rfl
  · rfl

theorem references_destroy :
    (heap.destroy obj object).references y = if y = obj then ∅ else heap.references y := by
  have same : (heap.destroy obj object).objects = Function.update heap.objects obj none := by
    unfold Heap.destroy
    cases object.service <;> rfl
  by_cases isObj : y = obj <;> simp [Heap.references, same, isObj]

theorem serviceOf_destroy (differ : y ≠ obj) :
    (heap.destroy obj object).serviceOf y = heap.serviceOf y := by
  have same : (heap.destroy obj object).objects = Function.update heap.objects obj none := by
    unfold Heap.destroy
    cases object.service <;> rfl
  simp [Heap.serviceOf, same, differ]

theorem lookup_of_lookup_erase {id' : ServiceId}
    (found : (heap.services.erase id).lookup id' = some y) :
    id' ≠ id ∧ heap.services.lookup id' = some y := by
  have differ : id' ≠ id := by
    rintro rfl
    simp at found
  exact ⟨differ, (AList.lookup_erase_ne differ).symm.trans found⟩

theorem Backed.destroy (backed : heap.Backed) (isObject : heap.objects obj = some object) :
    (heap.destroy obj object).Backed where
  registered {id y} found := by
    have isService : heap.serviceOf obj = object.service := by simp [Heap.serviceOf, isObject]
    have before : heap.services.lookup id = some y ∧ object.service ≠ some id := by
      cases service : object.service with
      | none =>
          simp only [Heap.destroy, service, Option.elim] at found
          exact ⟨found, by simp⟩
      | some id' =>
          simp only [Heap.destroy, service, Option.elim] at found
          obtain ⟨differ, found⟩ := lookup_of_lookup_erase found
          exact ⟨found, fun same => differ (Option.some.inj same).symm⟩
    have registered := backed.registered before.1
    have differ : y ≠ obj := by
      rintro rfl
      exact before.2 (isService.symm.trans registered)
    rw [serviceOf_destroy differ, registered]
  known {x y} aims := by
    rw [target_destroy isObject] at aims
    split at aims
    · cases aims
    · next notMem =>
        have mem := backed.known aims
        have differ : y ≠ obj := fun same => notMem (same ▸ mem)
        rwa [references_destroy, if_neg differ]

theorem Agreement.destroy (agreement : heap.Agreement) (isObject : heap.objects obj = some object) :
    (heap.destroy obj object).Agreement where
  agree x y := by
    rw [target_destroy isObject, references_destroy]
    by_cases mem : x ∈ heap.references obj
    · have aims := (agreement.agree x obj).mp mem
      rw [if_pos mem]
      refine iff_of_false ?_ (by simp)
      split
      · exact Finset.notMem_empty x
      · next differ =>
          intro mem'
          exact differ (Option.some.inj (((agreement.agree x y).mp mem').symm.trans aims))
    · rw [if_neg mem, ← agreement.agree x y]
      split
      · next same => exact iff_of_false (Finset.notMem_empty x) (same ▸ mem)
      · exact Iff.rfl
  intact := by
    have same : (heap.destroy obj object).dangling =
        (heap.dangling || decide (∃ r ∈ object.references, (heap.refs r).isNone)) := by
      unfold Heap.destroy
      cases object.service <;> rfl
    rw [same, agreement.intact, Bool.false_or, decide_eq_false_iff_not]
    rintro ⟨r, mem, gone⟩
    have aims := (agreement.agree r obj).mp (by simpa [Heap.references, isObject] using mem)
    rw [Heap.target, Option.isNone_iff_eq_none.mp gone] at aims
    cases aims

end Heap

/-! ## Steps -/

/-- The reference that an action is about, where it may come to refer to another object. -/
def Action.reference : Action → Option Addr
  | .make r _ | .makeService r _ | .copy r _ | .assign r _ | .test r | .drop r => some r
  | .create _ | .createService _ _ | .destroy _ | .unregister _ | .setServiceName _ _
  | .setServiceType _ _ => none

section Steps

variable {aliases : Aliases} {heap next : Heap} {action : Action} {r obj : Addr}

open Heap

theorem touches_of_step (backed : heap.Backed) (about : action.reference = some r)
    (stepped : step aliases heap action = some next) :
    Touches heap next r ∧ ∀ obj, next.target r = some obj → r ∈ next.references obj := by
  cases action with
  | make r' obj' =>
      cases about
      obtain ⟨⟨new, live⟩, rfl⟩ := Option.ite_none_right_eq_some.mp stepped |>.imp_right
        Option.some.inj
      refine backed.fit.make (Option.isNone_iff_eq_none.mp new) fun obj aims => ?_
      have isObj : obj' = some obj := by simpa [Ref.target] using aims
      simpa [isObj] using live
  | makeService r' id =>
      cases about
      obtain ⟨new, rfl⟩ := Option.ite_none_right_eq_some.mp stepped |>.imp_right Option.some.inj
      refine ⟨touches_setRef fun obj aims => ?_, fun obj aims => ?_⟩
      · exact absurd aims (by simp [Heap.target, Option.isNone_iff_eq_none.mp new])
      · simp [Ref.target] at aims
  | copy r' other =>
      cases about
      obtain ⟨new, copied⟩ := Option.ite_none_right_eq_some.mp stepped
      obtain ⟨source, isSource, rfl⟩ := Option.map_eq_some_iff.mp copied
      refine backed.fit.make (Option.isNone_iff_eq_none.mp new) fun obj aims => ?_
      exact backed.aimed obj (r := other) (by simpa [Heap.target, isSource] using aims)
  | assign r' other =>
      cases about
      obtain ⟨own, -, assigned⟩ := Option.bind_eq_some_iff.mp stepped
      obtain ⟨source, isSource, assigned⟩ := Option.bind_eq_some_iff.mp assigned
      split at assigned
      · cases assigned
        exact ⟨touches_self heap r, fun obj => backed.known⟩
      · refine backed.fit.assign (fun obj aims => ?_)
          (Option.ite_none_right_eq_some.mp assigned).2
        exact backed.aimed obj (r := other) (by simpa [Heap.target, isSource] using aims)
  | test r' =>
      cases about
      obtain ⟨touches, -, known⟩ := backed.fit.resolve stepped
      exact ⟨touches, known fun obj => backed.known⟩
  | drop r' =>
      cases about
      obtain ⟨ref, -, rfl⟩ := Option.map_eq_some_iff.mp stepped
      exact ⟨backed.aimed.detach_setRef none, fun obj aims => absurd aims (by simp)⟩
  | create | createService | destroy | unregister | setServiceName | setServiceType => cases about

/-- A new object, at an address where none is. -/
theorem create_spec (backed : heap.Backed) (new : heap.objects obj = none)
    (service : Option ServiceId) {services : Services}
    (registered : ∀ id y, services.lookup id = some y →
      heap.services.lookup id = some y ∨ y = obj ∧ service = some id) :
    let next : Heap :=
      { heap with objects := Function.update heap.objects obj (some ⟨∅, service⟩), services }
    next.Backed ∧ (heap.Agreement → next.Agreement) := by
  have known : ∀ y, Heap.references
      { heap with objects := Function.update heap.objects obj (some ⟨∅, service⟩), services } y =
      heap.references y := fun y => by
    by_cases same : y = obj <;> simp [references, same, new]
  refine ⟨⟨fun {id y} found => ?_, fun {x y} aims => ?_⟩, fun agreement => ⟨fun x y => ?_, ?_⟩⟩
  · rcases registered id y found with before | ⟨rfl, isService⟩
    · have differ : y ≠ obj := by
        rintro rfl
        have live := isSome_objects_of_serviceOf (backed.registered before)
        rw [new] at live
        cases live
      simpa [serviceOf, differ] using backed.registered before
    · simp [serviceOf, isService]
  · rw [known]
    exact backed.known aims
  · rw [known]
    exact agreement.agree x y
  · exact agreement.intact

/-- A reference that asks for something else refers to nothing. -/
theorem setService_spec {change : ServiceId → ServiceId}
    (changed : heap.setService r change = some next) :
    ∃ ref, next = heap.setRef r (some ref) ∧ ref.target = none := by
  obtain ⟨ref, -, changed⟩ := Option.bind_eq_some_iff.mp changed
  obtain ⟨id, -, rfl⟩ := Option.map_eq_some_iff.mp changed
  exact ⟨_, rfl, rfl⟩

/-- A reference is made to ask for something else. -/
theorem setService_keeps {change : ServiceId → ServiceId} (backed : heap.Backed)
    (changed : heap.setService r change = some next) :
    next.Backed ∧ (heap.Agreement → (next.Agreement ↔ heap.target r = none)) := by
  obtain ⟨ref, rfl, gone⟩ := setService_spec changed
  refine ⟨⟨backed.registered, fun {x y} aims => ?_⟩, fun agreement =>
    ⟨fun after => ?_, fun none => ?_⟩⟩
  · rw [target_setRef] at aims
    split at aims
    · exact absurd aims (by simp [gone])
    · exact backed.known aims
  · refine Option.eq_none_iff_forall_ne_some.mpr fun obj aims => ?_
    have mem := (agreement.agree r obj).mpr aims
    exact absurd ((after.agree r obj).mp mem) (by simp [gone])
  · refine ⟨fun x y => ?_, agreement.intact⟩
    rw [references_setRef, agreement.agree, target_setRef]
    split
    · next same => simp [same, gone, none]
    · exact Iff.rfl

/-- A reference to a service is made to ask for something else while it refers to nothing. -/
def Unresolved (heap : Heap) : Action → Prop
  | .setServiceName r _ | .setServiceType r _ => heap.target r = none
  | _ => True

/-- What an action does to the invariant, and when it keeps the agreement. -/
theorem step_spec (backed : heap.Backed) (stepped : step aliases heap action = some next) :
    next.Backed ∧ (heap.Agreement → (next.Agreement ↔ Unresolved heap action)) := by
  cases action with
  | setServiceName r newname => exact setService_keeps backed stepped
  | setServiceType r newtype => exact setService_keeps backed stepped
  | create obj =>
      obtain ⟨new, rfl⟩ := Option.ite_none_right_eq_some.mp stepped |>.imp_right Option.some.inj
      refine (create_spec backed (Option.isNone_iff_eq_none.mp new) none fun _ _ => .inl).imp_right
        fun keeps agreement => iff_of_true (keeps agreement) trivial
  | createService obj id =>
      obtain ⟨new, made⟩ := Option.ite_none_right_eq_some.mp stepped
      split at made
      · cases made
        exact ⟨backed, fun agreement => iff_of_true agreement trivial⟩
      cases made
      refine (create_spec backed (Option.isNone_iff_eq_none.mp new) (some id) ?_).imp_right
        fun keeps agreement => iff_of_true (keeps agreement) trivial
      intro id' y found
      by_cases same : id' = id
      · subst same
        rw [AList.lookup_insert] at found
        exact .inr ⟨(Option.some.inj found).symm, rfl⟩
      · exact .inl ((AList.lookup_insert_ne same).symm.trans found)
  | destroy obj =>
      obtain ⟨object, isObject, rfl⟩ := Option.map_eq_some_iff.mp stepped
      exact ⟨backed.destroy isObject,
        fun agreement => iff_of_true (agreement.destroy isObject) trivial⟩
  | unregister obj =>
      obtain ⟨id, -, rfl⟩ := Option.map_eq_some_iff.mp stepped
      exact ⟨⟨fun found => backed.registered (lookup_of_lookup_erase found).2, backed.known⟩,
        fun agreement => iff_of_true ⟨agreement.agree, agreement.intact⟩ trivial⟩
  | make r | makeService r | copy r | assign r | test r | drop r =>
      obtain ⟨touches, known⟩ := touches_of_step backed rfl stepped
      exact ⟨backed.of_touches touches known,
        fun agreement => iff_of_true (agreement.of_touches touches known) trivial⟩

theorem initial_backed : initial.Backed where
  registered found := by
    rw [Heap.initial, AList.lookup_empty] at found
    cases found
  known aims := by cases aims

theorem initial_agreement : initial.Agreement where
  agree _ _ := iff_of_false (Finset.notMem_empty _) (by simp [Heap.target, Heap.initial])
  intact := rfl

/-- Whatever is done, a reference that tests true refers to a live object, which knows of it, and
what a name is registered to is a live service made under that name. -/
theorem references_always_backed (actions : List Action) :
    Always (step aliases) Heap.Backed initial actions :=
  always_of_step (fun backed stepped => (step_spec backed stepped).1) initial_backed actions

/-- Objects and references agree in the whole of a run, with no access to memory that is gone,
exactly when no reference that refers to a service is made to ask for another one. -/
theorem always_agreement_iff (actions : List Action) :
    Always (step aliases) Heap.Agreement initial actions ↔
      EachStep (step aliases) Unresolved initial actions :=
  always_iff_eachStep Heap.Backed (fun backed stepped => (step_spec backed stepped).1)
    (fun backed agreement stepped => (step_spec backed stepped).2 agreement) initial_backed
    initial_agreement actions

/-- A reference is renamed while it refers to a service, and is gone before the service. -/
example :
    (run (step ∅) initial
        [.createService 1 ([84], [120]), .makeService 2 ([84], [120]), .test 2,
          .setServiceName 2 [120], .drop 2, .destroy 1]).map Heap.dangling = some true := by
  decide

end Steps

end Anope.Lifetime
