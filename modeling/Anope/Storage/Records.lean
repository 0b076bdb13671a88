import Anope.Storage.Data

/-!
# Session exceptions and X-lines in the database

`Serialize` and `Unserialize` of the session exceptions and the X-lines, and
which objects an unserialized row is equal to.  Times are the values of a
64-bit `time_t`.
-/

namespace Anope.Storage

open Anope.Text.Convert

/-! ## Session exceptions -/

/-- `OperServ::Exception`. -/
structure Exception where
  mask : Str
  limit : BitVec 32
  who : Str
  reason : Str
  time : BitVec 64
  expires : BitVec 64
  deriving DecidableEq, Repr

namespace Exception

/-- `ExceptionType::Serialize`, which leaves the expiry out. -/
def serialize (ex : Exception) : Fields :=
  (((((Fields.empty.store .text (ascii "mask") ex.mask).store
    (.unsigned 32) (ascii "limit") ex.limit).store
    .text (ascii "who") ex.who).store
    .text (ascii "reason") ex.reason).store
    (.signed 64) (ascii "time") ex.time)

/-- `ExceptionType::Unserialize`: every member of the given object, or of a new
one, is loaded.  Without the session service there is no object. -/
def unserialize (sessionService : Bool) (_obj : Option Exception) (data : Fields) :
    Option Exception :=
  if sessionService then
    some
      { mask := data.load .text (ascii "mask")
        limit := data.load (.unsigned 32) (ascii "limit")
        who := data.load .text (ascii "who")
        reason := data.load .text (ascii "reason")
        time := data.load (.signed 64) (ascii "time")
        expires := data.load (.signed 64) (ascii "expires") }
  else none

/-- No text of the exception is longer than a line. -/
def OneLine (ex : Exception) : Prop :=
  10 ∉ ex.mask ∧ 10 ∉ ex.who ∧ 10 ∉ ex.reason

/-- The exception that its row is unserialized to. -/
def reloaded (ex : Exception) : Exception where
  mask := lineOf ex.mask
  limit := ex.limit
  who := lineOf ex.who
  reason := lineOf ex.reason
  time := ex.time
  expires := 0

theorem unserialize_serialize (ex : Exception) (obj : Option Exception) :
    unserialize true obj ex.serialize = some ex.reloaded := by
  rw [unserialize, if_pos rfl, reloaded, serialize]
  simp (disch := decide) only [Fields.load_store_self, Fields.load_store_ne, Fields.load_empty,
    FieldType.load_signed, FieldType.load_unsigned]
  rfl

theorem reloaded_eq_self_iff (ex : Exception) : ex.reloaded = ex ↔ ex.OneLine ∧ ex.expires = 0 := by
  cases ex with
  | mk mask limit who reason time expires =>
      rw [reloaded, OneLine]
      simp only [mk.injEq, lineOf_eq_self_iff, true_and, eq_comm (a := expires)]
      tauto

/-- An exception comes back exactly if it never expires. -/
theorem unserialize_serialize_iff (sessionService : Bool) (ex : Exception)
    (obj : Option Exception) :
    unserialize sessionService obj ex.serialize = some ex ↔
      sessionService = true ∧ ex.OneLine ∧ ex.expires = 0 := by
  cases sessionService with
  | false => exact iff_of_false (fun same => nomatch same) fun registered => nomatch registered.1
  | true =>
      rw [unserialize_serialize, Option.some.injEq, reloaded_eq_self_iff]
      exact (and_iff_right rfl).symm

end Exception

/-! ## X-lines -/

/-- The services of type `XLineManager`: what a name refers to, aliases included,
and the names of the managers. -/
structure Managers (μ : Type) where
  service : Str → Option μ
  name : μ → Str

/-- `XLine`. -/
structure XLine (μ : Type) where
  mask : Str
  by_ : Str
  created : BitVec 64
  expires : BitVec 64
  reason : Str
  id : Str
  manager : Option μ
  deriving DecidableEq, Repr

/-- An X-line in the memory, and whether the list of its manager has it. -/
structure Existing (μ : Type) where
  line : XLine μ
  listed : Bool

/-- The line can be given to a manager: it is its own already, or it has another
one whose `DelXLine` does not find it. -/
def Existing.Movable {μ : Type} (old : Existing μ) (xlm : μ) : Prop :=
  old.line.manager = some xlm ∨ old.line.manager ≠ none ∧ old.listed = false

/-- What `XLine::Type::Unserialize` comes to. -/
inductive Unserialized (μ : Type) where
  | null
  /-- A call through a null pointer, or the use of a destroyed line. -/
  | undefined
  | object (x : XLine μ)
  deriving DecidableEq, Repr

namespace XLine

variable {μ : Type} (managers : Managers μ)

/-- `XLine::Type::Serialize`. -/
def serialize (x : XLine μ) : Fields :=
  let data := (((((Fields.empty.store .text (ascii "mask") x.mask).store
    .text (ascii "by") x.by_).store
    (.signed 64) (ascii "created") x.created).store
    (.signed 64) (ascii "expires") x.expires).store
    .text (ascii "reason") x.reason).store
    .text (ascii "uid") x.id
  match x.manager with
  | some manager => data.store .text (ascii "manager") (managers.name manager)
  | none => data

/-- The members that both paths of `Unserialize` take from a row, beside the
expiry. -/
def ofRow (data : Fields) (expires : BitVec 64) (xlm : μ) : XLine μ where
  mask := data.load .text (ascii "mask")
  by_ := data.load .text (ascii "by")
  created := data.load (.signed 64) (ascii "created")
  expires := expires
  reason := data.load .text (ascii "reason")
  id := data.load .text (ascii "uid")
  manager := some xlm

/-- `XLine::Type::Unserialize`.  Only a new line takes its expiry from the row;
a line that changes its manager is deleted from the old one before it is added
to the new one. -/
def unserialize [DecidableEq μ] (obj : Option (Existing μ)) (data : Fields) : Unserialized μ :=
  match managers.service (data.load .text (ascii "manager")) with
  | none => .null
  | some xlm =>
      match obj with
      | some old =>
          -- `DelXLine` destroys a line that it finds in the list
          if old.line.manager ≠ some xlm ∧ (old.line.manager = none ∨ old.listed = true) then
            .undefined
          else .object (ofRow data old.line.expires xlm)
      | none => .object (ofRow data (data.load (.signed 64) (ascii "expires")) xlm)

/-- No text of the line is longer than a line of text. -/
def OneLine (x : XLine μ) : Prop :=
  10 ∉ x.mask ∧ 10 ∉ x.by_ ∧ 10 ∉ x.reason ∧ 10 ∉ x.id

/-- The line has a manager, which the name in its row refers to. -/
def Managed (x : XLine μ) (manager : μ) : Prop :=
  x.manager = some manager ∧
    managers.service (lineOf (managers.name manager)) = some manager

/-- A line in the memory that a row can be loaded into: it expires when the row
does, and it is in the list of the manager of the row or in no list. -/
def Accepts (x : XLine μ) (manager : μ) (old : Existing μ) : Prop :=
  old.line.expires = x.expires ∧ old.Movable manager

/-- When the row of a line is unserialized to the same line. -/
def Restorable (x : XLine μ) (obj : Option (Existing μ)) : Prop :=
  x.OneLine ∧ ∃ manager, x.Managed managers manager ∧ ∀ old ∈ obj, x.Accepts manager old

variable {managers} {x : XLine μ}

theorem load_manager :
    (x.serialize managers).load .text (ascii "manager") =
      x.manager.elim [] fun manager => lineOf (managers.name manager) := by
  rw [serialize]
  cases x.manager with
  | none => simp (disch := decide) only [Fields.load_store_ne, Fields.load_empty]; rfl
  | some manager => rw [Fields.load_store_self]; rfl

theorem load_expires :
    (x.serialize managers).load (.signed 64) (ascii "expires") = x.expires := by
  rw [serialize]
  cases x.manager <;>
    simp (disch := decide) only [Fields.load_store_ne, Fields.load_store_self,
      FieldType.load_signed]

theorem ofRow_serialize (expires : BitVec 64) (xlm : μ) :
    ofRow (x.serialize managers) expires xlm =
      { mask := lineOf x.mask, by_ := lineOf x.by_, created := x.created, expires := expires,
        reason := lineOf x.reason, id := lineOf x.id, manager := some xlm } := by
  rw [ofRow, serialize]
  cases x.manager <;>
    simp (disch := decide) only [Fields.load_store_ne, Fields.load_store_self,
      FieldType.load_signed] <;> rfl

/-- The row of a line gives the line again up to its texts, its expiry and its
manager. -/
theorem ofRow_serialize_eq_iff (expires : BitVec 64) (xlm : μ) :
    ofRow (x.serialize managers) expires xlm = x ↔
      x.OneLine ∧ expires = x.expires ∧ x.manager = some xlm := by
  rw [ofRow_serialize]
  cases x with
  | mk mask by_ created expires reason id manager =>
      simp only [mk.injEq, lineOf_eq_self_iff, true_and, OneLine, eq_comm (a := manager)]
      tauto

variable [DecidableEq μ]

theorem unserialize_eq_object_iff {obj : Option (Existing μ)} {data : Fields} {y : XLine μ} :
    unserialize managers obj data = .object y ↔
      ∃ xlm, managers.service (data.load .text (ascii "manager")) = some xlm ∧
        (∀ old ∈ obj, old.Movable xlm) ∧
        ofRow data (obj.elim (data.load (.signed 64) (ascii "expires")) (·.line.expires)) xlm =
          y := by
  rw [unserialize]
  cases managers.service (data.load .text (ascii "manager")) with
  | none => simp only [reduceCtorEq, false_and, exists_false]
  | some xlm =>
      simp only [Option.some.injEq, exists_eq_left']
      cases obj with
      | none => simp only [Unserialized.object.injEq, Option.elim_none, Option.not_mem_none,
          false_implies, implies_true, true_and]
      | some old =>
          simp only [Option.mem_some_iff, forall_eq', Existing.Movable, Option.elim_some]
          split
          · rename_i bad
            refine iff_of_false (fun same => nomatch same) fun good => ?_
            rcases good.1 with same | ⟨isSome, unlisted⟩
            · exact bad.1 same
            · rcases bad.2 with isNone | listed
              · exact isSome isNone
              · rw [unlisted] at listed
                cases listed
          · rename_i good
            rw [Unserialized.object.injEq]
            refine (and_iff_right ?_).symm
            cases listed : old.listed <;> grind

/-- A line comes back exactly if it is restorable. -/
theorem unserialize_serialize_iff (obj : Option (Existing μ)) :
    unserialize managers obj (x.serialize managers) = .object x ↔ x.Restorable managers obj := by
  rw [unserialize_eq_object_iff, load_manager, load_expires]
  constructor
  · rintro ⟨xlm, found, movable, same⟩
    rw [ofRow_serialize_eq_iff] at same
    rcases same with ⟨oneLine, expires, manager⟩
    rw [manager, Option.elim_some] at found
    refine ⟨oneLine, xlm, ⟨manager, found⟩, fun old isOld => ⟨?_, movable old isOld⟩⟩
    rw [Option.mem_def.mp isOld] at expires
    exact expires
  · rintro ⟨oneLine, xlm, ⟨manager, found⟩, accepts⟩
    rw [manager, Option.elim_some]
    refine ⟨xlm, found, fun old isOld => (accepts old isOld).2, ?_⟩
    rw [ofRow_serialize_eq_iff]
    refine ⟨oneLine, ?_, manager⟩
    cases obj with
    | none => rfl
    | some old => exact (accepts old rfl).1

end XLine

/-- Which session exceptions and X-lines come back from the database, into a new
object and into an existing one. -/
theorem unserialize_iff {μ : Type} [DecidableEq μ] (managers : Managers μ) :
    (∀ sessionService (ex : Exception) obj,
      Exception.unserialize sessionService obj ex.serialize = some ex ↔
        sessionService = true ∧ ex.OneLine ∧ ex.expires = 0) ∧
    (∀ (x : XLine μ) obj,
      XLine.unserialize managers obj (x.serialize managers) = .object x ↔
        x.Restorable managers obj) :=
  ⟨Exception.unserialize_serialize_iff, fun _ => XLine.unserialize_serialize_iff⟩

/-- An exception with an expiry comes back as one that lasts for ever. -/
theorem not_unserialize_expiring :
    ¬∀ ex : Exception, Exception.unserialize true none ex.serialize = some ex := by
  intro all
  let expiring : Exception :=
    { mask := ascii "192.0.2.1", limit := 5, who := ascii "oper", reason := ascii "shared host",
      time := 1700000000, expires := 1700086400 }
  have permanent := ((Exception.unserialize_serialize_iff true expiring none).mp (all expiring)).2.2
  exact absurd permanent (by decide)

end Anope.Storage
