import Anope.Library.Parity
import Anope.Library.Run
import Anope.Library.SortedMap
import Anope.Mode.Core
import Mathlib.Data.List.Lex

/-!
# Serialized fields of the SQL backend

`SQL::Data` keeps the serialized fields of an object by their names, which compare
without case.  Its hash combines the values and forgets the names.
-/

namespace Anope.Sql

open Library Anope.Text

/-- The key of a field. -/
def fieldKey (casemap : Casemap) (field : Str × Str) : Str :=
  casemap.ciStr field.1

/-- `SQL::Data`, with its fields in the order of their keys. -/
structure Data (casemap : Casemap) where
  data : SortedMap (fieldKey casemap)

namespace Data

variable {casemap : Casemap} {w : Nat}

@[ext]
theorem ext {left right : Data casemap} (equal : left.data.entries = right.data.entries) :
    left = right := by
  cases left
  cases right
  exact congrArg mk (SortedMap.ext equal)

instance instDecidableEq : DecidableEq (Data casemap) := fun left right =>
  decidable_of_iff (left.data.entries = right.data.entries)
    ⟨ext, fun equal => congrArg (fun data => data.data.entries) equal⟩

/-- The fields before anything is stored. -/
def empty : Data casemap where
  data := .empty

/-- `Data::StoreInternal`. -/
def storeInternal (data : Data casemap) (key value : Str) : Data casemap where
  data := data.data.assign (key, []) (fun field => (field.1, value)) fun _ => rfl

/-- `Data::Hash`, given `hash_cs`. -/
def hash (hashCs : Str → BitVec w) (data : Data casemap) : BitVec w :=
  data.data.entries.foldl
    (fun hash field => if field.2.isEmpty then hash else hash ^^^ hashCs field.2) 0

/-- The values that are not empty. -/
def values (data : Data casemap) : List Str :=
  (data.data.entries.map Prod.snd).filter fun value => !value.isEmpty

theorem foldl_hash (hashCs : Str → BitVec w) (fields : List (Str × Str)) (start : BitVec w) :
    fields.foldl
        (fun hash field => if field.2.isEmpty then hash else hash ^^^ hashCs field.2) start =
      start ^^^ Parity.xorAll hashCs
        ((fields.map Prod.snd).filter fun value => !value.isEmpty) := by
  induction fields generalizing start with
  | nil => exact BitVec.xor_zero.symm
  | cons field fields ih =>
      rw [List.foldl_cons, ih, List.map_cons]
      cases isEmpty : field.2.isEmpty with
      | true => rw [if_pos rfl, List.filter_cons_of_neg (by simp [isEmpty])]
      | false =>
          rw [if_neg Bool.false_ne_true, List.filter_cons_of_pos (by simp [isEmpty]),
            Parity.xorAll, BitVec.xor_assoc]

/-- The hash is the exclusive or of the hashes of the values. -/
theorem hash_eq_xorAll (hashCs : Str → BitVec w) (data : Data casemap) :
    data.hash hashCs = Parity.xorAll hashCs data.values := by
  rw [hash, foldl_hash, values]
  exact BitVec.zero_xor

/-- Two states hash differently exactly when the values that occur an odd number of
times in both together do not cancel. -/
theorem hash_ne_iff (hashCs : Str → BitVec w) (left right : Data casemap) :
    left.hash hashCs ≠ right.hash hashCs ↔
      Parity.xorAll hashCs (Parity.oddItems (left.values ++ right.values)) ≠ 0 := by
  rw [hash_eq_xorAll, hash_eq_xorAll, Parity.xorAll_ne_iff, Parity.xorAll_oddItems]

/-- Without collisions among the values, two states hash differently exactly when
some value occurs an odd number of times in both together. -/
theorem hash_ne_iff_of_collisionFree {hashCs : Str → BitVec w} {left right : Data casemap}
    (free : Parity.CollisionFree hashCs (left.values ++ right.values)) :
    left.hash hashCs ≠ right.hash hashCs ↔
      ∃ value, Parity.isOdd (left.values ++ right.values) value = true := by
  rw [hash_eq_xorAll, hash_eq_xorAll, Parity.xorAll_ne_iff, Parity.xorAll_ne_zero_iff free]

end Data

/-!
## The SQL database backend

The handlers of `db_sql` and of the pipe that wakes it up.  Changed objects gather in
`updated_items` and are written when the pipe is read.  Queries are carried out in the
order they are sent, so a row here is what the queries sent so far leave of it.
-/

variable {casemap : Casemap} {w : Nat}

/-- A `Serializable`. -/
structure Object (casemap : Casemap) (w : Nat) where
  /-- What `Type::Serialize` makes of it now. -/
  serialized : Data casemap
  /-- `ShouldCommit`. -/
  shouldCommit : Bool
  /-- Whether it has a serializable type. -/
  typed : Bool
  objectId : Nat
  lastCommit : BitVec w
  lastCommitTime : Nat
  /-- What the queries sent for it leave in the database. -/
  row : Option (Data casemap)
  /-- Queries whose results it still waits for. -/
  awaited : Nat

namespace Object

/-- `Serializable::IsCached`. -/
def isCached (hashCs : Str → BitVec w) (object : Object casemap w) (data : Data casemap) : Bool :=
  object.lastCommit == data.hash hashCs

/-- `Serializable::UpdateCache`. -/
def updateCache (hashCs : Str → BitVec w) (object : Object casemap w) (data : Data casemap) :
    Object casemap w :=
  { object with lastCommit := data.hash hashCs }

/-- `Serializable::IsTSCached`. -/
def isTSCached (curTime : Nat) (object : Object casemap w) : Bool :=
  object.lastCommitTime == curTime

/-- `Serializable::UpdateTS`. -/
def updateTS (curTime : Nat) (object : Object casemap w) : Object casemap w :=
  { object with lastCommitTime := curTime }

/-- The row of an object that is already stored. -/
def stored (object : Object casemap w) : Option (Data casemap) :=
  if object.objectId = 0 then none else object.row

end Object

/-- `DBSQL` and what it works on. -/
structure Backend (ι : Type) (casemap : Casemap) (w : Nat) where
  objects : ι → Option (Object casemap w)
  updatedItems : List ι
  /-- Whether the pipe has something to read. -/
  notified : Bool
  curTime : Nat
  /-- Whether the provider is there. -/
  sql : Bool
  importOption : Bool
  shuttingDown : Bool
  loadingDatabases : Bool
  loaded : Bool
  imported : Bool

namespace Backend

variable {ι : Type} [DecidableEq ι]

/-- The change of one object. -/
def modify (backend : Backend ι casemap w) (i : ι)
    (change : Object casemap w → Object casemap w) : Backend ι casemap w :=
  { backend with objects := Function.update backend.objects i ((backend.objects i).map change) }

/-- `updated_items.insert` and `Notify`. -/
def insertNotify (backend : Backend ι casemap w) (i : ι) : Backend ι casemap w :=
  { backend with updatedItems := backend.updatedItems.insert i, notified := true }

/-- `OnSerializableConstruct`. -/
def onSerializableConstruct (backend : Backend ι casemap w) (i : ι) : Backend ι casemap w :=
  if backend.shuttingDown || backend.loadingDatabases then backend
  else (backend.modify i (·.updateTS backend.curTime)).insertNotify i

/-- The `DELETE` of `OnSerializableDestruct`. -/
def deleteRow (backend : Backend ι casemap w) (object : Object casemap w) : Object casemap w :=
  if !backend.shuttingDown && object.typed && object.objectId > 0 && backend.sql then
    { object with row := none }
  else object

/-- `OnSerializableDestruct`, behind which the object is gone. -/
def onSerializableDestruct (backend : Backend ι casemap w) (i : ι) : Backend ι casemap w :=
  { backend with
    objects := Function.update backend.objects i none
    updatedItems :=
      if backend.shuttingDown then backend.updatedItems else backend.updatedItems.erase i }

/-- `OnSerializableUpdate`. -/
def onSerializableUpdate (backend : Backend ι casemap w) (i : ι) : Backend ι casemap w :=
  match backend.objects i with
  | none => backend
  | some object =>
      if backend.shuttingDown || object.isTSCached backend.curTime then backend
      else if object.objectId = 0 then backend
      else (backend.modify i (·.updateTS backend.curTime)).insertNotify i

/-- One turn of the loop of `OnNotify`, given the identifier in the result of the
query. -/
def commit (hashCs : Str → BitVec w) (backend : Backend ι casemap w) (id : Nat)
    (object : Object casemap w) : Object casemap w :=
  if !backend.sql then object
  else if !object.shouldCommit then backend.deleteRow object
  else if !object.typed then object
  else if object.isCached hashCs object.serialized then object
  else if !backend.loaded && !backend.imported && !backend.importOption then
    object.updateCache hashCs object.serialized
  else if backend.imported then
    { object.updateCache hashCs object.serialized with
      row := some object.serialized
      awaited := object.awaited + 1 }
  else
    { object.updateCache hashCs object.serialized with
      row := some object.serialized
      objectId := if id > 0 then id else object.objectId }

/-- `OnNotify`, given the identifiers in the results of its queries. -/
def onNotify (hashCs : Str → BitVec w) (backend : Backend ι casemap w) (ids : ι → Nat) :
    Backend ι casemap w :=
  { backend with
    objects := fun i =>
      (backend.objects i).map fun object =>
        if i ∈ backend.updatedItems then backend.commit hashCs (ids i) object else object
    updatedItems := []
    imported := true }

/-- `ResultSQLSQLInterface::OnResult`. -/
def onResult (backend : Backend ι casemap w) (i : ι) (id : Nat) : Backend ι casemap w :=
  backend.modify i fun object =>
    { object with
      objectId := if id > 0 then id else object.objectId
      awaited := object.awaited - 1 }

/-- What happens to the backend. -/
inductive Action (ι : Type) (casemap : Casemap) where
  /-- `QueueUpdate`, and then the change it announces. -/
  | change (i : ι) (serialized : Data casemap) (shouldCommit : Bool)
  /-- `Anope::CurTime` is set. -/
  | tick (time : Nat)
  /-- The pipe is read. -/
  | processRead (ids : ι → Nat)
  /-- The result of a query arrives. -/
  | result (i : ι) (id : Nat)
  | construct (i : ι) (serialized : Data casemap) (shouldCommit typed : Bool)
  | destruct (i : ι)
  /-- The provider comes or goes. -/
  | provider (present : Bool)
  /-- `OnShutdown`. -/
  | shutdown (ids : ι → Nat)

/-- A new object. -/
def fresh (serialized : Data casemap) (shouldCommit typed : Bool) : Object casemap w where
  serialized := serialized
  shouldCommit := shouldCommit
  typed := typed
  objectId := 0
  lastCommit := 0
  lastCommitTime := 0
  row := none
  awaited := 0

/-- A transition of the backend. -/
def step (hashCs : Str → BitVec w) (backend : Backend ι casemap w) :
    Action ι casemap → Option (Backend ι casemap w)
  | .change i serialized shouldCommit =>
      some ((backend.onSerializableUpdate i).modify i fun object =>
        { object with serialized := serialized, shouldCommit := shouldCommit })
  | .tick time => some { backend with curTime := time }
  | .processRead ids =>
      if backend.notified then some { backend.onNotify hashCs ids with notified := false }
      else none
  | .result i id =>
      if ∃ object, backend.objects i = some object ∧ 0 < object.awaited then
        some (backend.onResult i id)
      else none
  | .construct i serialized shouldCommit typed =>
      if backend.objects i = none then
        some (onSerializableConstruct { backend with
          objects := Function.update backend.objects i (some (fresh serialized shouldCommit typed)) }
          i)
      else none
  | .destruct i => some (backend.onSerializableDestruct i)
  | .provider present => some { backend with sql := present }
  | .shutdown ids => some (onNotify hashCs { backend with shuttingDown := true } ids)

end Backend

end Anope.Sql
