import Anope.Sql.Backend

/-!
# Changes and the SQL database

When the backend notices that an object changed, and when no change is lost between
an object and its row.
-/

namespace Anope.Sql

open Library Anope.Text

variable {casemap : Casemap} {w : Nat} {ι : Type} [DecidableEq ι]

namespace Backend

/-! ## One change -/

/-- The backend writes objects such as this one. -/
def Writes (backend : Backend ι casemap w) (object : Object casemap w) : Prop :=
  backend.sql = true ∧ object.shouldCommit = true ∧ object.typed = true ∧
    (backend.loaded || backend.imported || backend.importOption) = true

/-- An object that changed after its row was written. -/
def changed (hashCs : Str → BitVec w) (object : Object casemap w) (before after : Data casemap) :
    Object casemap w :=
  { object.updateCache hashCs before with serialized := after, row := some before }

/-- The hashes differ, the cache does not hide the change, and it is written. -/
def Noticed (hashCs : Str → BitVec w) (backend : Backend ι casemap w) (id : Nat)
    (object : Object casemap w) (before after : Data casemap) : Prop :=
  before.hash hashCs ≠ after.hash hashCs ∧
    (object.updateCache hashCs before).isCached hashCs after = false ∧
    (backend.commit hashCs id (changed hashCs object before after)).row = some after

section

variable {hashCs : Str → BitVec w} {backend : Backend ι casemap w} {id : Nat}
  {object : Object casemap w}

omit [DecidableEq ι] in
theorem row_commit (fresh : object.isCached hashCs object.serialized = false)
    (writes : backend.Writes object) :
    (backend.commit hashCs id object).row = some object.serialized := by
  obtain ⟨sql, shouldCommit, typed, kept⟩ := writes
  have notSkipped : (!backend.loaded && !backend.imported && !backend.importOption) = false := by
    rw [← Bool.not_or, ← Bool.not_or, kept, Bool.not_true]
  simp only [commit, sql, shouldCommit, typed, fresh, notSkipped, Bool.not_true,
    Bool.false_eq_true, if_false]
  split <;> rfl

omit [DecidableEq ι] in
theorem noticed_iff_hash_ne {before after : Data casemap} (writes : backend.Writes object) :
    backend.Noticed hashCs id object before after ↔ before.hash hashCs ≠ after.hash hashCs := by
  refine ⟨And.left, fun hashes => ?_⟩
  have fresh : (before.hash hashCs == after.hash hashCs) = false := beq_eq_false_iff_ne.mpr hashes
  have row : (backend.commit hashCs id (changed hashCs object before after)).row =
      some (changed hashCs object before after).serialized := row_commit fresh writes
  exact ⟨hashes, fresh, row⟩

omit [DecidableEq ι] in
/-- A change is noticed exactly when the values that occur an odd number of times in
both states together do not cancel: without collisions, when there is such a value. -/
theorem noticed_iff (before after : Data casemap) (writes : backend.Writes object) :
    (backend.Noticed hashCs id object before after ↔
        Parity.xorAll hashCs (Parity.oddItems (before.values ++ after.values)) ≠ 0) ∧
      (Parity.CollisionFree hashCs (before.values ++ after.values) →
        (backend.Noticed hashCs id object before after ↔
          ∃ value, Parity.isOdd (before.values ++ after.values) value = true)) := by
  constructor
  · rw [noticed_iff_hash_ne writes, Data.hash_ne_iff]
  · intro free
    rw [noticed_iff_hash_ne writes, Data.hash_ne_iff_of_collisionFree free]

end

/-! ### Two fields -/

/-- A hash of texts. -/
def sampleHash (text : Str) : BitVec 64 :=
  text.foldl (fun hash byte => hash * 31 + BitVec.ofNat 64 byte.toNat) 7

/-- An object with two fields. -/
def twoFields (display email : String) : Data .ascii :=
  (Data.empty.storeInternal (ascii "display") (ascii display)).storeInternal
    (ascii "email") (ascii email)

/-- A stored object whose row is up to date. -/
def storedObject (data : Data .ascii) : Object .ascii 64 where
  serialized := data
  shouldCommit := true
  typed := true
  objectId := 1
  lastCommit := data.hash sampleHash
  lastCommitTime := 0
  row := some data
  awaited := 0

/-- A backend that loaded one object. -/
def loadedOne (data : Data .ascii) : Backend Unit .ascii 64 where
  objects := fun _ => some (storedObject data)
  updatedItems := []
  notified := false
  curTime := 1000
  sql := true
  importOption := false
  shuttingDown := false
  loadingDatabases := false
  loaded := true
  imported := true

theorem noticed_changed_field :
    (loadedOne (twoFields "x" "y")).Noticed sampleHash 1 (storedObject (twoFields "x" "y"))
      (twoFields "x" "y") (twoFields "x" "z") :=
  ((noticed_iff (twoFields "x" "y") (twoFields "x" "z") ⟨rfl, rfl, rfl, rfl⟩).2
    (by decide)).mpr ⟨ascii "z", by decide⟩

/-- Swapping the values of two fields is not noticed. -/
theorem not_noticed_swapped :
    twoFields "x" "y" ≠ twoFields "y" "x" ∧
      ¬ (loadedOne (twoFields "x" "y")).Noticed sampleHash 1 (storedObject (twoFields "x" "y"))
        (twoFields "x" "y") (twoFields "y" "x") := by
  refine ⟨by decide, fun noticed => noticed.1 (by decide)⟩

/-! ## Runs -/

end Backend

/-- An object that is stored already has its fields in its row. -/
def Object.Synced (object : Object casemap w) : Prop :=
  ∀ row, object.stored = some row → object.serialized = row

namespace Backend

/-- Every stored object that differs from its row is about to be written. -/
def Unlost (backend : Backend ι casemap w) : Prop :=
  ∀ i object, backend.objects i = some object →
    object.Synced ∨ i ∈ backend.updatedItems ∧ backend.notified = true

/-- The pipe has something to read as long as there are updated items. -/
def Sound (backend : Backend ι casemap w) : Prop :=
  ∀ i ∈ backend.updatedItems, backend.notified = true

/-- `OnNotify` brings the row of such an object up to date or deletes it. -/
def Settles (hashCs : Str → BitVec w) (backend : Backend ι casemap w)
    (object : Object casemap w) : Prop :=
  backend.sql = true ∧ object.typed = true ∧
    if object.shouldCommit then
      object.isCached hashCs object.serialized = false ∧
        (backend.loaded || backend.imported || backend.importOption) = true
    else backend.shuttingDown = false

/-- `OnNotify` settles every item that differs from its row. -/
def AllSettled (hashCs : Str → BitVec w) (backend : Backend ι casemap w) : Prop :=
  ∀ i ∈ backend.updatedItems, ∀ object, backend.objects i = some object →
    object.Synced ∨ backend.Settles hashCs object

/-- The steps that lose no change: a change reaches the updated items unless it
changes nothing, what the pipe brings is settled, and an object did not change while
its creation was under way. -/
def Keeps (hashCs : Str → BitVec w) (backend : Backend ι casemap w) : Action ι casemap → Prop
  | .change i serialized _ =>
      ∀ object, backend.objects i = some object →
        Object.Synced { object with serialized := serialized } ∨ i ∈ backend.updatedItems ∨
          backend.shuttingDown = false ∧ object.lastCommitTime ≠ backend.curTime
  | .result i id =>
      ∀ object, backend.objects i = some object →
        Object.Synced { object with objectId := if id > 0 then id else object.objectId } ∨
          i ∈ backend.updatedItems
  | .processRead _ => backend.AllSettled hashCs
  | .shutdown _ => AllSettled hashCs { backend with shuttingDown := true }
  | _ => True

/-! ### Synced objects -/

section

variable {hashCs : Str → BitVec w} {backend : Backend ι casemap w} {id : Nat}
  {object : Object casemap w}

omit [DecidableEq ι] in
theorem synced_of_row {data : Data casemap} (row : object.row = none ∨ object.row = some data)
    (serialized : object.serialized = data) : object.Synced := by
  intro other stored
  rw [Object.stored] at stored
  split at stored
  · exact nomatch stored
  · rcases row with row | row
    · exact nomatch row.symm.trans stored
    · rw [serialized]
      exact Option.some.inj (row.symm.trans stored)

omit [DecidableEq ι] in
theorem synced_of_objectId (pending : object.objectId = 0) : object.Synced := by
  intro row stored
  rw [Object.stored, if_pos pending] at stored
  exact nomatch stored

omit [DecidableEq ι] in
/-- An object that is stored and differs from its row. -/
theorem stored_of_not_synced (differs : ¬ object.Synced) :
    object.objectId ≠ 0 ∧ ∃ row, object.row = some row ∧ object.serialized ≠ row := by
  rw [Object.Synced] at differs
  obtain ⟨row, rest⟩ := not_forall.mp differs
  obtain ⟨stored, different⟩ := Classical.not_imp.mp rest
  rw [Object.stored] at stored
  split at stored
  · exact nomatch stored
  · rename_i hasId
    exact ⟨hasId, row, stored, different⟩

omit [DecidableEq ι] in
theorem synced_deleteRow_iff :
    (backend.deleteRow object).Synced ↔
      object.Synced ∨
        backend.sql = true ∧ object.typed = true ∧ backend.shuttingDown = false := by
  rw [deleteRow]
  split
  · rename_i deletes
    simp only [Bool.and_eq_true, Bool.not_eq_true'] at deletes
    obtain ⟨⟨⟨running, typed⟩, _⟩, sql⟩ := deletes
    exact iff_of_true (synced_of_row (.inl rfl) rfl) (.inr ⟨sql, typed, running⟩)
  · rename_i keeps
    refine ⟨.inl, fun settled => settled.elim id fun ⟨sql, typed, running⟩ => ?_⟩
    by_contra differs
    obtain ⟨hasId, _⟩ := stored_of_not_synced differs
    exact keeps (by simp [running, typed, sql, Nat.pos_of_ne_zero hasId])

omit [DecidableEq ι] in
theorem synced_congr {other : Object casemap w} (objectId : other.objectId = object.objectId)
    (row : other.row = object.row) (serialized : other.serialized = object.serialized) :
    other.Synced ↔ object.Synced := by
  rw [Object.Synced, Object.Synced, Object.stored, Object.stored, objectId, row, serialized]

omit [DecidableEq ι] in
/-- One turn of the loop leaves an object in step with its row exactly when it was so
before or is settled. -/
theorem synced_commit_iff :
    (backend.commit hashCs id object).Synced ↔ object.Synced ∨ backend.Settles hashCs object := by
  rw [commit, Settles]
  cases sql : backend.sql with
  | false => exact ⟨.inl, fun settled => settled.resolve_right fun settles => nomatch settles.1⟩
  | true =>
    rw [Bool.not_true, if_neg Bool.false_ne_true]
    cases shouldCommit : object.shouldCommit with
    | false =>
      rw [Bool.not_false, if_pos rfl, synced_deleteRow_iff, sql]
      exact Iff.rfl
    | true =>
      rw [Bool.not_true, if_neg Bool.false_ne_true, if_pos rfl]
      cases typed : object.typed with
      | false =>
        exact ⟨.inl, fun settled => settled.resolve_right fun settles => nomatch settles.2.1⟩
      | true =>
        rw [Bool.not_true, if_neg Bool.false_ne_true]
        cases cached : object.isCached hashCs object.serialized with
        | true =>
          exact ⟨.inl, fun settled =>
            settled.resolve_right fun settles => nomatch settles.2.2.1⟩
        | false =>
          rw [if_neg Bool.false_ne_true]
          split
          · rename_i skipped
            refine (synced_congr rfl rfl rfl : _ ↔ object.Synced).trans ?_
            refine ⟨.inl, fun settled => settled.resolve_right fun settles => ?_⟩
            simp only [Bool.and_eq_true, Bool.not_eq_true'] at skipped
            simp [skipped.1.1, skipped.1.2, skipped.2] at settles
          · rename_i written
            have wanted : (backend.loaded || backend.imported || backend.importOption) = true := by
              by_contra unwanted
              exact written (by simpa [and_assoc] using unwanted)
            refine iff_of_true ?_ (.inr ⟨rfl, rfl, rfl, wanted⟩)
            split
            · exact synced_of_row (.inr rfl) rfl
            · exact synced_of_row (.inr rfl) rfl

end

/-! ### Steps -/

section

variable {hashCs : Str → BitVec w} {backend next : Backend ι casemap w} {i : ι}

omit [DecidableEq ι] in
/-- A step that touches one object only has to account for that one. -/
theorem unlost_iff_at (unlost : backend.Unlost) (sound : next.Sound)
    (elsewhere : ∀ j, j ≠ i → next.objects j = backend.objects j)
    (items : ∀ j, j ≠ i → j ∈ backend.updatedItems → j ∈ next.updatedItems) :
    next.Unlost ↔
      ∀ object, next.objects i = some object → object.Synced ∨ i ∈ next.updatedItems := by
  constructor
  · exact fun kept object found => (kept i object found).imp_right And.left
  · intro here j object found
    by_cases same : j = i
    · subst same
      exact (here object found).imp_right fun mem => ⟨mem, sound j mem⟩
    · rw [elsewhere j same] at found
      exact (unlost j object found).imp_right fun pending =>
        ⟨items j same pending.1, sound j (items j same pending.1)⟩

theorem objects_modify_self (change : Object casemap w → Object casemap w) :
    (backend.modify i change).objects i = (backend.objects i).map change :=
  Function.update_self _ _ _

theorem objects_modify_ne (change : Object casemap w → Object casemap w) {j : ι}
    (different : j ≠ i) : (backend.modify i change).objects j = backend.objects j :=
  Function.update_of_ne different _ _

theorem sound_modify {change : Object casemap w → Object casemap w} (sound : backend.Sound) :
    (backend.modify i change).Sound :=
  sound

theorem sound_insertNotify : (backend.insertNotify i).Sound :=
  fun _ _ => rfl

/-- What `OnSerializableUpdate` queues. -/
def Queues (backend : Backend ι casemap w) (object : Object casemap w) : Prop :=
  backend.shuttingDown = false ∧ object.lastCommitTime ≠ backend.curTime ∧ object.objectId ≠ 0

theorem onSerializableUpdate_of_queues {object : Object casemap w}
    (found : backend.objects i = some object) (queues : backend.Queues object) :
    backend.onSerializableUpdate i =
      (backend.modify i (·.updateTS backend.curTime)).insertNotify i := by
  have late : object.isTSCached backend.curTime = false := beq_eq_false_iff_ne.mpr queues.2.1
  simp only [onSerializableUpdate, found, queues.1, late, Bool.or_self, Bool.false_eq_true,
    if_false, if_neg queues.2.2]

theorem onSerializableUpdate_of_not_queues {object : Object casemap w}
    (found : backend.objects i = some object) (refuses : ¬ backend.Queues object) :
    backend.onSerializableUpdate i = backend := by
  simp only [onSerializableUpdate, found]
  split
  · rfl
  · rename_i open_
    split
    · rfl
    · rename_i hasId
      simp only [Bool.or_eq_true, not_or, Bool.not_eq_true] at open_
      exact absurd ⟨open_.1, beq_eq_false_iff_ne.mp open_.2, hasId⟩ refuses

theorem onSerializableUpdate_of_none (absent : backend.objects i = none) :
    backend.onSerializableUpdate i = backend := by
  simp only [onSerializableUpdate, absent]

theorem sound_onSerializableUpdate (sound : backend.Sound) :
    (backend.onSerializableUpdate i).Sound := by
  cases found : backend.objects i with
  | none => rwa [onSerializableUpdate_of_none found]
  | some object =>
      by_cases queues : backend.Queues object
      · rw [onSerializableUpdate_of_queues found queues]
        exact sound_insertNotify
      · rwa [onSerializableUpdate_of_not_queues found queues]

theorem objects_onSerializableUpdate_ne {j : ι} (different : j ≠ i) :
    (backend.onSerializableUpdate i).objects j = backend.objects j := by
  cases found : backend.objects i with
  | none => rw [onSerializableUpdate_of_none found]
  | some object =>
      by_cases queues : backend.Queues object
      · rw [onSerializableUpdate_of_queues found queues]
        exact objects_modify_ne _ different
      · rw [onSerializableUpdate_of_not_queues found queues]

theorem mem_onSerializableUpdate {j : ι} (mem : j ∈ backend.updatedItems) :
    j ∈ (backend.onSerializableUpdate i).updatedItems := by
  cases found : backend.objects i with
  | none => rwa [onSerializableUpdate_of_none found]
  | some object =>
      by_cases queues : backend.Queues object
      · rw [onSerializableUpdate_of_queues found queues]
        exact List.mem_insert_of_mem mem
      · rwa [onSerializableUpdate_of_not_queues found queues]

/-- A change is not lost exactly when it changes nothing or reaches the updated
items. -/
theorem unlost_change_iff {serialized : Data casemap} {shouldCommit : Bool}
    (unlost : backend.Unlost) (sound : backend.Sound)
    (stepped : backend.step hashCs (.change i serialized shouldCommit) = some next) :
    next.Unlost ↔ backend.Keeps hashCs (.change i serialized shouldCommit) := by
  cases Option.some.inj stepped
  refine (unlost_iff_at (i := i) unlost (sound_modify (sound_onSerializableUpdate sound))
    (fun j different => (objects_modify_ne _ different).trans
      (objects_onSerializableUpdate_ne different))
    fun j _ => mem_onSerializableUpdate).trans ?_
  rw [objects_modify_self, Keeps]
  cases found : backend.objects i with
  | none =>
      rw [onSerializableUpdate_of_none found, found]
      exact iff_of_true (fun _ is => nomatch is) fun _ is => nomatch is
  | some object =>
      by_cases queues : backend.Queues object
      · rw [onSerializableUpdate_of_queues found queues]
        refine iff_of_true (fun _ _ => .inr List.mem_insert_self) fun _ is => ?_
        cases is
        exact .inr (.inr ⟨queues.1, queues.2.1⟩)
      · rw [onSerializableUpdate_of_not_queues found queues, found]
        constructor
        · rintro kept _ ⟨⟩
          exact (kept _ rfl).imp id .inl
        · rintro keeps _ ⟨⟩
          rcases keeps object rfl with synced | mem | ⟨running, late⟩
          · exact .inl synced
          · exact .inr mem
          · have pending : object.objectId = 0 := by
              by_contra hasId
              exact queues ⟨running, late, hasId⟩
            exact .inl (synced_of_objectId pending)

/-- `OnNotify` loses no change exactly when it settles all it takes. -/
theorem unlost_onNotify_iff {ids : ι → Nat} (unlost : backend.Unlost)
    (same : next.objects = (backend.onNotify hashCs ids).objects)
    (none : next.updatedItems = []) : next.Unlost ↔ backend.AllSettled hashCs := by
  have isAfter : ∀ j object, next.objects j = some object ↔
      ∃ old, backend.objects j = some old ∧
        (if j ∈ backend.updatedItems then backend.commit hashCs (ids j) old else old) = object := by
    intro j object
    rw [same]
    exact Option.map_eq_some_iff
  rw [Unlost, none]
  constructor
  · intro kept j mem object found
    have after := kept j _ ((isAfter j _).mpr ⟨object, found, rfl⟩)
    rw [if_pos mem] at after
    exact synced_commit_iff.mp (after.resolve_right fun pending => nomatch pending.1)
  · intro settled j object found
    obtain ⟨old, isOld, is⟩ := (isAfter j object).mp found
    rw [← is]
    split
    · rename_i mem
      exact .inl (synced_commit_iff.mpr (settled j mem old isOld))
    · rename_i absent
      exact .inl ((unlost j old isOld).resolve_right fun pending => absent pending.1)

theorem unlost_result_iff {id : Nat} (unlost : backend.Unlost) (sound : backend.Sound)
    (stepped : backend.step hashCs (.result i id) = some next) :
    next.Unlost ↔ backend.Keeps hashCs (.result i id) := by
  obtain ⟨_, is⟩ := Option.ite_none_right_eq_some.mp stepped
  cases is
  refine Iff.trans (unlost_iff_at (i := i) unlost (sound_modify sound)
    (fun j different => objects_modify_ne _ different) fun _ _ mem => mem) ?_
  rw [Backend.onResult, objects_modify_self, Keeps]
  constructor
  · intro kept object found
    exact kept { object with
      objectId := if id > 0 then id else object.objectId, awaited := object.awaited - 1 }
      (by rw [found]; rfl)
  · intro keeps object is
    obtain ⟨old, found, rfl⟩ := Option.map_eq_some_iff.mp is
    exact keeps old found

theorem unlost_construct {serialized : Data casemap} {shouldCommit typed : Bool}
    (unlost : backend.Unlost) (sound : backend.Sound)
    (stepped : backend.step hashCs (.construct i serialized shouldCommit typed) = some next) :
    next.Unlost ∧ next.Sound := by
  obtain ⟨_, is⟩ := Option.ite_none_right_eq_some.mp stepped
  rw [onSerializableConstruct] at is
  split at is
  · cases is
    refine ⟨Iff.mpr (unlost_iff_at (i := i) unlost sound
      (fun j different => Function.update_of_ne different _ _) fun _ _ mem => mem) ?_, sound⟩
    intro object found
    cases (Function.update_self i _ backend.objects).symm.trans found
    exact .inl (synced_of_objectId rfl)
  · cases is
    refine ⟨Iff.mpr (unlost_iff_at (i := i) unlost sound_insertNotify
      (fun j different => (objects_modify_ne _ different).trans
        (Function.update_of_ne different _ _))
      fun _ _ mem => List.mem_insert_of_mem mem) ?_, sound_insertNotify⟩
    exact fun _ _ => .inr List.mem_insert_self

theorem unlost_destruct (unlost : backend.Unlost) (sound : backend.Sound)
    (stepped : backend.step hashCs (.destruct i) = some next) : next.Unlost ∧ next.Sound := by
  cases Option.some.inj stepped
  have sound : (backend.onSerializableDestruct i).Sound := by
    intro j mem
    rw [onSerializableDestruct] at mem
    dsimp only at mem
    split at mem
    · exact sound j mem
    · exact sound j (List.mem_of_mem_erase mem)
  refine ⟨Iff.mpr (unlost_iff_at (i := i) unlost sound
    (fun j different => Function.update_of_ne different _ _) fun j different mem => ?_) ?_,
    sound⟩
  · rw [onSerializableDestruct]
    dsimp only
    split
    · exact mem
    · exact (List.mem_erase_of_ne different).mpr mem
  · intro object found
    have gone : (backend.onSerializableDestruct i).objects i = none := Function.update_self _ _ _
    exact nomatch gone.symm.trans found

theorem sound_step (action : Action ι casemap) (unlost : backend.Unlost) (sound : backend.Sound)
    (stepped : backend.step hashCs action = some next) : next.Sound := by
  cases action with
  | change i serialized shouldCommit =>
      cases Option.some.inj stepped
      exact sound_modify (sound_onSerializableUpdate sound)
  | tick time | provider present =>
      cases Option.some.inj stepped
      exact sound
  | processRead ids =>
      obtain ⟨_, is⟩ := Option.ite_none_right_eq_some.mp stepped
      cases is
      exact fun _ mem => nomatch mem
  | result i id =>
      obtain ⟨_, is⟩ := Option.ite_none_right_eq_some.mp stepped
      cases is
      exact sound_modify sound
  | construct i serialized shouldCommit typed => exact (unlost_construct unlost sound stepped).2
  | destruct i => exact (unlost_destruct unlost sound stepped).2
  | shutdown ids =>
      cases Option.some.inj stepped
      exact fun _ mem => nomatch mem

theorem unlost_step_iff (action : Action ι casemap) (unlost : backend.Unlost)
    (sound : backend.Sound) (stepped : backend.step hashCs action = some next) :
    next.Unlost ↔ backend.Keeps hashCs action := by
  cases action with
  | change i serialized shouldCommit => exact unlost_change_iff unlost sound stepped
  | tick time | provider present =>
      cases Option.some.inj stepped
      exact iff_of_true unlost trivial
  | processRead ids =>
      obtain ⟨_, is⟩ := Option.ite_none_right_eq_some.mp stepped
      cases is
      exact unlost_onNotify_iff unlost rfl rfl
  | result i id => exact unlost_result_iff unlost sound stepped
  | construct i serialized shouldCommit typed =>
      exact iff_of_true (unlost_construct unlost sound stepped).1 trivial
  | destruct i => exact iff_of_true (unlost_destruct unlost sound stepped).1 trivial
  | shutdown ids =>
      cases Option.some.inj stepped
      have before : Unlost { backend with shuttingDown := true } := unlost
      exact unlost_onNotify_iff before rfl rfl

end

/-- Along a run no change is lost exactly when every step keeps all changes. -/
theorem always_unlost_iff (hashCs : Str → BitVec w) (start : Backend ι casemap w)
    (sound : start.Sound) (unlost : start.Unlost) (actions : List (Action ι casemap)) :
    Run.Always (step hashCs) Unlost start actions ↔
      Run.EachStep (step hashCs) (Keeps hashCs) start actions :=
  Run.always_iff_eachStep_of_kept Sound
    (fun sound unlost _ stepped => sound_step _ unlost sound stepped)
    (fun sound unlost stepped => unlost_step_iff _ unlost sound stepped) sound unlost actions

/-- A change, a commit and another change at some time. -/
def twice (time : Nat) : List (Action Unit .ascii) :=
  [.change () (twoFields "x" "z") true, .processRead fun _ => 1, .tick time,
    .change () (twoFields "w" "z") true]

theorem sound_loadedOne (data : Data .ascii) : (loadedOne data).Sound :=
  fun _ mem => nomatch mem

theorem unlost_loadedOne (data : Data .ascii) : (loadedOne data).Unlost := by
  rintro i object ⟨⟩
  exact .inl (synced_of_row (.inr rfl) rfl)

theorem always_unlost_twice :
    Run.Always (step sampleHash) Unlost (loadedOne (twoFields "x" "y")) (twice 1001) := by
  refine (always_unlost_iff sampleHash _ (sound_loadedOne _) (unlost_loadedOne _) _).mpr ?_
  rintro _ ⟨⟩
  refine ⟨?_, ?_⟩
  · rintro _ ⟨⟩
    exact .inr (.inr ⟨rfl, by decide⟩)
  rintro _ ⟨⟩
  refine ⟨?_, ?_⟩
  · rintro _ _ _ ⟨⟩
    exact .inr ⟨rfl, rfl, by decide, rfl⟩
  rintro _ ⟨⟩
  refine ⟨trivial, ?_⟩
  rintro _ ⟨⟩
  refine ⟨?_, ?_⟩
  · rintro _ ⟨⟩
    exact .inr (.inr ⟨rfl, by decide⟩)
  · trivial

/-- The second of two changes in one second with a commit between them is lost. -/
theorem not_always_unlost_twice :
    (loadedOne (twoFields "x" "y")).Unlost ∧
      ¬ Run.Always (step sampleHash) Unlost (loadedOne (twoFields "x" "y")) (twice 1000) := by
  refine ⟨unlost_loadedOne _, fun always => ?_⟩
  obtain ⟨final, reached⟩ :
      ∃ final, Run.run (step sampleHash) (loadedOne (twoFields "x" "y")) (twice 1000) =
        some final := ⟨_, rfl⟩
  have kept := always.of_run reached
  cases reached
  rcases kept () _ rfl with synced | ⟨mem, _⟩
  · exact absurd (synced (twoFields "x" "z") (by decide)) (by decide)
  · exact absurd mem (by decide)

end Backend

end Anope.Sql
