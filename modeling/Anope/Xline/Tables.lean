import Anope.Library.Multimap
import Anope.Library.Run
import Anope.Library.Table
import Anope.Mode.Core
import Anope.Xline.Core

/-!
# X-lines in the heap

Lines are objects known by their addresses.  Each manager has its list of
addresses, and all managers share the multimap `XLinesByUID`, whose keys are
equal up to case.  Reading a line that was destroyed, or a manager that is not
there, has no defined result.
-/

namespace Anope.Xline

open Library Library.Table Anope.Text

/-- An `XLine` object; `μ` are the managers. -/
structure Object (μ : Type) extends XLine where
  manager : Option μ
  deriving DecidableEq, Repr

/-- A row of the database as `XLine::Type::Unserialize` loads it; `manager` is
the service found under the stored name. -/
structure Row (μ : Type) where
  manager : Option μ
  mask : Str
  by_ : Str
  reason : Str
  uid : Str
  expires : Nat
  created : Nat

/-- The lines in the heap, the lists of the managers and `XLinesByUID`, in which
an entry holds the text of its key and the line. -/
structure State (α μ : Type) where
  objects : AList fun _ : α => Object μ
  xlines : μ → List α
  xlinesByUID : Multimap Str (Str × α)

namespace State

variable {α μ : Type} [DecidableEq α] [DecidableEq μ]

/-- The state in which the program starts. -/
def initial : State α μ where
  objects := ∅
  xlines _ := []
  xlinesByUID := .empty

/-- Change a line of the heap. -/
def updateLine (state : State α μ) (x : α) (change : Object μ → Object μ) : State α μ :=
  { state with objects := modify x change state.objects }

/-- Change the list of a manager. -/
def updateList (state : State α μ) (manager : μ) (list : List α) : State α μ :=
  { state with xlines := Function.update state.xlines manager list }

/-- `XLineManager::AddXLine`. -/
def addXLine (casemap : Casemap) (state : State α μ) (manager : μ) (x : α) :
    Option (State α μ) :=
  (state.objects.lookup x).map fun line =>
    let byUID :=
      if line.id ≠ [] then state.xlinesByUID.emplace (casemap.ciStr line.id) (line.id, x)
      else state.xlinesByUID
    let listed := { state with xlinesByUID := byUID }.updateList manager
      (state.xlines manager ++ [x])
    listed.updateLine x fun line => { line with manager := some manager }

/-- The search of `DelXLine` and `RemoveXLine` in `XLinesByUID`: the entry of the
line among those with its id is erased. -/
def unindex (casemap : Casemap) (state : State α μ) (x : α) (line : Object μ) : State α μ :=
  if line.id ≠ [] then
    { state with
      xlinesByUID := state.xlinesByUID.eraseFirst (casemap.ciStr line.id) fun entry =>
        entry.2 = x }
  else state

/-- `XLineManager::RemoveXLine`, which the destructor calls. -/
def removeXLine (casemap : Casemap) (state : State α μ) (manager : μ) (x : α)
    (line : Object μ) : State α μ :=
  (state.unindex casemap x line).updateList manager ((state.xlines manager).erase x)

/-- `XLine::~XLine`. -/
def destroy (casemap : Casemap) (state : State α μ) (x : α) : Option (State α μ) :=
  (state.objects.lookup x).map fun line =>
    let removed :=
      match line.manager with
      | some manager => state.removeXLine casemap manager x line
      | none => state
    { removed with objects := removed.objects.erase x }

/-- `XLineManager::DelXLine`: the line is destroyed without a manager and taken
from the list. -/
def delXLine (casemap : Casemap) (state : State α μ) (manager : μ) (x : α) :
    Option (Bool × State α μ) :=
  (state.objects.lookup x).map fun line =>
    let unindexed := state.unindex casemap x line
    if x ∈ state.xlines manager then
      (true, { unindexed.updateList manager ((state.xlines manager).erase x) with
        objects := unindexed.objects.erase x })
    else (false, unindexed)

/-- One line of `XLineManager::Clear`: all entries of its id are erased. -/
def clearLine (casemap : Casemap) (state : State α μ) (x : α) : Option (State α μ) :=
  (state.objects.lookup x).bind fun line =>
    let byUID :=
      if line.id ≠ [] then state.xlinesByUID.eraseKey (casemap.ciStr line.id)
      else state.xlinesByUID
    { state with xlinesByUID := byUID }.destroy casemap x

/-- `XLineManager::Clear`. -/
def clear (casemap : Casemap) (state : State α μ) (manager : μ) : Option (State α μ) :=
  (state.xlines manager).foldlM (clearLine casemap) (state.updateList manager [])

/-- The loop of `XLineManager::CanAdd` over the lines below an index. -/
def canAddLoop (casemap : Casemap) (manager : μ) (request : Request) :
    Nat → State α μ → Option (Bool × List Reply × State α μ)
  | 0, state => some (true, [], state)
  | i + 1, state =>
      (state.xlines manager)[i]?.bind fun x =>
        (state.objects.lookup x).bind fun line =>
          match request.judge casemap line.toXLine with
          | .equal =>
              let (line, reply) := request.update line.toXLine
              some (false, [reply], state.updateLine x fun object => { object with toXLine := line })
          | .covering => some (false, [.alreadyCovered request.mask line.mask], state)
          | .redundant =>
              (state.delXLine casemap manager x).bind fun (_, state) =>
                (canAddLoop casemap manager request i state).map fun (allowed, replies, state) =>
                  (allowed, .removing line.mask request.mask :: replies, state)
          | .unrelated => canAddLoop casemap manager request i state

/-- `XLineManager::CanAdd`. -/
def canAdd (casemap : Casemap) (state : State α μ) (manager : μ) (request : Request) :
    Option (Bool × List Reply × State α μ) :=
  canAddLoop casemap manager request (state.xlines manager).length state

/-- The loop of `XLineManager::CheckAllXLines` for a user whom `check` compares
with a line. -/
def checkAllLoop (casemap : Casemap) (manager : μ) (curTime : Nat) (check : Object μ → Bool) :
    Nat → State α μ → Option (Option α × State α μ)
  | 0, state => some (none, state)
  | i + 1, state =>
      (state.xlines manager)[i]?.bind fun x =>
        (state.objects.lookup x).bind fun line =>
          if line.expires ≠ 0 ∧ line.expires < curTime then
            (state.delXLine casemap manager x).bind fun (_, state) =>
              checkAllLoop casemap manager curTime check i state
          else if check line then some (some x, state)
          else checkAllLoop casemap manager curTime check i state

/-- `XLineManager::CheckAllXLines`. -/
def checkAllXLines (casemap : Casemap) (state : State α μ) (manager : μ) (curTime : Nat)
    (check : Object μ → Bool) : Option (Option α × State α μ) :=
  checkAllLoop casemap manager curTime check (state.xlines manager).length state

/-- `new XLine` without a manager. -/
def newLine (state : State α μ) (x : α) (line : XLine) : State α μ :=
  { state with objects := state.objects.insert x { line with manager := none } }

/-- `XLine::Type::Unserialize` of a row for a line that is there: its id is
overwritten before the manager is compared. -/
def unserialize (casemap : Casemap) (state : State α μ) (x : α) (row : Row μ) :
    Option (State α μ) :=
  match row.manager with
  | none => some state
  | some xlm =>
      (state.objects.lookup x).bind fun line =>
        let loaded := state.updateLine x fun line =>
          { line with mask := row.mask, by_ := row.by_, reason := row.reason, id := row.uid }
        let moved :=
          if line.manager ≠ some xlm then
            line.manager.bind fun manager =>
              (loaded.delXLine casemap manager x).bind fun (_, state) =>
                state.addXLine casemap xlm x
          else some loaded
        moved.map fun state => state.updateLine x fun line =>
          { line with created := row.created, manager := some xlm }

/-- `XLine::Type::Unserialize` of a row for a new line. -/
def unserializeNew (casemap : Casemap) (state : State α μ) (x : α) (curTime : Nat)
    (row : Row μ) : Option (State α μ) :=
  match row.manager with
  | none => some state
  | some xlm =>
      let line : XLine :=
        { mask := row.mask, by_ := row.by_, created := curTime, expires := row.expires,
          reason := row.reason, id := row.uid }
      ((state.newLine x line).addXLine casemap xlm x).map fun state =>
        state.updateLine x fun line => { line with created := row.created, manager := some xlm }

end State

/-! ## Actions -/

/-- A step of the program.  The address of a new line is one that is not in
use. -/
inductive Action (α μ : Type) where
  /-- `new XLine` and `AddXLine`, as the callers do. -/
  | addXLine (manager : μ) (x : α) (line : XLine)
  | delXLine (manager : μ) (x : α)
  | clear (manager : μ)
  | canAdd (manager : μ) (request : Request)
  | checkAllXLines (manager : μ) (curTime : Nat) (check : Object μ → Bool)
  | unserialize (x : α) (row : Row μ)
  | unserializeNew (x : α) (curTime : Nat) (row : Row μ)

variable {α μ : Type} [DecidableEq α] [DecidableEq μ]

/-- The address at which an action allocates a line. -/
def Action.allocates : Action α μ → Option α
  | .addXLine _ x _ | .unserializeNew x _ _ => some x
  | _ => none

/-- What an action does; without a value the behaviour is undefined. -/
def State.perform (casemap : Casemap) (state : State α μ) : Action α μ → Option (State α μ)
  | .addXLine manager x line => (state.newLine x line).addXLine casemap manager x
  | .delXLine manager x => (state.delXLine casemap manager x).map Prod.snd
  | .clear manager => state.clear casemap manager
  | .canAdd manager request =>
      (state.canAdd casemap manager request).map fun result => result.2.2
  | .checkAllXLines manager curTime check =>
      (state.checkAllXLines casemap manager curTime check).map Prod.snd
  | .unserialize x row => state.unserialize casemap x row
  | .unserializeNew x curTime row => state.unserializeNew casemap x curTime row

/-- A step from a state, or from the point on where nothing is defined. -/
def step (casemap : Casemap) : Option (State α μ) → Action α μ → Option (Option (State α μ))
  | none, _ => some none
  | some state, action =>
      if ∀ x ∈ action.allocates, x ∉ state.objects then some (state.perform casemap action)
      else none

end Anope.Xline
