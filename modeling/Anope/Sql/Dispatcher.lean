import Anope.Library.Replace
import Anope.Library.Run
import Anope.Text.Casemap

/-!
# SQL queries

`SQL::Query` and `BuildQuery` of the SQLite and MySQL providers, which replace the
placeholders of one parameter after another in the whole query.
-/

namespace Anope.Sql

open Library Anope.Text

/-- `SQL::QueryData`. -/
structure QueryData where
  data : Str
  escape : Bool

/-- `SQL::Query`; the parameters are in the order of their names. -/
structure Query where
  query : Str
  parameters : List (Str × QueryData)
  sorted : parameters.Pairwise fun left right => left.1 < right.1

/-- The text of a placeholder behind its first character. -/
def placeEnd (name : Str) : Str :=
  name ++ [64]

/-- What a parameter is replaced by, given the `Escape` of the provider. -/
def QueryData.text (escape : Str → Str) (value : QueryData) : Str :=
  if value.escape then 39 :: escape value.data ++ [39] else value.data

/-- One turn of the loop of `BuildQuery`. -/
def replaceParameter (escape : Str → Str) (real : Str) (parameter : Str × QueryData) : Str :=
  Replace.replaceAll 64 (placeEnd parameter.1) (parameter.2.text escape) real

/-- `BuildQuery`. -/
def buildQuery (escape : Str → Str) (q : Query) : Str :=
  q.parameters.foldl (replaceParameter escape) q.query

/-! ## Templates -/

/-- A part of a template. -/
inductive Piece where
  | text (line : Str)
  | place (name : Str)

namespace Piece

/-- The text of a part. -/
def render : Piece → Str
  | text line => line
  | place name => 64 :: placeEnd name

/-- A part after the placeholders of one name were filled. -/
def fill (name value : Str) : Piece → Piece
  | text line => text line
  | place other => if other = name then text value else place other

/-- A part with the values of all given parameters, which is what a query should
have in its place. -/
def substitute (escape : Str → Str) (parameters : List (Str × QueryData)) : Piece → Str
  | text line => line
  | place name =>
      match parameters.find? fun parameter => parameter.1 = name with
      | none => 64 :: placeEnd name
      | some parameter => parameter.2.text escape

end Piece

/-- The text of a template. -/
def render (template : List Piece) : Str :=
  template.flatMap Piece.render

/-- The texts between the placeholders of one name. -/
def between (name : Str) : List Piece → List Str
  | [] => [[]]
  | .text line :: template => (between name template).modifyHead (line ++ ·)
  | .place other :: template =>
      if other = name then [] :: between name template
      else (between name template).modifyHead ((64 :: placeEnd other) ++ ·)

/-- In the query with the values of the earlier parameters, the placeholder of a
parameter is found where the template has it and nowhere else. -/
def Clean (escape : Str → Str) : List (Str × QueryData) → List Piece → Prop
  | [], _ => True
  | parameter :: parameters, template =>
      Replace.parts 64 (placeEnd parameter.1) (render template) =
          between parameter.1 template ∧
        Clean escape parameters
          (template.map (Piece.fill parameter.1 (parameter.2.text escape)))

theorem between_ne_nil (name : Str) (template : List Piece) : between name template ≠ [] := by
  induction template with
  | nil => exact List.cons_ne_nil _ _
  | cons piece template ih =>
      have changed : ∀ f : Str → Str, (between name template).modifyHead f ≠ [] := by
        intro f
        cases isBetween : between name template with
        | nil => exact absurd isBetween ih
        | cons part rest => exact List.cons_ne_nil _ _
      cases piece with
      | text line => exact changed _
      | place other =>
          rw [between]
          split
          · exact List.cons_ne_nil _ _
          · exact changed _

theorem join_modifyHead {value line : Str} {texts : List Str} (nonempty : texts ≠ []) :
    Replace.join value (texts.modifyHead (line ++ ·)) = line ++ Replace.join value texts := by
  cases texts with
  | nil => exact absurd rfl nonempty
  | cons part rest =>
      cases rest with
      | nil => rfl
      | cons next rest =>
          change line ++ part ++ value ++ _ = line ++ (part ++ value ++ _)
          simp only [List.append_assoc]

/-- Joining the texts between placeholders fills them. -/
theorem join_between (name value : Str) (template : List Piece) :
    Replace.join value (between name template) = render (template.map (Piece.fill name value)) := by
  induction template with
  | nil => rfl
  | cons piece template ih =>
      have nonempty := between_ne_nil name template
      cases piece with
      | text line =>
          rw [between, join_modifyHead nonempty, ih]
          rfl
      | place other =>
          rw [between, List.map_cons, Piece.fill]
          split
          · rw [Replace.join_cons nonempty, ih]
            rfl
          · rw [join_modifyHead nonempty, ih]
            rfl

/-- What filling one name leaves to substitute. -/
theorem substitute_fill (escape : Str → Str) {parameter : Str × QueryData}
    {parameters : List (Str × QueryData)} (piece : Piece) :
    Piece.substitute escape (parameter :: parameters) piece =
      (piece.fill parameter.1 (parameter.2.text escape)).substitute escape parameters := by
  cases piece with
  | text line => rfl
  | place name =>
      rw [Piece.fill, Piece.substitute]
      by_cases same : name = parameter.1
      · have found : (parameter :: parameters).find? (fun other => decide (other.1 = name)) =
            some parameter :=
          List.find?_cons_of_pos (decide_eq_true same.symm)
        rw [if_pos same, found, Piece.substitute]
      · have passed : (parameter :: parameters).find? (fun other => decide (other.1 = name)) =
            parameters.find? fun other => decide (other.1 = name) :=
          List.find?_cons_of_neg fun is => same (of_decide_eq_true is).symm
        rw [if_neg same, passed, Piece.substitute]

theorem foldl_replaceParameter (escape : Str → Str) {parameters : List (Str × QueryData)}
    {template : List Piece} (clean : Clean escape parameters template) :
    parameters.foldl (replaceParameter escape) (render template) =
      template.flatMap (Piece.substitute escape parameters) := by
  induction parameters generalizing template with
  | nil =>
      refine List.flatMap_congr fun piece _ => ?_
      cases piece <;> rfl
  | cons parameter parameters ih =>
      have step : replaceParameter escape (render template) parameter =
          render (template.map (Piece.fill parameter.1 (parameter.2.text escape))) := by
        rw [replaceParameter, Replace.replaceAll_eq_join, clean.1, join_between]
      rw [List.foldl_cons, step, ih clean.2, List.flatMap_map]
      exact List.flatMap_congr fun piece _ => (substitute_fill escape piece).symm

/-- Where every placeholder is found only where the template has it, each is replaced
by its value and nothing else changes. -/
theorem buildQuery_eq (escape : Str → Str) (q : Query) (template : List Piece)
    (isTemplate : q.query = render template) (clean : Clean escape q.parameters template) :
    buildQuery escape q = template.flatMap (Piece.substitute escape q.parameters) := by
  rw [buildQuery, isTemplate, foldl_replaceParameter escape clean]

/-- `%q` of SQLite, which doubles single quotes. -/
def doubleQuotes (line : Str) : Str :=
  line.flatMap fun c => if c = 39 then [39, 39] else [c]

/-- The template `@a@,@b@`. -/
def pair : List Piece :=
  [.place [97], .text [44], .place [98]]

/-- The template with two values that are quoted. -/
def pairQuery (first second : Str) : Query where
  query := render pair
  parameters := [([97], ⟨first, true⟩), ([98], ⟨second, true⟩)]
  sorted := List.pairwise_pair.mpr (List.Lex.rel (by decide))

theorem buildQuery_pair :
    buildQuery doubleQuotes (pairQuery (ascii "x") (ascii "y@z")) = ascii "'x','y@z'" := by
  have clean : Clean doubleQuotes (pairQuery (ascii "x") (ascii "y@z")).parameters pair := by
    have first : Replace.cutAt (64 :: placeEnd [97]) (render pair) = some ([], ascii ",@b@") := by
      decide
    have second : Replace.cutAt (64 :: placeEnd [98]) (ascii "'x',@b@") =
        some (ascii "'x',", []) := by
      decide
    refine ⟨?_, ?_, trivial⟩
    · rw [Replace.parts_of_some first, Replace.parts_of_none (by decide)]
      decide
    · exact (Replace.parts_of_some second).trans (by rw [Replace.parts_of_none (by decide)]; decide)
  exact (buildQuery_eq doubleQuotes (pairQuery (ascii "x") (ascii "y@z")) pair rfl clean).trans
    (by decide)

/-- A placeholder inside a value is replaced as well, so that the value leaves its
quotes. -/
theorem not_buildQuery_pair :
    buildQuery doubleQuotes (pairQuery (ascii "@b@") (ascii ",1)--")) ≠
      pair.flatMap (Piece.substitute doubleQuotes
        (pairQuery (ascii "@b@") (ascii ",1)--")).parameters) := by
  have place : Replace.cutAt (64 :: placeEnd [97]) (render pair) = some ([], ascii ",@b@") := by
    decide
  have first : Replace.replaceAll 64 (placeEnd [97]) (ascii "'@b@'") (render pair) =
      ascii "'@b@',@b@" := by
    rw [Replace.replaceAll_of_some place, Replace.replaceAll_of_none (by decide)]
    decide
  have inside : Replace.cutAt (64 :: placeEnd [98]) (ascii "'@b@',@b@") =
      some (ascii "'", ascii "',@b@") := by
    decide
  have behind : Replace.cutAt (64 :: placeEnd [98]) (ascii "',@b@") = some (ascii "',", []) := by
    decide
  have second : Replace.replaceAll 64 (placeEnd [98]) (ascii "',1)--'") (ascii "'@b@',@b@") =
      ascii "'',1)--'',',1)--'" := by
    rw [Replace.replaceAll_of_some inside, Replace.replaceAll_of_some behind,
      Replace.replaceAll_of_none (by decide)]
    decide
  have built : buildQuery doubleQuotes (pairQuery (ascii "@b@") (ascii ",1)--")) =
      ascii "'',1)--'',',1)--'" :=
    (congrArg (Replace.replaceAll 64 (placeEnd [98]) (ascii "',1)--'")) first).trans second
  rw [built]
  decide

end Anope.Sql

/-!
## The thread of the MySQL module

`QueryRequests` and `FinishedRequests` of `ModuleSQL`, and the thread that works on the first
request without holding the mutex.  The thread keeps a reference into the deque, which a removal
invalidates when it erases the request itself or anything but the end of the deque.
-/

namespace Anope.Sql.Dispatcher

/-- `QueryRequest`, with the number of its submission. -/
structure QueryRequest (σ ι : Type) where
  id : Nat
  service : σ
  sqlinterface : Option ι
  query : Query

/-- `QueryResult`, with the number of the request that it was made for. -/
structure QueryResult (ι ρ : Type) where
  id : Nat
  sqlinterface : ι
  result : ρ

/-- Where the thread is in `DispatcherThread::Run`; `valid` is whether its reference still is. -/
inductive Phase (ρ : Type) where
  /-- Before it looks at the queue, with or without the mutex. -/
  | idle
  /-- It has taken a reference to the first request and released the mutex. -/
  | taken (valid : Bool)
  /-- `RunQuery` has returned, for the request of this number. -/
  | done (valid : Bool) (id : Nat) (sresult : ρ)

/-- Why a request is removed. -/
inductive Cause (σ μ : Type) where
  | moduleUnload (m : μ)
  | serviceGone (service : σ)

/-- The two queues and the thread, with what has happened so far. -/
structure State (σ ι μ ρ : Type) where
  /-- `QueryRequests`. -/
  requests : List (QueryRequest σ ι)
  /-- `FinishedRequests`. -/
  finished : List (QueryResult ι ρ)
  phase : Phase ρ
  submitted : List (QueryRequest σ ι)
  /-- The numbers of the requests that were executed, and their results. -/
  executed : List (Nat × ρ)
  /-- What the thread has taken off the queue. -/
  popped : List (QueryRequest σ ι)
  /-- What the interfaces have received. -/
  received : List (QueryResult ι ρ)
  removed : List (QueryRequest σ ι × Cause σ μ)

/-- The steps of the main thread and of the dispatcher.  `stale` is what a read through an
invalidated reference gives. -/
inductive Action (σ ι μ ρ : Type) where
  | run (service : σ) (sqlinterface : Option ι) (query : Query)
  | wake
  | runQuery (stale : QueryRequest σ ι) (sresult : ρ)
  | finish (stale : QueryRequest σ ι)
  | onModuleUnload (m : μ)
  | deleteService (service : σ)
  | onNotify

section Code

variable {σ ι μ ρ : Type}

/-- Whether `erase` leaves a reference to the first of so many requests valid. -/
def eraseKeepsFirst (index size : Nat) : Bool :=
  index ≠ 0 ∧ index + 1 = size

/-- The loops of `OnModuleUnload` and `~MySQLService`, from the last request to the first. -/
def removeLoop (goes : QueryRequest σ ι → Bool) :
    Nat → List (QueryRequest σ ι) → Bool → List (QueryRequest σ ι) × Bool
  | 0, requests, valid => (requests, valid)
  | i + 1, requests, valid =>
      match requests[i]? with
      | none => removeLoop goes i requests valid
      | some r =>
          if goes r then
            removeLoop goes i (requests.eraseIdx i) (valid && eraseKeepsFirst i requests.length)
          else removeLoop goes i requests valid

/-- What a removal does to the reference of the thread. -/
def Phase.invalidate (valid : Bool) : Phase ρ → Phase ρ
  | idle => idle
  | taken before => taken (before && valid)
  | done before id sresult => done (before && valid) id sresult

namespace State

variable (state : State σ ι μ ρ)

def removeAll (goes : QueryRequest σ ι → Bool) (cause : Cause σ μ) : State σ ι μ ρ :=
  let left := removeLoop goes state.requests.length state.requests true
  { state with
    requests := left.1
    phase := state.phase.invalidate left.2
    removed := state.removed ++ (state.requests.filter goes).map fun r => (r, cause) }

/-- `OnNotify`. -/
def onNotify : State σ ι μ ρ :=
  { state with finished := [], received := state.received ++ state.finished }

/-- The head of the loop of `DispatcherThread::Run`, until the mutex is released. -/
def loop : State σ ι μ ρ :=
  { state with phase := if state.requests.isEmpty then .idle else .taken true }

/-- What the thread reads through its reference. -/
def read (valid : Bool) (stale : QueryRequest σ ι) : QueryRequest σ ι :=
  if valid then state.requests.headD stale else stale

/-- What follows `RunQuery`, with the mutex held. -/
def pop (r : QueryRequest σ ι) (sresult : ρ) : State σ ι μ ρ :=
  match state.requests with
  | [] => state
  | front :: requests =>
      if front.query.query = r.query.query then
        { state with
          requests := requests
          finished := state.finished ++
            r.sqlinterface.toList.map fun sqlinterface => ⟨front.id, sqlinterface, sresult⟩
          popped := state.popped ++ [front] }
      else state

end State

/-- One step, where it is possible; `owner` is the module of an interface. -/
def step [DecidableEq σ] [DecidableEq μ] (owner : ι → μ) (state : State σ ι μ ρ) :
    Action σ ι μ ρ → Option (State σ ι μ ρ)
  | .run service sqlinterface query =>
      let r : QueryRequest σ ι := ⟨state.submitted.length, service, sqlinterface, query⟩
      some { state with
        requests := state.requests ++ [r]
        submitted := state.submitted ++ [r] }
  | .wake =>
      match state.phase with
      | .idle => some state.loop
      | _ => none
  | .runQuery stale sresult =>
      match state.phase with
      | .taken valid =>
          let r := state.read valid stale
          some { state with
            phase := .done valid r.id sresult
            executed := state.executed ++ [(r.id, sresult)] }
      | _ => none
  | .finish stale =>
      match state.phase with
      | .done valid _ sresult => some (state.pop (state.read valid stale) sresult).loop
      | _ => none
  | .onModuleUnload m =>
      some (state.removeAll (fun r => r.sqlinterface.map owner = some m)
        (.moduleUnload m)).onNotify
  | .deleteService service =>
      some (state.removeAll (fun r => r.service = service) (.serviceGone service))
  | .onNotify => some state.onNotify

/-- The module after it is loaded. -/
def State.initial : State σ ι μ ρ where
  requests := []
  finished := []
  phase := .idle
  submitted := []
  executed := []
  popped := []
  received := []
  removed := []

/-! ## The property -/

/-- A removal is for a reason. -/
def Cause.Of (owner : ι → μ) (r : QueryRequest σ ι) : Cause σ μ → Prop
  | moduleUnload m => r.sqlinterface.map owner = some m
  | serviceGone service => r.service = service

/-- Every request waits, has been executed and taken off the queue, or was removed because its
module or service went away.  None is executed twice, what was taken off was executed, and its
interface, if it has one, is given the result of its own query, once. -/
structure Answers (owner : ι → μ) (state : State σ ι μ ρ) : Prop where
  accounts : state.submitted.Perm
    (state.requests ++ state.popped ++ state.removed.map Prod.fst)
  distinct : (state.submitted.map QueryRequest.id).Nodup
  once : (state.executed.map Prod.fst).Nodup
  executed : ∀ r ∈ state.popped, ∃ sresult, (r.id, sresult) ∈ state.executed
  answered : ∀ r ∈ state.popped, ∀ sqlinterface, r.sqlinterface = some sqlinterface →
    ∃ sresult, (r.id, sresult) ∈ state.executed ∧
      (⟨r.id, sqlinterface, sresult⟩ : QueryResult ι ρ) ∈ state.finished ++ state.received
  own : ∀ answer ∈ state.finished ++ state.received, ∃ r ∈ state.popped,
    answer.id = r.id ∧ r.sqlinterface = some answer.sqlinterface ∧
      (r.id, answer.result) ∈ state.executed
  single : ((state.finished ++ state.received).map QueryResult.id).Nodup
  causes : ∀ removal ∈ state.removed, removal.2.Of owner removal.1

/-- What a step must find.  A request is not executed through an invalidated reference.  When the
thread compares, what it reads through an invalidated reference is what belongs to the first
request, if that is still the one it has executed, and has another text if it is not. -/
def Fits (state : State σ ι μ ρ) : Action σ ι μ ρ → Prop
  | .runQuery _ _ => state.phase = .taken true
  | .finish stale => ∀ id sresult, state.phase = .done false id sresult →
      ∀ front, state.requests.head? = some front →
        if front.id = id then
          front.query.query = stale.query.query ∧ front.sqlinterface = stale.sqlinterface
        else front.query.query ≠ stale.query.query
  | _ => True

end Code

end Anope.Sql.Dispatcher
