import Anope.Library.Multimap
import Anope.Library.While
import Anope.Mode.Core
import Anope.Text.Sepstream

/-!
# Templates of the web panel

`TemplateFileServer::Serve` goes over a template once.  A condition is remembered on one stack and
a loop on another one, and the end of a loop goes back to its start.  Blocks of a template nest, so
there is also a reading of it that has no stacks and does not go back.
-/

namespace Anope.Webcpanel

open Library (Multimap)
open Library.Split (cut)
open Library.While (Pass)
open Text (Sepstream)

/-! ## Tags -/

/-- The values that a page has for a template. -/
abbrev Replacements := Multimap Str Str

/-- What an `IF` tests. -/
inductive Condition where
  | eq (first second : Str)
  | exists (name : Str)
  deriving DecidableEq, Repr

/-- What stands in braces. -/
inductive Tag where
  | ifs (condition : Condition)
  | otherwise
  | endIf
  | loop (vars names : List Str)
  | endFor
  | include (name : Str)
  | value (name : Str)
  | invalid
  deriving DecidableEq, Repr

/-- The tokens of an `IF`. -/
def readIf (tokens : List Str) : Tag :=
  match tokens with
  | [_, kind, first, second] => if kind = ascii "EQ" then .ifs (.eq first second) else .invalid
  | [_, kind, name] => if kind = ascii "EXISTS" then .ifs (.exists name) else .invalid
  | _ => .invalid

/-- The tokens of a `FOR`. -/
def readFor (tokens : List Str) : Tag :=
  match tokens with
  | [_, vars, word, names] =>
      let tempVariables := (Sepstream.new vars 44 false).getTokens
      let realVariables := (Sepstream.new names 44 false).getTokens
      if word = ascii "IN" ∧ tempVariables.length = realVariables.length then
        .loop tempVariables realVariables
      else .invalid
  | _ => .invalid

/-- The tokens of an `INCLUDE`. -/
def readInclude (tokens : List Str) : Tag :=
  match tokens with
  | [_, name] => .include name
  | _ => .invalid

/-- What the content of a tag stands for.  What is no block is a value. -/
def tagOf (content : Str) : Tag :=
  let tokens := (Sepstream.new content 32 false).getTokens
  if (ascii "IF ").isPrefixOf content then readIf tokens
  else if content = ascii "ELSE" then .otherwise
  else if content = ascii "END IF" then .endIf
  else if (ascii "FOR ").isPrefixOf content then readFor tokens
  else if content = ascii "END FOR" then .endFor
  else if (ascii "INCLUDE ").isPrefixOf content then readInclude tokens
  else .value content

/-- A brace follows a backslash. -/
def escapes (c : UInt8) (rest : Str) : Bool :=
  c = 92 && (rest.head? = some 123 || rest.head? = some 125)

/-! ## Loops and values -/

/-- `HTTP::Escape` of a character. -/
def escapeChar (c : UInt8) : Str :=
  if c = 60 then ascii "&lt;"
  else if c = 62 then ascii "&gt;"
  else if c = 34 then ascii "&quot;"
  else if c = 38 then ascii "&amp;"
  else [c]

/-- `HTTP::Escape`. -/
def escape (src : Str) : Str :=
  src.flatMap escapeChar

/-- A loop, which starts behind a position.  For each of its variables there are the values that are
left. -/
structure ForLoop where
  start : Nat
  vars : List Str
  ranges : List (List Str)
  deriving DecidableEq

/-- `increment`. -/
def ForLoop.increment (fl : ForLoop) : ForLoop :=
  { fl with ranges := fl.ranges.map List.tail }

/-- `finished`. -/
def ForLoop.finished (fl : ForLoop) : Bool :=
  fl.ranges.all List.isEmpty

/-- The value that a loop has for a variable. -/
def ForLoop.find (fl : ForLoop) (key : Str) : Option Str :=
  (fl.vars.zip fl.ranges).findSome? fun (var, range) => if key = var then range.head? else none

/-- `FindReplacement`: the innermost loop comes first, and the values of the page come last. -/
def findReplacement (r : Replacements) (loops : List ForLoop) (key : Str) : Str :=
  ((loops.findSome? fun fl => fl.find key).or (r.equalRange key).head?).getD []

/-- What a condition tests, for some values of names.  A name without a value stands for itself. -/
def Condition.holds (r : Replacements) (find : Str → Str) : Condition → Bool
  | .eq first second =>
      (if find first = [] then first else find first) =
        if find second = [] then second else find second
  | .exists name => 0 < r.count name

/-! ## Serving -/

/-- A call of `Serve` that has opened its file. -/
structure Call where
  buf : Str
  pos : Nat
  escaped : Bool
  finished : Str
  deriving DecidableEq

/-- The calls of `Serve`, the innermost first, the stacks that they share, what has been written,
and the files that could not be opened. -/
structure State where
  calls : List Call
  ifStack : List Bool
  loops : List ForLoop
  reply : Str
  notFound : List Str
  deriving DecidableEq

/-- Nothing is served. -/
def State.idle : State :=
  ⟨[], [], [], [], []⟩

/-- The stack of conditions is empty, or its top holds. -/
def ifOk (ifStack : List Bool) : Bool :=
  ifStack.head?.getD true

/-- There is no loop, or the innermost one is not finished. -/
def forOk (loops : List ForLoop) : Bool :=
  (loops.head?.map fun fl => !fl.finished).getD true

/-- `Serve` of an open file begins. -/
def State.openFile (buf : Str) (state : State) : State :=
  { state with calls := ⟨buf, 0, false, []⟩ :: state.calls }

/-- `Serve` of a file. -/
def State.serve (files : Str → Option Str) (name : Str) (state : State) : State :=
  match files name with
  | none => { state with notFound := state.notFound ++ [name] }
  | some buf => state.openFile buf

/-- What `Serve` would add, if it is to be seen. -/
def Call.add (call : Call) (ifStack : List Bool) (loops : List ForLoop) (text : Str) : Call :=
  if ifOk ifStack && forOk loops then { call with finished := call.finished ++ text } else call

/-- A tag whose brace closes at a position. -/
def State.tag (files : Str → Option Str) (r : Replacements) (state : State) (call : Call)
    (callers : List Call) (close : Nat) (tag : Tag) : State :=
  let behind := { call with pos := close + 1 }
  let next := { state with calls := behind :: callers }
  match tag with
  | .ifs condition =>
      let holds := condition.holds r (findReplacement r state.loops)
      { next with ifStack := (ifOk state.ifStack && holds) :: state.ifStack }
  | .otherwise =>
      match state.ifStack with
      | [] => next
      | old :: ifStack => { next with ifStack := (ifOk ifStack && !old) :: ifStack }
  | .endIf => { next with ifStack := state.ifStack.tail }
  | .loop vars names =>
      { next with loops := ⟨close, vars, names.map r.equalRange⟩ :: state.loops }
  | .endFor =>
      match state.loops with
      | [] => next
      | fl :: loops =>
          if fl.finished || fl.increment.finished then { next with loops := loops }
          else
            -- The pointer moves back to the start of the loop.
            { state with
              calls := { call with pos := fl.start + 1 } :: callers
              loops := fl.increment :: loops }
  | .include name =>
      { next with
        calls := { behind with finished := [] } :: callers
        reply := state.reply ++ call.finished }.serve files name
  | .value name =>
      let replacement := escape (findReplacement r state.loops name)
      { next with calls := behind.add state.ifStack state.loops replacement :: callers }
  | .invalid => next

/-- `Serve` returns, which writes what it has. -/
def State.leave (state : State) (call : Call) (callers : List Call) : State :=
  { state with calls := callers, reply := state.reply ++ call.finished }

/-- A pass of the loop of `Serve`, in the innermost call. -/
def State.pass (files : Str → Option Str) (r : Replacements) (state : State) : Pass State State :=
  match state.calls with
  | [] => .done state
  | call :: callers =>
      match call.buf.drop call.pos with
      | [] => .goOn (state.leave call callers)
      | c :: rest =>
          if escapes c rest then
            .goOn { state with
              calls := { call with pos := call.pos + 1, escaped := true } :: callers }
          else if c = 123 ∧ call.escaped = false then
            match cut 125 rest with
            | none => .goOn (state.leave call callers)
            | some (content, _) =>
                .goOn (state.tag files r call callers (call.pos + content.length + 1)
                  (tagOf content))
          else
            let behind := { call with pos := call.pos + 1, escaped := false }
            .goOn { state with calls := behind.add state.ifStack state.loops [c] :: callers }

end Anope.Webcpanel
