import Anope.Text.Casemap
import Anope.Text.Convert

/-!
# The configuration parser

`Conf::LoadConf`, which reads blocks and their items line by line, and `ReplaceVars`.
The maps of a block are lists in the order of insertion: blocks of one name keep that
order, and an item that is set again keeps its place.
-/

namespace Anope.Config

open Anope.Text Anope.Text.Convert

/-- `FilePosition`. -/
structure FilePosition where
  name : Str
  line : Nat
  column : Nat
  deriving DecidableEq, Repr

/-- The exceptions of `LoadConf`. -/
inductive LoadError where
  | unexpectedQuote (position : FilePosition)
  /-- A quoted string behind words. -/
  | priorWords (position : FilePosition)
  | outsideSection (position : FilePosition)
  | strayEquals (position : FilePosition)
  | unexpectedWord (position : FilePosition)
  | straySemicolon (position : FilePosition)
  | strayBrace (position : FilePosition)
  | unterminatedVariable (position : FilePosition)
  | undefinedVariable (var : Str) (position : FilePosition)
  | unterminatedComment (name : Str)
  | unterminatedQuote (name : Str)
  | garbage (name : Str)
  /-- With the place where the block was opened. -/
  | unterminatedBlock (position : FilePosition)
  | unterminatedCommentedBlock (name : Str)
  deriving DecidableEq, Repr

/-- `Block`, without its position. -/
structure Block where
  name : Str
  items : List (Str × Str)
  blocks : List Block

namespace Block

/-- `Block::Get` of a text. -/
def get (casemap : Casemap) (block : Block) (tag : Str) : Str :=
  ((block.items.find? fun item => casemap.equalsCi item.1 tag).map Prod.snd).getD []

/-- `items[name] = value`. -/
def setItem (casemap : Casemap) (block : Block) (name value : Str) : Block :=
  { block with
    items :=
      if block.items.any fun item => casemap.equalsCi item.1 name then
        block.items.map fun item => if casemap.equalsCi item.1 name then (item.1, value) else item
      else block.items ++ [(name, value)] }

/-- `blocks.emplace`. -/
def addBlock (block child : Block) : Block :=
  { block with blocks := block.blocks ++ [child] }

/-- `Block::GetBlocks`. -/
def getBlocks (casemap : Casemap) (block : Block) (name : Str) : List Block :=
  block.blocks.filter fun child => casemap.equalsCi child.name name

end Block

/-- What the parser depends on besides the text. -/
structure LoadEnv where
  casemap : Casemap
  getenv : Str → Option Str

/-! ## Variables -/

/-- What a variable stands for. -/
def readVar (env : LoadEnv) (defines : List Block) (position : FilePosition) (var : Str) :
    Except LoadError Str :=
  if (ascii "env.").isPrefixOf var then .ok ((env.getenv (var.drop 4)).getD [])
  else
    match defines.find? fun define => define.get env.casemap (ascii "name") = var with
    | some define => .ok (define.get env.casemap (ascii "value"))
    | none => .error (.undefinedVariable var position)

/-- The loop of `ReplaceVars`, with the part of a variable that was read. -/
def replaceLoop (env : LoadEnv) (defines : List Block) (position : FilePosition) :
    Option Str → Str → Except LoadError Str
  | none, [] => .ok []
  | some _, [] => .error (.unterminatedVariable position)
  | none, c :: rest =>
      if c ≠ 36 then (replaceLoop env defines position none rest).map (c :: ·)
      else
        match rest with
        | [] => .ok [36]
        | d :: after =>
            if d = 123 then replaceLoop env defines position (some []) after
            else (replaceLoop env defines position none (d :: after)).map (36 :: ·)
  | some var, c :: rest =>
      if c = 125 then
        match readVar env defines position var with
        | .error e => .error e
        | .ok value => (replaceLoop env defines position none rest).map (value ++ ·)
      else replaceLoop env defines position (some (var ++ [c])) rest

/-- `ReplaceVars`. -/
def replaceVars (env : LoadEnv) (defines : List Block) (position : FilePosition) (text : Str) :
    Except LoadError Str :=
  replaceLoop env defines position none text

/-! ## The parser -/

/-- An open block, with the place where it was opened. -/
structure Frame where
  block : Block
  position : FilePosition

/-- The state of `LoadConf`.  The open blocks are on the stack, the innermost first, and go
into the block around them when they are closed; a commented block is `none`. -/
structure Reader where
  conf : Block
  stack : List (Option Frame)
  itemname : Str
  wordbuffer : Str
  inWord : Bool
  inQuote : Bool
  inComment : Bool

namespace Reader

/-- `block_stack.pop()`. -/
def pop (reader : Reader) : Reader :=
  match reader.stack with
  | [] => reader
  | none :: stack => { reader with stack := stack }
  | some frame :: some outer :: stack =>
      { reader with
        stack := some { outer with block := outer.block.addBlock frame.block } :: stack }
  | some frame :: stack =>
      { reader with conf := reader.conf.addBlock frame.block, stack := stack }

/-- The blocks `define`, open ones as well. -/
def defines (env : LoadEnv) (reader : Reader) : List Block :=
  (pop^[reader.stack.length] reader).conf.getBlocks env.casemap (ascii "define")

/-- `{`. -/
def openBlock (position : FilePosition) (reader : Reader) : Reader :=
  -- commented or unnamed section
  if reader.wordbuffer.isEmpty then { reader with stack := none :: reader.stack }
  else
    let frame : Option Frame :=
      match reader.stack with
      | none :: _ => none
      | _ => some ⟨⟨reader.wordbuffer, [], []⟩, position⟩
    { reader with stack := frame :: reader.stack, wordbuffer := [], inWord := false }

/-- The end of an item. -/
def finishItem (env : LoadEnv) (position : FilePosition) (reader : Reader) :
    Except LoadError Reader :=
  if reader.itemname.isEmpty then .ok { reader with inWord := false }
  else
    match reader.stack with
    | [] => .error (.straySemicolon position)
    | none :: _ => .ok { reader with inWord := false, wordbuffer := [], itemname := [] }
    | some frame :: stack =>
        match replaceVars env (reader.defines env) position reader.wordbuffer with
        | .error e => .error e
        | .ok value =>
            let block := frame.block.setItem env.casemap reader.itemname value
            .ok { reader with
              stack := some { frame with block := block } :: stack
              inWord := false
              wordbuffer := []
              itemname := [] }

/-- `}`. -/
def closeBlock (position : FilePosition) (reader : Reader) : Except LoadError Reader :=
  if reader.stack.isEmpty then .error (.strayBrace position) else .ok reader.pop

/-- The end of an iteration, at `;`, at `}` and at the end of a line. -/
def check (env : LoadEnv) (position : FilePosition) (ch : UInt8) (eol : Bool)
    (reader : Reader) : Except LoadError Reader :=
  if ch = 59 ∨ ch = 125 ∨ eol then
    if !eol ∧ reader.inQuote then .ok reader
    else if reader.inQuote then .ok { reader with wordbuffer := reader.wordbuffer ++ [10] }
    else do
      let reader ← reader.finishItem env position
      if ch = 125 then reader.closeBlock position else .ok reader
  else .ok reader

end Reader

/-- How much of the line an iteration reads. -/
inductive Advance where
  | one
  | two
  | line
  deriving DecidableEq, Repr

/-- An iteration up to the check at its end, which `continue` leaves out. -/
structure Scanned where
  reader : Reader
  advance : Advance
  checked : Bool

/-- A character in quotes. -/
def scanQuote (reader : Reader) (ch : UInt8) (next : Option UInt8) : Scanned :=
  if ch = 92 ∧ next = some 34 then
    ⟨{ reader with wordbuffer := reader.wordbuffer ++ [34] }, .two, true⟩
  else if ch = 34 then ⟨{ reader with inQuote := false, inWord := false }, .one, true⟩
  else if ch ≠ 0 then ⟨{ reader with wordbuffer := reader.wordbuffer ++ [ch] }, .one, true⟩
  else ⟨reader, .one, true⟩

/-- A character in a comment. -/
def scanComment (reader : Reader) (ch : UInt8) (next : Option UInt8) : Scanned :=
  if ch = 42 ∧ next = some 47 then ⟨{ reader with inComment := false }, .two, true⟩
  else ⟨reader, .one, false⟩

/-- A character elsewhere. -/
def scanPlain (position : FilePosition) (reader : Reader) (ch : UInt8) (next : Option UInt8) :
    Except LoadError Scanned :=
  if ch = 35 ∨ ch = 47 ∧ next = some 47 then .ok ⟨reader, .line, true⟩
  else if ch = 47 ∧ next = some 42 then .ok ⟨{ reader with inComment := true }, .two, false⟩
  else if !reader.inWord ∧ (ch = 40 ∨ ch = 95 ∨ ch = 41) then .ok ⟨reader, .one, true⟩
  else if ch = 34 then
    if reader.stack.isEmpty ∨ reader.itemname.isEmpty then .error (.unexpectedQuote position)
    else if reader.inWord ∨ !reader.wordbuffer.isEmpty then .error (.priorWords position)
    else .ok ⟨{ reader with inQuote := true, inWord := true }, .one, true⟩
  else if ch = 61 then
    if reader.stack.isEmpty then .error (.outsideSection position)
    else if !reader.itemname.isEmpty ∨ reader.wordbuffer.isEmpty then
      .error (.strayEquals position)
    else
      .ok ⟨{ reader with inWord := false, itemname := reader.wordbuffer, wordbuffer := [] }, .one,
        true⟩
  else if ch = 123 then .ok ⟨reader.openBlock position, .one, false⟩
  else if ch = 32 ∨ ch = 13 ∨ ch = 9 then .ok ⟨{ reader with inWord := false }, .one, true⟩
  else if ch = 59 ∨ ch = 125 then .ok ⟨reader, .one, true⟩
  else if !reader.inWord ∧ !reader.wordbuffer.isEmpty then .error (.unexpectedWord position)
  else
    .ok ⟨{ reader with wordbuffer := reader.wordbuffer ++ [ch], inWord := true }, .one, true⟩

/-- A character, with the one behind it on the line. -/
def scan (position : FilePosition) (reader : Reader) (ch : UInt8) (next : Option UInt8) :
    Except LoadError Scanned :=
  if reader.inQuote then .ok (scanQuote reader ch next)
  else if reader.inComment then .ok (scanComment reader ch next)
  else scanPlain position reader ch next

/-- The check at the end of an iteration, when it is reached. -/
def Scanned.finish (env : LoadEnv) (position : FilePosition) (ch : UInt8) (eol : Bool)
    (scanned : Scanned) : Except LoadError Reader :=
  if scanned.checked then scanned.reader.check env position ch eol else .ok scanned.reader

/-- `position.column++`. -/
def FilePosition.next (position : FilePosition) : FilePosition :=
  { position with column := position.column + 1 }

/-- The loop over the characters of a line. -/
def readChars (env : LoadEnv) (position : FilePosition) (reader : Reader) :
    Str → Except LoadError Reader
  | [] => .ok reader
  | ch :: rest => do
      let scanned ← scan position.next reader ch rest.head?
      match scanned.advance with
      | .one =>
          let reader ← scanned.finish env position.next ch rest.isEmpty
          readChars env position.next reader rest
      | .two =>
          match rest with
          | [] => scanned.finish env position.next ch true
          | _ :: rest =>
              let reader ← scanned.finish env position.next ch rest.isEmpty
              readChars env position.next reader rest
      | .line => scanned.finish env position.next ch true

/-- One line.  White space at the start of a line in quotes is left out; when nothing else
is there, the loop sees the end of the C string. -/
def readLine (env : LoadEnv) (position : FilePosition) (reader : Reader) (line : Str) :
    Except LoadError Reader :=
  if !reader.inQuote then readChars env position reader line
  else if line.isEmpty then .ok { reader with wordbuffer := reader.wordbuffer ++ [10] }
  else
    let stripped := line.dropWhile isSpace
    readChars env position reader (if stripped.isEmpty then [0] else stripped)

/-- The loop over the lines. -/
def readLines (env : LoadEnv) (name : Str) : Nat → Reader → List Str → Except LoadError Reader
  | _, reader, [] => .ok reader
  | number, reader, line :: lines => do
      let reader ← readLine env ⟨name, number, 0⟩ reader line
      readLines env name (number + 1) reader lines

/-- What `LoadConf` checks at the end of the file. -/
def Reader.finish (name : Str) (reader : Reader) : Except LoadError Block :=
  if reader.inComment then .error (.unterminatedComment name)
  else if reader.inQuote then .error (.unterminatedQuote name)
  else if !reader.itemname.isEmpty ∨ !reader.wordbuffer.isEmpty then .error (.garbage name)
  else
    match reader.stack with
    | [] => .ok reader.conf
    | some frame :: _ => .error (.unterminatedBlock frame.position)
    | none :: _ => .error (.unterminatedCommentedBlock name)

/-- `LoadConf` with the lines of a file. -/
def loadConf (env : LoadEnv) (conf : Block) (name : Str) (lines : List Str) :
    Except LoadError Block := do
  let reader ← readLines env name 1 ⟨conf, [], [], [], false, false, false⟩ lines
  reader.finish name

end Anope.Config
