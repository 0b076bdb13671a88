import Anope.Webcpanel.Template
import Mathlib.Data.List.Flatten

/-!
# The nested reading of templates

A template is a tree of blocks.  Read so, a block is seen where all the conditions around it hold,
and once for each round of every loop around it.  `Serve` writes this, and also what is in a loop
with values that is in a loop without any.
-/

namespace Anope.Webcpanel

open Library (Multimap)
open Library.Split (cut cut_append cut_eq_none_iff cut_eq_some_iff)
open Library.While (Ends Reaches ends_of_done reaches_of_goOn)

/-! ## Blocks -/

/-- A template is text and tags. -/
inductive Item where
  | text (c : UInt8)
  | tag (tag : Tag)
  deriving DecidableEq, Repr

/-- What a template consists of.  It ends at a brace that is not closed. -/
def scan (text : Str) : List Item :=
  match text with
  | [] => []
  | c :: rest =>
      if escapes c rest then
        match rest with
        | [] => []
        | brace :: behind => .text brace :: scan behind
      else if c = 123 then
        match _closes : cut 125 rest with
        | none => []
        | some (content, behind) => .tag (tagOf content) :: scan behind
      else .text c :: scan rest
  termination_by text.length
  decreasing_by
    · simp only [List.length_cons]
      omega
    · rw [(cut_eq_some_iff.mp _closes).1, List.length_cons, List.length_append, List.length_cons]
      omega
    · exact Nat.lt_succ_self _

/-- Blocks in the order in which they stand. -/
inductive Block where
  | done
  | text (c : UInt8) (next : Block)
  | value (name : Str) (next : Block)
  | invalid (next : Block)
  | when (condition : Condition) (yes next : Block)
  | choice (condition : Condition) (yes no next : Block)
  | loop (vars names : List Str) (body next : Block)
  deriving DecidableEq, Repr

/-- How blocks are written. -/
def Block.items : Block → List Item
  | .done => []
  | .text c next => .text c :: next.items
  | .value name next => .tag (.value name) :: next.items
  | .invalid next => .tag .invalid :: next.items
  | .when condition yes next =>
      .tag (.ifs condition) :: (yes.items ++ .tag .endIf :: next.items)
  | .choice condition yes no next =>
      .tag (.ifs condition) ::
        (yes.items ++ .tag .otherwise :: (no.items ++ .tag .endIf :: next.items))
  | .loop vars names body next =>
      .tag (.loop vars names) :: (body.items ++ .tag .endFor :: next.items)

/-- A template whose blocks nest. -/
structure Template where
  text : Str
  blocks : Block
  nested : scan text = blocks.items

/-- Names with their values, the nearest ones first. -/
abbrev Values := List (Str × Str)

/-- The nearest value of a name. -/
def valueOf (values : Values) (name : Str) : Str :=
  (values.lookup name).getD []

/-- A loop has a round for each value of the variable that has the most. -/
def rounds (ranges : List (List Str)) : Nat :=
  (ranges.map List.length).foldr max 0

/-- The values that variables have in a round. -/
def bindings (vars : List Str) (ranges : List (List Str)) (round : Nat) : Values :=
  (vars.zip ranges).filterMap fun (var, range) => range[round]?.map fun value => (var, value)

/-- What blocks stand for. -/
def Block.reading (r : Replacements) (values : Values) : Block → Str
  | .done => []
  | .text c next => c :: next.reading r values
  | .value name next => escape (valueOf values name) ++ next.reading r values
  | .invalid next => next.reading r values
  | .when condition yes next =>
      (if condition.holds r (valueOf values) then yes.reading r values else []) ++
        next.reading r values
  | .choice condition yes no next =>
      (if condition.holds r (valueOf values) then yes.reading r values
        else no.reading r values) ++ next.reading r values
  | .loop vars names body next =>
      let ranges := names.map r.equalRange
      ((List.range (rounds ranges)).flatMap fun round =>
        body.reading r (bindings vars ranges round ++ values)) ++ next.reading r values

/-- `Serve` of a template ends, with nothing left on the stacks, and writes what its blocks stand
for. -/
def Follows (files : Str → Option Str) (r : Replacements) (template : Template) : Prop :=
  Ends (State.pass files r) (State.idle.openFile template.text)
    { State.idle with reply := template.blocks.reading r r.entries }

/-- No text, and no value that is not empty, is read in a loop that has rounds.  `shown` is whether
the blocks themselves are in one. -/
def Block.Silent (r : Replacements) (shown : Bool) (values : Values) : Block → Prop
  | .done => True
  | .text _ next => shown = false ∧ next.Silent r shown values
  | .value name next => (shown = true → valueOf values name = []) ∧ next.Silent r shown values
  | .invalid next => next.Silent r shown values
  | .when condition yes next =>
      (condition.holds r (valueOf values) → yes.Silent r shown values) ∧
        next.Silent r shown values
  | .choice condition yes no next =>
      (if condition.holds r (valueOf values) then yes.Silent r shown values
        else no.Silent r shown values) ∧ next.Silent r shown values
  | .loop vars names body next =>
      let ranges := names.map r.equalRange
      (if rounds ranges = 0 then body.Silent r false values
        else ∀ round < rounds ranges,
          body.Silent r true (bindings vars ranges round ++ values)) ∧ next.Silent r shown values

/-- In loops without rounds that are read, nothing is read in a loop that has rounds. -/
def Block.Clear (r : Replacements) (values : Values) : Block → Prop
  | .done => True
  | .text _ next => next.Clear r values
  | .value _ next => next.Clear r values
  | .invalid next => next.Clear r values
  | .when condition yes next =>
      (condition.holds r (valueOf values) → yes.Clear r values) ∧ next.Clear r values
  | .choice condition yes no next =>
      (if condition.holds r (valueOf values) then yes.Clear r values
        else no.Clear r values) ∧ next.Clear r values
  | .loop vars names body next =>
      let ranges := names.map r.equalRange
      (if rounds ranges = 0 then body.Silent r false values
        else ∀ round < rounds ranges, body.Clear r (bindings vars ranges round ++ values)) ∧
        next.Clear r values

variable {files : Str → Option Str} {r : Replacements} {buf reply : Str} {callers : List Call}
  {notFound : List Str} {pos : Nat} {more : List Item}

/-! ## Values -/

/-- The values that a loop has for its variables. -/
def ForLoop.values (fl : ForLoop) : Values :=
  (fl.vars.zip fl.ranges).filterMap fun (var, range) => range.head?.map fun value => (var, value)

/-- The values that names have in some loops. -/
def valuesOf (r : Replacements) (loops : List ForLoop) : Values :=
  loops.flatMap ForLoop.values ++ r.entries

theorem find_eq_lookup (fl : ForLoop) (key : Str) : fl.find key = fl.values.lookup key := by
  rw [ForLoop.find, ForLoop.values]
  generalize fl.vars.zip fl.ranges = pairs
  induction pairs with
  | nil => rfl
  | cons pair pairs ih =>
      obtain ⟨var, range⟩ := pair
      rw [List.findSome?_cons, ih]
      cases range with
      | nil => simp only [List.head?_nil, ite_self, List.filterMap_cons, Option.map_none]
      | cons value range =>
          by_cases same : key = var
          · simp [same]
          · simp [same, List.lookup_cons, beq_false_of_ne same]

theorem lookup_entries (r : Replacements) (key : Str) :
    r.entries.lookup key = (r.equalRange key).head? := by
  rw [Multimap.equalRange]
  generalize r.entries = entries
  induction entries with
  | nil => rfl
  | cons entry entries ih =>
      obtain ⟨name, value⟩ := entry
      by_cases same : key = name
      · simp [same]
      · rw [List.lookup_cons, beq_false_of_ne same, List.filter_cons_of_neg, ih]
        simpa using Ne.symm same

/-- A name has the value that is nearest in the loops. -/
theorem findReplacement_eq (r : Replacements) (loops : List ForLoop) :
    findReplacement r loops = valueOf (valuesOf r loops) := by
  funext key
  rw [findReplacement, valueOf, valuesOf, List.lookup_append, lookup_entries]
  congr 2
  induction loops with
  | nil => rfl
  | cons fl loops ih =>
      rw [List.findSome?_cons, List.flatMap_cons, List.lookup_append, ← ih, find_eq_lookup]
      cases fl.values.lookup key <;> rfl

/-! ## Items -/

theorem drop_of_append {front rest : Str} (is : buf.drop pos = front ++ rest) :
    buf.drop (pos + front.length) = rest := by
  rw [← List.drop_drop, is, List.drop_left]

theorem drop_succ {c : UInt8} {rest : Str} (is : buf.drop pos = c :: rest) :
    buf.drop (pos + 1) = rest := by
  rw [← List.drop_drop, is]
  rfl

theorem scan_nil : scan [] = [] := by
  rw [scan]

theorem scan_escaped {c brace : UInt8} {behind : Str} (isEscaped : escapes c (brace :: behind)) :
    scan (c :: brace :: behind) = .text brace :: scan behind := by
  rw [scan]
  exact if_pos isEscaped

theorem scan_unclosed {rest : Str} (unclosed : 125 ∉ rest) : scan (123 :: rest) = [] := by
  have none : escapes 123 rest = false := rfl
  rw [scan.eq_def]
  dsimp only
  rw [none, if_neg Bool.false_ne_true, if_pos rfl]
  split
  · rfl
  · rename_i closes
    rw [cut_eq_none_iff.mpr unclosed] at closes
    cases closes

theorem scan_tag {content behind : Str} (closes : 125 ∉ content) :
    scan (123 :: (content ++ 125 :: behind)) = .tag (tagOf content) :: scan behind := by
  have none : escapes 123 (content ++ 125 :: behind) = false := rfl
  rw [scan.eq_def]
  dsimp only
  rw [none, if_neg Bool.false_ne_true, if_pos rfl]
  split
  · rename_i isNone
    rw [cut_append closes] at isNone
    cases isNone
  · rename_i isSome
    rw [cut_append closes] at isSome
    cases isSome
    rfl

theorem scan_text {c : UInt8} {rest : Str} (plain : escapes c rest = false) (isText : c ≠ 123) :
    scan (c :: rest) = .text c :: scan rest := by
  rw [scan.eq_def]
  dsimp only
  rw [plain, if_neg Bool.false_ne_true, if_neg isText]

/-- What a text begins with, and what it consists of. -/
inductive Front : Str → List Item → Prop
  | nil : Front [] []
  | escaped {c brace : UInt8} {behind : Str} : escapes c (brace :: behind) →
      Front (c :: brace :: behind) (.text brace :: scan behind)
  | unclosed {rest : Str} : 125 ∉ rest → Front (123 :: rest) []
  | tag {content behind : Str} : 125 ∉ content →
      Front (123 :: (content ++ 125 :: behind)) (.tag (tagOf content) :: scan behind)
  | text {c : UInt8} {rest : Str} : escapes c rest = false → c ≠ 123 →
      Front (c :: rest) (.text c :: scan rest)

theorem front_scan (text : Str) : Front text (scan text) := by
  cases text with
  | nil => exact scan_nil ▸ .nil
  | cons c rest =>
      cases isEscape : escapes c rest with
      | true =>
          cases rest with
          | nil => simp [escapes] at isEscape
          | cons brace behind => exact scan_escaped isEscape ▸ .escaped isEscape
      | false =>
          by_cases isBrace : c = 123
          · subst isBrace
            cases closes : cut 125 rest with
            | none =>
                have unclosed := cut_eq_none_iff.mp closes
                exact scan_unclosed unclosed ▸ .unclosed unclosed
            | some parts =>
                obtain ⟨isRest, absent⟩ := cut_eq_some_iff.mp closes
                rw [isRest]
                exact scan_tag absent ▸ .tag absent
          · exact scan_text isEscape isBrace ▸ .text isEscape isBrace

/-! ## Passes -/

/-- The innermost call is at a position. -/
def stateAt (buf : Str) (callers : List Call) (reply : Str) (notFound : List Str) (pos : Nat)
    (finished : Str) (ifStack : List Bool) (loops : List ForLoop) : State :=
  ⟨⟨buf, pos, false, finished⟩ :: callers, ifStack, loops, reply, notFound⟩

theorem call_add (call : Call) (ifStack : List Bool) (loops : List ForLoop) (text : Str) :
    call.add ifStack loops text =
      { call with
        finished := call.finished ++ if ifOk ifStack && forOk loops then text else [] } := by
  rw [Call.add]
  split_ifs
  · rfl
  · rw [List.append_nil]

theorem escapes_brace {c brace : UInt8} {rest : Str} (isEscaped : escapes c (brace :: rest))
    (behind : Str) : escapes brace behind = false := by
  have isBrace : brace = 123 ∨ brace = 125 := by
    simpa [escapes] using And.right (Bool.and_eq_true_iff.mp isEscaped)
  rcases isBrace with rfl | rfl <;> rfl

/-- A pass over a character that is no tag. -/
theorem pass_text {c : UInt8} {rest : Str} {escaped : Bool} {finished : Str} {ifStack : List Bool}
    {loops : List ForLoop} (is : buf.drop pos = c :: rest) (plain : escapes c rest = false)
    (isText : c = 123 → escaped = true) :
    State.pass files r ⟨⟨buf, pos, escaped, finished⟩ :: callers, ifStack, loops, reply, notFound⟩ =
      .goOn (stateAt buf callers reply notFound (pos + 1)
        (finished ++ if ifOk ifStack && forOk loops then [c] else []) ifStack loops) := by
  have noTag : ¬(c = 123 ∧ escaped = false) := fun ⟨isBrace, no⟩ => by
    rw [isText isBrace] at no
    cases no
  simp only [State.pass, is, plain, Bool.false_eq_true, if_false, if_neg noTag, call_add, stateAt]

/-- A character of the text is written where the stacks allow it. -/
theorem reaches_text {c : UInt8} (isText : scan (buf.drop pos) = .text c :: more) :
    ∃ behind, scan (buf.drop behind) = more ∧ ∀ finished ifStack loops,
      Reaches (State.pass files r)
        (stateAt buf callers reply notFound pos finished ifStack loops)
        (stateAt buf callers reply notFound behind
          (finished ++ if ifOk ifStack && forOk loops then [c] else []) ifStack loops) := by
  have starts := isText ▸ front_scan (buf.drop pos)
  generalize is : buf.drop pos = text at starts
  cases starts with
  | text plain noTag =>
      refine ⟨pos + 1, by rw [drop_succ is], fun finished ifStack loops => ?_⟩
      exact reaches_of_goOn (pass_text is plain fun isBrace => absurd isBrace noTag)
  | @escaped backslash brace behind isEscaped =>
      have next := drop_succ is
      refine ⟨pos + 1 + 1, by rw [drop_succ next], fun finished ifStack loops => ?_⟩
      have first : State.pass files r
          (stateAt buf callers reply notFound pos finished ifStack loops) =
          .goOn ⟨⟨buf, pos + 1, true, finished⟩ :: callers, ifStack, loops, reply, notFound⟩ := by
        simp only [stateAt, State.pass, is, isEscaped, if_true]
      refine (reaches_of_goOn first).trans (reaches_of_goOn ?_)
      exact pass_text next (escapes_brace isEscaped behind) fun _ => rfl

/-- What a pass over a tag does. -/
theorem pass_tag {tag : Tag} (isTag : scan (buf.drop pos) = .tag tag :: more) :
    ∃ close, scan (buf.drop (close + 1)) = more ∧ ∀ finished ifStack loops,
      Reaches (State.pass files r)
        (stateAt buf callers reply notFound pos finished ifStack loops)
        ((stateAt buf callers reply notFound pos finished ifStack loops).tag files r
          ⟨buf, pos, false, finished⟩ callers close tag) := by
  have starts := isTag ▸ front_scan (buf.drop pos)
  generalize is : buf.drop pos = text at starts
  cases starts with
  | @tag content behind closes =>
      refine ⟨pos + content.length + 1, ?_, fun finished ifStack loops => reaches_of_goOn ?_⟩
      · have whole : buf.drop pos = (123 :: content ++ [125]) ++ behind := by
          rw [is, List.append_assoc, List.cons_append, List.singleton_append]
        have rest := drop_of_append whole
        rw [List.length_append, List.length_cons, List.length_singleton] at rest
        exact congrArg scan rest
      · have noEscape : escapes 123 (content ++ 125 :: behind) = false := rfl
        simp only [stateAt, State.pass, is, noEscape, cut_append closes, Bool.false_eq_true,
          if_false, and_self, if_true]

/-- At the end `Serve` returns. -/
theorem reaches_end (isEnd : scan (buf.drop pos) = []) (finished : Str) (ifStack : List Bool)
    (loops : List ForLoop) :
    Reaches (State.pass files r) (stateAt buf callers reply notFound pos finished ifStack loops)
      ⟨callers, ifStack, loops, reply ++ finished, notFound⟩ := by
  have starts := isEnd ▸ front_scan (buf.drop pos)
  generalize is : buf.drop pos = text at starts
  refine reaches_of_goOn ?_
  cases starts with
  | nil => simp only [stateAt, State.pass, is, State.leave]
  | @unclosed rest unclosed =>
      have noEscape : escapes 123 rest = false := rfl
      simp only [stateAt, State.pass, is, noEscape, cut_eq_none_iff.mpr unclosed, State.leave,
        Bool.false_eq_true, if_false, and_self, if_true]

/-! ## Rounds -/

theorem rounds_le_iff {ranges : List (List Str)} {count : Nat} :
    rounds ranges ≤ count ↔ ∀ range ∈ ranges, range.length ≤ count := by
  rw [rounds]
  induction ranges with
  | nil => simp
  | cons range ranges ih =>
      rw [List.map_cons, List.foldr_cons, max_le_iff, ih, List.forall_mem_cons]

/-- A loop in its rounds. -/
def loopAt (start : Nat) (vars : List Str) (ranges : List (List Str)) (round : Nat) : ForLoop :=
  ⟨start, vars, ranges.map (List.drop round)⟩

theorem loopAt_zero (start : Nat) (vars : List Str) (ranges : List (List Str)) :
    loopAt start vars ranges 0 = ⟨start, vars, ranges⟩ := by
  rw [loopAt]
  congr
  exact List.map_id' ranges

theorem increment_loopAt (start : Nat) (vars : List Str) (ranges : List (List Str)) (round : Nat) :
    (loopAt start vars ranges round).increment = loopAt start vars ranges (round + 1) := by
  rw [loopAt, loopAt, ForLoop.increment, List.map_map]
  refine congrArg _ (List.map_congr_left fun range _ => ?_)
  exact List.tail_drop

theorem finished_loopAt_iff {start : Nat} {vars : List Str} {ranges : List (List Str)}
    {round : Nat} : (loopAt start vars ranges round).finished = true ↔ rounds ranges ≤ round := by
  rw [rounds_le_iff, loopAt, ForLoop.finished, List.all_eq_true]
  simp

theorem values_loopAt (start : Nat) (vars : List Str) (ranges : List (List Str)) (round : Nat) :
    (loopAt start vars ranges round).values = bindings vars ranges round := by
  rw [loopAt, ForLoop.values, bindings, List.zip_map_right, List.filterMap_map]
  refine List.filterMap_congr fun (var, range) _ => ?_
  exact congrArg (Option.map _) List.head?_drop

theorem bindings_of_rounds {vars : List Str} {ranges : List (List Str)} {round : Nat}
    (past : rounds ranges ≤ round) : bindings vars ranges round = [] := by
  rw [bindings, List.filterMap_eq_nil_iff]
  rintro ⟨var, range⟩ mem
  have short := rounds_le_iff.mp past range (List.of_mem_zip mem).2
  exact congrArg (Option.map _) (List.getElem?_eq_none short)

theorem valuesOf_cons (fl : ForLoop) (loops : List ForLoop) :
    valuesOf r (fl :: loops) = fl.values ++ valuesOf r loops := by
  rw [valuesOf, List.flatMap_cons, List.append_assoc, valuesOf]

/-! ## Runs over blocks -/

/-- What `Serve` writes for blocks: `ok` is whether the conditions around them hold, and `shown`
whether the innermost loop around them is not finished. -/
def Block.written (r : Replacements) (ok shown : Bool) (values : Values) : Block → Str
  | .done => []
  | .text c next => (if ok && shown then [c] else []) ++ next.written r ok shown values
  | .value name next =>
      (if ok && shown then escape (valueOf values name) else []) ++ next.written r ok shown values
  | .invalid next => next.written r ok shown values
  | .when condition yes next =>
      yes.written r (ok && condition.holds r (valueOf values)) shown values ++
        next.written r ok shown values
  | .choice condition yes no next =>
      yes.written r (ok && condition.holds r (valueOf values)) shown values ++
        (no.written r (ok && !(ok && condition.holds r (valueOf values))) shown values ++
          next.written r ok shown values)
  | .loop vars names body next =>
      let ranges := names.map r.equalRange
      (if rounds ranges = 0 then body.written r ok false values
        else (List.range (rounds ranges)).flatMap fun round =>
          body.written r ok true (bindings vars ranges round ++ values)) ++
        next.written r ok shown values

/-- The body of a loop starts behind a position.  It is run over up to its end, whose brace closes
at another position. -/
structure LoopBody (files : Str → Option Str) (r : Replacements) (buf reply : Str)
    (callers : List Call) (notFound : List Str) (body : Block) (ifStack : List Bool)
    (start last close : Nat) : Prop where
  run : ∀ finished loops, Reaches (State.pass files r)
    (stateAt buf callers reply notFound (start + 1) finished ifStack loops)
    (stateAt buf callers reply notFound last
      (finished ++ body.written r (ifOk ifStack) (forOk loops) (valuesOf r loops)) ifStack loops)
  goBack : ∀ finished loops, Reaches (State.pass files r)
    (stateAt buf callers reply notFound last finished ifStack loops)
    ((stateAt buf callers reply notFound last finished ifStack loops).tag files r
      ⟨buf, last, false, finished⟩ callers close .endFor)

section

variable {vars : List Str} {ranges : List (List Str)} {body : Block} {ifStack : List Bool}
  {start last close round : Nat}

/-- A loop without rounds is run over once. -/
theorem LoopBody.reaches_empty
    (isBody : LoopBody files r buf reply callers notFound body ifStack start last close)
    (none : rounds ranges = 0) (loops : List ForLoop) (finished : Str) :
    Reaches (State.pass files r)
      (stateAt buf callers reply notFound (start + 1) finished ifStack
        (loopAt start vars ranges 0 :: loops))
      (stateAt buf callers reply notFound (close + 1)
        (finished ++ body.written r (ifOk ifStack) false (valuesOf r loops)) ifStack loops) := by
  have isFinished : (loopAt start vars ranges 0).finished = true :=
    finished_loopAt_iff.mpr (Nat.le_of_eq none)
  have hidden : forOk (loopAt start vars ranges 0 :: loops) = false := by
    simp [forOk, isFinished]
  have reaches := (isBody.run finished (loopAt start vars ranges 0 :: loops)).trans
    (isBody.goBack _ (loopAt start vars ranges 0 :: loops))
  rw [hidden, valuesOf_cons, values_loopAt, bindings_of_rounds (Nat.le_of_eq none),
    List.nil_append] at reaches
  refine reaches.trans ?_
  simp only [State.tag, stateAt, isFinished, Bool.true_or, if_true]
  exact .refl

/-- A round of a loop, and where it goes on. -/
theorem LoopBody.reaches_round
    (isBody : LoopBody files r buf reply callers notFound body ifStack start last close)
    (inside : round < rounds ranges) (loops : List ForLoop) (finished : Str) :
    Reaches (State.pass files r)
      (stateAt buf callers reply notFound (start + 1) finished ifStack
        (loopAt start vars ranges round :: loops))
      (if round + 1 < rounds ranges then
        stateAt buf callers reply notFound (start + 1)
          (finished ++ body.written r (ifOk ifStack) true
            (bindings vars ranges round ++ valuesOf r loops)) ifStack
          (loopAt start vars ranges (round + 1) :: loops)
      else
        stateAt buf callers reply notFound (close + 1)
          (finished ++ body.written r (ifOk ifStack) true
            (bindings vars ranges round ++ valuesOf r loops)) ifStack loops) := by
  have goesOn : (loopAt start vars ranges round).finished = false := by
    rw [Bool.eq_false_iff, Ne, finished_loopAt_iff]
    omega
  have shown : forOk (loopAt start vars ranges round :: loops) = true := by
    simp [forOk, goesOn]
  have reaches := (isBody.run finished (loopAt start vars ranges round :: loops)).trans
    (isBody.goBack _ (loopAt start vars ranges round :: loops))
  rw [shown, valuesOf_cons, values_loopAt] at reaches
  refine reaches.trans ?_
  simp only [State.tag, stateAt, goesOn, increment_loopAt, Bool.false_or, finished_loopAt_iff]
  split_ifs
  · omega
  · exact .refl
  · exact .refl
  · omega

/-- The rounds that are left of a loop. -/
theorem LoopBody.reaches_rounds
    (isBody : LoopBody files r buf reply callers notFound body ifStack start last close)
    (loops : List ForLoop) (left : Nat) (isLeft : round + (left + 1) = rounds ranges)
    (finished : Str) :
    Reaches (State.pass files r)
      (stateAt buf callers reply notFound (start + 1) finished ifStack
        (loopAt start vars ranges round :: loops))
      (stateAt buf callers reply notFound (close + 1)
        (finished ++ (List.range' round (left + 1)).flatMap fun round =>
          body.written r (ifOk ifStack) true (bindings vars ranges round ++ valuesOf r loops))
        ifStack loops) := by
  induction left generalizing round finished with
  | zero =>
      have inside : round < rounds ranges := by omega
      refine (isBody.reaches_round inside loops finished).trans ?_
      rw [if_neg (by omega), List.range'_succ, List.flatMap_cons, ← List.append_assoc,
        List.range'_zero, List.flatMap_nil, List.append_nil]
  | succ left ih =>
      have inside : round < rounds ranges := by omega
      refine (isBody.reaches_round inside loops finished).trans ?_
      rw [if_pos (by omega), List.range'_succ, List.flatMap_cons, ← List.append_assoc]
      exact ih (by omega) _

end

/-- `Serve` runs over blocks, and leaves the stacks as they were. -/
theorem reaches_block (files : Str → Option Str) (r : Replacements) (buf reply : Str)
    (callers : List Call) (notFound : List Str) (block : Block)
    (isBlock : scan (buf.drop pos) = block.items ++ more) :
    ∃ behind, scan (buf.drop behind) = more ∧ ∀ finished ifStack loops,
      Reaches (State.pass files r)
        (stateAt buf callers reply notFound pos finished ifStack loops)
        (stateAt buf callers reply notFound behind
          (finished ++ block.written r (ifOk ifStack) (forOk loops) (valuesOf r loops))
          ifStack loops) := by
  induction block generalizing pos more with
  | done =>
      refine ⟨pos, isBlock, fun finished _ _ => ?_⟩
      rw [Block.written, List.append_nil]
      exact .refl
  | text c next ihNext =>
      obtain ⟨start, isNext, first⟩ := reaches_text isBlock
      obtain ⟨behind, isMore, rest⟩ := ihNext isNext
      refine ⟨behind, isMore, fun finished ifStack loops => (first _ _ _).trans ?_⟩
      rw [Block.written, ← List.append_assoc]
      exact rest _ _ _
  | value name next ihNext =>
      obtain ⟨close, isNext, first⟩ := pass_tag isBlock
      obtain ⟨behind, isMore, rest⟩ := ihNext isNext
      refine ⟨behind, isMore, fun finished ifStack loops => (first _ _ _).trans ?_⟩
      rw [Block.written, ← List.append_assoc]
      simp only [State.tag, call_add, findReplacement_eq]
      exact rest _ _ _
  | invalid next ihNext =>
      obtain ⟨close, isNext, first⟩ := pass_tag isBlock
      obtain ⟨behind, isMore, rest⟩ := ihNext isNext
      exact ⟨behind, isMore, fun finished ifStack loops => (first _ _ _).trans (rest _ _ _)⟩
  | when condition yes next ihYes ihNext =>
      rw [Block.items, List.cons_append, List.append_assoc, List.cons_append] at isBlock
      obtain ⟨_, isYes, ifs⟩ := pass_tag isBlock
      obtain ⟨_, isEnd, first⟩ := ihYes isYes
      obtain ⟨_, isNext, endIf⟩ := pass_tag isEnd
      obtain ⟨behind, isMore, rest⟩ := ihNext isNext
      refine ⟨behind, isMore, fun finished ifStack loops => ?_⟩
      rw [Block.written, ← List.append_assoc, ← findReplacement_eq]
      exact (ifs _ _ _).trans ((first _ _ _).trans ((endIf _ _ _).trans (rest _ _ _)))
  | choice condition yes no next ihYes ihNo ihNext =>
      rw [Block.items, List.cons_append, List.append_assoc, List.cons_append, List.append_assoc,
        List.cons_append] at isBlock
      obtain ⟨_, isYes, ifs⟩ := pass_tag isBlock
      obtain ⟨_, isElse, first⟩ := ihYes isYes
      obtain ⟨_, isNo, otherwise⟩ := pass_tag isElse
      obtain ⟨_, isEnd, second⟩ := ihNo isNo
      obtain ⟨_, isNext, endIf⟩ := pass_tag isEnd
      obtain ⟨behind, isMore, rest⟩ := ihNext isNext
      refine ⟨behind, isMore, fun finished ifStack loops => ?_⟩
      rw [Block.written, ← List.append_assoc, ← List.append_assoc, ← findReplacement_eq]
      exact (ifs _ _ _).trans ((first _ _ _).trans ((otherwise _ _ _).trans
        ((second _ _ _).trans ((endIf _ _ _).trans (rest _ _ _)))))
  | loop vars names body next ihBody ihNext =>
      rw [Block.items, List.cons_append, List.append_assoc, List.cons_append] at isBlock
      obtain ⟨start, isBody, loop⟩ := pass_tag isBlock
      obtain ⟨last, isEnd, run⟩ := ihBody isBody
      obtain ⟨close, isNext, goBack⟩ := pass_tag isEnd
      obtain ⟨behind, isMore, rest⟩ := ihNext isNext
      refine ⟨behind, isMore, fun finished ifStack loops => (loop _ _ _).trans ?_⟩
      have isBody : LoopBody files r buf reply callers notFound body ifStack start last close :=
        ⟨fun finished loops => run finished ifStack loops,
          fun finished loops => goBack finished ifStack loops⟩
      rw [Block.written, ← List.append_assoc]
      refine .trans ?_ (rest _ _ _)
      have begins := loopAt_zero start vars (names.map r.equalRange)
      simp only [State.tag, ← begins]
      split_ifs with none
      · exact isBody.reaches_empty none loops finished
      · obtain ⟨left, isLeft⟩ := Nat.exists_eq_succ_of_ne_zero none
        rw [isLeft, List.range_eq_range']
        exact isBody.reaches_rounds loops left (by omega) finished

/-- `Serve` of a template ends, and leaves nothing on the stacks. -/
theorem serve_ends (files : Str → Option Str) (r : Replacements) (template : Template) :
    Ends (State.pass files r) (State.idle.openFile template.text)
      { State.idle with reply := template.blocks.written r true true r.entries } := by
  have whole : scan (template.text.drop 0) = template.blocks.items ++ [] := by
    rw [List.drop_zero, template.nested, List.append_nil]
  obtain ⟨behind, isEnd, run⟩ := reaches_block files r template.text [] [] [] _ whole
  have reaches := (run [] [] []).trans (reaches_end isEnd _ [] [])
  exact Library.While.Reaches.ends reaches (ends_of_done rfl)

/-! ## What is written -/

theorem append_eq_iff_of_sublist {first first' second second' : Str}
    (isFirst : List.Sublist first first') (isSecond : List.Sublist second second') :
    first ++ second = first' ++ second' ↔ first = first' ∧ second = second' := by
  refine ⟨fun same => ?_, fun ⟨sameFirst, sameSecond⟩ => by rw [sameFirst, sameSecond]⟩
  have length := congrArg List.length same
  rw [List.length_append, List.length_append] at length
  have firstLength := isFirst.length_le
  have secondLength := isSecond.length_le
  exact ⟨isFirst.eq_of_length (by omega), isSecond.eq_of_length (by omega)⟩

theorem flatMap_eq_iff_of_sublist {rounds : List Nat} {f g : Nat → Str}
    (sublists : ∀ round ∈ rounds, List.Sublist (f round) (g round)) :
    rounds.flatMap f = rounds.flatMap g ↔ ∀ round ∈ rounds, f round = g round := by
  induction rounds with
  | nil => simp
  | cons round rounds ih =>
      obtain ⟨first, rest⟩ := List.forall_mem_cons.mp sublists
      rw [List.flatMap_cons, List.flatMap_cons, List.forall_mem_cons, ← ih rest]
      exact append_eq_iff_of_sublist first (List.Sublist.flatMap_right _ rest)

section

variable {values : Values} {shown : Bool}

/-- Nothing is written where a condition does not hold. -/
theorem Block.written_hidden (r : Replacements) (shown : Bool) (values : Values)
    (block : Block) : block.written r false shown values = [] := by
  induction block generalizing shown values with
  | done => rfl
  | text _ next ihNext => exact ihNext shown values
  | value _ next ihNext => exact ihNext shown values
  | invalid next ihNext => exact ihNext shown values
  | when condition yes next ihYes ihNext =>
      rw [Block.written, Bool.false_and, ihYes, ihNext]
      rfl
  | choice condition yes no next ihYes ihNo ihNext =>
      rw [Block.written, Bool.false_and, Bool.false_and, ihYes, ihNo, ihNext]
      rfl
  | loop vars names body next ihBody ihNext =>
      rw [Block.written, ihNext, List.append_nil]
      split_ifs
      · exact ihBody false values
      · exact List.flatMap_eq_nil_iff.mpr fun round _ => ihBody true _

theorem written_when (condition : Condition) (yes next : Block) :
    (Block.when condition yes next).written r true shown values =
      (if condition.holds r (valueOf values) then yes.written r true shown values else []) ++
        next.written r true shown values := by
  rw [Block.written, Bool.true_and]
  cases condition.holds r (valueOf values) with
  | true => rfl
  | false => rw [Block.written_hidden]; rfl

theorem written_choice (condition : Condition) (yes no next : Block) :
    (Block.choice condition yes no next).written r true shown values =
      (if condition.holds r (valueOf values) then yes.written r true shown values
        else no.written r true shown values) ++ next.written r true shown values := by
  rw [Block.written, Bool.true_and, Bool.true_and]
  cases condition.holds r (valueOf values) with
  | true => rw [Bool.not_true, no.written_hidden, List.nil_append]; rfl
  | false => rw [Bool.not_false, yes.written_hidden, List.nil_append]; rfl

theorem escape_eq_nil_iff {src : Str} : escape src = [] ↔ src = [] := by
  rw [escape, List.flatMap_eq_nil_iff, List.eq_nil_iff_forall_not_mem]
  refine forall₂_congr fun c _ => iff_false_intro ?_
  rw [escapeChar]
  split_ifs <;> simp [ascii]

/-- Blocks are silent if nothing is written for them. -/
theorem Block.written_eq_nil_iff (block : Block) :
    block.written r true shown values = [] ↔ block.Silent r shown values := by
  induction block generalizing shown values with
  | done => exact iff_of_true rfl trivial
  | text c next ihNext =>
      rw [Block.written, Block.Silent, List.append_eq_nil_iff, ihNext]
      cases shown <;> simp
  | value name next ihNext =>
      rw [Block.written, Block.Silent, List.append_eq_nil_iff, ihNext]
      cases shown <;> simp [escape_eq_nil_iff]
  | invalid next ihNext => exact ihNext
  | when condition yes next ihYes ihNext =>
      rw [written_when, Block.Silent, List.append_eq_nil_iff, ihNext, ← ihYes]
      split_ifs with holds <;> simp [holds]
  | choice condition yes no next ihYes ihNo ihNext =>
      rw [written_choice, Block.Silent, List.append_eq_nil_iff, ihNext]
      split_ifs
      · rw [ihYes]
      · rw [ihNo]
  | loop vars names body next ihBody ihNext =>
      rw [Block.written, Block.Silent, List.append_eq_nil_iff, ihNext]
      split_ifs
      · rw [ihBody]
      · simp only [List.flatMap_eq_nil_iff, List.mem_range, ihBody]

/-- All that blocks stand for is written. -/
theorem Block.reading_sublist (block : Block) :
    List.Sublist (block.reading r values) (block.written r true true values) := by
  induction block generalizing values with
  | done => exact .slnil
  | text c next ihNext => exact ihNext.cons_cons c
  | value name next ihNext => exact ihNext.append_left _
  | invalid next ihNext => exact ihNext
  | when condition yes next ihYes ihNext =>
      rw [written_when, Block.reading]
      refine .append ?_ ihNext
      split_ifs
      · exact ihYes
      · exact .slnil
  | choice condition yes no next ihYes ihNo ihNext =>
      rw [written_choice, Block.reading]
      refine .append ?_ ihNext
      split_ifs
      · exact ihYes
      · exact ihNo
  | loop vars names body next ihBody ihNext =>
      rw [Block.written, Block.reading]
      refine .append ?_ ihNext
      split_ifs with none
      · rw [none]
        exact List.nil_sublist _
      · exact List.Sublist.flatMap_right _ fun round _ => ihBody

/-- Just what blocks stand for is written if nothing is written in loops without rounds. -/
theorem Block.reading_eq_written_iff (block : Block) :
    block.reading r values = block.written r true true values ↔ block.Clear r values := by
  induction block generalizing values with
  | done => exact iff_of_true rfl trivial
  | text c next ihNext =>
      rw [Block.Clear, ← ihNext]
      exact List.append_right_inj [c]
  | value name next ihNext =>
      rw [Block.Clear, ← ihNext]
      exact List.append_right_inj (escape (valueOf values name))
  | invalid next ihNext => exact ihNext
  | when condition yes next ihYes ihNext =>
      rw [written_when, Block.reading, Block.Clear, ← ihNext, ← ihYes]
      split_ifs with holds
      · rw [append_eq_iff_of_sublist yes.reading_sublist next.reading_sublist]
        simp [holds]
      · simp [holds]
  | choice condition yes no next ihYes ihNo ihNext =>
      rw [written_choice, Block.reading, Block.Clear, ← ihNext]
      split_ifs
      · rw [append_eq_iff_of_sublist yes.reading_sublist next.reading_sublist, ihYes]
      · rw [append_eq_iff_of_sublist no.reading_sublist next.reading_sublist, ihNo]
  | loop vars names body next ihBody ihNext =>
      rw [Block.written, Block.reading, Block.Clear, ← ihNext]
      split_ifs with none
      · rw [none, List.range_zero, List.flatMap_nil,
          append_eq_iff_of_sublist (List.nil_sublist _) next.reading_sublist, eq_comm,
          body.written_eq_nil_iff]
      · rw [append_eq_iff_of_sublist
            (List.Sublist.flatMap_right _ fun _ _ => body.reading_sublist) next.reading_sublist,
          flatMap_eq_iff_of_sublist fun _ _ => body.reading_sublist]
        simp only [List.mem_range, ihBody]

end

/-- A template is followed just if, in loops without values, nothing is read in a loop with some. -/
theorem follows_iff_clear (files : Str → Option Str) (r : Replacements) (template : Template) :
    Follows files r template ↔ template.blocks.Clear r r.entries := by
  rw [← Block.reading_eq_written_iff]
  have ends := serve_ends files r template
  constructor
  · intro follows
    exact congrArg State.reply (follows.unique ends)
  · intro same
    rw [Follows, same]
    exact ends

/-- A loop over nothing that has a loop over one value in it. -/
def loopInLoop : Template where
  text := ascii "\x7bFOR a IN U\x7d\x7bFOR b IN C\x7dx\x7bEND FOR\x7d\x7bEND FOR\x7d"
  blocks := .loop [ascii "a"] [ascii "U"] (.loop [ascii "b"] [ascii "C"] (.text 120 .done) .done)
    .done
  nested := by decide +kernel

/-- A page that has a channel but no users. -/
def oneChannel : Replacements where
  entries := [(ascii "C", ascii "#anope")]
  sorted := List.pairwise_singleton _ _

/-- The inner loop is written although there is nothing that the outer one is over. -/
theorem not_follows_loopInLoop : ¬Follows (fun _ => none) oneChannel loopInLoop := by
  intro follows
  have same := congrArg State.reply (follows.unique (serve_ends _ oneChannel loopInLoop))
  revert same
  decide +kernel

end Anope.Webcpanel
