import Anope.Config.Written

/-!
# Written configurations are read back

The parser between two entries of a body, and what it has read there: by induction on the
body, the block that is open gets the items and blocks of the body.
-/

namespace Anope.Config

open Anope.Text Anope.Text.Convert

/-! ## What a body adds to a block -/

namespace Block

/-- A block with the entries of a body. -/
def addBody (casemap : Casemap) (block : Block) : Body → Block
  | .done => block
  | .item name value rest => (block.setItem casemap name value).addBody casemap rest
  | .block name inner rest =>
      (block.addBlock ((⟨name, [], []⟩ : Block).addBody casemap inner)).addBody casemap rest

/-- A new item goes behind the others. -/
theorem setItem_of_new {casemap : Casemap} {block : Block} {name : Str}
    (new : ∀ item ∈ block.items, casemap.equalsCi item.1 name = false) (value : Str) :
    block.setItem casemap name value = { block with items := block.items ++ [(name, value)] } := by
  have absent : (block.items.any fun item => casemap.equalsCi item.1 name) = false :=
    List.any_eq_false.mpr fun item mem => ne_true_of_eq_false (new item mem)
  rw [setItem, absent, if_neg Bool.false_ne_true]

/-- Where all names are different, the items and the blocks of a body are added. -/
theorem addBody_eq {casemap : Casemap} (body : Body) (wellFormed : body.WellFormed casemap)
    (block : Block)
    (new : ∀ item ∈ block.items, ∀ other ∈ body.items, casemap.equalsCi item.1 other.1 = false) :
    block.addBody casemap body =
      ⟨block.name, block.items ++ body.items, block.blocks ++ body.blocks⟩ := by
  induction body generalizing block with
  | done =>
      rw [addBody, Body.items, Body.blocks, List.append_nil, List.append_nil]
      cases block
      rfl
  | item name value rest ih =>
      obtain ⟨_, _, different, wellFormed⟩ := wellFormed
      have here : ∀ item ∈ block.items, casemap.equalsCi item.1 name = false :=
        fun item mem => new item mem (name, value) List.mem_cons_self
      rw [addBody, setItem_of_new here, ih wellFormed]
      · rw [Body.items, Body.blocks, List.append_assoc, List.singleton_append]
      · intro item mem other isOther
        rcases List.mem_append.mp mem with mem | mem
        · exact new item mem other (List.mem_cons_of_mem _ isOther)
        · cases List.mem_singleton.mp mem
          exact different other isOther
  | block name inner rest ihInner ih =>
      obtain ⟨_, wellFormedInner, wellFormed⟩ := wellFormed
      have child := ihInner wellFormedInner ⟨name, [], []⟩ fun item mem => nomatch mem
      rw [addBody, child, ih wellFormed (block.addBlock _) new, addBlock, Body.items, Body.blocks,
        List.append_assoc]
      rfl

end Block

/-! ## Between two entries -/

/-- Where the parser is open: at the top, or in a block. -/
inductive Level where
  | root
  | inner (conf : Block) (position : FilePosition) (stack : List (Option Frame))

namespace Level

/-- The parser in a block, without a word or an item. -/
def reader (level : Level) (block : Block) : Reader :=
  match level with
  | root => ⟨block, [], [], [], false, false, false⟩
  | inner conf position stack =>
      ⟨conf, some ⟨block, position⟩ :: stack, [], [], false, false, false⟩

/-- The level of a new block. -/
def push (level : Level) (block : Block) (position : FilePosition) : Level :=
  match level with
  | root => inner block position []
  | inner conf outer stack => inner conf position (some ⟨block, outer⟩ :: stack)

theorem outside (level : Level) (block : Block) : Outside (level.reader block) := by
  cases level <;> exact ⟨rfl, rfl⟩

theorem itemname (level : Level) (block : Block) : (level.reader block).itemname = [] := by
  cases level <;> rfl

theorem wordbuffer (level : Level) (block : Block) : (level.reader block).wordbuffer = [] := by
  cases level <;> rfl

theorem inWord (level : Level) (block : Block) : (level.reader block).inWord = false := by
  cases level <;> rfl

theorem not_commented (level : Level) (block : Block) (stack : List (Option Frame)) :
    (level.reader block).stack ≠ none :: stack := by
  cases level <;> exact fun is => nomatch is

/-- A closed block goes into the one around it. -/
theorem pop_push (level : Level) (block child : Block) (position : FilePosition) :
    ((level.push block position).reader child).pop = level.reader (block.addBlock child) := by
  cases level <;> rfl

end Level

/-- The parser is between two entries: the end of an item leaves the block that is open,
and there may be an item that has not ended. -/
structure Between (env : LoadEnv) (level : Level) (block : Block) (pending : Bool) (mark : Mark)
    (reader : Reader) : Prop where
  tidy : Tidy mark reader
  settles : Settles env reader (level.reader block)
  none : pending = false → reader.itemname = []

section Between

variable {env : LoadEnv} {level : Level} {block : Block} {pending : Bool} {mark : Mark}
  {reader : Reader} {text : Str}

theorem Between.outside (between : Between env level block pending mark reader) :
    Outside reader :=
  ⟨between.settles.none.2.2.1.symm.trans (level.outside block).unquoted,
    between.settles.none.2.2.2.symm.trans (level.outside block).uncommented⟩

/-- Nothing is pending behind a gap that ends items. -/
theorem Between.gap {ends : Bool} (between : Between env level block pending mark reader)
    (isGap : Gap ends text) :
    Reads env mark reader text
      (Between env level block (pending && !ends)) := by
  refine (reads_gap isGap between.outside between.settles between.tidy).mono ?_
  rintro mark' reader' ⟨tidy, same⟩
  cases ends with
  | true =>
      cases same
      exact ⟨tidy, between.settles.self, fun _ => level.itemname block⟩
  | false =>
      obtain ⟨inWord, _, rfl⟩ := same
      refine ⟨tidy, between.settles.inWord inWord, fun none => between.none ?_⟩
      simpa using none

/-- Without a pending item, only the end of a word may be missing. -/
theorem Between.eq (between : Between env level block false mark reader) :
    reader = { level.reader block with inWord := reader.inWord } := by
  rw [between.settles.eq_of_none (between.none rfl)]

/-! ## Entries -/

/-- A text without variables stands for itself. -/
theorem replaceVars_of_plain {defines : List Block} {position : FilePosition} {value : Str}
    (plain : 36 ∉ value) : replaceVars env defines position value = .ok value := by
  rw [replaceVars]
  induction value with
  | nil => rfl
  | cons c value ih =>
      have notVariable : c ≠ 36 := (List.ne_of_not_mem_cons plain).symm
      unfold replaceLoop
      rw [if_pos notVariable, ih (List.not_mem_of_not_mem_cons plain)]
      rfl

/-- The name of an item or of a block, with the gaps around it. -/
theorem reads_name {ends endsName : Bool} {name gap gapName : Str}
    (between : Between env level block pending mark reader) (isGap : Gap ends gap)
    (ended : pending = true → ends = true) (isName : IsWord name)
    (afterName : Gap endsName gapName) :
    Reads env mark reader (gap ++ (name ++ gapName)) fun mark' reader' =>
      Tidy mark' reader' ∧ ∃ inWord, reader' =
        { level.reader block with wordbuffer := name, inWord := inWord } := by
  refine (between.gap isGap).append fun mark₁ reader₁ between₁ => ?_
  have settled : (pending && !ends) = false := by
    cases pending with
    | false => rfl
    | true => rw [ended rfl, Bool.not_true, Bool.and_false]
  rw [settled] at between₁
  have outside := between₁.outside
  have noWords : reader₁.wordbuffer = [] := by
    rw [between₁.eq]
    exact level.wordbuffer block
  refine (reads_word outside isName.nonempty isName.chars isName.slashes
    (.inr ⟨noWords, isName.first⟩)).append ?_
  rintro _ _ ⟨rfl, rfl⟩
  have named : { reader₁ with wordbuffer := reader₁.wordbuffer ++ name, inWord := true } =
      { level.reader block with wordbuffer := name, inWord := true } := by
    rw [noWords, between₁.eq]
    rfl
  rw [named]
  have stillOutside : Outside { level.reader block with wordbuffer := name, inWord := true } :=
    ⟨(level.outside block).unquoted, (level.outside block).uncommented⟩
  have settles : Settles env { level.reader block with wordbuffer := name, inWord := true }
      { level.reader block with wordbuffer := name, inWord := false } := by
    intro position
    cases level <;> rfl
  refine (reads_gap afterName stillOutside settles (.inl rfl)).mono ?_
  rintro mark' reader' ⟨tidy, same⟩
  refine ⟨tidy, ?_⟩
  cases endsName with
  | true => exact ⟨false, same⟩
  | false =>
      obtain ⟨inWord, _, rfl⟩ := same
      exact ⟨inWord, rfl⟩

/-- An item is read up to the quote behind its value. -/
theorem reads_item {name value gapValue : Str} {inWord : Bool} {conf : Block}
    {position : FilePosition} {stack : List (Option Frame)}
    (isName : IsWord name) (isValue : IsValue value) (beforeValue : Gap false gapValue)
    (isReader : reader = { (Level.inner conf position stack).reader block with
      wordbuffer := name, inWord := inWord }) :
    Reads env mark reader (61 :: (gapValue ++ 34 :: (escape value ++ [34])))
      (Between env (.inner conf position stack) (block.setItem env.casemap name value) true) := by
  subst isReader
  refine (reads_equals ⟨rfl, rfl⟩ rfl isName.nonempty (List.cons_ne_nil _ _)).append ?_
  rintro _ _ ⟨rfl, rfl⟩
  have pending : ∀ text, 36 ∉ text → Settles env
      ⟨conf, some ⟨block, position⟩ :: stack, name, text, false, false, false⟩
      ((Level.inner conf position stack).reader (block.setItem env.casemap name text)) := by
    intro text plain here
    rw [Reader.finishItem, if_neg (by simpa using isName.nonempty)]
    simp only [replaceVars_of_plain plain]
    rfl
  refine (reads_gap beforeValue ⟨rfl, rfl⟩ (pending [] List.not_mem_nil) (.inl rfl)).append ?_
  rintro mark' reader' ⟨_, inWord', noWord, rfl⟩
  have isFalse : inWord' = false := by
    refine Bool.eq_false_iff.mpr fun is => ?_
    cases noWord is
  subst isFalse
  refine (reads_quote ⟨rfl, rfl⟩ isName.nonempty rfl rfl (List.cons_ne_nil _ _)).append ?_
  rintro _ _ ⟨rfl, rfl⟩
  refine (reads_value rfl rfl isValue).mono ?_
  rintro _ _ ⟨rfl, rfl⟩
  exact ⟨.inl rfl, pending value isValue.noVariable, Bool.noConfusion⟩

/-- A body is read: the block that is open gets its entries. -/
theorem reads_body {body : Body} (casemap : Casemap) (isCasemap : env.casemap = casemap)
    (writes : body.Writes pending text) (wellFormed : body.WellFormed casemap)
    (inBlock : level = .root → body.items = [])
    (between : Between env level block pending mark reader) :
    Reads env mark reader text fun mark' reader' =>
      ∃ pending', Between env level (block.addBody casemap body) pending' mark' reader' := by
  induction writes generalizing level block mark reader with
  | done isGap =>
      exact (between.gap isGap).mono fun _ _ there => ⟨_, there⟩
  | @item pending ends endsName name value gap gapName gapValue text rest isGap ended afterName
      beforeValue _ ih =>
      obtain ⟨isName, isValue, _, wellFormed⟩ := wellFormed
      have pieces : gap ++ (name ++ (gapName ++
          61 :: (gapValue ++ 34 :: (escape value ++ 34 :: text)))) =
          gap ++ (name ++ gapName) ++
            (61 :: (gapValue ++ 34 :: (escape value ++ [34])) ++ text) := by
        simp only [List.append_assoc, List.cons_append, List.nil_append]
      rw [pieces]
      cases level with
      | root => exact nomatch inBlock rfl
      | inner conf position stack =>
          refine (reads_name between isGap ended isName afterName).append ?_
          rintro mark₁ reader₁ ⟨_, inWord, isReader⟩
          refine (reads_item isName isValue beforeValue isReader).append ?_
          intro mark₂ reader₂ between₂
          subst isCasemap
          exact ih wellFormed (fun is => nomatch is) between₂
  | @block pending ends endsName name gap gapName inside text inner rest isGap ended afterName _ _
      ihInner ih =>
      obtain ⟨isName, wellFormedInner, wellFormed⟩ := wellFormed
      have pieces : gap ++ (name ++ (gapName ++ 123 :: (inside ++ 125 :: text))) =
          gap ++ (name ++ gapName) ++ ([123] ++ (inside ++ ([125] ++ text))) := by
        simp only [List.append_assoc, List.singleton_append]
      rw [pieces]
      refine (reads_name between isGap ended isName afterName).append ?_
      rintro mark₁ reader₁ ⟨_, inWord, rfl⟩
      have outside : Outside { level.reader block with wordbuffer := name, inWord := inWord } :=
        ⟨(level.outside block).unquoted, (level.outside block).uncommented⟩
      refine (reads_open outside isName.nonempty (level.not_commented block)).append ?_
      rintro _ _ ⟨rfl, position, rfl⟩
      have opened : Between env (level.push block position) ⟨name, [], []⟩ false .unchecked
          ((level.push block position).reader ⟨name, [], []⟩) :=
        ⟨.inr ⟨Level.itemname _ _, Level.inWord _ _⟩,
          fun _ => finishItem_of_none (Level.itemname _ _) (Level.inWord _ _),
          fun _ => Level.itemname _ _⟩
      have notRoot : level.push block position = .root → inner.items = [] := by
        cases level <;> exact fun is => nomatch is
      have isOpened : { level.reader block with
            wordbuffer := []
            inWord := false
            stack := some ⟨⟨name, [], []⟩, position⟩ :: (level.reader block).stack } =
          (level.push block position).reader ⟨name, [], []⟩ := by
        cases level <;> rfl
      have inside := ihInner wellFormedInner notRoot opened
      rw [← isOpened] at inside
      refine inside.append ?_
      rintro mark₃ reader₃ ⟨pending₃, between₃⟩
      have isOpen : ((level.push block position).reader
          ((⟨name, [], []⟩ : Block).addBody casemap inner)).stack ≠ [] := by
        cases level <;> exact List.cons_ne_nil _ _
      refine (reads_close between₃.outside between₃.settles isOpen).append ?_
      rintro _ _ ⟨rfl, rfl⟩
      rw [Level.pop_push]
      refine ih wellFormed inBlock ⟨.inl rfl, fun _ => ?_, fun _ => Level.itemname _ _⟩
      exact finishItem_of_none (Level.itemname _ _) (Level.inWord _ _)

theorem readLines_append (name : Str) (number : Nat) (reader : Reader) (lines more : List Str) :
    readLines env name number reader (lines ++ more) =
      readLines env name number reader lines >>= fun reader =>
        readLines env name (number + lines.length) reader more := by
  induction lines generalizing number reader with
  | nil => rfl
  | cons line lines ih =>
      rw [List.cons_append, readLines, readLines, bind_assoc]
      refine congrArg (readLine env ⟨name, number, 0⟩ reader line >>= ·) (funext fun next => ?_)
      rw [ih, List.length_cons, Nat.add_right_comm, Nat.add_assoc]

/-- A file is read with an empty line behind it as well as without. -/
theorem readLines_append_newline {name : Str} {number : Nat} {final : Reader}
    (unquoted : final.inQuote = false)
    (read : readLines env name number reader ((text ++ [10]).splitOn 10) = .ok final) :
    readLines env name number reader (text.splitOn 10) = .ok final := by
  rw [List.splitOn_append_cons_self, readLines_append] at read
  cases isLines : readLines env name number reader (text.splitOn 10) with
  | error e =>
      rw [isLines] at read
      exact nomatch read
  | ok next =>
      rw [isLines] at read
      change readLine env _ next [] >>= _ = _ at read
      rw [readLine_nil] at read
      cases Except.ok.inj read
      rw [if_neg (ne_true_of_eq_false unquoted)]

end Between

/-! ## The parser reads back what is written -/

/-- A body without items at the top is read from every text that it is written as. -/
theorem loadConf_of_written (env : LoadEnv) (conf : Block) (name : Str) {body : Body} {text : Str}
    (onlyBlocks : body.items = []) (wellFormed : body.WellFormed env.casemap)
    (written : Written body text) :
    loadConf env conf name (text.splitOn 10) =
      .ok ⟨conf.name, conf.items, conf.blocks ++ body.blocks⟩ := by
  obtain ⟨whole, writes, isWhole⟩ := written
  have start : Between env .root conf false .start (Level.root.reader conf) :=
    ⟨.inr ⟨rfl, rfl⟩, fun _ => rfl, fun _ => rfl⟩
  obtain ⟨position', mark', reader', ⟨pending', between'⟩, read⟩ :=
    reads_body env.casemap rfl writes wellFormed (fun _ => onlyBlocks) start ⟨name, 1, 0⟩ []
  have noItem : ∀ item ∈ conf.items, ∀ other ∈ body.items,
      env.casemap.equalsCi item.1 other.1 = false := by
    rw [onlyBlocks]
    exact fun _ _ _ mem => nomatch mem
  rw [List.append_nil, readFrom_nil,
    lineEnd_of_settles between'.settles between'.outside.unquoted between'.tidy,
    Block.addBody_eq body wellFormed conf noItem, onlyBlocks, List.append_nil,
    ← readLines_eq_readFrom] at read
  have readText : readLines env name 1 (Level.root.reader conf) (text.splitOn 10) =
      .ok (Level.root.reader ⟨conf.name, conf.items, conf.blocks ++ body.blocks⟩) := by
    rcases isWhole with rfl | rfl
    · exact read
    · exact readLines_append_newline rfl read
  rw [loadConf]
  change readLines env name 1 (Level.root.reader conf) (text.splitOn 10) >>= _ = _
  rw [readText]
  rfl

/-- The parser reads back what is written, and throws for every text that ends inside a
quote, a comment or a block. -/
theorem loadConf_reads_back (env : LoadEnv) (conf : Block) (name : Str) :
    (∀ body text, body.items = [] → body.WellFormed env.casemap → Written body text →
      loadConf env conf name (text.splitOn 10) =
        .ok ⟨conf.name, conf.items, conf.blocks ++ body.blocks⟩) ∧
      ∀ text, EndsInside text → ∃ e, loadConf env conf name (text.splitOn 10) = .error e :=
  ⟨fun _ _ => loadConf_of_written env conf name, fun _ => loadConf_of_endsInside env conf name⟩

/-! ### Texts that are read otherwise -/

/-- A configuration without blocks. -/
def noConf : Block where
  name := []
  items := []
  blocks := []

/-- No variables. -/
def bareEnv : LoadEnv where
  casemap := .ascii
  getenv := fun _ => none

/-- A block with one item, whose value goes over a line. -/
def oneItem : Body :=
  .block (ascii "b") (.item (ascii "a") (ascii "x;" ++ 10 :: ascii "\x7d") .done) .done

/-- One of its texts, with comments. -/
def oneItemText : Str :=
  ascii "b/*" ++ 10 :: ascii "*/\x7b#" ++ 10 :: ascii "a = \"x;" ++ 10 :: ascii "\x7d\" \x7d//"

theorem written_oneItem : Written oneItem oneItemText := by
  have lineBody : closesNowhere [10] = true := rfl
  have inside : Body.Writes false (.item (ascii "a") (ascii "x;" ++ 10 :: ascii "\x7d") .done) _ :=
    .item (.hash List.not_mem_nil .nil) (fun is => nomatch is)
      (.blank (.inl rfl) .nil) (.blank (.inl rfl) .nil) (.done (.blank (.inl rfl) .nil))
  exact ⟨_, .block .nil (fun is => nomatch is) (.comment lineBody .nil) inside
    (.done (.slashes List.not_mem_nil .nil)), .inr (by decide)⟩

theorem loadConf_reads_back_oneItem :
    loadConf bareEnv noConf [] (oneItemText.splitOn 10) =
        .ok ⟨[], [], [⟨ascii "b", [(ascii "a", ascii "x;" ++ 10 :: ascii "\x7d")], []⟩]⟩ ∧
      ∃ e, loadConf bareEnv noConf [] ((ascii "b \x7b a = \"").splitOn 10) = .error e := by
  have reads := loadConf_reads_back bareEnv noConf []
  have isName : ∀ c ∈ [97, 98], IsWord [c] := by
    intro c mem
    rcases List.mem_cons.mp mem with rfl | mem
    · exact ⟨by decide +kernel, by decide +kernel, by decide +kernel, by decide +kernel⟩
    · cases List.mem_singleton.mp mem
      exact ⟨by decide +kernel, by decide +kernel, by decide +kernel, by decide +kernel⟩
  have isValue : IsValue (ascii "x;" ++ 10 :: ascii "\x7d") :=
    ⟨by decide, by decide, by decide, by decide⟩
  exact ⟨reads.1 oneItem oneItemText rfl
      ⟨isName 98 (by decide), ⟨isName 97 (by decide), isValue, fun _ mem => (nomatch mem), trivial⟩,
        trivial⟩ written_oneItem,
    reads.2 (ascii "b \x7b a = \"") (by decide +kernel)⟩

/-- The end of a line between a name and its value, a second item without an end of the first
one, a name that begins with an underscore, and a value that ends in a backslash. -/
theorem not_loadConf_reads_back :
    (loadConf bareEnv noConf [] [ascii "b \x7b a =", ascii "\"v\" \x7d"]).toBool = false ∧
      (loadConf bareEnv noConf [] [ascii "b \x7b a = \"v\" c = \"w\" \x7d"]).toBool = false ∧
      (loadConf bareEnv noConf [] [ascii "_b \x7b a = \"v\" \x7d"]).map
        (fun conf => conf.blocks.map Block.name) = .ok [ascii "b"] ∧
      (loadConf bareEnv noConf [] [ascii "b \x7b a = \"v\\\" \x7d"]).toBool = false := by
  decide +kernel

end Anope.Config
