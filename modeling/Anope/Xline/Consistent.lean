import Anope.Xline.Tables

/-!
# The X-line tables are consistent

A listed line is alive and belongs to the manager whose list it is in, and
`XLinesByUID` holds exactly the listed lines with an id.  Adding and deleting
lines keeps this.  `Clear` erases whole ids, also those of other managers'
lines, and loading a row again overwrites an id without the index and destroys
a line that it then adds to another manager.
-/

namespace Anope.Xline

open Library Library.Run Library.Table Anope.Text

variable {α μ : Type} [DecidableEq α]

namespace State

/-- The lists hold live lines of their managers, each once, and the index holds
the listed lines with an id, each once and under exactly that id. -/
structure Consistent (casemap : Casemap) (state : State α μ) : Prop where
  live : ∀ {manager x}, x ∈ state.xlines manager →
    ∃ line, state.objects.lookup x = some line ∧ line.manager = some manager
  nodup : ∀ manager, (state.xlines manager).Nodup
  indexed : ∀ {manager x line}, x ∈ state.xlines manager → state.objects.lookup x = some line →
    line.id ≠ [] → (casemap.ciStr line.id, line.id, x) ∈ state.xlinesByUID.entries
  sound : ∀ {key id x}, (key, id, x) ∈ state.xlinesByUID.entries →
    ∃ manager line, x ∈ state.xlines manager ∧ state.objects.lookup x = some line ∧
      line.id = id ∧ id ≠ [] ∧ casemap.ciStr id = key
  once : state.xlinesByUID.entries.Pairwise fun left right => left.2.2 ≠ right.2.2

/-- Every live line is in the list of its manager. -/
def AllListed (state : State α μ) : Prop :=
  ∀ {x line}, state.objects.lookup x = some line →
    ∃ manager, line.manager = some manager ∧ x ∈ state.xlines manager

variable {casemap : Casemap} {state : State α μ}

/-- A line is in the list of its manager only. -/
theorem Consistent.mem_iff (consistent : state.Consistent casemap) {manager : μ} {x : α}
    {line : Object μ} (found : state.objects.lookup x = some line)
    (listed : x ∈ state.xlines manager) {other : μ} :
    x ∈ state.xlines other ↔ other = manager := by
  obtain ⟨_, found', belongs⟩ := consistent.live listed
  cases found.symm.trans found'
  constructor
  · intro otherListed
    obtain ⟨_, found', otherBelongs⟩ := consistent.live otherListed
    cases found.symm.trans found'
    exact Option.some.inj (otherBelongs.symm.trans belongs)
  · rintro rfl
    exact listed

/-- A step that changes neither the lists nor the index, nor the id and the
manager of a line. -/
structure SameTables (state next : State α μ) : Prop where
  lists : next.xlines = state.xlines
  index : next.xlinesByUID = state.xlinesByUID
  same : ∀ x, (next.objects.lookup x).map (fun line => (line.id, line.manager)) =
    (state.objects.lookup x).map fun line => (line.id, line.manager)

namespace SameTables

variable {next : State α μ}

theorem symm (kept : SameTables state next) : SameTables next state :=
  ⟨kept.lists.symm, kept.index.symm, fun x => (kept.same x).symm⟩

theorem trans {last : State α μ} (first : SameTables state next)
    (second : SameTables next last) : SameTables state last :=
  ⟨second.lists.trans first.lists, second.index.trans first.index,
    fun x => (second.same x).trans (first.same x)⟩

theorem forward (kept : SameTables state next) {x : α} {line : Object μ}
    (found : state.objects.lookup x = some line) : ∃ line',
      next.objects.lookup x = some line' ∧ line'.id = line.id ∧ line'.manager = line.manager := by
  have equal := kept.same x
  rw [found, Option.map_some, Option.map_eq_some_iff] at equal
  obtain ⟨line', found', equal⟩ := equal
  exact ⟨line', found', congrArg Prod.fst equal, congrArg Prod.snd equal⟩

theorem consistent (kept : SameTables state next) (consistent : state.Consistent casemap) :
    next.Consistent casemap := by
  refine ⟨?_, ?_, ?_, ?_, ?_⟩
  · intro manager x listed
    rw [kept.lists] at listed
    obtain ⟨line, found, belongs⟩ := consistent.live listed
    obtain ⟨line', found', _, sameManager⟩ := kept.forward found
    exact ⟨line', found', sameManager.trans belongs⟩
  · rw [kept.lists]
    exact consistent.nodup
  · intro manager x line listed found hasId
    rw [kept.lists] at listed
    obtain ⟨before, foundBefore, sameId, _⟩ := kept.symm.forward found
    rw [kept.index, ← sameId]
    exact consistent.indexed listed foundBefore (sameId ▸ hasId)
  · intro key id x mem
    rw [kept.index] at mem
    obtain ⟨manager, line, listed, found, sameId, rest⟩ := consistent.sound mem
    obtain ⟨line', found', sameId', _⟩ := kept.forward found
    exact ⟨manager, line', kept.lists ▸ listed, found', sameId'.trans sameId, rest⟩
  · rw [kept.index]
    exact consistent.once

theorem allListed (kept : SameTables state next) (allListed : state.AllListed) :
    next.AllListed := by
  intro x line found
  obtain ⟨before, foundBefore, _, sameManager⟩ := kept.symm.forward found
  obtain ⟨manager, belongs, listed⟩ := allListed foundBefore
  exact ⟨manager, sameManager.symm.trans belongs, kept.lists ▸ listed⟩

end SameTables

/-- A change of one line that leaves its id and manager alone. -/
theorem sameTables_updateLine {x : α} {line : Object μ} {change : Object μ → Object μ}
    (found : state.objects.lookup x = some line) (id : (change line).id = line.id)
    (manager : (change line).manager = line.manager) :
    SameTables state (state.updateLine x change) where
  lists := rfl
  index := rfl
  same y := by
    by_cases isLine : y = x
    · subst isLine
      simp [updateLine, lookup_modify_self, found, id, manager]
    · simp [updateLine, lookup_modify_ne isLine]

/-! ## Deleting a line -/

theorem unindex_objects (x : α) (line : Object μ) :
    (state.unindex casemap x line).objects = state.objects := by
  unfold unindex
  split <;> rfl

theorem unindex_xlines (x : α) (line : Object μ) :
    (state.unindex casemap x line).xlines = state.xlines := by
  unfold unindex
  split <;> rfl

/-- The entry of a line is erased, and no other one. -/
theorem Consistent.mem_unindex_iff (consistent : state.Consistent casemap) {x : α}
    {line : Object μ} (found : state.objects.lookup x = some line)
    {entry : Str × Str × α} :
    entry ∈ (state.unindex casemap x line).xlinesByUID.entries ↔
      entry ∈ state.xlinesByUID.entries ∧ entry.2.2 ≠ x := by
  -- an entry of the line has its id
  have ofLine : entry ∈ state.xlinesByUID.entries → entry.2.2 = x →
      line.id ≠ [] ∧ entry.1 = casemap.ciStr line.id := by
    intro mem isLine
    obtain ⟨_, other, _, found', sameId, hasId, key⟩ := consistent.sound mem
    rw [isLine, found] at found'
    cases found'
    exact ⟨sameId ▸ hasId, sameId ▸ key.symm⟩
  unfold unindex
  by_cases hasId : line.id = []
  · rw [if_neg (not_not.mpr hasId)]
    exact ⟨fun mem => ⟨mem, fun isLine => (ofLine mem isLine).1 hasId⟩, And.left⟩
  · rw [if_pos hasId]
    have once : state.xlinesByUID.entries.Pairwise fun left right =>
        decide (left.2.2 = x) = true → decide (right.2.2 = x) = false := by
      refine consistent.once.imp fun different isLine => ?_
      rw [decide_eq_true_eq] at isLine
      exact decide_eq_false fun sameLine => different (isLine.trans sameLine.symm)
    rw [Multimap.mem_eraseFirst_iff once, decide_eq_true_eq]
    refine and_congr_right fun mem => not_congr ⟨And.right, fun isLine => ?_⟩
    exact ⟨(ofLine mem isLine).2, isLine⟩

theorem unindex_sublist (x : α) (line : Object μ) :
    (state.unindex casemap x line).xlinesByUID.entries.Sublist state.xlinesByUID.entries := by
  unfold unindex
  split
  · exact List.eraseP_sublist
  · exact .refl _

variable [DecidableEq μ]

/-- The state without a line: not in the index, not in the list, not in the
heap. -/
def without (casemap : Casemap) (state : State α μ) (manager : μ) (x : α) (line : Object μ) :
    State α μ :=
  { (state.unindex casemap x line).updateList manager ((state.xlines manager).erase x) with
    objects := state.objects.erase x }

theorem without_xlines (manager other : μ) (x : α) (line : Object μ) :
    (state.without casemap manager x line).xlines other =
      if other = manager then (state.xlines manager).erase x else state.xlines other := by
  simp only [without, updateList, unindex_xlines]
  split
  · rename_i same
    rw [same, Function.update_self]
  · rename_i different
    rw [Function.update_of_ne different]

/-- What is listed after a line was deleted. -/
theorem Consistent.mem_without_iff (consistent : state.Consistent casemap) {manager : μ} {x : α}
    {line : Object μ} (found : state.objects.lookup x = some line)
    (listed : x ∈ state.xlines manager) {other : μ} {y : α} :
    y ∈ (state.without casemap manager x line).xlines other ↔
      y ∈ state.xlines other ∧ y ≠ x := by
  rw [without_xlines]
  split
  · rename_i same
    subst same
    rw [(consistent.nodup other).mem_erase_iff, and_comm]
  · rename_i different
    refine ⟨fun mem => ⟨mem, ?_⟩, And.left⟩
    rintro rfl
    exact different ((consistent.mem_iff found listed).mp mem)

/-- Deleting a listed line keeps the tables consistent. -/
theorem Consistent.without (consistent : state.Consistent casemap) {manager : μ} {x : α}
    {line : Object μ} (found : state.objects.lookup x = some line)
    (listed : x ∈ state.xlines manager) :
    (state.without casemap manager x line).Consistent casemap := by
  have others : ∀ {y}, y ≠ x →
      (state.without casemap manager x line).objects.lookup y = state.objects.lookup y :=
    fun different => AList.lookup_erase_ne different
  refine ⟨?_, ?_, ?_, ?_, ?_⟩
  · intro other y mem
    obtain ⟨before, different⟩ := (consistent.mem_without_iff found listed).mp mem
    rw [others different]
    exact consistent.live before
  · intro other
    rw [without_xlines]
    split
    · exact (consistent.nodup manager).erase x
    · exact consistent.nodup other
  · intro other y line' mem found' hasId
    obtain ⟨before, different⟩ := (consistent.mem_without_iff found listed).mp mem
    rw [others different] at found'
    exact (consistent.mem_unindex_iff found).mpr
      ⟨consistent.indexed before found' hasId, different⟩
  · intro key id y mem
    obtain ⟨before, different⟩ := (consistent.mem_unindex_iff found).mp mem
    obtain ⟨other, line', mem', found', rest⟩ := consistent.sound before
    refine ⟨other, line', (consistent.mem_without_iff found listed).mpr ⟨mem', different⟩, ?_, rest⟩
    rwa [others different]
  · exact consistent.once.sublist (unindex_sublist x line)

theorem delXLine_eq_some {manager : μ} {x : α} {line : Object μ}
    (found : state.objects.lookup x = some line) (listed : x ∈ state.xlines manager) :
    state.delXLine casemap manager x = some (true, state.without casemap manager x line) := by
  simp [delXLine, found, listed, State.without, unindex_objects]

theorem AllListed.without (allListed : state.AllListed) (consistent : state.Consistent casemap)
    {manager : μ} {x : α} {line : Object μ} (found : state.objects.lookup x = some line)
    (listed : x ∈ state.xlines manager) : (state.without casemap manager x line).AllListed := by
  intro y line' found'
  by_cases isLine : y = x
  · subst isLine
    rw [show (state.without casemap manager y line).objects = state.objects.erase y from rfl,
      AList.lookup_erase] at found'
    contradiction
  · rw [show (state.without casemap manager x line).objects = state.objects.erase x from rfl,
      AList.lookup_erase_ne isLine] at found'
    obtain ⟨other, belongs, mem⟩ := allListed found'
    exact ⟨other, belongs, (consistent.mem_without_iff found listed).mpr ⟨mem, isLine⟩⟩

/-! ## Adding a line -/

/-- The state with a new line in the list of a manager. -/
def added (casemap : Casemap) (state : State α μ) (manager : μ) (x : α) (line : XLine) :
    State α μ where
  objects := state.objects.insert x { line with manager := some manager }
  xlines := Function.update state.xlines manager (state.xlines manager ++ [x])
  xlinesByUID :=
    if line.id ≠ [] then state.xlinesByUID.emplace (casemap.ciStr line.id) (line.id, x)
    else state.xlinesByUID

theorem mem_added_iff {manager other : μ} {x y : α} {line : XLine} :
    y ∈ (state.added casemap manager x line).xlines other ↔
      y ∈ state.xlines other ∨ other = manager ∧ y = x := by
  by_cases same : other = manager
  · subst same
    simp [added]
  · simp [added, same]

theorem mem_index_added_iff {manager : μ} {x : α} {line : XLine} {entry : Str × Str × α} :
    entry ∈ (state.added casemap manager x line).xlinesByUID.entries ↔
      entry ∈ state.xlinesByUID.entries ∨
        line.id ≠ [] ∧ entry = (casemap.ciStr line.id, line.id, x) := by
  by_cases hasId : line.id = []
  · simp [added, hasId]
  · rw [added, if_pos hasId, (Multimap.perm_emplace _ _ _).mem_iff, List.mem_cons, or_comm]
    simp [hasId]

theorem lookup_added_self (manager : μ) (x : α) (line : XLine) :
    (state.added casemap manager x line).objects.lookup x =
      some { line with manager := some manager } :=
  AList.lookup_insert _

theorem lookup_added_ne (manager : μ) {x y : α} (different : y ≠ x) (line : XLine) :
    (state.added casemap manager x line).objects.lookup y = state.objects.lookup y :=
  AList.lookup_insert_ne different

omit [DecidableEq μ] in
theorem Consistent.ne_of_listed (consistent : state.Consistent casemap) {manager : μ} {x y : α}
    (new : x ∉ state.objects) (listed : y ∈ state.xlines manager) : y ≠ x := by
  rintro rfl
  obtain ⟨line, found, _⟩ := consistent.live listed
  exact new (AList.lookup_isSome.mp (by simp [found]))

/-- Adding a new line keeps the tables consistent. -/
theorem Consistent.added (consistent : state.Consistent casemap) {x : α}
    (new : x ∉ state.objects) (manager : μ) (line : XLine) :
    (state.added casemap manager x line).Consistent casemap := by
  have notIndexed : ∀ entry ∈ state.xlinesByUID.entries, entry.2.2 ≠ x := by
    intro entry mem
    obtain ⟨_, _, listed, _⟩ := consistent.sound mem
    exact consistent.ne_of_listed new listed
  refine ⟨?_, ?_, ?_, ?_, ?_⟩
  · intro other y mem
    rcases mem_added_iff.mp mem with before | ⟨rfl, rfl⟩
    · rw [lookup_added_ne manager (consistent.ne_of_listed new before)]
      exact consistent.live before
    · exact ⟨_, lookup_added_self other y line, rfl⟩
  · intro other
    by_cases same : other = manager
    · subst same
      simp only [State.added, Function.update_self]
      refine List.Nodup.append (consistent.nodup other) (List.nodup_singleton x) ?_
      rw [List.disjoint_singleton]
      exact fun listed => consistent.ne_of_listed new listed rfl
    · simp only [State.added, Function.update_of_ne same]
      exact consistent.nodup other
  · intro other y line' mem found hasId
    rw [mem_index_added_iff]
    rcases mem_added_iff.mp mem with before | ⟨rfl, rfl⟩
    · rw [lookup_added_ne manager (consistent.ne_of_listed new before)] at found
      exact .inl (consistent.indexed before found hasId)
    · rw [lookup_added_self] at found
      cases found
      exact .inr ⟨hasId, rfl⟩
  · intro key id y mem
    rcases mem_index_added_iff.mp mem with before | ⟨hasId, equal⟩
    · obtain ⟨other, line', listed, found, rest⟩ := consistent.sound before
      refine ⟨other, line', mem_added_iff.mpr (.inl listed), ?_, rest⟩
      rwa [lookup_added_ne manager (consistent.ne_of_listed new listed)]
    · cases equal
      exact ⟨manager, _, mem_added_iff.mpr (.inr ⟨rfl, rfl⟩), lookup_added_self manager x line, rfl,
        hasId, rfl⟩
  · unfold State.added
    simp only
    split
    · refine ((Multimap.perm_emplace _ _ _).pairwise_iff fun different => Ne.symm different).mpr ?_
      exact .cons (fun entry mem => (notIndexed entry mem).symm) consistent.once
    · exact consistent.once

theorem AllListed.added (allListed : state.AllListed) {x : α} (manager : μ) (line : XLine) :
    (state.added casemap manager x line).AllListed := by
  intro y line' found
  by_cases isNew : y = x
  · subst isNew
    rw [lookup_added_self] at found
    cases found
    exact ⟨manager, rfl, mem_added_iff.mpr (.inr ⟨rfl, rfl⟩)⟩
  · rw [lookup_added_ne manager isNew] at found
    obtain ⟨other, belongs, listed⟩ := allListed found
    exact ⟨other, belongs, mem_added_iff.mpr (.inl listed)⟩

/-- What `AddXLine` does with a line that was just made. -/
theorem addXLine_newLine (casemap : Casemap) (state : State α μ) (manager : μ) (x : α)
    (line : XLine) :
    ∃ next, (state.newLine x line).addXLine casemap manager x = some next ∧
      next.objects.lookup x = some { line with manager := some manager } ∧
      SameTables (state.added casemap manager x line) next := by
  have made : (state.newLine x line).objects.lookup x = some { line with manager := none } :=
    AList.lookup_insert _
  rw [addXLine, made, Option.map_some]
  have changed : (((state.newLine x line).updateLine x fun line =>
      { line with manager := some manager }).objects.lookup x) =
        some { line with manager := some manager } := by
    simp [updateLine, lookup_modify_self, made]
  refine ⟨_, rfl, changed, rfl, rfl, fun y => ?_⟩
  by_cases isNew : y = x
  · subst isNew
    rw [lookup_added_self]
    exact congrArg _ changed
  · rw [lookup_added_ne manager isNew]
    simp [updateLine, updateList, newLine, lookup_modify_ne isNew, AList.lookup_insert_ne isNew]

/-! ## The loops -/

theorem update_id {request : Request} (x : XLine) : (request.update x).1.id = x.id := by
  unfold Request.update
  dsimp only
  split <;> split <;> rfl

/-- The tables are consistent, and all lines that are alive are listed. -/
def Sound (casemap : Casemap) (state : State α μ) : Prop :=
  state.Consistent casemap ∧ state.AllListed

omit [DecidableEq μ] in
theorem SameTables.soundTables {next : State α μ} (kept : SameTables state next)
    (sound : state.Sound casemap) : next.Sound casemap :=
  ⟨kept.consistent sound.1, kept.allListed sound.2⟩

theorem Sound.without (sound : state.Sound casemap) {manager : μ} {x : α} {line : Object μ}
    (found : state.objects.lookup x = some line) (listed : x ∈ state.xlines manager) :
    (state.without casemap manager x line).Sound casemap :=
  ⟨sound.1.without found listed, AllListed.without sound.2 sound.1 found listed⟩

theorem Sound.added (sound : state.Sound casemap) {x : α} (new : x ∉ state.objects)
    (manager : μ) (line : XLine) : (state.added casemap manager x line).Sound casemap :=
  ⟨sound.1.added new manager line, AllListed.added sound.2 manager line⟩

/-- Deleting the line at an index leaves the lines below it. -/
theorem length_without {manager : μ} {x : α} {line : Object μ} {i : Nat}
    (bound : i + 1 ≤ (state.xlines manager).length) (listed : x ∈ state.xlines manager) :
    i ≤ ((state.without casemap manager x line).xlines manager).length := by
  rw [without_xlines, if_pos rfl, List.length_erase_of_mem listed]
  omega

omit [DecidableEq μ] in
/-- The line at an index of a list is alive. -/
theorem Sound.exists_line (sound : state.Sound casemap) {manager : μ} {i : Nat}
    (bound : i + 1 ≤ (state.xlines manager).length) :
    ∃ x line, (state.xlines manager)[i]? = some x ∧ x ∈ state.xlines manager ∧
      state.objects.lookup x = some line := by
  have inList : (state.xlines manager)[i] ∈ state.xlines manager := List.getElem_mem _
  obtain ⟨line, found, _⟩ := sound.1.live inList
  exact ⟨_, line, List.getElem?_eq_getElem bound, inList, found⟩

theorem Sound.canAddLoop (manager : μ) (request : Request) {i : Nat} :
    ∀ {state : State α μ}, state.Sound casemap → i ≤ (state.xlines manager).length →
      ∃ result, state.canAddLoop casemap manager request i = some result ∧
        result.2.2.Sound casemap := by
  induction i with
  | zero => exact fun sound _ => ⟨_, rfl, sound⟩
  | succ i ih =>
      intro state sound bound
      obtain ⟨x, line, atIndex, listed, found⟩ := sound.exists_line bound
      simp only [State.canAddLoop, atIndex, found, Option.bind_some]
      cases request.judge casemap line.toXLine with
      | equal =>
          refine ⟨_, rfl, SameTables.soundTables (sameTables_updateLine found ?_ rfl) sound⟩
          exact update_id line.toXLine
      | covering => exact ⟨_, rfl, sound⟩
      | redundant =>
          simp only [delXLine_eq_some found listed, Option.bind_some]
          obtain ⟨result, ran, kept⟩ := ih (sound.without found listed)
            (length_without bound listed)
          rw [ran]
          exact ⟨_, rfl, kept⟩
      | unrelated => exact ih sound (by omega)

theorem Sound.checkAllLoop (manager : μ) (curTime : Nat) (check : Object μ → Bool) {i : Nat} :
    ∀ {state : State α μ}, state.Sound casemap → i ≤ (state.xlines manager).length →
      ∃ result, state.checkAllLoop casemap manager curTime check i = some result ∧
        result.2.Sound casemap := by
  induction i with
  | zero => exact fun sound _ => ⟨_, rfl, sound⟩
  | succ i ih =>
      intro state sound bound
      obtain ⟨x, line, atIndex, listed, found⟩ := sound.exists_line bound
      simp only [State.checkAllLoop, atIndex, found, Option.bind_some]
      by_cases expired : line.expires ≠ 0 ∧ line.expires < curTime
      · rw [if_pos expired]
        simp only [delXLine_eq_some found listed, Option.bind_some]
        exact ih (sound.without found listed) (length_without bound listed)
      · rw [if_neg expired]
        by_cases matched : check line = true
        · rw [if_pos matched]
          exact ⟨_, rfl, sound⟩
        · rw [if_neg matched]
          exact ih sound (by omega)

/-! ## Clearing a manager -/

/-- The destructor finds nothing left to take out. -/
theorem clearLine_eq {manager : μ} {x : α} {line : Object μ}
    (found : state.objects.lookup x = some line) (belongs : line.manager = some manager)
    (cleared : state.xlines manager = []) :
    state.clearLine casemap x =
      some { state with
        objects := state.objects.erase x
        xlinesByUID :=
          if line.id ≠ [] then state.xlinesByUID.eraseKey (casemap.ciStr line.id)
          else state.xlinesByUID } := by
  have sameList : Function.update state.xlines manager [] = state.xlines := by
    rw [← cleared, Function.update_eq_self]
  by_cases hasId : line.id = []
  · simp [clearLine, destroy, found, belongs, removeXLine, unindex, updateList, hasId, cleared,
      sameList]
  · simp [clearLine, destroy, found, belongs, removeXLine, unindex, updateList, hasId, cleared,
      sameList, Multimap.eraseFirst_eraseKey]

/-- Clearing destroys the lines and erases the entries of all their ids. -/
theorem clearLoop {manager : μ} {lines : List α} (nodup : lines.Nodup) :
    ∀ {state : State α μ}, state.xlines manager = [] →
      (∀ x ∈ lines, ∃ line, state.objects.lookup x = some line ∧ line.manager = some manager) →
      ∃ next, lines.foldlM (clearLine casemap) state = some next ∧ next.xlines = state.xlines ∧
        (∀ y, next.objects.lookup y = if y ∈ lines then none else state.objects.lookup y) ∧
        next.xlinesByUID.entries.Sublist state.xlinesByUID.entries ∧
        ∀ entry, entry ∈ next.xlinesByUID.entries ↔ entry ∈ state.xlinesByUID.entries ∧
          ∀ x ∈ lines, ∀ line, state.objects.lookup x = some line → line.id ≠ [] →
            entry.1 ≠ casemap.ciStr line.id := by
  induction lines with
  | nil => exact fun _ _ => ⟨_, rfl, rfl, by simp, .refl _, by simp⟩
  | cons x lines ih =>
      intro state cleared live
      obtain ⟨notMem, nodup⟩ := List.nodup_cons.mp nodup
      obtain ⟨line, found, belongs⟩ := live x List.mem_cons_self
      rw [List.foldlM_cons, clearLine_eq found belongs cleared]
      have others : ∀ {y}, y ≠ x → (state.objects.erase x).lookup y = state.objects.lookup y :=
        fun different => AList.lookup_erase_ne different
      have notLater : ∀ {y}, y ∈ lines → y ≠ x := fun mem => ne_of_mem_of_not_mem mem notMem
      obtain ⟨next, ran, lists, lookups, sublist, entries⟩ := @ih nodup
        { state with
          objects := state.objects.erase x
          xlinesByUID :=
            if line.id ≠ [] then state.xlinesByUID.eraseKey (casemap.ciStr line.id)
            else state.xlinesByUID } cleared
        (fun y mem => by
          simp only [others (notLater mem)]
          exact live y (List.mem_cons_of_mem _ mem))
      refine ⟨next, ran, lists, fun y => ?_, sublist.trans ?_, fun entry => ?_⟩
      · rw [lookups]
        by_cases isFirst : y = x
        · subst isFirst
          simp [notMem]
        · simp [isFirst, others isFirst]
      · dsimp only
        split
        · exact List.filter_sublist
        · exact .refl _
      · rw [entries]
        have later : (∀ y ∈ lines, ∀ line', (state.objects.erase x).lookup y = some line' →
              line'.id ≠ [] → entry.1 ≠ casemap.ciStr line'.id) ↔
            ∀ y ∈ lines, ∀ line', state.objects.lookup y = some line' →
              line'.id ≠ [] → entry.1 ≠ casemap.ciStr line'.id :=
          forall₂_congr fun y mem => by rw [others (notLater mem)]
        have first : entry ∈ (if line.id ≠ [] then
                state.xlinesByUID.eraseKey (casemap.ciStr line.id)
              else state.xlinesByUID).entries ↔
            entry ∈ state.xlinesByUID.entries ∧
              (line.id ≠ [] → entry.1 ≠ casemap.ciStr line.id) := by
          by_cases hasId : line.id = []
          · simp [hasId]
          · rw [if_pos hasId, Multimap.mem_eraseKey_iff]
            simp [hasId]
        dsimp only
        rw [first, later, List.forall_mem_cons, and_assoc]
        simp [found]

/-- The lines of a manager share no id with the lines of another one. -/
def OwnIds (casemap : Casemap) (state : State α μ) (manager : μ) : Prop :=
  ∀ x ∈ state.xlines manager, ∀ other ≠ manager, ∀ y ∈ state.xlines other,
    ∀ line line', state.objects.lookup x = some line → state.objects.lookup y = some line' →
      line.id ≠ [] → line'.id ≠ [] → casemap.ciStr line.id ≠ casemap.ciStr line'.id

/-- Clearing keeps the tables consistent exactly when no line of another manager
has one of the ids. -/
theorem Sound.clear (sound : state.Sound casemap) (manager : μ) :
    ∃ next, state.clear casemap manager = some next ∧ next.AllListed ∧
      (next.Consistent casemap ↔ state.OwnIds casemap manager) := by
  obtain ⟨consistent, allListed⟩ := sound
  obtain ⟨next, ran, lists, lookups, sublist, entries⟩ :=
    @clearLoop α μ _ casemap _ manager _ (consistent.nodup manager)
      (state.updateList manager []) (Function.update_self ..) fun x mem => consistent.live mem
  have emptied : ∀ {other x}, x ∈ next.xlines other ↔ other ≠ manager ∧ x ∈ state.xlines other := by
    intro other x
    rw [lists]
    by_cases same : other = manager
    · subst same
      simp [updateList]
    · simp [updateList, same]
  have notCleared : ∀ {other x}, other ≠ manager → x ∈ state.xlines other →
      x ∉ state.xlines manager := by
    intro other x different mem cleared
    obtain ⟨line, found, _⟩ := consistent.live mem
    exact different ((consistent.mem_iff found cleared).mp mem)
  have survives : ∀ {other x}, other ≠ manager → x ∈ state.xlines other →
      next.objects.lookup x = state.objects.lookup x := by
    intro other x different mem
    rw [lookups, if_neg (notCleared different mem)]
    rfl
  refine ⟨next, ran, ?_, ?_, fun own => ⟨?_, ?_, ?_, ?_, ?_⟩⟩
  · intro x line found
    rw [lookups] at found
    split at found
    · contradiction
    · rename_i notListed
      obtain ⟨other, belongs, listed⟩ := allListed found
      refine ⟨other, belongs, emptied.mpr ⟨?_, listed⟩⟩
      rintro rfl
      exact notListed listed
  · intro nextConsistent x listed other different y listed' line line' found found' _ hasId' equal
    have kept := nextConsistent.indexed (emptied.mpr ⟨different, listed'⟩)
      ((survives different listed').trans found') hasId'
    exact ((entries _).mp kept).2 x listed line found (by assumption) equal.symm
  · intro other x mem
    obtain ⟨different, listed⟩ := emptied.mp mem
    rw [survives different listed]
    exact consistent.live listed
  · intro other
    rw [lists]
    by_cases same : other = manager
    · subst same
      simp [updateList]
    · simp only [updateList, Function.update_of_ne same]
      exact consistent.nodup other
  · intro other x line mem found hasId
    obtain ⟨different, listed⟩ := emptied.mp mem
    rw [survives different listed] at found
    refine (entries _).mpr ⟨consistent.indexed listed found hasId, ?_⟩
    intro y listed' line' found' hasId' equal
    exact own y listed' other different x listed line' line found' found hasId' hasId equal.symm
  · intro key id x mem
    obtain ⟨before, notErased⟩ := (entries _).mp mem
    obtain ⟨other, line, listed, found, sameId, hasId, isKey⟩ := consistent.sound before
    have different : other ≠ manager := by
      rintro rfl
      exact notErased x listed line found (sameId ▸ hasId) (sameId ▸ isKey.symm)
    exact ⟨other, line, emptied.mpr ⟨different, listed⟩,
      (survives different listed).trans found, sameId, hasId, isKey⟩
  · exact consistent.once.sublist sublist

/-! ## The other steps -/

/-- Deleting a line through another manager loses its entry in the index. -/
theorem Sound.delXLine (sound : state.Sound casemap) (manager : μ) {x : α} {line : Object μ}
    (found : state.objects.lookup x = some line) :
    ∃ result, state.delXLine casemap manager x = some result ∧ result.2.AllListed ∧
      (result.2.Consistent casemap ↔ line.manager = some manager ∨ line.id = []) := by
  obtain ⟨consistent, allListed⟩ := sound
  obtain ⟨owner, belongs, listed⟩ := allListed found
  by_cases own : manager = owner
  · subst own
    exact ⟨_, delXLine_eq_some found listed, AllListed.without allListed consistent found listed,
      iff_of_true (consistent.without found listed) (.inl belongs)⟩
  · have notListed : x ∉ state.xlines manager := fun mem =>
      own ((consistent.mem_iff found listed).mp mem)
    have deleted : state.delXLine casemap manager x =
        some (false, state.unindex casemap x line) := by
      simp [State.delXLine, found, notListed]
    have other : line.manager ≠ some manager := by
      rw [belongs]
      exact fun same => own (Option.some.inj same).symm
    refine ⟨_, deleted, ?_, ?_⟩
    · intro y line' found'
      rw [unindex_objects] at found'
      rw [unindex_xlines]
      exact allListed found'
    · simp only [other, false_or]
      constructor
      · intro next
        by_contra hasId
        have mem : x ∈ (state.unindex casemap x line).xlines owner := by
          rwa [unindex_xlines]
        have same : (state.unindex casemap x line).objects.lookup x = some line := by
          rwa [unindex_objects]
        have entry := next.indexed mem same hasId
        exact ((consistent.mem_unindex_iff found).mp entry).2 rfl
      · intro noId
        rwa [unindex, if_neg (not_not.mpr noId)]

/-- Loading a row for a line of its own manager keeps the tables consistent
exactly when the id is the old one. -/
theorem Sound.unserialize_same (sound : state.Sound casemap) {x : α} {row : Row μ} {xlm : μ}
    {line : Object μ} (manager : row.manager = some xlm)
    (found : state.objects.lookup x = some line) (belongs : line.manager = some xlm) :
    ∃ next, state.unserialize casemap x row = some next ∧ next.AllListed ∧
      (next.Consistent casemap ↔ line.id = row.uid) := by
  obtain ⟨consistent, allListed⟩ := sound
  have loaded : ∃ next, state.unserialize casemap x row = some next ∧
      next.xlines = state.xlines ∧ next.xlinesByUID = state.xlinesByUID ∧
      (∃ after : Object μ, next.objects.lookup x = some after ∧ after.id = row.uid ∧
        after.manager = some xlm) ∧
      ∀ y, y ≠ x → next.objects.lookup y = state.objects.lookup y := by
    simp only [State.unserialize, manager, found, Option.bind_some, belongs, ne_eq,
      not_true_eq_false, if_false, Option.map_some]
    refine ⟨_, rfl, rfl, rfl, ?_, fun y different => ?_⟩
    · simp [updateLine, lookup_modify_self, found]
    · simp [updateLine, lookup_modify_ne different]
  obtain ⟨next, ran, lists, index, ⟨after, foundAfter, newId, newManager⟩, others⟩ := loaded
  refine ⟨next, ran, ?_, ?_, ?_⟩
  · intro y line' found'
    by_cases isLine : y = x
    · subst isLine
      cases foundAfter.symm.trans found'
      obtain ⟨owner, ownerBelongs, listed⟩ := allListed found
      cases ownerBelongs.symm.trans belongs
      exact ⟨_, newManager, lists ▸ listed⟩
    · rw [others y isLine] at found'
      rw [lists]
      exact allListed found'
  · intro nextConsistent
    obtain ⟨owner, _, listed⟩ := allListed found
    by_cases hasId : line.id = []
    · by_contra changed
      have newHasId : after.id ≠ [] := by
        rw [newId]
        exact fun empty => changed (hasId.trans empty.symm)
      have entry := nextConsistent.indexed (lists ▸ listed) foundAfter newHasId
      rw [index] at entry
      obtain ⟨_, _, _, found', sameId, _⟩ := consistent.sound entry
      cases found.symm.trans found'
      exact newHasId (sameId.symm.trans hasId)
    · have entry := consistent.indexed listed found hasId
      rw [← index] at entry
      obtain ⟨_, _, _, found', sameId, _⟩ := nextConsistent.sound entry
      cases foundAfter.symm.trans found'
      exact sameId.symm.trans newId
  · intro sameId
    refine SameTables.consistent ⟨lists, index, fun y => ?_⟩ consistent
    by_cases isLine : y = x
    · subst isLine
      simp [foundAfter, found, newId, newManager, belongs, sameId]
    · rw [others y isLine]

/-- Loading a row for a line of another manager destroys the line before it is
added. -/
theorem Sound.unserialize_moved (sound : state.Sound casemap) {x : α} {row : Row μ} {xlm : μ}
    {line : Object μ} (manager : row.manager = some xlm)
    (found : state.objects.lookup x = some line) (other : line.manager ≠ some xlm) :
    state.unserialize casemap x row = none := by
  obtain ⟨owner, belongs, listed⟩ := sound.2 found
  let line' : Object μ :=
    { line with mask := row.mask, by_ := row.by_, reason := row.reason, id := row.uid }
  let loaded := state.updateLine x fun line =>
    { line with mask := row.mask, by_ := row.by_, reason := row.reason, id := row.uid }
  have foundLoaded : loaded.objects.lookup x = some line' := by
    simp [loaded, line', updateLine, lookup_modify_self, found]
  have deleted := @delXLine_eq_some α μ _ casemap loaded _ owner x line' foundLoaded listed
  have gone : (loaded.without casemap owner x line').objects.lookup x = none :=
    AList.lookup_erase _ _
  rw [belongs] at other
  simp only [State.unserialize, manager, found, Option.bind_some, belongs]
  rw [if_pos other, deleted]
  simp only [Option.bind_some, State.addXLine, gone, Option.map_none]

theorem Sound.unserializeNew (sound : state.Sound casemap) {x : α} (new : x ∉ state.objects)
    (curTime : Nat) (row : Row μ) :
    ∃ next, state.unserializeNew casemap x curTime row = some next ∧ next.Sound casemap := by
  unfold State.unserializeNew
  cases row.manager with
  | none => exact ⟨state, rfl, sound⟩
  | some xlm =>
      obtain ⟨next, ran, found, kept⟩ := addXLine_newLine casemap state xlm x
        { mask := row.mask, by_ := row.by_, created := curTime, expires := row.expires,
          reason := row.reason, id := row.uid }
      simp only [ran, Option.map_some]
      refine ⟨_, rfl, SameTables.soundTables (kept.trans ?_) (sound.added new xlm _)⟩
      exact sameTables_updateLine found rfl rfl

/-! ## Runs -/

/-- The steps that keep the tables consistent. -/
def Orderly (casemap : Casemap) (state : State α μ) : Action α μ → Prop
  | .delXLine manager x =>
      ∃ line, state.objects.lookup x = some line ∧ (line.manager = some manager ∨ line.id = [])
  | .clear manager => state.OwnIds casemap manager
  | .unserialize x row =>
      ∀ xlm, row.manager = some xlm →
        ∃ line, state.objects.lookup x = some line ∧ line.manager = some xlm ∧ line.id = row.uid
  | .addXLine .. | .canAdd .. | .checkAllXLines .. | .unserializeNew .. => True

/-- What a step that depends on a condition does to the tables: the state behind
it is defined and consistent exactly under the condition. -/
structure Outcome (casemap : Casemap) (result : Option (State α μ)) (condition : Prop) :
    Prop where
  consistent_iff : (∃ next, result = some next ∧ next.Consistent casemap) ↔ condition
  allListed : ∀ next, result = some next → next.AllListed

namespace Outcome

variable {result : Option (State α μ)} {next : State α μ} {condition : Prop}

omit [DecidableEq μ] in
theorem exactly (ran : result = some next) (allListed : next.AllListed)
    (iff : next.Consistent casemap ↔ condition) : Outcome casemap result condition where
  consistent_iff := by
    constructor
    · rintro ⟨other, ran', consistent⟩
      cases ran.symm.trans ran'
      exact iff.mp consistent
    · intro met
      exact ⟨next, ran, iff.mpr met⟩
  allListed := by
    intro other ran'
    cases ran.symm.trans ran'
    exact allListed

omit [DecidableEq μ] in
theorem always (ran : result = some next) (sound : next.Sound casemap) (met : condition) :
    Outcome casemap result condition :=
  exactly ran sound.2 (iff_of_true sound.1 met)

omit [DecidableEq μ] in
theorem never (undefined : result = none) (unmet : ¬condition) :
    Outcome casemap result condition where
  consistent_iff := by simp [undefined, unmet]
  allListed := by simp [undefined]

end Outcome

theorem Sound.unserialize (sound : state.Sound casemap) (x : α) (row : Row μ) :
    Outcome casemap (state.unserialize casemap x row)
      (state.Orderly casemap (.unserialize x row)) := by
  cases manager : row.manager with
  | none =>
      refine @Outcome.always α μ _ casemap _ state _ ?_ sound ?_
      · simp [State.unserialize, manager]
      · simp [Orderly, manager]
  | some xlm =>
      cases found : state.objects.lookup x with
      | none =>
          refine .never (by simp [State.unserialize, manager, found]) ?_
          simp [Orderly, manager, found]
      | some line =>
          by_cases belongs : line.manager = some xlm
          · obtain ⟨next, ran, allListed, iff⟩ := sound.unserialize_same manager found belongs
            refine .exactly ran allListed (iff.trans ?_)
            simp [Orderly, manager, found, belongs]
          · refine .never (sound.unserialize_moved manager found belongs) ?_
            simp [Orderly, manager, found, belongs]

/-- The outcome of a step, one case for each action. -/
theorem Sound.perform (sound : state.Sound casemap) {action : Action α μ}
    (new : ∀ x ∈ action.allocates, x ∉ state.objects) :
    Outcome casemap (state.perform casemap action) (state.Orderly casemap action) := by
  cases action with
  | addXLine manager x line =>
      obtain ⟨next, ran, _, kept⟩ := addXLine_newLine casemap state manager x line
      exact .always ran (kept.soundTables (sound.added (new x rfl) manager line)) trivial
  | delXLine manager x =>
      cases found : state.objects.lookup x with
      | none =>
          refine .never (by simp [State.perform, State.delXLine, found]) ?_
          rintro ⟨line, found', _⟩
          exact Option.some_ne_none _ (found'.symm.trans found)
      | some line =>
          obtain ⟨result, ran, allListed, iff⟩ := sound.delXLine manager found
          refine .exactly (by rw [State.perform, ran]; rfl) allListed (iff.trans ?_)
          simp [Orderly, found]
  | clear manager =>
      obtain ⟨next, ran, allListed, iff⟩ := sound.clear manager
      exact .exactly ran allListed iff
  | canAdd manager request =>
      obtain ⟨result, ran, kept⟩ := sound.canAddLoop manager request le_rfl
      exact .always (by rw [State.perform, State.canAdd, ran]; rfl) kept trivial
  | checkAllXLines manager curTime check =>
      obtain ⟨result, ran, kept⟩ := sound.checkAllLoop manager curTime check le_rfl
      exact .always (by rw [State.perform, State.checkAllXLines, ran]; rfl) kept trivial
  | unserialize x row => exact sound.unserialize x row
  | unserializeNew x curTime row =>
      obtain ⟨next, ran, kept⟩ := sound.unserializeNew (new x rfl) curTime row
      exact .always ran kept trivial

omit [DecidableEq μ] in
theorem sound_initial (casemap : Casemap) : (initial : State α μ).Sound casemap := by
  refine ⟨⟨?_, ?_, ?_, ?_, ?_⟩, ?_⟩
  · exact fun mem => absurd mem List.not_mem_nil
  · exact fun _ => List.nodup_nil
  · exact fun mem => absurd mem List.not_mem_nil
  · exact fun mem => absurd mem List.not_mem_nil
  · exact .nil
  · exact fun found => absurd found (by simp [initial])

end State

/-- The behaviour is defined and the tables are consistent. -/
def TablesConsistent (casemap : Casemap) (state : Option (State α μ)) : Prop :=
  ∃ defined, state = some defined ∧ defined.Consistent casemap

variable [DecidableEq μ]

/-- Along a run from the start of the program the tables are consistent exactly
when every step is orderly. -/
theorem always_tablesConsistent_iff (casemap : Casemap) (actions : List (Action α μ)) :
    Always (step casemap) (TablesConsistent casemap) (some State.initial) actions ↔
      EachStep (step casemap)
        (fun state action => ∀ defined, state = some defined → defined.Orderly casemap action)
        (some State.initial) actions := by
  refine always_iff_eachStep_of_kept
    (fun state => ∀ defined, state = some defined → defined.AllListed) ?_ ?_ ?_ ?_ actions
  · rintro _ action _ support ⟨state, rfl, consistent⟩ _ stepped next rfl
    rw [step] at stepped
    split at stepped
    · rename_i new
      exact (State.Sound.perform ⟨consistent, support state rfl⟩ new).allListed next
        (Option.some.inj stepped)
    · contradiction
  · rintro _ action next support ⟨state, rfl, consistent⟩ stepped
    rw [step] at stepped
    split at stepped
    · rename_i new
      cases stepped
      have exactly := (State.Sound.perform ⟨consistent, support state rfl⟩ new).consistent_iff
      simpa [TablesConsistent] using exactly
    · contradiction
  · rintro _ ⟨⟩
    exact @(State.sound_initial casemap).2
  · exact ⟨_, rfl, (State.sound_initial casemap).1⟩

/-! ## A row with a new id -/

/-- A line is added to the only manager, and its row is loaded again with another
id. -/
def reloadedId : List (Action Unit Unit) :=
  [.addXLine () ()
      { mask := ascii "*@host.example", by_ := ascii "oper", created := 100, expires := 0,
        reason := ascii "spam", id := ascii "AAAAAAAAAA" },
    .unserialize ()
      { manager := some (), mask := ascii "*@host.example", by_ := ascii "oper",
        reason := ascii "spam", uid := ascii "BBBBBBBBBB", expires := 0, created := 100 }]

/-- Behind this run the line is still found under its old id, and not under its
own. -/
theorem not_always_tablesConsistent_reloadedId :
    ¬Always (step .ascii) (TablesConsistent .ascii) (some State.initial) reloadedId := by
  intro always
  have behind : (run (step .ascii) (some State.initial) reloadedId).join.map
      (fun state => ((state.objects.lookup ()).map (·.id), state.xlinesByUID.entries)) =
      some (some (ascii "BBBBBBBBBB"), [(ascii "AAAAAAAAAA", ascii "AAAAAAAAAA", ())]) := by
    decide +kernel
  rcases Option.map_eq_some_iff.mp behind with ⟨state, reached, view⟩
  rcases always.of_run (Option.join_eq_some_iff.mp reached) with ⟨_, ⟨⟩, consistent⟩
  rw [Prod.mk.injEq] at view
  obtain ⟨_, line, _, found, sameId, _⟩ :=
    @consistent.sound (ascii "AAAAAAAAAA") (ascii "AAAAAAAAAA") () (by simp [view.2])
  have changed := view.1
  rw [found, Option.map_some, sameId] at changed
  exact absurd changed (by decide)

end Anope.Xline
