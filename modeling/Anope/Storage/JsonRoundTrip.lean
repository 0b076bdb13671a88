import Anope.Storage.Json

/-!
# The round trip through the JSON database

What of a row is left when it is saved and read again, first with the types of
its fields and then any number of times without them.
-/

namespace Anope.Storage.Json

open Library Anope.Text Anope.Text.Convert

variable {casemap : Casemap} {ρ : Type} {floats : Floats ρ}

/-- A row whose keys differ for the backend and are C strings. -/
structure WellKeyed (casemap : Casemap) (data : List (Str × Str)) : Prop where
  distinct : (data.map (entryKey casemap)).Nodup
  terminated : ∀ entry ∈ data, 0 ∉ entry.1

/-- A key that the backend takes for its own. -/
def IsId (casemap : Casemap) (key : Str) : Prop :=
  casemap.equalsCi key idKey = true

instance decidableIsId (key : Str) : Decidable (IsId casemap key) :=
  inferInstanceAs (Decidable (_ = _))

/-- Storing under a new key. -/
theorem update_of_absent {data : List (Str × Str)} {key : Str}
    (absent : ∀ entry ∈ data, entryKey casemap entry ≠ casemap.ciStr key)
    (change : Option Str → Str) :
    update casemap data key change = data ++ [(key, change none)] := by
  rw [update, Keyed.alter_of_absent absent]
  rfl

theorem keeps_update (key : Str) (change : Option Str → Str) :
    Keyed.Keeps (entryKey casemap) (casemap.ciStr key) fun found =>
      some ((found.map Prod.fst).getD key, change (found.map Prod.snd)) := by
  intro found ofKey entry is
  rw [← Option.some.inj is]
  cases found with
  | none => rfl
  | some old => exact ofKey old rfl

/-- The entries after an update: a new one has the key, a changed one keeps its
spelling. -/
theorem mem_update {data : List (Str × Str)} {key : Str} {change : Option Str → Str}
    {entry : Str × Str} (mem : entry ∈ update casemap data key change) :
    entry ∈ data ∨ entry = (key, change none) ∨
      ∃ old ∈ data, entry = (old.1, change (some old.2)) := by
  rcases Keyed.mem_alter mem with kept | ⟨found, ofData, is⟩
  · exact Or.inl kept
  · cases found with
    | none => exact Or.inr (Or.inl (Option.some.inj is).symm)
    | some old => exact Or.inr (Or.inr ⟨old, (ofData old rfl).1, (Option.some.inj is).symm⟩)

/-- A member that becomes an entry of the row that is read. -/
def IsField (casemap : Casemap) (member : Str × Value ρ) : Prop :=
  ¬IsId casemap (astr member.1) ∧ member.2.isCtn = false

instance decidableIsField (member : Str × Value ρ) : Decidable (IsField casemap member) :=
  inferInstanceAs (Decidable (_ ∧ _))

/-- The members of an element that are fields, as they are read. -/
def readEntries (floats : Floats ρ) (casemap : Casemap) (element : Element ρ) :
    List (Str × Str) :=
  (element.filter fun member => decide (IsField casemap member)).map fun member =>
    (astr member.1, Row.readValue floats member.2 none)

theorem readEntries_cons_other {member : Str × Value ρ} (other : ¬IsField casemap member)
    (element : Element ρ) :
    readEntries floats casemap (member :: element) = readEntries floats casemap element := by
  rw [readEntries, List.filter_cons_of_neg (by simp [other]), readEntries]

theorem readEntries_cons_field {member : Str × Value ρ} (isField : IsField casemap member)
    (element : Element ρ) :
    readEntries floats casemap (member :: element) =
      (astr member.1, Row.readValue floats member.2 none) ::
        readEntries floats casemap element := by
  rw [readEntries, List.filter_cons_of_pos (by simp [isField]), List.map_cons, readEntries]

theorem readMember_of_isId {member : Str × Value ρ} (isId : IsId casemap (astr member.1))
    (row : Row) :
    Row.readMember casemap floats row member = { row with id := member.2.getUint } :=
  if_pos isId

theorem readMember_of_field {member : Str × Value ρ} (isField : IsField casemap member)
    (row : Row) :
    Row.readMember casemap floats row member =
      { row with
        data := update casemap row.data (astr member.1) (Row.readValue floats member.2) } :=
  (if_neg isField.1).trans (if_neg (Bool.eq_false_iff.mp isField.2))

/-- A member that is not a field leaves the entries. -/
theorem data_readMember_other {member : Str × Value ρ} (other : ¬IsField casemap member)
    (row : Row) : (Row.readMember casemap floats row member).data = row.data := by
  rw [Row.readMember]
  split
  · rfl
  · rename_i notId
    split
    · rfl
    · rename_i notCtn
      exact absurd ⟨notId, Bool.eq_false_iff.mpr notCtn⟩ other

/-- Reading members whose keys are new appends them. -/
theorem foldl_readMember {element : Element ρ} {row : Row}
    (distinct : ((row.data ++ readEntries floats casemap element).map (entryKey casemap)).Nodup) :
    (element.foldl (Row.readMember casemap floats) row).data =
      row.data ++ readEntries floats casemap element := by
  induction element generalizing row with
  | nil => exact (List.append_nil _).symm
  | cons member element ih =>
      rw [List.foldl_cons]
      by_cases isField : IsField casemap member
      · rw [readEntries_cons_field isField] at distinct ⊢
        have absent : ∀ entry ∈ row.data,
            entryKey casemap entry ≠ casemap.ciStr (astr member.1) := by
          intro entry mem same
          rw [List.map_append, List.nodup_append] at distinct
          exact distinct.2.2 _ (List.mem_map_of_mem mem) _ List.mem_cons_self same
        have grown : (Row.readMember casemap floats row member).data =
            row.data ++ [(astr member.1, Row.readValue floats member.2 none)] := by
          rw [readMember_of_field isField]
          exact update_of_absent absent _
        rw [List.append_cons, ← grown] at distinct ⊢
        exact ih distinct
      · rw [readEntries_cons_other isField] at distinct ⊢
        have same : (Row.readMember casemap floats row member).data = row.data :=
          data_readMember_other isField row
        rw [← same] at distinct ⊢
        exact ih distinct

/-- Reading sets no types. -/
theorem types_readMember (member : Str × Value ρ) (row : Row) :
    (Row.readMember casemap floats row member).types = row.types := by
  rw [Row.readMember]
  split
  · rfl
  · split <;> rfl

/-- Members that are fields leave the id. -/
theorem id_foldl_readMember {element : Element ρ}
    (fields : ∀ member ∈ element, IsField casemap member) (row : Row) :
    (element.foldl (Row.readMember casemap floats) row).id = row.id := by
  induction element generalizing row with
  | nil => rfl
  | cons member element ih =>
      rw [List.foldl_cons, ih fun other mem => fields other (List.mem_cons_of_mem _ mem),
        readMember_of_field (fields member List.mem_cons_self)]

theorem zero_notMem_signedDecimal (v : Int) : 0 ∉ signedDecimal v := by
  have digits : 0 ∉ decimal v.natAbs := fun mem =>
    absurd (isDigit_of_mem_decimal mem) (by decide)
  rw [signedDecimal]
  split
  · rw [List.mem_cons, not_or]
    exact ⟨by decide, digits⟩
  · exact digits

/-- What is read is a C string. -/
theorem zero_notMem_readValue (value : Value ρ) {found : Option Str}
    (terminated : ∀ line ∈ found, 0 ∉ line) : 0 ∉ Row.readValue floats value found := by
  cases value with
  | null | ctn =>
      cases found with
      | none => exact List.not_mem_nil
      | some line => exact terminated line rfl
  | bool b =>
      cases b
      · exact (by decide : 0 ∉ boolText false)
      · exact (by decide : 0 ∉ boolText true)
  | sint v | uint v => exact zero_notMem_signedDecimal _
  | real r => exact floats.terminated r
  | str line => exact zero_notMem_astr line

/-- The elements of a row that are read as fields. -/
def fieldsOf (casemap : Casemap) (data : List (Str × Str)) : List (Str × Str) :=
  data.filter fun entry => !(decide (IsId casemap entry.1))

theorem isId_idKey : IsId casemap (astr idKey) := by
  rw [astr_eq_self (by decide)]
  exact (Casemap.equalsCi_iff casemap _ _).mpr rfl

theorem isCtn_saveValue (type : DataType) (line : Str) :
    (Row.saveValue floats type line).reread.isCtn = false := by
  cases type with
  | bool | float | uint => rfl
  | int =>
      rw [Row.saveValue, Value.reread]
      split <;> rfl
  | text =>
      rw [Row.saveValue]
      split <;> rfl

/-- A saved entry is read as a field unless its key is the reserved one. -/
theorem isField_save_iff (type : DataType) {entry : Str × Str} (terminated : 0 ∉ entry.1) :
    IsField casemap (entry.1, (Row.saveValue floats type entry.2).reread) ↔
      ¬IsId casemap entry.1 := by
  rw [IsField, isCtn_saveValue, astr_eq_self terminated]
  exact and_iff_left rfl

/-- The members that are read where fields were saved. -/
theorem readEntries_map_save (row : Row) {entries : List (Str × Str)}
    (terminated : ∀ entry ∈ entries, 0 ∉ entry.1) :
    readEntries floats casemap (entries.map fun entry =>
        (entry.1, (Row.saveValue floats (row.getType entry.1) entry.2).reread)) =
      (fieldsOf casemap entries).map fun entry =>
        (entry.1, resave floats (row.getType entry.1) entry.2) := by
  induction entries with
  | nil => rfl
  | cons entry entries ih =>
      have keyTerminated := terminated entry List.mem_cons_self
      have isField : IsField casemap
          (entry.1, (Row.saveValue floats (row.getType entry.1) entry.2).reread) ↔
            ¬IsId casemap entry.1 :=
        isField_save_iff _ keyTerminated
      have later := ih fun other mem => terminated other (List.mem_cons_of_mem entry mem)
      rw [List.map_cons, fieldsOf]
      by_cases isId : IsId casemap entry.1
      · rw [readEntries_cons_other (fun field => isField.mp field isId), later,
          List.filter_cons_of_neg (by simp [isId]), fieldsOf]
      · rw [readEntries_cons_field (isField.mpr isId), later,
          List.filter_cons_of_pos (by simp [isId]), List.map_cons, fieldsOf,
          astr_eq_self keyTerminated]
        rfl

/-- The members that are read where a row was saved. -/
theorem readEntries_save (row : Row) {entries : List (Str × Str)}
    (terminated : ∀ entry ∈ entries, 0 ∉ entry.1) :
    readEntries floats casemap ((row.save floats entries).map fun member =>
        (member.1, member.2.reread)) =
      (fieldsOf casemap entries).map fun entry =>
        (entry.1, resave floats (row.getType entry.1) entry.2) := by
  rw [Row.save, List.map_append, List.map_map, ← readEntries_map_save row terminated]
  split
  · rw [List.map_cons, List.map_nil, List.singleton_append,
      readEntries_cons_other fun field => field.1 isId_idKey]
    rfl
  · rfl

/-- The texts that are read where a row was saved. -/
theorem data_reload (visit : Iteration) {row : Row} (wellKeyed : WellKeyed casemap row.data) :
    (row.reload casemap floats visit).data =
      (fieldsOf casemap (visit.order row.data)).map fun entry =>
        (entry.1, resave floats (row.getType entry.1) entry.2) := by
  have perm := visit.perm row.data
  have terminated : ∀ entry ∈ visit.order row.data, 0 ∉ entry.1 := fun entry mem =>
    wellKeyed.terminated entry (perm.mem_iff.mp mem)
  have members : readEntries floats casemap ((row.save floats (visit.order row.data)).map
      fun member => (member.1, member.2.reread)) =
        (fieldsOf casemap (visit.order row.data)).map fun entry =>
          (entry.1, resave floats (row.getType entry.1) entry.2) :=
    readEntries_save row terminated
  rw [Row.reload, Row.read, foldl_readMember]
  · rw [members]
    rfl
  · have sameKeys : (readEntries floats casemap ((row.save floats (visit.order row.data)).map
        fun member => (member.1, member.2.reread))).map (entryKey casemap) =
          (fieldsOf casemap (visit.order row.data)).map (entryKey casemap) := by
      rw [members, List.map_map]
      rfl
    have sublist : (fieldsOf casemap (visit.order row.data)).Sublist (visit.order row.data) :=
      List.filter_sublist
    have distinct := (perm.map (entryKey casemap)).nodup_iff.mpr wellKeyed.distinct
    change (readEntries _ _ _).map (entryKey casemap) |>.Nodup
    rw [sameKeys]
    exact distinct.sublist (sublist.map _)

/-! ## Rows without types -/

/-- A row that was read from an element. -/
structure Plain (casemap : Casemap) (row : Row) : Prop where
  wellKeyed : WellKeyed casemap row.data
  fields : ∀ entry ∈ row.data, ¬IsId casemap entry.1
  texts : ∀ entry ∈ row.data, 0 ∉ entry.2
  untyped : row.types = fun _ => none

theorem plain_empty : Plain casemap (.empty 0) where
  wellKeyed := ⟨List.nodup_nil, fun _ mem => nomatch mem⟩
  fields _ mem := nomatch mem
  texts _ mem := nomatch mem
  untyped := rfl

/-- A member of a row that is read is added to it with a key and a text that are C
strings. -/
theorem Plain.readMember {row : Row} (plain : Plain casemap row) (member : Str × Value ρ) :
    Plain casemap (row.readMember casemap floats member) := by
  have untyped : (row.readMember casemap floats member).types = fun _ => none :=
    (types_readMember member row).trans plain.untyped
  by_cases isField : IsField casemap member
  · rw [readMember_of_field isField] at untyped ⊢
    refine ⟨⟨?_, ?_⟩, ?_, ?_, untyped⟩
    · exact Keyed.nodup_alter (keeps_update _ _) plain.wellKeyed.distinct
    · intro entry mem
      rcases mem_update mem with old | rfl | ⟨old, inData, rfl⟩
      · exact plain.wellKeyed.terminated entry old
      · exact zero_notMem_astr member.1
      · exact plain.wellKeyed.terminated old inData
    · intro entry mem
      rcases mem_update mem with old | rfl | ⟨old, inData, rfl⟩
      · exact plain.fields entry old
      · exact isField.1
      · exact plain.fields old inData
    · intro entry mem
      rcases mem_update mem with old | rfl | ⟨old, inData, rfl⟩
      · exact plain.texts entry old
      · exact zero_notMem_readValue member.2 fun _ isNone => nomatch isNone
      · refine zero_notMem_readValue member.2 fun line is => ?_
        exact Option.some.inj is ▸ plain.texts old inData
  · have same : (row.readMember casemap floats member).data = row.data :=
      data_readMember_other isField row
    exact ⟨same ▸ plain.wellKeyed, same ▸ plain.fields, same ▸ plain.texts, untyped⟩

/-- What is read from an element is plain. -/
theorem plain_read (element : Element ρ) : Plain casemap (Row.read casemap floats element) := by
  have fold : ∀ row, Plain casemap row →
      Plain casemap (element.foldl (Row.readMember casemap floats) row) := by
    induction element with
    | nil => exact fun _ plain => plain
    | cons member element ih => exact fun row plain => ih _ (plain.readMember member)
  exact fold _ plain_empty

/-- Saving a plain row and reading it again only changes the order of its
entries. -/
theorem Plain.data_reload {row : Row} (plain : Plain casemap row) (visit : Iteration) :
    ((row.reload casemap floats visit).data).Perm row.data := by
  have perm := visit.perm row.data
  have allFields : fieldsOf casemap (visit.order row.data) = visit.order row.data := by
    refine List.filter_eq_self.mpr fun entry mem => ?_
    rw [decide_eq_false (plain.fields entry (perm.mem_iff.mp mem))]
    rfl
  have same : ∀ entry ∈ visit.order row.data,
      (entry.1, resave floats (row.getType entry.1) entry.2) = entry := by
    intro entry mem
    rw [Row.getType, plain.untyped, Option.getD_none, resave_text,
      astr_eq_self (plain.texts entry (perm.mem_iff.mp mem))]
  rw [Json.data_reload visit plain.wellKeyed, allFields, List.map_congr_left same, List.map_id']
  exact perm

/-- The id of a plain row comes back. -/
theorem Plain.id_reload {row : Row} (plain : Plain casemap row) (visit : Iteration) :
    (row.reload casemap floats visit).id = row.id := by
  have fields : ∀ member ∈ ((visit.order row.data).map fun entry =>
      (entry.1, Row.saveValue floats (row.getType entry.1) entry.2)).map
        fun member => (member.1, member.2.reread),
      IsField casemap member := by
    intro member mem
    rw [List.map_map] at mem
    rcases List.mem_map.mp mem with ⟨entry, inOrder, rfl⟩
    have inData := (visit.perm row.data).mem_iff.mp inOrder
    exact (isField_save_iff _ (plain.wellKeyed.terminated entry inData)).mpr
      (plain.fields entry inData)
  rw [Row.reload, Row.read, Row.save, List.map_append, List.foldl_append, id_foldl_readMember fields]
  split
  · rw [List.map_cons, List.map_nil, List.foldl_cons, List.foldl_nil,
      readMember_of_isId isId_idKey]
    rfl
  · rename_i noId
    exact (not_not.mp noId).symm

/-- After any number of rounds a plain row has the entries and the id it had. -/
theorem Plain.rounds {row : Row} (plain : Plain casemap row) (visit : Nat → Iteration) (n : Nat) :
    Plain casemap (row.rounds casemap floats visit n) ∧
      ((row.rounds casemap floats visit n).data).Perm row.data ∧
      (row.rounds casemap floats visit n).id = row.id := by
  induction n with
  | zero => exact ⟨plain, List.Perm.refl _, rfl⟩
  | succ n ih =>
      rcases ih with ⟨plainBefore, data, id⟩
      exact ⟨plain_read _, (plainBefore.data_reload (visit n)).trans data,
        (plainBefore.id_reload (visit n)).trans id⟩

/-- From the first round on only the order of the entries changes. -/
theorem data_rounds_succ (visit : Nat → Iteration) (row : Row) (n : Nat) :
    ((row.rounds casemap floats visit (n + 1)).data).Perm
      (row.reload casemap floats (visit 0)).data := by
  induction n with
  | zero => exact List.Perm.refl _
  | succ n ih =>
      have plain : Plain casemap (row.rounds casemap floats visit (n + 1)) := plain_read _
      exact (plain.data_reload (visit (n + 1))).trans ih

end Anope.Storage.Json
