import Mathlib.Algebra.GroupWithZero.Nat
import Mathlib.Data.List.Nodup

/-!
# Lists with keyed elements

An unordered map as the list of its elements, each of which has a key.  One
operation changes, removes or adds the element of a key; the lemmas say what is
found afterwards.
-/

namespace Library.Keyed

universe u v

variable {ε : Type u} {κ : Type v} [DecidableEq κ] (key : ε → κ)

/-- The element of a key. -/
def find (k : κ) (list : List ε) : Option ε :=
  list.find? fun e => key e = k

/-- Put what `change` makes of the element of a key, or of its absence, in its
place. -/
def alter (k : κ) (change : Option ε → Option ε) : List ε → List ε
  | [] => (change none).toList
  | e :: list =>
      if key e = k then (change (some e)).toList ++ list else e :: alter k change list

variable {key} {k other : κ} {change : Option ε → Option ε} {list : List ε}

theorem find_cons_self {e : ε} (same : key e = k) : find key k (e :: list) = some e := by
  refine List.find?_cons_of_pos ?_
  exact decide_eq_true same

theorem find_cons_ne {e : ε} (different : key e ≠ k) :
    find key k (e :: list) = find key k list := by
  refine List.find?_cons_of_neg fun same => ?_
  exact different (of_decide_eq_true same)

theorem key_of_find {e : ε} (found : find key k list = some e) : key e = k := by
  rw [find] at found
  have test := List.find?_some found
  exact of_decide_eq_true test

theorem mem_of_find {e : ε} (found : find key k list = some e) : e ∈ list :=
  List.mem_of_find?_eq_some found

theorem find_eq_none_iff : find key k list = none ↔ ∀ e ∈ list, key e ≠ k := by
  rw [find, List.find?_eq_none]
  exact forall₂_congr fun e _ => by rw [decide_eq_true_iff]

/-- A map that keeps the keys commutes with searching. -/
theorem find_map {f : ε → ε} (keeps : ∀ e, key (f e) = key e) :
    find key k (list.map f) = (find key k list).map f := by
  induction list with
  | nil => rfl
  | cons first list ih =>
      rw [List.map_cons]
      by_cases same : key first = k
      · rw [find_cons_self same, find_cons_self ((keeps first).trans same)]
        rfl
      · rw [find_cons_ne same, find_cons_ne fun is => same ((keeps first).symm.trans is), ih]

/-- Elements of other keys may be left out. -/
theorem find_filter {test : ε → Bool} (kept : ∀ e, key e = k → test e = true) :
    find key k (list.filter test) = find key k list := by
  induction list with
  | nil => rfl
  | cons first list ih =>
      by_cases same : key first = k
      · rw [List.filter_cons_of_pos (kept first same), find_cons_self same, find_cons_self same]
      · rw [find_cons_ne same, ← ih, List.filter_cons]
        split
        · exact find_cons_ne same
        · rfl

/-- In a list of different keys every element is found under its key. -/
theorem find_of_mem (distinct : (list.map key).Nodup) {e : ε} (mem : e ∈ list) :
    find key (key e) list = some e := by
  induction list with
  | nil => cases mem
  | cons first list ih =>
      rw [List.map_cons, List.nodup_cons] at distinct
      rcases List.mem_cons.mp mem with rfl | inRest
      · exact find_cons_self rfl
      · have different : key first ≠ key e := fun same =>
          distinct.1 (same ▸ List.mem_map_of_mem inRest)
        rw [find_cons_ne different]
        exact ih distinct.2 inRest

/-- In a list of different keys an element is counted once. -/
theorem countP_key (distinct : (list.map key).Nodup) {e : ε} (mem : e ∈ list) {test : ε → Bool}
    (passes : test e = true) : list.countP (fun d => decide (key d = key e) && test d) = 1 := by
  induction list with
  | nil => cases mem
  | cons first list ih =>
      rw [List.map_cons, List.nodup_cons] at distinct
      rcases List.mem_cons.mp mem with rfl | inRest
      · have others : list.countP (fun d => decide (key d = key e) && test d) = 0 := by
          refine List.countP_eq_zero.mpr fun d inList counted => ?_
          have same := of_decide_eq_true (Bool.and_eq_true_iff.mp counted).1
          exact distinct.1 (same ▸ List.mem_map_of_mem inList)
        rw [List.countP_cons_of_pos (by rw [passes, decide_eq_true rfl]; rfl), others]
      · have different : key first ≠ key e := fun same =>
          distinct.1 (same ▸ List.mem_map_of_mem inRest)
        rw [List.countP_cons_of_neg (by simp [different])]
        exact ih distinct.2 inRest

/-- In lists of different keys, what is found does not depend on the order. -/
theorem find_perm (distinct : (list.map key).Nodup) {permuted : List ε}
    (perm : permuted.Perm list) (k : κ) : find key k permuted = find key k list := by
  cases found : find key k list with
  | none =>
      rw [find_eq_none_iff] at found ⊢
      exact fun e mem => found e (perm.mem_iff.mp mem)
  | some e =>
      have distinctPermuted : (permuted.map key).Nodup := (perm.map key).nodup_iff.mpr distinct
      rw [← key_of_find found]
      exact find_of_mem distinctPermuted (perm.mem_iff.mpr (mem_of_find found))

/-- A new key goes to the end of the list. -/
theorem alter_of_absent (absent : ∀ e ∈ list, key e ≠ k) :
    alter key k change list = list ++ (change none).toList := by
  induction list with
  | nil => rfl
  | cons first list ih =>
      rw [alter, if_neg (absent first List.mem_cons_self),
        ih fun e mem => absent e (List.mem_cons_of_mem first mem)]
      rfl

/-- What changing the element of a key does to a sum over the elements. -/
theorem sum_map_alter (f : ε → Nat) (change : Option ε → Option ε) {e changed : ε}
    (found : find key k list = some e) (is : change (some e) = some changed) :
    ((alter key k change list).map f).sum + f e = (list.map f).sum + f changed := by
  induction list with
  | nil => exact nomatch found
  | cons first list ih =>
      rw [alter]
      by_cases same : key first = k
      · rw [find_cons_self same] at found
        rw [if_pos same, Option.some.inj found, is, Option.toList_some, List.singleton_append,
          List.map_cons, List.map_cons, List.sum_cons, List.sum_cons]
        omega
      · rw [find_cons_ne same] at found
        have rest := ih found
        rw [if_neg same, List.map_cons, List.map_cons, List.sum_cons, List.sum_cons]
        omega

/-- What `change` makes of an element of a key, or of its absence, has that
key. -/
def Keeps (key : ε → κ) (k : κ) (change : Option ε → Option ε) : Prop :=
  ∀ found : Option ε, (∀ e ∈ found, key e = k) → ∀ e, change found = some e → key e = k

omit [DecidableEq κ] in
theorem Keeps.none (keeps : Keeps key k change) {e : ε} (is : change none = some e) :
    key e = k :=
  keeps Option.none (fun _ isNone => nomatch isNone) e is

omit [DecidableEq κ] in
theorem Keeps.some (keeps : Keeps key k change) {old e : ε} (same : key old = k)
    (is : change (some old) = some e) : key e = k :=
  keeps (Option.some old) (fun _ isOld => Option.some.inj isOld ▸ same) e is

/-- Changing elements in place keeps the keys as they are. -/
theorem map_key_alter_of_present {change : Option ε → Option ε} (absent : change none = none)
    (present : ∀ e, key e = k → ∃ changed, change (some e) = some changed ∧ key changed = k) :
    (alter key k change list).map key = list.map key := by
  induction list with
  | nil =>
      rw [alter, absent]
      rfl
  | cons first list ih =>
      rw [alter]
      split
      · rename_i same
        rcases present first same with ⟨changed, is, ofKey⟩
        rw [is, Option.toList_some, List.singleton_append, List.map_cons, List.map_cons, ofKey, same]
      · rw [List.map_cons, List.map_cons, ih]

/-- Where nothing is removed, the key and the old keys are the keys. -/
theorem mem_map_key_alter_iff {change : Option ε → Option ε}
    (made : ∀ found, ∃ e, change found = some e ∧ key e = k) {l : κ} :
    l ∈ (alter key k change list).map key ↔ l ∈ list.map key ∨ l = k := by
  induction list with
  | nil =>
      rcases made none with ⟨e, is, ofKey⟩
      rw [alter, is, Option.toList_some, List.map_singleton, List.mem_singleton, ofKey]
      exact (or_iff_right List.not_mem_nil).symm
  | cons first list ih =>
      rw [alter]
      split
      · rename_i same
        rcases made (some first) with ⟨e, is, ofKey⟩
        rw [is, Option.toList_some, List.singleton_append, List.map_cons, List.map_cons, ofKey,
          List.mem_cons, List.mem_cons, same]
        exact ⟨Or.inl, fun mem => mem.elim id Or.inl⟩
      · rw [List.map_cons, List.map_cons, List.mem_cons, List.mem_cons, ih, or_assoc]

theorem mem_alter {e : ε} (mem : e ∈ alter key k change list) :
    e ∈ list ∨ ∃ found : Option ε, (∀ old ∈ found, old ∈ list ∧ key old = k) ∧
      change found = some e := by
  induction list with
  | nil =>
      rw [alter, Option.mem_toList] at mem
      exact Or.inr ⟨none, (fun _ isNone => nomatch isNone), mem⟩
  | cons first list ih =>
      rw [alter] at mem
      split at mem
      · rename_i same
        rcases List.mem_append.mp mem with changed | kept
        · refine Or.inr ⟨some first, fun old is => ?_, Option.mem_toList.mp changed⟩
          cases is
          exact ⟨List.mem_cons_self, same⟩
        · exact Or.inl (List.mem_cons_of_mem first kept)
      · rcases List.mem_cons.mp mem with rfl | later
        · exact Or.inl List.mem_cons_self
        · refine (ih later).imp (List.mem_cons_of_mem first) fun ⟨found, old, made⟩ => ?_
          exact ⟨found, fun e is => ⟨List.mem_cons_of_mem first (old e is).1, (old e is).2⟩, made⟩

section Keeps

variable (keeps : Keeps key k change)

include keeps

theorem find_alter_ne (different : other ≠ k) :
    find key other (alter key k change list) = find key other list := by
  have absent : ∀ found : Option ε, (∀ e ∈ found, key e = k) → ∀ rest,
      find key other ((change found).toList ++ rest) = find key other rest := by
    intro found ofKey rest
    cases is : change found with
    | none => rfl
    | some e =>
        have notOther : key e ≠ other := fun same => different (same ▸ keeps found ofKey e is)
        exact find_cons_ne notOther
  induction list with
  | nil =>
      have nothing := absent none (fun _ isNone => nomatch isNone) []
      rwa [List.append_nil] at nothing
  | cons first list ih =>
      rw [alter]
      split
      · rename_i same
        rw [absent (some first) fun e is => Option.some.inj is ▸ same,
          find_cons_ne fun isOther => different (isOther.symm.trans same)]
      · by_cases is : key first = other
        · rw [find_cons_self is, find_cons_self is]
        · rw [find_cons_ne is, find_cons_ne is, ih]

theorem find_alter_self (distinct : (list.map key).Nodup) :
    find key k (alter key k change list) = change (find key k list) := by
  induction list with
  | nil =>
      rw [alter]
      cases is : change none with
      | none => exact is.symm
      | some e => exact (find_cons_self (keeps.none is)).trans is.symm
  | cons first list ih =>
      rw [List.map_cons, List.nodup_cons] at distinct
      rw [alter]
      split
      · rename_i same
        rw [find_cons_self same]
        cases is : change (some first) with
        | none =>
            refine find_eq_none_iff.mpr fun e mem isKey => distinct.1 ?_
            rw [same, ← isKey]
            exact List.mem_map_of_mem mem
        | some e => exact find_cons_self (keeps.some same is)
      · rename_i different
        rw [find_cons_ne different, find_cons_ne different]
        exact ih distinct.2

theorem map_key_alter_subset {l : κ} (mem : l ∈ (alter key k change list).map key) :
    l ∈ list.map key ∨ l = k := by
  rcases List.mem_map.mp mem with ⟨e, inAltered, rfl⟩
  rcases mem_alter inAltered with kept | ⟨found, old, made⟩
  · exact Or.inl (List.mem_map_of_mem kept)
  · exact Or.inr (keeps found (fun e is => (old e is).2) _ made)

theorem nodup_alter (distinct : (list.map key).Nodup) :
    ((alter key k change list).map key).Nodup := by
  induction list with
  | nil =>
      rw [alter]
      cases change none with
      | none => exact List.nodup_nil
      | some e => exact List.nodup_singleton _
  | cons first list ih =>
      rw [List.map_cons, List.nodup_cons] at distinct
      rw [alter]
      split
      · rename_i same
        cases is : change (some first) with
        | none => exact distinct.2
        | some e =>
            have keyOf : key e = key first := (keeps.some same is).trans same.symm
            rw [Option.toList_some, List.singleton_append, List.map_cons, keyOf]
            exact List.nodup_cons.mpr distinct
      · rename_i different
        rw [List.map_cons, List.nodup_cons]
        refine ⟨fun mem => ?_, ih distinct.2⟩
        rcases map_key_alter_subset keeps mem with old | same
        · exact distinct.1 old
        · exact different same

end Keeps

/-- Numbers that are given out in order tell a new element apart from the others. -/
theorem numbered_concat {number : ε → Nat} {next : Nat} {new : ε}
    (distinct : (list.map number).Nodup) (older : ∀ e ∈ list, number e < next)
    (isNext : number new = next) :
    ((list ++ [new]).map number).Nodup ∧ ∀ e ∈ list ++ [new], number e < next + 1 := by
  constructor
  · rw [List.map_append, List.nodup_append]
    refine ⟨distinct, List.nodup_singleton _, ?_⟩
    intro taken isOld given isNew same
    obtain ⟨old, mem, rfl⟩ := List.mem_map.mp isOld
    rw [List.map_singleton, List.mem_singleton, isNext] at isNew
    exact Nat.ne_of_lt (older old mem) (same.trans isNew)
  · intro e mem
    rcases List.mem_append.mp mem with old | isNew
    · exact Nat.lt_succ_of_lt (older e old)
    · rw [List.mem_singleton.mp isNew, isNext]
      exact Nat.lt_succ_self next

end Library.Keyed
