import Anope.Access.Peace
import Anope.Library.Ranking

/-!
# Access is ordered

The operators of access groups compare a number: that of a services admin, that of a founder, or
the place of the highest privilege.  Entries of `cs_access` compare their levels, which agrees with
the places of their highest privileges, so that the operators are an order for entries of all
systems together.
-/

namespace Anope.Access

open Library.Ranking

/-- The highest privilege that not both sides lack compares the places of the highest. -/
theorem outranks_iff {privileges : List Str} {left right : Str → Bool} :
    outranks privileges left right = true ↔
      height right privileges.reverse < height left privileges.reverse := by
  have isAbove : outranks privileges left right = above left right privileges.reverse := by
    rw [outranks, above]
    cases privileges.reverse.find? fun priv => left priv || right priv with
    | none => rfl
    | some priv => rfl
  rw [isAbove, above_eq_height_lt, decide_eq_true_iff]

/-! ## Groups -/

namespace AccessGroup

variable {χ α ν : Type}

/-- `operator>`. -/
def gt (env : Env χ α ν) (registry : Registry χ α ν) (left right : AccessGroup χ α ν) : Bool :=
  if right.superAdmin then false
  else if left.superAdmin then true
  else if right.founder then false
  else if left.founder then true
  else outranks env.privileges (left.hasPriv env registry) (right.hasPriv env registry)

/-- The number of a group. -/
def rank (env : Env χ α ν) (registry : Registry χ α ν) (group : AccessGroup χ α ν) : Nat :=
  if group.superAdmin then env.privileges.length + 2
  else if group.founder then env.privileges.length + 1
  else height (group.hasPriv env registry) env.privileges.reverse

variable {env : Env χ α ν} {registry : Registry χ α ν} {left right : AccessGroup χ α ν}

theorem height_lt (group : AccessGroup χ α ν) :
    height (group.hasPriv env registry) env.privileges.reverse < env.privileges.length + 1 := by
  have le := height_le_length (group.hasPriv env registry) env.privileges.reverse
  rw [List.length_reverse] at le
  exact Nat.lt_succ_of_le le

/-- `>` compares the numbers of the groups. -/
theorem gt_iff_rank_lt :
    gt env registry left right = true ↔ rank env registry right < rank env registry left := by
  have lowLeft := @height_lt _ _ _ env registry left
  have lowRight := @height_lt _ _ _ env registry right
  rw [gt, rank, rank]
  cases right.superAdmin with
  | true =>
      refine iff_of_false Bool.false_ne_true ?_
      cases left.superAdmin <;> cases left.founder <;> simp
      omega
  | false =>
      cases left.superAdmin with
      | true =>
          refine iff_of_true rfl ?_
          cases right.founder <;> simp
          omega
      | false =>
          cases right.founder with
          | true =>
              refine iff_of_false Bool.false_ne_true ?_
              cases left.founder <;> simp
              omega
          | false =>
              cases left.founder with
              | true => exact iff_of_true rfl lowRight
              | false => exact outranks_iff

/-- `<` is the same comparison the other way. -/
theorem lt_eq_gt : lt env registry left right = gt env registry right left :=
  rfl

/-- The operators of access groups belong to one order. -/
theorem comparison (env : Env χ α ν) (registry : Registry χ α ν) :
    Comparison (gt env registry) (lt env registry) (ge env registry) :=
  comparison_of_rank (rank env registry) (fun _ _ => gt_iff_rank_lt) (fun _ _ => gt_iff_rank_lt)
    fun _ _ => rfl

end AccessGroup

/-! ## Entries -/

namespace Grant

variable {systems : Systems} {left middle right : Grant}

/-- The place of the highest privilege that an entry gives. -/
def rank (systems : Systems) (grant : Grant) : Nat :=
  height (grant.hasPriv systems) systems.privileges.reverse

/-- Whether an entry is one of `cs_access`. -/
def level? : Grant → Option Int
  | access level => some level
  | xop _ => none
  | flags _ => none

/-- A lower level gives no more privileges. -/
theorem rank_access_mono {level other : Int} (le : level ≤ other) :
    rank systems (access level) ≤ rank systems (access other) := by
  apply height_mono
  intro priv _ has
  rw [hasPriv, Bool.and_eq_true, decide_eq_true_iff, decide_eq_true_iff] at has ⊢
  exact ⟨has.1, Int.le_trans has.2 le⟩

/-- Two entries that are not both levels compare by the places of their highest privileges. -/
theorem gt_iff_of_level?_eq_none (mixed : left.level? = none ∨ right.level? = none) :
    gt systems left right = true ↔ rank systems right < rank systems left := by
  have general : gt systems left right =
      outranks systems.privileges (left.hasPriv systems) (right.hasPriv systems) := by
    cases left with
    | access level =>
        cases right with
        | access other =>
            rcases mixed with none | none
            · cases none
            · cases none
        | xop type => rfl
        | flags set => rfl
    | xop type => rfl
    | flags set => rfl
  rw [general]
  exact outranks_iff

/-- Two levels compare as numbers. -/
theorem exists_of_level?_ne_none (both : ¬(left.level? = none ∨ right.level? = none)) :
    ∃ level other, left = access level ∧ right = access other := by
  rw [not_or] at both
  cases left with
  | access level =>
      cases right with
      | access other => exact ⟨level, other, rfl, rfl⟩
      | xop type => exact absurd rfl both.2
      | flags set => exact absurd rfl both.2
  | xop type => exact absurd rfl both.1
  | flags set => exact absurd rfl both.1

theorem gt_access_iff {level other : Int} :
    gt systems (access level) (access other) = true ↔ other < level :=
  decide_eq_true_iff

/-- The greater entry has at least the place of the other one. -/
theorem rank_le_of_gt (greater : gt systems left right = true) :
    rank systems right ≤ rank systems left := by
  by_cases mixed : left.level? = none ∨ right.level? = none
  · exact Nat.le_of_lt ((gt_iff_of_level?_eq_none mixed).mp greater)
  · obtain ⟨level, other, rfl, rfl⟩ := exists_of_level?_ne_none mixed
    exact rank_access_mono (Int.le_of_lt (gt_access_iff.mp greater))

/-- An entry with the higher place is the greater one. -/
theorem gt_of_rank_lt (higher : rank systems right < rank systems left) :
    gt systems left right = true := by
  by_cases mixed : left.level? = none ∨ right.level? = none
  · exact (gt_iff_of_level?_eq_none mixed).mpr higher
  · obtain ⟨level, other, rfl, rfl⟩ := exists_of_level?_ne_none mixed
    rw [gt_access_iff]
    by_contra notGreater
    exact absurd higher (Nat.not_lt.mpr (rank_access_mono (Int.not_lt.mp notGreater)))

theorem lt_eq_gt : lt systems left right = gt systems right left := by
  cases left with
  | access level => cases right <;> rfl
  | xop type => cases right <;> rfl
  | flags set => cases right <;> rfl

theorem not_gt_of_gt (greater : gt systems left right = true) :
    ¬gt systems right left = true := by
  intro less
  by_cases mixed : left.level? = none ∨ right.level? = none
  · have above := (gt_iff_of_level?_eq_none mixed).mp greater
    have below := (gt_iff_of_level?_eq_none mixed.symm).mp less
    exact Nat.lt_asymm above below
  · obtain ⟨level, other, rfl, rfl⟩ := exists_of_level?_ne_none mixed
    exact Int.lt_asymm (gt_access_iff.mp greater) (gt_access_iff.mp less)

/-- Three levels compare as numbers; otherwise one of the two steps is between places, which the
other one keeps. -/
theorem gt_trans (first : gt systems left middle = true) (second : gt systems middle right = true) :
    gt systems left right = true := by
  by_cases mixed : left.level? = none ∨ middle.level? = none
  · apply gt_of_rank_lt
    exact Nat.lt_of_le_of_lt (rank_le_of_gt second) ((gt_iff_of_level?_eq_none mixed).mp first)
  · by_cases mixed' : middle.level? = none ∨ right.level? = none
    · apply gt_of_rank_lt
      exact Nat.lt_of_lt_of_le ((gt_iff_of_level?_eq_none mixed').mp second) (rank_le_of_gt first)
    · obtain ⟨level, other, rfl, rfl⟩ := exists_of_level?_ne_none mixed
      obtain ⟨_, least, same, rfl⟩ := exists_of_level?_ne_none mixed'
      cases same
      rw [gt_access_iff] at first second ⊢
      exact Int.lt_trans second first

/-- The operators of entries belong to one order, whatever their systems. -/
theorem comparison (systems : Systems) :
    Comparison (gt systems) (lt systems) (ge systems) where
  asymm left right := fun both => not_gt_of_gt both.1 both.2
  gt_iff_lt left right := by rw [lt_eq_gt]
  ge_iff_not_gt left right := by rw [ge, lt_eq_gt, Bool.not_eq_true', ← Bool.not_eq_true]
  trans left middle right := gt_trans

end Grant

/-- The comparison of access is a consistent order, for groups and for entries. -/
theorem access_comparison :
    (∀ {χ α ν : Type} (env : Env χ α ν) (registry : Registry χ α ν),
      Comparison (AccessGroup.gt env registry) (AccessGroup.lt env registry)
        (AccessGroup.ge env registry)) ∧
      ∀ systems : Systems,
        Comparison (Grant.gt systems) (Grant.lt systems) (Grant.ge systems) :=
  ⟨AccessGroup.comparison, Grant.comparison⟩

end Anope.Access
