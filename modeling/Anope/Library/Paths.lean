import Mathlib.Data.Finset.Union
import Mathlib.Tactic.Common

/-!
# Searching for paths of bounded length

Nodes have lists of entries.  An entry hits what is searched, leads to another
node, or does neither.  The search from a node finds the paths of entries that
end with a hit, up to a length, whether or not the entries lead in circles.
-/

namespace Library.Paths

universe u v

variable {ν : Type u} {α : Type v}

/-- What a search does at an entry. -/
inductive Verdict (ν : Type u) where
  | hit
  | follow (next : ν)
  | miss

/-- A path from a node: each entry leads to the node that has the next one, and
the last one hits. -/
inductive IsPath (entries : ν → List α) (hits : α → Prop) (leads : α → ν → Prop) :
    ν → List α → Prop where
  | last {node : ν} {entry : α} (mem : entry ∈ entries node) (hit : hits entry) :
      IsPath entries hits leads node [entry]
  | step {node next : ν} {entry : α} {rest : List α} (mem : entry ∈ entries node)
      (lead : leads entry next) (tail : IsPath entries hits leads next rest) :
      IsPath entries hits leads node (entry :: rest)

/-- The paths of at most `bound` entries, depth first. -/
def search (entries : ν → List α) (judge : α → Verdict ν) : Nat → ν → List (List α)
  | 0, _ => []
  | bound + 1, node => (entries node).flatMap fun entry =>
      match judge entry with
      | .hit => [[entry]]
      | .follow next => (search entries judge bound next).map (entry :: ·)
      | .miss => []

variable {entries : ν → List α} {judge : α → Verdict ν} {hits : α → Prop} {leads : α → ν → Prop}

theorem IsPath.ne_nil {node : ν} {path : List α} (isPath : IsPath entries hits leads node path) :
    path ≠ [] := by
  cases isPath with
  | last => exact List.cons_ne_nil _ _
  | step => exact List.cons_ne_nil _ _

/-- The search finds exactly the paths within the bound. -/
theorem mem_search_iff (hit_iff : ∀ entry, judge entry = .hit ↔ hits entry)
    (follow_iff : ∀ entry next, judge entry = .follow next ↔ leads entry next) {bound : Nat}
    {node : ν} {path : List α} :
    path ∈ search entries judge bound node ↔
      IsPath entries hits leads node path ∧ path.length ≤ bound := by
  induction bound generalizing node path with
  | zero =>
      refine iff_of_false List.not_mem_nil ?_
      rintro ⟨isPath, short⟩
      exact isPath.ne_nil (List.eq_nil_of_length_eq_zero (Nat.le_zero.mp short))
  | succ bound ih =>
      rw [search, List.mem_flatMap]
      constructor
      · rintro ⟨entry, mem, found⟩
        split at found
        next judged =>
          cases List.mem_singleton.mp found
          exact ⟨.last mem ((hit_iff entry).mp judged), Nat.succ_le_succ (Nat.zero_le _)⟩
        next next judged =>
          obtain ⟨rest, inRest, rfl⟩ := List.mem_map.mp found
          obtain ⟨tail, short⟩ := ih.mp inRest
          exact ⟨.step mem ((follow_iff entry next).mp judged) tail, Nat.succ_le_succ short⟩
        next => contradiction
      · rintro ⟨isPath, short⟩
        cases isPath with
        | @last _ entry mem hit =>
            refine ⟨entry, mem, ?_⟩
            rw [(hit_iff entry).mpr hit]
            exact List.mem_singleton_self _
        | @step _ next entry rest mem lead tail =>
            refine ⟨entry, mem, ?_⟩
            rw [(follow_iff entry next).mpr lead]
            exact List.mem_map_of_mem (ih.mpr ⟨tail, Nat.le_of_succ_le_succ short⟩)

/-! ## Nodes within a distance -/

section Within

variable {nexts : ν → List ν} {node next last : ν}

/-- A walk of a number of steps from a node to another one. -/
inductive Walk (nexts : ν → List ν) : Nat → ν → ν → Prop where
  | here (node : ν) : Walk nexts 0 node node
  | step {steps : Nat} {node next last : ν} (mem : next ∈ nexts node)
      (rest : Walk nexts steps next last) : Walk nexts (steps + 1) node last

variable [DecidableEq ν]

/-- The nodes that a number of steps is enough for. -/
def nodesWithin (nexts : ν → List ν) : Nat → ν → Finset ν
  | 0, node => {node}
  | bound + 1, node => insert node ((nexts node).toFinset.biUnion (nodesWithin nexts bound))

theorem mem_nodesWithin_self (nexts : ν → List ν) (bound : Nat) (node : ν) :
    node ∈ nodesWithin nexts bound node := by
  cases bound with
  | zero => exact Finset.mem_singleton_self node
  | succ bound => exact Finset.mem_insert_self node _

theorem mem_nodesWithin_iff {bound : Nat} :
    last ∈ nodesWithin nexts bound node ↔ ∃ steps ≤ bound, Walk nexts steps node last := by
  induction bound generalizing node with
  | zero =>
      rw [nodesWithin, Finset.mem_singleton]
      constructor
      · rintro rfl
        exact ⟨0, Nat.le_refl 0, .here last⟩
      · rintro ⟨steps, none, walk⟩
        obtain rfl := Nat.le_zero.mp none
        cases walk
        rfl
  | succ bound ih =>
      rw [nodesWithin, Finset.mem_insert, Finset.mem_biUnion]
      constructor
      · rintro (rfl | ⟨next, mem, within⟩)
        · exact ⟨0, Nat.zero_le _, .here last⟩
        · obtain ⟨steps, few, walk⟩ := ih.mp within
          exact ⟨steps + 1, Nat.succ_le_succ few, .step (List.mem_toFinset.mp mem) walk⟩
      · rintro ⟨steps, few, walk⟩
        cases walk with
        | here => exact .inl rfl
        | step mem rest =>
            exact .inr ⟨_, List.mem_toFinset.mpr mem,
              ih.mpr ⟨_, Nat.le_of_succ_le_succ few, rest⟩⟩

end Within

end Library.Paths
