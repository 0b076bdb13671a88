import Mathlib.Data.List.Nodup
import Mathlib.Data.List.Perm.Basic

/-!
# Ordered forests

Trees whose nodes have any number of ordered children, next to each other: a first root with
the trees below it, and the other trees.  Pointers to the parents and lists of the children
describe a forest.  A node can be cut off with all that is below it.
-/

namespace Library

universe u

/-- A list of trees. -/
inductive Forest (α : Type u) where
  | nil
  | node (root : α) (below others : Forest α)

namespace Forest

variable {α : Type u}

/-- The roots, in order. -/
def roots : Forest α → List α
  | nil => []
  | node root _ others => root :: others.roots

/-- All nodes, each before those below it. -/
def nodes : Forest α → List α
  | nil => []
  | node root below others => root :: (below.nodes ++ others.nodes)

/-- The parent and the children of each node are as given; the roots have one parent. -/
def Describes (info : α → Option (Option α × List α)) : Option α → Forest α → Prop
  | _, nil => True
  | parent, node root below others =>
      info root = some (parent, below.roots) ∧ Describes info (some root) below ∧
        Describes info parent others

/-- Put a leaf behind the last tree. -/
def concat (leaf : α) : Forest α → Forest α
  | nil => node leaf nil nil
  | node root below others => node root below (others.concat leaf)

theorem roots_sublist (forest : Forest α) : forest.roots.Sublist forest.nodes := by
  induction forest with
  | nil => exact List.Sublist.refl _
  | node root below others _ ih =>
      exact (ih.trans (List.sublist_append_right _ _)).cons_cons root

theorem roots_concat (leaf : α) (forest : Forest α) :
    (forest.concat leaf).roots = forest.roots ++ [leaf] := by
  induction forest with
  | nil => rfl
  | node root below others _ ih => rw [concat, roots, roots, ih, List.cons_append]

theorem nodes_concat (leaf : α) (forest : Forest α) :
    (forest.concat leaf).nodes = forest.nodes ++ [leaf] := by
  induction forest with
  | nil => rfl
  | node root below others _ ih =>
      rw [concat, nodes, nodes, ih, List.cons_append, List.append_assoc]

/-- What describes a forest matters at its nodes only. -/
theorem Describes.congr {info info' : α → Option (Option α × List α)} {parent : Option α}
    {forest : Forest α} (describes : Describes info parent forest)
    (same : ∀ a ∈ forest.nodes, info' a = info a) : Describes info' parent forest := by
  induction forest generalizing parent with
  | nil => trivial
  | node root below others ihBelow ihOthers =>
      obtain ⟨isRoot, isBelow, areOthers⟩ := describes
      refine ⟨(same root List.mem_cons_self).trans isRoot, ihBelow isBelow fun a mem => ?_,
        ihOthers areOthers fun a mem => ?_⟩
      · exact same a (List.mem_cons_of_mem _ (List.mem_append_left _ mem))
      · exact same a (List.mem_cons_of_mem _ (List.mem_append_right _ mem))

theorem Describes.concat {info : α → Option (Option α × List α)} {parent : Option α}
    {forest : Forest α} {leaf : α} (describes : Describes info parent forest)
    (isLeaf : info leaf = some (parent, [])) : Describes info parent (forest.concat leaf) := by
  induction forest with
  | nil => exact ⟨isLeaf, trivial, trivial⟩
  | node root below others _ ih => exact ⟨describes.1, describes.2.1, ih describes.2.2⟩

theorem Describes.parent_of_roots {info : α → Option (Option α × List α)} {parent : Option α}
    {forest : Forest α} (describes : Describes info parent forest) {child : α}
    (mem : child ∈ forest.roots) : ∃ children, info child = some (parent, children) := by
  induction forest with
  | nil => cases mem
  | node root below others _ ih =>
      rcases List.mem_cons.mp mem with rfl | other
      · exact ⟨below.roots, describes.1⟩
      · exact ih describes.2.2 other

/-- The children of a node have it as their parent. -/
theorem Describes.parent_of_child {info : α → Option (Option α × List α)} {parent : Option α}
    {forest : Forest α} (describes : Describes info parent forest) {a child : α}
    {up : Option α} {children : List α} (mem : a ∈ forest.nodes)
    (isNode : info a = some (up, children)) (isChild : child ∈ children) :
    ∃ children, info child = some (some a, children) := by
  induction forest generalizing parent with
  | nil => cases mem
  | node root below others ihBelow ihOthers =>
      obtain ⟨isRoot, isBelow, areOthers⟩ := describes
      rw [nodes, List.mem_cons, List.mem_append] at mem
      rcases mem with rfl | inBelow | inOthers
      · cases isRoot.symm.trans isNode
        exact isBelow.parent_of_roots isChild
      · exact ihBelow isBelow inBelow
      · exact ihOthers areOthers inOthers

/-! ## Cutting -/

variable [DecidableEq α]

/-- A node and all that is below it. -/
def under (cut : α) : Forest α → List α
  | nil => []
  | node root below others =>
      (if root = cut then root :: below.nodes else below.under cut) ++ others.under cut

/-- What is left without a node and all that is below it. -/
def prune (cut : α) : Forest α → Forest α
  | nil => nil
  | node root below others =>
      if root = cut then others.prune cut else node root (below.prune cut) (others.prune cut)

theorem roots_prune (cut : α) (forest : Forest α) :
    (forest.prune cut).roots = forest.roots.filter fun root => root ≠ cut := by
  induction forest with
  | nil => rfl
  | node root below others _ ih =>
      rw [prune, roots, List.filter_cons]
      by_cases same : root = cut
      · rw [if_pos same, if_neg (by simpa using same), ih]
      · rw [if_neg same, if_pos (by simpa using same), roots, ih]

/-- A node is either left or cut off. -/
theorem perm_nodes (cut : α) (forest : Forest α) :
    forest.nodes.Perm ((forest.prune cut).nodes ++ forest.under cut) := by
  induction forest with
  | nil => exact List.Perm.refl _
  | node root below others ihBelow ihOthers =>
      rw [prune, under]
      by_cases same : root = cut
      · rw [if_pos same, if_pos same, nodes]
        refine ((ihOthers.append_left (root :: below.nodes))).trans ?_
        rw [← List.append_assoc, ← List.append_assoc]
        exact List.perm_append_comm.append_right _
      · rw [if_neg same, if_neg same, nodes, nodes, List.cons_append]
        refine List.Perm.cons root (((ihBelow.append ihOthers)).trans ?_)
        rw [List.append_assoc, List.append_assoc]
        refine List.Perm.append_left _ ?_
        rw [← List.append_assoc, ← List.append_assoc]
        exact List.perm_append_comm.append_right _

theorem under_eq_nil {cut : α} {forest : Forest α} (absent : cut ∉ forest.nodes) :
    forest.under cut = [] := by
  induction forest with
  | nil => rfl
  | node root below others ihBelow ihOthers =>
      rw [nodes, List.mem_cons, List.mem_append, not_or, not_or] at absent
      rw [under, if_neg fun same => absent.1 same.symm, ihBelow absent.2.1,
        ihOthers absent.2.2, List.append_nil]

/-- The tree at a node: its children, its parent, and what is cut off with it. -/
theorem Describes.exists_below {info : α → Option (Option α × List α)} {parent : Option α}
    {forest : Forest α} {cut : α} (describes : Describes info parent forest)
    (distinct : forest.nodes.Nodup) (mem : cut ∈ forest.nodes) :
    ∃ up below, info cut = some (up, below.roots) ∧ Describes info (some cut) below ∧
      forest.under cut = cut :: below.nodes ∧
      (up = parent ∧ cut ∈ forest.roots ∨
        ∃ place children up', up = some place ∧ place ∈ (forest.prune cut).nodes ∧
          info place = some (up', children) ∧ cut ∈ children ∧ children.Nodup) := by
  induction forest generalizing parent with
  | nil => cases mem
  | node root below others ihBelow ihOthers =>
      obtain ⟨isRoot, isBelow, areOthers⟩ := describes
      rw [nodes, List.nodup_cons, List.mem_append, not_or] at distinct
      obtain ⟨⟨notBelow, notOthers⟩, distinct⟩ := distinct
      obtain ⟨distinctBelow, distinctOthers, apart⟩ := List.nodup_append.mp distinct
      by_cases same : root = cut
      · subst same
        refine ⟨parent, below, isRoot, isBelow, ?_, .inl ⟨rfl, List.mem_cons_self⟩⟩
        rw [under, if_pos rfl, under_eq_nil notOthers, List.append_nil]
      · rw [prune, if_neg same, under, if_neg same, roots]
        rw [nodes, List.mem_cons, List.mem_append] at mem
        rcases mem.resolve_left fun is => same is.symm with inBelow | inOthers
        · have absent : cut ∉ others.nodes := fun inOthers => apart cut inBelow cut inOthers rfl
          obtain ⟨up, children, isCut, areChildren, isUnder, place⟩ :=
            ihBelow isBelow distinctBelow inBelow
          refine ⟨up, children, isCut, areChildren, ?_, .inr ?_⟩
          · rw [isUnder, under_eq_nil absent, List.append_nil]
          · rcases place with ⟨rfl, isChild⟩ | ⟨place, siblings, up', isUp, left, isPlace, others⟩
            · exact ⟨root, below.roots, parent, rfl, List.mem_cons_self, isRoot, isChild,
                distinctBelow.sublist below.roots_sublist⟩
            · exact ⟨place, siblings, up', isUp,
                List.mem_cons_of_mem _ (List.mem_append_left _ left), isPlace, others⟩
        · have absent : cut ∉ below.nodes := fun inBelow => apart cut inBelow cut inOthers rfl
          obtain ⟨up, children, isCut, areChildren, isUnder, place⟩ :=
            ihOthers areOthers distinctOthers inOthers
          refine ⟨up, children, isCut, areChildren, ?_, ?_⟩
          · rw [isUnder, under_eq_nil absent, List.nil_append]
          · rcases place with ⟨isUp, isRoot⟩ | ⟨place, siblings, up', isUp, left, rest⟩
            · exact .inl ⟨isUp, List.mem_cons_of_mem _ isRoot⟩
            · exact .inr ⟨place, siblings, up', isUp,
                List.mem_cons_of_mem _ (List.mem_append_right _ left), rest⟩

/-- The other nodes keep their parents, and their children but for the node that is cut. -/
theorem Describes.prune {info info' : α → Option (Option α × List α)} {parent : Option α}
    {forest : Forest α} {cut : α} (describes : Describes info parent forest)
    (left : ∀ a ∈ (forest.prune cut).nodes,
      info' a = (info a).map (.map id (List.filter fun child => child ≠ cut))) :
    Describes info' parent (forest.prune cut) := by
  induction forest generalizing parent with
  | nil => trivial
  | node root below others ihBelow ihOthers =>
      obtain ⟨isRoot, isBelow, areOthers⟩ := describes
      rw [Forest.prune] at left ⊢
      by_cases same : root = cut
      · rw [if_pos same] at left ⊢
        exact ihOthers areOthers left
      · rw [if_neg same] at left ⊢
        refine ⟨?_, ihBelow isBelow fun a mem => left a ?_,
          ihOthers areOthers fun a mem => left a ?_⟩
        · rw [left root List.mem_cons_self, isRoot, roots_prune]
          rfl
        · exact List.mem_cons_of_mem _ (List.mem_append_left _ mem)
        · exact List.mem_cons_of_mem _ (List.mem_append_right _ mem)

/-! ## Growing -/

/-- Put a leaf behind the children of a node. -/
def attach (place leaf : α) : Forest α → Forest α
  | nil => nil
  | node root below others =>
      node root (if root = place then below.concat leaf else below.attach place leaf)
        (others.attach place leaf)

theorem roots_attach (place leaf : α) (forest : Forest α) :
    (forest.attach place leaf).roots = forest.roots := by
  induction forest with
  | nil => rfl
  | node root below others _ ih => rw [attach, roots, roots, ih]

theorem attach_eq_self {place : α} (leaf : α) {forest : Forest α}
    (absent : place ∉ forest.nodes) : forest.attach place leaf = forest := by
  induction forest with
  | nil => rfl
  | node root below others ihBelow ihOthers =>
      rw [nodes, List.mem_cons, List.mem_append, not_or, not_or] at absent
      rw [attach, if_neg fun same => absent.1 same.symm, ihBelow absent.2.1, ihOthers absent.2.2]

theorem perm_nodes_attach {place : α} (leaf : α) {forest : Forest α}
    (distinct : forest.nodes.Nodup) (mem : place ∈ forest.nodes) :
    (forest.attach place leaf).nodes.Perm (leaf :: forest.nodes) := by
  induction forest with
  | nil => cases mem
  | node root below others ihBelow ihOthers =>
      rw [nodes, List.nodup_cons, List.mem_append, not_or] at distinct
      obtain ⟨⟨notBelow, notOthers⟩, distinct⟩ := distinct
      obtain ⟨distinctBelow, distinctOthers, apart⟩ := List.nodup_append.mp distinct
      rw [attach, nodes, nodes]
      refine (List.Perm.cons root ?_).trans (List.Perm.swap leaf root _)
      by_cases same : root = place
      · subst same
        rw [if_pos rfl, attach_eq_self leaf notOthers, nodes_concat, List.append_assoc]
        exact List.perm_middle
      · rw [if_neg same]
        rw [nodes, List.mem_cons, List.mem_append] at mem
        rcases mem.resolve_left fun is => same is.symm with inBelow | inOthers
        · rw [attach_eq_self leaf fun inOthers => apart place inBelow place inOthers rfl]
          exact (ihBelow distinctBelow inBelow).append_right _
        · rw [attach_eq_self leaf fun inBelow => apart place inBelow place inOthers rfl]
          exact ((ihOthers distinctOthers inOthers).append_left _).trans List.perm_middle

theorem Describes.attach {info info' : α → Option (Option α × List α)} {parent : Option α}
    {forest : Forest α} {place leaf : α} (describes : Describes info parent forest)
    (distinct : forest.nodes.Nodup) (isLeaf : info' leaf = some (some place, []))
    (grown : info' place = (info place).map (.map id (· ++ [leaf])))
    (same : ∀ a ∈ forest.nodes, a ≠ place → info' a = info a) :
    Describes info' parent (forest.attach place leaf) := by
  induction forest generalizing parent with
  | nil => trivial
  | node root below others ihBelow ihOthers =>
      obtain ⟨isRoot, isBelow, areOthers⟩ := describes
      rw [nodes, List.nodup_cons, List.mem_append, not_or] at distinct
      obtain ⟨⟨notBelow, notOthers⟩, distinct⟩ := distinct
      obtain ⟨distinctBelow, distinctOthers, _⟩ := List.nodup_append.mp distinct
      rw [Forest.attach]
      refine ⟨?_, ?_, ihOthers areOthers distinctOthers fun a mem => same a ?_⟩
      · by_cases isPlace : root = place
        · rw [if_pos isPlace, isPlace, grown, ← isPlace, isRoot, roots_concat]
          rfl
        · rw [if_neg isPlace, same root List.mem_cons_self isPlace, isRoot, roots_attach]
      · by_cases isPlace : root = place
        · subst isPlace
          rw [if_pos rfl]
          refine (isBelow.congr fun a mem => same a ?_ ?_).concat isLeaf
          · exact List.mem_cons_of_mem _ (List.mem_append_left _ mem)
          · exact fun is => notBelow (is ▸ mem)
        · rw [if_neg isPlace]
          refine ihBelow isBelow distinctBelow fun a mem => same a ?_
          exact List.mem_cons_of_mem _ (List.mem_append_left _ mem)
      · exact List.mem_cons_of_mem _ (List.mem_append_right _ mem)

end Forest

end Library
