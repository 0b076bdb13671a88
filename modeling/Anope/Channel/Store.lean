import Anope.Channel.Core

/-!
# The mode store of a channel

Simple, parameter and list modes share one multimap.  The functions that change
it keep at most one element for a mode that is not a list and no two equal
masks in a list, and the removal of an element removes nothing else.
-/

namespace Anope.Channel

open Library Anope.Text Anope.Mode

variable {μ υ : Type} [DecidableEq μ] [DecidableEq υ]

/-- What the multimap may hold for each mode. -/
structure StoreWellFormed (casemap : Casemap) (manager : ModeManager μ) (modes : ModeList) :
    Prop where
  single : ∀ cm, (manager.mode cm).type ≠ .list → modes.count (manager.mode cm).name ≤ 1
  status : ∀ cm, (manager.mode cm).type = .status → modes.equalRange (manager.mode cm).name = []
  list : ∀ cm, (manager.mode cm).type = .list →
    (modes.equalRange (manager.mode cm).name).Pairwise fun entry entry' =>
      casemap.equalsCi entry.value entry'.value = false

/-- A call of one of the two internal functions. -/
inductive InternalCall (μ υ : Type) where
  | set (context : Context υ) (setter : Str) (ocm : μ) (data : ModeData)
  | remove (context : Context υ) (ocm : μ) (oparam : Str)

section

variable (casemap : Casemap) (manager : ModeManager μ)

/-- The effect of one call. -/
def InternalCall.apply (channel : Channel μ υ) : InternalCall μ υ → Channel μ υ
  | .set context setter ocm data =>
      setModeInternal casemap manager context setter channel ocm data
  | .remove context ocm oparam => removeModeInternal casemap manager context channel ocm oparam

/-- The effect of a sequence of calls. -/
def applyAll (channel : Channel μ υ) (calls : List (InternalCall μ υ)) : Channel μ υ :=
  calls.foldl (InternalCall.apply casemap manager) channel

end

section Store

variable {casemap : Casemap} {manager : ModeManager μ}

omit [DecidableEq μ] in
theorem storeWellFormed_empty : StoreWellFormed casemap manager (.empty : ModeList) where
  single _ _ := Nat.zero_le _
  status _ _ := rfl
  list _ _ := .nil

/-- A change to the elements of one mode keeps the store well formed when it
leaves that mode well formed and touches no other. -/
theorem StoreWellFormed.of_one_mode {modes modes' : ModeList}
    (wellFormed : StoreWellFormed casemap manager modes) (cm : μ)
    (others : ∀ name, (manager.mode cm).name ≠ name →
      modes'.equalRange name = modes.equalRange name)
    (single : (manager.mode cm).type ≠ .list → modes'.count (manager.mode cm).name ≤ 1)
    (status : (manager.mode cm).type ≠ .status)
    (list : (manager.mode cm).type = .list →
      (modes'.equalRange (manager.mode cm).name).Pairwise fun entry entry' =>
        casemap.equalsCi entry.value entry'.value = false) :
    StoreWellFormed casemap manager modes' := by
  have other : ∀ cm', cm' ≠ cm →
      modes'.equalRange (manager.mode cm').name = modes.equalRange (manager.mode cm').name :=
    fun cm' different => others _ fun same => different (manager.name_inj same).symm
  constructor
  · intro cm' type
    by_cases isCm : cm' = cm
    · subst isCm
      exact single type
    · rw [Multimap.count, other cm' isCm]
      exact wellFormed.single cm' type
  · intro cm' type
    by_cases isCm : cm' = cm
    · subst isCm
      exact absurd type status
    · rw [other cm' isCm]
      exact wellFormed.status cm' type
  · intro cm' type
    by_cases isCm : cm' = cm
    · subst isCm
      exact list type
    · rw [other cm' isCm]
      exact wellFormed.list cm' type

/-- A mask that `HasMode` does not find differs from every mask of the list. -/
theorem equalsCi_eq_false_of_hasMode_eq_zero {modes : ModeList} {name value : Str}
    (absent : hasMode casemap modes name value = 0) {entry : ModeData}
    (mem : entry ∈ modes.equalRange name) : casemap.equalsCi entry.value value = false := by
  unfold hasMode at absent
  by_cases noValue : value = []
  · rw [if_pos noValue, Multimap.count, List.length_eq_zero_iff] at absent
    rw [absent] at mem
    contradiction
  · rw [if_neg noValue] at absent
    by_contra found
    have present : (getModeList modes name).any (casemap.equalsCi · value) = true :=
      List.any_eq_true.mpr
        ⟨entry.value, List.mem_map_of_mem mem, by simpa using found⟩
    rw [if_pos present] at absent
    contradiction

/-! ## Step lemmas -/

theorem storeWellFormed_setModeInternal {channel : Channel μ υ}
    (wellFormed : StoreWellFormed casemap manager channel.modes) (context : Context υ)
    (setter : Str) (ocm : μ) (data : ModeData) :
    StoreWellFormed casemap manager
      (setModeInternal casemap manager context setter channel ocm data).modes := by
  rcases unwrapped : manager.unwrap ocm data.value with ⟨cm, value⟩
  by_cases isStatus : (manager.mode cm).type = .status
  · rw [setModeInternal_of_status unwrapped isStatus]
    split
    · exact wellFormed
    · split
      · exact wellFormed
      · rwa [updateStatus_modes]
  · by_cases isList : (manager.mode cm).type = .list
    · rw [setModeInternal_of_list unwrapped isList]
      split
      · exact wellFormed
      · rename_i absent
        rw [not_not] at absent
        refine wellFormed.of_one_mode cm ?_ (absurd isList) isStatus ?_
        · exact fun name different => Multimap.equalRange_emplace_of_ne _ _ different
        · intro _
          rw [Multimap.equalRange_emplace_self, List.pairwise_append]
          refine ⟨wellFormed.list cm isList, List.pairwise_singleton _ _, ?_⟩
          intro entry mem added addedMem
          rw [List.mem_singleton] at addedMem
          subst addedMem
          exact equalsCi_eq_false_of_hasMode_eq_zero absent mem
    · rw [setModeInternal_of_single unwrapped isList isStatus]
      refine wellFormed.of_one_mode cm ?_ ?_ isStatus fun list => absurd list isList
      · intro name different
        rw [Multimap.equalRange_emplace_of_ne _ _ different,
          Multimap.equalRange_eraseKey_of_ne _ different]
      · intro _
        simp [Multimap.count]

theorem storeWellFormed_removeModeInternal {channel : Channel μ υ}
    (wellFormed : StoreWellFormed casemap manager channel.modes) (context : Context υ)
    (ocm : μ) (oparam : Str) :
    StoreWellFormed casemap manager
      (removeModeInternal casemap manager context channel ocm oparam).modes := by
  rcases unwrapped : manager.unwrap ocm oparam with ⟨cm, param⟩
  by_cases isStatus : (manager.mode cm).type = .status
  · rw [removeModeInternal_of_status unwrapped isStatus]
    split
    · exact wellFormed
    · split
      · exact wellFormed
      · rwa [updateStatus_modes]
  · by_cases isList : (manager.mode cm).type = .list
    · rw [removeModeInternal_of_list unwrapped isList]
      refine wellFormed.of_one_mode cm ?_ (absurd isList) isStatus ?_
      · exact fun name different => Multimap.equalRange_eraseFirst_of_ne _ _ different
      · intro _
        rw [Multimap.equalRange_eraseFirst_self]
        exact (wellFormed.list cm isList).sublist List.eraseP_sublist
    · rw [removeModeInternal_of_single unwrapped isList isStatus]
      refine wellFormed.of_one_mode cm ?_ ?_ isStatus fun list => absurd list isList
      · exact fun name different => Multimap.equalRange_eraseKey_of_ne _ different
      · intro _
        simp [Multimap.count]

theorem storeWellFormed_apply {channel : Channel μ υ}
    (wellFormed : StoreWellFormed casemap manager channel.modes) (call : InternalCall μ υ) :
    StoreWellFormed casemap manager (call.apply casemap manager channel).modes := by
  cases call with
  | set context setter ocm data =>
      exact storeWellFormed_setModeInternal wellFormed context setter ocm data
  | remove context ocm oparam =>
      exact storeWellFormed_removeModeInternal wellFormed context ocm oparam

/-- Run lemma: every sequence of internal calls keeps the store well formed. -/
theorem storeWellFormed_applyAll {channel : Channel μ υ}
    (wellFormed : StoreWellFormed casemap manager channel.modes)
    (calls : List (InternalCall μ υ)) :
    StoreWellFormed casemap manager (applyAll casemap manager channel calls).modes := by
  induction calls generalizing channel with
  | nil => exact wellFormed
  | cons call calls ih => exact ih (storeWellFormed_apply wellFormed call)

/-! ## Removal -/

/-- The element that a removal names: it is in the store under the unwrapped
mode and, in a list, has the unwrapped mask. -/
structure NamedBy (casemap : Casemap) (manager : ModeManager μ) (modes : ModeList) (ocm : μ)
    (oparam : Str) (front : List ModeData) (entry : ModeData) (back : List ModeData) : Prop where
  inStore : modes.equalRange (manager.mode (manager.unwrap ocm oparam).1).name =
    front ++ entry :: back
  sameMask : (manager.mode (manager.unwrap ocm oparam).1).type = .list →
    casemap.equalsCi (manager.unwrap ocm oparam).2 entry.value = true

/-- Nothing but one element of the mode named by a removal goes. -/
structure RemovesOnly (manager : ModeManager μ) (before after : Channel μ υ) (ocm : μ)
    (oparam : Str) (front back : List ModeData) : Prop where
  mode : after.modes.equalRange (manager.mode (manager.unwrap ocm oparam).1).name = front ++ back
  otherModes : ∀ name, (manager.mode (manager.unwrap ocm oparam).1).name ≠ name →
    after.modes.equalRange name = before.modes.equalRange name
  users : after.users = before.users

/-- In a list without equal masks, the first element found is the one named. -/
theorem eraseP_eq_of_named {front back : List ModeData} {entry : ModeData} {param : Str}
    (distinct : (front ++ entry :: back).Pairwise fun entry entry' =>
      casemap.equalsCi entry.value entry'.value = false)
    (sameMask : casemap.equalsCi param entry.value = true) :
    (front ++ entry :: back).eraseP (fun data => casemap.equalsCi param data.value) =
      front ++ back := by
  rw [List.eraseP_append_right]
  · rw [List.eraseP_cons_of_pos (by exact sameMask)]
  · intro data mem found
    have differ := (List.pairwise_append.mp distinct).2.2 data mem entry (List.mem_cons_self ..)
    rw [Casemap.equalsCi_iff] at sameMask found
    rw [← Bool.not_eq_true, Casemap.equalsCi_iff] at differ
    exact differ (found.symm.trans sameMask)

theorem removesOnly_removeModeInternal {channel : Channel μ υ}
    (wellFormed : StoreWellFormed casemap manager channel.modes) (context : Context υ)
    {ocm : μ} {oparam : Str} {front back : List ModeData} {entry : ModeData}
    (named : NamedBy casemap manager channel.modes ocm oparam front entry back) :
    RemovesOnly manager channel
      (removeModeInternal casemap manager context channel ocm oparam) ocm oparam front back := by
  obtain ⟨inStore, sameMask⟩ := named
  have alone : (manager.mode (manager.unwrap ocm oparam).1).type ≠ .list →
      front = [] ∧ back = [] := by
    intro notList
    have atMostOne := wellFormed.single _ notList
    rw [Multimap.count, inStore, List.length_append, List.length_cons] at atMostOne
    exact ⟨List.length_eq_zero_iff.mp (by omega), List.length_eq_zero_iff.mp (by omega)⟩
  by_cases isStatus : (manager.mode (manager.unwrap ocm oparam).1).type = .status
  · rw [wellFormed.status _ isStatus] at inStore
    simp at inStore
  · by_cases isList : (manager.mode (manager.unwrap ocm oparam).1).type = .list
    · rw [removeModeInternal_of_list (Prod.mk.eta).symm isList]
      refine ⟨?_, fun name different => Multimap.equalRange_eraseFirst_of_ne _ _ different, rfl⟩
      rw [Multimap.equalRange_eraseFirst_self, inStore]
      exact eraseP_eq_of_named (inStore ▸ wellFormed.list _ isList) (sameMask isList)
    · obtain ⟨rfl, rfl⟩ := alone isList
      rw [removeModeInternal_of_single (Prod.mk.eta).symm isList isStatus]
      exact ⟨Multimap.equalRange_eraseKey_self _ _,
        fun name different => Multimap.equalRange_eraseKey_of_ne _ different, rfl⟩

end Store

/-- In every channel reached from an empty store by internal calls, the store is
well formed, and removing an element removes exactly that element. -/
theorem applyAll_store (casemap : Casemap) (manager : ModeManager μ) (created : Int)
    (users : AList fun _ : υ => Finset μ) (calls : List (InternalCall μ υ)) :
    let channel := applyAll casemap manager ⟨created, .empty, users⟩ calls
    StoreWellFormed casemap manager channel.modes ∧
      ∀ context ocm oparam front entry back,
        NamedBy casemap manager channel.modes ocm oparam front entry back →
          RemovesOnly manager channel
            (removeModeInternal casemap manager context channel ocm oparam)
            ocm oparam front back := by
  have wellFormed : StoreWellFormed casemap manager
      (applyAll casemap manager (⟨created, .empty, users⟩ : Channel μ υ) calls).modes :=
    storeWellFormed_applyAll storeWellFormed_empty calls
  exact ⟨wellFormed, fun context _ _ _ _ _ named =>
    removesOnly_removeModeInternal wellFormed context named⟩

end Anope.Channel
