import Mathlib.Data.List.Induction
import Mathlib.Logic.Function.Basic

/-!
# Enforcing demands

A demand looks at one place of a state and, unless it accepts what it finds there, writes a
value to a place.  Most demands write where they look, and accept what they write; the others
are stray.

A pass enforces demands one after the other.  `quiet_pass_iff` says when a second pass finds
nothing to do: no two demands refuse each other, each stray demand is met from the start or by
another one, and what stray demands write is accepted or corrected later in the pass.
-/

namespace Library.Enforce

universe u v w

/-- A demand; one that looks nowhere asks for nothing. -/
structure Demand (π : Type u) (α : Type v) where
  place : Option π
  accepts : α → Bool
  target : Option π
  value : α

namespace Demand

variable {π : Type u} {α : Type v}

/-- Whether a state is as the demand wants it. -/
def met (state : π → α) (demand : Demand π α) : Bool :=
  demand.place.all fun place => demand.accepts (state place)

/-- The demand writes where it looks and accepts what it writes. -/
structure Own (demand : Demand π α) : Prop where
  target : demand.target = demand.place
  value : demand.accepts demand.value = true

/-- A demand that looks nowhere is met. -/
theorem met_of_place_eq_none {state : π → α} {demand : Demand π α}
    (looks : demand.place = none) : demand.met state = true := by
  rw [met, looks, Option.all_none]

theorem met_of_place {state : π → α} {demand : Demand π α} {place : π}
    (looks : demand.place = some place) : demand.met state = demand.accepts (state place) := by
  rw [met, looks, Option.all_some]

end Demand

variable {ι : Type w} {π : Type u} {α : Type v} [DecidableEq π] (demand : ι → Demand π α)

/-- Enforce one demand. -/
def enforce (state : π → α) (wanted : Demand π α) : π → α :=
  if wanted.met state then state
  else
    match wanted.target with
    | none => state
    | some place => Function.update state place wanted.value

/-- Enforce demands in their order. -/
def pass (state : π → α) (wanted : List ι) : π → α :=
  wanted.foldl (fun state i => enforce state (demand i)) state

omit [DecidableEq π] in
/-- Nothing is left to do. -/
def Quiet (state : π → α) (wanted : List ι) : Prop :=
  ∀ i ∈ wanted, (demand i).met state = true

/-- The demands of one place accept the same values or none in common, no stray demand writes
where a stray demand looks, and the stray demands that write to one place write one value. -/
structure Apart (wanted : List ι) : Prop where
  exclusive : ∀ i ∈ wanted, ∀ j ∈ wanted, ∀ place, (demand i).place = some place →
    (demand j).place = some place → (demand i).accepts = (demand j).accepts ∨
      ∀ value, (demand i).accepts value = true → (demand j).accepts value = false
  untouched : ∀ i ∈ wanted, ∀ j ∈ wanted, ¬(demand i).Own → ¬(demand j).Own →
    ∀ place, (demand i).place = some place → (demand j).target ≠ some place
  uniform : ∀ i ∈ wanted, ∀ j ∈ wanted, ¬(demand i).Own → ¬(demand j).Own →
    ∀ place, (demand i).target = some place → (demand j).target = some place →
      (demand i).value = (demand j).value

/-- What makes a second pass quiet. -/
structure Settles (state : π → α) (wanted : List ι) : Prop where
  agree : ∀ i ∈ wanted, ∀ j ∈ wanted, ∀ place, (demand i).place = some place →
    (demand j).place = some place → (demand i).accepts = (demand j).accepts
  reached : ∀ i ∈ wanted, ¬(demand i).Own → (demand i).met state = true ∨
    ∃ j ∈ wanted, (demand j).Own ∧ (demand j).place = (demand i).place
  undisturbed : ∀ before i after, wanted = before ++ i :: after → ¬(demand i).Own →
    (demand i).met state = false →
    (∀ j ∈ before, (demand j).Own → (demand j).place ≠ (demand i).place) →
    ∀ place, (demand i).target = some place →
    ∀ j ∈ wanted, (demand j).Own → (demand j).place = some place →
      (demand j).accepts (demand i).value = true ∨
        ∃ k ∈ after, (demand k).Own ∧ (demand k).place = some place

section Enforce

variable {demand} {state : π → α} {wanted : Demand π α} {place : π}

theorem enforce_of_met (met : wanted.met state = true) : enforce state wanted = state := by
  rw [enforce, if_pos met]

theorem enforce_of_not_met (notMet : wanted.met state = false)
    (target : wanted.target = some place) :
    enforce state wanted = Function.update state place wanted.value := by
  rw [enforce, if_neg (by simp [notMet]), target]

theorem enforce_apply_of_ne (elsewhere : wanted.target ≠ some place) :
    enforce state wanted place = state place := by
  cases met : wanted.met state with
  | true => rw [enforce_of_met met]
  | false =>
      cases target : wanted.target with
      | none => rw [enforce, target, ite_self]
      | some other =>
          rw [enforce_of_not_met met target, Function.update_of_ne]
          intro same
          rw [target, same] at elsewhere
          contradiction

/-- A demand that writes where it looks is met once it is enforced. -/
theorem met_enforce_of_own (own : wanted.Own) : wanted.met (enforce state wanted) = true := by
  cases met : wanted.met state with
  | true => rw [enforce_of_met met, met]
  | false =>
      cases looks : wanted.place with
      | none => exact Demand.met_of_place_eq_none looks
      | some place =>
          rw [enforce_of_not_met met (own.target.trans looks), Demand.met_of_place looks,
            Function.update_self]
          exact own.value

end Enforce

section Pass

variable {demand} {state : π → α} {wanted : List ι} {place : π}

theorem pass_append (before after : List ι) :
    pass demand state (before ++ after) = pass demand (pass demand state before) after :=
  List.foldl_append

theorem pass_concat (before : List ι) (i : ι) :
    pass demand state (before ++ [i]) = enforce (pass demand state before) (demand i) := by
  rw [pass_append]
  rfl

theorem pass_cons (i : ι) (after : List ι) :
    pass demand state (i :: after) = pass demand (enforce state (demand i)) after :=
  rfl

/-- A pass leaves a place that no demand writes. -/
theorem pass_apply_of_ne (elsewhere : ∀ i ∈ wanted, (demand i).target ≠ some place) :
    pass demand state wanted place = state place := by
  induction wanted generalizing state with
  | nil => rfl
  | cons i after ih =>
      rw [pass_cons, ih fun j mem => elsewhere j (List.mem_cons_of_mem i mem),
        enforce_apply_of_ne (elsewhere i List.mem_cons_self)]

/-- What the only demand that writes a place leaves there. -/
theorem pass_apply_of_only {before after : List ι} {i : ι} (own : (demand i).Own)
    (looks : (demand i).place = some place)
    (notBefore : ∀ j ∈ before, (demand j).target ≠ some place)
    (notAfter : ∀ j ∈ after, (demand j).target ≠ some place) :
    pass demand state (before ++ i :: after) place =
      if (demand i).accepts (state place) then state place else (demand i).value := by
  rw [pass_append, pass_cons, pass_apply_of_ne notAfter]
  have same : pass demand state before place = state place := pass_apply_of_ne notBefore
  have met_eq : (demand i).met (pass demand state before) = (demand i).accepts (state place) := by
    rw [Demand.met_of_place looks, same]
  cases met : (demand i).met (pass demand state before) with
  | true => rw [enforce_of_met met, if_pos (met_eq ▸ met), same]
  | false =>
      rw [enforce_of_not_met met (own.target.trans looks), Function.update_self,
        if_neg (by rw [← met_eq, met]; exact Bool.false_ne_true)]

/-- A place keeps a property that every demand that acts on it writes. -/
theorem pass_induction (good : α → Prop) (start : good (state place))
    (writes : ∀ before i after, wanted = before ++ i :: after →
      (demand i).target = some place → (demand i).met (pass demand state before) = false →
      good (demand i).value) :
    good (pass demand state wanted place) := by
  induction wanted using List.reverseRecOn with
  | nil => exact start
  | append_singleton before i ih =>
      have kept : good (pass demand state before place) := by
        apply ih
        intro first j rest split
        apply writes first j (rest ++ [i])
        rw [split, List.append_assoc, List.cons_append]
      rw [pass_concat]
      cases met : (demand i).met (pass demand state before) with
      | true => rwa [enforce_of_met met]
      | false =>
          by_cases target : (demand i).target = some place
          · rw [enforce_of_not_met met target, Function.update_self]
            exact writes before i [] rfl target met
          · rwa [enforce_apply_of_ne target]

end Pass

section Settling

variable {demand} {state : π → α} {wanted : List ι}

/-- A stray demand is met after a part of a pass exactly when it was met before or another
demand of its place came by. -/
theorem met_pass_iff (state : π → α) (apart : Apart demand wanted)
    (agree : ∀ i ∈ wanted, ∀ j ∈ wanted, ∀ place, (demand i).place = some place →
      (demand j).place = some place → (demand i).accepts = (demand j).accepts)
    {i : ι} (mem : i ∈ wanted) (stray : ¬(demand i).Own) {place : π}
    (looks : (demand i).place = some place) (before : List ι) (part : ∀ j ∈ before, j ∈ wanted) :
    (demand i).met (pass demand state before) = true ↔
      (demand i).met state = true ∨
        ∃ j ∈ before, (demand j).Own ∧ (demand j).place = (demand i).place := by
  induction before using List.reverseRecOn with
  | nil => simp [pass]
  | append_singleton before j ih =>
      have ih := ih fun k memK => part k (List.mem_append_left [j] memK)
      have memJ : j ∈ wanted := part j (List.mem_append_right before List.mem_cons_self)
      have exists_iff : (∃ k ∈ before ++ [j], (demand k).Own ∧
          (demand k).place = (demand i).place) ↔
          (∃ k ∈ before, (demand k).Own ∧ (demand k).place = (demand i).place) ∨
            (demand j).Own ∧ (demand j).place = (demand i).place := by
        simp [or_and_right, exists_or]
      rw [exists_iff, ← or_assoc, ← ih, pass_concat, Demand.met_of_place looks,
        Demand.met_of_place looks]
      by_cases target : (demand j).target = some place
      · have own : (demand j).Own := by
          by_contra strayJ
          exact apart.untouched i mem j memJ stray strayJ place looks target
        have looksJ : (demand j).place = some place := own.target.symm.trans target
        have accepts : (demand i).accepts = (demand j).accepts :=
          agree i mem j memJ place looks looksJ
        have written : (demand i).accepts
            (enforce (pass demand state before) (demand j) place) = true := by
          rw [accepts, ← Demand.met_of_place looksJ]
          exact met_enforce_of_own own
        exact iff_of_true written (.inr ⟨own, looksJ.trans looks.symm⟩)
      · rw [enforce_apply_of_ne target]
        constructor
        · exact .inl
        · rintro (met | ⟨own, same⟩)
          · exact met
          · exact absurd ((own.target.trans same).trans looks) target

omit [DecidableEq π] in
/-- A quiet state shows that demands of one place do not refuse each other. -/
theorem agree_of_quiet (apart : Apart demand wanted) (quiet : Quiet demand state wanted) :
    ∀ i ∈ wanted, ∀ j ∈ wanted, ∀ place, (demand i).place = some place →
      (demand j).place = some place → (demand i).accepts = (demand j).accepts := by
  intro i memI j memJ place looksI looksJ
  have acceptsI : (demand i).accepts (state place) = true :=
    (Demand.met_of_place looksI).symm.trans (quiet i memI)
  have acceptsJ : (demand j).accepts (state place) = true :=
    (Demand.met_of_place looksJ).symm.trans (quiet j memJ)
  rcases apart.exclusive i memI j memJ place looksI looksJ with same | refuses
  · exact same
  · rw [refuses _ acceptsI] at acceptsJ
    contradiction

/-- A stray demand acts during a pass when it was not met and no demand of its place came
before. -/
theorem stray_acts (apart : Apart demand wanted)
    (agree : ∀ i ∈ wanted, ∀ j ∈ wanted, ∀ place, (demand i).place = some place →
      (demand j).place = some place → (demand i).accepts = (demand j).accepts)
    {before after : List ι} {i : ι} (split : wanted = before ++ i :: after)
    (stray : ¬(demand i).Own) :
    (demand i).met (pass demand state before) = false ↔
      (demand i).met state = false ∧
        ∀ j ∈ before, (demand j).Own → (demand j).place ≠ (demand i).place := by
  have mem : i ∈ wanted := by simp [split]
  have part : ∀ j ∈ before, j ∈ wanted := fun j memJ => by simp [split, memJ]
  cases looks : (demand i).place with
  | none => simp [Demand.met, looks]
  | some place =>
      have met_iff := met_pass_iff state apart agree mem stray looks before part
      rw [looks] at met_iff
      rw [← Bool.not_eq_true, met_iff, ← Bool.not_eq_true]
      push Not
      rfl

/-- What an acting stray demand writes where another demand looks is accepted there, or a later
demand corrects it. -/
theorem undisturbed_of_quiet (apart : Apart demand wanted)
    (quiet : Quiet demand (pass demand state wanted) wanted) {before after : List ι} {i : ι}
    (split : wanted = before ++ i :: after) (stray : ¬(demand i).Own)
    (acts : (demand i).met (pass demand state before) = false) {place : π}
    (target : (demand i).target = some place) {j : ι} (memJ : j ∈ wanted)
    (looks : (demand j).place = some place) :
    (demand j).accepts (demand i).value = true ∨
      ∃ k ∈ after, (demand k).Own ∧ (demand k).place = some place := by
  by_contra disturbed
  push Not at disturbed
  obtain ⟨refuses, alone⟩ := disturbed
  rw [ne_eq, Bool.not_eq_true] at refuses
  have memI : i ∈ wanted := by simp [split]
  -- every later write to the place comes from a stray demand, so it is refused as well
  have refused : (demand j).accepts (pass demand state wanted place) = false := by
    rw [split, pass_append, pass_cons]
    apply pass_induction fun value => (demand j).accepts value = false
    · rw [enforce_of_not_met acts target, Function.update_self]
      exact refuses
    · intro first k rest splitAfter targetK _
      have memAfter : k ∈ after := by simp [splitAfter]
      have memK : k ∈ wanted := by simp [split, memAfter]
      have strayK : ¬(demand k).Own := fun own =>
        alone k memAfter own (own.target.symm.trans targetK)
      rw [apart.uniform k memK i memI strayK stray place targetK target]
      exact refuses
  have accepted := quiet j memJ
  rw [Demand.met_of_place looks, refused] at accepted
  contradiction

/-- The last member of a list with a property. -/
theorem exists_last (property : ι → Prop) {list : List ι} (found : ∃ i ∈ list, property i) :
    ∃ before i after, list = before ++ i :: after ∧ property i ∧ ∀ j ∈ after, ¬property j := by
  induction list with
  | nil => simp at found
  | cons i list ih =>
      by_cases later : ∃ j ∈ list, property j
      · obtain ⟨before, j, after, split, holds, last⟩ := ih later
        exact ⟨i :: before, j, after, by rw [split, List.cons_append], holds, last⟩
      · push Not at later
        obtain ⟨j, mem, holds⟩ := found
        rcases List.mem_cons.mp mem with same | mem
        · exact ⟨[], i, list, rfl, same ▸ holds, later⟩
        · exact absurd holds (later j mem)

/-- A demand that writes where it looks is met after a pass of demands that settle. -/
theorem met_pass_of_own (apart : Apart demand wanted) (settles : Settles demand state wanted)
    {i : ι} (mem : i ∈ wanted) (own : (demand i).Own) :
    (demand i).met (pass demand state wanted) = true := by
  cases looks : (demand i).place with
  | none => exact Demand.met_of_place_eq_none looks
  | some place =>
      obtain ⟨before, k, after, split, ⟨ownK, looksK⟩, last⟩ :=
        exists_last (fun k => (demand k).Own ∧ (demand k).place = some place)
          ⟨i, mem, own, looks⟩
      have memK : k ∈ wanted := by simp [split]
      have accepts := settles.agree i mem k memK place looks looksK
      rw [Demand.met_of_place looks, split, pass_append, pass_cons]
      apply pass_induction fun value => (demand i).accepts value = true
      · rw [accepts, ← Demand.met_of_place looksK]
        exact met_enforce_of_own ownK
      · intro first j rest splitAfter target acts
        have memAfter : j ∈ after := by simp [splitAfter]
        have splitJ : wanted = (before ++ k :: first) ++ j :: rest := by
          rw [split, splitAfter, List.append_assoc, List.cons_append]
        have stray : ¬(demand j).Own := fun ownJ =>
          last j memAfter ⟨ownJ, ownJ.target.symm.trans target⟩
        rw [← pass_cons, ← pass_append,
          stray_acts apart settles.agree splitJ stray] at acts
        rcases settles.undisturbed _ j rest splitJ stray acts.1 acts.2 place target i mem own
          looks with accepted | ⟨later, memLater, corrects⟩
        · exact accepted
        · exact absurd corrects (last later (by simp [splitAfter, memLater]))

/-- A second pass is quiet exactly when the demands settle. -/
theorem quiet_pass_iff (apart : Apart demand wanted) :
    Quiet demand (pass demand state wanted) wanted ↔ Settles demand state wanted := by
  constructor
  · intro quiet
    have agree := agree_of_quiet apart quiet
    refine ⟨agree, ?_, ?_⟩
    · intro i mem stray
      cases looks : (demand i).place with
      | none => exact .inl (Demand.met_of_place_eq_none looks)
      | some place =>
          rw [← looks]
          exact (met_pass_iff state apart agree mem stray looks wanted fun _ mem => mem).mp
            (quiet i mem)
    · intro before i after split stray notMet alone place target j memJ _ looks
      exact undisturbed_of_quiet apart quiet split stray
        ((stray_acts apart agree split stray).mpr ⟨notMet, alone⟩) target memJ looks
  · intro settles i mem
    by_cases own : (demand i).Own
    · exact met_pass_of_own apart settles mem own
    · cases looks : (demand i).place with
      | none => exact Demand.met_of_place_eq_none looks
      | some place =>
          exact (met_pass_iff state apart settles.agree mem own looks wanted fun _ mem => mem).mpr
            (settles.reached i mem own)

end Settling

end Library.Enforce
