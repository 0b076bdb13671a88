import Anope.Mode.Core
import Mathlib.Data.List.Count
import Mathlib.Data.List.Induction

/-!
# Mode locks

`ModeLocks` of `cs_mode`: the modes that are to be set or unset on a channel.
-/

namespace Anope.Mode

/-- Whether locks of a mode are told apart by their parameters. -/
def ModeManager.isPaired {μ : Type} (manager : ModeManager μ) (cm : μ) : Bool :=
  (manager.mode cm).type = .list || (manager.mode cm).type = .status

namespace Lock

/-- `ModeLock`. -/
structure ModeLock where
  ci : Str
  /-- Whether the mode is locked on. -/
  set : Bool
  name : Str
  param : Str
  setter : Str
  created : Int
  deriving DecidableEq, Repr

/-- What a call finds outside of the locks: the name of the channel, the display of its founder,
and whether a module answers `EVENT_STOP` to `OnMLock` and to `OnUnMLock`. -/
structure Env where
  name : Str
  founder : Option Str
  stopsMLock : ModeLock → Bool
  stopsUnMLock : ModeLock → Bool

/-- The calls that change the locks. -/
inductive Call (μ : Type) where
  | setMLock (mode : Option μ) (status : Bool) (param setter : Str) (created : Int)
  | removeMLock (mode : Option μ) (status : Bool) (param : Str)
  /-- `RemoveMLock` of one lock, by its place in the list. -/
  | removeLock (index : Nat)
  | clearMLock

section Code

variable {μ : Type} (manager : ModeManager μ) (env : Env)

/-- The loop of `RemoveMLock`; a lock that is deleted takes itself off the list. -/
def removeFrom (cm : μ) (status : Bool) (param : Str) : List ModeLock → Bool × List ModeLock
  | [] => (false, [])
  | m :: mlocks =>
      if m.name = (manager.mode cm).name then
        if m.set ≠ status then (removeFrom cm status param mlocks).map id (m :: ·)
        else if manager.isPaired cm ∧ m.param ≠ param then
          (removeFrom cm status param mlocks).map id (m :: ·)
        else if env.stopsUnMLock m then (false, m :: mlocks)
        else (true, mlocks)
      else (removeFrom cm status param mlocks).map id (m :: ·)

/-- `RemoveMLock`. -/
def removeMLock (mode : Option μ) (status : Bool) (param : Str) (mlocks : List ModeLock) :
    Bool × List ModeLock :=
  match mode with
  | none => (false, mlocks)
  | some cm => removeFrom manager env cm status param mlocks

/-- The lock that `SetMLock` makes. -/
def newLock (cm : μ) (status : Bool) (param setter : Str) (created : Int) : ModeLock where
  ci := env.name
  set := status
  name := (manager.mode cm).name
  param := param
  setter := if setter.isEmpty then env.founder.getD (ascii "Unknown") else setter
  created := created

/-- `SetMLock`. -/
def setMLock (mode : Option μ) (status : Bool) (param setter : Str) (created : Int)
    (mlocks : List ModeLock) : Bool × List ModeLock :=
  match mode with
  | none => (false, mlocks)
  | some cm =>
      let mlocks := (removeMLock manager env (some cm) status param mlocks).2
      let ml := newLock manager env cm status param setter created
      if env.stopsMLock ml then (false, mlocks) else (true, mlocks ++ [ml])

/-- One call, and what is left of the locks. -/
def step (mlocks : List ModeLock) : Call μ → List ModeLock
  | .setMLock mode status param setter created =>
      (setMLock manager env mode status param setter created mlocks).2
  | .removeMLock mode status param => (removeMLock manager env mode status param mlocks).2
  | .removeLock index => mlocks.eraseIdx index
  | .clearMLock => []

/-- What calls make of the locks of a channel that has none. -/
def run (calls : List (Env × Call μ)) : List ModeLock :=
  calls.foldl (fun mlocks call => step manager call.1 mlocks call.2) []

/-- At most one lock of a mode, and of a mode and a parameter where these tell locks apart. -/
structure Consistent (mlocks : List ModeLock) : Prop where
  single : ∀ cm, manager.isPaired cm = false →
    mlocks.countP (fun lock => lock.name = (manager.mode cm).name) ≤ 1
  paired : ∀ cm, manager.isPaired cm = true → ∀ param,
    mlocks.countP (fun lock => lock.name = (manager.mode cm).name ∧ lock.param = param) ≤ 1

/-- Whether a lock is one of those of which there is to be one at most. -/
def about (cm : μ) (param : Str) (lock : ModeLock) : Bool :=
  lock.name = (manager.mode cm).name ∧ (manager.isPaired cm → lock.param = param)

/-- A `SetMLock` puts a lock beside another one of its mode, or of its mode and parameter: the
other one locks the mode the other way, or a module stops its removal. -/
def Clashes (mlocks : List ModeLock) : Call μ → Prop
  | .setMLock (some cm) status param setter created =>
      env.stopsMLock (newLock manager env cm status param setter created) = false ∧
        ∃ lock ∈ mlocks, about manager cm param lock = true ∧
          (lock.set ≠ status ∨ env.stopsUnMLock lock = true)
  | _ => False

end Code

section Proofs

variable {μ : Type} {manager : ModeManager μ} {env : Env} {cm : μ} {status : Bool} {param : Str}
  {lock : ModeLock} {mlocks : List ModeLock}

theorem about_iff : about manager cm param lock = true ↔
    lock.name = (manager.mode cm).name ∧ (manager.isPaired cm = true → lock.param = param) := by
  rw [about, decide_eq_true_iff]

theorem consistent_iff : Consistent manager mlocks ↔
    ∀ cm param, mlocks.countP (about manager cm param) ≤ 1 := by
  have single : ∀ cm, manager.isPaired cm = false → ∀ param,
      (fun lock : ModeLock => decide (lock.name = (manager.mode cm).name)) =
        about manager cm param := by
    intro cm unpaired param
    funext lock
    simp [about, unpaired]
  have paired : ∀ cm, manager.isPaired cm = true → ∀ param,
      (fun lock : ModeLock => decide (lock.name = (manager.mode cm).name ∧ lock.param = param)) =
        about manager cm param := by
    intro cm isPaired param
    funext lock
    simp [about, isPaired]
  constructor
  · intro consistent cm param
    cases kind : manager.isPaired cm with
    | false =>
        rw [← single cm kind param]
        exact consistent.single cm kind
    | true =>
        rw [← paired cm kind param]
        exact consistent.paired cm kind param
  · intro bounded
    constructor
    · intro cm kind
      rw [single cm kind []]
      exact bounded cm []
    · intro cm kind param
      rw [paired cm kind param]
      exact bounded cm param

/-- What a step of the loop does. -/
theorem removeFrom_cons (m : ModeLock) (mlocks : List ModeLock) :
    removeFrom manager env cm status param (m :: mlocks) =
      if about manager cm param m = true ∧ m.set = status then
        if env.stopsUnMLock m then (false, m :: mlocks) else (true, mlocks)
      else (removeFrom manager env cm status param mlocks).map id (m :: ·) := by
  rw [removeFrom]
  by_cases named : m.name = (manager.mode cm).name
  · by_cases same : m.set = status
    · cases kind : manager.isPaired cm with
      | false => simp [about_iff, named, same, kind]
      | true =>
          by_cases isParam : m.param = param
          · simp [about_iff, named, same, kind, isParam]
          · simp [about_iff, named, same, kind, isParam]
    · simp [about_iff, named, same]
  · simp [about_iff, named]

theorem removeFrom_sublist (mlocks : List ModeLock) :
    (removeFrom manager env cm status param mlocks).2.Sublist mlocks := by
  induction mlocks with
  | nil => exact List.Sublist.refl _
  | cons m mlocks ih =>
      rw [removeFrom_cons]
      split
      · split
        · exact List.Sublist.refl _
        · exact List.sublist_cons_self _ _
      · exact ih.cons_cons m

/-- The lock that is removed is the only one; it stays when it locks the mode the other way, or
when a module stops its removal. -/
theorem exists_removeFrom_iff (alone : mlocks.countP (about manager cm param) ≤ 1) :
    (∃ lock ∈ (removeFrom manager env cm status param mlocks).2,
        about manager cm param lock = true) ↔
      ∃ lock ∈ mlocks, about manager cm param lock = true ∧
        (lock.set ≠ status ∨ env.stopsUnMLock lock = true) := by
  induction mlocks with
  | nil => exact ⟨fun ⟨_, mem, _⟩ => absurd mem List.not_mem_nil,
      fun ⟨_, mem, _⟩ => absurd mem List.not_mem_nil⟩
  | cons m mlocks ih =>
      rw [removeFrom_cons]
      by_cases isAbout : about manager cm param m = true
      · have others : ∀ lock ∈ mlocks, ¬ about manager cm param lock = true := by
          rw [List.countP_cons_of_pos isAbout] at alone
          exact List.countP_eq_zero.mp (Nat.le_zero.mp (Nat.le_of_succ_le_succ alone))
        have only : ∀ {P : ModeLock → Prop},
            (∃ lock ∈ m :: mlocks, about manager cm param lock = true ∧ P lock) ↔ P m := by
          intro P
          constructor
          · rintro ⟨lock, mem, isLock, holds⟩
            rcases List.mem_cons.mp mem with rfl | rest
            · exact holds
            · exact absurd isLock (others lock rest)
          · exact fun holds => ⟨m, List.mem_cons_self, isAbout, holds⟩
        rw [only]
        by_cases same : m.set = status
        · rw [if_pos ⟨isAbout, same⟩]
          cases stops : env.stopsUnMLock m with
          | false =>
              refine iff_of_false ?_ ?_
              · rintro ⟨lock, mem, isLock⟩
                exact others lock mem isLock
              · rintro (different | stopped)
                · exact different same
                · exact Bool.false_ne_true stopped
          | true => exact iff_of_true ⟨m, List.mem_cons_self, isAbout⟩ (.inr rfl)
        · rw [if_neg fun both => same both.2]
          exact iff_of_true ⟨m, List.mem_cons_self, isAbout⟩ (.inl same)
      · rw [List.countP_cons_of_neg isAbout] at alone
        have skip : ∀ {P : ModeLock → Prop} {locks : List ModeLock},
            (∃ lock ∈ m :: locks, about manager cm param lock = true ∧ P lock) ↔
              ∃ lock ∈ locks, about manager cm param lock = true ∧ P lock := by
          intro P locks
          constructor
          · rintro ⟨lock, mem, isLock, holds⟩
            rcases List.mem_cons.mp mem with rfl | rest
            · exact absurd isLock isAbout
            · exact ⟨lock, rest, isLock, holds⟩
          · exact fun ⟨lock, mem, rest⟩ => ⟨lock, List.mem_cons_of_mem m mem, rest⟩
        have skipped := @skip fun _ => True
        simp only [and_true] at skipped
        rw [if_neg fun both => isAbout both.1, skip, ← ih alone]
        exact skipped

theorem Consistent.sublist {mlocks' : List ModeLock} (consistent : Consistent manager mlocks)
    (sublist : mlocks'.Sublist mlocks) : Consistent manager mlocks' := by
  rw [consistent_iff] at consistent ⊢
  exact fun cm param => (sublist.countP_le).trans (consistent cm param)

/-- Locks that tell a new one apart are those of its mode, or of its mode and parameter. -/
theorem about_eq_of_about {cm' : μ} {param' : Str} (isLock : about manager cm param lock = true)
    (isLock' : about manager cm' param' lock = true) :
    about manager cm param = about manager cm' param' := by
  obtain ⟨named, ofParam⟩ := about_iff.mp isLock
  obtain ⟨named', ofParam'⟩ := about_iff.mp isLock'
  cases manager.name_inj (named.symm.trans named')
  funext other
  rw [Bool.eq_iff_iff, about_iff, about_iff]
  refine and_congr_right fun _ => imp_congr_right fun paired => ?_
  rw [← ofParam paired, ← ofParam' paired]

theorem consistent_concat_iff (consistent : Consistent manager mlocks)
    (isLock : about manager cm param lock = true) :
    Consistent manager (mlocks ++ [lock]) ↔
      ¬ ∃ other ∈ mlocks, about manager cm param other = true := by
  rw [consistent_iff] at consistent
  rw [consistent_iff]
  constructor
  · rintro bounded ⟨other, mem, isOther⟩
    have two := bounded cm param
    rw [List.countP_append, List.countP_singleton, if_pos isLock] at two
    have one : 0 < mlocks.countP (about manager cm param) :=
      List.countP_pos_iff.mpr ⟨other, mem, isOther⟩
    omega
  · intro alone cm' param'
    rw [List.countP_append, List.countP_singleton]
    by_cases isLock' : about manager cm' param' lock = true
    · have none : mlocks.countP (about manager cm' param') = 0 := by
        rw [← about_eq_of_about isLock isLock', List.countP_eq_zero]
        exact fun other mem isOther => alone ⟨other, mem, isOther⟩
      rw [none, if_pos isLock']
    · rw [if_neg isLock']
      exact consistent cm' param'

theorem about_newLock (manager : ModeManager μ) (env : Env) (cm : μ) (status : Bool)
    (param setter : Str) (created : Int) :
    about manager cm param (newLock manager env cm status param setter created) = true :=
  about_iff.mpr ⟨rfl, fun _ => rfl⟩

/-- Step lemma. -/
theorem Consistent.step_iff (consistent : Consistent manager mlocks) (env : Env)
    (call : Call μ) :
    Consistent manager (step manager env mlocks call) ↔ ¬ Clashes manager env mlocks call := by
  cases call with
  | setMLock mode status param setter created =>
      cases mode with
      | none => exact iff_of_true consistent id
      | some cm =>
          have kept := consistent.sublist
            (@removeFrom_sublist μ manager env cm status param mlocks)
          have alone := consistent_iff.mp consistent cm param
          rw [step, setMLock, Clashes]
          cases stops : env.stopsMLock (newLock manager env cm status param setter created) with
          | true => exact iff_of_true kept fun clashes => absurd clashes.1 (by decide)
          | false =>
              have concat := consistent_concat_iff kept
                (about_newLock manager env cm status param setter created)
              rw [exists_removeFrom_iff alone] at concat
              refine concat.trans (not_congr ?_)
              exact ⟨fun clash => ⟨rfl, clash⟩, And.right⟩
  | removeMLock mode status param =>
      cases mode with
      | none => exact iff_of_true consistent id
      | some cm => exact iff_of_true (consistent.sublist (removeFrom_sublist mlocks)) id
  | removeLock index =>
      exact iff_of_true (consistent.sublist (List.eraseIdx_sublist mlocks index)) id
  | clearMLock => exact iff_of_true (consistent.sublist (List.nil_sublist _)) id

theorem run_concat (calls : List (Env × Call μ)) (call : Env × Call μ) :
    run manager (calls ++ [call]) = step manager call.1 (run manager calls) call.2 :=
  List.foldl_append ..

theorem consistent_nil (manager : ModeManager μ) : Consistent manager [] :=
  consistent_iff.mpr fun _ _ => Nat.zero_le _

/-- The locks stay consistent exactly as long as no `SetMLock` puts a lock beside another one. -/
theorem run_consistent_iff (manager : ModeManager μ) (calls : List (Env × Call μ)) :
    (∀ before after, calls = before ++ after → Consistent manager (run manager before)) ↔
      ∀ before call after, calls = before ++ call :: after →
        ¬ Clashes manager call.1 (run manager before) call.2 := by
  constructor
  · rintro always before call after rfl
    have here := always before (call :: after) rfl
    have next := always (before ++ [call]) after
      (by rw [List.append_assoc, List.singleton_append])
    rw [run_concat] at next
    exact (here.step_iff call.1 call.2).mp next
  · intro peaceful before
    induction before using List.reverseRecOn with
    | nil => exact fun _ _ => consistent_nil manager
    | append_singleton before call ih =>
        rintro after rfl
        rw [List.append_assoc, List.singleton_append] at peaceful ih
        rw [run_concat]
        exact ((ih (call :: after) rfl).step_iff call.1 call.2).mpr
          (peaceful before call after rfl)

end Proofs

/-! ## Locks as text -/

/-- `ModeFormatter`. -/
structure ModeFormatter where
  addmodes : Str := []
  addparams : Str := []
  delmodes : Str := []
  delparams : Str := []

/-- `ModeFormatter::Push`. -/
def ModeFormatter.push (formatter : ModeFormatter) (mchar : UInt8) (param : Str) (adding : Bool) :
    ModeFormatter :=
  let text : Str := if param = [] then [] else 32 :: param
  if adding then
    { formatter with
      addmodes := formatter.addmodes ++ [mchar]
      addparams := formatter.addparams ++ text }
  else
    { formatter with
      delmodes := formatter.delmodes ++ [mchar]
      delparams := formatter.delparams ++ text }

/-- `ModeFormatter::ToString`. -/
def ModeFormatter.toStr (formatter : ModeFormatter) (complete : Bool) : Str :=
  (if formatter.addmodes = [] then [] else 43 :: formatter.addmodes) ++
    (if formatter.delmodes = [] then [] else 45 :: formatter.delmodes) ++
    if complete then formatter.addparams ++ formatter.delparams else []

/-- `GetMLockAsString`; list and status modes are left out. -/
def getMLockAsString {μ : Type} (manager : ModeManager μ)
    (findChannelModeByName : Str → Option μ) (mlocks : List ModeLock) (complete : Bool) : Str :=
  let mlock := mlocks.foldl
    (fun mlock ml =>
      match findChannelModeByName ml.name with
      | none => mlock
      | some cm =>
          if manager.isPaired cm then mlock
          else mlock.push (manager.mode cm).mchar ml.param ml.set)
    ({} : ModeFormatter)
  mlock.toStr complete

/-- A program whose one channel mode is `NOEXTERNAL`. -/
def oneMode : ModeManager Unit where
  mode _ := ⟨ascii "NOEXTERNAL", 110, .regular, false, none⟩
  listeners _ := []
  wrapParam _ value := value
  unwrapParam _ _ _ := none
  isValid _ value := some value
  name_inj _ := rfl

/-- A channel on which no module stops a change of the locks. -/
def calm : Env where
  name := ascii "#channel"
  founder := none
  stopsMLock _ := false
  stopsUnMLock _ := false

/-- The mode is locked on, and then off. -/
theorem not_always_consistent_both_ways :
    ¬ ∀ before after,
      [(calm, Call.setMLock (some ()) true [] [] 0), (calm, .setMLock (some ()) false [] [] 0)] =
        before ++ after → Consistent oneMode (run oneMode before) := by
  intro always
  have consistent := always _ [] (List.append_nil _).symm
  exact absurd (consistent.single () rfl) (by decide +kernel)

end Lock

end Anope.Mode
