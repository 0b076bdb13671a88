import Anope.Channel.LockPass
import Anope.Mode.ExtBan

/-!
# When mode locks settle

Locks of regular and parameter modes stand alone at their places; the locks of lists and statuses
may meet.  A pass makes all locks hold and leaves nothing to do for a second one exactly when they
get along and no parameter is left alone that is wrong.
-/

namespace Anope.Channel

open Library.Enforce Anope.Text Anope.Mode Anope.Mode.Lock

variable {μ υ : Type} [DecidableEq μ] [DecidableEq υ] {casemap : Casemap}
  {manager : ModeManager μ} {context : Context υ} {names : Names manager}

section Demands

variable {channel : Channel μ υ}

omit [DecidableEq μ] [DecidableEq υ] in
/-- Locks that accept a place by whether it is set accept the same exactly when they set alike. -/
theorem accepts_eq_iff {member : υ → Bool} {ml ml' : ModeLock}
    (notParam : locksParam names ml = false) (notParam' : locksParam names ml' = false) :
    (demandOf casemap context names member ml).accepts =
        (demandOf casemap context names member ml').accepts ↔ ml.set = ml'.set := by
  constructor
  · intro same
    have unset := congrFun same none
    rw [accepts_of_not_param notParam, accepts_of_not_param notParam', decide_eq_decide] at unset
    simpa using unset
  · intro same
    funext found
    rw [accepts_of_not_param notParam, accepts_of_not_param notParam', same]

omit [DecidableEq μ] [DecidableEq υ] in
/-- What a lock writes elsewhere is set. -/
theorem value_of_stray {member : υ → Bool} {ml : ModeLock} (valid : ValidParam names ml)
    (stray : ¬(demandOf casemap context names member ml).Own) {slot : Slot μ υ}
    (target : (demandOf casemap context names member ml).target = some slot) :
    (demandOf casemap context names member ml).value = some [] := by
  rw [own_iff] at stray
  obtain ⟨notParam, ⟨_, _, _, _, set, _, _, _, _⟩ | ⟨_, _, _, nowhere⟩⟩ :=
    (placed_of_validParam valid).of_misses stray
  · simp [demandOf, set, notParam]
  · rw [demandOf_target, nowhere] at target
    contradiction

theorem met_iff {member : υ → Bool} {ml : ModeLock} (notParam : locksParam names ml = false) :
    (demandOf casemap context names member ml).met (view casemap manager channel) = true ↔
      Met casemap context names channel ml := by
  unfold Met
  cases looks : asks casemap context names ml with
  | none =>
      have met : (demandOf casemap context names member ml).met
          (view casemap manager channel) = true := Demand.met_of_place_eq_none looks
      simp [met]
  | some slot => simp [met_demandOf looks, accepts_of_not_param notParam]

omit [DecidableEq μ] [DecidableEq υ] in
/-- What a lock writes elsewhere suits the lock of that place when both set it. -/
theorem accepts_value_iff {member : υ → Bool} {ml ml' : ModeLock}
    (valid : ValidParam names ml) (valid' : ValidParam names ml')
    (stray : ¬(demandOf casemap context names member ml).Own) {slot : Slot μ υ}
    (target : (demandOf casemap context names member ml).target = some slot)
    (looks : asks casemap context names ml' = some slot) :
    (demandOf casemap context names member ml').accepts
        (demandOf casemap context names member ml).value = true ↔ ml'.set = ml.set := by
  have value := value_of_stray valid stray target
  rw [own_iff] at stray
  obtain ⟨_, ⟨_, internal, _, folded, set, _, _, _, target'⟩ | ⟨_, _, _, nowhere⟩⟩ :=
    (placed_of_validParam valid).of_misses stray
  · have isMask : slot = .mask internal folded := Option.some_inj.mp (target.symm.trans target')
    have placed : Placed casemap context names member ml' := placed_of_validParam valid'
    rw [value, accepts_of_not_param (placed.notParam_of_place looks (by simp [isMask])), set]
    rw [decide_eq_true_eq, Option.isSome_some, eq_comm]
  · rw [demandOf_target, nowhere] at target
    contradiction

omit [DecidableEq μ] [DecidableEq υ] in
/-- A lock that accepts its mode by whether it is set leaves it so. -/
theorem isSome_enforced {member : υ → Bool} {ml : ModeLock} (notParam : locksParam names ml = false)
    (state : Option Str) :
    (if (demandOf casemap context names member ml).accepts state then state
      else (demandOf casemap context names member ml).value).isSome = ml.set := by
  rw [accepts_of_not_param notParam]
  by_cases same : state.isSome = ml.set
  · rw [if_pos (decide_eq_true same), same]
  · rw [if_neg (by simpa using same)]
    cases set : ml.set <;> simp [demandOf, set]

omit [DecidableEq μ] [DecidableEq υ] in
/-- The guards on a parameter leave it alone when it is empty or the locked one is. -/
theorem enforced_eq_param_iff {member : υ → Bool} {ml : ModeLock}
    (locked : locksParam names ml = true) (state : Option Str) :
    (if (demandOf casemap context names member ml).accepts state then state
      else (demandOf casemap context names member ml).value) = some ml.param ↔
      ∀ value, state = some value → value = ml.param ∨ (value ≠ [] ∧ ml.param ≠ []) := by
  have set : ml.set = true := by
    rw [locksParam, Bool.and_eq_true] at locked
    exact locked.1
  have written : (demandOf casemap context names member ml).value = some ml.param := by
    simp [demandOf, set, locked]
  cases state with
  | none => simp [demandOf, locked, set]
  | some value =>
      have accepts : (demandOf casemap context names member ml).accepts (some value) =
          decide (value = [] ∨ ml.param = [] ∨ value = ml.param) := by
        simp [demandOf, locked, Bool.decide_or, Bool.or_assoc]
      rw [accepts, written]
      by_cases accepted : value = [] ∨ ml.param = [] ∨ value = ml.param
      · rw [if_pos (decide_eq_true accepted)]
        simp only [Option.some_inj, forall_eq']
        tauto
      · rw [if_neg (by simpa using accepted)]
        simp only [Option.some_inj, forall_eq', true_iff]
        tauto

end Demands

section Settle

variable {channel : Channel μ υ} {locks : List ModeLock}
  (single : ∀ cm, manager.isPaired cm = false →
    locks.countP (fun ml => ml.name = (manager.mode cm).name) ≤ 1)
include single

omit [DecidableEq μ] in
theorem eq_of_single {ml ml' : ModeLock} (mem : ml ∈ locks) (mem' : ml' ∈ locks) {cm : μ}
    (unpaired : manager.isPaired cm = false)
    (found : names.findChannelModeByName ml.name = some cm)
    (found' : names.findChannelModeByName ml'.name = some cm) : ml' = ml := by
  obtain ⟨before, rest, split⟩ := List.append_of_mem mem
  by_contra different
  have other : ml' ∈ before ++ rest := by
    simpa [split, different] using mem'
  exact not_found_of_single (split ▸ single cm unpaired) found ml' other found'

variable (valid : ∀ ml ∈ locks, ValidParam names ml)
include valid

omit [DecidableEq μ] [DecidableEq υ] in
/-- Two locks of one place are about a mode itself, and then one lock, or they accept the place by
whether it is set. -/
theorem same_or_notParam (member : υ → Bool) {ml ml' : ModeLock} (mem : ml ∈ locks)
    (mem' : ml' ∈ locks) {slot : Slot μ υ} (looks : asks casemap context names ml = some slot)
    (looks' : asks casemap context names ml' = some slot) :
    ml' = ml ∨ locksParam names ml = false ∧ locksParam names ml' = false := by
  have placed : Placed casemap context names member ml := placed_of_validParam (valid ml mem)
  have placed' : Placed casemap context names member ml' := placed_of_validParam (valid ml' mem')
  cases slot with
  | mode cm =>
      obtain ⟨found, unpaired, _, _⟩ := placed.of_mode (.inr looks)
      obtain ⟨found', _, _, _⟩ := placed'.of_mode (.inr looks')
      exact .inl (eq_of_single single mem mem' unpaired found found')
  | mask cm folded =>
      exact .inr ⟨placed.notParam_of_place looks (by simp),
        placed'.notParam_of_place looks' (by simp)⟩
  | status cm user =>
      exact .inr ⟨placed.notParam_of_place looks (by simp),
        placed'.notParam_of_place looks' (by simp)⟩

omit [DecidableEq μ] [DecidableEq υ] in
/-- Locks that stand alone at their modes and are valid ask for places apart. -/
theorem apart_demandOf {member : υ → Bool} :
    Apart (demandOf casemap context names member) locks := by
  constructor
  · intro ml mem ml' mem' slot looks looks'
    rcases same_or_notParam single valid member mem mem' looks looks' with
      same | ⟨notParam, notParam'⟩
    · exact .inl (by rw [same])
    · by_cases sets : ml.set = ml'.set
      · exact .inl ((accepts_eq_iff notParam notParam').mpr sets)
      · refine .inr fun value accepts => ?_
        rw [accepts_of_not_param notParam, decide_eq_true_eq] at accepts
        rw [accepts_of_not_param notParam', accepts]
        exact decide_eq_false sets
  · intro ml mem ml' mem' stray stray' slot looks target
    rw [own_iff] at stray stray'
    obtain ⟨_, crossing | ⟨_, _, _, nowhere⟩⟩ :=
      (placed_of_validParam (valid ml' mem')).of_misses stray'
    · obtain ⟨_, internal', _, folded', _, _, virtual', _, target'⟩ := crossing
      have isMask : slot = .mask internal' folded' :=
        Option.some_inj.mp (target.symm.trans target')
      obtain ⟨_, ⟨cm, _, folded, _, _, plain, _, looks', _⟩ | ⟨_, _, looks', _⟩⟩ :=
        (placed_of_validParam (valid ml mem)).of_misses stray
      · have same : slot = .mask cm folded := Option.some_inj.mp (looks.symm.trans looks')
        rw [isMask, Slot.mask.injEq] at same
        rw [same.1, plain] at virtual'
        contradiction
      · have same := looks.symm.trans looks'
        rw [isMask] at same
        cases same
    · rw [demandOf_target, nowhere] at target
      contradiction
  · intro ml mem ml' mem' stray stray' slot target target'
    have value := value_of_stray (valid ml mem) stray target
    have value' := value_of_stray (valid ml' mem') stray' target'
    exact value.trans value'.symm

/-- The locks settle as demands when they get along. -/
theorem settles_iff_concordant :
    Settles (demandOf casemap context names (isMember channel)) (view casemap manager channel)
        locks ↔
      Concordant casemap context names channel locks := by
  have own : ∀ ml, (demandOf casemap context names (isMember channel) ml).Own ↔
      ¬Misses casemap context names channel ml := fun ml => own_iff.trans not_ne_iff.symm
  have stray : ∀ ml, ¬(demandOf casemap context names (isMember channel) ml).Own ↔
      Misses casemap context names channel ml := fun ml => by rw [own, not_not]
  have met : ∀ ml ∈ locks, Misses casemap context names channel ml →
      ((demandOf casemap context names (isMember channel) ml).met (view casemap manager channel) =
        true ↔ Met casemap context names channel ml) := fun ml mem misses =>
    met_iff ((placed_of_validParam (valid ml mem)).of_misses misses).1
  constructor
  · intro settles
    constructor
    · intro ml mem ml' mem' slot looks looks'
      rcases same_or_notParam single valid (isMember channel) mem mem' looks looks' with
        same | ⟨notParam, notParam'⟩
      · rw [same]
      · exact (accepts_eq_iff notParam notParam').mp
          (settles.agree ml mem ml' mem' slot looks looks')
    · intro ml mem misses
      rcases settles.reached ml mem ((stray ml).mpr misses) with isMet | ⟨other, memO, ownO, same⟩
      · exact .inl ((met ml mem misses).mp isMet)
      · exact .inr ⟨other, memO, (own other).mp ownO, same⟩
    · intro before ml after split misses notMet alone slot target ml' mem' hits looks
      have mem : ml ∈ locks := by simp [split]
      have strayMl := (stray ml).mpr misses
      rcases settles.undisturbed before ml after split strayMl
          (by rwa [← Bool.not_eq_true, met ml mem misses])
          (fun j memJ ownJ => alone j memJ ((own j).mp ownJ)) slot target ml' mem'
          ((own ml').mpr hits) looks with accepted | ⟨later, memL, ownL, looksL⟩
      · exact .inl ((accepts_value_iff (valid ml mem) (valid ml' mem') strayMl target
          looks).mp accepted)
      · exact .inr ⟨later, memL, (own later).mp ownL, looksL⟩
  · intro concordant
    constructor
    · intro ml mem ml' mem' slot looks looks'
      rcases same_or_notParam single valid (isMember channel) mem mem' looks looks' with
        same | ⟨notParam, notParam'⟩
      · rw [same]
      · exact (accepts_eq_iff notParam notParam').mpr
          (concordant.agree ml mem ml' mem' slot looks looks')
    · intro ml mem strayMl
      have misses := (stray ml).mp strayMl
      rcases concordant.reached ml mem misses with isMet | ⟨other, memO, hits, same⟩
      · exact .inl ((met ml mem misses).mpr isMet)
      · exact .inr ⟨other, memO, (own other).mpr hits, same⟩
    · intro before ml after split strayMl notMet alone slot target ml' mem' ownMl' looks
      have mem : ml ∈ locks := by simp [split]
      have misses := (stray ml).mp strayMl
      rcases concordant.undisturbed before ml after split misses
          (by rwa [← met ml mem misses, Bool.not_eq_true])
          (fun j memJ hits => alone j memJ ((own j).mpr hits)) slot target ml' mem'
          ((own ml').mp ownMl') looks with suits | ⟨later, memL, hits, looksL⟩
      · exact .inl ((accepts_value_iff (valid ml mem) (valid ml' mem') strayMl target
          looks).mpr suits)
      · exact .inr ⟨later, memL, (own later).mpr hits, looksL⟩

/-- What a pass leaves of a mode with a lock. -/
theorem pass_mode {member : υ → Bool} {state : ModeState μ υ}
    {ml : ModeLock} (mem : ml ∈ locks) {cm : μ}
    (found : names.findChannelModeByName ml.name = some cm)
    (unpaired : manager.isPaired cm = false) :
    pass (demandOf casemap context names member) state locks (.mode cm) =
      if (demandOf casemap context names member ml).accepts (state (.mode cm)) then
        state (.mode cm)
      else (demandOf casemap context names member ml).value := by
  have place : asks casemap context names ml = some (.mode cm) ∧
      writes casemap context names member ml = some (.mode cm) :=
    places_of_unpaired found unpaired
  obtain ⟨before, rest, split⟩ := List.append_of_mem mem
  have alone := not_found_of_single (split ▸ single cm unpaired) found
  have elsewhere : ∀ other ∈ before ++ rest,
      (demandOf casemap context names member other).target ≠ some (.mode cm) := by
    intro other memO target
    have memLocks : other ∈ locks := by
      rcases List.mem_append.mp memO with mem | mem <;> simp [split, mem]
    exact alone other memO ((placed_of_validParam (valid other memLocks)).of_mode (.inl target)).1
  rw [split]
  apply pass_apply_of_only (own_iff.mpr (place.2.trans place.1.symm)) place.1
  · exact fun other memO => elsewhere other (List.mem_append_left rest memO)
  · exact fun other memO => elsewhere other (List.mem_append_right before memO)

/-- The lock of a regular or parameter mode holds after a pass unless it is on a parameter that
its guards leave alone. -/
theorem holds_iff {after : Channel μ υ}
    (viewed : view casemap manager after =
      pass (demandOf casemap context names (isMember channel)) (view casemap manager channel)
        locks) {ml : ModeLock} (mem : ml ∈ locks) :
    Holds casemap names after ml ↔
      ∀ cm, names.findChannelModeByName ml.name = some cm → (manager.mode cm).type = .param →
        ml.set = true → ∀ value, getParam channel.modes (manager.mode cm).name = some value →
          value = ml.param ∨ (value ≠ [] ∧ ml.param ≠ []) := by
  unfold Holds
  refine forall₂_congr fun cm found => ?_
  have left : manager.isPaired cm = false → view casemap manager after (.mode cm) =
      if (demandOf casemap context names (isMember channel) ml).accepts
          (view casemap manager channel (.mode cm)) then view casemap manager channel (.mode cm)
      else (demandOf casemap context names (isMember channel) ml).value := fun unpaired => by
    rw [viewed]
    exact pass_mode single valid mem found unpaired
  have locked := locksParam_of_found found
  cases type : (manager.mode cm).type with
  | regular =>
      have isSome := congrArg Option.isSome (left (by simp [ModeManager.isPaired, type]))
      rw [isSome_enforced (by simp [locked, type]), view_mode_isSome (by simp [type])
        (by simp [type])] at isSome
      simp [← isSome]
  | param =>
      have left := left (by simp [ModeManager.isPaired, type])
      cases set : ml.set with
      | true =>
          have isParam : locksParam names ml = true := by simp [locked, type, set]
          rw [view_mode_of_param type, view_mode_of_param type] at left
          simp only [if_true, forall_const]
          rw [left]
          exact enforced_eq_param_iff isParam _
      | false =>
          have isSome := congrArg Option.isSome left
          rw [isSome_enforced (by simp [locked, set]), view_mode_isSome (by simp [type])
            (by simp [type]), set] at isSome
          simpa using isSome
  | list => simp
  | status => simp

end Settle

/-- A pass over the locks of a channel makes them hold and leaves nothing to do, exactly when they
are settleable. -/
theorem reachesFixedPoint_iff (names : Names manager) (vetoDelete : Bool)
    (services : Services μ υ) (locks : List ModeLock)
    (wellFormed : StoreWellFormed casemap manager services.channel.modes)
    (bots : ∀ param user, context.findBot param = some user → context.findUser param = some user)
    (single : ∀ cm, manager.isPaired cm = false →
      locks.countP (fun ml => ml.name = (manager.mode cm).name) ≤ 1)
    (valid : ∀ ml ∈ locks, ValidParam names ml) :
    ReachesFixedPoint casemap context names vetoDelete services locks ↔
      Settleable casemap context names vetoDelete services.channel locks := by
  have apart : Apart (demandOf casemap context names (isMember services.channel)) locks :=
    apart_demandOf single valid
  have none_iff : checkModes casemap context names vetoDelete services locks = none ↔
      ∃ ml ∈ locks, Loses casemap names vetoDelete services.channel ml :=
    checkModes_eq_none_iff wellFormed single valid bots
  constructor
  · rintro ⟨after, sent, checked, holds, again⟩
    have passed := checkModes_passed wellFormed valid bots checked
    have quiet := (checkModes_passed passed.wellFormed valid bots again).quiet.mp rfl
    rw [passed.members, passed.viewed, quiet_pass_iff apart,
      settles_iff_concordant single valid] at quiet
    refine ⟨?_, fun ml mem => (holds_iff single valid passed.viewed mem).mp (holds ml mem), quiet⟩
    rw [checked] at none_iff
    by_contra lost
    push Not at lost
    obtain ⟨noVeto, empty, ml, mem, cm, found, isPerm, unset, isSet⟩ := lost
    have destroyed := none_iff.mpr
      ⟨ml, mem, by simpa using noVeto, empty, ⟨cm, found, isPerm⟩, unset, isSet⟩
    contradiction
  · intro settleable
    cases checked : checkModes casemap context names vetoDelete services locks with
    | none =>
        obtain ⟨ml, mem, loses⟩ := none_iff.mp checked
        obtain ⟨cm, found, isPerm⟩ := loses.permanent
        rcases settleable.stays with veto | users | unset
        · rw [loses.noVeto] at veto
          contradiction
        · exact absurd loses.empty users
        · exact absurd (unset ml mem cm found isPerm loses.unset) loses.isSet
    | some result =>
        obtain ⟨after, sent⟩ := result
        have passed := checkModes_passed wellFormed valid bots checked
        refine ⟨after, sent, checked, fun ml mem =>
          (holds_iff single valid passed.viewed mem).mpr (settleable.corrects ml mem), ?_⟩
        apply checkModes_of_quiet valid bots
        rw [passed.members, passed.viewed, quiet_pass_iff apart,
          settles_iff_concordant single valid]
        exact settleable.concordant

/-! ## A locked extended ban -/

/-- The modes `KEY` and `BAN`, and the extended ban `mute` of InspIRCd. -/
inductive Sample where
  | key
  | ban
  | mute
  deriving DecidableEq

/-- A manager of these modes. -/
def sampleModes : ModeManager Sample where
  mode
    | .key => ⟨ascii "KEY", 107, .param, false, none⟩
    | .ban => ⟨ascii "BAN", 98, .list, false, none⟩
    | .mute => ⟨ascii "QUIET", 0, .list, false, some .ban⟩
  listeners
    | .ban => [.mute]
    | _ => []
  wrapParam _ param := ExtBan.mute.wrap true param
  unwrapParam _ _ param := ExtBan.mute.unwrap .list param
  isValid cm value :=
    if cm = .key ∧ (value = [] ∨ 58 ∈ value ∨ 44 ∈ value) then none else some value
  name_inj {cm cm'} same := by
    revert same
    cases cm <;> cases cm' <;> decide

/-- What the extended ban has wrapped it unwraps. -/
theorem unwrap_wrap_mute {param : Str} (nonempty : param ≠ []) :
    ExtBan.mute.unwrap .list (ExtBan.mute.wrap true param) = some param := by
  have reads : ExtBan.mute.Reads true false :=
    (ExtBan.reads_iff_of_letters (by decide) (by decide) false).mpr rfl
  exact ExtBan.unwrap_eq_some_iff.mpr ⟨false, ExtBan.denotes_wrap_iff.mpr ⟨nonempty, reads⟩⟩

/-- These modes by name. -/
def sampleNames : Names sampleModes where
  findChannelModeByName name :=
    [.key, .ban, .mute].find? fun cm => (sampleModes.mode cm).name = name
  find_iff {name cm} := by
    constructor
    · intro isFound
      simpa using List.find?_some isFound
    · rintro rfl
      cases cm <;> decide
  perm_regular {cm} isPerm := by
    revert isPerm
    cases cm <;> decide
  base_list {cm base} isBase := by
    cases cm <;> cases isBase
    exact ⟨rfl, rfl⟩
  listeners_base {cm listener} mem := by
    cases cm with
    | key => simp [sampleModes] at mem
    | ban =>
        rw [List.mem_singleton.mp mem]
        rfl
    | mute => simp [sampleModes] at mem
  unwrapParam_list {cm listener param text} mem recognised := by
    obtain ⟨_, _, isExtBan, _⟩ := ExtBan.unwrap_eq_some_iff.mp recognised
    refine ⟨?_, (isExtBan_eq_some_iff.mp isExtBan).2.2⟩
    cases cm with
    | key => simp [sampleModes] at mem
    | ban => rfl
    | mute => rfl
  unwrap_wrap {cm base param} isBase nonempty := by
    cases cm <;> cases isBase
    have recognised := unwrap_wrap_mute nonempty
    simp [ModeManager.unwrap, ModeManager.wrap, sampleModes, recognised]

/-- Nobody is online. -/
def nobody : Context (Fin 0) where
  curTime := 1
  me := ascii "services.example"
  findUser _ := none
  findBot _ := none

/-- A channel without modes and members. -/
def bare : Channel Sample (Fin 0) where
  created := 1
  modes := .empty
  users := ∅

/-- The lock `+k secret`. -/
def keyLock : ModeLock := ⟨ascii "#c", true, ascii "KEY", ascii "secret", ascii "alice", 1⟩

/-- The lock `+b m:nick!*@*`. -/
def muteLock : ModeLock := ⟨ascii "#c", true, ascii "BAN", ascii "m:nick!*@*", ascii "alice", 1⟩

theorem validParam_keyLock : ValidParam sampleNames keyLock := by
  intro cm found
  have isKey : sampleNames.findChannelModeByName keyLock.name = some .key := by decide
  rw [isKey, Option.some_inj] at found
  subst found
  intro _
  decide

theorem reachesFixedPoint_key :
    ReachesFixedPoint .ascii nobody sampleNames false ⟨bare, .empty⟩ [keyLock] := by
  refine (reachesFixedPoint_iff sampleNames false ⟨bare, .empty⟩ [keyLock] storeWellFormed_empty
    (fun _ _ isBot => isBot) ?_ ?_).mpr ?_
  · intro cm _
    exact List.countP_le_length
  · rintro ml mem
    rw [List.mem_singleton.mp mem]
    exact validParam_keyLock
  · have hits : ¬Misses .ascii nobody sampleNames bare keyLock := by
      unfold Misses
      decide
    refine ⟨.inr (.inr ?_), ?_, ?_, ?_, ?_⟩
    · intro _ _ _ _ _ _
      decide
    · intro _ _ cm _ _ _ value isParam
      cases cm <;> cases isParam
    · intro ml mem ml' mem' _ _ _
      rw [List.mem_singleton.mp mem, List.mem_singleton.mp mem']
    · intro ml mem misses
      rw [List.mem_singleton.mp mem] at misses
      exact absurd misses hits
    · intro before ml after split misses
      have mem : ml ∈ [keyLock] := by simp [split]
      rw [List.mem_singleton.mp mem] at misses
      exact absurd misses hits

/-- A locked extended ban is set again by each pass. -/
theorem not_reachesFixedPoint_mute :
    StoreWellFormed .ascii sampleModes bare.modes ∧ ValidParam sampleNames muteLock ∧
      ¬ReachesFixedPoint .ascii nobody sampleNames false ⟨bare, .empty⟩ [muteLock] := by
  refine ⟨storeWellFormed_empty, ?_, ?_⟩
  · intro cm found
    have isBan : sampleNames.findChannelModeByName muteLock.name = some .ban := by decide
    rw [isBan, Option.some_inj] at found
    subst found
    exact ⟨by decide, fun _ => ⟨muteLock.param, by decide, by decide⟩⟩
  · rintro ⟨after, sent, checked, _, again⟩
    have twice : ((checkModes .ascii nobody sampleNames false ⟨bare, .empty⟩ [muteLock]).bind
        fun first => checkModes .ascii nobody sampleNames false first.1 [muteLock]).map Prod.snd =
          some [(true, .ban, ascii "m:nick!*@*")] := by
      decide +kernel
    rw [checked, Option.bind_some, again] at twice
    cases twice

end Anope.Channel
