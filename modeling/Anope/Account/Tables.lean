import Anope.Account.Core
import Mathlib.Data.List.Nodup

/-!
# The tables of accounts and nicks

The invariant says that the lists of aliases, the references to accounts and the
two tables agree.  While an alias is being destroyed it is in no list any more,
and its account may not have a new display yet.
-/

namespace Anope.Account

open Anope.Text

variable {α ν : Type}

/-- The lists and tables agree, but for an alias that is `dying` and an account
whose display is `stale`. -/
structure Inv (casemap : Casemap) (dying : Option α) (stale : Option ν) (s : State α ν) :
    Prop where
  pointed : ∀ {a info}, s.aliases a = some info → dying ≠ some a →
    ∃ c core, info.nc = some c ∧ s.cores c = some core ∧ a ∈ core.aliases
  member : ∀ {c core a}, s.cores c = some core → a ∈ core.aliases →
    dying ≠ some a ∧ ∃ info, s.aliases a = some info ∧ info.nc = some c
  nodup : ∀ {c core}, s.cores c = some core → core.aliases.Nodup
  displayed : ∀ {c core}, s.cores c = some core → stale ≠ some c → core.aliases ≠ [] →
    ∃ a info, core.na = some a ∧ a ∈ core.aliases ∧ s.aliases a = some info ∧
      casemap.ciStr info.nick = casemap.ciStr core.display
  coreListed : ∀ {c core}, s.cores c = some core →
    s.nickCoreList.lookup (casemap.ciStr core.display) = some c
  aliasListed : ∀ {a info}, s.aliases a = some info →
    s.nickAliasList.lookup (casemap.ciStr info.nick) = some a
  coreKeys : ∀ {key c}, s.nickCoreList.lookup key = some c →
    ∃ core, s.cores c = some core ∧ casemap.ciStr core.display = key
  aliasKeys : ∀ {key a}, s.nickAliasList.lookup key = some a →
    ∃ info, s.aliases a = some info ∧ casemap.ciStr info.nick = key

/-- No other account has the name. -/
def Clear (casemap : Casemap) (s : State α ν) (c : ν) (name : Str) : Prop :=
  ∀ other, s.nickCoreList.lookup (casemap.ciStr name) = some other → other = c

section Update

variable {κ β : Type} [DecidableEq κ] {table : κ → Option β} {key other : κ} {value : Option β}
  {found : β}

/-- What is at an address after a write. -/
theorem update_eq_some (is : Function.update table key value other = some found) :
    (other = key ∧ value = some found) ∨ (other ≠ key ∧ table other = some found) := by
  by_cases same : other = key
  · subst same
    rw [Function.update_self] at is
    exact .inl ⟨rfl, is⟩
  · rw [Function.update_of_ne same] at is
    exact .inr ⟨same, is⟩

theorem lookup_insert_eq_some {κ β : Type} [DecidableEq κ] {table : AList fun _ : κ => β}
    {key other : κ} {value found : β} (is : (table.insert key value).lookup other = some found) :
    (other = key ∧ value = found) ∨ (other ≠ key ∧ table.lookup other = some found) := by
  by_cases same : other = key
  · subst same
    rw [AList.lookup_insert] at is
    exact .inl ⟨rfl, Option.some.inj is⟩
  · rw [AList.lookup_insert_ne same] at is
    exact .inr ⟨same, is⟩

theorem lookup_erase_eq_some {κ β : Type} [DecidableEq κ] {table : AList fun _ : κ => β}
    {key other : κ} {found : β} (is : (table.erase key).lookup other = some found) :
    other ≠ key ∧ table.lookup other = some found := by
  by_cases same : other = key
  · subst same
    rw [AList.lookup_erase] at is
    cases is
  · rw [AList.lookup_erase_ne same] at is
    exact ⟨same, is⟩

end Update

/-! ## The alias that is picked -/

namespace State

variable {s : State α ν} {aliases : List α}

theorem oldest_spec : (∀ {a info}, s.oldest aliases = some (a, info) →
      a ∈ aliases ∧ s.aliases a = some info) ∧
    (s.oldest aliases = none → ∀ a ∈ aliases, s.aliases a = none) := by
  rw [oldest]
  induction aliases using List.reverseRecOn with
  | nil => exact ⟨nofun, fun _ => nofun⟩
  | append_singleton aliases last ih =>
      rw [List.foldl_append, List.foldl_cons, List.foldl_nil]
      generalize aliases.foldl _ none = picked at ih ⊢
      cases found : s.aliases last with
      | none =>
          refine ⟨fun is => ?_, fun none a mem => ?_⟩
          · exact ⟨List.mem_append_left _ (ih.1 is).1, (ih.1 is).2⟩
          · rcases List.mem_append.mp mem with before | isLast
            · exact ih.2 none a before
            · rw [List.mem_singleton.mp isLast, found]
      | some info =>
          dsimp only
          split
          · refine ⟨fun is => ?_, nofun⟩
            cases is
            exact ⟨List.mem_append_right _ List.mem_cons_self, found⟩
          · rename_i younger
            refine ⟨fun is => ⟨List.mem_append_left _ (ih.1 is).1, (ih.1 is).2⟩, fun none => ?_⟩
            rw [none] at younger
            exact absurd rfl younger

variable [DecidableEq ν] {c : ν} {core : NickCore α} {na : Option α} {a : α} {info : NickAlias ν}

theorem nextDisplay_eq_some (is : s.nextDisplay c core na = some (a, info)) :
    s.aliases a = some info ∧ info.nc = some c ∧ info.nick ≠ core.display := by
  unfold nextDisplay at is
  obtain ⟨picked, fits⟩ := Option.filter_eq_some_iff.mp is
  rw [Bool.and_eq_true, decide_eq_true_iff, decide_eq_true_iff] at fits
  refine ⟨?_, fits⟩
  cases na with
  | none => exact (oldest_spec.1 picked).2
  | some a' =>
      obtain ⟨other, found, same⟩ := Option.map_eq_some_iff.mp picked
      cases same
      exact found

theorem setDisplay_eq (casemap : Casemap) (isCore : s.cores c = some core)
    (next : s.nextDisplay c core na = some (a, info)) :
    s.setDisplay casemap c na =
      { s.putCore c { core with display := info.nick, na := some a } with
        nickCoreList := (s.nickCoreList.erase (casemap.ciStr core.display)).insert
          (casemap.ciStr info.nick) c } := by
  rw [setDisplay, isCore]
  simp only [next]

/-- The display alias leaves an account that has others. -/
theorem leaveCore_eq_setDisplay [DecidableEq α] (casemap : Casemap) (points : info.nc = some c)
    (isCore : s.cores c = some core) (left : core.aliases.erase a ≠ [])
    (shown : core.na = some a) :
    s.leaveCore casemap a info =
      (s.putCore c { core with aliases := core.aliases.erase a }).setDisplay casemap c none := by
  rw [leaveCore, points]
  simp only [isCore]
  rw [if_neg fun none => left (List.isEmpty_iff.mp none), if_pos shown]

end State

/-! ## Operations -/

variable [DecidableEq α] [DecidableEq ν] {casemap : Casemap} {s : State α ν} {dying : Option α}
  {stale : Option ν} {a : α} {c : ν} {core : NickCore α} {info : NickAlias ν}

namespace Inv

omit [DecidableEq α] in
/-- A new account has no aliases. -/
theorem newCore (inv : Inv casemap none none s) (new : s.cores c = none) {coredisplay : Str}
    (clear : s.nickCoreList.lookup (casemap.ciStr coredisplay) = none) :
    Inv casemap none none (s.newCore casemap c coredisplay) where
  pointed := by
    intro a info found _
    obtain ⟨c', core, points, isCore, mem⟩ := inv.pointed found nofun
    refine ⟨c', core, points, ?_, mem⟩
    have different : c' ≠ c := by
      rintro rfl
      rw [new] at isCore
      cases isCore
    exact (Function.update_of_ne different ..).trans isCore
  member := by
    intro c' core a isCore mem
    rcases update_eq_some isCore with ⟨_, made⟩ | ⟨_, before⟩
    · cases made
      cases mem
    · exact inv.member before mem
  nodup := by
    intro c' core isCore
    rcases update_eq_some isCore with ⟨_, made⟩ | ⟨_, before⟩
    · cases made
      exact .nil
    · exact inv.nodup before
  displayed := by
    intro c' core isCore fresh aliases
    rcases update_eq_some isCore with ⟨_, made⟩ | ⟨_, before⟩
    · cases made
      exact absurd rfl aliases
    · exact inv.displayed before fresh aliases
  coreListed := by
    intro c' core isCore
    rcases update_eq_some isCore with ⟨rfl, made⟩ | ⟨_, before⟩
    · cases made
      exact AList.lookup_insert _
    · have listed := inv.coreListed before
      refine (AList.lookup_insert_ne fun same => ?_).trans listed
      rw [same, clear] at listed
      cases listed
  aliasListed := inv.aliasListed
  coreKeys := by
    intro key c' listed
    rcases lookup_insert_eq_some listed with ⟨rfl, rfl⟩ | ⟨_, before⟩
    · exact ⟨_, Function.update_self .., rfl⟩
    · obtain ⟨core, isCore, same⟩ := inv.coreKeys before
      refine ⟨core, (Function.update_of_ne ?_ ..).trans isCore, same⟩
      rintro rfl
      rw [new] at isCore
      cases isCore
  aliasKeys := inv.aliasKeys

/-- The first alias of an account has the nick that the account is shown by. -/
theorem newAlias (inv : Inv casemap none none s) (new : s.aliases a = none)
    (isCore : s.cores c = some core) {nickname : Str} (registered : Int)
    (clear : s.nickAliasList.lookup (casemap.ciStr nickname) = none)
    (first : core.aliases = [] → casemap.ciStr nickname = casemap.ciStr core.display) :
    Inv casemap none none (s.newAlias casemap a nickname registered c core) := by
  have notMember {c' : ν} {core' : NickCore α} (found : s.cores c' = some core') :
      a ∉ core'.aliases := by
    intro mem
    obtain ⟨_, info, known, _⟩ := inv.member found mem
    rw [new] at known
    cases known
  have kept {other : α} {info : NickAlias ν} (found : s.aliases other = some info) :
      (s.newAlias casemap a nickname registered c core).aliases other = some info := by
    refine (Function.update_of_ne ?_ ..).trans found
    rintro rfl
    rw [new] at found
    cases found
  have made : (s.newAlias casemap a nickname registered c core).aliases a =
      some { nick := nickname, nc := some c, registered } := Function.update_self ..
  constructor
  · intro other info found _
    rcases update_eq_some found with ⟨rfl, isNew⟩ | ⟨_, before⟩
    · cases isNew
      exact ⟨c, _, rfl, Function.update_self .., List.mem_append_right _ List.mem_cons_self⟩
    · obtain ⟨c', core', points, isCore', mem⟩ := inv.pointed before nofun
      by_cases same : c' = c
      · subst same
        rw [isCore] at isCore'
        cases isCore'
        exact ⟨c', _, points, Function.update_self .., List.mem_append_left _ mem⟩
      · exact ⟨c', core', points, (Function.update_of_ne same ..).trans isCore', mem⟩
  · intro c' core' other found mem
    refine ⟨nofun, ?_⟩
    rcases update_eq_some found with ⟨rfl, grouped⟩ | ⟨_, before⟩
    · cases grouped
      rcases List.mem_append.mp mem with old | isNew
      · obtain ⟨_, info, known, points⟩ := inv.member isCore old
        exact ⟨info, kept known, points⟩
      · rw [List.mem_singleton.mp isNew]
        exact ⟨_, made, rfl⟩
    · obtain ⟨_, info, known, points⟩ := inv.member before mem
      exact ⟨info, kept known, points⟩
  · intro c' core' found
    rcases update_eq_some found with ⟨rfl, grouped⟩ | ⟨_, before⟩
    · cases grouped
      refine List.nodup_append.mpr ⟨inv.nodup isCore, List.nodup_singleton a, ?_⟩
      rintro b mem _ isNew rfl
      rw [List.mem_singleton.mp isNew] at mem
      exact notMember isCore mem
    · exact inv.nodup before
  · intro c' core' found fresh aliases
    rcases update_eq_some found with ⟨rfl, grouped⟩ | ⟨_, before⟩
    · cases grouped
      by_cases shown : casemap.ciStr nickname = casemap.ciStr core.display
      · refine ⟨a, _, if_pos ((casemap.equalsCi_iff ..).mpr shown), ?_, made, shown⟩
        exact List.mem_append_right _ List.mem_cons_self
      · obtain ⟨b, info, isShown, mem, known, same⟩ :=
          inv.displayed isCore fresh fun empty => shown (first empty)
        refine ⟨b, info, (if_neg ?_).trans isShown, List.mem_append_left _ mem, kept known, same⟩
        rwa [casemap.equalsCi_iff]
    · obtain ⟨b, info, isShown, mem, known, same⟩ := inv.displayed before fresh aliases
      exact ⟨b, info, isShown, mem, kept known, same⟩
  · intro c' core' found
    rcases update_eq_some found with ⟨rfl, grouped⟩ | ⟨_, before⟩
    · cases grouped
      have listed := inv.coreListed isCore
      exact listed
    · exact inv.coreListed before
  · intro other info found
    rcases update_eq_some found with ⟨rfl, isNew⟩ | ⟨_, before⟩
    · cases isNew
      exact AList.lookup_insert _
    · have listed := inv.aliasListed before
      refine (AList.lookup_insert_ne fun same => ?_).trans listed
      rw [same, clear] at listed
      cases listed
  · intro key c' listed
    obtain ⟨core', isCore', same⟩ := inv.coreKeys listed
    by_cases same' : c' = c
    · subst same'
      rw [isCore] at isCore'
      cases isCore'
      exact ⟨_, Function.update_self .., same⟩
    · exact ⟨core', (Function.update_of_ne same' ..).trans isCore', same⟩
  · intro key other listed
    rcases lookup_insert_eq_some listed with ⟨rfl, rfl⟩ | ⟨_, before⟩
    · exact ⟨_, made, rfl⟩
    · obtain ⟨info, found, same⟩ := inv.aliasKeys before
      exact ⟨info, kept found, same⟩

omit [DecidableEq α] in
/-- The account is shown by one of its aliases, under a name that no other
account has. -/
theorem setDisplay (inv : Inv casemap dying stale s) (only : stale = none ∨ stale = some c)
    (isCore : s.cores c = some core) {na : Option α}
    (next : s.nextDisplay c core na = some (a, info)) (clear : Clear casemap s c info.nick)
    (alive : dying ≠ some a) : Inv casemap dying none (s.setDisplay casemap c na) := by
  obtain ⟨known, points, _⟩ := State.nextDisplay_eq_some next
  have isMember : a ∈ core.aliases := by
    obtain ⟨c', core', points', isCore', mem⟩ := inv.pointed known alive
    rw [points] at points'
    cases points'
    rw [isCore] at isCore'
    cases isCore'
    exact mem
  have nameKept {c' : ν} {core' : NickCore α} (different : c' ≠ c)
      (found : s.cores c' = some core') :
      ((s.nickCoreList.erase (casemap.ciStr core.display)).insert (casemap.ciStr info.nick) c).lookup
        (casemap.ciStr core'.display) = some c' := by
    have listed := inv.coreListed found
    rw [AList.lookup_insert_ne, AList.lookup_erase_ne]
    · exact listed
    · intro same
      rw [same, inv.coreListed isCore] at listed
      exact different (Option.some.inj listed).symm
    · intro same
      rw [same] at listed
      exact different (clear _ listed)
  rw [State.setDisplay_eq casemap isCore next]
  constructor
  · intro other info' found isAlive
    obtain ⟨c', core', points', isCore', mem⟩ := inv.pointed found isAlive
    by_cases same : c' = c
    · subst same
      rw [isCore] at isCore'
      cases isCore'
      exact ⟨c', _, points', Function.update_self .., mem⟩
    · exact ⟨c', core', points', (Function.update_of_ne same ..).trans isCore', mem⟩
  · intro c' core' other found mem
    rcases update_eq_some found with ⟨rfl, shown⟩ | ⟨_, before⟩
    · cases shown
      exact inv.member isCore mem
    · exact inv.member before mem
  · intro c' core' found
    rcases update_eq_some found with ⟨rfl, shown⟩ | ⟨_, before⟩
    · cases shown
      have nodup := inv.nodup isCore
      exact nodup
    · exact inv.nodup before
  · intro c' core' found _ aliases
    rcases update_eq_some found with ⟨rfl, shown⟩ | ⟨different, before⟩
    · cases shown
      exact ⟨a, info, rfl, isMember, known, rfl⟩
    · refine inv.displayed before (fun isStale => ?_) aliases
      rcases only with fresh | hidden
      · rw [fresh] at isStale
        cases isStale
      · rw [hidden] at isStale
        exact different (Option.some.inj isStale).symm
  · intro c' core' found
    rcases update_eq_some found with ⟨rfl, shown⟩ | ⟨different, before⟩
    · cases shown
      exact AList.lookup_insert _
    · exact nameKept different before
  · exact inv.aliasListed
  · intro key c' listed
    rcases lookup_insert_eq_some listed with ⟨rfl, rfl⟩ | ⟨_, before⟩
    · exact ⟨_, Function.update_self .., rfl⟩
    · obtain ⟨notOld, before⟩ := lookup_erase_eq_some before
      obtain ⟨core', isCore', same⟩ := inv.coreKeys before
      refine ⟨core', (Function.update_of_ne ?_ ..).trans isCore', same⟩
      rintro rfl
      rw [isCore] at isCore'
      cases isCore'
      exact notOld same.symm
  · exact inv.aliasKeys

omit [DecidableEq α] in
/-- An account without aliases. -/
theorem deleteCore (inv : Inv casemap dying stale s) (only : stale = none ∨ stale = some c)
    (isCore : s.cores c = some core) (empty : core.aliases = []) :
    Inv casemap dying none (s.deleteCore casemap c) := by
  have pointsElsewhere {other : α} {info : NickAlias ν} (found : s.aliases other = some info)
      (isAlive : dying ≠ some other) : ∃ c' core', c' ≠ c ∧ info.nc = some c' ∧
        s.cores c' = some core' ∧ other ∈ core'.aliases := by
    obtain ⟨c', core', points, isCore', mem⟩ := inv.pointed found isAlive
    refine ⟨c', core', ?_, points, isCore', mem⟩
    rintro rfl
    rw [isCore] at isCore'
    cases isCore'
    rw [empty] at mem
    cases mem
  have kept {other : α} {info : NickAlias ν} (found : s.aliases other = some info) :
      (s.aliases other).map (fun info => { info with nc := info.nc.filter (· ≠ c) }) =
        some { info with nc := info.nc.filter (· ≠ c) } := by
    rw [found, Option.map_some]
  rw [State.deleteCore, isCore]
  constructor
  · intro other info found isAlive
    obtain ⟨before, foundBefore, rfl⟩ := Option.map_eq_some_iff.mp found
    obtain ⟨c', core', different, points, isCore', mem⟩ := pointsElsewhere foundBefore isAlive
    refine ⟨c', core', ?_, (Function.update_of_ne different ..).trans isCore', mem⟩
    exact Option.filter_eq_some_iff.mpr ⟨points, decide_eq_true different⟩
  · intro c' core' other found mem
    rcases update_eq_some found with ⟨_, gone⟩ | ⟨different, before⟩
    · cases gone
    · obtain ⟨isAlive, info, known, points⟩ := inv.member before mem
      refine ⟨isAlive, _, kept known, ?_⟩
      exact Option.filter_eq_some_iff.mpr ⟨points, decide_eq_true different⟩
  · intro c' core' found
    rcases update_eq_some found with ⟨_, gone⟩ | ⟨_, before⟩
    · cases gone
    · exact inv.nodup before
  · intro c' core' found _ aliases
    rcases update_eq_some found with ⟨_, gone⟩ | ⟨different, before⟩
    · cases gone
    · have fresh : stale ≠ some c' := by
        intro isStale
        rcases only with none | some
        · rw [none] at isStale
          cases isStale
        · rw [some] at isStale
          exact different (Option.some.inj isStale).symm
      obtain ⟨b, info, isShown, mem, known, same⟩ := inv.displayed before fresh aliases
      exact ⟨b, _, isShown, mem, kept known, same⟩
  · intro c' core' found
    rcases update_eq_some found with ⟨_, gone⟩ | ⟨different, before⟩
    · cases gone
    · have listed := inv.coreListed before
      refine (AList.lookup_erase_ne fun same => ?_).trans listed
      rw [same, inv.coreListed isCore] at listed
      exact different (Option.some.inj listed).symm
  · intro other info found
    obtain ⟨before, foundBefore, rfl⟩ := Option.map_eq_some_iff.mp found
    have listed := inv.aliasListed foundBefore
    exact listed
  · intro key c' listed
    obtain ⟨notOld, before⟩ := lookup_erase_eq_some listed
    obtain ⟨core', isCore', same⟩ := inv.coreKeys before
    refine ⟨core', (Function.update_of_ne ?_ ..).trans isCore', same⟩
    rintro rfl
    rw [isCore] at isCore'
    cases isCore'
    exact notOld same.symm
  · intro key other listed
    obtain ⟨info, found, same⟩ := inv.aliasKeys listed
    exact ⟨_, kept found, same⟩

/-! ## Destroying an alias -/

/-- The alias is in no list any more. -/
theorem unlist (inv : Inv casemap none none s) (found : s.aliases a = some info)
    (points : info.nc = some c) (isCore : s.cores c = some core) :
    Inv casemap (some a) (some c)
      (s.putCore c { core with aliases := core.aliases.erase a }) where
  pointed := by
    intro other info' found' isAlive
    obtain ⟨c', core', points', isCore', mem⟩ := inv.pointed found' nofun
    by_cases same : c' = c
    · subst same
      rw [isCore] at isCore'
      cases isCore'
      refine ⟨c', _, points', Function.update_self .., ?_⟩
      exact (inv.nodup isCore).mem_erase_iff.mpr ⟨fun is => isAlive (congrArg some is.symm), mem⟩
    · exact ⟨c', core', points', (Function.update_of_ne same ..).trans isCore', mem⟩
  member := by
    intro c' core' other found' mem
    rcases update_eq_some found' with ⟨rfl, unlisted⟩ | ⟨different, before⟩
    · cases unlisted
      obtain ⟨notDying, mem⟩ := (inv.nodup isCore).mem_erase_iff.mp mem
      exact ⟨fun is => notDying (Option.some.inj is).symm, (inv.member isCore mem).2⟩
    · refine ⟨?_, (inv.member before mem).2⟩
      rintro ⟨⟩
      obtain ⟨_, info', known, points'⟩ := inv.member before mem
      rw [found] at known
      cases known
      rw [points] at points'
      exact different (Option.some.inj points').symm
  nodup := by
    intro c' core' found'
    rcases update_eq_some found' with ⟨rfl, unlisted⟩ | ⟨_, before⟩
    · cases unlisted
      exact (inv.nodup isCore).erase a
    · exact inv.nodup before
  displayed := by
    intro c' core' found' fresh aliases
    rcases update_eq_some found' with ⟨rfl, _⟩ | ⟨_, before⟩
    · exact absurd rfl fresh
    · exact inv.displayed before nofun aliases
  coreListed := by
    intro c' core' found'
    rcases update_eq_some found' with ⟨rfl, unlisted⟩ | ⟨_, before⟩
    · cases unlisted
      have listed := inv.coreListed isCore
      exact listed
    · exact inv.coreListed before
  aliasListed := inv.aliasListed
  coreKeys := by
    intro key c' listed
    obtain ⟨core', isCore', same⟩ := inv.coreKeys listed
    by_cases isSame : c' = c
    · subst isSame
      rw [isCore] at isCore'
      cases isCore'
      exact ⟨_, Function.update_self .., same⟩
    · exact ⟨core', (Function.update_of_ne isSame ..).trans isCore', same⟩
  aliasKeys := inv.aliasKeys

omit [DecidableEq α] in
/-- The account is still shown by the alias that it was shown by. -/
theorem refresh (inv : Inv casemap dying (some c) s) (isCore : s.cores c = some core)
    (shown : ∃ a info, core.na = some a ∧ a ∈ core.aliases ∧ s.aliases a = some info ∧
      casemap.ciStr info.nick = casemap.ciStr core.display) : Inv casemap dying none s :=
  { inv with
    displayed := by
      intro c' core' found _ aliases
      by_cases same : c' = c
      · subst same
        rw [isCore] at found
        cases found
        exact shown
      · exact inv.displayed found (fun is => same (Option.some.inj is).symm) aliases }

/-- What the account takes for its display when its display alias goes. -/
theorem nextDisplay_of_unlist (inv : Inv casemap none none s) (isCore : s.cores c = some core)
    (left : core.aliases.erase a ≠ []) (shown : core.na = some a) :
    ∃ b next, s.oldest (core.aliases.erase a) = some (b, next) ∧ b ≠ a ∧
      (s.putCore c { core with aliases := core.aliases.erase a }).nextDisplay c
        { core with aliases := core.aliases.erase a } none = some (b, next) := by
  cases picked : s.oldest (core.aliases.erase a) with
  | none =>
      obtain ⟨b, mem⟩ := List.exists_mem_of_ne_nil _ left
      obtain ⟨_, next, known, _⟩ := inv.member isCore (List.mem_of_mem_erase mem)
      rw [State.oldest_spec.2 picked b mem] at known
      cases known
  | some picked' =>
      obtain ⟨b, next⟩ := picked'
      obtain ⟨mem, known⟩ := State.oldest_spec.1 picked
      obtain ⟨different, mem⟩ := (inv.nodup isCore).mem_erase_iff.mp mem
      obtain ⟨_, next', known', points'⟩ := inv.member isCore mem
      rw [known] at known'
      cases known'
      refine ⟨b, next, rfl, different, ?_⟩
      have otherNick : next.nick ≠ core.display := by
        intro same
        obtain ⟨a', info', isShown, _, found', display⟩ :=
          inv.displayed isCore nofun (List.ne_nil_of_mem mem)
        rw [shown] at isShown
        cases isShown
        have listed := inv.aliasListed known
        rw [same, ← display, inv.aliasListed found'] at listed
        exact different (Option.some.inj listed).symm
      refine Option.filter_eq_some_iff.mpr ⟨picked, ?_⟩
      rw [Bool.and_eq_true, decide_eq_true_iff, decide_eq_true_iff]
      exact ⟨points', otherNick⟩

omit [DecidableEq ν] in
/-- The memory and the entry of an alias that is in no list. -/
theorem freeAlias (inv : Inv casemap (some a) none s) (found : s.aliases a = some info) :
    Inv casemap none none (s.freeAlias casemap a info.nick) where
  pointed := by
    intro other info' found' _
    rcases update_eq_some found' with ⟨_, gone⟩ | ⟨different, before⟩
    · cases gone
    · obtain ⟨c', core', points, isCore, mem⟩ :=
        inv.pointed before fun is => different (Option.some.inj is).symm
      exact ⟨c', _, points, congrArg (Option.map _) isCore, mem⟩
  member := by
    intro c' core' other found' mem
    obtain ⟨before, isCore, rfl⟩ := Option.map_eq_some_iff.mp found'
    obtain ⟨notDying, info', known, points⟩ := inv.member isCore mem
    refine ⟨nofun, info', (Function.update_of_ne ?_ ..).trans known, points⟩
    exact fun is => notDying (congrArg some is.symm)
  nodup := by
    intro c' core' found'
    obtain ⟨before, isCore, rfl⟩ := Option.map_eq_some_iff.mp found'
    have nodup := inv.nodup isCore
    exact nodup
  displayed := by
    intro c' core' found' _ aliases
    obtain ⟨before, isCore, rfl⟩ := Option.map_eq_some_iff.mp found'
    obtain ⟨b, info', isShown, mem, known, same⟩ := inv.displayed isCore nofun aliases
    have different : b ≠ a := fun is => (inv.member isCore mem).1 (congrArg some is.symm)
    refine ⟨b, info', ?_, mem, (Function.update_of_ne different ..).trans known, same⟩
    exact Option.filter_eq_some_iff.mpr ⟨isShown, decide_eq_true different⟩
  coreListed := by
    intro c' core' found'
    obtain ⟨before, isCore, rfl⟩ := Option.map_eq_some_iff.mp found'
    have listed := inv.coreListed isCore
    exact listed
  aliasListed := by
    intro other info' found'
    rcases update_eq_some found' with ⟨_, gone⟩ | ⟨different, before⟩
    · cases gone
    · have listed := inv.aliasListed before
      refine (AList.lookup_erase_ne fun same => ?_).trans listed
      rw [same, inv.aliasListed found] at listed
      exact different (Option.some.inj listed).symm
  coreKeys := by
    intro key c' listed
    obtain ⟨core', isCore, same⟩ := inv.coreKeys listed
    exact ⟨_, congrArg (Option.map _) isCore, same⟩
  aliasKeys := by
    intro key other listed
    obtain ⟨notOld, before⟩ := lookup_erase_eq_some listed
    obtain ⟨info', found', same⟩ := inv.aliasKeys before
    refine ⟨info', (Function.update_of_ne ?_ ..).trans found', same⟩
    rintro rfl
    rw [found] at found'
    cases found'
    exact notOld same.symm

end Inv

end Anope.Account
