import Anope.Account.Tables

/-!
# When the tables agree

The constructors do not look at what is there already.  The lists and tables of
accounts and nicks agree in every state of a run exactly when no step gives a
name that another object has, the first alias of an account has its display, and
an account is only destroyed without aliases.
-/

namespace Anope.Account

open Anope.Text Library.Run

variable {α ν : Type}

/-- The account tables agree. -/
structure Agree (casemap : Casemap) (s : State α ν) : Prop where
  pointed : ∀ {a info}, s.aliases a = some info → ∃ c, info.nc = some c ∧
    ∀ c', (∃ core, s.cores c' = some core ∧ a ∈ core.aliases) ↔ c' = c
  displayed : ∀ {c core}, s.cores c = some core → core.aliases ≠ [] →
    ∃ a ∈ core.aliases, ∃ info, s.aliases a = some info ∧
      casemap.ciStr info.nick = casemap.ciStr core.display
  coreListed : ∀ {c core}, s.cores c = some core →
    s.nickCoreList.lookup (casemap.ciStr core.display) = some c
  aliasListed : ∀ {a info}, s.aliases a = some info →
    s.nickAliasList.lookup (casemap.ciStr info.nick) = some a
  membersLive : ∀ {c core a}, s.cores c = some core → a ∈ core.aliases →
    (s.aliases a).isSome
  coresLive : ∀ {key c}, s.nickCoreList.lookup key = some c → (s.cores c).isSome
  aliasesLive : ∀ {key a}, s.nickAliasList.lookup key = some a → (s.aliases a).isSome

section Ready

variable [DecidableEq α] [DecidableEq ν]

/-- What a step has to find: no object that has the name already, an account that
is shown by its first alias, an account that is destroyed without aliases. -/
def Ready (casemap : Casemap) (s : State α ν) : Action α ν → Prop
  | .newCore _ coredisplay => s.nickCoreList.lookup (casemap.ciStr coredisplay) = none
  | .newAlias _ nickname _ c => s.nickAliasList.lookup (casemap.ciStr nickname) = none ∧
      ∀ core, s.cores c = some core → core.aliases = [] →
        casemap.ciStr nickname = casemap.ciStr core.display
  | .setDisplay c na => ∀ core a info, s.cores c = some core →
      s.nextDisplay c core na = some (a, info) → Clear casemap s c info.nick
  | .deleteCore c => ∀ core, s.cores c = some core → core.aliases = []
  | .deleteAlias a => ∀ info c core, s.aliases a = some info → info.nc = some c →
      s.cores c = some core → core.na = some a →
        ∀ next nextInfo, s.oldest (core.aliases.erase a) = some (next, nextInfo) →
          Clear casemap s c nextInfo.nick

end Ready

variable {casemap : Casemap} {s s' : State α ν}

theorem Inv.agree (inv : Inv casemap none none s) : Agree casemap s where
  pointed := by
    intro a info found
    obtain ⟨c, core, points, isCore, mem⟩ := inv.pointed found nofun
    refine ⟨c, points, fun c' => ⟨?_, ?_⟩⟩
    · rintro ⟨core', isCore', mem'⟩
      obtain ⟨_, info', found', points'⟩ := inv.member isCore' mem'
      rw [found] at found'
      cases found'
      rw [points] at points'
      exact (Option.some.inj points').symm
    · rintro rfl
      exact ⟨core, isCore, mem⟩
  displayed := by
    intro c core isCore aliases
    obtain ⟨a, info, _, mem, found, same⟩ := inv.displayed isCore nofun aliases
    exact ⟨a, mem, info, found, same⟩
  coreListed := inv.coreListed
  aliasListed := inv.aliasListed
  membersLive := by
    intro c core a isCore mem
    obtain ⟨_, info, found, _⟩ := inv.member isCore mem
    exact Option.isSome_of_eq_some found
  coresLive := by
    intro key c listed
    obtain ⟨core, isCore, _⟩ := inv.coreKeys listed
    exact Option.isSome_of_eq_some isCore
  aliasesLive := by
    intro key a listed
    obtain ⟨info, found, _⟩ := inv.aliasKeys listed
    exact Option.isSome_of_eq_some found

theorem Inv.empty : Inv casemap none none (State.empty : State α ν) where
  pointed := nofun
  member := nofun
  nodup := nofun
  displayed := nofun
  coreListed := nofun
  aliasListed := nofun
  coreKeys := nofun
  aliasKeys := nofun

variable [DecidableEq α] [DecidableEq ν]

/-- An alias leaves its account. -/
theorem Inv.leaveCore (inv : Inv casemap none none s) {a : α} {info : NickAlias ν}
    (found : s.aliases a = some info) (ready : Ready casemap s (.deleteAlias a)) :
    Inv casemap (some a) none (s.leaveCore casemap a info) ∧
      ∃ left, (s.leaveCore casemap a info).aliases a = some left ∧ left.nick = info.nick := by
  obtain ⟨c, core, points, isCore, mem⟩ := inv.pointed found nofun
  have unlisted := inv.unlist found points isCore
  have isLeft : (s.putCore c { core with aliases := core.aliases.erase a }).cores c =
      some { core with aliases := core.aliases.erase a } := Function.update_self ..
  rw [State.leaveCore, points]
  simp only [isCore]
  split
  · rename_i last
    refine ⟨unlisted.deleteCore (.inr rfl) isLeft (List.isEmpty_iff.mp last), ?_⟩
    rw [State.deleteCore, isLeft]
    exact ⟨_, congrArg (Option.map _) found, rfl⟩
  · rename_i others
    have left : core.aliases.erase a ≠ [] := fun none => others (List.isEmpty_iff.mpr none)
    split
    · rename_i shown
      obtain ⟨b, next, picked, different, isNext⟩ :=
        inv.nextDisplay_of_unlist isCore left shown
      have clear := ready info c core found points isCore shown b next picked
      refine ⟨unlisted.setDisplay (.inr rfl) isLeft isNext clear
        (fun is => different (Option.some.inj is).symm), info, ?_, rfl⟩
      rw [State.setDisplay_eq casemap isLeft isNext]
      exact found
    · rename_i notShown
      obtain ⟨b, next, isShown, memShown, known, same⟩ :=
        inv.displayed isCore nofun (List.ne_nil_of_mem mem)
      refine ⟨unlisted.refresh isLeft ⟨b, next, isShown, ?_, known, same⟩, info, found, rfl⟩
      refine (inv.nodup isCore).mem_erase_iff.mpr ⟨?_, memShown⟩
      rintro rfl
      exact notShown isShown

/-- A nickname is registered with an account that there is. -/
theorem step_newAlias {a : α} {nickname : Str} {registered : Int} {c : ν}
    (stepped : Account.step casemap s (.newAlias a nickname registered c) = some s') :
    ∃ core, s.cores c = some core ∧ s.aliases a = none ∧
      s' = s.newAlias casemap a nickname registered c core := by
  cases isCore : s.cores c with
  | none =>
      rw [Account.step, isCore] at stepped
      cases stepped
  | some core =>
      rw [Account.step, isCore] at stepped
      obtain ⟨⟨new, _⟩, ⟨⟩⟩ := Option.ite_none_right_eq_some.mp stepped
      exact ⟨core, rfl, new, rfl⟩

/-- Step lemma. -/
theorem Inv.step (inv : Inv casemap none none s) {action : Action α ν}
    (ready : Ready casemap s action) (stepped : Account.step casemap s action = some s') :
    Inv casemap none none s' := by
  cases action with
  | newCore c coredisplay =>
      obtain ⟨⟨new, _⟩, ⟨⟩⟩ := Option.ite_none_right_eq_some.mp stepped
      exact inv.newCore new ready
  | newAlias a nickname registered c =>
      obtain ⟨core, isCore, new, rfl⟩ := step_newAlias stepped
      exact inv.newAlias new isCore registered ready.1 (ready.2 core isCore)
  | setDisplay c na =>
      obtain ⟨⟨known, _⟩, ⟨⟩⟩ := Option.ite_none_right_eq_some.mp stepped
      obtain ⟨core, isCore⟩ := Option.isSome_iff_exists.mp known
      cases next : s.nextDisplay c core na with
      | none =>
          rw [State.setDisplay, isCore]
          simp only [next]
          exact inv
      | some picked =>
          exact inv.setDisplay (.inl rfl) isCore next (ready core _ _ isCore next)
            (Option.some_ne_none picked.1).symm
  | deleteCore c =>
      obtain ⟨known, ⟨⟩⟩ := Option.ite_none_right_eq_some.mp stepped
      obtain ⟨core, isCore⟩ := Option.isSome_iff_exists.mp known
      exact inv.deleteCore (.inl rfl) isCore (ready core isCore)
  | deleteAlias a =>
      obtain ⟨known, ⟨⟩⟩ := Option.ite_none_right_eq_some.mp stepped
      obtain ⟨info, found⟩ := Option.isSome_iff_exists.mp known
      obtain ⟨left, info', found', sameNick⟩ := inv.leaveCore found ready
      rw [State.deleteAlias, found]
      simp only []
      rw [← sameNick]
      exact left.freeAlias found'

omit [DecidableEq α] [DecidableEq ν] in
/-- Two accounts with one name, one of which has the entry. -/
theorem Agree.eq_of_same_name (agree : Agree casemap s) {c c' : ν} {core : NickCore α}
    (isCore : s.cores c = some core) {key : Str}
    (listed : s.nickCoreList.lookup key = some c')
    (same : casemap.ciStr core.display = key) : c = c' := by
  have own := agree.coreListed isCore
  rw [same, listed] at own
  exact (Option.some.inj own).symm

/-- Only from a step that finds what it has to the tables agree again. -/
theorem Inv.ready_of_agree (inv : Inv casemap none none s) {action : Action α ν}
    (stepped : Account.step casemap s action = some s') (agree : Agree casemap s') :
    Ready casemap s action := by
  cases action with
  | newCore c coredisplay =>
      obtain ⟨⟨new, _⟩, ⟨⟩⟩ := Option.ite_none_right_eq_some.mp stepped
      rw [Ready]
      by_contra taken
      obtain ⟨c', listed⟩ := Option.ne_none_iff_exists'.mp taken
      obtain ⟨core', isCore', same⟩ := inv.coreKeys listed
      have different : c' ≠ c := by
        rintro rfl
        rw [new] at isCore'
        cases isCore'
      refine different (agree.eq_of_same_name ?_ (AList.lookup_insert _) same)
      exact (Function.update_of_ne different ..).trans isCore'
  | newAlias a nickname registered c =>
      obtain ⟨core, isCore, new, rfl⟩ := step_newAlias stepped
      constructor
      · by_contra taken
        obtain ⟨a', listed⟩ := Option.ne_none_iff_exists'.mp taken
        obtain ⟨info, found, same⟩ := inv.aliasKeys listed
        have different : a' ≠ a := by
          rintro rfl
          rw [new] at found
          cases found
        have own := agree.aliasListed ((Function.update_of_ne different ..).trans found)
        rw [same] at own
        exact different (Option.some.inj (own.symm.trans (AList.lookup_insert _)))
      · intro core' isCore' empty
        rw [isCore] at isCore'
        cases isCore'
        obtain ⟨b, mem, info, found, same⟩ := agree.displayed (Function.update_self c _ _)
          (List.append_ne_nil_of_right_ne_nil _ (List.cons_ne_nil a []))
        rw [empty, List.nil_append, List.mem_singleton] at mem
        subst mem
        have made := (Function.update_self b _ s.aliases).symm.trans found
        cases made
        exact same
  | setDisplay c na =>
      obtain ⟨⟨known, _⟩, ⟨⟩⟩ := Option.ite_none_right_eq_some.mp stepped
      intro core a info isCore next other listed
      by_contra different
      obtain ⟨core', isCore', same⟩ := inv.coreKeys listed
      rw [State.setDisplay_eq casemap isCore next] at agree
      refine different (agree.eq_of_same_name ?_ (AList.lookup_insert _) same)
      exact (Function.update_of_ne different ..).trans isCore'
  | deleteCore c =>
      obtain ⟨_, ⟨⟩⟩ := Option.ite_none_right_eq_some.mp stepped
      intro core isCore
      by_contra aliases
      obtain ⟨a, mem⟩ := List.exists_mem_of_ne_nil _ aliases
      obtain ⟨_, info, found, points⟩ := inv.member isCore mem
      rw [State.deleteCore, isCore] at agree
      obtain ⟨c', points', _⟩ := agree.pointed (congrArg (Option.map _) found)
      have kept := Option.filter_eq_some_iff.mp points'
      rw [points] at kept
      cases kept.1
      exact of_decide_eq_true kept.2 rfl
  | deleteAlias a =>
      obtain ⟨_, ⟨⟩⟩ := Option.ite_none_right_eq_some.mp stepped
      intro info c core found points isCore shown next nextInfo picked other listed
      by_contra different
      obtain ⟨core', isCore', same⟩ := inv.coreKeys listed
      have left : core.aliases.erase a ≠ [] := List.ne_nil_of_mem (State.oldest_spec.1 picked).1
      obtain ⟨b, next', picked', _, isNext⟩ := inv.nextDisplay_of_unlist isCore left shown
      rw [picked] at picked'
      cases picked'
      have isLeft : (s.putCore c { core with aliases := core.aliases.erase a }).cores c =
          some { core with aliases := core.aliases.erase a } := Function.update_self ..
      rw [State.deleteAlias, found] at agree
      simp only [State.leaveCore_eq_setDisplay casemap points isCore left shown,
        State.setDisplay_eq casemap isLeft isNext] at agree
      have kept (first second : Option (NickCore α)) :
          Function.update (Function.update s.cores c first) c second other = some core' :=
        (Function.update_of_ne different ..).trans
          ((Function.update_of_ne different ..).trans isCore')
      exact different (agree.eq_of_same_name (congrArg (Option.map _) (kept _ _))
        (AList.lookup_insert _) same)

/-- **When the account tables agree.** They agree in every state of a run exactly
when every step of the run finds what it has to. -/
theorem always_agree_iff (casemap : Casemap) (actions : List (Action α ν)) :
    Always (Account.step casemap) (Agree casemap) State.empty actions ↔
      EachStep (Account.step casemap) (Ready casemap) State.empty actions :=
  always_iff_eachStep_of_kept (Inv casemap none none)
    (fun inv _ agree stepped => inv.step (inv.ready_of_agree stepped agree) stepped)
    (fun inv _ stepped => ⟨inv.ready_of_agree stepped, fun ready => (inv.step ready stepped).agree⟩)
    Inv.empty Inv.empty.agree actions

/-- The account `a` gets the nick `b` before any other. -/
def otherFirstNick : List (Action Nat Nat) :=
  [.newCore 0 (ascii "a"), .newAlias 0 (ascii "b") 0 0]

theorem not_always_agree_otherFirstNick :
    ¬Always (Account.step .ascii) (Agree .ascii) State.empty otherFirstNick := by
  intro always
  have runs : (run (Account.step .ascii) State.empty otherFirstNick).isSome = true := by
    decide +kernel
  obtain ⟨final, reached⟩ := Option.isSome_iff_exists.mp runs
  have agree := always.of_run reached
  have observed : ((run (Account.step .ascii) State.empty otherFirstNick).map fun s =>
      ((s.cores 0).map fun core => (core.display, core.aliases),
        (s.aliases 0).map NickAlias.nick)) =
      some (some (ascii "a", [0]), some (ascii "b")) := by
    decide +kernel
  simp only [reached, Option.map_some, Option.some.injEq, Prod.mk.injEq] at observed
  obtain ⟨isCore, isAlias⟩ := observed
  obtain ⟨core, foundCore, fields⟩ := Option.map_eq_some_iff.mp isCore
  obtain ⟨display, aliases⟩ := Prod.mk.inj fields
  obtain ⟨other, foundAlias, nick⟩ := Option.map_eq_some_iff.mp isAlias
  obtain ⟨a, mem, info, found, same⟩ := agree.displayed foundCore (by
    rw [aliases]
    exact List.cons_ne_nil 0 [])
  rw [aliases, List.mem_singleton] at mem
  subst mem
  rw [foundAlias] at found
  cases found
  rw [nick, display] at same
  exact absurd same (by decide +kernel)

end Anope.Account
