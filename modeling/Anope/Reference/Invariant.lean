import Anope.Reference.Balance

/-!
# Operations on one channel

The invariant ties the counts of a state to what its view shows.  A channel that
is being destroyed is no longer registered while its references are released, so
the names of all channels in memory are kept apart from the registered ones.
-/

namespace Anope.Reference

open Anope.Text

variable {χ ν δ : Type}

/-- How often a channel refers to an account. -/
def View.held [DecidableEq ν] (v : View χ ν δ) (ci : χ) (nc : ν) : Int :=
  ((v.channels ci).elim 0 (ChannelInfo.roles nc) : Nat)

/-- How many entries of the channel with the name `what` name the channel with the
name `key`. -/
def View.naming (env : Env δ) (directory : Str → Option χ) (v : View χ ν δ) (what key : Str) :
    Int :=
  (((directory what).bind v.channels).elim 0 (ChannelInfo.naming env key) : Nat)

section WellFormed

variable [DecidableEq ν]

/-- `directory` has the names of all channels in memory. -/
structure View.WellFormed (env : Env δ) (directory : Str → Option χ) (v : View χ ν δ) : Prop where
  listed : ∀ {key ci}, v.registeredChannelList.lookup key = some ci → directory key = some ci
  known : ∀ {ci info}, v.channels ci = some info →
    directory (env.casemap.ciStr info.name) = some ci
  named : ∀ {key ci}, directory key = some ci →
    ∃ info, v.channels ci = some info ∧ env.casemap.ciStr info.name = key
  nonempty : directory [] = none
  live : ∀ {ci info nc}, v.channels ci = some info → 0 < info.roles nc → v.live nc = true
  masks : ∀ {ci info a}, v.channels ci = some info → a ∈ info.access → a.nc.isSome → a.mask = []

variable {env : Env δ} {directory : Str → Option χ} {v : View χ ν δ}

end WellFormed

/-! ## What a write to a channel does to the number of its references -/

namespace ChannelInfo

variable [DecidableEq ν] (info : ChannelInfo ν δ)

theorem roles_founder (new : Option ν) (nc : ν) :
    { info with founder := new }.roles nc + (if info.founder = some nc then 1 else 0) =
      info.roles nc + if new = some nc then 1 else 0 := by
  simp only [roles]
  omega

theorem roles_successor (new : Option ν) (nc : ν) :
    { info with successor := new }.roles nc + (if info.successor = some nc then 1 else 0) =
      info.roles nc + if new = some nc then 1 else 0 := by
  simp only [roles]
  omega

theorem roles_akicks_append (akick : AutoKick ν) (nc : ν) :
    { info with akicks := info.akicks ++ [akick] }.roles nc +
        (if (none : Option ν) = some nc then 1 else 0) =
      info.roles nc + if akick.nc = some nc then 1 else 0 := by
  simp only [roles, List.countP_append, List.countP_singleton, decide_eq_true_eq, reduceCtorEq,
    if_false]
  omega

theorem roles_access_append (a : ChanAccess ν δ) (nc : ν) :
    { info with access := info.access ++ [a] }.roles nc +
        (if (none : Option ν) = some nc then 1 else 0) =
      info.roles nc + if a.nc = some nc then 1 else 0 := by
  simp only [roles, List.countP_append, List.countP_singleton, decide_eq_true_eq, reduceCtorEq,
    if_false]
  omega

omit [DecidableEq ν] in
theorem naming_append (env : Env δ) (a : ChanAccess ν δ) (key : Str) :
    { info with access := info.access ++ [a] }.naming env key +
        (if (none : Option Str) = some key then 1 else 0) =
      info.naming env key + if a.target env = some key then 1 else 0 := by
  simp only [naming, List.countP_append, List.countP_singleton, decide_eq_true_eq, reduceCtorEq,
    if_false]
  omega

variable {info} {index : Nat}

omit [DecidableEq ν] in
/-- What erasing one element does to a count. -/
theorem countP_eraseIdx_add {α : Type} {list : List α} {a : α} (entry : list[index]? = some a)
    (test : α → Bool) :
    (list.eraseIdx index).countP test + (if test a = true then 1 else 0) = list.countP test := by
  obtain ⟨inside, rfl⟩ := List.getElem?_eq_some_iff.mp entry
  rw [← (List.getElem_cons_eraseIdx_perm inside).countP_eq test, List.countP_cons]

theorem roles_akicks_eraseIdx {akick : AutoKick ν} (entry : info.akicks[index]? = some akick)
    (nc : ν) :
    { info with akicks := info.akicks.eraseIdx index }.roles nc +
        (if akick.nc = some nc then 1 else 0) =
      info.roles nc + if (none : Option ν) = some nc then 1 else 0 := by
  have erased := countP_eraseIdx_add entry fun akick => akick.nc = some nc
  simp only [decide_eq_true_eq] at erased
  simp only [roles, reduceCtorEq, if_false]
  omega

theorem roles_access_eraseIdx {a : ChanAccess ν δ} (entry : info.access[index]? = some a)
    (nc : ν) :
    { info with access := info.access.eraseIdx index }.roles nc +
        (if a.nc = some nc then 1 else 0) =
      info.roles nc + if (none : Option ν) = some nc then 1 else 0 := by
  have erased := countP_eraseIdx_add entry fun a => a.nc = some nc
  simp only [decide_eq_true_eq] at erased
  simp only [roles, reduceCtorEq, if_false]
  omega

omit [DecidableEq ν] in
theorem naming_eraseIdx (env : Env δ) {a : ChanAccess ν δ} (entry : info.access[index]? = some a)
    (key : Str) :
    { info with access := info.access.eraseIdx index }.naming env key +
        (if a.target env = some key then 1 else 0) =
      info.naming env key + if (none : Option Str) = some key then 1 else 0 := by
  have erased := countP_eraseIdx_add entry fun a => a.target env = some key
  simp only [decide_eq_true_eq] at erased
  simp only [naming, reduceCtorEq, if_false]
  omega

/-- What replacing one element does to a count. -/
theorem countP_set_add {α : Type} {list : List α} {a : α} (entry : list[index]? = some a)
    (b : α) (test : α → Bool) :
    (list.set index b).countP test + (if test a = true then 1 else 0) =
      list.countP test + if test b = true then 1 else 0 := by
  obtain ⟨inside, _⟩ := List.getElem?_eq_some_iff.mp entry
  rw [(List.set_perm_cons_eraseIdx inside b).countP_eq test, List.countP_cons,
    ← countP_eraseIdx_add entry test]
  omega

theorem roles_access_set {a : ChanAccess ν δ} (entry : info.access[index]? = some a)
    (b : ChanAccess ν δ) (nc : ν) :
    { info with access := info.access.set index b }.roles nc + (if a.nc = some nc then 1 else 0) =
      info.roles nc + if b.nc = some nc then 1 else 0 := by
  have replaced := countP_set_add entry b fun a => a.nc = some nc
  simp only [decide_eq_true_eq] at replaced
  simp only [roles]
  omega

omit [DecidableEq ν] in
theorem naming_set (env : Env δ) {a : ChanAccess ν δ} (entry : info.access[index]? = some a)
    (b : ChanAccess ν δ) (key : Str) :
    { info with access := info.access.set index b }.naming env key +
        (if a.target env = some key then 1 else 0) =
      info.naming env key + if b.target env = some key then 1 else 0 := by
  have replaced := countP_set_add entry b fun a => a.target env = some key
  simp only [decide_eq_true_eq] at replaced
  simp only [naming]
  omega

end ChannelInfo

variable [LinearOrder χ] [DecidableEq ν]

/-- The counts are those of the references shown. -/
structure Inv (env : Env δ) (directory : Str → Option χ) (s : State χ ν δ) : Prop where
  wellFormed : s.view.WellFormed env directory
  counts : Counts s s.view.held (s.view.naming env directory)

namespace Inv

variable {env : Env δ} {directory : Str → Option χ} {s : State χ ν δ}

theorem oneName (inv : Inv env directory s) : s.OneName := by
  intro key key' ci listed listed'
  obtain ⟨info, found, rfl⟩ := inv.wellFormed.named (inv.wellFormed.listed listed)
  obtain ⟨info', found', rfl⟩ := inv.wellFormed.named (inv.wellFormed.listed listed')
  rw [found] at found'
  rw [Option.some.inj found']

theorem unnamed (inv : Inv env directory s) : s.registeredChannelList.lookup [] = none := by
  cases listed : s.registeredChannelList.lookup [] with
  | none => rfl
  | some ci =>
      have known := inv.wellFormed.listed listed
      rw [inv.wellFormed.nonempty] at known
      cases known

variable {s' : State χ ν δ} {ci : χ} {info : ChannelInfo ν δ}
  {write : ChannelInfo ν δ → ChannelInfo ν δ}

/-- An operation on one channel, which then refers to `new` in place of `old` and
names `newTarget` in place of `oldTarget`, keeps the invariant when the counts
follow. -/
theorem exchange (inv : Inv env directory s) (found : s.view.channels ci = some info)
    (view : s'.view = s.view.modify ci write) (name : (write info).name = info.name)
    (old new : Option ν) (oldTarget newTarget : Option Str)
    (roles : ∀ nc, (write info).roles nc + (if old = some nc then 1 else 0) =
      info.roles nc + if new = some nc then 1 else 0)
    (naming : ∀ key, (write info).naming env key + (if oldTarget = some key then 1 else 0) =
      info.naming env key + if newTarget = some key then 1 else 0)
    (live : ∀ {nc}, new = some nc → s.view.live nc = true)
    (masks : ∀ a ∈ (write info).access, a.nc.isSome → a.mask = [])
    (counts : Counts s' (gain (lose s.view.held ci old) ci new)
      (gain (lose (s.view.naming env directory) (env.casemap.ciStr info.name) oldTarget)
        (env.casemap.ciStr info.name) newTarget)) :
    Inv env directory s' := by
  have channels {other : χ} {after : ChannelInfo ν δ}
      (foundAfter : s'.view.channels other = some after) :
      (other = ci ∧ after = write info) ∨ (other ≠ ci ∧ s.view.channels other = some after) := by
    rw [view] at foundAfter
    obtain ⟨before, foundBefore, written⟩ := View.channels_modify_eq_some foundAfter
    by_cases same : other = ci
    · rw [if_pos same] at written
      rw [same, found] at foundBefore
      exact .inl ⟨same, written.trans (congrArg write (Option.some.inj foundBefore).symm)⟩
    · rw [if_neg same] at written
      exact .inr ⟨same, written ▸ foundBefore⟩
  have self : s'.view.channels ci = some (write info) := by
    rw [view, View.channels_modify_self, found, Option.map_some]
  have others {other : χ} (different : other ≠ ci) :
      s'.view.channels other = s.view.channels other := by
    rw [view, View.channels_modify_ne different]
  have lives : s'.view.live = s.view.live := by
    rw [view]
    rfl
  have lists : s'.view.registeredChannelList = s.view.registeredChannelList := by
    rw [view]
    rfl
  constructor
  · constructor
    · intro key other listed
      exact inv.wellFormed.listed (lists ▸ listed)
    · intro other after foundAfter
      rcases channels foundAfter with ⟨rfl, rfl⟩ | ⟨_, foundBefore⟩
      · rw [name]
        exact inv.wellFormed.known found
      · exact inv.wellFormed.known foundBefore
    · intro key other known
      obtain ⟨before, foundBefore, rfl⟩ := inv.wellFormed.named known
      by_cases same : other = ci
      · subst same
        rw [found] at foundBefore
        cases foundBefore
        exact ⟨write info, self, congrArg _ name⟩
      · exact ⟨before, (others same).trans foundBefore, rfl⟩
    · exact inv.wellFormed.nonempty
    · intro other after nc foundAfter refers
      rw [lives]
      rcases channels foundAfter with ⟨rfl, rfl⟩ | ⟨_, foundBefore⟩
      · by_cases isNew : new = some nc
        · exact live isNew
        · have kept := roles nc
          rw [if_neg isNew] at kept
          exact inv.wellFormed.live found (by omega)
      · exact inv.wellFormed.live foundBefore refers
    · intro other after a foundAfter mem
      rcases channels foundAfter with ⟨rfl, rfl⟩ | ⟨_, foundBefore⟩
      · exact masks a mem
      · exact inv.wellFormed.masks foundBefore mem
  · have held : gain (lose s.view.held ci old) ci new = s'.view.held := by
      funext other nc
      by_cases same : other = ci
      · subst same
        have moved := roles nc
        simp only [gain, lose, View.held, found, self, Option.elim_some, true_and]
        split at moved <;> split at moved <;> simp only [*, if_true, if_false] <;> omega
      · simp only [gain, lose, View.held, others same, same, false_and, if_false]
        omega
    have targets : gain (lose (s.view.naming env directory) (env.casemap.ciStr info.name) oldTarget)
        (env.casemap.ciStr info.name) newTarget = s'.view.naming env directory := by
      funext what key
      by_cases same : what = env.casemap.ciStr info.name
      · subst same
        have moved := naming key
        have known := inv.wellFormed.known found
        simp only [gain, lose, View.naming, known, Option.bind_some, found, self, Option.elim_some,
          true_and]
        split at moved <;> split at moved <;> simp only [*, if_true, if_false] <;> omega
      · have elsewhere : (directory what).bind s'.view.channels =
            (directory what).bind s.view.channels := by
          cases known : directory what with
          | none => rfl
          | some other =>
              obtain ⟨before, foundBefore, rfl⟩ := inv.wellFormed.named known
              refine others ?_
              rintro rfl
              rw [found] at foundBefore
              cases foundBefore
              exact same rfl
        simp only [gain, lose, View.naming, elsewhere, same, false_and, if_false]
        omega
    rw [← held, ← targets]
    exact counts

/-! ## The operations -/

omit [LinearOrder χ] [DecidableEq ν] in
theorem view_found (found : s.channels ci = some info) :
    s.view.channels ci = some info.content :=
  congrArg (Option.map ChannelInfo.content) found

omit [LinearOrder χ] in
theorem held_of_found (found : s.channels ci = some info) (nc : ν) :
    s.view.held ci nc = info.roles nc := by
  rw [View.held, view_found found]
  rfl

theorem naming_of_found (inv : Inv env directory s) (found : s.channels ci = some info)
    (key : Str) :
    s.view.naming env directory (env.casemap.ciStr info.name) key = info.naming env key := by
  have shown := view_found found
  have known := inv.wellFormed.known shown
  change directory (env.casemap.ciStr info.name) = some ci at known
  rw [View.naming, known, Option.bind_some, shown]
  rfl

theorem masks_of_found (inv : Inv env directory s) (found : s.channels ci = some info)
    {a : ChanAccess ν δ} (mem : a ∈ info.access) : a.nc.isSome → a.mask = [] :=
  inv.wellFormed.masks (view_found found) mem

theorem setFounder (inv : Inv env directory s) (found : s.channels ci = some info) {nc : Option ν}
    (live : ∀ {other}, nc = some other → s.view.live other = true) :
    Inv env directory (s.setFounder ci nc) := by
  refine inv.exchange (view_found found) State.view_setFounder rfl info.founder nc none none
    (info.content.roles_founder nc) (fun _ => rfl) live (fun _ => masks_of_found inv found) ?_
  rw [lose_none, gain_none, State.setFounder, found, Option.bind_some]
  refine Counts.modifyCore_add (Counts.modifyChannel ?_ ?_) nc ?_
  · refine inv.counts.modifyCore_remove info.founder ?_ fun {other} is => ?_
    · exact fun _ => rfl
    · rw [held_of_found found, ChannelInfo.roles, if_pos is]
      omega
  · exact fun _ => rfl
  · exact fun _ => rfl

theorem setSuccessor (inv : Inv env directory s) (found : s.channels ci = some info)
    {nc : Option ν} (live : ∀ {other}, nc = some other → s.view.live other = true) :
    Inv env directory (s.setSuccessor ci nc) := by
  refine inv.exchange (view_found found) State.view_setSuccessor rfl info.successor nc none none
    (info.content.roles_successor nc) (fun _ => rfl) live (fun _ => masks_of_found inv found) ?_
  rw [lose_none, gain_none, State.setSuccessor, found, Option.bind_some]
  refine Counts.modifyCore_add (Counts.modifyChannel ?_ ?_) nc ?_
  · refine inv.counts.modifyCore_remove info.successor ?_ fun {other} is => ?_
    · exact fun _ => rfl
    · rw [held_of_found found, ChannelInfo.roles, if_pos is]
      omega
  · exact fun _ => rfl
  · exact fun _ => rfl

theorem addAKick (inv : Inv env directory s) (found : s.channels ci = some info) {akicknc : ν}
    (live : s.view.live akicknc = true) : Inv env directory (s.addAKick ci akicknc) := by
  refine inv.exchange (view_found found) (State.view_addAKick akicknc) rfl none (some akicknc)
    none none (info.content.roles_akicks_append _) (fun _ => rfl)
    (fun is => Option.some.inj is ▸ live) (fun _ => masks_of_found inv found) ?_
  rw [lose_none, lose_none, gain_none, State.addAKick]
  refine Counts.modifyCore_add (inv.counts.modifyChannel ?_) (some akicknc) ?_
  · exact fun _ => rfl
  · exact fun _ => rfl

theorem addAKickMask (inv : Inv env directory s) (found : s.channels ci = some info) (mask : Str) :
    Inv env directory (s.addAKickMask ci mask) := by
  refine inv.exchange (view_found found) (State.view_addAKickMask mask) rfl none none none none
    (info.content.roles_akicks_append _) (fun _ => rfl) nofun (fun _ => masks_of_found inv found) ?_
  rw [lose_none, lose_none, gain_none, gain_none]
  refine inv.counts.modifyChannel ?_
  exact fun _ => rfl

/-- An index without an akick is left alone. -/
theorem eraseAKick (inv : Inv env directory s) (index : Nat) :
    Inv env directory (s.eraseAKick ci index) := by
  rw [State.eraseAKick]
  split
  · rename_i akick entry
    obtain ⟨info, found, entry⟩ := Option.bind_eq_some_iff.mp entry
    have view : (State.modifyCore (s.modifyChannel ci fun info =>
        { info with akicks := info.akicks.eraseIdx index }) akick.nc
          (·.removeChannelReference ci)).view = s.view.modify ci fun info =>
            { info with akicks := info.akicks.eraseIdx index } := by
      rw [State.view_modifyCore, State.view_modifyChannel]
      exact fun _ => rfl
    refine inv.exchange (view_found found) view rfl akick.nc none none none
      (info.content.roles_akicks_eraseIdx entry) (fun _ => rfl) nofun
      (fun _ => masks_of_found inv found) ?_
    rw [gain_none, lose_none, gain_none]
    refine Counts.modifyCore_remove (inv.counts.modifyChannel ?_) akick.nc ?_ fun {other} is => ?_
    · exact fun _ => rfl
    · exact fun _ => rfl
    · have counted := info.roles_akicks_eraseIdx entry other
      rw [if_pos is, if_neg (Option.some_ne_none other).symm] at counted
      rw [held_of_found found]
      omega
  · exact inv

omit [LinearOrder χ] in
/-- An entry for an account is counted. -/
theorem held_pos (found : s.channels ci = some info) {index : Nat} {a : ChanAccess ν δ}
    (entry : info.access[index]? = some a) {nc : ν} (is : a.nc = some nc) :
    0 < s.view.held ci nc := by
  have counted := info.roles_access_eraseIdx entry nc
  rw [if_pos is, if_neg (Option.some_ne_none nc).symm] at counted
  rw [held_of_found found]
  omega

/-- An entry that names a channel is counted. -/
theorem naming_pos (inv : Inv env directory s) (found : s.channels ci = some info) {index : Nat}
    {a : ChanAccess ν δ} (entry : info.access[index]? = some a) {key : Str}
    (is : a.target env = some key) :
    0 < s.view.naming env directory (env.casemap.ciStr info.name) key := by
  have counted := info.naming_eraseIdx env entry key
  rw [if_pos is, if_neg (Option.some_ne_none key).symm] at counted
  rw [naming_of_found inv found]
  omega

/-- An index without an entry is left alone. -/
theorem deleteAccess (inv : Inv env directory s) (index : Nat) :
    Inv env directory (s.deleteAccess env ci index) := by
  have view : (s.deleteAccess env ci index).view = _ := State.view_deleteAccess env index
  rw [State.deleteAccess] at view ⊢
  split
  · rename_i info found
    split
    · rename_i a entry
      simp only [found, entry] at view
      refine inv.exchange (view_found found) view rfl a.nc none (a.target env) none
        (info.content.roles_access_eraseIdx entry) (info.content.naming_eraseIdx env entry)
        (fun is => absurd is (Option.some_ne_none _).symm)
        (fun _ mem => masks_of_found inv found (List.mem_of_mem_eraseIdx mem)) ?_
      rw [gain_none, gain_none]
      refine Counts.releaseAccess (inv.counts.modifyChannel ?_) ?_ (held_pos found entry)
        (naming_pos inv found entry)
      · exact fun _ => rfl
      · exact inv.oneName
    · exact inv
  · exact inv

omit [LinearOrder χ] [DecidableEq ν] in
theorem masks_resolve (m : Str) (a : ChanAccess ν δ) :
    (s.resolve env m a).nc.isSome → (s.resolve env m a).mask = [] := by
  rw [State.resolve]
  split
  · exact fun _ => rfl
  · exact Bool.noConfusion

omit [LinearOrder χ] [DecidableEq ν] in
theorem live_resolve (live : ∀ {nick nc}, s.nickAliasList.lookup nick = some nc →
    s.view.live nc = true) {m : Str} {a : ChanAccess ν δ} {nc : ν}
    (is : (s.resolve env m a).nc = some nc) : s.view.live nc = true := by
  rw [State.resolve] at is
  split at is
  · rename_i other known
    cases is
    exact live known
  · cases is

theorem addAccess (inv : Inv env directory s) (found : s.channels ci = some info) (m : Str)
    (data : δ) (live : ∀ {nick nc}, s.nickAliasList.lookup nick = some nc →
      s.view.live nc = true) : Inv env directory (s.addAccess env ci m data) := by
  refine inv.exchange (view_found found) (State.view_addAccess env m data) rfl none
    (s.resolve env m _).nc none ((s.resolve env m _).target env)
    (info.content.roles_access_append _) (info.content.naming_append env _)
    (live_resolve live) (fun a mem => ?_) ?_
  · rcases List.mem_append.mp mem with old | new
    · exact masks_of_found inv found old
    · rw [List.mem_singleton.mp new]
      exact masks_resolve m _
  · have unreleased : s.releaseMask env ci info.name { mask := [], nc := none, data } = s :=
      if_pos ⟨rfl, rfl⟩
    rw [lose_none, lose_none, State.addAccess, found]
    simp only [State.setMask, unreleased]
    refine Counts.modifyChannel (inv.counts.assignMask inv.oneName m) ?_
    exact fun _ => rfl

/-- An index without an entry is left alone. -/
theorem resetMask (inv : Inv env directory s) (index : Nat) (m : Str)
    (live : ∀ {nick nc}, s.nickAliasList.lookup nick = some nc →
      s.view.live nc = true) : Inv env directory (s.resetMask env ci index m) := by
  cases found : s.channels ci with
  | none =>
      rw [State.resetMask, found]
      exact inv
  | some info =>
      cases entry : info.access[index]? with
      | none =>
          rw [State.resetMask, found]
          simp only [entry]
          exact inv
      | some a =>
          refine inv.exchange (view_found found) (State.view_resetMask env found entry m) rfl a.nc
            (s.resolve env m a).nc (a.target env) ((s.resolve env m a).target env)
            (info.content.roles_access_set entry _) (info.content.naming_set env entry _)
            (live_resolve live) (fun b mem => ?_) ?_
          · rcases List.mem_or_eq_of_mem_set mem with old | rfl
            · exact masks_of_found inv found old
            · exact masks_resolve m a
          · rw [State.resetMask, found]
            simp only [entry]
            refine Counts.modifyChannel (inv.counts.setMask inv.oneName inv.unnamed m
              (held_pos found entry) (naming_pos inv found entry)) ?_
            exact fun _ => rfl

end Inv

end Anope.Reference
