import Anope.Reference.Invariant
import Mathlib.Data.List.Basic

/-!
# Destroying channels and accounts

The handlers of a destroyed channel and of a destroyed account are loops over
operations on single channels, so they keep the invariant.  A channel refers to
nothing when its memory is freed.
-/

namespace Anope.Reference

open Anope.Text

variable {χ ν δ : Type} [LinearOrder χ] [DecidableEq ν]

/-! ## Clearing lists -/

omit [LinearOrder χ] [DecidableEq ν] in
theorem drop_eraseIdx {α : Type} (list : List α) (index : Nat) :
    (list.eraseIdx index).drop index = list.drop (index + 1) := by
  induction list generalizing index with
  | nil => rw [List.eraseIdx_nil, List.drop_nil, List.drop_nil]
  | cons element list ih =>
      cases index with
      | zero => rfl
      | succ index => exact ih index

namespace State

variable {env : Env δ} {ci : χ}

theorem view_clearAccess (size : Nat) (s : State χ ν δ) :
    (s.clearAccess env ci size).view = s.view.modify ci fun info =>
      { info with access := info.access.drop size } := by
  induction size generalizing s with
  | zero => exact (View.modify_eq_self fun _ _ => rfl).symm
  | succ size ih =>
      rw [clearAccess, ih, view_deleteAccess, View.modify_modify]
      refine View.modify_congr fun info _ => ?_
      simp only [Function.comp_apply, drop_eraseIdx]

theorem view_eraseAKick (index : Nat) (s : State χ ν δ) :
    (s.eraseAKick ci index).view = s.view.modify ci fun info =>
      { info with akicks := info.akicks.eraseIdx index } := by
  rw [eraseAKick]
  split
  · rw [view_modifyCore, view_modifyChannel]
    exact fun _ => rfl
  · rename_i missing
    refine (View.modify_eq_self fun shown channel => ?_).symm
    obtain ⟨info, found, rfl⟩ := channels_view_eq_some.mp channel
    rw [found, Option.bind_some] at missing
    have unchanged : info.content.akicks.eraseIdx index = info.content.akicks :=
      List.eraseIdx_of_length_le (List.getElem?_eq_none_iff.mp missing)
    rw [unchanged]

theorem view_clearAKick (size : Nat) (s : State χ ν δ) :
    (s.clearAKick ci size).view = s.view.modify ci fun info =>
      { info with akicks := info.akicks.drop size } := by
  induction size generalizing s with
  | zero => exact (View.modify_eq_self fun _ _ => rfl).symm
  | succ size ih =>
      rw [clearAKick, ih, view_eraseAKick, View.modify_modify]
      refine View.modify_congr fun info _ => ?_
      simp only [Function.comp_apply, drop_eraseIdx]

end State

/-! ## What handlers leave alone -/

/-- The names and accounts are the same, and no akick is new to a channel that
had none. -/
structure View.Steady (v v' : View χ ν δ) : Prop where
  lists : v'.registeredChannelList = v.registeredChannelList
  aliases : v'.nickAliasList = v.nickAliasList
  lives : v'.live = v.live
  names : ∀ ci, (v'.channels ci).map ChannelInfo.name = (v.channels ci).map ChannelInfo.name
  akicks : ∀ ci, (v.channels ci).map ChannelInfo.akicks = some [] →
    (v'.channels ci).map ChannelInfo.akicks = some []

namespace View.Steady

omit [LinearOrder χ] [DecidableEq ν] in
theorem refl (v : View χ ν δ) : v.Steady v :=
  ⟨rfl, rfl, rfl, fun _ => rfl, fun _ none => none⟩

omit [LinearOrder χ] [DecidableEq ν] in
theorem trans {v v' v'' : View χ ν δ} (first : v.Steady v') (second : v'.Steady v'') :
    v.Steady v'' where
  lists := second.lists.trans first.lists
  aliases := second.aliases.trans first.aliases
  lives := second.lives.trans first.lives
  names := fun ci => (second.names ci).trans (first.names ci)
  akicks := fun ci none => second.akicks ci (first.akicks ci none)

omit [DecidableEq ν] in
theorem modify (v : View χ ν δ) (ci : χ) {write : ChannelInfo ν δ → ChannelInfo ν δ}
    (name : ∀ info, (write info).name = info.name)
    (akicks : ∀ info, info.akicks = [] → (write info).akicks = []) :
    v.Steady (v.modify ci write) where
  lists := rfl
  aliases := rfl
  lives := rfl
  names := by
    intro other
    by_cases same : other = ci
    · subst same
      rw [View.channels_modify_self, Option.map_map]
      exact congrArg (Option.map · _) (funext name)
    · rw [View.channels_modify_ne same]
  akicks := by
    intro other none
    by_cases same : other = ci
    · subst same
      obtain ⟨info, found, empty⟩ := Option.map_eq_some_iff.mp none
      rw [View.channels_modify_self, found, Option.map_some, Option.map_some, akicks info empty]
    · rw [View.channels_modify_ne same]
      exact none

end View.Steady

/-! ## The handlers of a destroyed channel -/

namespace Inv

variable {env : Env δ} {directory : Str → Option χ} {s : State χ ν δ} {ci : χ}

/-- A handler keeps the invariant and what is steady. -/
def Kept (env : Env δ) (directory : Str → Option χ) (s s' : State χ ν δ) : Prop :=
  Inv env directory s' ∧ s.view.Steady s'.view

theorem Kept.refl (inv : Inv env directory s) : Kept env directory s s :=
  ⟨inv, .refl _⟩

theorem Kept.trans {s s' s'' : State χ ν δ} (first : Kept env directory s s')
    (second : Kept env directory s' s'') : Kept env directory s s'' :=
  ⟨second.1, first.2.trans second.2⟩

theorem kept_deleteAccess (inv : Inv env directory s) (index : Nat) :
    Kept env directory s (s.deleteAccess env ci index) := by
  refine ⟨inv.deleteAccess index, ?_⟩
  rw [State.view_deleteAccess]
  exact .modify _ _ (fun _ => rfl) fun _ none => none

theorem kept_eraseAKick (inv : Inv env directory s) (index : Nat) :
    Kept env directory s (s.eraseAKick ci index) := by
  refine ⟨inv.eraseAKick index, ?_⟩
  rw [State.view_eraseAKick]
  refine .modify _ _ (fun _ => rfl) fun info none => ?_
  simp only [none, List.eraseIdx_nil]

theorem kept_clearAccess (size : Nat) {s : State χ ν δ} (inv : Inv env directory s) :
    Kept env directory s (s.clearAccess env ci size) := by
  induction size generalizing s with
  | zero => exact .refl inv
  | succ size ih =>
      have deleted : Kept env directory s (s.deleteAccess env ci size) :=
        inv.kept_deleteAccess size
      exact deleted.trans (ih deleted.1)

theorem kept_clearAKick (size : Nat) {s : State χ ν δ} (inv : Inv env directory s) :
    Kept env directory s (s.clearAKick ci size) := by
  induction size generalizing s with
  | zero => exact .refl inv
  | succ size ih =>
      have erased : Kept env directory s (s.eraseAKick ci size) := inv.kept_eraseAKick size
      exact erased.trans (ih erased.1)

theorem kept_delChanEntries (inv : Inv env directory s) :
    Kept env directory s (s.delChanEntries env ci) := by
  rw [State.delChanEntries]
  split
  · refine List.foldlRecOn _ _ (.refl inv) fun s' kept chan _ => ?_
    split
    · split
      · exact kept.trans (kept.1.kept_deleteAccess _)
      · exact kept
    · exact kept
  · exact .refl inv

theorem kept_delChanAKicks (inv : Inv env directory s) :
    Kept env directory s (s.delChanAKicks ci) := by
  rw [State.delChanAKicks]
  split
  · exact inv.kept_clearAKick _
  · exact .refl inv

theorem akicks_delChanAKicks (known : (s.view.channels ci).isSome) :
    ((s.delChanAKicks ci).view.channels ci).map ChannelInfo.akicks = some [] := by
  obtain ⟨shown, isShown⟩ := Option.isSome_iff_exists.mp known
  obtain ⟨info, found, rfl⟩ := State.channels_view_eq_some.mp isShown
  rw [State.delChanAKicks, found]
  simp only []
  rw [State.view_clearAKick, View.channels_modify_self, isShown, Option.map_some, Option.map_some]
  exact congrArg some List.drop_length

/-- After `OnDelChan` the channel has no akicks. -/
theorem kept_onDelChan (inv : Inv env directory s) (known : (s.view.channels ci).isSome) :
    Kept env directory s (s.onDelChan env ci) ∧
      ((s.onDelChan env ci).view.channels ci).map ChannelInfo.akicks = some [] := by
  rw [State.onDelChan]
  split
  · have akicks : Kept env directory s (s.delChanAKicks ci) := inv.kept_delChanAKicks
    have entries : Kept env directory (s.delChanAKicks ci)
        ((s.delChanAKicks ci).delChanEntries env ci) := akicks.1.kept_delChanEntries
    exact ⟨akicks.trans entries, entries.2.akicks ci (akicks_delChanAKicks known)⟩
  · have entries : Kept env directory s (s.delChanEntries env ci) := inv.kept_delChanEntries
    refine ⟨entries.trans entries.1.kept_delChanAKicks, akicks_delChanAKicks ?_⟩
    have names := congrArg Option.isSome (entries.2.names ci)
    rw [Option.isSome_map, Option.isSome_map, known] at names
    exact names

/-! ## Destroying a channel -/

/-- A name that is no longer registered. -/
theorem unlist (inv : Inv env directory s) (key : Str) :
    Inv env directory { s with registeredChannelList := s.registeredChannelList.erase key } := by
  have listed {other : Str} {ci : χ}
      (erased : (s.registeredChannelList.erase key).lookup other = some ci) :
      s.registeredChannelList.lookup other = some ci := by
    by_cases same : other = key
    · rw [same, AList.lookup_erase] at erased
      cases erased
    · rwa [AList.lookup_erase_ne same] at erased
  exact ⟨{ inv.wellFormed with listed := fun erased => inv.wellFormed.listed (listed erased) },
    inv.counts.account, fun erased => inv.counts.channel (listed erased)⟩

theorem kept_setFounder (inv : Inv env directory s) {shown : ChannelInfo ν δ}
    (isShown : s.view.channels ci = some shown) {nc : Option ν}
    (live : ∀ {other}, nc = some other → s.view.live other = true) :
    Kept env directory s (s.setFounder ci nc) := by
  obtain ⟨info, found, _⟩ := State.channels_view_eq_some.mp isShown
  refine ⟨inv.setFounder found live, ?_⟩
  rw [State.view_setFounder]
  exact .modify _ _ (fun _ => rfl) fun _ none => none

theorem kept_setSuccessor (inv : Inv env directory s) {shown : ChannelInfo ν δ}
    (isShown : s.view.channels ci = some shown) {nc : Option ν}
    (live : ∀ {other}, nc = some other → s.view.live other = true) :
    Kept env directory s (s.setSuccessor ci nc) := by
  obtain ⟨info, found, _⟩ := State.channels_view_eq_some.mp isShown
  refine ⟨inv.setSuccessor found live, ?_⟩
  rw [State.view_setSuccessor]
  exact .modify _ _ (fun _ => rfl) fun _ none => none

/-- A channel without akicks then refers to nothing. -/
theorem kept_releaseAll (inv : Inv env directory s) {shown : ChannelInfo ν δ}
    (isShown : s.view.channels ci = some shown) :
    Kept env directory s (s.releaseAll env ci) ∧
      (s.releaseAll env ci).view.channels ci =
        some { shown with founder := none, successor := none, access := [] } := by
  have founder : Kept env directory s (s.setFounder ci none) := inv.kept_setFounder isShown nofun
  have afterFounder : (s.setFounder ci none).view.channels ci =
      some { shown with founder := none } := by
    rw [State.view_setFounder, View.channels_modify_self, isShown, Option.map_some]
  have successor : Kept env directory (s.setFounder ci none)
      ((s.setFounder ci none).setSuccessor ci none) :=
    founder.1.kept_setSuccessor afterFounder nofun
  have afterSuccessor : ((s.setFounder ci none).setSuccessor ci none).view.channels ci =
      some { shown with founder := none, successor := none } := by
    rw [State.view_setSuccessor, View.channels_modify_self, afterFounder, Option.map_some]
  obtain ⟨info, found, isInfo⟩ := State.channels_view_eq_some.mp afterSuccessor
  have sameAccess := congrArg ChannelInfo.access isInfo
  change info.access = shown.access at sameAccess
  rw [State.releaseAll]
  simp only [found, Option.elim_some]
  refine ⟨founder.trans (successor.trans (successor.1.kept_clearAccess _)), ?_⟩
  rw [State.view_clearAccess, View.channels_modify_self, afterSuccessor, Option.map_some,
    sameAccess, List.drop_length]

/-- The memory of a channel that is not registered and refers to nothing. -/
theorem free (inv : Inv env directory s) {info : ChannelInfo ν δ}
    (found : s.view.channels ci = some info)
    (unlisted : ∀ key, s.registeredChannelList.lookup key ≠ some ci)
    (noRoles : ∀ nc, info.roles nc = 0) (noNames : ∀ key, info.naming env key = 0) :
    Inv env (fun key => if key = env.casemap.ciStr info.name then none else directory key)
      { s with channels := Function.update s.channels ci none } := by
  have gone : (Function.update s.channels ci none) ci = none := Function.update_self ..
  have kept {other : χ} (different : other ≠ ci) :
      (Function.update s.channels ci none) other = s.channels other :=
    Function.update_of_ne different ..
  have known := inv.wellFormed.known found
  have others {other : χ} {after : ChannelInfo ν δ}
      (foundAfter : ((Function.update s.channels ci none) other).map ChannelInfo.content =
        some after) : other ≠ ci ∧ s.view.channels other = some after := by
    by_cases same : other = ci
    · rw [same, gone] at foundAfter
      cases foundAfter
    · rw [kept same] at foundAfter
      exact ⟨same, foundAfter⟩
  have elsewhere {key : Str} {other : χ} (different : other ≠ ci)
      (is : directory key = some other) : key ≠ env.casemap.ciStr info.name := by
    rintro rfl
    exact different (Option.some.inj (is.symm.trans known))
  constructor
  · constructor
    · intro key other listed
      have is := inv.wellFormed.listed listed
      have different : other ≠ ci := by
        rintro rfl
        exact unlisted key listed
      rw [if_neg (elsewhere different is)]
      exact is
    · intro other after foundAfter
      obtain ⟨different, before⟩ := others foundAfter
      have is := inv.wellFormed.known before
      rw [if_neg (elsewhere different is)]
      exact is
    · intro key other is
      split at is
      · cases is
      · rename_i otherKey
        obtain ⟨before, foundBefore, rfl⟩ := inv.wellFormed.named is
        have different : other ≠ ci := by
          rintro rfl
          rw [found] at foundBefore
          cases foundBefore
          exact otherKey rfl
        exact ⟨before, (congrArg (Option.map _) (kept different)).trans foundBefore, rfl⟩
    · rw [inv.wellFormed.nonempty, ite_self]
    · intro other after nc foundAfter
      exact inv.wellFormed.live (others foundAfter).2
    · intro other after a foundAfter
      exact inv.wellFormed.masks (others foundAfter).2
  · refine ⟨fun {nc core} isCore other => ?_, fun {key other after} listed foundAfter what => ?_⟩
    · rw [inv.counts.account isCore, View.held, View.held]
      by_cases same : other = ci
      · subst same
        rw [found, Option.elim_some, noRoles]
        simp only [State.view, gone, Option.map_none, Option.elim_none]
      · simp only [State.view, kept same]
    · have different : other ≠ ci := by
        rintro rfl
        exact unlisted key listed
      rw [inv.counts.channel listed ((kept different).symm.trans foundAfter), View.naming,
        View.naming]
      by_cases same : what = env.casemap.ciStr info.name
      · rw [if_pos same, same, known, Option.bind_some, found, Option.elim_some, noNames]
        rfl
      · rw [if_neg same]
        cases is : directory what with
        | none => rfl
        | some place =>
            obtain ⟨before, foundBefore, rfl⟩ := inv.wellFormed.named is
            have different : place ≠ ci := by
              rintro rfl
              rw [found] at foundBefore
              cases foundBefore
              exact same rfl
            simp only [Option.bind_some, State.view, kept different]

end Inv

/-! ## Between two transitions -/

/-- Between two transitions all channels in memory are registered. -/
def AtRest (env : Env δ) (s : State χ ν δ) : Prop :=
  Inv env (fun key => s.registeredChannelList.lookup key) s

/-- The accounts, and the nicks of accounts, are the same. -/
def SameAccounts (s s' : State χ ν δ) : Prop :=
  s'.view.live = s.view.live ∧ s'.nickAliasList = s.nickAliasList

namespace AtRest

variable {env : Env δ} {s : State χ ν δ} {ci : χ}

theorem of_kept {s' : State χ ν δ} (kept : Inv.Kept env (s.registeredChannelList.lookup ·) s s') :
    AtRest env s' := by
  have names : s'.registeredChannelList = s.registeredChannelList := kept.2.lists
  rw [AtRest, names]
  exact kept.1

/-- A channel is registered under its own name only. -/
theorem notListed (rest : AtRest env s) {info : ChannelInfo ν δ}
    (shown : s.view.channels ci = some info.content) (key : Str) :
    (s.registeredChannelList.erase (env.casemap.ciStr info.name)).lookup key ≠ some ci := by
  intro listed
  by_cases same : key = env.casemap.ciStr info.name
  · rw [same, AList.lookup_erase] at listed
    cases listed
  · rw [AList.lookup_erase_ne same] at listed
    obtain ⟨other, found, rfl⟩ := rest.wellFormed.named listed
    rw [shown] at found
    cases found
    exact same rfl

/-- Destroying a channel. -/
theorem deleteChannel (rest : AtRest env s) :
    AtRest env (s.deleteChannel env ci) ∧ SameAccounts s (s.deleteChannel env ci) := by
  rw [State.deleteChannel]
  split
  · rename_i info found
    have shown : s.view.channels ci = some info.content := Inv.view_found found
    obtain ⟨handled, noAKicks⟩ := rest.kept_onDelChan (Option.isSome_of_eq_some shown)
    obtain ⟨after, foundAfter, akicks⟩ := Option.map_eq_some_iff.mp noAKicks
    have name : after.name = info.name := by
      have names := handled.2.names ci
      rw [foundAfter, shown] at names
      exact Option.some.inj names
    have lists : (s.onDelChan env ci).registeredChannelList = s.registeredChannelList :=
      handled.2.lists
    obtain ⟨released, foundReleased⟩ :=
      (handled.1.unlist (env.casemap.ciStr info.name)).kept_releaseAll foundAfter
    have releasedLists := released.2.lists.trans (congrArg (AList.erase _) lists)
    refine ⟨?_, released.2.lives.trans handled.2.lives, released.2.aliases.trans handled.2.aliases⟩
    have freed := released.1.free foundReleased
      (fun key listed => rest.notListed shown key
        ((congrArg (AList.lookup key) releasedLists).symm.trans listed)) (fun nc => ?_) fun key => ?_
    · have directory : (fun key => if key = env.casemap.ciStr after.name then none
          else s.registeredChannelList.lookup key) =
          fun key => (s.registeredChannelList.erase (env.casemap.ciStr info.name)).lookup key := by
        funext key
        rw [name]
        by_cases same : key = env.casemap.ciStr info.name
        · rw [if_pos same, same, AList.lookup_erase]
        · rw [if_neg same, AList.lookup_erase_ne same]
      rw [directory, ← releasedLists] at freed
      exact freed
    · simp only [ChannelInfo.roles, akicks, List.countP_nil, reduceCtorEq, if_false]
    · simp only [ChannelInfo.naming, List.countP_nil]
  · exact ⟨rest, rfl, rfl⟩

/-! ## The handlers of a destroyed account -/

theorem sameAccounts_of_kept {directory : Str → Option χ} {s' : State χ ν δ}
    (kept : Inv.Kept env directory s s') : SameAccounts s s' :=
  ⟨kept.2.lives, kept.2.aliases⟩

theorem kept_leaveChannel {directory : Str → Option χ} (inv : Inv env directory s) (nc : ν)
    (ci : χ) : Inv.Kept env directory s (s.leaveChannel env nc ci) := by
  have left : Inv.Kept env directory s (if (s.channels ci).bind ChannelInfo.successor = some nc then
      s.setSuccessor ci none else s) := by
    split
    · rename_i successor
      obtain ⟨info, found, _⟩ := Option.bind_eq_some_iff.mp successor
      exact inv.kept_setSuccessor (Inv.view_found found) nofun
    · exact .refl inv
  rw [State.leaveChannel]
  split
  · exact left.trans (left.1.kept_deleteAccess _)
  · exact left

omit [LinearOrder χ] in
theorem mayOwn_of_highestAccess {nc owner : ν} {access : List (ChanAccess ν δ)}
    (highest : (s.highestAccess env nc access).bind ChanAccess.nc = some owner) :
    s.mayOwn env owner = true := by
  have known : ∀ ca, s.highestAccess env nc access = some ca →
      ca.nc.any (fun anc => s.mayOwn env anc && anc ≠ nc) = true := by
    rw [State.highestAccess]
    refine List.foldlRecOn _ _ (motive := fun highest : Option (ChanAccess ν δ) =>
      ∀ ca, highest = some ca → ca.nc.any (fun anc => s.mayOwn env anc && anc ≠ nc) = true)
      nofun fun highest known ca _ other isOther => ?_
    split at isOther
    · rename_i fits
      split at isOther
      · cases isOther
        exact fits
      · exact known other isOther
    · exact known other isOther
  obtain ⟨ca, isHighest, isOwner⟩ := Option.bind_eq_some_iff.mp highest
  have fits := known ca isHighest
  rw [isOwner, Option.any_some, Bool.and_eq_true] at fits
  exact fits.1

omit [LinearOrder χ] in
/-- A channel goes to an account that exists. -/
theorem live_of_newOwner {nc owner : ν} {info : ChannelInfo ν δ}
    (newOwner : s.newOwner env nc info = some owner) : s.view.live owner = true := by
  have mayOwn : s.mayOwn env owner = true := by
    rw [State.newOwner] at newOwner
    split at newOwner
    · rename_i successor is
      cases newOwner
      have fits := (Option.filter_eq_some_iff.mp is).2
      rw [Bool.and_eq_true] at fits
      exact fits.2
    · exact mayOwn_of_highestAccess newOwner
  cases isCore : s.cores owner with
  | none =>
      rw [State.mayOwn, isCore] at mayOwn
      cases mayOwn
  | some core => exact Option.isSome_of_eq_some isCore

/-- One round of `chanserv`'s handler. -/
theorem delCoreChannel (rest : AtRest env s) (nc : ν) (ci : χ) :
    AtRest env (s.delCoreChannel env nc ci) ∧ SameAccounts s (s.delCoreChannel env nc ci) := by
  rw [State.delCoreChannel]
  split
  · rename_i info found
    split
    · split
      · rename_i owner isOwner
        have shown : s.view.channels ci = some info.content := Inv.view_found found
        have founder : Inv.Kept env (s.registeredChannelList.lookup ·) s
            (s.setFounder ci (some owner)) :=
          Inv.kept_setFounder rest shown fun is => Option.some.inj is ▸ live_of_newOwner isOwner
        have afterFounder : (s.setFounder ci (some owner)).view.channels ci =
            some { info.content with founder := some owner } := by
          rw [State.view_setFounder, View.channels_modify_self, shown, Option.map_some]
        have successor : Inv.Kept env (s.registeredChannelList.lookup ·)
            (s.setFounder ci (some owner)) ((s.setFounder ci (some owner)).setSuccessor ci none) :=
          founder.1.kept_setSuccessor afterFounder nofun
        have kept := founder.trans (successor.trans (kept_leaveChannel successor.1 nc ci))
        exact ⟨of_kept kept, sameAccounts_of_kept kept⟩
      · exact rest.deleteChannel
    · have kept := kept_leaveChannel rest nc ci
      exact ⟨of_kept kept, sameAccounts_of_kept kept⟩
  · exact ⟨rest, rfl, rfl⟩

/-- One round of `cs_akick`'s handler. -/
theorem delCoreAKick (rest : AtRest env s) (nc : ν) (ci : χ) :
    AtRest env (s.delCoreAKick nc ci) ∧ SameAccounts s (s.delCoreAKick nc ci) := by
  rw [State.delCoreAKick]
  split
  · rename_i j _
    have kept : Inv.Kept env (s.registeredChannelList.lookup ·) s (s.eraseAKick ci j) :=
      Inv.kept_eraseAKick rest j
    exact ⟨of_kept kept, sameAccounts_of_kept kept⟩
  · exact ⟨rest, rfl, rfl⟩

/-- A loop over channels, each round of which keeps what an account's handler
may not touch. -/
theorem foldl {round : State χ ν δ → χ → State χ ν δ}
    (keeps : ∀ {s : State χ ν δ}, AtRest env s → ∀ ci,
      AtRest env (round s ci) ∧ SameAccounts s (round s ci))
    (rest : AtRest env s) (chans : List χ) :
    AtRest env (chans.foldl round s) ∧ SameAccounts s (chans.foldl round s) := by
  refine List.foldlRecOn (motive := fun s' => AtRest env s' ∧ SameAccounts s s') chans round
    ⟨rest, rfl, rfl⟩ fun s' known ci _ => ?_
  have next := keeps known.1 ci
  exact ⟨next.1, next.2.1.trans known.2.1, next.2.2.trans known.2.2⟩

theorem onDelCore (rest : AtRest env s) (nc : ν) :
    AtRest env (s.onDelCore env nc) ∧ SameAccounts s (s.onDelCore env nc) := by
  have chanserv {s : State χ ν δ} (rest : AtRest env s) :=
    rest.foldl (fun rest ci => delCoreChannel rest nc ci) (s.getChannelReferences nc)
  have akick {s : State χ ν δ} (rest : AtRest env s) :=
    rest.foldl (fun rest ci => delCoreAKick rest nc ci) (s.getChannelReferences nc)
  rw [State.onDelCore]
  split
  · have first := akick rest
    have second := chanserv first.1
    exact ⟨second.1, second.2.1.trans first.2.1, second.2.2.trans first.2.2⟩
  · have first := chanserv rest
    have second := akick first.1
    exact ⟨second.1, second.2.1.trans first.2.1, second.2.2.trans first.2.2⟩

end AtRest

/-! ## Destroying an account -/

section Invalidate

variable {nc : ν} {info : ChannelInfo ν δ}

omit [LinearOrder χ]

theorem roles_invalidateChannel {other : ν} (different : other ≠ nc) :
    (State.invalidateChannel nc info).roles other = info.roles other := by
  have same (reference : Option ν) :
      State.invalidate nc reference = some other ↔ reference = some other := by
    rw [State.invalidate, Option.filter_eq_some_iff]
    exact and_iff_left (decide_eq_true different)
  simp only [ChannelInfo.roles, State.invalidateChannel, List.countP_map, Function.comp_def, same]

theorem roles_invalidateChannel_self : (State.invalidateChannel nc info).roles nc = 0 := by
  have gone (reference : Option ν) : State.invalidate nc reference ≠ some nc := by
    intro is
    have kept := (Option.filter_eq_some_iff.mp is).2
    exact of_decide_eq_true kept rfl
  simp only [ChannelInfo.roles, State.invalidateChannel, List.countP_map, Function.comp_def, gone,
    decide_false, if_false, Nat.add_zero]
  rw [List.countP_eq_zero.mpr fun _ _ => Bool.false_ne_true,
    List.countP_eq_zero.mpr fun _ _ => Bool.false_ne_true]

/-- An entry for the destroyed account has no mask, and names no channel then. -/
theorem target_invalidate (env : Env δ) {a : ChanAccess ν δ}
    (noMask : a.nc.isSome → a.mask = []) {key : Str} (named : key ≠ []) :
    ({ a with nc := State.invalidate nc a.nc }).target env = some key ↔
      a.target env = some key := by
  cases a with
  | mk mask reference data =>
      cases reference with
      | none => exact .rfl
      | some other =>
          by_cases same : other = nc
          · have gone : State.invalidate nc (some other) = none := by
              rw [State.invalidate, Option.filter_eq_none_iff]
              rintro _ is
              cases is
              simp only [same, ne_eq, not_true_eq_false, decide_false, Bool.false_eq_true,
                not_false_eq_true]
            have empty : mask = [] := noMask rfl
            simp only [gone, ChanAccess.target, empty, reduceCtorEq, iff_false, Option.some.injEq]
            exact fun is => named is.symm
          · have kept : State.invalidate nc (some other) = some other :=
              Option.filter_eq_some_iff.mpr ⟨rfl, decide_eq_true same⟩
            rw [kept]

theorem naming_invalidateChannel (env : Env δ)
    (masks : ∀ {a}, a ∈ info.access → a.nc.isSome → a.mask = []) {key : Str} (named : key ≠ []) :
    (State.invalidateChannel nc info).naming env key = info.naming env key := by
  rw [ChannelInfo.naming, ChannelInfo.naming, State.invalidateChannel, List.countP_map]
  refine List.countP_congr fun a mem => ?_
  rw [Function.comp_apply, decide_eq_true_iff, decide_eq_true_iff]
  exact target_invalidate env (masks mem) named

end Invalidate

/-- Destroying an account; its nicks are left to the caller. -/
theorem AtRest.deleteCore {env : Env δ} {s : State χ ν δ} (rest : AtRest env s) (nc : ν) :
    AtRest env (s.deleteCore env nc) ∧
      (s.deleteCore env nc).view.live = Function.update s.view.live nc false ∧
      (s.deleteCore env nc).nickAliasList = s.nickAliasList := by
  obtain ⟨handled, lives, aliases⟩ := rest.onDelCore nc
  rw [State.deleteCore]
  generalize s.onDelCore env nc = h at handled lives aliases ⊢
  have live : (fun other => (Function.update h.cores nc none other).isSome) =
      Function.update h.view.live nc false := by
    funext other
    by_cases same : other = nc
    · rw [same, Function.update_self, Function.update_self, Option.isSome_none]
    · rw [Function.update_of_ne same, Function.update_of_ne same]
      rfl
  have channels {ci : χ} {info : ChannelInfo ν δ}
      (found : ((h.channels ci).map (State.invalidateChannel nc)).map ChannelInfo.content =
        some info) : ∃ before, h.view.channels ci = some before ∧
          info = State.invalidateChannel nc before := by
    rw [Option.map_map] at found
    obtain ⟨before, foundBefore, rfl⟩ := Option.map_eq_some_iff.mp found
    exact ⟨before.content, Inv.view_found foundBefore, rfl⟩
  refine ⟨⟨⟨?_, ?_, ?_, ?_, ?_, ?_⟩, ?_, ?_⟩, live.trans (lives ▸ rfl), aliases⟩
  · exact fun listed => listed
  · intro ci info found
    obtain ⟨before, foundBefore, rfl⟩ := channels found
    have known := handled.wellFormed.known foundBefore
    exact known
  · intro key ci known
    obtain ⟨before, foundBefore, named⟩ := handled.wellFormed.named known
    obtain ⟨raw, isRaw, rfl⟩ := State.channels_view_eq_some.mp foundBefore
    refine ⟨(State.invalidateChannel nc raw).content, ?_, named⟩
    exact congrArg (fun channel => (channel.map (State.invalidateChannel nc)).map
      ChannelInfo.content) isRaw
  · exact handled.wellFormed.nonempty
  · intro ci info other found refers
    obtain ⟨before, foundBefore, rfl⟩ := channels found
    have different : other ≠ nc := by
      rintro rfl
      rw [roles_invalidateChannel_self] at refers
      exact Nat.lt_irrefl 0 refers
    rw [roles_invalidateChannel different] at refers
    exact (congrFun live other).trans ((Function.update_of_ne different ..).trans
      (handled.wellFormed.live foundBefore refers))
  · intro ci info a found mem isSome
    obtain ⟨before, foundBefore, rfl⟩ := channels found
    obtain ⟨b, memBefore, rfl⟩ := List.mem_map.mp mem
    obtain ⟨other, is⟩ := Option.isSome_iff_exists.mp isSome
    have noMask := handled.wellFormed.masks foundBefore memBefore
      (Option.isSome_of_eq_some (Option.filter_eq_some_iff.mp is).1)
    exact noMask
  · intro other core isCore ci
    have different : other ≠ nc := by
      rintro rfl
      simp only [Function.update_self, reduceCtorEq] at isCore
    simp only [Function.update_of_ne different] at isCore
    rw [handled.counts.account isCore, View.held, View.held]
    simp only [State.view]
    cases h.channels ci with
    | none => rfl
    | some info => exact congrArg Nat.cast (roles_invalidateChannel different).symm
  · intro key ci info listed found what
    obtain ⟨before, foundBefore, rfl⟩ := Option.map_eq_some_iff.mp found
    have named : key ≠ [] := by
      rintro rfl
      rw [handled.unnamed] at listed
      cases listed
    have counted : Library.Counter.count (State.invalidateChannel nc before).references what = _ :=
      handled.counts.channel listed foundBefore what
    rw [counted, View.naming, View.naming]
    cases known : h.registeredChannelList.lookup what with
    | none => rfl
    | some place =>
        obtain ⟨shown, isShown, _⟩ := handled.wellFormed.named known
        obtain ⟨raw, isRaw, rfl⟩ := State.channels_view_eq_some.mp isShown
        simp only [Option.bind_some, State.view, isRaw, Option.map_some, Option.elim_some]
        exact congrArg Nat.cast (naming_invalidateChannel env
          (fun mem => handled.wellFormed.masks isShown mem) named).symm

end Anope.Reference
