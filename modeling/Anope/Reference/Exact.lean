import Anope.Reference.Release

/-!
# When the counts balance

The counts of accounts always balance.  The counts of channels balance in every
state of a run exactly when no channel is registered under a name that an access
entry has already.
-/

namespace Anope.Reference

open Anope.Text Library.Counter Library.Run

variable {χ ν δ : Type} [LinearOrder χ] [DecidableEq ν]

omit [DecidableEq ν] in
/-- The number of entries of the channel registered as `what` that name the
channel registered as `name`. -/
def State.entriesNaming (env : Env δ) (s : State χ ν δ) (what name : Str) : Nat :=
  ((s.find env what).bind s.channels).elim 0 (ChannelInfo.naming env (env.casemap.ciStr name))

/-- The counts are the numbers of references: of every account for every
registered channel, and of every registered channel for every name. -/
structure State.Balanced (env : Env δ) (s : State χ ν δ) : Prop where
  accounts : ∀ {nc core name ci info}, s.cores nc = some core → s.find env name = some ci →
    s.channels ci = some info → count core.chanaccess ci = info.roles nc
  channels : ∀ {name ci info}, s.find env name = some ci → s.channels ci = some info →
    ∀ what, count info.references (env.casemap.ciStr what) = s.entriesNaming env what name

/-- A channel is only registered under a name that no access entry has. -/
def Unnamed (env : Env δ) (s : State χ ν δ) : Action χ ν δ → Prop
  | .createChannel _ chname =>
      ∀ ci info, s.channels ci = some info →
        ∀ a ∈ info.access, a.target env ≠ some (env.casemap.ciStr chname)
  | _ => True

/-- What holds between two transitions of such runs. -/
structure Sound (env : Env δ) (s : State χ ν δ) : Prop where
  rest : AtRest env s
  aliases : ∀ {nick nc}, s.nickAliasList.lookup nick = some nc → s.view.live nc = true

variable {env : Env δ} {s s' : State χ ν δ}

omit [DecidableEq ν] in
theorem State.channels_createChannel_self {ci : χ} {chname : Str} :
    (s.createChannel env ci chname).channels ci = some (.create chname) :=
  Function.update_self ..

omit [DecidableEq ν] in
theorem State.channels_createChannel_ne {ci other : χ} {chname : Str} (different : other ≠ ci) :
    (s.createChannel env ci chname).channels other = s.channels other :=
  Function.update_of_ne different ..

/-- A name that starts with `#` is not empty up to case. -/
theorem ciStr_ne_nil (casemap : Casemap) {chname : Str} (valid : chname.head? = some 35) :
    casemap.ciStr chname ≠ [] := by
  obtain ⟨rest, rfl⟩ := List.head?_eq_some_iff.mp valid
  exact List.cons_ne_nil _ _

theorem Sound.balanced (sound : Sound env s) : s.Balanced env where
  accounts := by
    intro nc core name ci info isCore _ found
    rw [sound.rest.counts.account isCore, Inv.held_of_found found]
  channels := by
    intro name ci info listed found what
    rw [sound.rest.counts.channel listed found, View.naming, State.entriesNaming, State.find]
    cases s.registeredChannelList.lookup (env.casemap.ciStr what) with
    | none => rfl
    | some other =>
        simp only [Option.bind_some, State.view]
        cases s.channels other <;> rfl

namespace Sound

theorem of_accounts (sound : Sound env s) (rest : AtRest env s') (same : SameAccounts s s') :
    Sound env s' where
  rest := rest
  aliases := by
    intro nick nc known
    rw [same.1]
    exact sound.aliases (same.2 ▸ known)

theorem of_kept (sound : Sound env s)
    (kept : Inv.Kept env (s.registeredChannelList.lookup ·) s s') : Sound env s' :=
  sound.of_accounts (AtRest.of_kept kept) (AtRest.sameAccounts_of_kept kept)

theorem empty : Sound env (State.empty : State χ ν δ) where
  rest := by
    refine ⟨⟨nofun, nofun, nofun, ?_, nofun, nofun⟩, nofun, nofun⟩
    exact AList.lookup_empty _
  aliases := by
    intro nick nc known
    rw [State.empty, AList.lookup_empty] at known
    cases known

/-- An operation on one channel. -/
theorem of_modify (sound : Sound env s) {ci : χ} {write : ChannelInfo ν δ → ChannelInfo ν δ}
    (inv : Inv env (s.registeredChannelList.lookup ·) s')
    (view : s'.view = s.view.modify ci write) : Sound env s' := by
  have lists : s'.registeredChannelList = s.registeredChannelList :=
    congrArg View.registeredChannelList view
  have lives : s'.view.live = s.view.live := (congrArg View.live view).trans rfl
  have aliases : s'.nickAliasList = s.nickAliasList := congrArg View.nickAliasList view
  refine sound.of_accounts ?_ ⟨lives, aliases⟩
  rw [AtRest, lists]
  exact inv

variable (sound : Sound env s) {ci : χ}
include sound

theorem createCore {nc : ν} (new : s.cores nc = none) (display : Str) (oper : Bool) :
    Sound env (s.createCore nc display oper) := by
  have dead : s.view.live nc = false := by
    rw [State.view]
    simp only [new, Option.isSome_none]
  have kept {other : ν} (live : s.view.live other = true) :
      (s.createCore nc display oper).view.live other = true := by
    have different : other ≠ nc := by
      rintro rfl
      rw [dead] at live
      cases live
    rw [← live]
    exact congrArg Option.isSome (Function.update_of_ne different ..)
  refine ⟨⟨{ sound.rest.wellFormed with
    live := fun found refers => kept (sound.rest.wellFormed.live found refers) },
      fun {other core} isCore ci => ?_, sound.rest.counts.channel⟩,
      fun known => kept (sound.aliases known)⟩
  by_cases same : other = nc
  · subst same
    have created : (s.createCore other display oper).cores other =
        some (.create display oper) := Function.update_self other _ s.cores
    rw [isCore] at created
    cases created
    have unused : s.view.held ci other = 0 := by
      rw [View.held]
      cases found : s.view.channels ci with
      | none => rfl
      | some info =>
          by_contra refers
          have refersTo : 0 < info.roles other := by
            rw [Option.elim_some] at refers
            omega
          have live : s.view.live other = true := sound.rest.wellFormed.live found refersTo
          rw [dead] at live
          cases live
    exact count_empty.trans unused.symm
  · have before : (s.createCore nc display oper).cores other = s.cores other :=
      Function.update_of_ne same _ s.cores
    exact sound.rest.counts.account (before ▸ isCore) ci

theorem createNick (nick : Str) {nc : ν} (live : (s.cores nc).isSome) :
    Sound env { s with nickAliasList := s.nickAliasList.insert nick nc } where
  rest := ⟨{ sound.rest.wellFormed with }, sound.rest.counts.account, sound.rest.counts.channel⟩
  aliases := by
    intro other nc' known
    by_cases same : other = nick
    · subst same
      rw [AList.lookup_insert] at known
      cases known
      exact live
    · rw [AList.lookup_insert_ne same] at known
      exact sound.aliases known

theorem deleteNick (nick : Str) (nc : ν) : Sound env (s.deleteNick env nick nc) := by
  have erase {left : State χ ν δ} (rest : AtRest env left)
      (aliases : ∀ {other nc'},
        (left.nickAliasList.erase (env.casemap.ciStr nick)).lookup other = some nc' →
          left.view.live nc' = true) :
      Sound env { left with
        nickAliasList := left.nickAliasList.erase (env.casemap.ciStr nick) } :=
    ⟨⟨{ rest.wellFormed with }, rest.counts.account, rest.counts.channel⟩, aliases⟩
  have before {other : Str} {nc' : ν}
      (known : (s.nickAliasList.erase (env.casemap.ciStr nick)).lookup other = some nc') :
      s.view.live nc' = true := by
    by_cases same : other = env.casemap.ciStr nick
    · rw [same, AList.lookup_erase] at known
      cases known
    · rw [AList.lookup_erase_ne same] at known
      exact sound.aliases known
  rw [State.deleteNick]
  split
  · exact erase sound.rest before
  · rename_i last
    obtain ⟨rest, lives, aliases⟩ := sound.rest.deleteCore nc
    refine erase rest fun {other nc'} known => ?_
    rw [aliases] at known
    have different : nc' ≠ nc := by
      rintro rfl
      refine last (List.any_eq_true.mpr ⟨⟨other, nc'⟩, AList.mem_lookup_iff.mp known, ?_⟩)
      exact decide_eq_true rfl
    rw [lives, Function.update_of_ne different]
    exact before known

/-- What is registered differs from a new channel. -/
theorem ne_of_listed (new : s.channels ci = none) {chname : Str}
    (unlisted : s.find env chname = none) {key : Str} {other : χ}
    (is : s.registeredChannelList.lookup key = some other) :
    key ≠ env.casemap.ciStr chname ∧ other ≠ ci := by
  constructor
  · rintro rfl
    rw [State.find, is] at unlisted
    cases unlisted
  · rintro rfl
    obtain ⟨shown, isShown, _⟩ := sound.rest.wellFormed.named is
    obtain ⟨info, found, _⟩ := State.channels_view_eq_some.mp isShown
    rw [new] at found
    cases found

theorem createChannel (new : s.channels ci = none) {chname : Str}
    (unlisted : s.find env chname = none) (valid : chname.head? = some 35)
    (unnamed : Unnamed env s (.createChannel ci chname)) :
    Sound env (s.createChannel env ci chname) := by
  have created : (s.createChannel env ci chname).channels ci = some (.create chname) :=
    State.channels_createChannel_self
  have kept {other : χ} (different : other ≠ ci) :
      (s.createChannel env ci chname).channels other = s.channels other :=
    State.channels_createChannel_ne different
  have listed : (s.createChannel env ci chname).registeredChannelList.lookup
      (env.casemap.ciStr chname) = some ci := AList.lookup_insert _
  have keptListed {key : Str} (different : key ≠ env.casemap.ciStr chname) :
      (s.createChannel env ci chname).registeredChannelList.lookup key =
        s.registeredChannelList.lookup key := AList.lookup_insert_ne different
  have old {key : Str} {other : χ} (is : s.registeredChannelList.lookup key = some other) :=
    sound.ne_of_listed new unlisted is
  have shown {other : χ} {after : ChannelInfo ν δ}
      (isShown : (s.createChannel env ci chname).view.channels other = some after) :
      (other = ci ∧ after = .create chname) ∨ (other ≠ ci ∧ s.view.channels other = some after) := by
    obtain ⟨raw, isRaw, rfl⟩ := State.channels_view_eq_some.mp isShown
    by_cases same : other = ci
    · rw [same, created] at isRaw
      cases isRaw
      exact .inl ⟨same, rfl⟩
    · rw [kept same] at isRaw
      exact .inr ⟨same, Inv.view_found isRaw⟩
  have keyed : env.casemap.ciStr chname ≠ [] := ciStr_ne_nil env.casemap valid
  refine ⟨⟨⟨fun is => is, ?_, ?_, ?_, ?_, ?_⟩, ?_, ?_⟩, sound.aliases⟩
  · intro other after isShown
    rcases shown isShown with ⟨rfl, rfl⟩ | ⟨_, before⟩
    · exact listed
    · have known := sound.rest.wellFormed.known before
      exact (keptListed (old known).1).trans known
  · intro key other is
    by_cases same : key = env.casemap.ciStr chname
    · subst same
      rw [listed] at is
      cases is
      exact ⟨.create chname, Inv.view_found created, rfl⟩
    · rw [keptListed same] at is
      obtain ⟨before, isBefore, named⟩ := sound.rest.wellFormed.named is
      exact ⟨before, (congrArg (Option.map _) (kept (old is).2)).trans isBefore, named⟩
  · rw [keptListed keyed.symm]
    exact sound.rest.wellFormed.nonempty
  · intro other after nc isShown refers
    rcases shown isShown with ⟨rfl, rfl⟩ | ⟨_, before⟩
    · exact absurd refers (Nat.lt_irrefl 0)
    · exact sound.rest.wellFormed.live before refers
  · intro other after a isShown mem
    rcases shown isShown with ⟨rfl, rfl⟩ | ⟨_, before⟩
    · cases mem
    · exact sound.rest.wellFormed.masks before mem
  · intro nc core isCore other
    rw [sound.rest.counts.account isCore, View.held, View.held]
    simp only [State.view]
    by_cases same : other = ci
    · subst same
      rw [created, new]
      rfl
    · rw [kept same]
  · intro key other info is found what
    have names : (s.createChannel env ci chname).view.naming env
        ((s.createChannel env ci chname).registeredChannelList.lookup ·) what key =
        s.view.naming env (s.registeredChannelList.lookup ·) what key := by
      rw [View.naming, View.naming]
      by_cases same : what = env.casemap.ciStr chname
      · subst same
        rw [State.find] at unlisted
        simp only [listed, unlisted, Option.bind_some, Option.bind_none, State.view, created]
        rfl
      · rw [keptListed same]
        cases known : s.registeredChannelList.lookup what with
        | none => rfl
        | some place =>
            simp only [Option.bind_some, State.view, kept (old known).2]
    rw [names]
    by_cases same : key = env.casemap.ciStr chname
    · subst same
      rw [listed] at is
      cases is
      rw [created] at found
      cases found
      refine count_empty.trans (Eq.symm ?_)
      rw [View.naming]
      cases known : s.registeredChannelList.lookup what with
      | none => rfl
      | some place =>
          obtain ⟨before, isBefore, _⟩ := sound.rest.wellFormed.named known
          obtain ⟨raw, isRaw, rfl⟩ := State.channels_view_eq_some.mp isBefore
          rw [Option.bind_some, isBefore, Option.elim_some, ChannelInfo.naming,
            List.countP_eq_zero.mpr fun a mem => ?_]
          · rfl
          · rw [decide_eq_true_iff]
            exact unnamed place raw isRaw a mem
    · rw [keptListed same] at is
      rw [kept (old is).2] at found
      exact sound.rest.counts.channel is found what

theorem resetMask (index : Nat) (m : Str) : Sound env (s.resetMask env ci index m) := by
  have inv : Inv env _ (s.resetMask env ci index m) :=
    sound.rest.resetMask index m sound.aliases
  cases found : s.channels ci with
  | none =>
      rw [State.resetMask, found]
      exact sound
  | some info =>
      cases entry : info.access[index]? with
      | none =>
          rw [State.resetMask, found]
          simp only [entry]
          exact sound
      | some a => exact sound.of_modify inv (State.view_resetMask env found entry m)

end Sound

/-- Step lemma. -/
theorem Sound.step (sound : Sound env s) {action : Action χ ν δ} (unnamed : Unnamed env s action)
    (stepped : Reference.step env s action = some s') : Sound env s' := by
  have live {nc : Option ν} (isLive : s.isLive nc = true) {other : ν} (is : nc = some other) :
      s.view.live other = true := by
    rw [State.isLive, is] at isLive
    exact isLive
  cases action with
  | createCore nc display oper =>
      obtain ⟨new, ⟨⟩⟩ := Option.ite_none_right_eq_some.mp stepped
      exact sound.createCore new display oper
  | createNick nick nc =>
      obtain ⟨⟨isCore, _⟩, ⟨⟩⟩ := Option.ite_none_right_eq_some.mp stepped
      exact sound.createNick _ isCore
  | deleteNick nick =>
      obtain ⟨nc, _, rfl⟩ := Option.map_eq_some_iff.mp stepped
      exact sound.deleteNick nick nc
  | createChannel ci chname =>
      obtain ⟨⟨new, unlisted, valid⟩, ⟨⟩⟩ := Option.ite_none_right_eq_some.mp stepped
      exact sound.createChannel new unlisted valid unnamed
  | deleteChannel ci =>
      obtain ⟨_, ⟨⟩⟩ := Option.ite_none_right_eq_some.mp stepped
      exact sound.of_accounts sound.rest.deleteChannel.1 sound.rest.deleteChannel.2
  | setFounder ci nc =>
      obtain ⟨⟨known, isLive⟩, ⟨⟩⟩ := Option.ite_none_right_eq_some.mp stepped
      obtain ⟨info, found⟩ := Option.isSome_iff_exists.mp known
      exact sound.of_modify (sound.rest.setFounder found (live isLive)) State.view_setFounder
  | setSuccessor ci nc =>
      obtain ⟨⟨known, isLive⟩, ⟨⟩⟩ := Option.ite_none_right_eq_some.mp stepped
      obtain ⟨info, found⟩ := Option.isSome_iff_exists.mp known
      exact sound.of_modify (sound.rest.setSuccessor found (live isLive)) State.view_setSuccessor
  | addAccess ci mask data =>
      obtain ⟨known, ⟨⟩⟩ := Option.ite_none_right_eq_some.mp stepped
      obtain ⟨info, found⟩ := Option.isSome_iff_exists.mp known
      exact sound.of_modify (sound.rest.addAccess found mask data sound.aliases)
        (State.view_addAccess env mask data)
  | setMask ci index mask =>
      obtain ⟨_, ⟨⟩⟩ := Option.ite_none_right_eq_some.mp stepped
      exact sound.resetMask index mask
  | deleteAccess ci index =>
      obtain ⟨_, ⟨⟩⟩ := Option.ite_none_right_eq_some.mp stepped
      exact sound.of_kept (sound.rest.kept_deleteAccess index)
  | addAKick ci akicknc =>
      obtain ⟨⟨known, isLive⟩, ⟨⟩⟩ := Option.ite_none_right_eq_some.mp stepped
      obtain ⟨info, found⟩ := Option.isSome_iff_exists.mp known
      exact sound.of_modify (sound.rest.addAKick found (live isLive rfl))
        (State.view_addAKick akicknc)
  | addAKickMask ci mask =>
      obtain ⟨known, ⟨⟩⟩ := Option.ite_none_right_eq_some.mp stepped
      obtain ⟨info, found⟩ := Option.isSome_iff_exists.mp known
      exact sound.of_modify (sound.rest.addAKickMask found mask) (State.view_addAKickMask mask)
  | eraseAKick ci index =>
      obtain ⟨_, ⟨⟩⟩ := Option.ite_none_right_eq_some.mp stepped
      exact sound.of_kept (sound.rest.kept_eraseAKick index)

/-- A channel registered under a name that an entry has starts without a count
for that entry. -/
theorem Sound.unnamed_of_balanced (sound : Sound env s) {action : Action χ ν δ}
    (stepped : Reference.step env s action = some s') (balanced : s'.Balanced env) :
    Unnamed env s action := by
  cases action with
  | createChannel ci chname =>
      obtain ⟨⟨new, unlisted, valid⟩, ⟨⟩⟩ := Option.ite_none_right_eq_some.mp stepped
      intro other info found a mem isTarget
      have known := sound.rest.wellFormed.known (Inv.view_found found)
      change s.registeredChannelList.lookup (env.casemap.ciStr info.name) = some other at known
      obtain ⟨otherKey, different⟩ := sound.ne_of_listed new unlisted known
      have listed : (s.createChannel env ci chname).find env chname = some ci :=
        AList.lookup_insert _
      have listedOther : (s.createChannel env ci chname).find env info.name = some other :=
        (AList.lookup_insert_ne otherKey).trans known
      have foundOther : (s.createChannel env ci chname).channels other = some info :=
        (State.channels_createChannel_ne different).trans found
      have counted := balanced.channels listed State.channels_createChannel_self info.name
      have noCount : count (ChannelInfo.create chname : ChannelInfo ν δ).references
          (env.casemap.ciStr info.name) = 0 := count_empty
      rw [noCount, State.entriesNaming, listedOther, Option.bind_some, foundOther,
        Option.elim_some] at counted
      have named : 0 < info.naming env (env.casemap.ciStr chname) :=
        List.countP_pos_iff.mpr ⟨a, mem, decide_eq_true isTarget⟩
      omega
  | _ => trivial

/-- **When the counts balance.** In every run the counts are the numbers of
references in every state exactly when no channel is registered under a name
that an access entry has at that time. -/
theorem always_balanced_iff (env : Env δ) (actions : List (Action χ ν δ)) :
    Always (Reference.step env) (State.Balanced env) State.empty actions ↔
      EachStep (Reference.step env) (Unnamed env) State.empty actions :=
  always_iff_eachStep_of_kept (Sound env)
    (fun sound _ balanced stepped => sound.step (sound.unnamed_of_balanced stepped balanced) stepped)
    (fun sound _ stepped => ⟨sound.unnamed_of_balanced stepped,
      fun unnamed => (sound.step unnamed stepped).balanced⟩)
    .empty Sound.empty.balanced actions

/-- No privileges and no limit on the number of channels. -/
def plainEnv : Env Unit where
  casemap := .ascii
  maxRegistered := 0
  privileges := []
  hasPriv := fun _ _ => false
  akickFirst := false

/-- The channel `#a` has an entry for `#b` before `#b` is registered. -/
def lateRegistration : List (Action Nat Nat Unit) :=
  [.createChannel 0 (ascii "#a"), .addAccess 0 (ascii "#b") (), .createChannel 1 (ascii "#b")]

theorem not_always_balanced_lateRegistration :
    ¬Always (Reference.step plainEnv) (State.Balanced plainEnv) State.empty lateRegistration := by
  intro always
  have runs : (run (Reference.step plainEnv) State.empty lateRegistration).isSome = true := by
    decide +kernel
  obtain ⟨final, reached⟩ := Option.isSome_iff_exists.mp runs
  have balanced := always.of_run reached
  have observed : ((run (Reference.step plainEnv) State.empty lateRegistration).map fun s =>
      (s.find plainEnv (ascii "#b"), (s.channels 1).map fun info =>
        count info.references (plainEnv.casemap.ciStr (ascii "#a")),
        s.entriesNaming plainEnv (ascii "#a") (ascii "#b"))) = some (some 1, some 0, 1) := by
    decide +kernel
  simp only [reached, Option.map_some, Option.some.injEq, Prod.mk.injEq] at observed
  obtain ⟨listed, counts, entries⟩ := observed
  obtain ⟨info, found, noCount⟩ := Option.map_eq_some_iff.mp counts
  have counted := balanced.channels listed found (ascii "#a")
  rw [noCount, entries] at counted
  cases counted

end Anope.Reference
