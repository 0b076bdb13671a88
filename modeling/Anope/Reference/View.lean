import Anope.Reference.Core

/-!
# What the channels refer to

The view of a state leaves the counts out.  Writes to counts do not show in it,
and every operation on a channel shows as one change of that channel.
-/

namespace Anope.Reference

open Anope.Text Library.Counter

variable {χ ν δ : Type}

/-- A channel without its counts. -/
def ChannelInfo.content (ci : ChannelInfo ν δ) : ChannelInfo ν δ :=
  { ci with references := ∅ }

/-- The accounts that exist, the channels without their counts, and the tables of
names. -/
structure View (χ ν δ : Type) where
  live : ν → Bool
  channels : χ → Option (ChannelInfo ν δ)
  registeredChannelList : AList fun _ : Str => χ
  nickAliasList : AList fun _ : Str => ν

/-- What a state shows. -/
def State.view (s : State χ ν δ) : View χ ν δ where
  live := fun nc => (s.cores nc).isSome
  channels := fun ci => (s.channels ci).map ChannelInfo.content
  registeredChannelList := s.registeredChannelList
  nickAliasList := s.nickAliasList

variable [LinearOrder χ] [DecidableEq ν]

/-- Change one channel. -/
def View.modify (v : View χ ν δ) (ci : χ) (write : ChannelInfo ν δ → ChannelInfo ν δ) :
    View χ ν δ :=
  { v with channels := Function.update v.channels ci ((v.channels ci).map write) }

section Modify

variable {v : View χ ν δ} {ci other : χ} {write : ChannelInfo ν δ → ChannelInfo ν δ}
  {info : ChannelInfo ν δ}

omit [DecidableEq ν] in
theorem View.channels_modify_self : (v.modify ci write).channels ci = (v.channels ci).map write :=
  Function.update_self ..

omit [DecidableEq ν] in
theorem View.channels_modify_ne (different : other ≠ ci) :
    (v.modify ci write).channels other = v.channels other :=
  Function.update_of_ne different ..

omit [DecidableEq ν] in
theorem View.channels_modify_eq_some (found : (v.modify ci write).channels other = some info) :
    ∃ before, v.channels other = some before ∧
      info = if other = ci then write before else before := by
  by_cases same : other = ci
  · subst same
    rw [View.channels_modify_self, Option.map_eq_some_iff] at found
    obtain ⟨before, found, written⟩ := found
    exact ⟨before, found, (if_pos rfl).symm ▸ written.symm⟩
  · rw [View.channels_modify_ne same] at found
    exact ⟨info, found, (if_neg same).symm⟩

omit [DecidableEq ν] in
theorem View.modify_congr {write' : ChannelInfo ν δ → ChannelInfo ν δ}
    (same : ∀ info, v.channels ci = some info → write info = write' info) :
    v.modify ci write = v.modify ci write' := by
  have mapped : (v.channels ci).map write = (v.channels ci).map write' := by
    cases found : v.channels ci with
    | none => rfl
    | some info => exact congrArg some (same info found)
  rw [View.modify, View.modify, mapped]

omit [DecidableEq ν] in
theorem View.modify_eq_self (unchanged : ∀ info, v.channels ci = some info → write info = info) :
    v.modify ci write = v := by
  rw [View.modify_congr unchanged, View.modify, Option.map_id_fun', id_eq,
    Function.update_eq_self]

omit [DecidableEq ν] in
theorem View.modify_modify (first second : ChannelInfo ν δ → ChannelInfo ν δ) :
    (v.modify ci first).modify ci second = v.modify ci (second ∘ first) := by
  simp only [View.modify, Function.update_self, Function.update_idem, Option.map_map]

end Modify

namespace State

variable {s : State χ ν δ} {ci : χ} {nc : Option ν}

omit [LinearOrder χ] in
/-- An account after a write is an account before it, written to where it is the
one meant. -/
theorem cores_modifyCore_eq_some {write : NickCore χ → NickCore χ} {other : ν} {core : NickCore χ}
    (found : (s.modifyCore nc write).cores other = some core) :
    ∃ before, s.cores other = some before ∧
      core = if nc = some other then write before else before := by
  cases nc with
  | none => exact ⟨core, found, (if_neg (Option.some_ne_none _).symm).symm⟩
  | some nc =>
      by_cases same : other = nc
      · subst same
        have updated : (s.modifyCore (some other) write).cores other = (s.cores other).map write :=
          Function.update_self ..
        obtain ⟨before, foundBefore, written⟩ := Option.map_eq_some_iff.mp (updated ▸ found)
        exact ⟨before, foundBefore, (if_pos rfl).symm ▸ written.symm⟩
      · have kept : (s.modifyCore (some nc) write).cores other = s.cores other :=
          Function.update_of_ne same ..
        exact ⟨core, kept ▸ found, (if_neg fun equal => same (Option.some.inj equal).symm).symm⟩

omit [DecidableEq ν] in
theorem channels_modifyChannel_eq_some {write : ChannelInfo ν δ → ChannelInfo ν δ} {other : χ}
    {info : ChannelInfo ν δ} (found : (s.modifyChannel ci write).channels other = some info) :
    ∃ before, s.channels other = some before ∧
      info = if other = ci then write before else before := by
  by_cases same : other = ci
  · subst same
    have updated : (s.modifyChannel other write).channels other = (s.channels other).map write :=
      Function.update_self ..
    obtain ⟨before, foundBefore, written⟩ := Option.map_eq_some_iff.mp (updated ▸ found)
    exact ⟨before, foundBefore, (if_pos rfl).symm ▸ written.symm⟩
  · have kept : (s.modifyChannel ci write).channels other = s.channels other :=
      Function.update_of_ne same ..
    exact ⟨info, kept ▸ found, (if_neg same).symm⟩

omit [LinearOrder χ] in
@[simp]
theorem view_modifyCore (write : NickCore χ → NickCore χ) :
    (s.modifyCore nc write).view = s.view := by
  cases nc with
  | none => rfl
  | some nc =>
      have live : (fun other => (Function.update s.cores nc ((s.cores nc).map write) other).isSome) =
          fun other => (s.cores other).isSome := by
        funext other
        by_cases same : other = nc
        · rw [same, Function.update_self, Option.isSome_map]
        · rw [Function.update_of_ne same]
      simp only [view, modifyCore, live]

omit [DecidableEq ν] in
theorem view_modifyChannel_of (write shown : ChannelInfo ν δ → ChannelInfo ν δ)
    (shows : ∀ info, (write info).content = shown info.content) :
    (s.modifyChannel ci write).view = s.view.modify ci shown := by
  have channels : (fun other =>
      (Function.update s.channels ci ((s.channels ci).map write) other).map ChannelInfo.content) =
      Function.update (fun other => (s.channels other).map ChannelInfo.content) ci
        (((s.channels ci).map ChannelInfo.content).map shown) := by
    funext other
    by_cases same : other = ci
    · rw [same, Function.update_self, Function.update_self, Option.map_map, Option.map_map]
      exact congrArg (Option.map · _) (funext shows)
    · rw [Function.update_of_ne same, Function.update_of_ne same]
  simp only [view, modifyChannel, View.modify, channels]

omit [DecidableEq ν] in
/-- A write that neither reads nor writes the counts. -/
theorem view_modifyChannel {write : ChannelInfo ν δ → ChannelInfo ν δ}
    (shows : ∀ info, (write info).content = write info.content) :
    (s.modifyChannel ci write).view = s.view.modify ci write :=
  view_modifyChannel_of write write shows

omit [DecidableEq ν] in
/-- Counts do not show. -/
theorem view_modifyNamed (env : Env δ) (name : Str) {write : ChannelInfo ν δ → ChannelInfo ν δ}
    (counts : ∀ info, (write info).content = info.content) :
    (s.modifyNamed env name write).view = s.view := by
  rw [modifyNamed]
  split
  · rw [view_modifyChannel_of write id counts]
    exact View.modify_eq_self fun _ _ => rfl
  · rfl

theorem view_setFounder :
    (s.setFounder ci nc).view = s.view.modify ci fun info => { info with founder := nc } := by
  rw [setFounder, view_modifyCore, view_modifyChannel, view_modifyCore]
  exact fun _ => rfl

theorem view_setSuccessor :
    (s.setSuccessor ci nc).view = s.view.modify ci fun info => { info with successor := nc } := by
  rw [setSuccessor, view_modifyCore, view_modifyChannel, view_modifyCore]
  exact fun _ => rfl

theorem view_addAKick (akicknc : ν) :
    (s.addAKick ci akicknc).view = s.view.modify ci fun info =>
      { info with akicks := info.akicks ++ [{ mask := [], nc := some akicknc }] } := by
  rw [addAKick, view_modifyCore, view_modifyChannel]
  exact fun _ => rfl

omit [DecidableEq ν] in
theorem view_addAKickMask (mask : Str) :
    (s.addAKickMask ci mask).view = s.view.modify ci fun info =>
      { info with akicks := info.akicks ++ [{ mask := mask, nc := none }] } :=
  view_modifyChannel fun _ => rfl

variable (env : Env δ)

theorem view_releaseAccess (what : Str) (a : ChanAccess ν δ) :
    (s.releaseAccess env ci what a).view = s.view := by
  rw [releaseAccess]
  split
  · exact view_modifyCore _
  · exact view_modifyNamed env _ fun _ => rfl

/-- What `SetMask` makes of an entry. -/
def resolve (s : State χ ν δ) (m : Str) (a : ChanAccess ν δ) : ChanAccess ν δ :=
  match s.nickAliasList.lookup (env.casemap.ciStr m) with
  | some nc => { a with mask := [], nc := some nc }
  | none => { a with mask := m, nc := none }

theorem view_releaseMask (what : Str) (a : ChanAccess ν δ) :
    (s.releaseMask env ci what a).view = s.view := by
  rw [releaseMask]
  split
  · rfl
  · exact view_releaseAccess env what a

theorem view_assignMask (what m : Str) (a : ChanAccess ν δ) :
    (s.assignMask env ci what m a).2.view = s.view := by
  rw [assignMask]
  split
  · rw [view_modifyCore]
  · exact view_modifyNamed env m fun _ => rfl

theorem assignMask_fst (what m : Str) (a : ChanAccess ν δ) :
    (s.assignMask env ci what m a).1 = s.resolve env m a := by
  rw [assignMask, resolve]
  cases s.nickAliasList.lookup (env.casemap.ciStr m) <;> rfl

theorem view_setMask (what m : Str) (a : ChanAccess ν δ) :
    (s.setMask env ci what m a).2.view = s.view := by
  rw [setMask, view_assignMask, view_releaseMask]

theorem setMask_fst (what m : Str) (a : ChanAccess ν δ) :
    (s.setMask env ci what m a).1 = s.resolve env m a := by
  have aliases : (s.releaseMask env ci what a).nickAliasList = s.nickAliasList :=
    congrArg View.nickAliasList (view_releaseMask env what a)
  rw [setMask, assignMask_fst, resolve, resolve, aliases]

omit [LinearOrder χ] [DecidableEq ν] in
/-- Where there is no channel, nothing of one shows. -/
theorem channels_view_eq_some {shown : ChannelInfo ν δ} :
    s.view.channels ci = some shown ↔ ∃ info, s.channels ci = some info ∧ info.content = shown :=
  Option.map_eq_some_iff

omit [DecidableEq ν] in
theorem view_modify_of_none (missing : s.channels ci = none)
    (write : ChannelInfo ν δ → ChannelInfo ν δ) : s.view = s.view.modify ci write := by
  refine (View.modify_eq_self fun shown channel => ?_).symm
  obtain ⟨info, found, _⟩ := channels_view_eq_some.mp channel
  rw [missing] at found
  cases found

theorem view_addAccess (m : Str) (data : δ) :
    (s.addAccess env ci m data).view = s.view.modify ci fun info =>
      { info with access := info.access ++ [s.resolve env m { mask := [], nc := none, data }] } := by
  rw [addAccess]
  split
  · rename_i info _
    have entry : (s.setMask env ci info.name m { mask := [], nc := none, data }).1 =
        s.resolve env m { mask := [], nc := none, data } := setMask_fst env _ m _
    have shows : (s.setMask env ci info.name m { mask := [], nc := none, data }).2.view = s.view :=
      view_setMask env _ m _
    rw [← entry, ← shows]
    exact view_modifyChannel fun _ => rfl
  · rename_i missing
    exact view_modify_of_none missing _

theorem view_resetMask {index : Nat} {info : ChannelInfo ν δ} {a : ChanAccess ν δ}
    (found : s.channels ci = some info) (entry : info.access[index]? = some a) (m : Str) :
    (s.resetMask env ci index m).view = s.view.modify ci fun info =>
      { info with access := info.access.set index (s.resolve env m a) } := by
  rw [resetMask, found]
  simp only [entry]
  have made : (s.setMask env ci info.name m a).1 = s.resolve env m a := setMask_fst env _ m _
  have shows : (s.setMask env ci info.name m a).2.view = s.view := view_setMask env _ m _
  rw [← made, ← shows]
  exact view_modifyChannel fun _ => rfl

theorem view_deleteAccess (index : Nat) :
    (s.deleteAccess env ci index).view = s.view.modify ci fun info =>
      { info with access := info.access.eraseIdx index } := by
  rw [deleteAccess]
  split
  · rename_i info found
    split
    · rw [view_releaseAccess, view_modifyChannel]
      exact fun _ => rfl
    · rename_i missing
      refine (View.modify_eq_self fun shown channel => ?_).symm
      obtain ⟨other, foundOther, rfl⟩ := channels_view_eq_some.mp channel
      rw [found] at foundOther
      cases foundOther
      have unchanged : info.content.access.eraseIdx index = info.content.access :=
        List.eraseIdx_of_length_le (List.getElem?_eq_none_iff.mp missing)
      rw [unchanged]
  · rename_i missing
    exact view_modify_of_none missing _

end State

end Anope.Reference
