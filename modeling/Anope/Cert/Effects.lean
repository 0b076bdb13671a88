import Anope.Cert.Core

/-!
# What the operations on certificates do

A certificate of an account is in its list, so what the lists hold can be read off
the heap.  Under this, each operation is described by its effect on the heap and on
the table.
-/

namespace Anope.Cert.State

open Anope.Text

variable {α ρ : Type} [DecidableEq α] [DecidableEq ρ] {casemap : Casemap} {state : State α ρ}
  {nc : α} {p : ρ} {entry : Str}

/-- The lists hold exactly the certificates, each once. -/
structure Sound (state : State α ρ) : Prop where
  listed : ∀ nc p, p ∈ state.list nc ↔ ∃ cert, state.heap p = some cert ∧ cert.account = nc
  distinct : ∀ nc, (state.list nc).Nodup

/-- The list of an account contains a fingerprint. -/
def Holds (casemap : Casemap) (state : State α ρ) (nc : α) (f : Str) : Prop :=
  ∃ p ∈ state.list nc, ∃ cert, state.heap p = some cert ∧
    casemap.ciStr cert.fingerprint = casemap.ciStr f

/-- The table has no entry for a deleted certificate. -/
def NoneDeleted (state : State α ρ) : Prop :=
  ∀ key p, state.certmap key = some p → (state.heap p).isSome = true

omit [DecidableEq α] [DecidableEq ρ] in
theorem Sound.holds_iff (sound : state.Sound) {f : Str} :
    state.Holds casemap nc f ↔
      ∃ p cert, state.heap p = some cert ∧ cert.account = nc ∧
        casemap.ciStr cert.fingerprint = casemap.ciStr f := by
  constructor
  · rintro ⟨p, mem, cert, found, same⟩
    obtain ⟨other, isOther, account⟩ := (sound.listed nc p).mp mem
    cases isOther.symm.trans found
    exact ⟨p, cert, found, account, same⟩
  · rintro ⟨p, cert, found, account, same⟩
    exact ⟨p, (sound.listed nc p).mpr ⟨cert, found, account⟩, cert, found, same⟩

omit [DecidableEq α] [DecidableEq ρ] in
theorem find_eq_some_iff {f : Str} :
    state.findAccountFromCert casemap f = some nc ↔
      ∃ p cert, state.certmap (casemap.ciStr f) = some p ∧ state.heap p = some cert ∧
        cert.account = nc := by
  rw [findAccountFromCert, Option.bind_eq_some_iff]
  refine exists_congr fun p => ?_
  rw [Option.map_eq_some_iff]
  constructor
  · rintro ⟨mapped, cert, found, account⟩
    exact ⟨cert, mapped, found, account⟩
  · rintro ⟨cert, mapped, found, account⟩
    exact ⟨mapped, cert, found, account⟩

omit [DecidableEq α] [DecidableEq ρ] in
/-- What `find_if` finds is a certificate of the account with exactly that text. -/
theorem Sound.of_findIf (sound : state.Sound) (found : state.findIf nc entry = some p) :
    ∃ cert, state.heap p = some cert ∧ cert.account = nc ∧ cert.fingerprint = entry := by
  obtain ⟨cert, isCert, account⟩ := (sound.listed nc p).mp (List.mem_of_find?_eq_some found)
  have matched := List.find?_some found
  rw [isCert] at matched
  exact ⟨cert, isCert, account, eq_of_beq matched⟩

omit [DecidableEq ρ] in
/-- The lists after the list of one account was set. -/
theorem list_of_certs {next : State α ρ} {list : List ρ}
    (certs : next.certs = Function.update state.certs nc (some list)) (other : α) :
    next.list other = if other = nc then list else state.list other := by
  rw [State.list, certs, Function.update_apply]
  split
  · rfl
  · rfl

/-! ## A new certificate -/

theorem list_addCert (other : α) :
    (addCert casemap nc state (entry, p)).list other =
      if other = nc then state.list nc ++ [p] else state.list other := by
  have certs : (addCert casemap nc state (entry, p)).certs =
      Function.update state.certs nc (some (state.list nc ++ [p])) := rfl
  exact list_of_certs certs other

theorem Sound.addCert (sound : state.Sound) (free : state.heap p = none) :
    (addCert casemap nc state (entry, p)).Sound := by
  have isNew : ∀ other, p ∉ state.list other := fun other mem => by
    obtain ⟨cert, found, _⟩ := (sound.listed other p).mp mem
    exact nomatch free.symm.trans found
  constructor
  · intro other q
    have heapIff : (∃ cert, (State.addCert casemap nc state (entry, p)).heap q = some cert ∧
          cert.account = other) ↔
        (q = p ∧ nc = other) ∨ ∃ cert, state.heap q = some cert ∧ cert.account = other := by
      by_cases same : q = p
      · subst same
        simp [State.addCert, free]
      · simp [State.addCert, same]
    rw [heapIff, ← sound.listed, list_addCert]
    split
    · rename_i own
      subst own
      rw [List.mem_append, List.mem_singleton, or_comm]
      simp only [and_true]
    · rename_i foreign
      simp only [Ne.symm foreign, and_false, false_or]
  · intro other
    rw [list_addCert]
    split
    · exact (sound.distinct nc).append (List.nodup_singleton p)
        (List.disjoint_singleton.mpr (isNew nc))
    · exact sound.distinct other

theorem NoneDeleted.addCert (noneDeleted : state.NoneDeleted) :
    (addCert casemap nc state (entry, p)).NoneDeleted := by
  intro key q mapped
  rw [State.addCert] at mapped ⊢
  dsimp only at mapped ⊢
  rw [Function.update_apply] at mapped ⊢
  split at mapped
  · cases mapped
    rw [if_pos rfl]
    rfl
  · split
    · rfl
    · exact noneDeleted key q mapped

theorem find_addCert (noneDeleted : state.NoneDeleted) (free : state.heap p = none) (f : Str) :
    (addCert casemap nc state (entry, p)).findAccountFromCert casemap f =
      if casemap.ciStr f = casemap.ciStr entry then some nc
      else state.findAccountFromCert casemap f := by
  rw [findAccountFromCert, State.addCert]
  dsimp only
  by_cases same : casemap.ciStr f = casemap.ciStr entry
  · rw [same, Function.update_self, if_pos rfl, Option.bind_some, Function.update_self]
    rfl
  · rw [Function.update_of_ne same, if_neg same, findAccountFromCert]
    refine Option.bind_congr fun q mapped => ?_
    have different : q ≠ p := by
      rintro rfl
      have live := noneDeleted _ _ mapped
      rw [free] at live
      exact nomatch live
    rw [Function.update_of_ne different]

theorem holds_addCert_iff (sound : state.Sound) (free : state.heap p = none) {other : α}
    {f : Str} :
    (addCert casemap nc state (entry, p)).Holds casemap other f ↔
      state.Holds casemap other f ∨ other = nc ∧ casemap.ciStr f = casemap.ciStr entry := by
  rw [(sound.addCert free).holds_iff, sound.holds_iff]
  constructor
  · rintro ⟨q, cert, found, account, same⟩
    rw [State.addCert] at found
    dsimp only at found
    rw [Function.update_apply] at found
    split at found
    · cases found
      exact .inr ⟨account.symm, same.symm⟩
    · exact .inl ⟨q, cert, found, account, same⟩
  · rintro (⟨q, cert, found, account, same⟩ | ⟨rfl, same⟩)
    · have different : q ≠ p := by
        rintro rfl
        exact nomatch free.symm.trans found
      exact ⟨q, cert, (Function.update_of_ne different _ _).trans found, account, same⟩
    · exact ⟨p, ⟨other, entry⟩, Function.update_self _ _ _, rfl, same.symm⟩

/-! ## A deleted certificate -/

/-- The list of an account contains a fingerprint besides one certificate. -/
def HoldsBesides (casemap : Casemap) (state : State α ρ) (p : ρ) (nc : α) (f : Str) : Prop :=
  ∃ q cert, q ≠ p ∧ state.heap q = some cert ∧ cert.account = nc ∧
    casemap.ciStr cert.fingerprint = casemap.ciStr f

omit [DecidableEq α] [DecidableEq ρ] in
/-- A list contains what one certificate has and what it contains besides. -/
theorem Sound.holds_iff_of_heap (sound : state.Sound) {cert : NSCertInfo α}
    (found : state.heap p = some cert) {f : Str} :
    state.Holds casemap nc f ↔
      state.HoldsBesides casemap p nc f ∨
        cert.account = nc ∧ casemap.ciStr cert.fingerprint = casemap.ciStr f := by
  rw [sound.holds_iff]
  constructor
  · rintro ⟨q, held, isHeld, owner, same⟩
    by_cases first : q = p
    · subst first
      cases isHeld.symm.trans found
      exact .inr ⟨owner, same⟩
    · exact .inl ⟨q, held, first, isHeld, owner, same⟩
  · rintro (⟨q, held, _, isHeld, owner, same⟩ | ⟨owner, same⟩)
    · exact ⟨q, held, isHeld, owner, same⟩
    · exact ⟨p, cert, found, owner, same⟩

omit [DecidableEq α] [DecidableEq ρ] in
theorem update_none_eq_some_iff {ι β : Type} [DecidableEq ι] {f : ι → Option β} {i j : ι} {b : β} :
    Function.update f i none j = some b ↔ j ≠ i ∧ f j = some b := by
  rw [Function.update_apply]
  split
  · rename_i same
    exact iff_of_false (fun is => nomatch is) fun ⟨different, _⟩ => different same
  · rename_i different
    exact (and_iff_right different).symm

theorem Sound.delete (sound : state.Sound) (mem : p ∈ state.list nc) :
    (delete (state.eraseKey casemap entry) nc p).Sound := by
  obtain ⟨cert, found, account⟩ := (sound.listed nc p).mp mem
  have lists (other : α) : (State.delete (state.eraseKey casemap entry) nc p).list other =
      if other = nc then (state.list nc).erase p else state.list other :=
    list_of_certs rfl other
  constructor
  · intro other q
    have heapIff : (∃ cert, (State.delete (state.eraseKey casemap entry) nc p).heap q = some cert ∧
          cert.account = other) ↔ q ≠ p ∧ q ∈ state.list other := by
      rw [sound.listed, ← exists_and_left]
      refine exists_congr fun cert => ?_
      rw [← and_assoc, ← update_none_eq_some_iff]
      rfl
    rw [heapIff, lists]
    split
    · rename_i own
      rw [(sound.distinct nc).mem_erase_iff, own]
    · rename_i foreign
      refine (and_iff_right_of_imp fun isIn => ?_).symm
      rintro rfl
      obtain ⟨again, isAgain, owner⟩ := (sound.listed _ _).mp isIn
      cases isAgain.symm.trans found
      exact foreign (owner.symm.trans account)
  · intro other
    rw [lists]
    split
    · exact (sound.distinct nc).erase p
    · exact sound.distinct other

theorem holds_delete_iff (sound : state.Sound) (mem : p ∈ state.list nc) {other : α} {f : Str} :
    (delete (state.eraseKey casemap entry) nc p).Holds casemap other f ↔
      state.HoldsBesides casemap p other f := by
  rw [(sound.delete mem).holds_iff]
  refine exists_congr fun q => exists_congr fun cert => ?_
  rw [← and_assoc (a := q ≠ p), ← update_none_eq_some_iff]
  rfl

/-! ## A changed fingerprint -/

omit [DecidableEq α] in
theorem setFingerprint_heap {cert : NSCertInfo α} (found : state.heap p = some cert) :
    (state.setFingerprint p entry).heap =
      Function.update state.heap p (some { cert with fingerprint := entry }) := by
  rw [setFingerprint, found]
  rfl

omit [DecidableEq α] in
/-- The accounts of the certificates stay. -/
theorem map_account_setFingerprint (q : ρ) :
    ((state.setFingerprint p entry).heap q).map NSCertInfo.account =
      (state.heap q).map NSCertInfo.account := by
  rw [setFingerprint]
  dsimp only
  rw [Function.update_apply]
  split
  · rename_i same
    rw [same, Option.map_map]
    rfl
  · rfl

omit [DecidableEq α] [DecidableEq ρ] in
theorem Sound.of_accounts {next : State α ρ} (sound : state.Sound)
    (lists : ∀ nc, next.list nc = state.list nc)
    (accounts : ∀ q, (next.heap q).map NSCertInfo.account =
      (state.heap q).map NSCertInfo.account) : next.Sound := by
  constructor
  · intro nc q
    rw [lists, sound.listed, ← Option.map_eq_some_iff, ← Option.map_eq_some_iff, accounts]
  · intro nc
    rw [lists]
    exact sound.distinct nc

omit [DecidableEq α] in
theorem Sound.setFingerprint (sound : state.Sound) : (state.setFingerprint p entry).Sound :=
  sound.of_accounts (fun _ => rfl) map_account_setFingerprint

omit [DecidableEq α] in
theorem holds_setFingerprint_iff (sound : state.Sound) {cert : NSCertInfo α}
    (found : state.heap p = some cert) {other : α} {f : Str} :
    (state.setFingerprint p entry).Holds casemap other f ↔
      state.HoldsBesides casemap p other f ∨
        cert.account = other ∧ casemap.ciStr entry = casemap.ciStr f := by
  rw [sound.setFingerprint.holds_iff]
  simp only [setFingerprint_heap found]
  constructor
  · rintro ⟨q, cert, isCert, account, same⟩
    rw [Function.update_apply] at isCert
    split at isCert
    · cases isCert
      exact .inr ⟨account, same⟩
    · rename_i different
      exact .inl ⟨q, cert, different, isCert, account, same⟩
  · rintro (⟨q, cert, different, isCert, account, same⟩ | ⟨account, same⟩)
    · exact ⟨q, cert, (Function.update_of_ne different _ _).trans isCert, account, same⟩
    · exact ⟨p, _, Function.update_self _ _ _, account, same⟩

/-! ## A cleared list -/

/-- One of some certificates has a key. -/
def Named (casemap : Casemap) (state : State α ρ) (ps : List ρ) (key : Str) : Prop :=
  ∃ p ∈ ps, ∃ cert, state.heap p = some cert ∧ casemap.ciStr cert.fingerprint = key

omit [DecidableEq α] in
theorem heap_clearOne_iff {q : ρ} {cert : NSCertInfo α} :
    (clearOne casemap state p).heap q = some cert ↔ q ≠ p ∧ state.heap q = some cert := by
  rw [clearOne]
  split
  · rename_i gone
    refine (and_iff_right_of_imp fun found => ?_).symm
    rintro rfl
    exact nomatch gone.symm.trans found
  · exact update_none_eq_some_iff

omit [DecidableEq α] in
theorem certmap_clearOne_iff {key : Str} {q : ρ} :
    (clearOne casemap state p).certmap key = some q ↔
      state.certmap key = some q ∧ ¬ state.Named casemap [p] key := by
  have named : state.Named casemap [p] key ↔
      ∃ cert, state.heap p = some cert ∧ casemap.ciStr cert.fingerprint = key := by
    simp only [Named, List.mem_singleton, exists_eq_left]
  rw [named, clearOne]
  cases found : state.heap p with
  | none =>
      refine (and_iff_left ?_).symm
      rintro ⟨cert, is, _⟩
      exact nomatch is
  | some cert =>
      change Function.update state.certmap (casemap.ciStr cert.fingerprint) none key = some q ↔ _
      rw [Function.update_apply]
      split
      · rename_i same
        exact iff_of_false (fun is => nomatch is) fun ⟨_, new⟩ => new ⟨cert, rfl, same.symm⟩
      · rename_i different
        refine (and_iff_left ?_).symm
        rintro ⟨_, ⟨⟩, same⟩
        exact different same.symm

omit [DecidableEq α] in
theorem heap_foldl_clearOne_iff (ps : List ρ) {q : ρ} {cert : NSCertInfo α} :
    (ps.foldl (clearOne casemap) state).heap q = some cert ↔
      q ∉ ps ∧ state.heap q = some cert := by
  induction ps generalizing state with
  | nil => exact (and_iff_right List.not_mem_nil).symm
  | cons p ps ih =>
      rw [List.foldl_cons, ih, heap_clearOne_iff, List.mem_cons, not_or, ← and_assoc,
        and_comm (a := q ∉ ps)]

omit [DecidableEq α] in
theorem certmap_foldl_clearOne_iff (ps : List ρ) {key : Str} {q : ρ} :
    (ps.foldl (clearOne casemap) state).certmap key = some q ↔
      state.certmap key = some q ∧ ¬ state.Named casemap ps key := by
  induction ps generalizing state with
  | nil => exact (and_iff_left fun ⟨_, mem, _⟩ => nomatch mem).symm
  | cons p ps ih =>
      rw [List.foldl_cons, ih, certmap_clearOne_iff, and_assoc, ← not_or]
      refine and_congr_right fun _ => not_congr ?_
      constructor
      · rintro (⟨r, mem, cert, found, same⟩ | ⟨r, mem, cert, found, same⟩)
        · exact ⟨r, List.mem_cons.mpr (.inl (List.mem_singleton.mp mem)), cert, found, same⟩
        · exact ⟨r, List.mem_cons_of_mem _ mem, cert, (heap_clearOne_iff.mp found).2, same⟩
      · rintro ⟨r, mem, cert, found, same⟩
        by_cases first : r = p
        · exact .inl ⟨r, List.mem_singleton.mpr first, cert, found, same⟩
        · exact .inr ⟨r, (List.mem_cons.mp mem).resolve_left first, cert,
            heap_clearOne_iff.mpr ⟨first, found⟩, same⟩

omit [DecidableEq α] in
theorem certs_foldl_clearOne (ps : List ρ) :
    (ps.foldl (clearOne casemap) state).certs = state.certs := by
  induction ps generalizing state with
  | nil => rfl
  | cons p ps ih =>
      rw [List.foldl_cons, ih, clearOne]
      split <;> rfl

theorem heap_clearCert_iff {q : ρ} {cert : NSCertInfo α} :
    (state.clearCert casemap nc).heap q = some cert ↔
      q ∉ state.list nc ∧ state.heap q = some cert :=
  heap_foldl_clearOne_iff _

theorem certmap_clearCert_iff {key : Str} {q : ρ} :
    (state.clearCert casemap nc).certmap key = some q ↔
      state.certmap key = some q ∧ ¬ state.Named casemap (state.list nc) key :=
  certmap_foldl_clearOne_iff _

theorem list_clearCert (other : α) :
    (state.clearCert casemap nc).list other = if other = nc then [] else state.list other := by
  have certs : (state.clearCert casemap nc).certs = Function.update state.certs nc (some []) :=
    congrArg (fun certs : α → Option (List ρ) => Function.update certs nc (some []))
      (certs_foldl_clearOne _)
  exact list_of_certs certs other

end Anope.Cert.State
